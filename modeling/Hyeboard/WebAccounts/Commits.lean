import Hyeboard.Lib.FailingWrites
import Hyeboard.Lib.Json
/-!
# Commits of accounts

`commitImportedAccount` and `commitVnuRefresh` of `lib/api/api.ts`, over the texts the
two storages of the browser hold. The account list is JSON, and whatever stands there
is read. A `try` is the list of its writes, a `catch` that of the writes that undo them.
-/

namespace Hyeboard.WebAccounts

open FailingWrites

inductive Area where
  | localStorage
  | sessionStorage
deriving DecidableEq

abbrev Storage := Stores Area Text Text

abbrev StorageWrite := Write Area Text Text

abbrev Browser := Machine Area Text Text

def accountsKey : Text := units "hyeboard.accounts"

def activeAccountKey : Text := units "hyeboard.activeAccountId"

def legacyVnuReloginKeys : List Text := [units "hyeboard.relogin.vnu.username", units "hyeboard.relogin.vnu.password"]

def refreshGrantPrefix : Text := units "hyeboard.vnu.refreshGrant."

def grantKey (accountId : Text) : Text := refreshGrantPrefix ++ accountId

def readVnuRefreshGrant (storage : Storage) (accountId : Text) : Option Text := storage .sessionStorage (grantKey accountId)

/-- `storeVnuRefreshGrant` of a grant that is truthy, else `clearVnuRefreshGrant`. -/
def storeOrClearGrant (accountId : Text) (grant : Option Text) : StorageWrite :=
  match grant.filter (· ≠ []) with
  | some grant => .set .sessionStorage (grantKey accountId) grant
  | none => .remove .sessionStorage (grantKey accountId)

structure AuthResult where
  token : Text
  studentCode : Option Text
  refreshGrant : Option Text

structure StoredAccount where
  id : Text
  token : Text

inductive Thrown where
  | typeError
  | quotaExceeded
deriving DecidableEq

/-! ## The account list -/

/-- A property of a value that is not `null`; none where it is undefined. -/
def property (value : Json) (key : String) : Option Json :=
  match value with
  | .obj fields => fields.lookup (units key)
  | _ => none

/-- `value === text`. -/
def isText (value : Option Json) (text : Text) : Bool :=
  match value with
  | some (.str t) => t = text
  | _ => false

/-- `(value ?? "") === text`. -/
def isTextOrMissing (value : Option Json) (text : Text) : Bool :=
  match value with
  | none | some .null => text = []
  | some value => isText (some value) text

def readAccounts (storage : Storage) : Json :=
  match (storage .localStorage accountsKey).filter (· ≠ []) with
  | some raw => (Json.parse raw).getD (.arr [])
  | none => .arr []

def writeAccounts (accounts : List Json) : StorageWrite := .set .localStorage accountsKey (Json.stringify (.arr accounts))

def removeLegacyKeys : List StorageWrite := legacyVnuReloginKeys.map (.remove .sessionStorage)

/-- `findIndex`, whose test reads a property. -/
def findIndex (test : Json → Bool) : List Json → Except Thrown (Option Nat)
  | [] => .ok none
  | .null :: _ => .error .typeError
  | account :: rest => if test account then .ok (some 0) else (findIndex test rest).map (·.map (· + 1))

/-- `{ ...account, token, studentCode: studentCode ?? account.studentCode }`. -/
def withSession (account : Json) (token : Text) (studentCode : Option Text) : Json :=
  let fields := match account with
    | .obj fields => fields
    | _ => []
  let fields := Json.setField fields (units "token") (.str token)
  match (studentCode.map Json.str).or (property account "studentCode") with
  | some code => .obj (Json.setField fields (units "studentCode") code)
  | none => .obj fields

/-- `uuid()` and `new Date().toISOString()`. -/
structure Fresh where
  id : Text
  addedAt : Text

def newAccount (fresh : Fresh) (universityId : Text) (auth : AuthResult) : Json :=
  .obj ([(units "id", .str fresh.id), (units "universityId", .str universityId), (units "token", .str auth.token)] ++
    (match auth.studentCode with
      | some code => [(units "studentCode", .str code)]
      | none => []) ++
    [(units "addedAt", .str fresh.addedAt)])

def buildImportedAccount (accounts : List Json) (universityId : Text) (auth : AuthResult) (fresh : Fresh) :
    Except Thrown (Json × Option Nat) := do
  let index ← findIndex (fun account => isText (property account "universityId") universityId &&
    isTextOrMissing (property account "studentCode") (auth.studentCode.getD [])) accounts
  match index with
  | none => return (newAccount fresh universityId auth, none)
  | some index => return (withSession (accounts.getD index .null) auth.token auth.studentCode, some index)

/-! ## The commits -/

/-- What a commit is about to do, and what undoes it. -/
structure Plan where
  account : Json
  accountId : Text
  writes : List StorageWrite
  undo : List StorageWrite

/-- The `try` and its `catch`, which throws the error again. -/
def Plan.commit (plan : Plan) (quota : Quota Area Text Text) (browser : Browser) : Except Thrown Plan × Browser :=
  match perform quota plan.writes browser with
  | (true, browser) => (.ok plan, browser)
  | (false, browser) => (.error .quotaExceeded, (perform quota plan.undo browser).2)

section
-- `String(value)` of a value that is not a string; none where that throws
variable (stringOf : Option Json → Option Text)

def accountIdText (account : Json) : Option Text :=
  match property account "id" with
  | some (.str id) => some id
  | id => stringOf id

/-- `commitImportedAccount`, up to its `try`. -/
def planImportedAccount (storage : Storage) (universityId : Text) (auth : AuthResult) (fresh : Fresh) : Except Thrown Plan :=
  match readAccounts storage with
  | .arr accounts => do
    let (account, index) ← buildImportedAccount accounts universityId auth fresh
    match accountIdText stringOf account with
    | none => throw .typeError
    | some accountId =>
      let accounts := match index with
        | none => accounts ++ [account]
        | some index => accounts.set index account
      return {
        account, accountId
        writes := (if universityId = units "vnu" then [storeOrClearGrant accountId auth.refreshGrant] else []) ++
          [writeAccounts accounts, .set .localStorage activeAccountKey accountId] ++ removeLegacyKeys
        undo := [restore .localStorage accountsKey (storage .localStorage accountsKey),
          restore .localStorage activeAccountKey (storage .localStorage activeAccountKey),
          storeOrClearGrant accountId (readVnuRefreshGrant storage accountId)] }
  | _ => throw .typeError

def commitImportedAccount (quota : Quota Area Text Text) (browser : Browser) (universityId : Text) (auth : AuthResult) (fresh : Fresh) :
    Except Thrown Json × Browser :=
  match planImportedAccount stringOf browser.stores universityId auth fresh with
  | .error error => (.error error, browser)
  | .ok plan =>
    let (result, browser) := plan.commit quota browser
    (result.map (·.account), browser)

end

/-- `commitVnuRefresh`, up to its `try`; none for `return false`. There are accounts when the active one is read, so that
`getActiveAccountId` has nothing to migrate. -/
def planVnuRefresh (storage : Storage) (origin : StoredAccount) (result : AuthResult) : Except Thrown (Option Plan) :=
  match readAccounts storage with
  | .arr accounts => do
    let index ← findIndex (fun account => isText (property account "id") origin.id && isText (property account "token") origin.token) accounts
    match index, result.refreshGrant.filter (· ≠ []) with
    | some index, some grant =>
      if storage .localStorage activeAccountKey = some origin.id then
        let account := withSession (accounts.getD index .null) result.token result.studentCode
        return some {
          account, accountId := origin.id
          writes := [.set .sessionStorage (grantKey origin.id) grant, writeAccounts (accounts.set index account)]
          undo := [storeOrClearGrant origin.id (readVnuRefreshGrant storage origin.id)] }
      else return none
    | _, _ => return none
  | _ => throw .typeError

def commitVnuRefresh (quota : Quota Area Text Text) (browser : Browser) (origin : StoredAccount) (result : AuthResult) :
    Except Thrown Bool × Browser :=
  match planVnuRefresh browser.stores origin result with
  | .error error => (.error error, browser)
  | .ok none => (.ok false, browser)
  | .ok (some plan) =>
    let (result, browser) := plan.commit quota browser
    (result.map fun _ => true, browser)

end Hyeboard.WebAccounts
