import Hyeboard.Lib.JsValue
import Hyeboard.WebAccounts.Commits
/-!
# Commits are all or nothing

Both commits write the account list last but for the active account, so that what has
to be undone is one key of each storage. Writing it back goes through, whatever quota
was hit: only a grant that is the empty string is deleted instead of brought back.
-/

namespace Hyeboard.WebAccounts

open FailingWrites

/-! ## What is asked of a commit -/

/-- Account list, active account and the grants of all accounts. -/
structure Unchanged (before after : Storage) : Prop where
  accounts : after .localStorage accountsKey = before .localStorage accountsKey
  active : after .localStorage activeAccountKey = before .localStorage activeAccountKey
  grants : ∀ id, readVnuRefreshGrant after id = readVnuRefreshGrant before id

/-- The accounts of before, one of them replaced or one more. -/
def Holds (before : Storage) (accounts : List Json) (account : Json) : Prop :=
  ∃ old, readAccounts before = .arr old ∧ (accounts = old ++ [account] ∨ ∃ index, index < old.length ∧ accounts = old.set index account)

/-- The account with its new token is in the list, active, and has the grant. -/
structure Updated (before after : Storage) (account : Json) (id token : Text) (grant : Option Text) : Prop where
  accounts : ∃ accounts, Holds before accounts account ∧ after .localStorage accountsKey = some (Json.stringify (.arr accounts))
  token : isText (property account "token") token = true
  active : after .localStorage activeAccountKey = some id
  grant : readVnuRefreshGrant after id = grant
  others : ∀ other, other ≠ id → readVnuRefreshGrant after other = readVnuRefreshGrant before other

section
variable (stringOf : Option Json → Option Text)

def ImportAllOrNothing (before : Storage) (universityId : Text) (auth : AuthResult) (outcome : Except Thrown Json × Browser) : Prop :=
  match outcome with
  | (.ok account, after) => ∃ id, accountIdText stringOf account = some id ∧
      Updated before after.stores account id auth.token
        (if universityId = units "vnu" then auth.refreshGrant.filter (· ≠ []) else readVnuRefreshGrant before id)
  | (.error _, after) => Unchanged before after.stores

end

def RefreshAllOrNothing (before : Storage) (origin : StoredAccount) (result : AuthResult) (outcome : Except Thrown Bool × Browser) : Prop :=
  match outcome with
  | (.ok true, after) => ∃ account,
      Updated before after.stores account origin.id result.token (result.refreshGrant.filter (· ≠ []))
  | (.ok false, after) => after.stores = before
  | (.error _, after) => Unchanged before after.stores

/-- The account has no grant that is the empty string, or nothing that is written needs more room than what was there. -/
def Plan.Safe (plan : Plan) (before : Storage) : Prop :=
  readVnuRefreshGrant before plan.accountId ≠ some [] ∨ ∀ write ∈ plan.writes, write.Fitting List.length before

section
variable {before : Storage} {quota : Quota Area Text Text} {id : Text}

/-! ## Undoing -/

theorem storeOrClearGrant_eq (grant : Option Text) :
    storeOrClearGrant id grant = restore .sessionStorage (grantKey id) (grant.filter (· ≠ [])) := by
  unfold storeOrClearGrant
  cases grant.filter (· ≠ []) with
  | none => rfl
  | some grant => rfl

/-- All is as before but that an empty grant is gone. -/
def undone (before : Storage) (id : Text) : Storage :=
  put before .sessionStorage (grantKey id) ((readVnuRefreshGrant before id).filter (· ≠ []))

theorem undone_eq (h : readVnuRefreshGrant before id ≠ some []) : undone before id = before := by
  refine put_eq_iff.2 ⟨?_, fun _ _ _ => rfl⟩
  change readVnuRefreshGrant before id = _
  cases hgrant : readVnuRefreshGrant before id with
  | none => rfl
  | some grant =>
    have hne : grant ≠ [] := fun hnil => h (hnil ▸ hgrant)
    rw [Option.filter_some_pos (by simpa using hne)]

theorem unchanged_undone_iff : Unchanged before (undone before id) ↔ readVnuRefreshGrant before id ≠ some [] := by
  constructor
  · intro h hempty
    have hgrant := h.grants id
    rw [hempty] at hgrant
    have hnone : readVnuRefreshGrant (undone before id) id = none := by
      rw [readVnuRefreshGrant, undone, put_same, hempty]
      rfl
    rw [hnone] at hgrant
    cases hgrant
  · intro h
    rw [undone_eq h]
    exact { accounts := rfl, active := rfl, grants := fun _ => rfl }

theorem perform_storeOrClear (hfair : Fair List.length before quota) {m : Browser}
    (hsame : ∀ k, k ≠ grantKey id → m.stores .sessionStorage k = before .sessionStorage k) :
    (perform quota [storeOrClearGrant id (readVnuRefreshGrant before id)] m).2.stores =
      put m.stores .sessionStorage (grantKey id) ((readVnuRefreshGrant before id).filter (· ≠ [])) := by
  rw [storeOrClearGrant_eq]
  cases hgrant : (readVnuRefreshGrant before id).filter (· ≠ []) with
  | none => rfl
  | some grant =>
    have hbefore : before .sessionStorage (grantKey id) = some grant := (Option.filter_eq_some_iff.1 hgrant).1
    obtain ⟨n, hrun⟩ := perform_restore hfair hsame []
    rw [hbefore] at hrun
    rw [hrun]
    rfl

/-- The catch of an import, after at most the grant and the account list were written. -/
theorem perform_undo (hfair : Fair List.length before quota) {m : Browser}
    (hlocal : ∀ k, k ≠ accountsKey → m.stores .localStorage k = before .localStorage k)
    (hsession : ∀ k, k ≠ grantKey id → m.stores .sessionStorage k = before .sessionStorage k) :
    (perform quota [restore .localStorage accountsKey (before .localStorage accountsKey),
      restore .localStorage activeAccountKey (before .localStorage activeAccountKey),
      storeOrClearGrant id (readVnuRefreshGrant before id)] m).2.stores = undone before id := by
  obtain ⟨n, haccounts⟩ := perform_restore hfair hlocal
    [restore .localStorage activeAccountKey (before .localStorage activeAccountKey),
      storeOrClearGrant id (readVnuRefreshGrant before id)]
  have hfirst : ∀ k, put m.stores .localStorage accountsKey (before .localStorage accountsKey) .localStorage k = before .localStorage k := by
    intro k
    by_cases hk : k = accountsKey
    · rw [hk, put_same]
    · rw [put_of_key_ne hk, hlocal k hk]
  obtain ⟨n', hactive⟩ := @perform_restore _ _ _ List.length before _ _ quota
    { stores := put m.stores .localStorage accountsKey (before .localStorage accountsKey), writes := n } .localStorage activeAccountKey
    hfair (fun k _ => hfirst k) [storeOrClearGrant id (readVnuRefreshGrant before id)]
  simp only at hactive
  rw [haccounts, hactive]
  generalize hstores : put (put m.stores .localStorage accountsKey (before .localStorage accountsKey)) .localStorage activeAccountKey
    (before .localStorage activeAccountKey) = stores
  have hboth : ∀ k, stores .localStorage k = before .localStorage k := by
    intro k
    rw [← hstores]
    by_cases hk : k = activeAccountKey
    · rw [hk, put_same]
    · rw [put_of_key_ne hk, hfirst]
  have hgrants : ∀ k, k ≠ grantKey id → stores .sessionStorage k = before .sessionStorage k := by
    intro k hk
    have harea : Area.sessionStorage ≠ Area.localStorage := by decide
    rw [← hstores, put_of_area_ne harea, put_of_area_ne harea, hsession k hk]
  rw [perform_storeOrClear hfair hgrants]
  refine put_eq_iff.2 ⟨put_same, fun a k hne => ?_⟩
  rw [undone, (put_eq_iff.1 rfl).2 a k hne]
  cases a with
  | localStorage => exact (hboth k).symm
  | sessionStorage => exact (hgrants k fun hk => hne ⟨rfl, hk⟩).symm

/-! ## Keys and properties -/

theorem grantKey_inj {other : Text} (h : grantKey other = grantKey id) : other = id := List.append_cancel_left h

theorem grantKey_notMem : grantKey id ∉ legacyVnuReloginKeys := by
  intro h
  have htake : (grantKey id).take 10 = refreshGrantPrefix.take 10 := List.take_append_of_le_length (by decide)
  simp only [legacyVnuReloginKeys, List.mem_cons, List.not_mem_nil, or_false] at h
  rcases h with h | h
  · rw [h] at htake
    exact absurd htake (by decide)
  · rw [h] at htake
    exact absurd htake (by decide)

theorem lookup_setField (fields : List (Text × Json)) (key : Text) (value : Json) (k : Text) :
    (Json.setField fields key value).lookup k = if k = key then some value else fields.lookup k := by
  have hmap : ∀ fields : List (Text × Json),
      (fields.map fun field => if field.1 = key then (key, value) else field).lookup k =
        if k = key then (if fields.any (·.1 = key) then some value else none) else fields.lookup k := by
    intro fields
    induction fields with
    | nil => simp
    | cons field rest ih =>
      obtain ⟨name, old⟩ := field
      rw [List.map_cons, List.lookup_cons, List.lookup_cons, ih]
      by_cases hname : name = key
      · by_cases hk : k = key
        · simp [hname, hk]
        · have hbeq : (k == key) = false := beq_eq_false_iff_ne.2 hk
          simp [hname, hk, hbeq]
      · by_cases hk : k = key
        · have hbeq : (key == name) = false := beq_eq_false_iff_ne.2 (Ne.symm hname)
          rw [hk, hbeq, if_neg hname, if_pos rfl, if_pos rfl, List.any_cons, decide_eq_false hname, Bool.false_or, hbeq]
        · simp [hname, hk]
  unfold Json.setField
  split
  case isTrue hany => rw [hmap, if_pos hany]
  case isFalse hany =>
    have hnone : fields.lookup key = none := by
      rw [List.lookup_eq_none_iff]
      intro field hfield
      simp only [List.any_eq_true, decide_eq_true_eq, not_exists, not_and] at hany
      simpa using Ne.symm (hany field hfield)
    rw [List.lookup_append]
    by_cases hk : k = key
    · simp [hk, hnone]
    · have hbeq : (k == key) = false := by simpa using hk
      simp [List.lookup_cons, hbeq, hk]

theorem token_withSession (account : Json) (token : Text) (studentCode : Option Text) :
    isText (property (withSession account token studentCode) "token") token = true := by
  have hne : units "token" ≠ units "studentCode" := by decide
  unfold withSession
  dsimp only
  cases (studentCode.map Json.str).or (property account "studentCode") with
  | none => simp [property, lookup_setField, isText]
  | some code => simp [property, lookup_setField, hne, isText]

theorem token_newAccount (fresh : Fresh) (universityId : Text) (auth : AuthResult) :
    isText (property (newAccount fresh universityId auth) "token") auth.token = true := by
  have htoken : property (newAccount fresh universityId auth) "token" = some (.str auth.token) := rfl
  simp [htoken, isText]

theorem findIndex_lt {test : Json → Bool} {accounts : List Json} {index : Nat} (h : findIndex test accounts = .ok (some index)) :
    index < accounts.length := by
  fun_induction findIndex test accounts generalizing index with
  | case1 => cases h
  | case2 => cases h
  | case3 account rest hnull htest =>
    cases h
    exact Nat.zero_lt_succ _
  | case4 account rest hnull htest ih =>
    cases hrest : findIndex test rest with
    | error error =>
      rw [hrest] at h
      cases h
    | ok found =>
      rw [hrest] at h
      cases found with
      | none => cases h
      | some index =>
        cases h
        exact Nat.succ_lt_succ (ih hrest)

theorem place_storeOrClearGrant (grant : Option Text) : (storeOrClearGrant id grant).place = (.sessionStorage, grantKey id) := by
  rw [storeOrClearGrant_eq]
  cases grant.filter (· ≠ []) with
  | none => rfl
  | some grant => rfl

theorem apply_storeOrClearGrant (storage : Storage) (grant : Option Text) :
    (storeOrClearGrant id grant).apply storage = put storage .sessionStorage (grantKey id) (grant.filter (· ≠ [])) := by
  rw [storeOrClearGrant_eq, run_restore]

/-! ## What a plan does -/

/-- A commit either updates the stores or undoes what it did. -/
structure Plan.Sound (plan : Plan) (before : Storage) (token : Text) (grant : Option Text) : Prop where
  completed : ∀ quota n after, perform quota plan.writes { stores := before, writes := n } = (true, after) →
    Updated before after.stores plan.account plan.accountId token grant
  thrown : ∀ quota n after, Fair List.length before quota → perform quota plan.writes { stores := before, writes := n } = (false, after) →
    (perform quota plan.undo after).2.stores = undone before plan.accountId

/-- A commit is all or nothing under every quota exactly when it is safe. -/
theorem Plan.Sound.iff_safe {plan : Plan} {token : Text} {grant : Option Text} (h : plan.Sound before token grant)
    (Done : Except Thrown Plan × Browser → Prop)
    (hcompleted : ∀ after, Updated before after.stores plan.account plan.accountId token grant → Done (.ok plan, after))
    (hthrown : ∀ after, Done (.error .quotaExceeded, after) ↔ Unchanged before after.stores) :
    (∀ quota n, Fair List.length before quota → Done (plan.commit quota { stores := before, writes := n })) ↔ plan.Safe before := by
  constructor
  · intro hall
    have hdone := hall (strictest List.length before) 0 (fair_strictest List.length before)
    unfold Plan.commit at hdone
    split at hdone
    case h_1 after hrun => exact .inr (fitting_of_perform (congrArg Prod.fst hrun))
    case h_2 after hrun =>
      rw [hthrown, h.thrown _ _ _ (fair_strictest List.length before) hrun, unchanged_undone_iff] at hdone
      exact .inl hdone
  · intro hsafe quota n hfair
    unfold Plan.commit
    split
    case h_1 after hrun => exact hcompleted _ (h.completed quota n after hrun)
    case h_2 after hrun =>
      rw [hthrown, h.thrown quota n after hfair hrun, unchanged_undone_iff]
      rcases hsafe with hgrant | hfit
      · exact hgrant
      · exfalso
        have hgoes := perform_fitting hfair plan.writes hfit (m := { stores := before, writes := n }) allFit_before
        rw [hrun] at hgoes
        cases hgoes

variable {account : Json} {accounts : List Json} {token : Text} {grant : Option Text}

/-- The import writes the grant, if at all, then the list, then the active account; and then it only deletes. -/
theorem sound_import {front : List StorageWrite} (hholds : Holds before accounts account)
    (htoken : isText (property account "token") token = true) (hfront : ∀ write ∈ front, write.place = (.sessionStorage, grantKey id))
    (hgrant : readVnuRefreshGrant (front.foldl Write.apply before) id = grant) :
    Plan.Sound {
      account, accountId := id
      writes := front ++ [writeAccounts accounts, .set .localStorage activeAccountKey id] ++ removeLegacyKeys
      undo := [restore .localStorage accountsKey (before .localStorage accountsKey),
        restore .localStorage activeAccountKey (before .localStorage activeAccountKey),
        storeOrClearGrant id (readVnuRefreshGrant before id)] } before token grant := by
  have hsplit : front ++ [writeAccounts accounts, .set .localStorage activeAccountKey id] ++ removeLegacyKeys =
      (front ++ [writeAccounts accounts]) ++ .set .localStorage activeAccountKey id :: removeLegacyKeys := by
    simp only [List.append_assoc, List.cons_append, List.nil_append]
  have hlegacy : ∀ write ∈ removeLegacyKeys, ∃ key ∈ legacyVnuReloginKeys, write = .remove .sessionStorage key := by
    intro write hwrite
    obtain ⟨key, hkey, rfl⟩ := List.mem_map.1 hwrite
    exact ⟨key, hkey, rfl⟩
  have hremoves : ∀ write ∈ removeLegacyKeys, ∃ area key, write = .remove area key := by
    intro write hwrite
    obtain ⟨key, -, hkey⟩ := hlegacy write hwrite
    exact ⟨_, key, hkey⟩
  have hlast := fun quota n => perform_last quota (front ++ [writeAccounts accounts])
    (.set .localStorage activeAccountKey id) hremoves { stores := before, writes := n }
  constructor
  · intro quota n after hrun
    rw [hsplit] at hrun
    rcases hlast quota n with ⟨n', hdone⟩ | ⟨done, n', -, hstopped⟩
    · have hstores : after.stores = ((front ++ [writeAccounts accounts]) ++ .set .localStorage activeAccountKey id :: removeLegacyKeys).foldl
          Write.apply before := congrArg Machine.stores (Prod.mk.inj (hrun.symm.trans hdone)).2
      -- behind the list of accounts, nothing touches it, nor the active account behind that, nor any grant
      have hlocal : ∀ write ∈ removeLegacyKeys, ∀ key, write.place ≠ (.localStorage, key) := by
        intro write hwrite key hplace
        obtain ⟨k, -, rfl⟩ := hlegacy write hwrite
        cases hplace
      have hgrants : ∀ write ∈ [writeAccounts accounts] ++ .set .localStorage activeAccountKey id :: removeLegacyKeys,
          ∀ other, write.place ≠ (.sessionStorage, grantKey other) := by
        intro write hwrite other hplace
        rw [List.singleton_append, List.mem_cons, List.mem_cons] at hwrite
        rcases hwrite with rfl | rfl | hwrite
        · cases hplace
        · cases hplace
        · obtain ⟨k, hmem, rfl⟩ := hlegacy write hwrite
          cases hplace
          exact grantKey_notMem hmem
      refine { accounts := ⟨accounts, hholds, ?_⟩, token := htoken, active := ?_, grant := ?_, others := ?_ }
      · rw [hstores, List.foldl_append, foldl_apply_of_untouched, List.foldl_append]
        · simp only [List.foldl_cons, List.foldl_nil, writeAccounts, Write.apply, put_same]
        · rw [List.forall_mem_cons]
          exact ⟨fun hplace => absurd (Prod.mk.inj hplace).2 (by decide), fun write hwrite => hlocal write hwrite accountsKey⟩
      · rw [hstores, List.foldl_append, List.foldl_cons, foldl_apply_of_untouched fun write hwrite => hlocal write hwrite activeAccountKey]
        exact put_same
      · rw [readVnuRefreshGrant, hstores, List.append_assoc, List.foldl_append, foldl_apply_of_untouched fun write hwrite => hgrants write hwrite id]
        exact hgrant
      · intro other hother
        rw [readVnuRefreshGrant, hstores, List.append_assoc, List.foldl_append,
          foldl_apply_of_untouched fun write hwrite => hgrants write hwrite other, foldl_apply_of_untouched]
        · rfl
        · intro write hwrite hplace
          rw [hfront write hwrite] at hplace
          exact hother (grantKey_inj (Prod.mk.inj hplace).2.symm)
    · rw [hrun] at hstopped
      cases hstopped
  · intro quota n after hfair hrun
    rw [hsplit] at hrun
    rcases hlast quota n with ⟨n', hdone⟩ | ⟨done, n', hbegin, hstopped⟩
    · rw [hrun] at hdone
      cases hdone
    · rw [hrun] at hstopped
      cases hstopped
      have hplaces : ∀ write ∈ done, write.place = (.sessionStorage, grantKey id) ∨ write.place = (.localStorage, accountsKey) := by
        intro write hwrite
        rcases List.mem_append.1 (hbegin.subset hwrite) with hmem | hmem
        · exact .inl (hfront write hmem)
        · rw [List.mem_singleton.1 hmem]
          exact .inr rfl
      apply perform_undo hfair
      · intro k hk
        apply foldl_apply_of_untouched
        intro write hwrite hplace
        rcases hplaces write hwrite with h | h
        · rw [h] at hplace
          cases hplace
        · rw [h] at hplace
          cases hplace
          exact hk rfl
      · intro k hk
        apply foldl_apply_of_untouched
        intro write hwrite hplace
        rcases hplaces write hwrite with h | h
        · rw [h] at hplace
          cases hplace
          exact hk rfl
        · rw [h] at hplace
          cases hplace

/-- The refresh writes the grant and then the list. -/
theorem sound_refresh (hholds : Holds before accounts account) (htoken : isText (property account "token") token = true)
    (hactive : before .localStorage activeAccountKey = some id) (refreshGrant : Text) :
    Plan.Sound {
      account, accountId := id
      writes := [.set .sessionStorage (grantKey id) refreshGrant, writeAccounts accounts]
      undo := [storeOrClearGrant id (readVnuRefreshGrant before id)] } before token (some refreshGrant) := by
  have hlast := fun quota n => perform_last quota [.set .sessionStorage (grantKey id) refreshGrant] (writeAccounts accounts)
    (List.forall_mem_nil _) { stores := before, writes := n }
  constructor
  · intro quota n after hrun
    rcases hlast quota n with ⟨n', hdone⟩ | ⟨done, n', -, hstopped⟩
    · have hstores : after.stores = put (put before .sessionStorage (grantKey id) (some refreshGrant)) .localStorage accountsKey
          (some (Json.stringify (.arr accounts))) := congrArg Machine.stores (Prod.mk.inj (hrun.symm.trans hdone)).2
      have harea : Area.sessionStorage ≠ Area.localStorage := by decide
      have hkey : activeAccountKey ≠ accountsKey := by decide
      refine { accounts := ⟨accounts, hholds, ?_⟩, token := htoken, active := ?_, grant := ?_, others := ?_ }
      · rw [hstores, put_same]
      · rw [hstores, put_of_key_ne hkey, put_of_area_ne harea.symm, hactive]
      · rw [readVnuRefreshGrant, hstores, put_of_area_ne harea, put_same]
      · intro other hother
        rw [readVnuRefreshGrant, hstores, put_of_area_ne harea, put_of_key_ne fun h => hother (grantKey_inj h)]
        rfl
    · have hboth := hrun.symm.trans hstopped
      cases hboth
  · intro quota n after hfair hrun
    rcases hlast quota n with ⟨n', hdone⟩ | ⟨done, n', hbegin, hstopped⟩
    · have hboth := hrun.symm.trans hdone
      cases hboth
    · have hstores : after.stores = done.foldl Write.apply before :=
        congrArg Machine.stores (Prod.mk.inj (hrun.symm.trans hstopped)).2
      have hkeep : ∀ a k, ¬ (a = Area.sessionStorage ∧ k = grantKey id) → after.stores a k = before a k := by
        intro a k hne
        rw [hstores]
        apply foldl_apply_of_untouched
        intro write hwrite hplace
        rw [List.mem_singleton.1 (hbegin.subset hwrite)] at hplace
        cases hplace
        exact hne ⟨rfl, rfl⟩
      rw [perform_storeOrClear hfair fun k hk => hkeep _ k fun hboth => hk hboth.2]
      refine put_eq_iff.2 ⟨put_same, fun a k hne => ?_⟩
      rw [undone, (put_eq_iff.1 rfl).2 a k hne, hkeep a k hne]

/-! ## The two plans -/

variable {plan : Plan} {universityId : Text} {auth : AuthResult} {fresh : Fresh}

theorem buildImportedAccount_ok {index : Option Nat} (h : buildImportedAccount accounts universityId auth fresh = .ok (account, index)) :
    isText (property account "token") auth.token = true ∧ ∀ i ∈ index, i < accounts.length := by
  unfold buildImportedAccount at h
  cases hfind : findIndex (fun account => isText (property account "universityId") universityId &&
    isTextOrMissing (property account "studentCode") (auth.studentCode.getD [])) accounts with
  | error error =>
    rw [hfind] at h
    cases h
  | ok found =>
    rw [hfind] at h
    cases found with
    | none =>
      cases h
      exact ⟨token_newAccount fresh universityId auth, nofun⟩
    | some i =>
      cases h
      refine ⟨token_withSession _ auth.token auth.studentCode, ?_⟩
      rintro _ ⟨⟩
      exact findIndex_lt hfind

theorem planImportedAccount_ok {stringOf : Option Json → Option Text}
    (h : planImportedAccount stringOf before universityId auth fresh = .ok plan) :
    accountIdText stringOf plan.account = some plan.accountId ∧
      plan.Sound before auth.token
        (if universityId = units "vnu" then auth.refreshGrant.filter (· ≠ []) else readVnuRefreshGrant before plan.accountId) := by
  unfold planImportedAccount at h
  split at h
  case h_2 => cases h
  case h_1 old hold =>
    cases hbuild : buildImportedAccount old universityId auth fresh with
    | error error =>
      rw [hbuild] at h
      cases h
    | ok built =>
      obtain ⟨account, index⟩ := built
      obtain ⟨htoken, hindex⟩ := buildImportedAccount_ok hbuild
      rw [hbuild] at h
      simp only [bind, Except.bind] at h
      split at h
      case h_1 => cases h
      case h_2 id hid =>
        cases h
        refine ⟨hid, sound_import ⟨old, hold, ?_⟩ htoken ?_ ?_⟩
        · cases index with
          | none => exact .inl rfl
          | some i => exact .inr ⟨i, hindex i rfl, rfl⟩
        · intro write hwrite
          split at hwrite
          · rw [List.mem_singleton.1 hwrite, place_storeOrClearGrant]
          · cases hwrite
        · split
          · rw [List.foldl_cons, List.foldl_nil, apply_storeOrClearGrant, readVnuRefreshGrant, put_same]
          · rfl

/-- What a refresh writes and undoes: there is a new grant, and the account is the active one. -/
theorem planVnuRefresh_some {origin : StoredAccount} {result : AuthResult} (h : planVnuRefresh before origin result = .ok (some plan)) :
    ∃ old index grant, readAccounts before = .arr old ∧ index < old.length ∧ result.refreshGrant.filter (· ≠ []) = some grant ∧
      before .localStorage activeAccountKey = some origin.id ∧
      plan =
        { account := withSession (old.getD index .null) result.token result.studentCode
          accountId := origin.id
          writes := [.set .sessionStorage (grantKey origin.id) grant,
            writeAccounts (old.set index (withSession (old.getD index .null) result.token result.studentCode))]
          undo := [storeOrClearGrant origin.id (readVnuRefreshGrant before origin.id)] } := by
  unfold planVnuRefresh at h
  split at h
  case h_2 => cases h
  case h_1 old hold =>
    cases hfind : findIndex (fun account => isText (property account "id") origin.id && isText (property account "token") origin.token) old with
    | error error =>
      rw [hfind] at h
      cases h
    | ok found =>
      rw [hfind] at h
      simp only [bind, Except.bind] at h
      split at h
      case h_2 => cases h
      case h_1 index grant hgrant =>
        split at h
        case isFalse => cases h
        case isTrue hactive =>
          cases h
          exact ⟨old, index, grant, hold, findIndex_lt hfind, hgrant, hactive, rfl⟩

theorem planVnuRefresh_ok {origin : StoredAccount} {result : AuthResult} (h : planVnuRefresh before origin result = .ok (some plan)) :
    plan.accountId = origin.id ∧ plan.Sound before result.token (result.refreshGrant.filter (· ≠ [])) := by
  obtain ⟨old, index, grant, hold, hindex, hgrant, hactive, rfl⟩ := planVnuRefresh_some h
  refine ⟨rfl, ?_⟩
  rw [hgrant]
  exact sound_refresh ⟨old, hold, .inr ⟨index, hindex, rfl⟩⟩ (token_withSession _ result.token result.studentCode) hactive grant

/-- The import would write an account whose grant is safe to undo, or it throws before. -/
def ImportSafe (stringOf : Option Json → Option Text) (before : Storage) (universityId : Text) (auth : AuthResult) (fresh : Fresh) : Prop :=
  ∀ plan, planImportedAccount stringOf before universityId auth fresh = .ok plan → plan.Safe before

/-- So would the refresh, or it throws before or returns false. -/
def RefreshSafe (before : Storage) (origin : StoredAccount) (result : AuthResult) : Prop :=
  ∀ plan, planVnuRefresh before origin result = .ok (some plan) → plan.Safe before

theorem unchanged_refl (before : Storage) : Unchanged before before := { accounts := rfl, active := rfl, grants := fun _ => rfl }

theorem import_iff_safe (stringOf : Option Json → Option Text) (before : Storage) (universityId : Text) (auth : AuthResult) (fresh : Fresh) :
    (∀ quota n, Fair List.length before quota → ImportAllOrNothing stringOf before universityId auth
      (commitImportedAccount stringOf quota { stores := before, writes := n } universityId auth fresh)) ↔
    ImportSafe stringOf before universityId auth fresh := by
  unfold ImportSafe commitImportedAccount
  simp only
  cases hplan : planImportedAccount stringOf before universityId auth fresh with
  | error error => exact iff_of_true (fun _ _ _ => unchanged_refl before) nofun
  | ok plan =>
    obtain ⟨hid, hsound⟩ := planImportedAccount_ok hplan
    simp only [Except.ok.injEq, forall_eq']
    refine hsound.iff_safe (fun outcome => ImportAllOrNothing stringOf before universityId auth (outcome.1.map (·.account), outcome.2)) ?_ ?_
    · intro after hupdated
      exact ⟨plan.accountId, hid, hupdated⟩
    · intro after
      exact Iff.rfl

theorem refresh_iff_safe (before : Storage) (origin : StoredAccount) (result : AuthResult) :
    (∀ quota n, Fair List.length before quota →
      RefreshAllOrNothing before origin result (commitVnuRefresh quota { stores := before, writes := n } origin result)) ↔
    RefreshSafe before origin result := by
  unfold RefreshSafe commitVnuRefresh
  simp only
  cases hplan : planVnuRefresh before origin result with
  | error error => exact iff_of_true (fun _ _ _ => unchanged_refl before) nofun
  | ok planned =>
    cases planned with
    | none => exact iff_of_true (fun _ _ _ => rfl) nofun
    | some plan =>
      obtain ⟨hid, hsound⟩ := planVnuRefresh_ok hplan
      simp only [Except.ok.injEq, Option.some.injEq, forall_eq']
      refine hsound.iff_safe (fun outcome => RefreshAllOrNothing before origin result (outcome.1.map fun _ => true, outcome.2)) ?_ ?_
      · intro after hupdated
        rw [hid] at hupdated
        exact ⟨plan.account, hupdated⟩
      · intro after
        exact Iff.rfl

end

/-- From any stores, a commit is all or nothing under every quota exactly when the account's stored grant is not the empty string, or
no write of the commit needs more room than what was stored under its key. -/
theorem commits_all_or_nothing_iff (stringOf : Option Json → Option Text) (before : Storage) :
    (∀ universityId auth fresh,
      (∀ quota n, Fair List.length before quota → ImportAllOrNothing stringOf before universityId auth
        (commitImportedAccount stringOf quota { stores := before, writes := n } universityId auth fresh)) ↔
      ImportSafe stringOf before universityId auth fresh) ∧
    (∀ origin result,
      (∀ quota n, Fair List.length before quota →
        RefreshAllOrNothing before origin result (commitVnuRefresh quota { stores := before, writes := n } origin result)) ↔
      RefreshSafe before origin result) :=
  ⟨import_iff_safe stringOf before, refresh_iff_safe before⟩

/-- One active account, whose grant is the empty string. -/
def emptyGrant : Storage
  | .localStorage => fun key =>
    if key = accountsKey then some (units "[\x7b\"id\":\"a\",\"token\":\"t\"\x7d]") else if key = activeAccountKey then some (units "a") else none
  | .sessionStorage => fun key => if key = grantKey (units "a") then some [] else none

/-- A new grant does not fit, and the empty one is not brought back. -/
theorem empty_grant_lost : ¬ ∀ quota n, Fair List.length emptyGrant quota →
    RefreshAllOrNothing emptyGrant { id := units "a", token := units "t" } { token := units "u", studentCode := none, refreshGrant := some (units "g") }
      (commitVnuRefresh quota { stores := emptyGrant, writes := n } { id := units "a", token := units "t" }
        { token := units "u", studentCode := none, refreshGrant := some (units "g") }) := by
  rw [refresh_iff_safe]
  intro hsafe
  have hplanned : (planVnuRefresh emptyGrant { id := units "a", token := units "t" }
      { token := units "u", studentCode := none, refreshGrant := some (units "g") }).toOption.join.isSome = true := by decide +kernel
  obtain ⟨plan, hplan⟩ := Option.isSome_iff_exists.1 hplanned
  rw [Option.join_eq_some_iff, toOption_eq_some] at hplan
  obtain ⟨old, index, grant, -, -, hgrant, -, rfl⟩ := planVnuRefresh_some hplan
  rcases hsafe _ hplan with hkept | hfit
  · exact hkept rfl
  · -- what was there is empty, and the new grant is not
    obtain ⟨previous, hprevious, hle⟩ := hfit _ List.mem_cons_self
    have hempty : previous = [] := (Option.some.inj hprevious).symm
    obtain ⟨-, hnonempty⟩ := Option.filter_eq_some_iff.1 hgrant
    rw [hempty] at hle
    exact of_decide_eq_true hnonempty (List.length_eq_zero_iff.1 (Nat.le_zero.1 hle))

end Hyeboard.WebAccounts
