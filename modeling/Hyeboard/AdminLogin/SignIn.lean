import Hyeboard.AdminLogin.Limiters
import Hyeboard.AdminLogin.Passwords
import Hyeboard.Lib.Json
/-!
# Signing in with the password

The password route of `apps/worker/src/admin/admin-routes.ts`. A request is counted against
a limit for everybody, then against one for its address, and only then compared; between the
two any other request can be served. Lower case, `URL` and HMAC are parameters.
-/

namespace Hyeboard.AdminLogin

def loginLimit : Nat := 5

def globalLoginLimit : Nat := 100

def loginWindowMs : Nat := 15 * 60 * 1000

/-- What the route is configured with, and what it asks of the runtime. -/
structure Site where
  passwordHash : Option Text
  deriveBits : Bytes → Bytes → Nat → Bytes
  /-- Keyed with the session secret. -/
  hmacHex : Text → String
  toLowerCase : Text → Text
  /-- The host of `http://[address]/` without its brackets, none where `URL` throws. -/
  hostname : Text → Option Text

structure SignInRequest where
  /-- None where it is not JSON. -/
  body : Option Json
  clientIp : Option Text

inductive Answer where
  | notFound
  | loginFailed
  | rateLimited (retryAfterSeconds : Nat)
  | failed (message : String)
  | signedIn
deriving DecidableEq

/-- The parts of `/^(?:\d{1,3}\.){3}\d{1,3}$/`. -/
def octetsOf (address : Text) : Option (List Text) :=
  let parts := address.splitOn (unit '.')
  if parts.length = 4 ∧ parts.all fun part => 1 ≤ part.length && part.length ≤ 3 && part.all Json.isDigit then some parts else none

def octetValue (part : Text) : Nat := part.foldl (fun n u => 10 * n + (u.toNat - 48)) 0

/-- A password that is no empty string. -/
def passwordOf : Option Json → Option Text
  | some (.obj fields) =>
    match fields.lookup (units "password") with
    | some (.str password) => if password = [] then none else some password
    | _ => none
  | _ => none

/-- A request that the first limit let through. -/
structure Login where
  password : Text
  hash : Text
  clientIp : Option Text
  begun : Nat
deriving DecidableEq

structure SignIns where
  windows : Windows
  waiting : List Login

inductive SignInCall where
  | arrive (request : SignInRequest) (now : Nat)
  | proceed (login : Login) (now : Nat)

def SignInCall.now : SignInCall → Nat
  | .arrive _ now => now
  | .proceed _ now => now

inductive Outcome where
  | answered (answer : Answer)
  | passed
  | compared (login : Login) (answer : Answer)
  | idle
deriving DecidableEq

section
variable (site : Site) (limiter : Limiter)

def Site.canonicalClientIp (value : Option Text) : Text :=
  let address := site.toLowerCase (trim (value.getD []))
  if address = [] ∨ unit '%' ∈ address then units "unknown"
  else
    match octetsOf address with
    | some parts =>
      let octets := parts.map octetValue
      if octets.all (· ≤ 255) then [unit '.'].intercalate (octets.map fun octet => units (toString octet)) else units "unknown"
    | none => (site.hostname address).getD (units "unknown")

/-- One of the two limits of `checkLoginLimit`: the answer, where it does not let the request through. -/
def checkLimit (windows : Windows) (value : Text) (limit now : Nat) : Option Answer × Windows :=
  match limiter.consume limit loginWindowMs windows ⟨site.hmacHex value, now⟩ with
  | (.ok .allowed, after) => (none, after)
  | (.ok (.denied retryAfterSeconds), after) => (some (.rateLimited (max retryAfterSeconds 1)), after)
  | (.error message, after) => (some (.failed message), after)

def compare (login : Login) : Answer :=
  match verifyAdminPassword site.deriveBits login.password login.hash with
  | .ok true => .signedIn
  | .ok false => .loginFailed
  | .error message => .failed message

abbrev SignInStep := Step SignIns SignInCall Outcome

end

section
variable {site : Site} {limiter : Limiter}

/-! ## Addresses -/

inductive Serves (site : Site) (limiter : Limiter) (state : SignIns) : SignInCall → Outcome × SignIns → Prop
  | refused (request : SignInRequest) (now : Nat) (answer : Answer) :
      Serves site limiter state (.arrive request now) (.answered answer, state)
  | limited (request : SignInRequest) (now : Nat) {answer : Answer} {windows : Windows}
      (hlimited : checkLimit site limiter state.windows (units "global") globalLoginLimit now = (some answer, windows)) :
      Serves site limiter state (.arrive request now) (.answered answer, { state with windows })
  | passed (request : SignInRequest) (now : Nat) {hash password : Text} {windows : Windows}
      (hhash : site.passwordHash = some hash) (hpassword : passwordOf request.body = some password)
      (hlimited : checkLimit site limiter state.windows (units "global") globalLoginLimit now = (none, windows)) :
      Serves site limiter state (.arrive request now)
        (.passed, { windows, waiting := { password, hash, clientIp := request.clientIp, begun := now } :: state.waiting })
  | denied (login : Login) (now : Nat) {answer : Answer} {windows : Windows} (hwaiting : login ∈ state.waiting)
      (hlimited : checkLimit site limiter state.windows (site.canonicalClientIp login.clientIp) loginLimit now = (some answer, windows)) :
      Serves site limiter state (.proceed login now) (.answered answer, { windows, waiting := state.waiting.erase login })
  | compared (login : Login) (now : Nat) {windows : Windows} (hwaiting : login ∈ state.waiting)
      (hlimited : checkLimit site limiter state.windows (site.canonicalClientIp login.clientIp) loginLimit now = (none, windows)) :
      Serves site limiter state (.proceed login now) (.compared login (compare site login), { windows, waiting := state.waiting.erase login })
  | idle (login : Login) (now : Nat) : Serves site limiter state (.proceed login now) (.idle, state)

section
variable {state : SignIns} {windows after : Windows} {value : Text} {limit now : Nat} {answer : Option Answer}

end

variable {trace : List SignInStep} {state : SignIns} {clock : Nat}

/-- A login was asked for by a request that the first limit let through. -/
def Asked (site : Site) (trace : List SignInStep) (login : Login) : Prop :=
  site.passwordHash = some login.hash ∧ login.password ≠ [] ∧
    ∃ e ∈ trace, e.result = .passed ∧ ∃ request, e.call = .arrive request login.begun ∧
      passwordOf request.body = some login.password ∧ request.clientIp = login.clientIp

theorem Asked.append {login : Login} (h : Asked site trace login) (e : SignInStep) : Asked site (trace ++ [e]) login := by
  obtain ⟨hhash, hpassword, e', he', hrest⟩ := h
  exact ⟨hhash, hpassword, e', List.mem_append_left _ he', hrest⟩

end

/-! ### A sign-in -/

def loginFrom (clientIp password : String) (begun : Nat) : Login :=
  { password := units password, hash := passwordHashText sampleSalt sampleDigest, clientIp := some (units clientIp), begun }

def requestFrom (clientIp password : String) : SignInRequest :=
  { body := some (.obj [(units "password", .str (units password))]), clientIp := some (units clientIp) }

/-- Six requests from one address and one from another, all of them past the first limit before any is compared. -/
def sampleCalls : List SignInCall :=
  [.arrive (requestFrom "10.0.0.1" "wrong") 1, .arrive (requestFrom "10.0.0.1" "wrong") 2, .arrive (requestFrom "10.0.0.1" "wrong") 3,
    .arrive (requestFrom "10.0.0.1" "wrong") 4, .arrive (requestFrom "10.0.0.1" "wrong") 5,
    .arrive (requestFrom "10.0.0.1" "correct horse") 6, .arrive (requestFrom "10.0.0.2" "correct horse") 7,
    .proceed (loginFrom "10.0.0.1" "wrong" 2) 8, .proceed (loginFrom "10.0.0.1" "wrong" 1) 9, .proceed (loginFrom "10.0.0.1" "wrong" 3) 10,
    .proceed (loginFrom "10.0.0.1" "wrong" 4) 11, .proceed (loginFrom "10.0.0.1" "wrong" 5) 12,
    .proceed (loginFrom "10.0.0.1" "correct horse" 6) 13, .proceed (loginFrom "10.0.0.2" "correct horse" 7) 14]

end Hyeboard.AdminLogin
