import Hyeboard.Lib.Record
/-!
# Keys with a time to live

One key of a server in the manner of Redis. A key may have a time at which it
vanishes; every command sees the key as it is when the command runs. Numbers
are kept under counter keys, and members with scores under sorted-set keys
(a record of members, whose order nothing reads).
-/

namespace Hyeboard.ExpiringKeys

universe u

/-- What a key holds, and when it vanishes (never, without a time to live). -/
structure Entry (α : Type u) where
  value : α
  expiresAt : Option Nat
deriving DecidableEq

/-- The entry has not vanished at `t`. -/
def Entry.alive {α : Type u} (entry : Entry α) (t : Nat) : Bool := entry.expiresAt.all (t < ·)

abbrev Key (α : Type u) := Option (Entry α)

namespace Key
variable {α : Type u}

/-- The key as it is at `now`. -/
def live (key : Key α) (now : Nat) : Key α := key.filter (·.alive now)

/-- GET. -/
def get (key : Key α) (now : Nat) : Option α := (live key now).map (·.value)

/-- PTTL: -2 without the key, -1 without a time to live. -/
def pttl (key : Key α) (now : Nat) : Int :=
  match live key now with
  | none => -2
  | some { expiresAt := none, .. } => -1
  | some { expiresAt := some t, .. } => t - now

/-- SET with PX. -/
def setPx (value : α) (now px : Nat) : Key α := some { value, expiresAt := some (now + px) }

/-- PEXPIRE. -/
def pexpire (key : Key α) (now ttl : Nat) : Key α :=
  (live key now).map fun entry => { entry with expiresAt := some (now + ttl) }

/-- INCRBY. -/
def incrBy (key : Key Nat) (now amount : Nat) : Key Nat :=
  match live key now with
  | none => some { value := amount, expiresAt := none }
  | some entry => some { entry with value := entry.value + amount }

/-! ## Sorted sets -/

/-- A set that becomes empty takes its key with it. -/
def withMembers (entry : Entry (Record Nat)) (members : Record Nat) : Key (Record Nat) :=
  if members.size = 0 then none else some { entry with value := members }

/-- ZADD. -/
def zadd (key : Key (Record Nat)) (now score : Nat) (member : String) : Key (Record Nat) :=
  match live key now with
  | none => some { value := Record.empty.set member score, expiresAt := none }
  | some entry => some { entry with value := entry.value.set member score }

/-- ZREM. -/
def zrem (key : Key (Record Nat)) (now : Nat) (member : String) : Key (Record Nat) :=
  (live key now).bind fun entry => withMembers entry (entry.value.delete member)

/-- ZREMRANGEBYSCORE from -inf. -/
def zremrangebyscore (key : Key (Record Nat)) (now max : Nat) : Key (Record Nat) :=
  (live key now).bind fun entry => withMembers entry (entry.value.filter (max < ·))

/-- The members and their scores. -/
def members (key : Key (Record Nat)) (now : Nat) : Record Nat := (key.get now).getD .empty

/-- ZCARD. -/
def zcard (key : Key (Record Nat)) (now : Nat) : Nat := (key.members now).size

/-- ZRANGE 0 0 WITHSCORES: the lowest score. -/
def lowestScore (key : Key (Record Nat)) (now : Nat) : Option Nat := ((key.members now).entries.map Prod.snd).min?

/-! ## What a key holds later -/

section
variable {key : Key α} {entry : Entry α} {value : α} {now t : Nat}

theorem Entry.alive_of_le (hle : now ≤ t) (h : entry.alive t = true) : entry.alive now = true := by
  unfold Entry.alive at h ⊢
  cases hexpiry : entry.expiresAt with
  | none => rfl
  | some expiresAt =>
    rw [hexpiry, Option.all_some, decide_eq_true_eq] at h
    rw [Option.all_some, decide_eq_true_eq]
    exact Nat.lt_of_le_of_lt hle h

theorem live_eq_some : live key now = some entry ↔ key = some entry ∧ entry.alive now = true :=
  Option.filter_eq_some_iff

/-- A key that has vanished does not come back by itself. -/
theorem live_eq_none_of_le (hle : now ≤ t) (h : live key now = none) : live key t = none := by
  cases hlive : live key t with
  | none => rfl
  | some entry =>
    obtain ⟨hkey, halive⟩ := live_eq_some.1 hlive
    rw [live_eq_some.2 ⟨hkey, Entry.alive_of_le hle halive⟩] at h
    cases h

theorem get_some (entry : Entry α) (t : Nat) : get (some entry) t = if entry.alive t then some entry.value else none := by
  unfold get live
  rw [Option.filter_some]
  split <;> rfl

theorem get_of_live (h : live key now = some entry) : key.get now = some entry.value := by
  rw [get, h]
  rfl

theorem pttl_of_vanished (h : live key now = none) : key.pttl now = -2 := by
  rw [pttl, h]

theorem pttl_of_live {expiresAt : Nat} (h : live key now = some { value, expiresAt := some expiresAt }) :
    key.pttl now = expiresAt - now := by
  rw [pttl, h]

theorem get_setPx (value : α) (now px t : Nat) :
    (setPx value now px).get t = if t < now + px then some value else none := by
  rw [setPx, get_some]
  simp [Entry.alive]

end

/-! ## Members that have not lapsed

A set of leases: a member's score is the time it lapses. -/

section
variable {key : Key (Record Nat)} {entry : Entry (Record Nat)} {left : Record Nat} {now t score : Nat} {member k : String}

/-- The members with a score after `t`. -/
def unlapsed (key : Key (Record Nat)) (t : Nat) : Record Nat := (key.members t).filter (t < ·)

theorem unlapsed_eq_some : (unlapsed key t).get? k = some score ↔ (key.members t).get? k = some score ∧ t < score := by
  simp [unlapsed, Record.get?_filter, Option.filter_eq_some_iff]

theorem members_of_live (h : live key now = some entry) (t : Nat) :
    key.members t = if entry.alive t then entry.value else .empty := by
  obtain ⟨rfl, -⟩ := live_eq_some.1 h
  rw [members, get_some]
  split <;> rfl

theorem members_of_vanished (h : live key now = none) (hle : now ≤ t) : key.members t = .empty := by
  rw [members, get, live_eq_none_of_le hle h]
  rfl

theorem members_withMembers (entry : Entry (Record Nat)) (left : Record Nat) (t : Nat) :
    members (withMembers entry left) t = if entry.alive t then left else .empty := by
  unfold withMembers
  split
  · rename_i hempty
    have hleft : left = .empty := Record.ext_entries (List.length_eq_zero_iff.1 hempty)
    rw [hleft, ite_self]
    rfl
  · have halive : Entry.alive { entry with value := left } t = entry.alive t := rfl
    rw [members, get_some, halive]
    split <;> rfl

/-- A member there later is there now. -/
theorem members_of_le (hle : now ≤ t) (h : (key.members t).get? k = some score) :
    (key.members now).get? k = some score := by
  cases hlive : live key now with
  | none =>
    rw [members_of_vanished hlive hle] at h
    cases h
  | some entry =>
    rw [members_of_live hlive t] at h
    rw [members_of_live hlive now, if_pos (live_eq_some.1 hlive).2]
    split at h
    · exact h
    · cases h

theorem get?_members_zremrangebyscore (hle : now ≤ t) :
    ((key.zremrangebyscore now now).members t).get? k = ((key.members t).get? k).filter (now < ·) := by
  unfold zremrangebyscore
  cases hlive : live key now with
  | none =>
    rw [members_of_vanished hlive hle]
    rfl
  | some entry =>
    rw [Option.bind_some, members_withMembers, members_of_live hlive t]
    split
    · exact Record.get?_filter _ _ _
    · rfl

/-- Dropping what has lapsed leaves the rest as it is. -/
theorem unlapsed_zremrangebyscore (hle : now ≤ t) : (unlapsed (key.zremrangebyscore now now) t).Equiv (unlapsed key t) := by
  intro k
  ext score
  rw [unlapsed_eq_some, unlapsed_eq_some, get?_members_zremrangebyscore hle, Option.filter_eq_some_iff, decide_eq_true_eq]
  constructor
  · exact fun ⟨⟨hget, _⟩, hlater⟩ => ⟨hget, hlater⟩
  · exact fun ⟨hget, hlater⟩ => ⟨⟨hget, Nat.lt_of_le_of_lt hle hlater⟩, hlater⟩

theorem zcard_zremrangebyscore : (key.zremrangebyscore now now).zcard now = (unlapsed key now).size := by
  apply Record.Equiv.size_eq
  intro k
  rw [get?_members_zremrangebyscore (Nat.le_refl now), unlapsed, Record.get?_filter]

/-- The lowest score is a member's. -/
theorem lowestScore_mem (h : key.lowestScore now = some score) : ∃ k, (key.members now).get? k = some score := by
  obtain ⟨⟨k, _⟩, he, rfl⟩ := List.mem_map.1 (List.min?_mem h)
  exact ⟨k, Record.get?_eq_some.2 he⟩

theorem get?_members_zrem (hle : now ≤ t) :
    ((key.zrem now member).members t).get? k = if k = member then none else (key.members t).get? k := by
  unfold zrem
  cases hlive : live key now with
  | none =>
    rw [members_of_vanished hlive hle]
    simp [members, get, live]
  | some entry =>
    rw [Option.bind_some, members_withMembers, members_of_live hlive t]
    split
    · exact Record.get?_delete _ _ _
    · simp

theorem get?_unlapsed_zrem (hle : now ≤ t) :
    (unlapsed (key.zrem now member) t).get? k = if k = member then none else (unlapsed key t).get? k := by
  unfold unlapsed
  rw [Record.get?_filter, get?_members_zrem hle, Record.get?_filter]
  split <;> rfl

/-- Adding a member and letting the key live as long as it. -/
theorem get?_members_zadd (ttl : Nat) :
    (((key.zadd now score member).pexpire now ttl).members t).get? k =
      if t < now + ttl then (if k = member then some score else (key.members now).get? k) else none := by
  have hset : (key.zadd now score member).live now =
      some { value := (key.members now).set member score, expiresAt := ((key.live now).bind (·.expiresAt)) } := by
    unfold zadd
    cases hlive : live key now with
    | none =>
      rw [members_of_vanished hlive (Nat.le_refl now)]
      rfl
    | some entry =>
      rw [members_of_live hlive now, if_pos (live_eq_some.1 hlive).2]
      exact live_eq_some.2 ⟨rfl, (live_eq_some.1 hlive).2⟩
  rw [pexpire, hset, Option.map_some, members, get_some]
  simp only [Entry.alive, Option.all_some, decide_eq_true_eq]
  split
  · exact Record.get?_set _ _ _ _
  · rfl

end

end Key

end Hyeboard.ExpiringKeys
