import Mathlib.Data.List.Sort
import Hyeboard.Lib.Record
/-!
# Untyped JavaScript values

What a check reads when its argument is `unknown`: a value fresh from storage
or from `JSON.parse`. Numbers are split into the integers, which the checks
compare, and everything else (fractions, infinities, `NaN`), which every check
refuses alike. A property that is missing reads as `undefined`.
-/

namespace Hyeboard

inductive JsValue where
  | undefined
  | null
  | bool (b : Bool)
  | integer (n : Int)
  | nonInteger
  | string (s : String)
  | array (items : List JsValue)
  | object (fields : List (String × JsValue))

/-- `Number.MAX_SAFE_INTEGER`. -/
def maxSafeInteger : Nat := 9007199254740991

/-- `Number.isSafeInteger(n) && n > 0`. -/
def PositiveSafe (n : Nat) : Prop := 0 < n ∧ n ≤ maxSafeInteger

instance (n : Nat) : Decidable (PositiveSafe n) := inferInstanceAs (Decidable (_ ∧ _))

namespace JsValue

def ofNat (n : Nat) : JsValue := .integer n

/-- `fields[key]`. -/
def field (fields : List (String × JsValue)) (key : String) : JsValue :=
  ((fields.find? (fun e => e.1 = key)).map Prod.snd).getD .undefined

/-- `Object.keys(fields).sort()`. -/
def sortedKeys (fields : List (String × JsValue)) : List String :=
  (fields.map Prod.fst).insertionSort (· ≤ ·)

/-- `value && typeof value === "object" && !Array.isArray(value)`, or `error`. -/
def asObject (error : String) : JsValue → Except String (List (String × JsValue))
  | .object fields => .ok fields
  | _ => .error error

/-- A safe integer above zero, or `error`. -/
def asPositiveSafe (error : String) : JsValue → Except String Nat
  | .integer n => if PositiveSafe n.toNat then .ok n.toNat else .error error
  | _ => .error error

/-- A safe integer from `low` to `high`, or `error`. -/
def asBounded (error : String) (low high : Nat) : JsValue → Except String Nat
  | .integer n => if 0 ≤ n ∧ n.toNat ≤ maxSafeInteger ∧ low ≤ n.toNat ∧ n.toNat ≤ high then .ok n.toNat else .error error
  | _ => .error error

/-- A string that passes `test`, or `error`. -/
def asString (error : String) (test : String → Bool) : JsValue → Except String String
  | .string s => if test s then .ok s else .error error
  | _ => .error error

/-- `JSON.stringify` leaves out a property whose value is `undefined`. -/
def optionalField {α : Type} (key : String) (encode : α → JsValue) : Option α → List (String × JsValue)
  | none => []
  | some a => [(key, encode a)]

end JsValue

/-! ## Results of checks -/

section Except
variable {ε α β : Type}

@[simp] theorem bind_eq_ok {x : Except ε α} {f : α → Except ε β} {b : β} :
    x >>= f = .ok b ↔ ∃ a, x = .ok a ∧ f a = .ok b := by
  cases x <;> simp [bind, Except.bind]

@[simp] theorem pure_eq_ok {a b : α} : (pure a : Except ε α) = .ok b ↔ a = b := by
  simp [pure, Except.pure]

theorem toOption_eq_some {x : Except ε α} {a : α} : x.toOption = some a ↔ x = .ok a := by
  cases x <;> simp [Except.toOption]

@[simp] theorem map_eq_ok {x : Except ε α} {f : α → β} {b : β} :
    f <$> x = .ok b ↔ ∃ a, x = .ok a ∧ f a = b := by
  cases x <;> simp [Functor.map, Except.map]

/-- A check that throws unless its test passes. -/
def require (error : ε) (test : Bool) : Except ε Unit := if test then .ok () else .error error

@[simp] theorem require_eq_ok {error : ε} {test : Bool} {u : Unit} : require error test = .ok u ↔ test = true := by
  unfold require
  split <;> simp_all

theorem mapM_eq_ok {f : α → Except ε β} {l : List α} {r : List β} :
    l.mapM f = .ok r ↔ List.Forall₂ (fun a b => f a = .ok b) l r := by
  induction l generalizing r with
  | nil =>
    simp only [List.mapM_nil, pure, Except.pure, Except.ok.injEq, List.forall₂_nil_left_iff]
    exact eq_comm
  | cons a l ih =>
    simp only [List.mapM_cons, bind_eq_ok, pure, Except.pure, Except.ok.injEq, ih]
    constructor
    · rintro ⟨b, hb, r', hr', rfl⟩
      exact .cons hb hr'
    · intro h
      cases h with
      | cons hb hr' => exact ⟨_, hb, _, hr', rfl⟩

@[simp] theorem forM_eq_ok {check : α → Except ε PUnit} {xs : List α} {u : PUnit} :
    List.forM xs check = .ok u ↔ ∀ x ∈ xs, check x = .ok () := by
  induction xs with
  | nil => exact iff_of_true rfl nofun
  | cons x rest ih =>
    have hcons : List.forM (x :: rest) check = (check x >>= fun _ => List.forM rest check) := rfl
    rw [hcons, bind_eq_ok, List.forall_mem_cons, ← ih]
    exact ⟨fun ⟨_, hx, hrest⟩ => ⟨hx, hrest⟩, fun ⟨hx, hrest⟩ => ⟨(), hx, hrest⟩⟩

end Except

namespace JsValue

@[simp] theorem field_nil (key : String) : field [] key = .undefined := rfl

@[simp] theorem field_cons (k key : String) (v : JsValue) (rest : List (String × JsValue)) :
    field ((k, v) :: rest) key = if k = key then v else field rest key := by
  unfold field
  by_cases h : k = key <;> simp [h]

@[simp] theorem field_optionalField_append {α : Type} (k key : String) (encode : α → JsValue) (o : Option α)
    (rest : List (String × JsValue)) :
    field (optionalField k encode o ++ rest) key =
      if k = key then (o.map encode).getD (field rest key) else field rest key := by
  cases o <;> simp [optionalField]

@[simp] theorem field_optionalField {α : Type} (k key : String) (encode : α → JsValue) (o : Option α) :
    field (optionalField k encode o) key = if k = key then (o.map encode).getD .undefined else .undefined := by
  simpa using field_optionalField_append k key encode o []

theorem fst_of_mem_optionalField {α : Type} {key : String} {encode : α → JsValue} {o : Option α} {e : String × JsValue}
    (h : e ∈ optionalField key encode o) : e.1 = key := by
  cases o <;> simp_all [optionalField]

@[simp] theorem ofNat_inj {m n : Nat} : ofNat m = ofNat n ↔ m = n := by
  simp only [ofNat, integer.injEq]
  exact Int.ofNat_inj

@[simp] theorem asObject_eq_ok {error : String} {v : JsValue} {fields : List (String × JsValue)} :
    v.asObject error = .ok fields ↔ v = .object fields := by
  cases v <;> simp [asObject]

@[simp] theorem asPositiveSafe_eq_ok {error : String} {v : JsValue} {n : Nat} :
    v.asPositiveSafe error = .ok n ↔ v = .ofNat n ∧ PositiveSafe n := by
  cases v with
  | integer m =>
    simp only [asPositiveSafe, ofNat, integer.injEq]
    by_cases h : PositiveSafe m.toNat
    · have := h.1
      simp only [h, if_true, Except.ok.injEq]
      constructor
      · rintro rfl; exact ⟨by omega, h⟩
      · rintro ⟨rfl, -⟩; simp
    · simp only [h, if_false, reduceCtorEq, false_iff, not_and]
      rintro rfl hn
      exact h (by simpa using hn)
  | _ => simp [asPositiveSafe, ofNat]

theorem asBounded_eq_ok {error : String} {low high : Nat} {v : JsValue} {n : Nat} (hh : high ≤ maxSafeInteger) :
    v.asBounded error low high = .ok n ↔ v = .ofNat n ∧ low ≤ n ∧ n ≤ high := by
  cases v with
  | integer m =>
    simp only [asBounded, ofNat, integer.injEq]
    split <;> rename_i h
    · simp only [Except.ok.injEq]
      constructor
      · rintro rfl; exact ⟨by omega, h.2.2⟩
      · rintro ⟨rfl, -⟩; simp
    · simp only [reduceCtorEq, false_iff, not_and]
      rintro rfl hl hn
      exact h ⟨by omega, by simp only [Int.toNat_natCast]; omega, by simpa using hl, by simpa using hn⟩
  | _ => simp [asBounded, ofNat]

@[simp] theorem asString_eq_ok {error : String} {test : String → Bool} {v : JsValue} {s : String} :
    v.asString error test = .ok s ↔ v = .string s ∧ test s = true := by
  cases v with
  | string t =>
    simp only [asString, string.injEq]
    split <;> rename_i h
    · simp only [Except.ok.injEq]
      constructor
      · rintro rfl; exact ⟨rfl, h⟩
      · rintro ⟨rfl, -⟩; rfl
    · simp only [reduceCtorEq, false_iff, not_and]
      rintro rfl; exact h
  | _ => simp [asString]

end JsValue

end Hyeboard
