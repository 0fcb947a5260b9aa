import Mathlib.Data.Bool.AllAny
import Hyeboard.Lib.Json
/-!
# What is written is read back

`JSON.parse` after `JSON.stringify`, for values whose numbers are literals and whose
objects have no key twice, and that the text can be encoded.
-/

namespace Hyeboard.Json

open Utf8

/-! ## Strings -/

theorem hexValue_hexUnit : ∀ n < 16, hexValue (hexUnit n) = some n := by decide +kernel

theorem unescape_escapes : ∀ e ∈ escapes, e.2 ≠ unit 'u' ∧ unescape e.2 = some e.1 :=
  List.all_iff_forall_prop.1 (by decide +kernel)

/-- The rest of a string behind one more unit. -/
def behind (u : UInt16) (parsed : Option (Text × Text)) : Option (Text × Text) := parsed.map fun (s, rest) => (u :: s, rest)

theorem parseString_plain {u : UInt16} (hquote : u ≠ unit '"') (hslash : u ≠ unit '\\') (hcontrol : ¬ u < 0x20) (rest : Text) :
    parseString (u :: rest) = behind u (parseString rest) := by
  rw [parseString.eq_def]
  simp only [hquote, hslash, hcontrol, if_false]
  rfl

theorem parseString_letter {u letter : UInt16} (hmem : (u, letter) ∈ escapes) (rest : Text) :
    parseString (unit '\\' :: letter :: rest) = behind u (parseString rest) := by
  have hunescape := unescape_escapes _ hmem
  rw [parseString.eq_def]
  simp only [hunescape.1, hunescape.2, if_true, if_false, show unit '\\' ≠ unit '"' by decide]
  rfl

theorem parseString_hex (u : UInt16) (rest : Text) :
    parseString (unit '\\' :: unit 'u' :: hexUnit (u.toNat / 0x1000) :: hexUnit (u.toNat / 0x100 % 0x10) ::
      hexUnit (u.toNat / 0x10 % 0x10) :: hexUnit (u.toNat % 0x10) :: rest) = behind u (parseString rest) := by
  have hlt := u.toNat_lt
  have hsum : u.toNat / 0x1000 * 0x1000 + u.toNat / 0x100 % 0x10 * 0x100 + u.toNat / 0x10 % 0x10 * 0x10 + u.toNat % 0x10 = u.toNat := by
    omega
  rw [parseString.eq_def]
  simp only [show unit '\\' ≠ unit '"' by decide, if_true, if_false]
  rw [hexValue_hexUnit _ (by omega), hexValue_hexUnit _ (by omega), hexValue_hexUnit _ (by omega), hexValue_hexUnit _ (by omega)]
  simp only
  rw [hsum, UInt16.ofNat_toNat]
  rfl

theorem mem_escapes_of_lookup {u letter : UInt16} (h : escapes.lookup u = some letter) : (u, letter) ∈ escapes := by
  obtain ⟨before, after, hescapes, -⟩ := List.lookup_eq_some_iff.1 h
  rw [hescapes]
  simp

theorem plain_of_lookup {u : UInt16} (h : escapes.lookup u = none) : u ≠ unit '"' ∧ u ≠ unit '\\' := by
  constructor
  · rintro rfl
    revert h
    decide
  · rintro rfl
    revert h
    decide

theorem parseString_escapeUnit (u : UInt16) (rest : Text) : parseString (escapeUnit u ++ rest) = behind u (parseString rest) := by
  unfold escapeUnit
  cases hlookup : escapes.lookup u with
  | some letter => exact parseString_letter (mem_escapes_of_lookup hlookup) rest
  | none =>
    obtain ⟨hquote, hslash⟩ := plain_of_lookup hlookup
    simp only
    split
    case isTrue => exact parseString_hex u rest
    case isFalse hplain =>
      simp only [Bool.or_eq_true, decide_eq_true_eq, not_or] at hplain
      exact parseString_plain hquote hslash hplain.1.1 rest

theorem parseString_surrogate {u : UInt16} (h : isHigh u = true ∨ isLow u = true) (rest : Text) :
    parseString (u :: rest) = behind u (parseString rest) := by
  have hlarge : 0xd800 ≤ u.toNat := by
    simp only [isHigh, isLow, Bool.and_eq_true, decide_eq_true_eq] at h
    omega
  apply parseString_plain
  · rintro rfl
    revert hlarge
    decide
  · rintro rfl
    revert hlarge
    decide
  · rw [UInt16.lt_iff_toNat_lt]
    have : (0x20 : UInt16).toNat = 0x20 := rfl
    omega

theorem behind_some (u : UInt16) (s rest : Text) : behind u (some (s, rest)) = some (u :: s, rest) := rfl

/-- A quoted string is read up to its closing quote. -/
theorem parseString_quoteBody (s rest : Text) : parseString (quoteBody s ++ unit '"' :: rest) = some (s, rest) := by
  fun_induction quoteBody s with
  | case1 =>
    rw [List.nil_append, parseString.eq_def]
    simp
  | case2 u =>
    have hclosed : parseString (unit '"' :: rest) = some ([], rest) := by
      rw [parseString.eq_def]
      simp
    rw [parseString_escapeUnit, hclosed, behind_some]
  | case3 u v tail hpair ih =>
    simp only [Bool.and_eq_true] at hpair
    rw [List.cons_append, List.cons_append, parseString_surrogate (.inl hpair.1), parseString_surrogate (.inr hpair.2), ih, behind_some,
      behind_some]
  | case4 u v tail hpair ih => rw [List.append_assoc, parseString_escapeUnit, ih, behind_some]

/-! ## Values that can be written -/

/-- A literal of a number, in the characters numbers are made of. -/
def IsLiteral (literal : Text) : Prop := isNumber literal = true ∧ ∀ u ∈ literal, isNumberUnit u = true

instance (literal : Text) : Decidable (IsLiteral literal) :=
  decidable_of_iff (isNumber literal = true ∧ literal.all isNumberUnit = true) (by rw [IsLiteral, List.all_eq_true])

mutual

def Ok : Json → Prop
  | num literal => IsLiteral literal
  | arr items => OkItems items
  | obj fields => (fields.map Prod.fst).Nodup ∧ OkFields fields
  | _ => True

def OkItems : List Json → Prop
  | [] => True
  | item :: items => Ok item ∧ OkItems items

def OkFields : List (Text × Json) → Prop
  | [] => True
  | (_, value) :: fields => Ok value ∧ OkFields fields

end

/-- A number ends before the text. -/
def Stops (t : Text) : Prop := ∀ u, t.head? = some u → isNumberUnit u = false

theorem Stops.nil : Stops [] := nofun

theorem Stops.cons {u : UInt16} {t : Text} (h : isNumberUnit u = false) : Stops (u :: t) := by
  intro v hv
  cases hv
  exact h

theorem skipSpace_cons {u : UInt16} {t : Text} (h : isSpace u = false) : skipSpace (u :: t) = u :: t :=
  List.dropWhile_cons_of_neg (by simp [h])

theorem takeWhile_literal {literal rest : Text} (h : ∀ u ∈ literal, isNumberUnit u = true) (hrest : Stops rest) :
    (literal ++ rest).takeWhile isNumberUnit = literal := by
  rw [List.takeWhile_append_of_pos h]
  cases rest with
  | nil => simp
  | cons u tail => rw [List.takeWhile_cons_of_neg (by simp [hrest u rfl]), List.append_nil]

/-- No word begins with a unit of a number. -/
theorem not_word {word : String} {u : UInt16} {t : Text} (hword : (units word).head? = some u → False) (hne : units word ≠ []) :
    ¬ units word <+: u :: t := by
  rintro ⟨rest, h⟩
  cases hunits : units word with
  | nil => exact hne hunits
  | cons v tail =>
    rw [hunits, List.cons_append] at h
    cases h
    exact hword (by rw [hunits]; rfl)

theorem parseAtom_literal {literal rest : Text} (h : IsLiteral literal) (hrest : Stops rest) :
    parseAtom (literal ++ rest) = some (num literal, rest) := by
  cases literal with
  | nil => exact absurd h.1 (by decide)
  | cons u tail =>
    have hu : isNumberUnit u = true := h.2 u (by simp)
    have hnull : ¬ units "null" <+: u :: (tail ++ rest) := not_word (by
      rintro hhead
      cases hhead
      revert hu
      decide) (by decide)
    have htrue : ¬ units "true" <+: u :: (tail ++ rest) := not_word (by
      rintro hhead
      cases hhead
      revert hu
      decide) (by decide)
    have hfalse : ¬ units "false" <+: u :: (tail ++ rest) := not_word (by
      rintro hhead
      cases hhead
      revert hu
      decide) (by decide)
    have htake := takeWhile_literal h.2 hrest
    rw [List.cons_append] at htake ⊢
    rw [parseAtom, if_neg hnull, if_neg htrue, if_neg hfalse]
    simp only
    rw [htake, if_pos h.1, ← List.cons_append, List.drop_left]

/-! ## Values -/

/-- A unit of a number begins nothing else. -/
theorem numberUnit_ne {u : UInt16} (h : isNumberUnit u = true) :
    isSpace u = false ∧ u ≠ unit '"' ∧ u ≠ unit '[' ∧ u ≠ unit ']' ∧ u ≠ unit '\x7b' ∧ u.toNat < 0x80 := by
  have hall : ∀ u ∈ units "0123456789+-.eE",
      isSpace u = false ∧ u ≠ unit '"' ∧ u ≠ unit '[' ∧ u ≠ unit ']' ∧ u ≠ unit '\x7b' ∧ u.toNat < 0x80 :=
    List.all_iff_forall_prop.1 (by decide +kernel)
  exact hall u (by simpa [isNumberUnit] using h)

/-- The text begins with a character of a value: no space, no end of an array, and no mark. -/
def Begins (t : Text) : Prop := ∃ u tail, t = u :: tail ∧ isSpace u = false ∧ u ≠ unit ']' ∧ u.toNat < 0x80

theorem begins_stringify {v : Json} (h : Ok v) : Begins (stringify v) := by
  cases v with
  | null => exact ⟨unit 'n', units "ull", by decide, by decide, by decide, by decide⟩
  | bool b =>
    cases b with
    | true => exact ⟨unit 't', units "rue", by decide, by decide, by decide, by decide⟩
    | false => exact ⟨unit 'f', units "alse", by decide, by decide, by decide, by decide⟩
  | num literal =>
    cases literal with
    | nil => exact absurd h.1 (by decide)
    | cons u tail =>
      have hu := numberUnit_ne (h.2 u (by simp))
      exact ⟨u, tail, rfl, hu.1, hu.2.2.2.1, hu.2.2.2.2.2⟩
  | str s => exact ⟨unit '"', _, rfl, by decide, by decide, by decide⟩
  | arr items =>
    cases items with
    | nil => exact ⟨unit '[', units "]", by decide, by decide, by decide, by decide⟩
    | cons item items => exact ⟨unit '[', _, by rw [stringify.eq_def]; rfl, by decide, by decide, by decide⟩
  | obj fields =>
    cases fields with
    | nil => exact ⟨unit '\x7b', [unit '\x7d'], by rw [stringify.eq_def], by decide, by decide, by decide⟩
    | cons field fields => exact ⟨unit '\x7b', _, by rw [stringify.eq_def]; rfl, by decide, by decide, by decide⟩

theorem setField_new {fields : List (Text × Json)} {key : Text} {value : Json} (h : key ∉ fields.map Prod.fst) :
    setField fields key value = fields ++ [(key, value)] := by
  rw [setField, if_neg]
  simp only [List.any_eq_true, decide_eq_true_eq, not_exists, not_and]
  rintro field hmem rfl
  exact h (List.mem_map_of_mem hmem)

/-- What follows a value in an array or an object ends a number. -/
theorem stops_items (items : List Json) (rest : Text) : Stops (stringifyItems items ++ rest) := by
  cases items with
  | nil => exact Stops.cons (by decide)
  | cons item items => exact Stops.cons (by decide)

theorem stops_fields (fields : List (Text × Json)) (rest : Text) : Stops (stringifyFields fields ++ rest) := by
  cases fields with
  | nil => exact Stops.cons (by decide)
  | cons field fields => exact Stops.cons (by decide)

theorem new_of_nodup {before fields : List (Text × Json)} {key : Text} {value : Json}
    (h : ((before ++ (key, value) :: fields).map Prod.fst).Nodup) : key ∉ before.map Prod.fst := by
  rw [List.map_append, List.nodup_append] at h
  intro hmem
  exact h.2.2 key hmem key (by simp) rfl

/-- One property is read, and the object goes on or ends. -/
theorem parseFields_one {fuel : Nat} {before : List (Text × Json)} {key : Text} {value : Json} {tail : Text}
    (hvalue : parseValue fuel (stringify value ++ tail) = some (value, tail)) (hnew : key ∉ before.map Prod.fst) :
    parseFields (fuel + 1) before (quote key ++ unit ':' :: (stringify value ++ tail)) =
      match skipSpace tail with
      | [] => none
      | v :: rest =>
        if v = unit ',' then parseFields fuel (before ++ [(key, value)]) rest
        else if v = unit '\x7d' then some (obj (before ++ [(key, value)]), rest)
        else none := by
  rw [parseFields.eq_def]
  simp only [quote, List.cons_append, List.append_assoc, List.nil_append]
  rw [skipSpace_cons (by decide)]
  simp only [if_true, parseString_quoteBody]
  rw [skipSpace_cons (by decide)]
  cases htail : skipSpace tail with
  | nil => simp only [if_true, hvalue, htail]
  | cons v rest => simp only [if_true, hvalue, htail, setField_new hnew]

mutual

/-- A written value is read back, and what follows it is left. -/
theorem parseValue_stringify (v : Json) (hok : Ok v) (fuel : Nat) (hfuel : 2 * (stringify v).length ≤ fuel) (rest : Text)
    (hrest : Stops rest) : parseValue fuel (stringify v ++ rest) = some (v, rest) := by
  match v, hok, fuel, hfuel with
  | v, hok, 0, hfuel =>
    obtain ⟨u, tail, hbegins, -⟩ := begins_stringify hok
    simp [hbegins] at hfuel
  | null, _, fuel + 1, _ =>
    rw [parseValue.eq_def]
    rfl
  | bool true, _, fuel + 1, _ =>
    rw [parseValue.eq_def]
    rfl
  | bool false, _, fuel + 1, _ =>
    rw [parseValue.eq_def]
    rfl
  | num literal, hok, fuel + 1, _ =>
    obtain ⟨u, tail, hbegins, hspace, -⟩ := begins_stringify hok
    rw [stringify] at hbegins ⊢
    have hu := numberUnit_ne (hok.2 u (by simp [hbegins]))
    have hatom := parseAtom_literal hok hrest
    rw [hbegins, List.cons_append] at hatom ⊢
    rw [parseValue.eq_def]
    simp only [skipSpace_cons hspace, hu.2.1, hu.2.2.1, hu.2.2.2.2.1, if_false]
    rw [hatom]
  | str s, _, fuel + 1, _ =>
    rw [parseValue.eq_def]
    simp only [stringify, quote, List.cons_append, List.append_assoc, List.nil_append]
    rw [skipSpace_cons (by decide)]
    simp only [if_true, parseString_quoteBody]
    rfl
  | arr [], _, fuel + 1, _ =>
    rw [parseValue.eq_def]
    rfl
  | arr (item :: items), hok, fuel + 1, hfuel =>
    rw [Ok, OkItems] at hok
    obtain ⟨first, others, hitem, hfirst, hbracket, -⟩ := begins_stringify hok.1
    have hitems := parseItems_stringify item items hok.1 hok.2 fuel (by
      simp only [stringify, List.cons_append, List.length_cons, List.length_append] at hfuel
      omega) [] rest
    rw [parseValue.eq_def]
    simp only [stringify, List.cons_append, List.append_assoc]
    rw [skipSpace_cons (by decide)]
    simp only [show unit '[' ≠ unit '"' by decide, if_true, if_false]
    rw [hitem, List.cons_append] at hitems ⊢
    rw [skipSpace_cons hfirst]
    simp only [hbracket, if_false]
    exact hitems
  | obj [], _, fuel + 1, _ =>
    rw [parseValue.eq_def]
    simp only [stringify, List.cons_append, List.nil_append]
    rw [skipSpace_cons (by decide)]
    simp only [show unit '\x7b' ≠ unit '"' by decide, show unit '\x7b' ≠ unit '[' by decide, if_true, if_false]
    rw [skipSpace_cons (by decide)]
    simp
  | obj ((key, value) :: fields), hok, fuel + 1, hfuel =>
    rw [Ok, OkFields] at hok
    have hfields := parseFields_stringify key value fields hok.2.1 hok.2.2 fuel (by
      simp only [stringify, List.cons_append, List.length_cons, List.length_append] at hfuel
      omega) [] (by simpa using hok.1) rest
    rw [parseValue.eq_def]
    simp only [stringify, List.cons_append, List.append_assoc]
    rw [skipSpace_cons (by decide)]
    simp only [show unit '\x7b' ≠ unit '"' by decide, show unit '\x7b' ≠ unit '[' by decide, if_true, if_false]
    rw [quote, List.cons_append, List.cons_append] at hfields ⊢
    rw [skipSpace_cons (by decide)]
    simp only [show unit '"' ≠ unit '\x7d' by decide, if_false]
    exact hfields
termination_by sizeOf v

theorem parseItems_stringify (item : Json) (items : List Json) (hitem : Ok item) (hitems : OkItems items) (fuel : Nat)
    (hfuel : 2 * ((stringify item).length + (stringifyItems items).length) + 1 ≤ fuel) (before : List Json) (rest : Text) :
    parseItems fuel before (stringify item ++ (stringifyItems items ++ rest)) = some (arr (before ++ item :: items), rest) := by
  match items, hitems, fuel, hfuel with
  | [], _, fuel + 1, hfuel =>
    have hvalue := parseValue_stringify item hitem fuel (by omega) (stringifyItems [] ++ rest) (stops_items [] rest)
    rw [parseItems.eq_def]
    simp only [hvalue]
    rw [stringifyItems, List.cons_append, List.nil_append, skipSpace_cons (by decide)]
    simp [show unit ']' ≠ unit ',' by decide]
  | next :: items, hitems, fuel + 1, hfuel =>
    have hvalue := parseValue_stringify item hitem fuel (by omega) (stringifyItems (next :: items) ++ rest) (stops_items _ rest)
    rw [OkItems] at hitems
    have htail := parseItems_stringify next items hitems.1 hitems.2 fuel (by
      rw [stringifyItems] at hfuel
      simp only [List.cons_append, List.length_cons, List.length_append] at hfuel
      omega) (before ++ [item]) rest
    rw [parseItems.eq_def]
    simp only [hvalue]
    rw [stringifyItems, List.cons_append, List.cons_append, skipSpace_cons (by decide)]
    simp only [if_true, List.append_assoc, htail]
    simp
termination_by sizeOf item + sizeOf items + 1

theorem parseFields_stringify (key : Text) (value : Json) (fields : List (Text × Json)) (hvalue : Ok value) (hfields : OkFields fields)
    (fuel : Nat) (hfuel : 2 * ((quote key).length + 1 + (stringify value).length + (stringifyFields fields).length) + 1 ≤ fuel)
    (before : List (Text × Json)) (hkeys : ((before ++ (key, value) :: fields).map Prod.fst).Nodup) (rest : Text) :
    parseFields fuel before (quote key ++ unit ':' :: (stringify value ++ (stringifyFields fields ++ rest))) =
      some (obj (before ++ (key, value) :: fields), rest) := by
  match fields, hfields, hkeys, fuel, hfuel with
  | [], _, hkeys, fuel + 1, hfuel =>
    have hparsed := parseValue_stringify value hvalue fuel (by omega) (stringifyFields [] ++ rest) (stops_fields [] rest)
    rw [parseFields_one hparsed (new_of_nodup hkeys), stringifyFields, List.cons_append, List.nil_append, skipSpace_cons (by decide)]
    simp [show unit '\x7d' ≠ unit ',' by decide]
  | (nextKey, nextValue) :: fields, hfields, hkeys, fuel + 1, hfuel =>
    have hparsed := parseValue_stringify value hvalue fuel (by omega) (stringifyFields ((nextKey, nextValue) :: fields) ++ rest)
      (stops_fields _ rest)
    rw [OkFields] at hfields
    have htail := parseFields_stringify nextKey nextValue fields hfields.1 hfields.2 fuel (by
      rw [stringifyFields] at hfuel
      simp only [List.cons_append, List.length_cons, List.length_append] at hfuel
      omega) (before ++ [(key, value)]) (by simpa using hkeys) rest
    rw [parseFields_one hparsed (new_of_nodup hkeys)]
    simp only [stringifyFields, List.append_assoc, List.cons_append]
    rw [skipSpace_cons (by decide)]
    simp only [if_true, htail]
    simp
termination_by sizeOf value + sizeOf fields + 1

end

/-- `JSON.parse(JSON.stringify(v))`. -/
theorem parse_stringify {v : Json} (hok : Ok v) : parse (stringify v) = some v := by
  have hvalue := parseValue_stringify v hok (2 * (stringify v).length + 1) (by omega) [] Stops.nil
  rw [List.append_nil] at hvalue
  simp [parse, hvalue, skipSpace]

/-! ## The text can be encoded -/

theorem wellFormed_ascii {t : Text} (h : ∀ u ∈ t, u.toNat < 0x80) : WellFormed t := by
  induction t with
  | nil => exact WellFormed.nil
  | cons u rest ih =>
    rw [List.forall_mem_cons] at h
    have hu := not_surrogate h.1
    exact (WellFormed.unit hu.1 hu.2).append (ih h.2)

theorem hexUnit_lt : ∀ n < 16, (hexUnit n).toNat < 0x80 := by decide +kernel

theorem escapes_lt : ∀ e ∈ escapes, e.2.toNat < 0x80 := List.all_iff_forall_prop.1 (by decide)

theorem wellFormed_escapeUnit (u : UInt16) : WellFormed (escapeUnit u) := by
  unfold escapeUnit
  cases hlookup : escapes.lookup u with
  | some letter =>
    apply wellFormed_ascii
    have hletter := escapes_lt _ (mem_escapes_of_lookup hlookup)
    simp only [List.mem_cons, List.not_mem_nil, or_false, forall_eq_or_imp, forall_eq]
    exact ⟨by decide, hletter⟩
  | none =>
    simp only
    split
    case isTrue =>
      have hlt := u.toNat_lt
      apply wellFormed_ascii
      simp only [List.mem_cons, List.not_mem_nil, or_false, forall_eq_or_imp, forall_eq]
      exact ⟨by decide, by decide, hexUnit_lt _ (by omega), hexUnit_lt _ (by omega), hexUnit_lt _ (by omega), hexUnit_lt _ (by omega)⟩
    case isFalse hplain =>
      simp only [Bool.or_eq_true, decide_eq_true_eq, not_or, Bool.not_eq_true] at hplain
      exact WellFormed.unit hplain.1.2 hplain.2

/-- A pair is one code point. -/
theorem wellFormed_pair {u v : UInt16} (hu : isHigh u = true) (hv : isLow v = true) : WellFormed [u, v] := by
  simp only [isHigh, isLow, Bool.and_eq_true, decide_eq_true_eq] at hu hv
  have hunits : utf16 (0x10000 + (u.toNat - 0xd800) * 0x400 + (v.toNat - 0xdc00)) = [u, v] := by
    have hfirst : 0xd800 + (0x10000 + (u.toNat - 0xd800) * 0x400 + (v.toNat - 0xdc00) - 0x10000) / 0x400 = u.toNat := by omega
    have hsecond : 0xdc00 + (0x10000 + (u.toNat - 0xd800) * 0x400 + (v.toNat - 0xdc00) - 0x10000) % 0x400 = v.toNat := by omega
    rw [utf16, if_neg (by omega), hfirst, hsecond, UInt16.ofNat_toNat, UInt16.ofNat_toNat]
  rw [← hunits]
  apply WellFormed.point
  unfold IsScalar
  omega

theorem wellFormed_quoteBody (s : Text) : WellFormed (quoteBody s) := by
  fun_induction quoteBody s with
  | case1 => exact WellFormed.nil
  | case2 u => exact wellFormed_escapeUnit u
  | case3 u v rest hpair ih =>
    rw [Bool.and_eq_true] at hpair
    exact (wellFormed_pair hpair.1 hpair.2).append ih
  | case4 u v rest _ ih => exact (wellFormed_escapeUnit u).append ih

theorem wellFormed_char {c : Char} (h : (unit c).toNat < 0x80) : WellFormed [unit c] := wellFormed_ascii (by simpa using h)

theorem wellFormed_quote (s : Text) : WellFormed (quote s) :=
  ((wellFormed_char (c := '"') (by decide)).append (wellFormed_quoteBody s)).append (wellFormed_char (by decide))

mutual

theorem wellFormed_stringify (v : Json) (hok : Ok v) : WellFormed (stringify v) := by
  match v, hok with
  | null, _ => exact wellFormed_ascii (List.all_iff_forall_prop.1 (by decide))
  | bool true, _ => exact wellFormed_ascii (List.all_iff_forall_prop.1 (by decide))
  | bool false, _ => exact wellFormed_ascii (List.all_iff_forall_prop.1 (by decide))
  | num literal, hok => exact wellFormed_ascii fun u hu => (numberUnit_ne (hok.2 u hu)).2.2.2.2.2
  | str s, _ => exact wellFormed_quote s
  | arr [], _ => exact wellFormed_ascii (List.all_iff_forall_prop.1 (by decide))
  | arr (item :: items), hok =>
    rw [Ok, OkItems] at hok
    exact ((wellFormed_char (by decide)).append (wellFormed_stringify item hok.1)).append (wellFormed_items items hok.2)
  | obj [], _ => exact wellFormed_ascii (List.all_iff_forall_prop.1 (by decide))
  | obj ((key, value) :: fields), hok =>
    rw [Ok, OkFields] at hok
    have hvalue := (wellFormed_char (c := ':') (by decide)).append (wellFormed_stringify value hok.2.1)
    have hfield := ((wellFormed_char (c := '\x7b') (by decide)).append (wellFormed_quote key)).append
      (hvalue.append (wellFormed_fields fields hok.2.2))
    simpa only [stringify, List.append_assoc, List.cons_append, List.nil_append] using hfield

theorem wellFormed_items (items : List Json) (hok : OkItems items) : WellFormed (stringifyItems items) := by
  match items, hok with
  | [], _ => exact wellFormed_char (by decide)
  | item :: items, hok =>
    rw [OkItems] at hok
    exact ((wellFormed_char (by decide)).append (wellFormed_stringify item hok.1)).append (wellFormed_items items hok.2)

theorem wellFormed_fields (fields : List (Text × Json)) (hok : OkFields fields) : WellFormed (stringifyFields fields) := by
  match fields, hok with
  | [], _ => exact wellFormed_char (by decide)
  | (key, value) :: fields, hok =>
    rw [OkFields] at hok
    have hvalue := (wellFormed_char (c := ':') (by decide)).append (wellFormed_stringify value hok.1)
    have hfield := ((wellFormed_char (c := ',') (by decide)).append (wellFormed_quote key)).append
      (hvalue.append (wellFormed_fields fields hok.2))
    simpa only [stringifyFields, List.append_assoc, List.cons_append, List.nil_append] using hfield

end

theorem unmarked_stringify {v : Json} (hok : Ok v) : Unmarked (stringify v) := by
  obtain ⟨u, tail, hbegins, -, -, hlt⟩ := begins_stringify hok
  rw [hbegins, Unmarked, List.head?_cons]
  rintro hmark
  cases hmark
  revert hlt
  decide

/-- What is written, encoded and decoded is read back. -/
theorem parse_decode {v : Json} (hok : Ok v) : parse (decode (encode (stringify v))) = some v := by
  rw [decode_encode (wellFormed_stringify v hok) (unmarked_stringify hok), parse_stringify hok]

theorem parse_decodeFatal {v : Json} (hok : Ok v) : (decodeFatal (encode (stringify v))).bind parse = some v := by
  rw [decodeFatal_encode (wellFormed_stringify v hok) (unmarked_stringify hok), Option.bind_some, parse_stringify hok]

/-! ## Strings without escapes -/

/-- An ASCII character that is written as it is. -/
def isPlain (u : UInt16) : Bool := 0x20 ≤ u && u < 0x80 && u != unit '"' && u != unit '\\'

theorem isPlain_lt {u : UInt16} (h : isPlain u = true) : u.toNat < 0x80 := by
  simp only [isPlain, Bool.and_eq_true, decide_eq_true_eq] at h
  exact UInt16.lt_iff_toNat_lt.1 h.1.1.2

theorem escapeUnit_plain {u : UInt16} (h : isPlain u = true) : escapeUnit u = [u] := by
  have hlookup : escapes.lookup u = none := by
    rw [List.lookup_eq_none_iff]
    intro e he
    rw [bne_iff_ne]
    rintro rfl
    have hnot : ∀ e ∈ escapes, isPlain e.1 = false := List.all_iff_forall_prop.1 (by decide)
    rw [hnot e he] at h
    cases h
  have hsurrogate := not_surrogate (isPlain_lt h)
  simp only [isPlain, Bool.and_eq_true, decide_eq_true_eq] at h
  unfold escapeUnit
  simp only [hlookup, hsurrogate.1, hsurrogate.2, Bool.or_false, decide_eq_true_eq]
  exact if_neg (UInt16.not_lt.2 h.1.1.1)

theorem quoteBody_plain {s : Text} (h : ∀ u ∈ s, isPlain u = true) : quoteBody s = s := by
  fun_induction quoteBody s with
  | case1 => rfl
  | case2 u => exact escapeUnit_plain (h u (by simp))
  | case3 u v rest hpair _ =>
    have hu := not_surrogate (isPlain_lt (h u (by simp)))
    simp [hu.1] at hpair
  | case4 u v rest _ ih =>
    rw [escapeUnit_plain (h u (by simp)), ih fun w hw => h w (List.mem_cons_of_mem _ hw)]
    rfl

theorem length_quote_plain {s : Text} (h : ∀ u ∈ s, isPlain u = true) : (quote s).length = s.length + 2 := by
  rw [quote, quoteBody_plain h]
  simp

/-- Only ASCII characters. -/
def IsAscii (t : Text) : Prop := ∀ u ∈ t, u.toNat < 0x80

instance (t : Text) : Decidable (IsAscii t) :=
  decidable_of_iff ((t.all fun u => u.toNat < 0x80) = true) List.all_iff_forall_prop

@[simp] theorem isAscii_nil : IsAscii [] := List.forall_mem_nil _

@[simp] theorem isAscii_cons {u : UInt16} {t : Text} : IsAscii (u :: t) ↔ u.toNat < 0x80 ∧ IsAscii t := List.forall_mem_cons

@[simp] theorem isAscii_append {s t : Text} : IsAscii (s ++ t) ↔ IsAscii s ∧ IsAscii t := List.forall_mem_append

theorem isAscii_quote_plain {s : Text} (h : ∀ u ∈ s, isPlain u = true) : IsAscii (quote s) := by
  have hs : IsAscii s := fun u hu => isPlain_lt (h u hu)
  have hquote : (unit '"').toNat < 0x80 := by decide
  simp [quote, quoteBody_plain h, hs, hquote]

end Hyeboard.Json
