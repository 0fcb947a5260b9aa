import Hyeboard.LoginForm.Pieces
/-!
# What a tag says

The tags of forms and inputs and their attributes, told by how they are spelled. The
detector's regular expressions meet it.
-/

namespace Hyeboard.LoginForm

/-! ## Elements -/

/-- A tag that opens the element: its name, in any case, is not the beginning of a longer word. -/
def Opens (element tag : Text) : Prop :=
  ∃ name rest, tag = unit '<' :: (name ++ rest) ∧ name.map lowerUnit = element ∧ ∀ u, rest.head? = some u → isWordUnit u = false

/-- The closing tag of the element, which has nothing but white space behind the name. -/
def Closes (element tag : Text) : Prop :=
  ∃ name spaces, tag = units "</" ++ name ++ spaces ++ units ">" ∧ name.map lowerUnit = element ∧ ∀ u ∈ spaces, isSpaceUnit u = true

section
variable {element tag : Text}

theorem startsWith_lt : startsWithAsciiCaseInsensitive tag (unit '<' :: element) = true ↔
    ∃ name rest, tag = unit '<' :: (name ++ rest) ∧ name.map lowerUnit = element := by
  rw [startsWith_iff]
  constructor
  · rintro ⟨spelled, rest, rfl, hspelled⟩
    cases spelled with
    | nil => cases hspelled
    | cons u name =>
      rw [List.map_cons, List.cons.injEq, lowerUnit_eq_iff (by decide)] at hspelled
      obtain ⟨rfl, hname⟩ := hspelled
      exact ⟨name, rest, rfl, hname⟩
  · rintro ⟨name, rest, rfl, rfl⟩
    exact ⟨unit '<' :: name, rest, rfl, rfl⟩

theorem opens_iff : Opens element tag ↔
    (startsWithAsciiCaseInsensitive tag (unit '<' :: element) && !(tag[element.length + 1]?.any isWordUnit)) = true := by
  rw [Bool.and_eq_true, startsWith_lt]
  have hat : ∀ name rest : Text, name.map lowerUnit = element → (unit '<' :: (name ++ rest))[element.length + 1]? = rest.head? := by
    intro name rest hname
    have hlength : name.length = element.length := length_eq_of_lower hname
    rw [List.getElem?_cons_succ, List.getElem?_append_right (Nat.le_of_eq hlength), hlength, Nat.sub_self, List.head?_eq_getElem?]
  constructor
  · rintro ⟨name, rest, rfl, hname, hrest⟩
    refine ⟨⟨name, rest, rfl, hname⟩, ?_⟩
    rw [hat name rest hname]
    cases hhead : rest.head? with
    | none => rfl
    | some u => simpa using hrest u hhead
  · rintro ⟨⟨name, rest, rfl, hname⟩, hword⟩
    rw [hat name rest hname] at hword
    refine ⟨name, rest, rfl, hname, fun u hu => ?_⟩
    rw [hu] at hword
    simpa using hword

theorem isFormOpening_iff : isFormOpening tag = true ↔ Opens (units "form") tag := opens_iff.symm

theorem isInput_iff : isInput tag = true ↔ Opens (units "input") tag := opens_iff.symm

theorem isFormClosing_iff : isFormClosing tag = true ↔ Closes (units "form") tag := by
  have hslash : startsWithAsciiCaseInsensitive tag (units "</form") = true ↔
      ∃ name rest, tag = units "</" ++ name ++ rest ∧ name.map lowerUnit = units "form" := by
    rw [show units "</form" = unit '<' :: units "/form" from rfl, startsWith_lt]
    constructor
    · rintro ⟨spelled, rest, rfl, hspelled⟩
      cases spelled with
      | nil => cases hspelled
      | cons u name =>
        rw [show units "/form" = unit '/' :: units "form" from rfl, List.map_cons, List.cons.injEq, lowerUnit_eq_iff (by decide)] at hspelled
        obtain ⟨rfl, hname⟩ := hspelled
        exact ⟨name, rest, rfl, hname⟩
    · rintro ⟨name, rest, rfl, hname⟩
      refine ⟨unit '/' :: name, rest, rfl, ?_⟩
      rw [List.map_cons, hname]
      rfl
  have hdrop : ∀ name rest : Text, name.map lowerUnit = units "form" → (units "</" ++ name ++ rest).drop 6 = rest := by
    intro name rest hname
    have hlength : (units "</" ++ name).length = 6 := by
      rw [List.length_append, length_eq_of_lower hname]
      rfl
    rw [← hlength, List.drop_left]
  rw [isFormClosing, Bool.and_eq_true, hslash, decide_eq_true_eq]
  constructor
  · rintro ⟨⟨name, rest, rfl, hname⟩, hrest⟩
    rw [hdrop name rest hname] at hrest
    refine ⟨name, rest.takeWhile isSpaceUnit, ?_, hname, fun u hu => List.mem_takeWhile_imp hu⟩
    rw [← hrest, List.append_assoc _ (rest.takeWhile isSpaceUnit), List.takeWhile_append_dropWhile]
  · rintro ⟨name, spaces, rfl, hname, hspaces⟩
    refine ⟨⟨name, spaces ++ units ">", List.append_assoc _ _ _, hname⟩, ?_⟩
    rw [List.append_assoc, hdrop name _ hname, List.dropWhile_append_of_pos hspaces]
    decide

end

instance (tag : Text) : Decidable (Opens (units "form") tag) := decidable_of_iff _ isFormOpening_iff

instance (tag : Text) : Decidable (Closes (units "form") tag) := decidable_of_iff _ isFormClosing_iff

theorem Closes.not_opens {tag : Text} (h : Closes (units "form") tag) : ¬ Opens (units "form") tag := by
  obtain ⟨name, spaces, rfl, -, -⟩ := h
  rintro ⟨name', rest, heq, hname', -⟩
  cases name' with
  | nil => cases hname'
  | cons u name' =>
    obtain rfl : unit '/' = u := (List.cons.inj (List.cons.inj heq).2).1
    exact absurd (List.cons.inj hname').1 (by decide)

/-! ## Attributes -/

/-- The name in any case, an equals sign and a value in quotes; white space may stand around the sign. -/
def SaysAttribute (attr value text : Text) : Prop :=
  ∃ name spaces spaces' quote rest, text = name ++ (spaces ++ unit '=' :: (spaces' ++ quote :: (value ++ quote :: rest))) ∧
    name.map lowerUnit = attr ∧ (∀ u ∈ spaces, isSpaceUnit u = true) ∧ (∀ u ∈ spaces', isSpaceUnit u = true) ∧
    (quote = unit '"' ∨ quote = unit '\'') ∧ quote ∉ value

/-- The first place in a text where the attribute is said, of those at the start of the tag or behind white space. -/
inductive FirstAttribute (attr value : Text) : Option UInt16 → Text → Prop
  | here {before : Option UInt16} {text : Text} (hplace : before.all isSpaceUnit = true) (hattr : SaysAttribute attr value text) :
      FirstAttribute attr value before text
  | later {before : Option UInt16} {u : UInt16} {text : Text}
      (hnot : before.all isSpaceUnit = true → ∀ other, ¬ SaysAttribute attr other (u :: text))
      (hlater : FirstAttribute attr value (some u) text) : FirstAttribute attr value before (u :: text)

/-- The value of a tag's attribute, in lower case. -/
def HasAttribute (attr value tag : Text) : Prop := ∃ spelled, FirstAttribute attr spelled none tag ∧ toLowerCase spelled = value

def IsInputNamed (name tag : Text) : Prop := Opens (units "input") tag ∧ HasAttribute (units "name") name tag

section
variable {attr value text : Text}

/-- A text of a class ends where something else comes. -/
theorem class_inj {accepts : UInt16 → Bool} {passed passed' rest rest' : Text} {u u' : UInt16} (h : ∀ v ∈ passed, accepts v = true)
    (h' : ∀ v ∈ passed', accepts v = true) (hu : accepts u = false) (hu' : accepts u' = false) (heq : passed ++ u :: rest = passed' ++ u' :: rest') :
    passed = passed' ∧ u = u' ∧ rest = rest' := by
  have htake : ∀ {front back : Text} {v : UInt16}, (∀ w ∈ front, accepts w = true) → accepts v = false →
      (front ++ v :: back).takeWhile accepts = front := by
    intro front back v hfront hv
    rw [List.takeWhile_append_of_pos hfront, List.takeWhile_cons_of_neg (by simp [hv]), List.append_nil]
  -- both are what the class takes from the front of the one text
  obtain rfl : passed = passed' := by rw [← htake h hu, heq, htake h' hu']
  simpa using heq

theorem SaysAttribute.unique {other : Text} (h : SaysAttribute attr value text) (h' : SaysAttribute attr other text) : value = other := by
  obtain ⟨name, spaces, spaces', quote, rest, rfl, hname, hspaces, hspaces', hquote, hvalue⟩ := h
  obtain ⟨name₁, spaces₁, spaces₁', quote₁, rest₁, heq, hname₁, hspaces₁, hspaces₁', hquote₁, hvalue₁⟩ := h'
  have hquoted : ∀ {q : UInt16}, q = unit '"' ∨ q = unit '\'' → isSpaceUnit q = false := by
    rintro q (rfl | rfl)
    · decide
    · decide
  have hinside : ∀ {q : UInt16} {inside : Text}, q ∉ inside → ∀ u ∈ inside, (u != q) = true :=
    fun hq u hu => bne_iff_ne.2 (ne_of_mem_of_not_mem hu hq)
  -- the names are as long as each other; the sign, the quotes and their closing ones are where the classes end
  have hlength : name.length = name₁.length := (length_eq_of_lower hname).trans (length_eq_of_lower hname₁).symm
  obtain ⟨-, heq⟩ := List.append_inj heq hlength
  obtain ⟨-, -, heq⟩ := class_inj hspaces hspaces₁ (by decide) (by decide) heq
  obtain ⟨-, rfl, heq⟩ := class_inj hspaces' hspaces₁' (hquoted hquote) (hquoted hquote₁) heq
  exact (class_inj (hinside hvalue) (hinside hvalue₁) (bne_self_eq_false _) (bne_self_eq_false _) heq).1

theorem not_saysAttribute_nil : ¬ SaysAttribute attr value [] := by
  rintro ⟨name, spaces, spaces', quote, rest, heq, -⟩
  simp at heq

theorem not_firstAttribute_nil {before : Option UInt16} : ¬ FirstAttribute attr value before [] := by
  intro h
  cases h with
  | here _ hattr => exact not_saysAttribute_nil hattr

/-- Not here, so later. -/
theorem firstAttribute_cons {before : Option UInt16} {u : UInt16}
    (hnot : before.all isSpaceUnit = true → ∀ other, ¬ SaysAttribute attr other (u :: text)) :
    FirstAttribute attr value before (u :: text) ↔ FirstAttribute attr value (some u) text := by
  constructor
  · intro h
    cases h with
    | here hplace hattr => exact absurd hattr (hnot hplace value)
    | later _ hlater => exact hlater
  · exact .later hnot

/-- Here, so with the value it has here. -/
theorem firstAttribute_here {before : Option UInt16} {other : Text} (hplace : before.all isSpaceUnit = true) (h : SaysAttribute attr other text) :
    FirstAttribute attr value before text ↔ other = value := by
  constructor
  · intro hfirst
    cases hfirst with
    | here _ hattr => exact h.unique hattr
    | later hnot _ => exact absurd h (hnot hplace other)
  · rintro rfl
    exact .here hplace h

end

/-! ## The expression of an attribute -/

/-- Without the place where it begins. -/
def attributeBody (attr : String) : Regex :=
  Regex.sequence [Regex.sequence (attr.toList.map fun c => .unit fun u => lowerUnit u = unit c),
    .star true Regex.space, Regex.char '=', .star true Regex.space,
    .alt (Regex.sequence [Regex.char '"', .group 1 (.star true (Regex.notOf "\"")), Regex.char '"'])
      (Regex.sequence [Regex.char '\'', .group 2 (.star true (Regex.notOf "'")), Regex.char '\''])]

/-- The text of the group that took part. -/
def valueOf (groups : List (Nat × Text)) : Option Text := (groups.lookup 1).or (groups.lookup 2)

section
variable {attr : String} {value : Text}

open Regex

theorem reads_quoted (index : Nat) (quote : Char) (other : String) (hother : units other = [unit quote]) :
    Reads (Regex.sequence [Regex.char quote, .group index (.star true (Regex.notOf other)), Regex.char quote]) fun here there =>
      ∃ value, here.1 = unit quote :: (value ++ unit quote :: there.1) ∧ unit quote ∉ value ∧ there.2 = (index, value) :: here.2 := by
  refine (reads_unit.seq (reads_star_unit.group.seq (reads_unit.seq reads_nothing))).congr fun here there => ?_
  have haccepts : ∀ u, (!(units other).contains u) = true ↔ u ≠ unit quote := by
    intro u
    rw [hother]
    simp
  constructor
  · rintro ⟨first, ⟨u, hhere, hu, hfirst⟩, mid, ⟨behind, ⟨value, hvalue, hinside, hbehind⟩, rfl⟩, there, ⟨u', hclosing, hu', hgroups⟩, rfl⟩
    cases of_decide_eq_true hu
    cases of_decide_eq_true hu'
    simp only at hclosing hgroups
    refine ⟨value, ?_, fun hmem => (haccepts _).1 (hvalue _ hmem) rfl, ?_⟩
    · rw [hhere, hinside, hclosing]
    · rw [hgroups, hinside, List.length_append, Nat.add_sub_cancel, List.take_left, hbehind, hfirst]
  · rintro ⟨value, hhere, hvalue, hthere⟩
    refine ⟨(value ++ unit quote :: there.1, here.2), ⟨unit quote, hhere, decide_eq_true rfl, rfl⟩, (unit quote :: there.1, (index, value) :: here.2),
      ⟨(unit quote :: there.1, here.2), ⟨value, ?_, rfl, rfl⟩, ?_⟩, there, ⟨unit quote, rfl, decide_eq_true rfl, hthere⟩, rfl⟩
    · intro u hu
      exact (haccepts u).2 (ne_of_mem_of_not_mem hu hvalue)
    · rw [List.length_append, Nat.add_sub_cancel, List.take_left]

theorem reads_attributeBody : Reads (attributeBody attr) fun here there =>
    ∃ name spaces spaces' quote value index, here.1 = name ++ (spaces ++ unit '=' :: (spaces' ++ quote :: (value ++ quote :: there.1))) ∧
      name.map lowerUnit = attr.toList.map unit ∧ (∀ u ∈ spaces, isSpaceUnit u = true) ∧ (∀ u ∈ spaces', isSpaceUnit u = true) ∧
      (quote = unit '"' ∧ index = 1 ∨ quote = unit '\'' ∧ index = 2) ∧ quote ∉ value ∧ there.2 = (index, value) :: here.2 := by
  have hquotes := (reads_quoted 1 '"' "\"" rfl).alt (reads_quoted 2 '\'' "'" rfl)
  refine ((reads_lower attr.toList).seq (reads_star_unit.seq (reads_unit.seq (reads_star_unit.seq (hquotes.seq reads_nothing))))).congr
    fun here there => ?_
  constructor
  · rintro ⟨first, ⟨name, hname, hlower, hfirst⟩, second, ⟨spaces, hspaces, hgap, hsecond⟩, third, ⟨u, hsign, hu, hthird⟩,
      fourth, ⟨spaces', hspaces', hgap', hfourth⟩, there, hquoted, rfl⟩
    cases of_decide_eq_true hu
    have hgroups : fourth.2 = here.2 := by rw [hfourth, hthird, hsecond, hfirst]
    rw [hname, hgap, hsign, hgap']
    rcases hquoted with ⟨value, hvalue, hclosed, hthere⟩ | ⟨value, hvalue, hclosed, hthere⟩
    · exact ⟨name, spaces, spaces', _, value, 1, by rw [hvalue], hlower, hspaces, hspaces', .inl ⟨rfl, rfl⟩, hclosed, hgroups ▸ hthere⟩
    · exact ⟨name, spaces, spaces', _, value, 2, by rw [hvalue], hlower, hspaces, hspaces', .inr ⟨rfl, rfl⟩, hclosed, hgroups ▸ hthere⟩
  · rintro ⟨name, spaces, spaces', quote, value, index, hhere, hlower, hspaces, hspaces', hquote, hvalue, hgroups⟩
    refine ⟨(_, here.2), ⟨name, hhere, hlower, rfl⟩, (_, here.2), ⟨spaces, hspaces, rfl, rfl⟩, (_, here.2), ⟨unit '=', rfl, decide_eq_true rfl, rfl⟩,
      (_, here.2), ⟨spaces', hspaces', rfl, rfl⟩, there, ?_, rfl⟩
    rcases hquote with ⟨rfl, rfl⟩ | ⟨rfl, rfl⟩
    · exact .inl ⟨value, rfl, hvalue, hgroups⟩
    · exact .inr ⟨value, rfl, hvalue, hgroups⟩

/-- Where the attribute is said a match ends, and each match there has the value in its group. -/
theorem ends_attributeBody {before : Option UInt16} {text : Text} :
    (∀ stop ∈ ends (attributeBody attr) ⟨before, text, []⟩, ∃ value, valueOf stop.groups = some value ∧ SaysAttribute (attr.toList.map unit) value text) ∧
    (∀ value, SaysAttribute (attr.toList.map unit) value text → ends (attributeBody attr) ⟨before, text, []⟩ ≠ []) := by
  constructor
  · intro stop hstop
    obtain ⟨name, spaces, spaces', quote, value, index, htext, hlower, hspaces, hspaces', hquote, hvalue, hgroups⟩ :=
      (reads_attributeBody _ stop.ahead).1 ⟨stop, hstop, rfl⟩
    refine ⟨value, ?_, name, spaces, spaces', quote, stop.rest, htext, hlower, hspaces, hspaces', hquote.imp And.left And.left, hvalue⟩
    have hstop : stop.groups = [(index, value)] := hgroups
    rw [hstop]
    rcases hquote with ⟨-, rfl⟩ | ⟨-, rfl⟩
    · rfl
    · rfl
  · rintro value ⟨name, spaces, spaces', quote, rest, htext, hlower, hspaces, hspaces', hquote, hvalue⟩ hnone
    obtain ⟨index, hquote⟩ : ∃ index, quote = unit '"' ∧ index = 1 ∨ quote = unit '\'' ∧ index = 2 := by
      rcases hquote with rfl | rfl
      · exact ⟨1, .inl ⟨rfl, rfl⟩⟩
      · exact ⟨2, .inr ⟨rfl, rfl⟩⟩
    obtain ⟨stop, hstop, -⟩ := (reads_attributeBody ⟨before, text, []⟩ (rest, [(index, value)])).2
      ⟨name, spaces, spaces', quote, value, index, htext, hlower, hspaces, hspaces', hquote, hvalue, rfl⟩
    rw [hnone] at hstop
    cases hstop

/-! ## Finding it -/

/-- Whether the first of these matches has the value. -/
def Captures (stops : List Cursor) (value : Text) : Prop := ∃ stop, stops.head? = some stop ∧ valueOf stop.groups = some value

theorem captures_append_of_ne {stops others : List Cursor} (h : stops ≠ []) : Captures (stops ++ others) value ↔ Captures stops value := by
  rw [Captures, Captures, List.head?_append_of_ne_nil _ h]

theorem captures_here {before : Option UInt16} {text said : Text} (h : SaysAttribute (attr.toList.map unit) said text) :
    Captures (ends (attributeBody attr) ⟨before, text, []⟩) value ↔ said = value := by
  have hne : ends (attributeBody attr) ⟨before, text, []⟩ ≠ [] := ends_attributeBody.2 said h
  obtain ⟨stop, stops, hends⟩ := List.exists_cons_of_ne_nil hne
  have hstop : stop ∈ ends (attributeBody attr) ⟨before, text, []⟩ := hends ▸ List.mem_cons_self
  obtain ⟨other, hother, hattr⟩ := ends_attributeBody.1 stop hstop
  obtain rfl := hattr.unique h
  rw [Captures, hends]
  simp [hother]

theorem ends_attributeRe (attr : String) (before : Option UInt16) (text : Text) : ends (attributeRe attr) ⟨before, text, []⟩ =
    (if before.isNone then ends (attributeBody attr) ⟨before, text, []⟩ else []) ++
      match text with
      | u :: rest => if isSpaceUnit u then ends (attributeBody attr) ⟨some u, rest, []⟩ else []
      | [] => [] := by
  change (ends .start ⟨before, text, []⟩ ++ ends Regex.space ⟨before, text, []⟩).flatMap (ends (attributeBody attr)) = _
  rw [List.flatMap_append]
  congr 1
  · rw [ends_start]
    split
    · exact List.flatMap_singleton _ _
    · rfl
  · cases text with
    | nil => rfl
    | cons u rest =>
      rw [Regex.space, ends_unit]
      simp only
      split
      · exact List.flatMap_singleton _ _
      · rfl

/-- Whether the search finds the value. -/
def Finds (attr : String) (value : Text) (before : Option UInt16) (text : Text) : Prop :=
  ∃ found, find (attributeRe attr) before text = some found ∧ valueOf found.groups = some value

theorem finds_here {before : Option UInt16} {text : Text} (h : ends (attributeRe attr) ⟨before, text, []⟩ ≠ []) :
    Finds attr value before text ↔ Captures (ends (attributeRe attr) ⟨before, text, []⟩) value := by
  obtain ⟨stop, stops, hends⟩ := List.exists_cons_of_ne_nil h
  cases text with
  | nil => simp [Finds, find, Captures, hends]
  | cons u rest => simp [Finds, find, Captures, hends]

theorem finds_later {before : Option UInt16} {u : UInt16} {rest : Text} (h : ends (attributeRe attr) ⟨before, u :: rest, []⟩ = []) :
    Finds attr value before (u :: rest) ↔ Finds attr value (some u) rest := by
  simp [Finds, find, h]

theorem not_finds_nil {before : Option UInt16} (h : ends (attributeRe attr) ⟨before, [], []⟩ = []) : ¬ Finds attr value before [] := by
  simp [Finds, find, h]

theorem ends_attributeBody_eq_nil {before : Option UInt16} {text : Text} (h : ∀ said, ¬ SaysAttribute (attr.toList.map unit) said text) :
    ends (attributeBody attr) ⟨before, text, []⟩ = [] := by
  rw [List.eq_nil_iff_forall_not_mem]
  intro stop hstop
  obtain ⟨said, -, hattr⟩ := ends_attributeBody.1 stop hstop
  exact h said hattr

/-- Behind the first unit, the attribute follows a space. -/
theorem finds_some {u : UInt16} {text : Text} :
    Finds attr value (some u) text ↔ ∃ w rest, text = w :: rest ∧ FirstAttribute (attr.toList.map unit) value (some w) rest := by
  induction text generalizing u with
  | nil =>
    have hends : ends (attributeRe attr) ⟨some u, [], []⟩ = [] := ends_attributeRe _ _ _
    simp [not_finds_nil hends]
  | cons w rest ih =>
    have hends : ends (attributeRe attr) ⟨some u, w :: rest, []⟩ = if isSpaceUnit w then ends (attributeBody attr) ⟨some w, rest, []⟩ else [] :=
      ends_attributeRe _ _ _
    have hrest : (∃ w' rest', w :: rest = w' :: rest' ∧ FirstAttribute (attr.toList.map unit) value (some w') rest') ↔
        FirstAttribute (attr.toList.map unit) value (some w) rest := by simp
    rw [hrest]
    by_cases hattr : isSpaceUnit w = true ∧ ∃ said, SaysAttribute (attr.toList.map unit) said rest
    · obtain ⟨hspace, said, hattr⟩ := hattr
      rw [if_pos hspace] at hends
      have hne : ends (attributeRe attr) ⟨some u, w :: rest, []⟩ ≠ [] := hends ▸ ends_attributeBody.2 said hattr
      -- the space is the first unit of the match, so the attribute is one place further on
      have hplace : (some w).all isSpaceUnit = true := hspace
      rw [finds_here hne, hends, captures_here hattr, firstAttribute_here hplace hattr]
    · have hnot : (some w).all isSpaceUnit = true → ∀ said, ¬ SaysAttribute (attr.toList.map unit) said rest :=
        fun hspace said hsaid => hattr ⟨hspace, said, hsaid⟩
      have hnil : ends (attributeRe attr) ⟨some u, w :: rest, []⟩ = [] := by
        rw [hends]
        split
        · exact ends_attributeBody_eq_nil (hnot ‹_›)
        · rfl
      rw [finds_later hnil, ih]
      cases rest with
      | nil => simp [not_firstAttribute_nil]
      | cons w' rest' => simp [firstAttribute_cons hnot]

theorem finds_none {text : Text} : Finds attr value none text ↔ FirstAttribute (attr.toList.map unit) value none text := by
  by_cases hattr : ∃ said, SaysAttribute (attr.toList.map unit) said text
  · obtain ⟨said, hattr⟩ := hattr
    have hbody : ends (attributeBody attr) ⟨none, text, []⟩ ≠ [] := ends_attributeBody.2 said hattr
    have hends := ends_attributeRe attr none text
    have hne : ends (attributeRe attr) ⟨none, text, []⟩ ≠ [] := hends ▸ List.append_ne_nil_of_left_ne_nil hbody _
    rw [finds_here hne, hends, firstAttribute_here rfl hattr]
    exact (captures_append_of_ne hbody).trans (captures_here hattr)
  · have hnot : ∀ said, ¬ SaysAttribute (attr.toList.map unit) said text := fun said hsaid => hattr ⟨said, hsaid⟩
    -- not at the very start, so the start of the tag is like any other place
    have hsame : ∀ u, ends (attributeRe attr) ⟨none, text, []⟩ = ends (attributeRe attr) ⟨some u, text, []⟩ := by
      intro u
      rw [ends_attributeRe, ends_attributeRe, ends_attributeBody_eq_nil hnot]
      rfl
    cases text with
    | nil => exact iff_of_false (not_finds_nil (hsame 0)) not_firstAttribute_nil
    | cons w rest =>
      have hfind : Finds attr value none (w :: rest) ↔ Finds attr value (some w) (w :: rest) := by
        rw [Finds, Finds, find, find, hsame w]
      rw [hfind, finds_some, firstAttribute_cons fun _ => hnot]
      simp

end

/-! ## Forms and inputs -/

section
variable {tag : Text}

theorem attrOf_eq_some {attr : String} {value : Text} : attrOf tag attr = some value ↔ FirstAttribute (attr.toList.map unit) value none tag := by
  rw [← finds_none, Finds, attrOf, Regex.exec, Option.bind_eq_some_iff]
  rfl

theorem hasAttribute_iff {attr : String} {value : Text} :
    (attrOf tag attr).map toLowerCase = some value ↔ HasAttribute (attr.toList.map unit) value tag := by
  rw [Option.map_eq_some_iff, HasAttribute]
  simp only [attrOf_eq_some]

theorem hasLoginAction_iff : hasLoginAction tag = true ↔ HasAttribute (units "action") daotaoLoginPath tag := by
  rw [hasLoginAction, decide_eq_true_eq, hasAttribute_iff]
  rfl

theorem isNamed_iff {name : String} : isNamed name tag = true ↔ IsInputNamed (units name) tag := by
  rw [isNamed, Bool.and_eq_true, isInput_iff, decide_eq_true_eq, hasAttribute_iff]
  rfl

end

end Hyeboard.LoginForm
