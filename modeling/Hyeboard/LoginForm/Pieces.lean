import Hyeboard.LoginForm.Scanner
/-!
# What the scanner passes over

A turn of the loop is one piece of the page: a comment, a script element or a tag.
What the piece is decides the turn, whatever follows it.
-/

namespace Hyeboard.LoginForm

/-- A terminated comment. -/
def commentOf (inside : Text) : Text := units "<!--" ++ inside ++ units "-->"

/-- `<script`, up to the `>`. -/
def IsScriptOpening (opening : Text) : Prop :=
  ∃ name attributes, opening = name ++ attributes ++ units ">" ∧ name.map lowerUnit = units "<script" ∧
    unit '>' ∉ attributes ∧ ∀ u, attributes.head? = some u → u = unit '/' ∨ isHtmlWhitespace u = true

/-- `</script`, white space and `>`. -/
def IsScriptClosing (closing : Text) : Prop :=
  ∃ name spaces, closing = name ++ spaces ++ units ">" ∧ name.map lowerUnit = units "</script" ∧
    ∀ u ∈ spaces, isHtmlWhitespace u = true

/-- No script ends inside. -/
def HasNoScriptClosing (inside : Text) : Prop := ∀ closing, IsScriptClosing closing → ¬ closing <:+: inside

inductive IsHidden : Text → Prop
  | comment (inside : Text) (hinside : ¬ units "-->" <:+: inside) : IsHidden (commentOf inside)
  | script (opening inside closing : Text) (hopening : IsScriptOpening opening) (hinside : HasNoScriptClosing inside)
      (hclosing : IsScriptClosing closing) : IsHidden (opening ++ inside ++ closing)

/-- Any other text from a `<` to the next `>`. -/
structure IsTag (tag : Text) : Prop where
  spelled : ∃ name, tag = unit '<' :: name ++ units ">" ∧ unit '>' ∉ name
  notComment : ¬ units "<!--" <+: tag
  notScript : isScriptOpeningAt tag = false

section
variable {html rest : Text}

/-! ## Tokens in front of a `>` -/

theorem lowerUnit_eq_iff {u v : UInt16} (h : v < unit 'A') : lowerUnit u = v ↔ u = v := by
  unfold lowerUnit
  split
  case isFalse => exact Iff.rfl
  case isTrue hletter =>
    simp only [Bool.and_eq_true, decide_eq_true_eq, UInt16.le_iff_toNat_le] at hletter
    rw [UInt16.lt_iff_toNat_lt] at h
    have hA : (unit 'A').toNat = 65 := rfl
    have hZ : (unit 'Z').toNat = 90 := rfl
    have hsum : (u + 32).toNat = u.toNat + 32 := by
      rw [UInt16.toNat_add]
      exact Nat.mod_eq_of_lt (by change u.toNat + 32 < 65536; omega)
    constructor
    · rintro rfl
      omega
    · rintro rfl
      omega

theorem length_eq_of_lower {name token : Text} (h : name.map lowerUnit = token) : name.length = token.length := by
  rw [← h, List.length_map]

theorem startsWith_iff {token : Text} :
    startsWithAsciiCaseInsensitive html token = true ↔ ∃ name tail, html = name ++ tail ∧ name.map lowerUnit = token := by
  unfold startsWithAsciiCaseInsensitive
  rw [List.isPrefixOf_iff_prefix]
  constructor
  · rintro ⟨tail, h⟩
    obtain ⟨name, rest, rfl, hname, -⟩ := List.map_eq_append_iff.1 h.symm
    exact ⟨name, rest, rfl, hname⟩
  · rintro ⟨name, tail, rfl, rfl⟩
    rw [List.map_append]
    exact List.prefix_append _ _

/-- A token without a `>` is found in front of one or not at all. -/
theorem startsWith_append {token front : Text} (htoken : unit '>' ∉ token) :
    startsWithAsciiCaseInsensitive (front ++ unit '>' :: rest) token = startsWithAsciiCaseInsensitive front token := by
  unfold startsWithAsciiCaseInsensitive
  have hgt : lowerUnit (unit '>') = unit '>' := by decide
  rw [List.map_append, List.map_cons, hgt, Bool.eq_iff_iff, List.isPrefixOf_iff_prefix, List.isPrefixOf_iff_prefix,
    prefix_append_sep htoken]

theorem isScriptOpeningAt_append {front : Text} :
    isScriptOpeningAt (front ++ unit '>' :: rest) = isScriptOpeningAt (front ++ units ">") := by
  have hstarts : ∀ tail, startsWithAsciiCaseInsensitive (front ++ unit '>' :: tail) (units "<script") =
      startsWithAsciiCaseInsensitive front (units "<script") := fun tail => startsWith_append (by decide)
  change _ = isScriptOpeningAt (front ++ unit '>' :: [])
  unfold isScriptOpeningAt
  rw [hstarts, hstarts]
  cases hfront : startsWithAsciiCaseInsensitive front (units "<script") with
  | false => rfl
  | true =>
    -- the character at 7 is in front of the `>`, or the `>` itself
    obtain ⟨name, tail, rfl, hname⟩ := startsWith_iff.1 hfront
    have hlength : name.length = 7 := length_eq_of_lower hname
    have hat : ∀ left, (name ++ tail ++ unit '>' :: left)[7]? = (tail ++ [unit '>'])[0]? := by
      intro left
      rw [List.append_assoc, List.getElem?_append_right (Nat.le_of_eq hlength), hlength, Nat.sub_self]
      cases tail with
      | nil => rfl
      | cons u tail => rfl
    rw [hat, hat]

/-! ## The end of a script -/

theorem lt_notMem_tail {closing : Text} (h : IsScriptClosing closing) : ∃ tail, closing = unit '<' :: tail ∧ unit '<' ∉ tail := by
  obtain ⟨name, spaces, rfl, hname, hspaces⟩ := h
  cases name with
  | nil => cases hname
  | cons u name =>
    have hsplit : units "</script" = unit '<' :: units "/script" := rfl
    rw [List.map_cons, hsplit, List.cons.injEq] at hname
    have hfirst : u = unit '<' := (lowerUnit_eq_iff (by decide)).1 hname.1
    subst hfirst
    refine ⟨name ++ spaces ++ units ">", rfl, ?_⟩
    rw [List.mem_append, List.mem_append, not_or, not_or]
    refine ⟨⟨fun hmem => ?_, fun hmem => ?_⟩, by decide⟩
    · have hlower : unit '<' ∈ name.map lowerUnit := List.mem_map.2 ⟨_, hmem, by decide⟩
      rw [hname.2] at hlower
      revert hlower
      decide
    · have hspace := hspaces _ hmem
      revert hspace
      decide

theorem scriptClosingTagEndAt_eq_some :
    scriptClosingTagEndAt html = some rest ↔ ∃ closing, IsScriptClosing closing ∧ html = closing ++ rest := by
  unfold scriptClosingTagEndAt
  constructor
  · intro h
    split at h
    case isFalse => cases h
    case isTrue hstarts =>
      obtain ⟨name, tail, rfl, hname⟩ := startsWith_iff.1 hstarts
      have hlength : name.length = 8 := length_eq_of_lower hname
      rw [← hlength, List.drop_left] at h
      split at h
      · cases h
      · rename_i character left hdrop
        split at h
        case isFalse => cases h
        case isTrue hgt =>
          cases h
          have htail : tail = tail.takeWhile isHtmlWhitespace ++ (unit '>' :: rest) := by
            conv_lhs => rw [← List.takeWhile_append_dropWhile (p := isHtmlWhitespace) (l := tail)]
            rw [hdrop, hgt]
          refine ⟨name ++ tail.takeWhile isHtmlWhitespace ++ units ">", ⟨name, _, rfl, hname, fun u hu => List.mem_takeWhile_imp hu⟩, ?_⟩
          conv_lhs => rw [htail]
          rw [List.append_assoc, List.append_assoc]
          rfl
  · rintro ⟨closing, ⟨name, spaces, rfl, hname, hspaces⟩, rfl⟩
    have hlength : name.length = 8 := length_eq_of_lower hname
    have hstarts : startsWithAsciiCaseInsensitive (name ++ spaces ++ units ">" ++ rest) (units "</script") = true :=
      startsWith_iff.2 ⟨name, spaces ++ units ">" ++ rest, by simp only [List.append_assoc], hname⟩
    have hdrop : (name ++ spaces ++ units ">" ++ rest).drop 8 = spaces ++ (unit '>' :: rest) := by
      rw [← hlength, List.append_assoc, List.append_assoc, List.drop_left]
      rfl
    have hgt : (unit '>' :: rest).dropWhile isHtmlWhitespace = unit '>' :: rest := List.dropWhile_cons_of_neg (by decide)
    rw [if_pos hstarts, hdrop, List.dropWhile_append_of_pos hspaces, hgt]
    exact if_pos rfl

theorem afterScript_eq_some :
    afterScript html = some rest ↔
      ∃ inside closing, html = inside ++ closing ++ rest ∧ IsScriptClosing closing ∧ HasNoScriptClosing inside := by
  induction html with
  | nil =>
    constructor
    · intro h
      cases h
    · rintro ⟨inside, closing, h, hclosing, -⟩
      obtain ⟨tail, rfl, -⟩ := lt_notMem_tail hclosing
      simp at h
  | cons u html ih =>
    rw [afterScript]
    cases hends : scriptClosingTagEndAt (u :: html) with
    | some left =>
      obtain ⟨closing, hclosing, heq⟩ := scriptClosingTagEndAt_eq_some.1 hends
      constructor
      · intro h
        cases h
        refine ⟨[], closing, heq, hclosing, fun other hother hinside => ?_⟩
        obtain ⟨tail, rfl, -⟩ := lt_notMem_tail hother
        exact List.cons_ne_nil _ _ (List.infix_nil.1 hinside)
      · rintro ⟨inside, other, hsplit, hother, hnone⟩
        obtain ⟨tail, rfl, htail⟩ := lt_notMem_tail hclosing
        cases inside with
        | nil =>
          have hsome := scriptClosingTagEndAt_eq_some.2 ⟨other, hother, hsplit⟩
          rw [hends] at hsome
          exact hsome
        | cons v inside =>
          exfalso
          -- a closing tag holds no second `<`: this one does not reach over the next
          obtain ⟨tail', rfl, -⟩ := lt_notMem_tail hother
          have hboth : unit '<' :: tail ++ left = (v :: inside) ++ unit '<' :: (tail' ++ rest) := by
            rw [← heq, hsplit, List.append_assoc]
            rfl
          rw [List.cons_append, List.cons_append, List.cons.injEq] at hboth
          obtain ⟨rfl, hboth⟩ := hboth
          have hprefix : tail <+: inside := (prefix_append_sep htail).1 ⟨left, hboth⟩
          exact hnone _ hclosing (List.prefix_cons_inj (unit '<') |>.2 hprefix).isInfix
    | none =>
      simp only
      rw [ih]
      have hnot : ∀ inside, html = inside ++ html.drop inside.length → ∀ closing, IsScriptClosing closing → ¬ closing <+: u :: inside := by
        intro inside hinside closing hclosing hprefix
        obtain ⟨tail, htail⟩ := hprefix
        have hsome : scriptClosingTagEndAt (u :: html) = some (tail ++ html.drop inside.length) := by
          apply scriptClosingTagEndAt_eq_some.2
          refine ⟨closing, hclosing, ?_⟩
          rw [← List.append_assoc, htail, List.cons_append, ← hinside]
        rw [hends] at hsome
        cases hsome
      constructor
      · rintro ⟨inside, closing, rfl, hclosing, hnone⟩
        refine ⟨u :: inside, closing, rfl, hclosing, fun other hother hinside => ?_⟩
        rcases List.infix_cons_iff.1 hinside with hprefix | hlater
        · exact hnot inside (by rw [List.append_assoc, List.drop_left]) other hother hprefix
        · exact hnone other hother hlater
      · rintro ⟨inside, closing, hsplit, hclosing, hnone⟩
        cases inside with
        | nil =>
          exfalso
          have hsome := scriptClosingTagEndAt_eq_some.2 ⟨closing, hclosing, hsplit⟩
          rw [hends] at hsome
          cases hsome
        | cons v inside =>
          rw [List.cons_append, List.cons_append, List.cons.injEq] at hsplit
          obtain ⟨rfl, rfl⟩ := hsplit
          exact ⟨inside, closing, rfl, hclosing, fun other hother hinside => hnone other hother (hinside.trans (List.suffix_cons _ _).isInfix)⟩

/-! ## A turn -/

/-- The dashes at the end of a comment are no earlier end of it. -/
theorem infix_comment_end {inside : Text} : units "-->" <:+: inside ++ units "--" ↔ units "-->" <:+: inside := by
  have hdash : ∀ front : Text, units "-->" <:+: front ++ [unit '-'] → units "-->" <:+: front := by
    intro front h
    rcases List.infix_concat_iff.1 h with ⟨before, hbefore⟩ | hinside
    · have hends : units "-->" = units "--" ++ [unit '>'] := rfl
      rw [hends, ← List.append_assoc] at hbefore
      exact absurd (List.append_inj' hbefore rfl).2 (by decide)
    · exact hinside
  constructor
  · intro h
    have hdashes : inside ++ units "--" = inside ++ [unit '-'] ++ [unit '-'] := by
      rw [List.append_assoc]
      rfl
    rw [hdashes] at h
    exact hdash _ (hdash _ h)
  · exact fun h => h.trans (List.prefix_append _ _).isInfix

theorem cut_comment {text inside : Text} :
    cut (units "-->") text = some (inside, rest) ↔ text = inside ++ units "-->" ++ rest ∧ ¬ units "-->" <:+: inside := by
  have hdashes : (units "-->").dropLast = units "--" := rfl
  rw [cut_eq_some (by decide), hdashes, infix_comment_end]

theorem cut_gt {text front : Text} : cut (units ">") text = some (front, rest) ↔ text = front ++ unit '>' :: rest ∧ unit '>' ∉ front :=
  cut_singleton

theorem cut_lt {text front : Text} : cut (units "<") text = some (front, rest) ↔ text = front ++ unit '<' :: rest ∧ unit '<' ∉ front :=
  cut_singleton

theorem isScriptOpeningAt_iff : isScriptOpeningAt html = true ↔
    ∃ name behind, html = name ++ behind ∧ name.map lowerUnit = units "<script" ∧
      ∀ u, behind.head? = some u → u = unit '>' ∨ u = unit '/' ∨ isHtmlWhitespace u = true := by
  unfold isScriptOpeningAt
  rw [Bool.and_eq_true, startsWith_iff]
  have hat : ∀ name behind : Text, name.map lowerUnit = units "<script" → (name ++ behind)[7]? = behind.head? := by
    intro name behind hname
    have hlength : name.length = 7 := length_eq_of_lower hname
    rw [List.getElem?_append_right (Nat.le_of_eq hlength), hlength, Nat.sub_self, List.head?_eq_getElem?]
  constructor
  · rintro ⟨⟨name, behind, rfl, hname⟩, hboundary⟩
    rw [hat name behind hname] at hboundary
    refine ⟨name, behind, rfl, hname, fun u hu => ?_⟩
    rw [hu] at hboundary
    simpa [or_assoc] using hboundary
  · rintro ⟨name, behind, rfl, hname, hboundary⟩
    refine ⟨⟨name, behind, rfl, hname⟩, ?_⟩
    rw [hat name behind hname]
    cases hhead : behind.head? with
    | none => rfl
    | some u => simpa [or_assoc] using hboundary u hhead

/-- A text with the name of a script is not a comment. -/
theorem not_comment_of_script {name tail : Text} (hname : name.map lowerUnit = units "<script") : ¬ units "<!--" <+: name ++ tail := by
  intro hcomment
  have hlower : (units "<!--").map lowerUnit <+: name.map lowerUnit ++ tail.map lowerUnit := by
    rw [← List.map_append]
    exact hcomment.map lowerUnit
  rw [hname] at hlower
  have hshort : (units "<!--").map lowerUnit <+: units "<script" :=
    List.prefix_of_prefix_length_le hlower (List.prefix_append _ _) (by decide)
  revert hshort
  decide

theorem script_lt {name : Text} (hname : name.map lowerUnit = units "<script") : ∃ tail, name = unit '<' :: tail := by
  cases name with
  | nil => cases hname
  | cons u tail =>
    have hsplit : units "<script" = unit '<' :: units "script" := rfl
    rw [List.map_cons, hsplit, List.cons.injEq] at hname
    exact ⟨tail, by rw [(lowerUnit_eq_iff (by decide)).1 hname.1]⟩

theorem scan_comment {gap inside : Text} (hgap : unit '<' ∉ gap) (hinside : ¬ units "-->" <:+: inside) :
    scan (gap ++ commentOf inside ++ rest) = .skipped rest := by
  have hopen : cut (units "<") (gap ++ commentOf inside ++ rest) = some (gap, units "!--" ++ (inside ++ units "-->" ++ rest)) := by
    refine cut_lt.2 ⟨?_, hgap⟩
    simp only [commentOf, List.append_assoc]
    rfl
  have hcomment : (units "<!--").isPrefixOf (unit '<' :: (units "!--" ++ (inside ++ units "-->" ++ rest))) = true :=
    List.isPrefixOf_iff_prefix.2 ⟨inside ++ units "-->" ++ rest, rfl⟩
  have hdrop : (unit '<' :: (units "!--" ++ (inside ++ units "-->" ++ rest))).drop 4 = inside ++ units "-->" ++ rest := rfl
  unfold scan
  simp only [hopen, hcomment, if_true, hdrop, cut_comment.2 ⟨rfl, hinside⟩]

theorem scan_script {gap opening inside closing : Text} (hgap : unit '<' ∉ gap) (hopening : IsScriptOpening opening)
    (hinside : HasNoScriptClosing inside) (hclosing : IsScriptClosing closing) :
    scan (gap ++ (opening ++ inside ++ closing) ++ rest) = .skipped rest := by
  obtain ⟨name, attributes, rfl, hname, hgt, hboundary⟩ := hopening
  have hlength : name.length = 7 := length_eq_of_lower hname
  obtain ⟨tail, rfl⟩ := script_lt hname
  have hopen : cut (units "<") (gap ++ (unit '<' :: tail ++ attributes ++ units ">" ++ inside ++ closing) ++ rest) =
      some (gap, tail ++ (attributes ++ unit '>' :: (inside ++ closing ++ rest))) := by
    refine cut_lt.2 ⟨?_, hgap⟩
    simp only [List.append_assoc, List.cons_append]
    rfl
  have hcomment : ¬ (units "<!--").isPrefixOf (unit '<' :: (tail ++ (attributes ++ unit '>' :: (inside ++ closing ++ rest)))) = true := by
    rw [List.isPrefixOf_iff_prefix]
    exact not_comment_of_script hname
  have hscript : isScriptOpeningAt (unit '<' :: (tail ++ (attributes ++ unit '>' :: (inside ++ closing ++ rest)))) = true := by
    refine isScriptOpeningAt_iff.2 ⟨unit '<' :: tail, _, rfl, hname, fun u hu => ?_⟩
    cases attributes with
    | nil =>
      cases hu
      exact .inl rfl
    | cons v attributes => exact .inr (hboundary u hu)
  have hdrop : (unit '<' :: (tail ++ (attributes ++ unit '>' :: (inside ++ closing ++ rest)))).drop 7 =
      attributes ++ unit '>' :: (inside ++ closing ++ rest) := by
    rw [← List.cons_append, ← hlength, List.drop_left]
  unfold scan
  simp only [hopen, hcomment, Bool.false_eq_true, if_false, hscript, if_true, hdrop, cut_gt.2 ⟨rfl, hgt⟩,
    afterScript_eq_some.2 ⟨inside, closing, rfl, hclosing, hinside⟩]

theorem scan_hidden {gap hidden : Text} (hgap : unit '<' ∉ gap) (h : IsHidden hidden) : scan (gap ++ hidden ++ rest) = .skipped rest := by
  cases h with
  | comment inside hinside => exact scan_comment hgap hinside
  | script opening inside closing hopening hinside hclosing => exact scan_script hgap hopening hinside hclosing

theorem scan_tag {gap tag : Text} (hgap : unit '<' ∉ gap) (h : IsTag tag) : scan (gap ++ tag ++ rest) = .tag tag rest := by
  obtain ⟨⟨name, rfl, hname⟩, hcomment, hscript⟩ := h
  have hopen : cut (units "<") (gap ++ (unit '<' :: name ++ units ">") ++ rest) = some (gap, name ++ unit '>' :: rest) := by
    refine cut_lt.2 ⟨?_, hgap⟩
    simp only [List.append_assoc, List.cons_append]
    rfl
  have hnot : ¬ (units "<!--").isPrefixOf (unit '<' :: (name ++ unit '>' :: rest)) = true := by
    rw [List.isPrefixOf_iff_prefix]
    intro hlong
    have hshort : units "<!--" <+: unit '<' :: name := (prefix_append_sep (by decide)).1 hlong
    exact hcomment (hshort.trans (List.prefix_append _ _))
  have hnotScript : isScriptOpeningAt (unit '<' :: (name ++ unit '>' :: rest)) = false := by
    rw [← List.cons_append, isScriptOpeningAt_append]
    exact hscript
  unfold scan
  simp only [hopen, hnot, if_false, hnotScript, Bool.false_eq_true, cut_gt.2 ⟨rfl, hname⟩]

/-- Each turn has passed over a piece of the page. -/
theorem scan_cases (html : Text) :
    scan html = .finished ∨
    (∃ gap hidden rest, scan html = .skipped rest ∧ html = gap ++ hidden ++ rest ∧ unit '<' ∉ gap ∧ IsHidden hidden) ∨
    (∃ gap tag rest, scan html = .tag tag rest ∧ html = gap ++ tag ++ rest ∧ unit '<' ∉ gap ∧ IsTag tag) := by
  cases hopen : cut (units "<") html with
  | none => exact .inl (by simp only [scan, hopen])
  | some parts =>
    obtain ⟨gap, behind⟩ := parts
    obtain ⟨rfl, hgap⟩ := cut_lt.1 hopen
    by_cases hcomment : (units "<!--").isPrefixOf (unit '<' :: behind) = true
    · obtain ⟨content, hcontent⟩ := List.isPrefixOf_iff_prefix.1 hcomment
      have hdrop : (unit '<' :: behind).drop 4 = content := by
        rw [← hcontent]
        rfl
      cases hcut : cut (units "-->") content with
      | none => exact .inl (by simp only [scan, hopen, hcomment, if_true, hdrop, hcut])
      | some parts =>
        obtain ⟨inside, rest⟩ := parts
        obtain ⟨rfl, hinside⟩ := cut_comment.1 hcut
        have hsplit : gap ++ unit '<' :: behind = gap ++ commentOf inside ++ rest := by
          rw [← hcontent]
          simp only [commentOf, List.append_assoc]
        rw [hsplit]
        exact .inr (.inl ⟨gap, commentOf inside, rest, scan_comment hgap hinside, rfl, hgap, .comment inside hinside⟩)
    · cases hscript : isScriptOpeningAt (unit '<' :: behind) with
      | true =>
        obtain ⟨name, tail, hname_eq, hname, hboundary⟩ := isScriptOpeningAt_iff.1 hscript
        have hdrop : (unit '<' :: behind).drop 7 = tail := by
          have hlength : name.length = 7 := length_eq_of_lower hname
          rw [hname_eq, ← hlength, List.drop_left]
        cases hcut : cut (units ">") tail with
        | none => exact .inl (by simp only [scan, hopen, hcomment, Bool.false_eq_true, if_false, hscript, if_true, hdrop, hcut])
        | some parts =>
          obtain ⟨attributes, content⟩ := parts
          obtain ⟨rfl, hgt⟩ := cut_gt.1 hcut
          cases hafter : afterScript content with
          | none =>
            exact .inl (by simp only [scan, hopen, hcomment, Bool.false_eq_true, if_false, hscript, if_true, hdrop, hcut, hafter])
          | some rest =>
            obtain ⟨inside, closing, rfl, hclosing, hinside⟩ := afterScript_eq_some.1 hafter
            have hopening : IsScriptOpening (name ++ attributes ++ units ">") := by
              refine ⟨name, attributes, rfl, hname, hgt, fun u hu => ?_⟩
              cases attributes with
              | nil => cases hu
              | cons v attributes =>
                have hne : u ≠ unit '>' := fun h => hgt (h ▸ List.mem_of_mem_head? hu)
                exact (hboundary u hu).resolve_left hne
            have hsplit : gap ++ unit '<' :: behind =
                gap ++ (name ++ attributes ++ units ">" ++ inside ++ closing) ++ rest := by
              rw [hname_eq]
              simp only [List.append_assoc]
              rfl
            rw [hsplit]
            exact .inr (.inl ⟨gap, _, rest, scan_script hgap hopening hinside hclosing, rfl, hgap,
              .script _ inside closing hopening hinside hclosing⟩)
      | false =>
        cases hcut : cut (units ">") behind with
        | none => exact .inl (by simp only [scan, hopen, hcomment, Bool.false_eq_true, if_false, hscript, hcut])
        | some parts =>
          obtain ⟨name, rest⟩ := parts
          obtain ⟨rfl, hname⟩ := cut_gt.1 hcut
          have hsplit : gap ++ unit '<' :: (name ++ unit '>' :: rest) = gap ++ (unit '<' :: name ++ units ">") ++ rest := by
            simp only [List.append_assoc, List.cons_append]
            rfl
          have htag : IsTag (unit '<' :: name ++ units ">") := by
            refine { spelled := ⟨name, rfl, hname⟩, notComment := fun hprefix => ?_, notScript := ?_ }
            · apply hcomment
              rw [List.isPrefixOf_iff_prefix]
              exact hprefix.trans ⟨rest, by simp only [List.append_assoc, List.cons_append]; rfl⟩
            · rw [← isScriptOpeningAt_append]
              exact hscript
          rw [hsplit]
          exact .inr (.inr ⟨gap, _, rest, scan_tag hgap htag, rfl, hgap, htag⟩)

end

end Hyeboard.LoginForm
