import Hyeboard.GradesHtml.Sanitizer
/-!
# The grammar of an invocation

Strings, matching parentheses and the third argument, as a grammar over the text
alone. The two scanners of the sanitizer find what the grammar says, and nothing
else.
-/

namespace Hyeboard.GradesHtml

/-- The content of a string in quotes. A backslash takes the unit behind it along. -/
inductive Quoted (quote : UInt16) : Text → Prop
  | nil : Quoted quote []
  | plain {character : UInt16} {rest : Text} (hquote : character ≠ quote) (hbackslash : character ≠ unit '\\') (hrest : Quoted quote rest) :
      Quoted quote (character :: rest)
  | escaped {character : UInt16} {rest : Text} (hrest : Quoted quote rest) : Quoted quote (unit '\\' :: character :: rest)

/-- What stands between two matching parentheses. Parentheses inside strings do not count. -/
inductive Balanced : Text → Prop
  | nil : Balanced []
  | plain {character : UInt16} {rest : Text} (hquote : isQuote character = false) (hopening : character ≠ unit '(')
      (hclosing : character ≠ unit ')') (hrest : Balanced rest) : Balanced (character :: rest)
  | quoted {quote : UInt16} {content rest : Text} (hquote : isQuote quote = true) (hcontent : Quoted quote content) (hrest : Balanced rest) :
      Balanced (quote :: (content ++ quote :: rest))
  | nested {inside rest : Text} (hinside : Balanced inside) (hrest : Balanced rest) :
      Balanced (unit '(' :: (inside ++ unit ')' :: rest))

/-- The parenthesis that matches one before it. -/
structure Closes (html : Text) (openingParenthesis closingParenthesis : Nat) : Prop where
  behind : openingParenthesis < closingParenthesis
  parenthesis : html[closingParenthesis]? = some (unit ')')
  inside : Balanced (slice html (openingParenthesis + 1) closingParenthesis)

def Spaces (t : Text) : Prop := ∀ u ∈ t, isSpaceUnit u = true

/-- A string argument with `n` others in front of it, each with its comma: what stands before its content, the content, and its quote. What
follows it is free. -/
inductive Argument : (n : Nat) → (before content : Text) → (quote : UInt16) → Prop
  | here {lead content : Text} {quote : UInt16} (hlead : Spaces lead) (hquote : isQuote quote = true) (hcontent : Quoted quote content) :
      Argument 0 (lead ++ [quote]) content quote
  | next {n : Nat} {lead skipped trail before content : Text} {other quote : UInt16} (hlead : Spaces lead) (hother : isQuote other = true)
      (hskipped : Quoted other skipped) (htrail : Spaces trail) (hargument : Argument n before content quote) :
      Argument (n + 1) (lead ++ other :: (skipped ++ other :: (trail ++ unit ',' :: before))) content quote

/-- The content of the third argument of an invocation. -/
structure ThirdArgument (html : Text) (openingParenthesis closingParenthesis first last : Nat) : Prop where
  behind : openingParenthesis < first
  ordered : first ≤ last
  inside : last < closingParenthesis
  argument : ∃ quote, html[last]? = some quote ∧ Argument 2 (slice html (openingParenthesis + 1) first) (slice html first last) quote

section
variable {html : Text} {quote : UInt16}

theorem quote_ne_backslash (hquote : isQuote quote = true) : quote ≠ unit '\\' := by
  rintro rfl
  exact Bool.false_ne_true hquote

theorem isSpaceUnit_quote (hquote : isQuote quote = true) : isSpaceUnit quote = false := by
  rw [isQuote, Bool.or_eq_true, decide_eq_true_eq, decide_eq_true_eq] at hquote
  rcases hquote with rfl | rfl
  · rfl
  · rfl

/-- The parentheses are no quotes, and differ. -/
theorem isQuote_opening : isQuote (unit '(') = false := rfl

theorem isQuote_closing : isQuote (unit ')') = false := rfl

theorem closing_ne_opening : unit ')' ≠ unit '(' := by decide

/-! ## The closing parenthesis -/

theorem closingFrom_nil (opened : Option UInt16) (depth index : Nat) : closingFrom opened depth index [] = none := rfl

theorem closingFrom_unquoted (depth index : Nat) (character : UInt16) (rest : Text) :
    closingFrom none depth index (character :: rest) =
      if isQuote character then closingFrom (some character) depth (index + 1) rest
      else if character = unit '(' then closingFrom none (depth + 1) (index + 1) rest
      else if character = unit ')' then
        if depth = 1 then some index else closingFrom none (depth - 1) (index + 1) rest
      else closingFrom none depth (index + 1) rest := rfl

theorem closingFrom_backslash (depth index : Nat) (character : UInt16) (rest : Text) :
    closingFrom (some quote) depth index (unit '\\' :: character :: rest) = closingFrom (some quote) depth (index + 2) rest := if_pos rfl

theorem closingFrom_backslash_last (depth index : Nat) : closingFrom (some quote) depth index [unit '\\'] = none := if_pos rfl

theorem closingFrom_string {character : UInt16} (hbackslash : character ≠ unit '\\') (depth index : Nat) (rest : Text) :
    closingFrom (some quote) depth index (character :: rest) =
      closingFrom (if character = quote then none else some quote) depth (index + 1) rest := by
  cases rest with
  | nil => exact if_neg hbackslash
  | cons next rest => exact if_neg hbackslash

theorem closingFrom_quoted (hquote : isQuote quote = true) {content : Text} (hcontent : Quoted quote content) (depth index : Nat)
    (rest : Text) :
    closingFrom (some quote) depth index (content ++ quote :: rest) = closingFrom none depth (index + content.length + 1) rest := by
  induction hcontent generalizing index with
  | nil =>
    rw [List.nil_append, closingFrom_string (quote_ne_backslash hquote), if_pos rfl]
    rfl
  | plain hother hbackslash _ ih =>
    rw [List.cons_append, closingFrom_string hbackslash, if_neg hother, ih, List.length_cons]
    congr 1
    omega
  | escaped _ ih =>
    rw [List.cons_append, List.cons_append, closingFrom_backslash, ih, List.length_cons, List.length_cons]
    congr 1
    omega

theorem closingFrom_balanced {inside : Text} (hinside : Balanced inside) (depth index : Nat) (hdepth : 0 < depth) (rest : Text) :
    closingFrom none depth index (inside ++ rest) = closingFrom none depth (index + inside.length) rest := by
  induction hinside generalizing depth index rest with
  | nil => rfl
  | plain hquote hopening hclosing _ ih =>
    rw [List.cons_append, closingFrom_unquoted]
    simp only [hquote, hopening, hclosing, Bool.false_eq_true, if_false]
    rw [ih _ _ hdepth, List.length_cons]
    congr 1
    omega
  | quoted hquote hcontent _ ih =>
    rw [List.cons_append, closingFrom_unquoted]
    simp only [hquote, if_true]
    rw [List.append_assoc, List.cons_append, closingFrom_quoted hquote hcontent, ih _ _ hdepth]
    simp only [List.length_cons, List.length_append]
    congr 1
    omega
  | nested _ _ ihinside ih =>
    rw [List.cons_append, closingFrom_unquoted]
    simp only [isQuote_opening, Bool.false_eq_true, if_false, if_true]
    -- one deeper, up to the parenthesis that matches
    rw [List.append_assoc, List.cons_append, ihinside _ _ (Nat.succ_pos _), closingFrom_unquoted]
    simp only [isQuote_closing, closing_ne_opening, Bool.false_eq_true, if_false, if_true]
    rw [if_neg (by omega), Nat.succ_sub_one, ih _ _ hdepth]
    simp only [List.length_cons, List.length_append]
    congr 1
    omega

theorem closingFrom_quoted_sound {depth index closing : Nat} {source : Text} (h : closingFrom (some quote) depth index source = some closing) :
    ∃ content rest, source = content ++ quote :: rest ∧ Quoted quote content ∧
      closingFrom none depth (index + content.length + 1) rest = some closing := by
  induction hlength : source.length using Nat.strong_induction_on generalizing index source with
  | _ n ih =>
    cases source with
    | nil =>
      rw [closingFrom_nil] at h
      cases h
    | cons character source =>
      by_cases hbackslash : character = unit '\\'
      · subst hbackslash
        cases source with
        | nil =>
          rw [closingFrom_backslash_last] at h
          cases h
        | cons skipped source =>
          rw [closingFrom_backslash] at h
          simp only [List.length_cons] at hlength
          obtain ⟨content, rest, rfl, hcontent, hclosing⟩ := ih source.length (by omega) h rfl
          refine ⟨unit '\\' :: skipped :: content, rest, rfl, .escaped hcontent, ?_⟩
          rw [← hclosing]
          simp only [List.length_cons]
          congr 1
          omega
      · rw [closingFrom_string hbackslash] at h
        by_cases hquote : character = quote
        · subst hquote
          rw [if_pos rfl] at h
          exact ⟨[], source, rfl, .nil, h⟩
        · rw [if_neg hquote] at h
          simp only [List.length_cons] at hlength
          obtain ⟨content, rest, rfl, hcontent, hclosing⟩ := ih source.length (by omega) h rfl
          refine ⟨character :: content, rest, rfl, .plain hquote hbackslash hcontent, ?_⟩
          rw [← hclosing]
          simp only [List.length_cons]
          congr 1
          omega

/-- The scanner comes to a closing parenthesis at its own depth. -/
theorem closingFrom_sound {depth index closing : Nat} {source : Text} (hdepth : 0 < depth)
    (h : closingFrom none depth index source = some closing) :
    ∃ inside rest, source = inside ++ unit ')' :: rest ∧ Balanced inside ∧
      closingFrom none depth (index + inside.length) (unit ')' :: rest) = some closing := by
  induction hlength : source.length using Nat.strong_induction_on generalizing depth index source with
  | _ n ih =>
    cases source with
    | nil =>
      rw [closingFrom_nil] at h
      cases h
    | cons character source =>
      by_cases hclosing : character = unit ')'
      · subst hclosing
        exact ⟨[], source, rfl, .nil, h⟩
      rw [closingFrom_unquoted] at h
      simp only [List.length_cons] at hlength
      cases hquote : isQuote character with
      | true =>
        simp only [hquote, if_true] at h
        obtain ⟨content, rest, rfl, hcontent, hafter⟩ := closingFrom_quoted_sound h
        rw [List.length_append, List.length_cons] at hlength
        obtain ⟨inside, rest, rfl, hinside, hfound⟩ := ih rest.length (by omega) hdepth hafter rfl
        refine ⟨character :: (content ++ character :: inside), rest, by simp, .quoted hquote hcontent hinside, ?_⟩
        rw [← hfound]
        simp only [List.length_cons, List.length_append]
        congr 1
        omega
      | false =>
        simp only [hquote, hclosing, Bool.false_eq_true, if_false] at h
        by_cases hopening : character = unit '('
        · subst hopening
          rw [if_pos rfl] at h
          obtain ⟨inside, rest, rfl, hinside, hafter⟩ := ih source.length (by omega) (Nat.succ_pos _) h rfl
          rw [closingFrom_unquoted] at hafter
          simp only [isQuote_closing, closing_ne_opening, Bool.false_eq_true, if_false, if_true] at hafter
          rw [if_neg (by omega), Nat.succ_sub_one] at hafter
          rw [List.length_append, List.length_cons] at hlength
          obtain ⟨more, rest, rfl, hmore, hfound⟩ := ih rest.length (by omega) hdepth hafter rfl
          refine ⟨unit '(' :: (inside ++ unit ')' :: more), rest, by simp, .nested hinside hmore, ?_⟩
          rw [← hfound]
          simp only [List.length_cons, List.length_append]
          congr 1
          omega
        · rw [if_neg hopening] at h
          obtain ⟨inside, rest, rfl, hinside, hfound⟩ := ih source.length (by omega) hdepth h rfl
          refine ⟨character :: inside, rest, rfl, .plain hquote hopening hclosing hinside, ?_⟩
          rw [← hfound]
          simp only [List.length_cons]
          congr 1
          omega

theorem detailPointClosingParenthesis_iff {openingParenthesis closingParenthesis : Nat} :
    detailPointClosingParenthesis html openingParenthesis = some closingParenthesis ↔ Closes html openingParenthesis closingParenthesis := by
  have hfound : ∀ index rest, closingFrom none 1 index (unit ')' :: rest) = some index := by
    intro index rest
    rw [closingFrom_unquoted]
    simp only [isQuote_closing, closing_ne_opening, Bool.false_eq_true, if_false, if_true]
  constructor
  · intro h
    obtain ⟨inside, rest, hsource, hinside, hclosing⟩ := closingFrom_sound Nat.one_pos h
    rw [hfound] at hclosing
    cases hclosing
    exact ⟨by omega, getElem?_of_drop hsource, by rwa [slice_of_drop hsource]⟩
  · intro h
    rw [detailPointClosingParenthesis, drop_eq_slice_append h.behind h.parenthesis, closingFrom_balanced h.inside _ _ Nat.one_pos, hfound,
      length_slice (Nat.le_of_lt (List.getElem?_eq_some_iff.1 h.parenthesis).1)]
    have hbehind := h.behind
    congr 1
    omega

theorem detailPointClosingParenthesis_eq_none {openingParenthesis : Nat}
    (hcloses : ∀ closingParenthesis, ¬ Closes html openingParenthesis closingParenthesis) :
    detailPointClosingParenthesis html openingParenthesis = none := by
  rw [Option.eq_none_iff_forall_ne_some]
  exact fun closingParenthesis hsome => hcloses closingParenthesis (detailPointClosingParenthesis_iff.1 hsome)

/-! ## The third argument -/

theorem skipSpaces_eq {index : Nat} {lead rest : Text} {character : UInt16} (hsource : html.drop index = lead ++ character :: rest)
    (hlead : Spaces lead) (hcharacter : isSpaceUnit character = false) : skipSpaces html index = index + lead.length := by
  rw [skipSpaces, hsource, List.takeWhile_append_of_pos hlead, List.takeWhile_cons_of_neg (by simp [hcharacter]), List.append_nil]

theorem skipSpaces_sound (html : Text) (index : Nat) :
    ∃ lead, Spaces lead ∧ html.drop index = lead ++ html.drop (skipSpaces html index) ∧ skipSpaces html index = index + lead.length := by
  refine ⟨(html.drop index).takeWhile isSpaceUnit, fun u hu => List.mem_takeWhile_imp hu, ?_, rfl⟩
  rw [skipSpaces, ← List.drop_drop, List.prefix_iff_eq_append.1 (List.takeWhile_prefix _)]

theorem quotedEnd_nil (closing index : Nat) : quotedEnd quote closing index [] = index := rfl

theorem quotedEnd_over {closing index : Nat} (hindex : ¬ index < closing) (character : UInt16) (rest : Text) :
    quotedEnd quote closing index (character :: rest) = index := by
  cases rest with
  | nil => exact if_neg hindex
  | cons next rest => exact if_neg hindex

theorem quotedEnd_backslash {closing index : Nat} (hindex : index < closing) (character : UInt16) (rest : Text) :
    quotedEnd quote closing index (unit '\\' :: character :: rest) = quotedEnd quote closing (index + 2) rest :=
  (if_pos hindex).trans (if_pos rfl)

theorem quotedEnd_backslash_last {closing index : Nat} (hindex : index < closing) :
    quotedEnd quote closing index [unit '\\'] = index + 2 := (if_pos hindex).trans (if_pos rfl)

theorem quotedEnd_string {closing index : Nat} (hindex : index < closing) {character : UInt16} (hbackslash : character ≠ unit '\\')
    (rest : Text) :
    quotedEnd quote closing index (character :: rest) =
      if character = quote then index else quotedEnd quote closing (index + 1) rest := by
  cases rest with
  | nil => exact (if_pos hindex).trans (if_neg hbackslash)
  | cons next rest => exact (if_pos hindex).trans (if_neg hbackslash)

theorem quotedEnd_quoted (hquote : isQuote quote = true) {content : Text} (hcontent : Quoted quote content) {closing index : Nat}
    (hinside : index + content.length < closing) (rest : Text) :
    quotedEnd quote closing index (content ++ quote :: rest) = index + content.length := by
  induction hcontent generalizing index with
  | nil =>
    rw [List.nil_append, quotedEnd_string (by simpa using hinside) (quote_ne_backslash hquote), if_pos rfl]
    rfl
  | plain hother hbackslash _ ih =>
    rw [List.length_cons] at hinside
    rw [List.cons_append, quotedEnd_string (by omega) hbackslash, if_neg hother, ih (by omega), List.length_cons]
    omega
  | escaped _ ih =>
    rw [List.length_cons, List.length_cons] at hinside
    rw [List.cons_append, List.cons_append, quotedEnd_backslash (by omega), ih (by omega), List.length_cons, List.length_cons]
    omega

theorem quotedEnd_sound {closing index : Nat} {source : Text} (hlength : closing ≤ index + source.length)
    (h : quotedEnd quote closing index source < closing) :
    ∃ content rest, source = content ++ quote :: rest ∧ Quoted quote content ∧
      quotedEnd quote closing index source = index + content.length := by
  induction hn : source.length using Nat.strong_induction_on generalizing index source with
  | _ n ih =>
    cases source with
    | nil =>
      rw [quotedEnd_nil] at h
      rw [List.length_nil] at hlength
      omega
    | cons character source =>
      simp only [List.length_cons] at hlength hn
      by_cases hindex : index < closing
      case neg =>
        rw [quotedEnd_over hindex] at h
        exact absurd h hindex
      by_cases hbackslash : character = unit '\\'
      · subst hbackslash
        cases source with
        | nil =>
          rw [quotedEnd_backslash_last hindex] at h
          rw [List.length_nil] at hlength
          omega
        | cons skipped source =>
          rw [quotedEnd_backslash hindex] at h ⊢
          simp only [List.length_cons] at hlength hn
          obtain ⟨content, rest, rfl, hcontent, hend⟩ := ih source.length (by omega) (by omega) h rfl
          refine ⟨unit '\\' :: skipped :: content, rest, rfl, .escaped hcontent, ?_⟩
          rw [hend, List.length_cons, List.length_cons]
          omega
      · rw [quotedEnd_string hindex hbackslash] at h ⊢
        by_cases hquote : character = quote
        · subst hquote
          rw [if_pos rfl]
          exact ⟨[], source, rfl, .nil, rfl⟩
        · rw [if_neg hquote] at h ⊢
          obtain ⟨content, rest, rfl, hcontent, hend⟩ := ih source.length (by omega) (by omega) h rfl
          refine ⟨character :: content, rest, rfl, .plain hquote hbackslash hcontent, ?_⟩
          rw [hend, List.length_cons]
          omega

theorem drop_behind_string {index : Nat} {lead content rest : Text} (hsource : html.drop index = lead ++ quote :: (content ++ quote :: rest)) :
    html.drop (index + lead.length + 1 + content.length + 1) = rest := by
  have hlength : index + lead.length + 1 + content.length + 1 = index + (lead ++ quote :: (content ++ [quote])).length := by
    simp only [List.length_append, List.length_cons, List.length_nil]
    omega
  have hsplit : lead ++ quote :: (content ++ quote :: rest) = (lead ++ quote :: (content ++ [quote])) ++ rest := by simp
  rw [hlength, ← List.drop_drop, hsource, hsplit, List.drop_left]

/-- The scanner behind the white space in front of an argument. -/
theorem quotedArgument_eq {closing left index : Nat} {lead content rest : Text} (hquote : isQuote quote = true) (hlead : Spaces lead)
    (hcontent : Quoted quote content) (hsource : html.drop index = lead ++ quote :: (content ++ quote :: rest))
    (hinside : index + lead.length + 1 + content.length < closing) :
    quotedArgument html closing left index =
      match left with
      | 0 => some (index + lead.length + 1, index + lead.length + 1 + content.length)
      | left + 1 =>
        let index := skipSpaces html (index + lead.length + 1 + content.length + 1)
        if html[index]? = some (unit ',') then quotedArgument html closing left (index + 1) else none := by
  have hskip := skipSpaces_eq hsource hlead (isSpaceUnit_quote hquote)
  have hat : html[index + lead.length]? = some quote := getElem?_of_drop hsource
  have hbehind : html.drop (index + lead.length + 1) = content ++ quote :: rest := by
    rw [Nat.add_assoc, ← List.drop_drop, hsource, ← List.drop_drop, List.drop_left]
    rfl
  have hend := quotedEnd_quoted hquote hcontent hinside rest
  rw [quotedArgument.eq_def]
  cases left with
  | zero => simp [hskip, hat, hquote, hbehind, hend, Nat.not_le.2 hinside]
  | succ left => simp [hskip, hat, hquote, hbehind, hend, Nat.not_le.2 hinside]

theorem quotedArgument_complete {left : Nat} {before content : Text} (h : Argument left before content quote) {closing index : Nat}
    {rest : Text} (hsource : html.drop index = before ++ (content ++ quote :: rest)) (hinside : index + before.length + content.length < closing) :
    quotedArgument html closing left index = some (index + before.length, index + before.length + content.length) := by
  induction h generalizing index with
  | here hlead hquote hcontent =>
    rw [List.append_assoc] at hsource
    rw [List.length_append, List.length_singleton, ← Nat.add_assoc] at hinside ⊢
    rw [quotedArgument_eq hquote hlead hcontent hsource hinside]
  | @next n lead skipped trail before content other quote hlead hother hskipped htrail _ ih =>
    simp only [List.append_assoc, List.cons_append] at hsource
    simp only [List.length_append, List.length_cons] at hinside ⊢
    rw [quotedArgument_eq hother hlead hskipped hsource (by omega)]
    have hcomma := drop_behind_string hsource
    have hbehind : html.drop (index + lead.length + 1 + skipped.length + 1 + trail.length + 1) = before ++ (content ++ quote :: rest) := by
      rw [Nat.add_assoc _ trail.length 1, ← List.drop_drop, hcomma, ← List.drop_drop, List.drop_left]
      rfl
    have hskip := skipSpaces_eq hcomma htrail rfl
    have hat := getElem?_of_drop hcomma
    simp only [hskip, hat, if_true]
    rw [ih hbehind (by omega)]
    simp only [Option.some.injEq, Prod.mk.injEq]
    omega

/-- Wherever the scanner comes to an argument, a string stands at the index. -/
theorem string_of_quotedArgument {left closing index : Nat} {found : Nat × Nat} (hclosing : closing ≤ html.length)
    (h : quotedArgument html closing left index = some found) :
    ∃ lead quote content rest, Spaces lead ∧ isQuote quote = true ∧ Quoted quote content ∧
      html.drop index = lead ++ quote :: (content ++ quote :: rest) ∧ index + lead.length + 1 + content.length < closing := by
  obtain ⟨lead, hlead, hsource, hskip⟩ := skipSpaces_sound html index
  rw [quotedArgument.eq_def] at h
  simp only at h
  cases hat : html[skipSpaces html index]? with
  | none => simp [hat] at h
  | some quote =>
    cases hquote : isQuote quote with
    | false => simp [hat, hquote] at h
    | true =>
      simp only [hat, hquote, if_true] at h
      rw [hskip] at hsource hat h
      by_cases hend : closing ≤ quotedEnd quote closing (index + lead.length + 1) (html.drop (index + lead.length + 1))
      · simp [hend] at h
      · obtain ⟨content, rest, hcontent, hquoted, hlast⟩ := quotedEnd_sound (by rw [List.length_drop]; omega) (Nat.not_le.1 hend)
        rw [drop_eq_cons hat, hcontent] at hsource
        exact ⟨lead, quote, content, rest, hlead, hquote, hquoted, hsource, by omega⟩

theorem quotedArgument_sound {left closing index first last : Nat} (hclosing : closing ≤ html.length)
    (h : quotedArgument html closing left index = some (first, last)) :
    ∃ before content quote rest, Argument left before content quote ∧ html.drop index = before ++ (content ++ quote :: rest) ∧
      first = index + before.length ∧ last = first + content.length ∧ last < closing := by
  induction left generalizing index with
  | zero =>
    obtain ⟨lead, quote, content, rest, hlead, hquote, hcontent, hsource, hinside⟩ := string_of_quotedArgument hclosing h
    rw [quotedArgument_eq hquote hlead hcontent hsource hinside] at h
    cases h
    refine ⟨lead ++ [quote], content, quote, rest, .here hlead hquote hcontent, by simpa using hsource, ?_, rfl, hinside⟩
    rw [List.length_append, List.length_singleton, Nat.add_assoc]
  | succ left ih =>
    obtain ⟨lead, other, skipped, rest, hlead, hother, hskipped, hsource, hinside⟩ := string_of_quotedArgument hclosing h
    rw [quotedArgument_eq hother hlead hskipped hsource hinside] at h
    simp only at h
    split at h
    case isFalse => cases h
    case isTrue hcomma =>
      obtain ⟨trail, htrail, hbehind, hskip⟩ := skipSpaces_sound html (index + lead.length + 1 + skipped.length + 1)
      rw [hskip] at hcomma hbehind h
      obtain ⟨before, content, quote, rest', hargument, hnext, hfirst, hlast, hclosing⟩ := ih h
      refine ⟨lead ++ other :: (skipped ++ other :: (trail ++ unit ',' :: before)), content, quote, rest',
        .next hlead hother hskipped htrail hargument, ?_, ?_, hlast, hclosing⟩
      · rw [hsource, ← drop_behind_string hsource, hbehind, drop_eq_cons hcomma, hnext]
        simp
      · rw [hfirst]
        simp only [List.length_append, List.length_cons]
        omega

/-- Within an invocation the scanner finds the third argument, if there is one. -/
theorem thirdQuotedDetailPointArgument_iff {openingParenthesis closingParenthesis first last : Nat}
    (hcloses : Closes html openingParenthesis closingParenthesis) :
    thirdQuotedDetailPointArgument html openingParenthesis closingParenthesis = some (first, last) ↔
      ThirdArgument html openingParenthesis closingParenthesis first last := by
  have hlength := (List.getElem?_eq_some_iff.1 hcloses.parenthesis).1
  constructor
  · intro h
    obtain ⟨before, content, quote, rest, hargument, hsource, rfl, rfl, hinside⟩ := quotedArgument_sound (Nat.le_of_lt hlength) h
    have hbehind : html.drop (openingParenthesis + 1 + before.length) = content ++ quote :: rest := by
      rw [← List.drop_drop, hsource, List.drop_left]
    refine ⟨by omega, Nat.le_add_right _ _, hinside, quote, getElem?_of_drop hbehind, ?_⟩
    rwa [slice_of_drop hsource, slice_of_drop hbehind]
  · rintro ⟨hbehind, hordered, hinside, quote, hquote, hargument⟩
    have hsource : html.drop (openingParenthesis + 1) =
        slice html (openingParenthesis + 1) first ++ (slice html first last ++ quote :: html.drop (last + 1)) := by
      rw [← drop_eq_slice_append hordered hquote, slice_append_drop hbehind]
    have hfirst : (slice html (openingParenthesis + 1) first).length = first - (openingParenthesis + 1) := length_slice (by omega)
    have hlast : (slice html first last).length = last - first := length_slice (by omega)
    rw [thirdQuotedDetailPointArgument, quotedArgument_complete hargument hsource (by omega), hfirst, hlast]
    simp only [Option.some.injEq, Prod.mk.injEq]
    omega

theorem thirdQuotedDetailPointArgument_eq_none {openingParenthesis closingParenthesis : Nat}
    (hcloses : Closes html openingParenthesis closingParenthesis)
    (hthird : ∀ first last, ¬ ThirdArgument html openingParenthesis closingParenthesis first last) :
    thirdQuotedDetailPointArgument html openingParenthesis closingParenthesis = none := by
  rw [Option.eq_none_iff_forall_ne_some]
  rintro ⟨first, last⟩ hsome
  exact hthird first last ((thirdQuotedDetailPointArgument_iff hcloses).1 hsome)

end

end Hyeboard.GradesHtml
