import Hyeboard.LoginForm.Tags
/-!
# What the login form detector decides

The scanner falls into two: the tags of a page outside its comments and scripts, and
what the loop makes of them. The page has a complete login form exactly when its tags
have a closed region of one.
-/

namespace Hyeboard.LoginForm

/-! ## The tags of a page -/

/-- The tags that are neither in a comment nor in a script, as far as the scanner gets. -/
def remainingTags (html : Text) : List Text :=
  match _h : scan html with
  | .finished => []
  | .skipped rest => remainingTags rest
  | .tag tag rest => tag :: remainingTags rest
termination_by html.length
decreasing_by
  · exact scan_shorter (by rw [_h]; rfl)
  · exact scan_shorter (by rw [_h]; rfl)

/-- Where the cursor can stand. -/
inductive Reaches : Text → Text → Prop
  | start (html : Text) : Reaches html html
  | turn {html rest cursor : Text} (hscan : (scan html).rest = some rest) (hreaches : Reaches rest cursor) : Reaches html cursor

section
variable {html rest : Text}

theorem remainingTags_finished (h : scan html = .finished) : remainingTags html = [] := by
  rw [remainingTags]
  split <;> simp_all

theorem remainingTags_skipped (h : scan html = .skipped rest) : remainingTags html = remainingTags rest := by
  rw [remainingTags]
  split <;> simp_all

theorem remainingTags_tag {tag : Text} (h : scan html = .tag tag rest) : remainingTags html = tag :: remainingTags rest := by
  rw [remainingTags]
  split <;> simp_all

/-- What the loop makes of a list of tags. -/
def readTags (forms : Forms) : List Text → Bool
  | [] => false
  | tag :: tags =>
    match forms.read tag with
    | none => true
    | some forms => readTags forms tags

theorem hasCompleteLoginFormFrom_eq (forms : Forms) (html : Text) :
    hasCompleteLoginFormFrom forms html = readTags forms (remainingTags html) := by
  fun_induction hasCompleteLoginFormFrom forms html with
  | case1 forms html h => rw [remainingTags_finished h, readTags]
  | case2 forms html rest h ih => rw [remainingTags_skipped h, ih]
  | case3 forms html tag rest h hread => rw [remainingTags_tag h, readTags, hread]
  | case4 forms html tag rest h next hread ih => rw [remainingTags_tag h, readTags, hread, ih]

/-! ## Hidden text -/

theorem scan_suffix (h : (scan html).rest = some rest) : ∃ passed, html = passed ++ rest := by
  rcases scan_cases html with hfinished | ⟨gap, hidden, left, hscan, rfl, -, -⟩ | ⟨gap, tag, left, hscan, rfl, -, -⟩
  · rw [hfinished] at h
    cases h
  · rw [hscan] at h
    cases h
    exact ⟨gap ++ hidden, rfl⟩
  · rw [hscan] at h
    cases h
    exact ⟨gap ++ tag, rfl⟩

theorem Reaches.suffix {cursor : Text} (h : Reaches html cursor) : ∃ passed, html = passed ++ cursor := by
  induction h with
  | start html => exact ⟨[], rfl⟩
  | turn hscan _ ih =>
    obtain ⟨passed, rfl⟩ := ih
    obtain ⟨before, rfl⟩ := scan_suffix hscan
    exact ⟨before ++ passed, by rw [List.append_assoc]⟩

/-- The tags in front of the cursor are the same whatever is behind it. -/
theorem Reaches.tags {cursor : Text} (h : Reaches html cursor) : ∀ {before : Text}, html = before ++ cursor →
    ∃ tags, ∀ behind, remainingTags (before ++ behind) = tags ++ remainingTags behind := by
  induction h with
  | start html =>
    intro before hhtml
    obtain rfl : before = [] := List.append_cancel_right (hhtml.symm.trans (List.nil_append _).symm)
    exact ⟨[], fun behind => rfl⟩
  | @turn html rest cursor hscan hreaches ih =>
    intro before hhtml
    obtain ⟨passed, rfl⟩ := hreaches.suffix
    obtain ⟨tags, htags⟩ := ih rfl
    rcases scan_cases html with hfinished | ⟨gap, hidden, left, hskipped, hsplit, hgap, hhidden⟩ | ⟨gap, tag, left, htag, hsplit, hgap, hok⟩
    · rw [hfinished] at hscan
      cases hscan
    · rw [hskipped] at hscan
      cases hscan
      obtain rfl : before = gap ++ hidden ++ passed := by
        rw [hhtml, ← List.append_assoc] at hsplit
        exact List.append_cancel_right hsplit
      refine ⟨tags, fun behind => ?_⟩
      rw [List.append_assoc, remainingTags_skipped (scan_hidden hgap hhidden), htags]
    · rw [htag] at hscan
      cases hscan
      obtain rfl : before = gap ++ tag ++ passed := by
        rw [hhtml, ← List.append_assoc] at hsplit
        exact List.append_cancel_right hsplit
      refine ⟨tag :: tags, fun behind => ?_⟩
      rw [List.append_assoc, remainingTags_tag (scan_tag hgap hok), htags]
      rfl

/-- What is hidden makes no difference. -/
theorem remainingTags_replace {before gap hidden hidden' after : Text} (hgap : unit '<' ∉ gap) (hhidden : IsHidden hidden)
    (hhidden' : IsHidden hidden') (h : Reaches (before ++ (gap ++ hidden ++ after)) (gap ++ hidden ++ after)) :
    remainingTags (before ++ (gap ++ hidden' ++ after)) = remainingTags (before ++ (gap ++ hidden ++ after)) := by
  obtain ⟨tags, htags⟩ := h.tags rfl
  rw [htags, htags, remainingTags_skipped (scan_hidden hgap hhidden), remainingTags_skipped (scan_hidden hgap hhidden')]

/-! ## Regions of forms -/

/-- How many forms are open behind a tag; a closing tag without a form is passed over. -/
def depthAfter (depth : Nat) (tag : Text) : Nat :=
  if Opens (units "form") tag then depth + 1 else if Closes (units "form") tag then depth - 1 else depth

/-- A tag that neither opens nor closes a form. -/
def IsInner (tag : Text) : Prop := ¬ Opens (units "form") tag ∧ ¬ Closes (units "form") tag

instance (tag : Text) : Decidable (IsInner tag) := inferInstanceAs (Decidable (_ ∧ _))

/-- The rest of a form, up to the tag that closes it: none opens in it, and with what the candidate has, both inputs are there. -/
def Completes (candidate : LoginFormCandidate) (tags : List Text) : Prop :=
  ∃ inner closing post, tags = inner ++ closing :: post ∧ Closes (units "form") closing ∧ (∀ tag ∈ inner, IsInner tag) ∧
    (candidate.hasLoginId = true ∨ ∃ tag ∈ inner, IsInputNamed (units "txtloginid") tag) ∧
    (candidate.hasPassword = true ∨ ∃ tag ∈ inner, IsInputNamed (units "txtpassword") tag)

/-- An outermost form with the login action, closed, that has both inputs and no other form. -/
structure IsLoginForm (opening : Text) (inner : List Text) (closing : Text) : Prop where
  opens : Opens (units "form") opening
  action : HasAttribute (units "action") daotaoLoginPath opening
  plain : ∀ tag ∈ inner, IsInner tag
  loginId : ∃ tag ∈ inner, IsInputNamed (units "txtloginid") tag
  password : ∃ tag ∈ inner, IsInputNamed (units "txtpassword") tag
  closes : Closes (units "form") closing

/-- Such a form, where so many forms were open before. -/
def HasLoginForm (depth : Nat) (tags : List Text) : Prop :=
  ∃ pre opening inner closing post, tags = pre ++ opening :: inner ++ closing :: post ∧ pre.foldl depthAfter depth = 0 ∧
    IsLoginForm opening inner closing

section
variable {tag : Text} {tags : List Text} {depth : Nat} {candidate : LoginFormCandidate}

theorem not_completes_nil : ¬ Completes candidate [] := by
  rintro ⟨inner, closing, post, h, -⟩
  simp at h

theorem isInner_iff : IsInner tag ↔ isFormOpening tag = false ∧ isFormClosing tag = false := by
  rw [IsInner, ← isFormOpening_iff, ← isFormClosing_iff, Bool.not_eq_true, Bool.not_eq_true]

theorem completes_opening (h : isFormOpening tag = true) : ¬ Completes candidate (tag :: tags) := by
  have hopens := isFormOpening_iff.1 h
  rintro ⟨inner, closing, post, heq, hclosing, hinner, -⟩
  cases inner with
  | nil =>
    cases heq
    exact hclosing.not_opens hopens
  | cons first inner =>
    cases heq
    exact (hinner _ List.mem_cons_self).1 hopens

theorem completes_closing (h : isFormClosing tag = true) :
    Completes candidate (tag :: tags) ↔ candidate.hasLoginId = true ∧ candidate.hasPassword = true := by
  have hcloses := isFormClosing_iff.1 h
  constructor
  · rintro ⟨inner, closing, post, heq, -, hinner, hloginId, hpassword⟩
    cases inner with
    | nil => simpa using And.intro hloginId hpassword
    | cons first inner =>
      cases heq
      exact absurd hcloses (hinner _ List.mem_cons_self).2
  · rintro ⟨hloginId, hpassword⟩
    exact ⟨[], tag, tags, rfl, hcloses, List.forall_mem_nil _, .inl hloginId, .inl hpassword⟩

theorem completes_inner (h : IsInner tag) :
    Completes candidate (tag :: tags) ↔
      Completes { hasLoginId := candidate.hasLoginId || isNamed "txtloginid" tag, hasPassword := candidate.hasPassword || isNamed "txtpassword" tag }
        tags := by
  constructor
  · rintro ⟨inner, closing, post, heq, hclosing, hinner, hloginId, hpassword⟩
    cases inner with
    | nil =>
      cases heq
      exact absurd hclosing h.2
    | cons first inner =>
      cases heq
      rw [List.forall_mem_cons] at hinner
      simp only [List.exists_mem_cons_iff] at hloginId hpassword
      refine ⟨inner, closing, post, rfl, hclosing, hinner.2, ?_, ?_⟩
      · simpa [or_assoc, isNamed_iff] using hloginId
      · simpa [or_assoc, isNamed_iff] using hpassword
  · rintro ⟨inner, closing, post, rfl, hclosing, hinner, hloginId, hpassword⟩
    refine ⟨tag :: inner, closing, post, rfl, hclosing, List.forall_mem_cons.2 ⟨h, hinner⟩, ?_, ?_⟩
    · simpa [or_assoc, isNamed_iff] using hloginId
    · simpa [or_assoc, isNamed_iff] using hpassword

theorem not_hasLoginForm_nil : ¬ HasLoginForm depth [] := by
  rintro ⟨pre, opening, inner, closing, post, h, -⟩
  simp at h

/-- The form starts with the first tag, or behind it. -/
theorem hasLoginForm_cons : HasLoginForm depth (tag :: tags) ↔
    (depth = 0 ∧ isFormOpening tag = true ∧ hasLoginAction tag = true ∧ Completes { hasLoginId := false, hasPassword := false } tags) ∨
      HasLoginForm (depthAfter depth tag) tags := by
  rw [isFormOpening_iff, hasLoginAction_iff]
  constructor
  · rintro ⟨pre, opening, inner, closing, post, heq, hdepth, hform⟩
    cases pre with
    | nil =>
      cases heq
      exact .inl ⟨hdepth, hform.opens, hform.action, inner, closing, post, rfl, hform.closes, hform.plain, .inr hform.loginId,
        .inr hform.password⟩
    | cons first pre =>
      cases heq
      exact .inr ⟨pre, opening, inner, closing, post, rfl, hdepth, hform⟩
  · rintro (⟨rfl, hopening, haction, inner, closing, post, rfl, hclosing, hinner, hloginId, hpassword⟩ | ⟨pre, opening, inner, closing, post, rfl, hdepth, hform⟩)
    · refine ⟨[], tag, inner, closing, post, rfl, rfl, {
        opens := hopening, action := haction, plain := hinner, loginId := ?_, password := ?_, closes := hclosing }⟩
      · exact hloginId.resolve_left Bool.false_ne_true
      · exact hpassword.resolve_left Bool.false_ne_true
    · exact ⟨tag :: pre, opening, inner, closing, post, rfl, hdepth, hform⟩

/-- The states of the loop: outside every form, in one, or in forms that do not count. -/
inductive Reading : Forms → Prop
  | outside : Reading noForm
  | inside (candidate : Option LoginFormCandidate) : Reading { candidate, formDepth := 1, formRegionTainted := false }
  | nested (depth : Nat) : Reading { candidate := none, formDepth := depth + 1, formRegionTainted := true }

/-- What is still to come decides. -/
def Expects (forms : Forms) (tags : List Text) : Prop :=
  (forms.formRegionTainted = false ∧ ∃ candidate, forms.candidate = some candidate ∧ Completes candidate tags) ∨
    HasLoginForm forms.formDepth tags

theorem expects_noForm : Expects noForm tags ↔ HasLoginForm 0 tags := by
  refine ⟨?_, .inr⟩
  rintro (⟨-, candidate, hnone, -⟩ | hform)
  · cases hnone
  · exact hform

theorem expects_nested : Expects { candidate := none, formDepth := depth + 1, formRegionTainted := true } tags ↔ HasLoginForm (depth + 1) tags := by
  refine ⟨?_, .inr⟩
  rintro (⟨hfalse, -⟩ | hform)
  · cases hfalse
  · exact hform

/-- A form opens: the first one is a candidate, any other spoils the region. -/
theorem read_opening {forms : Forms} (hreading : Reading forms) (h : isFormOpening tag = true) :
    ∃ next, forms.read tag = some next ∧ Reading next ∧ (Expects next tags ↔ Expects forms (tag :: tags)) := by
  have hdepth : ∀ n, depthAfter n tag = n + 1 := fun n => if_pos (isFormOpening_iff.1 h)
  cases hreading with
  | outside =>
    refine ⟨_, by simp [Forms.read, h, noForm]; rfl, .inside _, ?_⟩
    rw [expects_noForm, hasLoginForm_cons, hdepth]
    by_cases haction : hasLoginAction tag = true
    · simp [Expects, h, haction]
    · simp [Expects, haction]
  | inside candidate =>
    refine ⟨_, by simp [Forms.read, h], .nested 1, ?_⟩
    rw [expects_nested, Expects, hasLoginForm_cons, hdepth]
    simp [completes_opening h]
  | nested depth =>
    refine ⟨_, by simp [Forms.read, h], .nested (depth + 1), ?_⟩
    rw [expects_nested, expects_nested, hasLoginForm_cons, hdepth]
    simp

/-- A tag inside. -/
theorem read_inner {forms : Forms} (hreading : Reading forms) (h : IsInner tag) :
    ∃ next, forms.read tag = some next ∧ Reading next ∧ (Expects next tags ↔ Expects forms (tag :: tags)) := by
  have hdepth : ∀ n, depthAfter n tag = n := fun n => by rw [depthAfter, if_neg h.1, if_neg h.2]
  obtain ⟨hopening, hclosing⟩ := isInner_iff.1 h
  cases hreading with
  | outside =>
    refine ⟨noForm, by simp [Forms.read, hopening, hclosing, noForm], .outside, ?_⟩
    rw [expects_noForm, expects_noForm, hasLoginForm_cons, hdepth, hopening]
    simp
  | inside candidate =>
    cases candidate with
    | none =>
      refine ⟨_, by simp [Forms.read, hopening, hclosing], .inside none, ?_⟩
      rw [Expects, Expects, hasLoginForm_cons, hdepth]
      simp
    | some candidate =>
      refine ⟨_, by simp [Forms.read, hopening, hclosing]; rfl, .inside _, ?_⟩
      rw [Expects, Expects, hasLoginForm_cons, hdepth]
      simp [completes_inner h]
  | nested depth =>
    refine ⟨_, by simp [Forms.read, hopening, hclosing], .nested depth, ?_⟩
    rw [expects_nested, expects_nested, hasLoginForm_cons, hdepth]
    simp

/-- A form closes. -/
theorem read_closing {forms : Forms} (hreading : Reading forms) (hopening : isFormOpening tag = false) (hclosing : isFormClosing tag = true) :
    (forms.read tag = none ∧ Expects forms (tag :: tags)) ∨
      ∃ next, forms.read tag = some next ∧ Reading next ∧ (Expects next tags ↔ Expects forms (tag :: tags)) := by
  have hcloses := isFormClosing_iff.1 hclosing
  have hdepth : ∀ n, depthAfter n tag = n - 1 := fun n => by rw [depthAfter, if_neg hcloses.not_opens, if_pos hcloses]
  cases hreading with
  | outside =>
    refine .inr ⟨noForm, by simp [Forms.read, hopening, hclosing, noForm], .outside, ?_⟩
    rw [expects_noForm, expects_noForm, hasLoginForm_cons, hdepth, hopening]
    simp
  | inside candidate =>
    by_cases hcomplete : ∃ c, candidate = some c ∧ c.hasLoginId = true ∧ c.hasPassword = true
    · obtain ⟨c, rfl, hloginId, hpassword⟩ := hcomplete
      refine .inl ⟨by simp [Forms.read, hopening, hclosing, hloginId, hpassword], .inl ⟨rfl, c, rfl, ?_⟩⟩
      exact (completes_closing hclosing).2 ⟨hloginId, hpassword⟩
    · refine .inr ⟨noForm, ?_, .outside, ?_⟩
      · cases candidate with
        | none => simp [Forms.read, hopening, hclosing, noForm]
        | some c =>
          have hnot : (c.hasLoginId && c.hasPassword) = false := by
            rw [Bool.eq_false_iff, ne_eq, Bool.and_eq_true]
            exact fun hboth => hcomplete ⟨c, rfl, hboth⟩
          simp [Forms.read, hopening, hclosing, noForm, hnot]
      · rw [expects_noForm, Expects, hasLoginForm_cons, hdepth, hopening]
        simp only [completes_closing hclosing]
        simpa using fun c hc hloginId hpassword => absurd ⟨c, hc, hloginId, hpassword⟩ hcomplete
  | nested depth =>
    cases depth with
    | zero =>
      refine .inr ⟨noForm, by simp [Forms.read, hopening, hclosing, noForm], .outside, ?_⟩
      rw [expects_noForm, expects_nested, hasLoginForm_cons, hdepth]
      simp
    | succ depth =>
      refine .inr ⟨_, by simp [Forms.read, hopening, hclosing], .nested depth, ?_⟩
      rw [expects_nested, expects_nested, hasLoginForm_cons, hdepth]
      simp

theorem readTags_iff {forms : Forms} (hreading : Reading forms) : readTags forms tags = true ↔ Expects forms tags := by
  induction tags generalizing forms with
  | nil =>
    simp only [readTags, Bool.false_eq_true, false_iff, Expects, not_or]
    refine ⟨?_, not_hasLoginForm_nil⟩
    rintro ⟨-, candidate, -, hcompletes⟩
    exact not_completes_nil hcompletes
  | cons tag tags ih =>
    have hcases : (forms.read tag = none ∧ Expects forms (tag :: tags)) ∨
        ∃ next, forms.read tag = some next ∧ Reading next ∧ (Expects next tags ↔ Expects forms (tag :: tags)) := by
      cases hopening : isFormOpening tag with
      | true => exact .inr (read_opening hreading hopening)
      | false =>
        cases hclosing : isFormClosing tag with
        | true => exact read_closing hreading hopening hclosing
        | false => exact .inr (read_inner hreading (isInner_iff.2 ⟨hopening, hclosing⟩))
    rw [readTags]
    rcases hcases with ⟨hread, hexpects⟩ | ⟨next, hread, hnext, hexpects⟩
    · rw [hread]
      exact iff_of_true rfl hexpects
    · rw [hread, ← hexpects]
      exact ih hnext

end

end

/-! ## The detector -/

/-- The loop moves on with each turn, so it ends; what a comment or a script holds makes no difference; and the page has a complete
login form exactly when its remaining tags have an outermost, closed form with the login action and both inputs and no form in it. -/
theorem detects_login_form (html : Text) :
    (∀ cursor rest, Reaches html cursor → (scan cursor).rest = some rest → rest.length < cursor.length) ∧
    (∀ before gap inside inside' after, unit '<' ∉ gap → ¬ units "-->" <:+: inside → ¬ units "-->" <:+: inside' →
      html = before ++ (gap ++ commentOf inside ++ after) → Reaches html (gap ++ commentOf inside ++ after) →
      hasCompleteLoginForm (before ++ (gap ++ commentOf inside' ++ after)) = hasCompleteLoginForm html) ∧
    (∀ before gap opening inside inside' closing after, unit '<' ∉ gap → IsScriptOpening opening → IsScriptClosing closing →
      HasNoScriptClosing inside → HasNoScriptClosing inside' → html = before ++ (gap ++ (opening ++ inside ++ closing) ++ after) →
      Reaches html (gap ++ (opening ++ inside ++ closing) ++ after) →
      hasCompleteLoginForm (before ++ (gap ++ (opening ++ inside' ++ closing) ++ after)) = hasCompleteLoginForm html) ∧
    (hasCompleteLoginForm html = true ↔ HasLoginForm 0 (remainingTags html)) := by
  have hdecides : ∀ page, hasCompleteLoginForm page = readTags noForm (remainingTags page) := fun page => hasCompleteLoginFormFrom_eq noForm page
  refine ⟨fun cursor rest _ hscan => scan_shorter hscan, ?_, ?_, ?_⟩
  · rintro before gap inside inside' after hgap hinside hinside' rfl hreaches
    rw [hdecides, hdecides, remainingTags_replace hgap (.comment inside hinside) (.comment inside' hinside') hreaches]
  · rintro before gap opening inside inside' closing after hgap hopening hclosing hinside hinside' rfl hreaches
    rw [hdecides, hdecides, remainingTags_replace hgap (.script opening inside closing hopening hinside hclosing)
      (.script opening inside' closing hopening hinside' hclosing) hreaches]
  · rw [hdecides, readTags_iff .outside, expects_noForm]

/-- A page with a login form; the comment in front of it and the script in it hold what is given. -/
def loginPage (comment script : Text) : Text :=
  commentOf comment ++ units "<form action=\"/dkmh/login.asp\">" ++ (units "<script>" ++ script ++ units "</script>") ++
    units "<input name=\"txtLoginID\"><input name='txtPassword'></form>"

/-- The first turns pass over the comment and read the form's tag. -/
theorem scan_loginPage : scan (loginPage [] []) = .skipped ((loginPage [] []).drop 7) ∧
    scan ((loginPage [] []).drop 7) = .tag (units "<form action=\"/dkmh/login.asp\">") ((loginPage [] []).drop 38) := by
  decide +kernel

theorem remainingTags_loginPage : remainingTags (loginPage [] []) =
    [units "<form action=\"/dkmh/login.asp\">", units "<input name=\"txtLoginID\">", units "<input name='txtPassword'>", units "</form>"] := by
  have hscript : scan ((loginPage [] []).drop 38) = .skipped ((loginPage [] []).drop 55) := by decide +kernel
  have hloginId : scan ((loginPage [] []).drop 55) = .tag (units "<input name=\"txtLoginID\">") ((loginPage [] []).drop 80) := by
    decide +kernel
  have hpassword : scan ((loginPage [] []).drop 80) = .tag (units "<input name='txtPassword'>") (units "</form>") := by decide +kernel
  have hclosing : scan (units "</form>") = .tag (units "</form>") [] := by decide +kernel
  rw [remainingTags_skipped scan_loginPage.1, remainingTags_tag scan_loginPage.2, remainingTags_skipped hscript, remainingTags_tag hloginId,
    remainingTags_tag hpassword, remainingTags_tag hclosing, remainingTags_finished rfl]

theorem hasNoScriptClosing_of_slash {inside : Text} (h : unit '/' ∉ inside) : HasNoScriptClosing inside := by
  rintro closing ⟨name, spaces, rfl, hname, -⟩ hwithin
  have hslash : unit '/' ∈ name.map lowerUnit := by
    rw [hname]
    decide
  obtain ⟨u, hu, hlower⟩ := List.mem_map.1 hslash
  rw [lowerUnit_eq_iff (by decide)] at hlower
  subst hlower
  exact h (hwithin.subset (List.mem_append_left _ (List.mem_append_left _ hu)))

/-- A form in the comment, or written by the script, does not hide the login form. -/
theorem detects_login_form_sample :
    hasCompleteLoginForm (loginPage [] []) = true ∧ hasCompleteLoginForm (loginPage (units "<form>") []) = true ∧
      hasCompleteLoginForm (loginPage [] (units "write('<form>')")) = true := by
  have hplain : hasCompleteLoginForm (loginPage [] []) = true := by
    refine (detects_login_form (loginPage [] [])).2.2.2.2 ?_
    rw [remainingTags_loginPage]
    exact ⟨[], _, [units "<input name=\"txtLoginID\">", units "<input name='txtPassword'>"], _, [], rfl, rfl, {
      opens := by decide +kernel
      action := hasLoginAction_iff.1 (by decide +kernel)
      plain := List.forall_mem_cons.2 ⟨by decide +kernel, List.forall_mem_cons.2 ⟨by decide +kernel, List.forall_mem_nil _⟩⟩
      loginId := ⟨_, List.mem_cons_self, isNamed_iff.1 (by decide +kernel)⟩
      password := ⟨_, List.mem_cons_of_mem _ List.mem_cons_self, isNamed_iff.1 (by decide +kernel)⟩
      closes := by decide +kernel }⟩
  refine ⟨hplain, ?_, ?_⟩
  · rw [← hplain]
    exact (detects_login_form (loginPage [] [])).2.1 [] [] [] (units "<form>") ((loginPage [] []).drop 7) (by decide) (by decide) (by decide)
      (by decide +kernel) (.start _)
  · rw [← hplain]
    have hcomment : (scan (loginPage [] [])).rest = some ((loginPage [] []).drop 7) := by rw [scan_loginPage.1]; rfl
    have hform : (scan ((loginPage [] []).drop 7)).rest = some ((loginPage [] []).drop 38) := by rw [scan_loginPage.2]; rfl
    have hopening : IsScriptOpening (units "<script>") := ⟨units "<script", [], by decide, by decide, by decide, by simp⟩
    have hend : IsScriptClosing (units "</script>") := ⟨units "</script", [], by decide, by decide, by simp⟩
    exact (detects_login_form (loginPage [] [])).2.2.1 ((loginPage [] []).take 38) [] (units "<script>") [] (units "write('<form>')")
      (units "</script>") ((loginPage [] []).drop 55) (by decide) hopening hend (hasNoScriptClosing_of_slash (by decide))
      (hasNoScriptClosing_of_slash (by decide)) (by decide +kernel) (.turn hcomment (.turn hform (.start _)))

end Hyeboard.LoginForm
