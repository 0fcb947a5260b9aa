import Hyeboard.GradesHtml.Grammar
/-!
# What the sanitizer hides

A page falls into pieces: the text that stays, the selectors, and the invocations
that are replaced. The sanitizer shows just these pieces, as long as no invocation
begins inside another one.
-/

namespace Hyeboard.GradesHtml

inductive Piece where
  | text (source : Text)
  /-- The content of a third argument. -/
  | selector (source : Text)
  /-- An invocation without a third argument, or an unclosed one. -/
  | invocation (source : Text)
deriving DecidableEq, Repr

namespace Piece

def source : Piece → Text
  | text source | selector source | invocation source => source

/-- What the browser gets. -/
def shown : Piece → Text
  | text source => source
  | selector _ => []
  | invocation _ => units "void 0"

/-- Whatever the selector is. -/
def masked : Piece → Piece
  | selector _ => selector []
  | piece => piece

end Piece

/-! ## The invocations of a page -/

/-- The name as a word of its own, in any case, white space and a parenthesis. -/
structure Call (html : Text) (index openingParenthesis : Nat) : Prop where
  boundary : index ≠ 0 → ∀ u, html[index - 1]? = some u → isWordUnit u = false
  name : (slice html index (index + 11)).map lowerUnit = units "detailpoint"
  behind : index + 11 ≤ openingParenthesis
  spaces : Spaces (slice html (index + 11) openingParenthesis)
  parenthesis : html[openingParenthesis]? = some (unit '(')

/-- The first one from an index on. -/
structure FirstCall (html : Text) (start index openingParenthesis : Nat) : Prop where
  call : Call html index openingParenthesis
  from_ : start ≤ index
  first : ∀ earlier other, start ≤ earlier → earlier < index → ¬ Call html earlier other

/-- The end of the tag, or of the page. -/
structure HandlerEnd (html : Text) (openingParenthesis stop : Nat) : Prop where
  behind : openingParenthesis ≤ stop
  inside : ∀ u ∈ slice html openingParenthesis stop, u ≠ unit '>'
  stops : html[stop]? = some (unit '>') ∨ stop = html.length

/-- What is handled for an invocation, up to where, and the pieces it falls into. -/
inductive Becomes (html : Text) (index openingParenthesis : Nat) : Nat → List Piece → Prop
  | hidden {closingParenthesis first last : Nat} (hcloses : Closes html openingParenthesis closingParenthesis)
      (hthird : ThirdArgument html openingParenthesis closingParenthesis first last) :
      Becomes html index openingParenthesis (closingParenthesis + 1)
        [.text (slice html index first), .selector (slice html first last), .text (slice html last (closingParenthesis + 1))]
  | replaced {closingParenthesis : Nat} (hcloses : Closes html openingParenthesis closingParenthesis)
      (hthird : ∀ first last, ¬ ThirdArgument html openingParenthesis closingParenthesis first last) :
      Becomes html index openingParenthesis (closingParenthesis + 1) [.invocation (slice html index (closingParenthesis + 1))]
  | unclosed {stop : Nat} (hcloses : ∀ closingParenthesis, ¬ Closes html openingParenthesis closingParenthesis)
      (hstop : HandlerEnd html openingParenthesis stop) :
      Becomes html index openingParenthesis stop [.invocation (slice html index stop)]

/-- The pieces of a page from an index on: each search goes on behind what is handled for the invocation before. -/
inductive FallsInto (html : Text) : Nat → List Piece → Prop
  | last {start : Nat} (hnone : ∀ index openingParenthesis, start ≤ index → ¬ Call html index openingParenthesis) :
      FallsInto html start [.text (html.drop start)]
  | next {start index openingParenthesis stop : Nat} {pieces rest : List Piece} (hfirst : FirstCall html start index openingParenthesis)
      (hbecomes : Becomes html index openingParenthesis stop pieces) (hrest : FallsInto html stop rest) :
      FallsInto html start (.text (slice html start index) :: (pieces ++ rest))

/-- The outermost invocations, those that such a search comes to. -/
inductive Outermost (html : Text) : Nat → Nat → Prop
  | here {start index openingParenthesis : Nat} (hfirst : FirstCall html start index openingParenthesis) :
      Outermost html start openingParenthesis
  | later {start index openingParenthesis stop other : Nat} {pieces : List Piece} (hfirst : FirstCall html start index openingParenthesis)
      (hbecomes : Becomes html index openingParenthesis stop pieces) (hlater : Outermost html stop other) : Outermost html start other

/-- From an index on, no invocation begins behind the opening parenthesis of a closed outermost one, up to the closing one. -/
def FlatFrom (html : Text) (start : Nat) : Prop :=
  ∀ openingParenthesis closingParenthesis, Outermost html start openingParenthesis → Closes html openingParenthesis closingParenthesis →
    ∀ index other, openingParenthesis < index → index ≤ closingParenthesis → ¬ Call html index other

abbrev Flat (html : Text) : Prop := FlatFrom html 0

/-! ## The searches find the invocations -/

section
variable {html : Text} {start index openingParenthesis : Nat}

theorem invocationAt_iff : invocationAt html index = some openingParenthesis ↔ Call html index openingParenthesis := by
  have hplain : isSpaceUnit (unit '(') = false := by decide
  constructor
  · intro h
    simp only [invocationAt] at h
    split at h
    case isFalse => cases h
    case isTrue hname =>
      split at h
      case isFalse => cases h
      case isTrue hparenthesis =>
        obtain rfl := Option.some.inj h
        simp only [Bool.and_eq_true, Bool.or_eq_true, decide_eq_true_eq, Bool.not_eq_true', Option.any_eq_false] at hname
        obtain ⟨lead, hlead, hsource, hskip⟩ := skipSpaces_sound html (index + 11)
        refine ⟨fun hindex u hu => ?_, hname.2, by omega, ?_, hparenthesis⟩
        · have hword := hname.1.resolve_left hindex u hu
          simpa using hword
        · rwa [hskip, slice_of_drop hsource]
  · intro h
    have hskip : skipSpaces html (index + 11) = openingParenthesis := by
      have hlength : (slice html (index + 11) openingParenthesis).length = openingParenthesis - (index + 11) :=
        length_slice (Nat.le_of_lt (List.getElem?_eq_some_iff.1 h.parenthesis).1)
      rw [skipSpaces_eq (drop_eq_slice_append h.behind h.parenthesis) h.spaces hplain, hlength]
      exact Nat.add_sub_cancel' h.behind
    have hboundary : (index = 0 || ! (html[index - 1]?).any isWordUnit) = true := by
      rw [Bool.or_eq_true, decide_eq_true_eq, Bool.not_eq_true', Option.any_eq_false]
      by_cases hindex : index = 0
      · exact .inl hindex
      · exact .inr fun u hu => by simp [h.boundary hindex u hu]
    simp only [invocationAt, hboundary, h.name, hskip, h.parenthesis, decide_true, Bool.and_true, if_true]

theorem Call.index_lt (h : Call html index openingParenthesis) : index < html.length := by
  have hlt := (List.getElem?_eq_some_iff.1 h.parenthesis).1
  have hbehind := h.behind
  omega

theorem nextInvocation_eq_none :
    nextInvocation html start = none ↔ ∀ index openingParenthesis, start ≤ index → ¬ Call html index openingParenthesis := by
  rw [nextInvocation, List.findSome?_eq_none_iff]
  simp only [Option.map_eq_none_iff, List.mem_range'_1]
  constructor
  · intro h index openingParenthesis hstart hcall
    have hlt := hcall.index_lt
    have hnone := h index (by omega)
    rw [invocationAt_iff.2 hcall] at hnone
    cases hnone
  · intro h index hindex
    cases hat : invocationAt html index with
    | none => rfl
    | some openingParenthesis => exact absurd (invocationAt_iff.1 hat) (h index openingParenthesis hindex.1)

theorem FirstCall.unique {other otherParenthesis : Nat} (h : FirstCall html start index openingParenthesis)
    (hother : FirstCall html start other otherParenthesis) : index = other ∧ openingParenthesis = otherParenthesis := by
  have hindex : index = other := by
    rcases Nat.lt_trichotomy index other with hlt | heq | hlt
    · exact absurd h.call (hother.first _ _ h.from_ hlt)
    · exact heq
    · exact absurd hother.call (h.first _ _ hother.from_ hlt)
  subst hindex
  have hsame := invocationAt_iff.2 h.call
  rw [invocationAt_iff.2 hother.call] at hsame
  exact ⟨rfl, (Option.some.inj hsame).symm⟩

theorem nextInvocation_iff : nextInvocation html start = some (index, openingParenthesis) ↔ FirstCall html start index openingParenthesis := by
  have hfound : ∀ {index openingParenthesis}, nextInvocation html start = some (index, openingParenthesis) →
      FirstCall html start index openingParenthesis := by
    intro index openingParenthesis h
    obtain ⟨before, other, after, hrange, heq, hbefore⟩ := List.findSome?_eq_some_iff.1 h
    obtain ⟨_, hat, hpair⟩ := Option.map_eq_some_iff.1 heq
    cases hpair
    have hmem : index ∈ List.range' start (html.length - start) := by rw [hrange]; simp
    have hsorted : (before ++ index :: after).Pairwise (· < ·) := hrange ▸ List.pairwise_lt_range'
    refine ⟨invocationAt_iff.1 hat, (List.mem_range'_1.1 hmem).1, fun earlier otherParenthesis hstart hlt hcall => ?_⟩
    have hlength := hcall.index_lt
    have hearlier : earlier ∈ before ++ index :: after := by
      rw [← hrange, List.mem_range'_1]
      omega
    rcases List.mem_append.1 hearlier with hmem | hmem
    · have hnone := hbefore earlier hmem
      rw [invocationAt_iff.2 hcall] at hnone
      cases hnone
    · rcases List.mem_cons.1 hmem with rfl | hmem
      · exact Nat.lt_irrefl _ hlt
      · have hlater := (List.pairwise_cons.1 (List.pairwise_append.1 hsorted).2.1).1 earlier hmem
        omega
  constructor
  · exact hfound
  · intro h
    cases hnext : nextInvocation html start with
    | none => exact absurd h.call (nextInvocation_eq_none.1 hnext _ _ h.from_)
    | some found =>
      obtain ⟨hindex, hparenthesis⟩ := h.unique (hfound hnext)
      rw [hindex, hparenthesis]

theorem HandlerEnd.le_length {stop : Nat} (h : HandlerEnd html openingParenthesis stop) : stop ≤ html.length := by
  rcases h.stops with hat | rfl
  · exact Nat.le_of_lt (List.getElem?_eq_some_iff.1 hat).1
  · exact Nat.le_refl _

theorem HandlerEnd.not_lt {stop other : Nat} (h : HandlerEnd html openingParenthesis stop) (hother : HandlerEnd html openingParenthesis other) :
    ¬ stop < other := by
  intro hlt
  rcases h.stops with hat | rfl
  · exact hother.inside _ (mem_slice h.behind hlt hat) rfl
  · exact absurd hother.le_length (Nat.not_le.2 hlt)

theorem handlerEnd_spec (hlength : openingParenthesis ≤ html.length) : HandlerEnd html openingParenthesis (handlerEnd html openingParenthesis) := by
  have hle : (html.drop openingParenthesis).findIdx (· = unit '>') ≤ (html.drop openingParenthesis).length := List.findIdx_le_length
  refine ⟨Nat.le_add_right _ _, fun u hu => ?_, ?_⟩
  · rw [slice, handlerEnd, Nat.add_sub_cancel_left] at hu
    obtain ⟨i, hi, rfl⟩ := List.mem_iff_getElem.1 hu
    rw [List.length_take] at hi
    have hnot := List.not_of_lt_findIdx (Nat.lt_of_lt_of_le hi (Nat.min_le_left _ _))
    simpa using hnot
  · rcases Nat.lt_or_eq_of_le hle with hlt | heq
    · left
      have hat := List.findIdx_getElem (w := hlt)
      rw [handlerEnd, ← List.getElem?_drop, List.getElem?_eq_getElem hlt]
      simpa using hat
    · right
      rw [handlerEnd, heq, List.length_drop]
      omega

theorem handlerEnd_iff {stop : Nat} (hlength : openingParenthesis ≤ html.length) :
    handlerEnd html openingParenthesis = stop ↔ HandlerEnd html openingParenthesis stop := by
  have hspec := handlerEnd_spec hlength
  constructor
  · rintro rfl
    exact hspec
  · intro h
    exact Nat.le_antisymm (Nat.not_lt.1 (h.not_lt hspec)) (Nat.not_lt.1 (hspec.not_lt h))

end

/-! ## One invocation after another -/

/-- What becomes of an invocation, by the scanners. -/
def becomes (html : Text) (index openingParenthesis : Nat) : Nat × List Piece :=
  match detailPointClosingParenthesis html openingParenthesis with
  | none => (handlerEnd html openingParenthesis, [.invocation (slice html index (handlerEnd html openingParenthesis))])
  | some closingParenthesis =>
    match thirdQuotedDetailPointArgument html openingParenthesis closingParenthesis with
    | none => (closingParenthesis + 1, [.invocation (slice html index (closingParenthesis + 1))])
    | some (first, last) =>
      (closingParenthesis + 1,
        [.text (slice html index first), .selector (slice html first last), .text (slice html last (closingParenthesis + 1))])

/-- The pieces, by the scanners. The fuel lasts, each search goes on behind the one before. -/
def piecesFrom (html : Text) : Nat → Nat → List Piece
  | 0, start => [.text (html.drop start)]
  | fuel + 1, start =>
    match nextInvocation html start with
    | none => [.text (html.drop start)]
    | some (index, openingParenthesis) =>
      .text (slice html start index) :: ((becomes html index openingParenthesis).2 ++ piecesFrom html fuel (becomes html index openingParenthesis).1)

def pieces (html : Text) : List Piece := piecesFrom html (html.length + 1) 0

/-- An invocation begins behind the parenthesis, up to the closing one. -/
def nests (html : Text) (openingParenthesis closingParenthesis : Nat) : Bool :=
  (List.range' (openingParenthesis + 1) (closingParenthesis - openingParenthesis)).any fun index => (invocationAt html index).isSome

def isFlatFrom (html : Text) : Nat → Nat → Bool
  | 0, _ => true
  | fuel + 1, start =>
    match nextInvocation html start with
    | none => true
    | some (index, openingParenthesis) =>
      (detailPointClosingParenthesis html openingParenthesis).all (fun closingParenthesis => !nests html openingParenthesis closingParenthesis) &&
        isFlatFrom html fuel (becomes html index openingParenthesis).1

def isFlat (html : Text) : Bool := isFlatFrom html (html.length + 1) 0

section
variable {html : Text} {start index openingParenthesis : Nat}

theorem becomes_iff (hcall : Call html index openingParenthesis) {stop : Nat} {pieces : List Piece} :
    Becomes html index openingParenthesis stop pieces ↔ becomes html index openingParenthesis = (stop, pieces) := by
  have hlength : openingParenthesis ≤ html.length := Nat.le_of_lt (List.getElem?_eq_some_iff.1 hcall.parenthesis).1
  constructor
  · intro h
    unfold becomes
    cases h with
    | hidden hcloses hthird =>
      rw [detailPointClosingParenthesis_iff.2 hcloses]
      simp only [(thirdQuotedDetailPointArgument_iff hcloses).2 hthird]
    | @replaced closingParenthesis hcloses hthird =>
      rw [detailPointClosingParenthesis_iff.2 hcloses]
      simp only [thirdQuotedDetailPointArgument_eq_none hcloses hthird]
    | unclosed hcloses hstop =>
      rw [detailPointClosingParenthesis_eq_none hcloses]
      simp only [(handlerEnd_iff hlength).2 hstop]
  · intro h
    unfold becomes at h
    cases hclosing : detailPointClosingParenthesis html openingParenthesis with
    | none =>
      simp only [hclosing, Prod.mk.injEq] at h
      obtain ⟨rfl, rfl⟩ := h
      refine .unclosed (fun closingParenthesis hcloses => ?_) (handlerEnd_spec hlength)
      rw [detailPointClosingParenthesis_iff.2 hcloses] at hclosing
      cases hclosing
    | some closingParenthesis =>
      have hcloses := detailPointClosingParenthesis_iff.1 hclosing
      cases hthird : thirdQuotedDetailPointArgument html openingParenthesis closingParenthesis with
      | none =>
        simp only [hclosing, hthird, Prod.mk.injEq] at h
        obtain ⟨rfl, rfl⟩ := h
        refine .replaced hcloses fun first last hargument => ?_
        rw [(thirdQuotedDetailPointArgument_iff hcloses).2 hargument] at hthird
        cases hthird
      | some third =>
        simp only [hclosing, hthird, Prod.mk.injEq] at h
        obtain ⟨rfl, rfl⟩ := h
        exact .hidden hcloses ((thirdQuotedDetailPointArgument_iff hcloses).1 hthird)

theorem becomes_spec (hcall : Call html index openingParenthesis) :
    Becomes html index openingParenthesis (becomes html index openingParenthesis).1 (becomes html index openingParenthesis).2 :=
  (becomes_iff hcall).2 rfl

theorem Becomes.bound (hcall : Call html index openingParenthesis) {stop : Nat} {pieces : List Piece}
    (h : Becomes html index openingParenthesis stop pieces) : openingParenthesis < stop ∧ stop ≤ html.length := by
  cases h with
  | hidden hcloses hthird =>
    exact ⟨Nat.lt_succ_of_lt hcloses.behind, (List.getElem?_eq_some_iff.1 hcloses.parenthesis).1⟩
  | replaced hcloses hthird =>
    exact ⟨Nat.lt_succ_of_lt hcloses.behind, (List.getElem?_eq_some_iff.1 hcloses.parenthesis).1⟩
  | unclosed hcloses hstop =>
    have hopening := List.getElem?_eq_some_iff.1 hcall.parenthesis
    refine ⟨Nat.lt_of_le_of_ne hstop.behind ?_, hstop.le_length⟩
    rintro rfl
    -- the parenthesis itself is no end of a tag
    rcases hstop.stops with hat | heq
    · rw [hcall.parenthesis] at hat
      revert hat
      decide
    · exact Nat.ne_of_lt hopening.1 heq

/-- The pieces are those of the grammar, and no others. -/
theorem fallsInto_iff (fuel : Nat) (hfuel : html.length < start + fuel) {l : List Piece} :
    FallsInto html start l ↔ l = piecesFrom html fuel start := by
  induction fuel generalizing start l with
  | zero =>
    have hnone : ∀ index openingParenthesis, start ≤ index → ¬ Call html index openingParenthesis := by
      intro index openingParenthesis hstart hcall
      have hlt := hcall.index_lt
      omega
    constructor
    · intro h
      cases h with
      | last => rfl
      | next hfirst => exact absurd hfirst.call (hnone _ _ hfirst.from_)
    · rintro rfl
      exact .last hnone
  | succ fuel ih =>
    rw [piecesFrom]
    cases hnext : nextInvocation html start with
    | none =>
      rw [nextInvocation_eq_none] at hnext
      constructor
      · intro h
        cases h with
        | last => rfl
        | next hfirst => exact absurd hfirst.call (hnext _ _ hfirst.from_)
      · rintro rfl
        exact .last hnext
    | some found =>
      obtain ⟨index, openingParenthesis⟩ := found
      have hfirst := nextInvocation_iff.1 hnext
      have hbecomes := becomes_spec hfirst.call
      have hbound := hbecomes.bound hfirst.call
      have hfrom := hfirst.from_
      have hbehind := hfirst.call.behind
      have hrest : ∀ {rest}, FallsInto html (becomes html index openingParenthesis).1 rest ↔ rest = _ := ih (by omega)
      simp only
      constructor
      · intro h
        cases h with
        | last hnone => exact absurd hfirst.call (hnone _ _ hfrom)
        | next hfirst' hbecomes' hrest' =>
          obtain ⟨rfl, rfl⟩ := hfirst.unique hfirst'
          rw [becomes_iff hfirst.call] at hbecomes'
          rw [hbecomes'] at hrest ⊢
          rw [hrest.1 hrest']
      · rintro rfl
        exact .next hfirst hbecomes (hrest.2 rfl)

theorem nests_eq_false {closingParenthesis : Nat} :
    nests html openingParenthesis closingParenthesis = false ↔
      ∀ index other, openingParenthesis < index → index ≤ closingParenthesis → ¬ Call html index other := by
  rw [nests, List.any_eq_false]
  constructor
  · intro h index other hopening hclosing hcall
    have hnone := h index (List.mem_range'_1.2 (by omega))
    rw [invocationAt_iff.2 hcall] at hnone
    exact hnone rfl
  · intro h index hmem hsome
    obtain ⟨other, hother⟩ := Option.isSome_iff_exists.1 hsome
    rw [List.mem_range'_1] at hmem
    exact h index other (by omega) (by omega) (invocationAt_iff.1 hother)

/-- A page is flat from an index on if its first invocation has no other one inside, and what is behind it is flat. -/
theorem flatFrom_next {stop : Nat} {l : List Piece} (hfirst : FirstCall html start index openingParenthesis)
    (hbecomes : Becomes html index openingParenthesis stop l) :
    FlatFrom html start ↔
      (∀ closingParenthesis, Closes html openingParenthesis closingParenthesis → nests html openingParenthesis closingParenthesis = false) ∧
        FlatFrom html stop := by
  constructor
  · intro h
    exact ⟨fun closingParenthesis hcloses => nests_eq_false.2 (h _ _ (.here hfirst) hcloses),
      fun other closingParenthesis houter => h other closingParenthesis (.later hfirst hbecomes houter)⟩
  · rintro ⟨hnests, hlater⟩ other closingParenthesis houter hcloses
    cases houter with
    | here hfirst' =>
      obtain ⟨rfl, rfl⟩ := hfirst.unique hfirst'
      exact nests_eq_false.1 (hnests _ hcloses)
    | later hfirst' hbecomes' hother =>
      obtain ⟨rfl, rfl⟩ := hfirst.unique hfirst'
      rw [becomes_iff hfirst.call] at hbecomes hbecomes'
      rw [hbecomes] at hbecomes'
      cases hbecomes'
      exact hlater _ _ hother hcloses

theorem flatFrom_of_none (hnone : ∀ index openingParenthesis, start ≤ index → ¬ Call html index openingParenthesis) : FlatFrom html start := by
  intro other closingParenthesis houter
  cases houter with
  | here hfirst => exact absurd hfirst.call (hnone _ _ hfirst.from_)
  | later hfirst => exact absurd hfirst.call (hnone _ _ hfirst.from_)

theorem isFlatFrom_iff (fuel : Nat) (hfuel : html.length < start + fuel) : isFlatFrom html fuel start = true ↔ FlatFrom html start := by
  induction fuel generalizing start with
  | zero =>
    refine ⟨fun _ => flatFrom_of_none fun index openingParenthesis hstart hcall => ?_, fun _ => rfl⟩
    have hlt := hcall.index_lt
    omega
  | succ fuel ih =>
    rw [isFlatFrom]
    cases hnext : nextInvocation html start with
    | none => exact ⟨fun _ => flatFrom_of_none (nextInvocation_eq_none.1 hnext), fun _ => rfl⟩
    | some found =>
      obtain ⟨index, openingParenthesis⟩ := found
      have hfirst := nextInvocation_iff.1 hnext
      have hbecomes := becomes_spec hfirst.call
      have hbound := hbecomes.bound hfirst.call
      have hfrom := hfirst.from_
      have hbehind := hfirst.call.behind
      simp only [Bool.and_eq_true, Option.all_eq_true, Bool.not_eq_true']
      rw [flatFrom_next hfirst hbecomes, ih (by omega)]
      simp only [detailPointClosingParenthesis_iff]

theorem isFlat_iff : isFlat html = true ↔ Flat html := isFlatFrom_iff _ (by omega)

instance : Decidable (Flat html) := decidable_of_iff _ isFlat_iff

/-! ## The cursor and the search -/

theorem nextInvocation_of_not_nests {closingParenthesis : Nat} (hlt : openingParenthesis < closingParenthesis)
    (h : nests html openingParenthesis closingParenthesis = false) :
    nextInvocation html (openingParenthesis + 1) = nextInvocation html (closingParenthesis + 1) := by
  rw [nests_eq_false] at h
  apply Option.ext
  rintro ⟨index, other⟩
  rw [nextInvocation_iff, nextInvocation_iff]
  constructor
  · intro hfirst
    refine ⟨hfirst.call, ?_, fun earlier otherParenthesis hstart => hfirst.first earlier otherParenthesis (by omega)⟩
    by_contra hinside
    exact h index other hfirst.from_ (by omega) hfirst.call
  · intro hfirst
    have hfrom := hfirst.from_
    refine ⟨hfirst.call, by omega, fun earlier otherParenthesis hstart hbefore hcall => ?_⟩
    by_cases hinside : earlier ≤ closingParenthesis
    · exact h earlier otherParenthesis hstart hinside hcall
    · exact hfirst.first earlier otherParenthesis (by omega) hbefore hcall

/-- The cursor is never ahead of the search by an invocation, so each one is found and handled once. -/
theorem sanitizeFrom_eq {cursor : Nat} {l : List Piece} (h : FallsInto html cursor l) (hflat : FlatFrom html cursor) (fuel : Nat)
    {lastIndex : Nat} (sanitized : Text) (hle : lastIndex ≤ cursor) (hfuel : html.length < lastIndex + fuel)
    (hnext : nextInvocation html lastIndex = nextInvocation html cursor) :
    sanitizeFrom html fuel lastIndex cursor sanitized = sanitized ++ l.flatMap Piece.shown := by
  induction h generalizing fuel lastIndex sanitized with
  | last hnone =>
    cases fuel with
    | zero => simp [sanitizeFrom, Piece.shown]
    | succ fuel =>
      rw [sanitizeFrom, hnext, nextInvocation_eq_none.2 hnone]
      simp [Piece.shown]
  | @next start index openingParenthesis stop pieces rest hfirst hbecomes hrest ih =>
    have hfrom := hfirst.from_
    have hbehind := hfirst.call.behind
    have hlength := hfirst.call.index_lt
    have hbound := hbecomes.bound hfirst.call
    obtain ⟨hnests, hlater⟩ := (flatFrom_next hfirst hbecomes).1 hflat
    cases fuel with
    | zero => omega
    | succ fuel =>
      rw [sanitizeFrom, hnext, nextInvocation_iff.2 hfirst]
      simp only
      cases hbecomes with
      | hidden hcloses hthird =>
        -- the search goes on inside the invocation, where it finds nothing
        have hsearch := nextInvocation_of_not_nests hcloses.behind (hnests _ hcloses)
        have hordered := hthird.behind
        rw [detailPointClosingParenthesis_iff.2 hcloses]
        simp only [(thirdQuotedDetailPointArgument_iff hcloses).2 hthird]
        rw [ih hlater fuel _ (by omega) (by omega) hsearch, ← slice_append_slice hfrom (by omega)]
        simp [Piece.shown]
      | @replaced closingParenthesis hcloses hthird =>
        have hsearch := nextInvocation_of_not_nests hcloses.behind (hnests _ hcloses)
        rw [detailPointClosingParenthesis_iff.2 hcloses]
        simp only [thirdQuotedDetailPointArgument_eq_none hcloses hthird]
        rw [ih hlater fuel _ (by omega) (by omega) hsearch]
        simp [Piece.shown]
      | unclosed hcloses hstop =>
        -- here the search goes on where the cursor is
        rw [detailPointClosingParenthesis_eq_none hcloses]
        simp only [(handlerEnd_iff (by omega)).2 hstop]
        rw [ih hlater fuel _ (Nat.le_refl _) (by omega) rfl]
        simp [Piece.shown]

/-- The pieces are what the page is made of. -/
theorem FallsInto.source {l : List Piece} (h : FallsInto html start l) : l.flatMap Piece.source = html.drop start := by
  induction h with
  | last => simp [Piece.source]
  | @next start index openingParenthesis stop pieces rest hfirst hbecomes _ ih =>
    have hbound := hbecomes.bound hfirst.call
    have hbehind := hfirst.call.behind
    have hpieces : pieces.flatMap Piece.source ++ html.drop stop = html.drop index := by
      cases hbecomes with
      | hidden hcloses hthird =>
        have hordered := hthird.behind
        have hinside := hthird.inside
        simp only [List.flatMap_cons, List.flatMap_nil, Piece.source, List.append_nil, List.append_assoc]
        rw [slice_append_drop (by omega), slice_append_drop hthird.ordered, slice_append_drop (by omega)]
      | replaced =>
        simp only [List.flatMap_cons, List.flatMap_nil, Piece.source, List.append_nil]
        rw [slice_append_drop (by omega)]
      | unclosed =>
        simp only [List.flatMap_cons, List.flatMap_nil, Piece.source, List.append_nil]
        rw [slice_append_drop (by omega)]
    rw [List.flatMap_cons, List.flatMap_append, ih, hpieces, Piece.source, slice_append_drop hfirst.from_]

theorem shown_masked (l : List Piece) : (l.map Piece.masked).flatMap Piece.shown = l.flatMap Piece.shown := by
  induction l with
  | nil => rfl
  | cons piece rest ih =>
    rw [List.map_cons, List.flatMap_cons, List.flatMap_cons, ih]
    cases piece <;> rfl

theorem sanitize_eq {l : List Piece} (hpieces : FallsInto html 0 l) (hflat : Flat html) :
    sanitizeGradesHtmlForBrowser html = l.flatMap Piece.shown :=
  sanitizeFrom_eq hpieces hflat (html.length + 1) [] (Nat.le_refl 0) (by omega) rfl

theorem fallsInto_pieces {l : List Piece} : FallsInto html 0 l ↔ l = pieces html := fallsInto_iff (html.length + 1) (by omega)

end

/-! ## What the browser gets -/

/-- A page falls into pieces in one way, and the sanitizer shows them but the selectors. Two pages that differ in their selectors look
the same. -/
theorem sanitize_hides (html : Text) (hflat : Flat html) :
    ∃ pieces, (∀ other, FallsInto html 0 other ↔ other = pieces) ∧
      sanitizeGradesHtmlForBrowser html = pieces.flatMap Piece.shown ∧ pieces.flatMap Piece.source = html ∧
      ∀ other otherPieces, Flat other → FallsInto other 0 otherPieces → otherPieces.map Piece.masked = pieces.map Piece.masked →
        sanitizeGradesHtmlForBrowser other = sanitizeGradesHtmlForBrowser html := by
  have hpieces : FallsInto html 0 (pieces html) := fallsInto_pieces.2 rfl
  refine ⟨pieces html, fun other => fallsInto_pieces, sanitize_eq hpieces hflat, hpieces.source, ?_⟩
  intro other otherPieces hother hfalls hsame
  rw [sanitize_eq hfalls hother, sanitize_eq hpieces hflat, ← shown_masked (pieces html), ← hsame, shown_masked]

def gradesRow (selector : String) : Text :=
  units ("<a onclick=\"detailPoint('123', 'it\\'s (8', '" ++ selector ++ "', '42')\">A</a> <a onclick=\"detailPoint(this)\">B</a>")

theorem sanitize_hides_row :
    sanitizeGradesHtmlForBrowser (gradesRow "00000000001") =
        units "<a onclick=\"detailPoint('123', 'it\\'s (8', '', '42')\">A</a> <a onclick=\"void 0\">B</a>" ∧
      sanitizeGradesHtmlForBrowser (gradesRow "2") = sanitizeGradesHtmlForBrowser (gradesRow "00000000001") := by
  obtain ⟨l, hfalls, hshown, -, hsame⟩ := sanitize_hides (gradesRow "00000000001") (by decide +kernel)
  have hpieces := (hfalls _).1 (fallsInto_pieces.2 rfl)
  refine ⟨?_, hsame _ _ (by decide +kernel) (fallsInto_pieces.2 rfl) ?_⟩
  · rw [hshown, ← hpieces]
    decide +kernel
  · rw [← hpieces]
    decide +kernel

/-- A name in the first argument, and the selector is shown. -/
def nestedRow : Text := units "detailPoint('detailPoint()','8','00000000001','42')"

theorem nested_shows_selector : ¬ ∀ html pieces, FallsInto html 0 pieces →
    sanitizeGradesHtmlForBrowser html = pieces.flatMap Piece.shown := by
  intro h
  have hnested := h nestedRow _ (fallsInto_pieces.2 rfl)
  revert hnested
  decide +kernel

/-- A page may nest and look right by chance: what is cut off behind the inner name is what replaces it. -/
theorem nested_by_chance : ∃ html pieces, ¬ Flat html ∧ FallsInto html 0 pieces ∧
    sanitizeGradesHtmlForBrowser html = pieces.flatMap Piece.shown :=
  ⟨units "detailPoint('detailPoint(','8','1','4')void 0", _, by decide +kernel, fallsInto_pieces.2 rfl, by decide +kernel⟩

end Hyeboard.GradesHtml
