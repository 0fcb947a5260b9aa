import Mathlib.Data.Bool.AllAny
import Mathlib.Data.List.Nodup
import Hyeboard.Lib.CodeUnits
import Hyeboard.Lib.Search
/-!
# The cookies of the portal client

`DaotaoClient` (`vnu/daotao-client.ts`) keeps its cookies as the header it sends, and
`mergeSetCookies` looks a cookie up in it as a substring. The header stands for a list of
cookies, and the entries of the responses for assignments to it.
-/

namespace Hyeboard.Daotao

/-! ## The client -/

/-- One entry of `mergeSetCookies`. -/
def mergeSetCookie (cookies entry : Text) : Text :=
  let nameValue := entry.takeWhile (· != unit ';')
  let name := nameValue.takeWhile (· != unit '=')
  if name.isEmpty then cookies
  else
    let cookieName := trim name ++ [unit '=']
    match indexOf cookieName cookies with
    | some idx =>
      cookies.take idx ++ trim nameValue ++
        match indexOf [unit ';'] (cookies.drop idx) with
        | some length => cookies.drop (idx + length)
        | none => []
    | none => if cookies.isEmpty then trim nameValue else cookies ++ unit ';' :: unit ' ' :: trim nameValue

def mergeSetCookies (cookies : Text) (setCookies : List Text) : Text := setCookies.foldl mergeSetCookie cookies

/-! ## What a header stands for -/

structure Cookie where
  name : Text
  value : Text
deriving DecidableEq, Repr

def Cookie.text (cookie : Cookie) : Text := cookie.name ++ unit '=' :: cookie.value

/-- Names without `=`, names and values without `;` and white space. -/
structure Cookie.Ok (cookie : Cookie) : Prop where
  named : cookie.name ≠ []
  name : ∀ u ∈ cookie.name, u ≠ unit '=' ∧ u ≠ unit ';' ∧ isSpaceUnit u = false
  value : ∀ u ∈ cookie.value, u ≠ unit ';' ∧ isSpaceUnit u = false

/-- Pairs joined by `; `. -/
def joinCookies : List Cookie → Text
  | [] => []
  | [cookie] => cookie.text
  | cookie :: rest => cookie.text ++ unit ';' :: unit ' ' :: joinCookies rest

/-- A pair of a header. -/
def parsePair (pair : Text) : Cookie :=
  let trimmed := trim pair
  ⟨trimmed.takeWhile (· != unit '='), (trimmed.dropWhile (· != unit '=')).drop 1⟩

/-- The cookies of a header. -/
def parseCookies (header : Text) : List Cookie := if header.isEmpty then [] else (header.splitOn (unit ';')).map parsePair

/-- The value is assigned to its name, in place or behind the others. -/
def assign (cookies : List Cookie) (cookie : Cookie) : List Cookie :=
  if cookies.any (·.name == cookie.name) then cookies.map fun other => if other.name == cookie.name then cookie else other
  else cookies ++ [cookie]

/-- An entry of a response: a cookie and its attributes. -/
structure SetCookie where
  cookie : Cookie
  attributes : Option Text

def SetCookie.text (entry : SetCookie) : Text :=
  entry.cookie.text ++ match entry.attributes with
    | some attributes => unit ';' :: attributes
    | none => []

/-- The first cookie whose text contains the name and `=` is the cookie of that name; or it only repeats a cookie that is there. -/
def Findable (cookies : List Cookie) (cookie : Cookie) : Prop :=
  ∀ found, cookies.find? (fun other => decide ((cookie.name ++ [unit '=']) <:+: other.text)) = some found → found.name = cookie.name ∨
    (cookie ∈ cookies ∧ ∃ front, found.text = front ++ cookie.text ∧ indexOf (cookie.name ++ [unit '=']) found.text = some front.length)

/-! ## Texts without white space -/

theorem trim_eq_self {t : Text} (h : ∀ u ∈ t, isSpaceUnit u = false) : trim t = t := by
  have hfront : t.dropWhile isSpaceUnit = t := by
    cases t with
    | nil => rfl
    | cons u rest => exact List.dropWhile_cons_of_neg (by simp [h u List.mem_cons_self])
  rw [trim, hfront, List.rdropWhile_eq_self_iff]
  intro hne
  simp [h _ (List.getLast_mem hne)]

theorem trim_cons_space {t : Text} (h : ∀ u ∈ t, isSpaceUnit u = false) : trim (unit ' ' :: t) = t := by
  have hspace : isSpaceUnit (unit ' ') = true := by decide
  have hfront : trim (unit ' ' :: t) = trim t := by
    rw [trim, List.dropWhile_cons_of_pos hspace, ← trim]
  rw [hfront, trim_eq_self h]

section
variable {cookie : Cookie}

theorem Cookie.Ok.space (h : cookie.Ok) : ∀ u ∈ cookie.text, isSpaceUnit u = false := by
  have hequals : isSpaceUnit (unit '=') = false := by decide
  simp only [Cookie.text, List.forall_mem_append, List.forall_mem_cons]
  exact ⟨fun u hu => (h.name u hu).2.2, hequals, fun u hu => (h.value u hu).2⟩

theorem Cookie.Ok.semicolon (h : cookie.Ok) : unit ';' ∉ cookie.text := by
  have hne : unit ';' ≠ unit '=' := by decide
  simp only [Cookie.text, List.mem_append, List.mem_cons, not_or]
  exact ⟨fun hmem => (h.name _ hmem).2.1 rfl, hne, fun hmem => (h.value _ hmem).1 rfl⟩

theorem all_ne {t : Text} {u : UInt16} (h : u ∉ t) : ∀ x ∈ t, (x != u) = true := by
  intro x hx
  rw [bne_iff_ne]
  rintro rfl
  exact h hx

theorem takeWhile_ne {t rest : Text} {u : UInt16} (h : u ∉ t) (hrest : rest.head? = none ∨ rest.head? = some u) :
    (t ++ rest).takeWhile (· != u) = t := by
  rw [List.takeWhile_append_of_pos (all_ne h)]
  cases rest with
  | nil => simp
  | cons x rest => simp_all

theorem dropWhile_ne {t rest : Text} {u : UInt16} (h : u ∉ t) (hrest : rest.head? = none ∨ rest.head? = some u) :
    (t ++ rest).dropWhile (· != u) = rest := by
  rw [List.dropWhile_append_of_pos (all_ne h)]
  cases rest with
  | nil => simp
  | cons x rest => simp_all

theorem Cookie.Ok.equals (h : cookie.Ok) : unit '=' ∉ cookie.name := fun hmem => (h.name _ hmem).1 rfl

theorem parsePair_text (h : cookie.Ok) : parsePair cookie.text = cookie := by
  have htrim := trim_eq_self h.space
  rw [parsePair]
  simp only [htrim]
  rw [Cookie.text, takeWhile_ne h.equals (.inr rfl), dropWhile_ne h.equals (.inr rfl)]
  rfl

theorem parsePair_space (h : cookie.Ok) : parsePair (unit ' ' :: cookie.text) = cookie := by
  have htrim := trim_cons_space h.space
  have hself := parsePair_text h
  rw [parsePair, trim_eq_self h.space] at hself
  rw [parsePair, htrim]
  exact hself

/-! ## Headers -/

variable {cookies : List Cookie}

theorem joinCookies_cons (cookie : Cookie) {rest : List Cookie} (h : rest ≠ []) :
    joinCookies (cookie :: rest) = cookie.text ++ unit ';' :: unit ' ' :: joinCookies rest := by
  cases rest with
  | nil => exact absurd rfl h
  | cons other rest => rfl

/-- The pieces of a header, the first of them without its space. -/
theorem splitOn_joinCookies (hok : ∀ cookie ∈ cookies, cookie.Ok) (hne : cookies ≠ []) :
    ((joinCookies cookies).splitOn (unit ';')).map parsePair = cookies ∧
      ((unit ' ' :: joinCookies cookies).splitOn (unit ';')).map parsePair = cookies := by
  induction cookies with
  | nil => exact absurd rfl hne
  | cons cookie rest ih =>
    rw [List.forall_mem_cons] at hok
    have hnot := hok.1.semicolon
    have hspaced : unit ';' ∉ unit ' ' :: cookie.text := by
      rw [List.mem_cons, not_or]
      exact ⟨by decide, hnot⟩
    cases rest with
    | nil =>
      rw [joinCookies, List.splitOn_eq_singleton hnot, List.splitOn_eq_singleton hspaced]
      simp only [List.map_cons, List.map_nil, parsePair_text hok.1, parsePair_space hok.1, and_self]
    | cons other rest =>
      obtain ⟨-, hrest⟩ := ih hok.2 (List.cons_ne_nil _ _)
      have hcons : unit ' ' :: joinCookies (cookie :: other :: rest) =
          (unit ' ' :: cookie.text) ++ unit ';' :: unit ' ' :: joinCookies (other :: rest) := rfl
      rw [hcons, joinCookies_cons cookie (List.cons_ne_nil _ _), List.splitOn_append_cons_self_of_not_mem hnot,
        List.splitOn_append_cons_self_of_not_mem hspaced]
      simp only [List.map_cons, hrest, parsePair_text hok.1, parsePair_space hok.1, and_self]

theorem joinCookies_ne_nil (hok : ∀ cookie ∈ cookies, cookie.Ok) (hne : cookies ≠ []) : joinCookies cookies ≠ [] := by
  cases cookies with
  | nil => exact absurd rfl hne
  | cons cookie rest =>
    have htext : cookie.text ≠ [] := List.append_ne_nil_of_right_ne_nil _ (List.cons_ne_nil _ _)
    cases rest with
    | nil => exact htext
    | cons other rest => exact List.append_ne_nil_of_left_ne_nil htext _

/-- A header of well-formed pairs stands for these pairs. -/
theorem parse_joinCookies (hok : ∀ cookie ∈ cookies, cookie.Ok) : parseCookies (joinCookies cookies) = cookies := by
  cases cookies with
  | nil => rfl
  | cons cookie rest =>
    have hne : joinCookies (cookie :: rest) ≠ [] := joinCookies_ne_nil hok (List.cons_ne_nil _ _)
    rw [parseCookies, if_neg (by rwa [List.isEmpty_iff]), (splitOn_joinCookies hok (List.cons_ne_nil _ _)).1]

/-! ## One entry -/

/-- What follows the found text stays from the next `;` on. -/
theorem drop_indexOf_eq_dropWhile (u : UInt16) (t : Text) :
    (match indexOf [u] t with
      | some length => t.drop length
      | none => []) = t.dropWhile (· != u) := by
  induction t with
  | nil => rfl
  | cons x rest ih =>
    rw [indexOf_cons]
    by_cases heq : u = x
    · subst heq
      rw [if_pos (by simp), List.dropWhile_cons_of_neg (by simp)]
      rfl
    · have hne : ¬ [u] <+: x :: rest := by simpa using heq
      rw [if_neg hne, List.dropWhile_cons_of_pos (by simpa using Ne.symm heq), ← ih]
      cases indexOf [u] rest with
      | none => rfl
      | some length => rfl

/-- An entry is looked up by its name, and its pair is put in. -/
theorem mergeSetCookie_text {entry : SetCookie} (hok : entry.cookie.Ok) (header : Text) :
    mergeSetCookie header entry.text =
      match indexOf (entry.cookie.name ++ [unit '=']) header with
      | some idx => header.take idx ++ entry.cookie.text ++ (header.drop idx).dropWhile (· != unit ';')
      | none => if header.isEmpty then entry.cookie.text else header ++ unit ';' :: unit ' ' :: entry.cookie.text := by
  have hpair : entry.text.takeWhile (· != unit ';') = entry.cookie.text := by
    rw [SetCookie.text]
    apply takeWhile_ne hok.semicolon
    cases entry.attributes with
    | none => exact .inl rfl
    | some attributes => exact .inr rfl
  have hname : entry.cookie.text.takeWhile (· != unit '=') = entry.cookie.name := by
    rw [Cookie.text]
    exact takeWhile_ne hok.equals (.inr rfl)
  have htrim : trim entry.cookie.name = entry.cookie.name := trim_eq_self fun u hu => (hok.name u hu).2.2
  rw [mergeSetCookie]
  simp only [hpair, hname, htrim, trim_eq_self hok.space]
  rw [if_neg (by simpa using hok.named)]
  cases indexOf (entry.cookie.name ++ [unit '=']) header with
  | none => rfl
  | some idx =>
    simp only [← List.drop_drop, drop_indexOf_eq_dropWhile]

/-- The needle. -/
def Cookie.needle (cookie : Cookie) : Text := cookie.name ++ [unit '=']

theorem Cookie.needle_ne_nil (cookie : Cookie) : cookie.needle ≠ [] := List.append_ne_nil_of_right_ne_nil _ (List.cons_ne_nil _ _)

theorem Cookie.Ok.needle (h : cookie.Ok) : unit ';' ∉ cookie.needle ∧ unit ' ' ∉ cookie.needle := by
  have hne : unit ';' ≠ unit '=' ∧ unit ' ' ≠ unit '=' ∧ isSpaceUnit (unit ' ') = true := by decide
  simp only [Cookie.needle, List.mem_append, List.mem_singleton, not_or]
  refine ⟨⟨fun hmem => (h.name _ hmem).2.1 rfl, hne.1⟩, fun hmem => ?_, hne.2.1⟩
  rw [(h.name _ hmem).2.2] at hne
  cases hne.2.2

/-- The pairs in front of a pair. -/
def leading (front : List Cookie) : Text := front.flatMap fun other => other.text ++ [unit ';', unit ' ']

/-- The pairs behind a pair. -/
def trailing : List Cookie → Text
  | [] => []
  | back => unit ';' :: unit ' ' :: joinCookies back

theorem joinCookies_split (front : List Cookie) (found : Cookie) (back : List Cookie) :
    joinCookies (front ++ found :: back) = leading front ++ (found.text ++ trailing back) := by
  induction front with
  | nil =>
    cases back with
    | nil => simp [joinCookies, leading, trailing]
    | cons other back => rfl
  | cons other front ih =>
    rw [List.cons_append, joinCookies_cons other (by simp), ih, leading, leading, List.flatMap_cons]
    simp

/-- Behind pairs that do not contain the needle the search goes on. -/
theorem indexOf_leading (hok : cookie.Ok) {front : List Cookie} (hfront : ∀ other ∈ front, ¬ cookie.needle <:+: other.text) (t : Text) :
    indexOf cookie.needle (leading front ++ t) = (indexOf cookie.needle t).map (· + (leading front).length) := by
  induction front with
  | nil => simp [leading]
  | cons other front ih =>
    rw [List.forall_mem_cons] at hfront
    have hnil : ¬ cookie.needle <:+: [] := by
      rw [List.infix_nil]
      exact cookie.needle_ne_nil
    have hcons : leading (other :: front) ++ t = other.text ++ unit ';' :: ([] ++ unit ' ' :: (leading front ++ t)) := by
      simp [leading]
    have hlength : (leading (other :: front)).length = other.text.length + 2 + (leading front).length := by
      simp [leading]
      omega
    rw [hcons, indexOf_append_sep cookie.needle_ne_nil hok.needle.1 hfront.1, indexOf_append_sep cookie.needle_ne_nil hok.needle.2 hnil,
      ih hfront.2, Option.map_map, Option.map_map, hlength]
    congr 1
    funext i
    simp only [Function.comp_apply, List.length_nil]
    omega

/-- A name that no pair contains is appended. -/
theorem merge_absent {entry : SetCookie} (hok : entry.cookie.Ok) (hcookies : ∀ other ∈ cookies, other.Ok)
    (h : ∀ other ∈ cookies, ¬ entry.cookie.needle <:+: other.text) :
    mergeSetCookie (joinCookies cookies) entry.text = joinCookies (cookies ++ [entry.cookie]) := by
  rw [mergeSetCookie_text hok, ← Cookie.needle]
  rcases List.eq_nil_or_concat cookies with rfl | ⟨front, last, rfl⟩
  · have hnone : indexOf entry.cookie.needle [] = none := by
      rw [indexOf_eq_none, List.infix_nil]
      exact entry.cookie.needle_ne_nil
    simp only [joinCookies, hnone]
    rfl
  · rw [List.concat_eq_append] at h hcookies ⊢
    rw [List.forall_mem_append, List.forall_mem_singleton] at h
    have hnone : indexOf entry.cookie.needle last.text = none := indexOf_eq_none.2 h.2
    have hne : joinCookies (front ++ [last]) ≠ [] := joinCookies_ne_nil hcookies (by simp)
    have hsearch : indexOf entry.cookie.needle (joinCookies (front ++ [last])) = none := by
      rw [joinCookies_split, indexOf_leading hok h.1, trailing, List.append_nil, hnone]
      rfl
    have hempty : (joinCookies (front ++ [last])).isEmpty = false := by simpa using hne
    simp only [hsearch, hempty]
    rw [List.append_assoc, List.singleton_append, joinCookies_split, joinCookies_split]
    simp [trailing, joinCookies]

/-- In the first pair that contains the name, the text from there on is replaced. -/
theorem merge_present {entry : SetCookie} {front back : List Cookie} {found : Cookie} {i : Nat} (hok : entry.cookie.Ok) (hfound : found.Ok)
    (hfront : ∀ other ∈ front, ¬ entry.cookie.needle <:+: other.text) (hi : indexOf entry.cookie.needle found.text = some i) :
    mergeSetCookie (joinCookies (front ++ found :: back)) entry.text =
      leading front ++ (found.text.take i ++ entry.cookie.text ++ trailing back) := by
  have hle : i ≤ found.text.length := (lt_length_of_indexOf entry.cookie.needle_ne_nil hi).le
  have hsearch : indexOf entry.cookie.needle (joinCookies (front ++ found :: back)) = some (i + (leading front).length) := by
    rw [joinCookies_split, indexOf_leading hok hfront, indexOf_append_of_some entry.cookie.needle_ne_nil hi]
    rfl
  have hbehind : unit ';' ∉ found.text.drop i := fun hmem => hfound.semicolon (List.mem_of_mem_drop hmem)
  have hcut : (found.text.drop i ++ trailing back).dropWhile (· != unit ';') = trailing back := by
    apply dropWhile_ne hbehind
    cases back with
    | nil => exact .inl rfl
    | cons other back => exact .inr rfl
  rw [mergeSetCookie_text hok, ← Cookie.needle]
  simp only [hsearch]
  rw [joinCookies_split, Nat.add_comm, List.take_length_add_append, List.drop_length_add_append, List.take_append_of_le_length hle,
    List.drop_append_of_le_length hle, hcut]
  simp

/-- The pair keeps its name, and the value of the entry ends its value. -/
theorem changed_pair {found : Cookie} {i : Nat} (hok : cookie.Ok) (hfound : found.Ok) (hi : indexOf cookie.needle found.text = some i) :
    ∃ value, found.text.take i ++ cookie.text = (Cookie.mk found.name value).text ∧ (Cookie.mk found.name value).Ok := by
  obtain ⟨tail, htail⟩ := prefix_drop_of_indexOf hi
  have htext : found.text = found.text.take i ++ (cookie.name ++ unit '=' :: tail) := by
    have happend := List.take_append_drop i found.text
    rw [← htail, Cookie.needle, List.append_assoc, List.singleton_append] at happend
    exact happend.symm
  -- the first `=` of the pair is not behind that of the needle
  have hstart : found.name ++ [unit '='] <+: found.text.take i ++ cookie.name ++ [unit '='] := by
    have hleft : found.name ++ [unit '='] <+: found.text := ⟨found.value, by rw [Cookie.text, List.append_assoc]; rfl⟩
    have hright : found.text.take i ++ cookie.name ++ [unit '='] <+: found.text := by
      refine ⟨tail, ?_⟩
      conv_rhs => rw [htext]
      simp
    rcases List.prefix_or_prefix_of_prefix hleft hright with h | h
    · exact h
    · rcases List.prefix_concat_iff.1 h with heq | hshort
      · rw [heq]
      · exact absurd (hshort.subset (by simp)) hfound.equals
  obtain ⟨middle, hmiddle⟩ := hstart
  have hspaces : ∀ u ∈ middle, u ≠ unit ';' ∧ isSpaceUnit u = false := by
    intro u hu
    have hmem : u ∈ found.text := by
      rw [htext]
      have hu' : u ∈ found.text.take i ++ cookie.name ++ [unit '='] := hmiddle ▸ List.mem_append_right _ hu
      simp only [List.mem_append, List.mem_cons, List.not_mem_nil, or_false] at hu' ⊢
      tauto
    exact ⟨fun heq => hfound.semicolon (heq ▸ hmem), hfound.space u hmem⟩
  refine ⟨middle ++ cookie.value, ?_, hfound.named, hfound.name, ?_⟩
  · have hcookie : cookie.text = cookie.name ++ ([unit '='] ++ cookie.value) := rfl
    have hchanged : (Cookie.mk found.name (middle ++ cookie.value)).text = found.name ++ ([unit '='] ++ (middle ++ cookie.value)) := rfl
    rw [hcookie, hchanged, ← List.append_assoc cookie.name, ← List.append_assoc, ← List.append_assoc, ← hmiddle]
    simp only [List.append_assoc]
  · rw [List.forall_mem_append]
    exact ⟨hspaces, hok.value⟩

theorem infix_text_of_name {other : Cookie} (h : other.name = cookie.name) : cookie.needle <:+: other.text := by
  refine ⟨[], other.value, ?_⟩
  rw [Cookie.needle, Cookie.text, h]
  simp

theorem assign_of_mem (hnodup : (cookies.map (·.name)).Nodup) (hmem : cookie ∈ cookies) : assign cookies cookie = cookies := by
  have hany : cookies.any (·.name == cookie.name) = true := List.any_eq_true.2 ⟨cookie, hmem, beq_self_eq_true _⟩
  rw [assign, if_pos hany]
  conv_rhs => rw [← List.map_id cookies]
  apply List.map_congr_left
  intro other hother
  by_cases hname : other.name = cookie.name
  · rw [if_pos (by simpa using hname)]
    exact (List.inj_on_of_nodup_map hnodup hother hmem hname).symm
  · rw [if_neg (by simpa using hname)]
    rfl

/-- Cookies of other names stay as they are. -/
theorem map_other (h : ∀ other ∈ cookies, other.name ≠ cookie.name) :
    cookies.map (fun other => if other.name == cookie.name then cookie else other) = cookies := by
  conv_rhs => rw [← List.map_id cookies]
  apply List.map_congr_left
  intro other hother
  rw [if_neg (by simpa using h other hother)]
  rfl

/-- One entry comes to its assignment exactly when its cookie can be found. -/
theorem merge_step {entry : SetCookie} (hok : entry.cookie.Ok) (hcookies : ∀ other ∈ cookies, other.Ok)
    (hnodup : (cookies.map (·.name)).Nodup) :
    (Findable cookies entry.cookie → mergeSetCookie (joinCookies cookies) entry.text = joinCookies (assign cookies entry.cookie)) ∧
      (¬ Findable cookies entry.cookie →
        parseCookies (mergeSetCookie (joinCookies cookies) entry.text) ≠ assign cookies entry.cookie) := by
  cases hfind : cookies.find? (fun other => decide (entry.cookie.needle <:+: other.text)) with
  | none =>
    have habsent : ∀ other ∈ cookies, ¬ entry.cookie.needle <:+: other.text := by simpa using List.find?_eq_none.1 hfind
    have hnew : cookies.any (·.name == entry.cookie.name) = false := by
      rw [List.any_eq_false]
      intro other hother heq
      exact habsent other hother (infix_text_of_name (by simpa using heq))
    have hfindable : Findable cookies entry.cookie := by
      intro found hsome
      rw [← Cookie.needle, hfind] at hsome
      cases hsome
    rw [assign, hnew]
    exact ⟨fun _ => merge_absent hok hcookies habsent, fun hnot => absurd hfindable hnot⟩
  | some found =>
    obtain ⟨hmember, front, back, rfl, hfront⟩ := List.find?_eq_some_iff_append.1 hfind
    rw [List.forall_mem_append, List.forall_mem_cons] at hcookies
    obtain ⟨hfrontOk, hfound, hbackOk⟩ := hcookies
    have habsent : ∀ other ∈ front, ¬ entry.cookie.needle <:+: other.text := by simpa using hfront
    obtain ⟨i, hi⟩ : ∃ i, indexOf entry.cookie.needle found.text = some i := by
      rw [← Option.isSome_iff_exists, Option.isSome_iff_ne_none]
      intro hnone
      exact indexOf_eq_none.1 hnone (of_decide_eq_true hmember)
    obtain ⟨value, hvalue, hchangedOk⟩ := changed_pair hok hfound hi
    have hmerge : mergeSetCookie (joinCookies (front ++ found :: back)) entry.text = joinCookies (front ++ ⟨found.name, value⟩ :: back) := by
      rw [merge_present hok hfound habsent hi, hvalue, joinCookies_split]
    rw [hmerge]
    have hfindable : Findable (front ++ found :: back) entry.cookie ↔ found.name = entry.cookie.name ∨
        (entry.cookie ∈ front ++ found :: back ∧ ∃ start, found.text = start ++ entry.cookie.text ∧
          indexOf entry.cookie.needle found.text = some start.length) := by
      rw [Findable, ← Cookie.needle, hfind]
      simp
    rw [hfindable]
    by_cases hname : found.name = entry.cookie.name
    · have hzero : indexOf entry.cookie.needle found.text = some 0 := by
        have hstart : entry.cookie.needle <+: found.text := by
          rw [Cookie.text, hname]
          exact ⟨found.value, by rw [Cookie.needle, List.append_assoc]; rfl⟩
        cases htext : found.text with
        | nil => rw [htext, List.prefix_nil] at hstart; exact absurd hstart entry.cookie.needle_ne_nil
        | cons u rest => rw [indexOf_cons, ← htext, if_pos hstart]
      rw [hi, Option.some_inj] at hzero
      rw [hzero, List.take_zero, List.nil_append] at hvalue
      have hcookie : Cookie.mk found.name value = entry.cookie := by
        rw [← parsePair_text hchangedOk, ← hvalue, parsePair_text hok]
      have hassign : assign (front ++ found :: back) entry.cookie = front ++ entry.cookie :: back := by
        rw [List.map_append, List.map_cons, List.nodup_append, List.nodup_cons] at hnodup
        have hback : ∀ other ∈ back, other.name ≠ entry.cookie.name :=
          fun other hother heq => hnodup.2.1.1 (hname ▸ heq ▸ List.mem_map_of_mem hother)
        have hfront' : ∀ other ∈ front, other.name ≠ entry.cookie.name :=
          fun other hother heq => habsent other hother (infix_text_of_name heq)
        rw [assign, if_pos (by simp [hname]), List.map_append, List.map_cons, map_other hfront', map_other hback]
        simp [hname]
      rw [hassign, hcookie]
      exact ⟨fun _ => rfl, fun hnot => absurd (.inl hname) hnot⟩
    · constructor
      · rintro (heq | ⟨hmem, start, hstart, hlength⟩)
        · exact absurd heq hname
        · rw [hi, Option.some_inj] at hlength
          have hsame : Cookie.mk found.name value = found := by
            have htext : found.text.take i ++ entry.cookie.text = found.text := by rw [hlength, hstart, List.take_left]
            rw [← parsePair_text hchangedOk, ← hvalue, htext, parsePair_text hfound]
          rw [hsame, assign_of_mem hnodup hmem]
      · intro hnot hparse
        have hchanged : ∀ other ∈ front ++ ⟨found.name, value⟩ :: back, other.Ok := by
          rw [List.forall_mem_append, List.forall_mem_cons]
          exact ⟨hfrontOk, hchangedOk, hbackOk⟩
        rw [parse_joinCookies hchanged] at hparse
        apply hnot
        right
        cases hany : (front ++ found :: back).any (·.name == entry.cookie.name) with
        | false =>
          rw [assign, hany] at hparse
          have hlengths := congrArg List.length hparse
          simp at hlengths
        | true =>
          rw [assign, if_pos hany, List.map_append, List.map_cons, if_neg (by simpa using hname)] at hparse
          obtain ⟨hsameFront, hrest⟩ := List.append_inj hparse (by rw [List.length_map])
          obtain ⟨hsame, hsameBack⟩ := List.cons.inj hrest
          refine ⟨?_, found.text.take i, ?_, ?_⟩
          · obtain ⟨other, hother, heq⟩ := List.any_eq_true.1 hany
            have hmap := List.mem_map_of_mem (f := fun other : Cookie => if other.name == entry.cookie.name then entry.cookie else other) hother
            rw [if_pos heq, List.map_append, List.map_cons, if_neg (by simpa using hname), ← hsameFront, ← hsameBack] at hmap
            exact hmap
          · rw [hvalue, hsame]
          · rw [hi, List.length_take, Nat.min_eq_left (lt_length_of_indexOf entry.cookie.needle_ne_nil hi).le]

/-! ## Any number of entries -/

def assignAll (cookies assigned : List Cookie) : List Cookie := assigned.foldl assign cookies

theorem assign_ok (hcookies : ∀ other ∈ cookies, other.Ok) (hok : cookie.Ok) : ∀ other ∈ assign cookies cookie, other.Ok := by
  intro other hother
  rw [assign] at hother
  split at hother
  · obtain ⟨earlier, hearlier, rfl⟩ := List.mem_map.1 hother
    split
    · exact hok
    · exact hcookies earlier hearlier
  · rcases List.mem_append.1 hother with hmem | hmem
    · exact hcookies other hmem
    · rw [List.mem_singleton.1 hmem]
      exact hok

theorem names_assign (hnodup : (cookies.map (·.name)).Nodup) : ((assign cookies cookie).map (·.name)).Nodup := by
  rw [assign]
  split
  · have hnames : (cookies.map fun other => if other.name == cookie.name then cookie else other).map (·.name) = cookies.map (·.name) := by
      rw [List.map_map]
      apply List.map_congr_left
      intro other _
      by_cases hname : other.name = cookie.name
      · simp [hname]
      · simp [hname]
    rw [hnames]
    exact hnodup
  · rename_i hany
    rw [List.map_append, List.nodup_append]
    refine ⟨hnodup, List.nodup_singleton _, ?_⟩
    intro name hname other hother heq
    obtain ⟨earlier, hearlier, rfl⟩ := List.mem_map.1 hname
    apply hany
    rw [List.any_eq_true]
    exact ⟨earlier, hearlier, by simpa [heq] using hother⟩

end

/-- Behind each entry the header stands for the cookies with their values assigned, exactly when each entry's cookie can be found in the
cookies in front of it. -/
theorem merge_assigns_iff (cookies : List Cookie) (hcookies : ∀ cookie ∈ cookies, cookie.Ok) (hnodup : (cookies.map (·.name)).Nodup)
    (entries : List SetCookie) (hentries : ∀ entry ∈ entries, entry.cookie.Ok) :
    (∀ front, front <+: entries →
      parseCookies (mergeSetCookies (joinCookies cookies) (front.map (·.text))) = assignAll cookies (front.map (·.cookie))) ↔
    ∀ front entry, front ++ [entry] <+: entries → Findable (assignAll cookies (front.map (·.cookie))) entry.cookie := by
  induction entries generalizing cookies with
  | nil =>
    constructor
    · intro _ front entry hstart
      simp at hstart
    · intro _ front hstart
      rw [List.prefix_nil.1 hstart]
      exact parse_joinCookies hcookies
  | cons entry rest ih =>
    rw [List.forall_mem_cons] at hentries
    have hnext := ih (assign cookies entry.cookie) (assign_ok hcookies hentries.1) (names_assign hnodup) hentries.2
    obtain ⟨hfound, hlost⟩ := merge_step hentries.1 hcookies hnodup
    constructor
    · intro hall
      have hfindable : Findable cookies entry.cookie := by
        by_contra hnot
        exact hlost hnot (hall [entry] (by simp))
      intro front other hstart
      cases front with
      | nil =>
        rw [List.nil_append, List.cons_prefix_cons] at hstart
        rw [hstart.1]
        exact hfindable
      | cons first front =>
        rw [List.cons_append, List.cons_prefix_cons] at hstart
        obtain ⟨rfl, hstart⟩ := hstart
        refine hnext.1 (fun later hlater => ?_) front other hstart
        have hstep := hall (first :: later) (by rwa [List.cons_prefix_cons, eq_self, true_and])
        rw [List.map_cons, mergeSetCookies, List.foldl_cons, hfound hfindable] at hstep
        exact hstep
    · intro hall front hstart
      have hfindable : Findable cookies entry.cookie := hall [] entry (by simp)
      cases front with
      | nil => exact parse_joinCookies hcookies
      | cons first front =>
        rw [List.cons_prefix_cons] at hstart
        obtain ⟨rfl, hstart⟩ := hstart
        rw [List.map_cons, mergeSetCookies, List.foldl_cons, hfound hfindable]
        refine hnext.2 (fun later other hlater => ?_) front hstart
        exact hall (first :: later) other (by rwa [List.cons_append, List.cons_prefix_cons, eq_self, true_and])

/-! ## A name that ends another -/

def sid : Cookie := ⟨units "SID", units "1"⟩

def ident : Cookie := ⟨units "ID", units "2"⟩

/-- `ID=3; path=/`. -/
def identEntry : SetCookie := ⟨⟨units "ID", units "3"⟩, some (units " path=/")⟩

theorem sample_ok : sid.Ok ∧ ident.Ok ∧ identEntry.cookie.Ok :=
  have hok : ∀ cookie : Cookie, cookie.name ≠ [] → (cookie.name.all fun u => u ≠ unit '=' ∧ u ≠ unit ';' ∧ isSpaceUnit u = false) = true →
      (cookie.value.all fun u => u ≠ unit ';' ∧ isSpaceUnit u = false) = true → cookie.Ok :=
    fun _ hnamed hname hvalue => ⟨hnamed, List.all_iff_forall_prop.1 hname, List.all_iff_forall_prop.1 hvalue⟩
  ⟨hok sid (by decide) (by decide) (by decide), hok ident (by decide) (by decide) (by decide),
    hok identEntry.cookie (by decide) (by decide) (by decide)⟩

theorem merge_assigns_iff_sample :
    (∀ front, front <+: [identEntry] →
      parseCookies (mergeSetCookies (joinCookies [ident, sid]) (front.map (·.text))) = assignAll [ident, sid] (front.map (·.cookie))) ↔
    ∀ front entry, front ++ [entry] <+: [identEntry] → Findable (assignAll [ident, sid] (front.map (·.cookie))) entry.cookie := by
  obtain ⟨hsid, hident, hentry⟩ := sample_ok
  exact merge_assigns_iff [ident, sid] (by simp [hsid, hident]) (by decide) [identEntry] (by simp [hentry])

/-- `SID=1; ID=2` and `ID=3` make `SID=3; ID=2`. -/
theorem merge_mixed_up : ¬ ∀ (cookies : List Cookie) (entries : List SetCookie), (∀ cookie ∈ cookies, cookie.Ok) →
    (cookies.map (·.name)).Nodup → (∀ entry ∈ entries, entry.cookie.Ok) →
    parseCookies (mergeSetCookies (joinCookies cookies) (entries.map (·.text))) = assignAll cookies (entries.map (·.cookie)) := by
  intro hall
  obtain ⟨hsid, hident, hentry⟩ := sample_ok
  have hmerged := hall [sid, ident] [identEntry] (by simp [hsid, hident]) (by decide) (by simp [hentry])
  exact absurd hmerged (by decide +kernel)

end Hyeboard.Daotao
