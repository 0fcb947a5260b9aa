import Hyeboard.SingleFlight.Effects
/-!
# What the single flight keeps

The queue of the signal holds the callers that are blocked, the lock is that of the
caller that works, and a caller that was there when a result was stored has not
worked and has not given up. Every effect keeps it so, in its place.
-/

namespace Hyeboard.SingleFlight

open ExpiringKeys

structure Caller.Ok (stored : List String) (c : Caller) : Prop where
  busy : c.phase.token? ≠ none → c.worked = true
  returned : ∀ serialized, c.phase = .returned serialized → c.worked = false → serialized ∈ stored
  saw : c.sawStore = true → c.worked = false ∧ c.phase ≠ .thrown

structure Sound (s : Flight) (clock : Nat) : Prop where
  queue : ∀ i, i ∈ s.queue ↔ (phaseAt s i).any Phase.isBlocked = true
  nodup : s.queue.Nodup
  fresh : ∀ i p token, phaseAt s i = some p → p.token? = some token → token < s.nextToken
  owner : ∀ i j p q token, phaseAt s i = some p → phaseAt s j = some q → p.token? = some token → q.token? = some token → i = j
  locked : ∀ i token since, phaseAt s i = some (.working token since) → s.lock = some ⟨token, some (since + s.lockTtlMs)⟩
  cached : ∀ entry, s.result = some entry → entry.value ∈ s.stored
  callers : ∀ c ∈ s.callers, c.Ok s.stored
  /-- Who waits for the signal of a result gets it. -/
  awake : s.result.get clock ≠ none → s.queue ≠ [] → ∃ i, (phaseAt s i).any Phase.isPushing = true

section
variable {s : Flight} {clock now caller : Nat} {c : Caller} {phase : Phase}

/-- Another caller is still to push its element. -/
def OtherPushes (s : Flight) (caller : Nat) : Prop := ∃ i, i ≠ caller ∧ (phaseAt s i).any Phase.isPushing = true

/-- A caller goes on from one phase to another. -/
theorem Sound.move (h : Sound s now) (hget : s.callers[caller]? = some c) {queue : List Nat} (hnodup : queue.Nodup)
    (hself : caller ∈ queue ↔ phase.isBlocked = true) (hothers : ∀ i, i ≠ caller → (i ∈ queue ↔ i ∈ s.queue))
    (htoken : ∀ token, phase.token? = some token → c.phase.token? = some token) (hworking : ∀ token since, phase ≠ .working token since)
    (hreturned : ∀ serialized, phase = .returned serialized → c.worked = false → serialized ∈ s.stored)
    (hthrown : phase = .thrown → c.sawStore = false) (hawake : s.result.get now ≠ none → queue ≠ [] → OtherPushes s caller)
    (signal : Key Nat) : Sound (setPhase { s with queue, signal } caller phase) now := by
  have hphase := phaseAt_of_get hget
  have hat : ∀ i, phaseAt (setPhase { s with queue, signal } caller phase) i = if caller = i then some phase else phaseAt s i :=
    phaseAt_put hget phase
  constructor
  · intro i
    rw [hat i]
    split
    case isTrue heq =>
      rw [← heq, Option.any_some]
      exact hself
    case isFalse hne => exact (hothers i (Ne.symm hne)).trans (h.queue i)
  · exact hnodup
  · intro i p token hi htaken
    rw [hat i] at hi
    split at hi
    case isTrue =>
      obtain rfl := Option.some.inj hi
      exact h.fresh caller _ token hphase (htoken token htaken)
    case isFalse => exact h.fresh i p token hi htaken
  · intro i j p q token hi hj hp hq
    rw [hat] at hi hj
    have howner := h.owner i j
    grind
  · intro i token since hi
    rw [hat] at hi
    split at hi
    case isTrue => exact absurd (Option.some.inj hi) (hworking token since)
    case isFalse => exact h.locked i token since hi
  · exact h.cached
  · intro d hmem
    have hok := h.callers c (List.mem_of_getElem? hget)
    rcases mem_setPhase (s := { s with queue, signal }) hget hmem with hmem | rfl
    · exact h.callers d hmem
    · refine ⟨fun htaken => hok.busy ?_, hreturned, fun hsaw => ⟨(hok.saw hsaw).1, fun heq => ?_⟩⟩
      · obtain ⟨token, heq⟩ := Option.ne_none_iff_exists'.1 htaken
        rw [htoken token heq]
        simp
      · rw [hthrown heq] at hsaw
        cases hsaw
  · intro hlives hsome
    obtain ⟨i, hne, hi⟩ := hawake hlives hsome
    refine ⟨i, ?_⟩
    rw [hat, if_neg hne.symm]
    exact hi

theorem Sound.otherPushes (h : Sound s now) (hget : s.callers[caller]? = some c) (hpushing : c.phase.isPushing = false)
    (hlives : s.result.get now ≠ none) (hsome : s.queue ≠ []) : OtherPushes s caller := by
  obtain ⟨i, hi⟩ := h.awake hlives hsome
  refine ⟨i, ?_, hi⟩
  rintro rfl
  rw [phaseAt_of_get hget, Option.any_some, hpushing] at hi
  cases hi

/-- It is not blocked before or after. -/
theorem Sound.put (h : Sound s now) (hget : s.callers[caller]? = some c) {old : Phase} (hphase : c.phase = old)
    (hold : old.isBlocked = false) (hnew : phase.isBlocked = false) (hpushing : old.isPushing = false)
    (htoken : ∀ token, phase.token? = some token → old.token? = some token) (hworking : ∀ token since, phase ≠ .working token since)
    (hreturned : ∀ serialized, phase = .returned serialized → c.worked = false → serialized ∈ s.stored)
    (hthrown : phase = .thrown → c.sawStore = false) (signal : Key Nat) : Sound (setPhase { s with signal } caller phase) now := by
  subst hphase
  have hout : caller ∉ s.queue := by
    rw [h.queue, phaseAt_of_get hget, Option.any_some, hold]
    simp
  exact h.move hget h.nodup (by simp [hout, hnew]) (fun _ _ => Iff.rfl) htoken hworking hreturned hthrown (h.otherPushes hget hpushing) signal

theorem Sound.later (h : Sound s clock) (hle : clock ≤ now) : Sound s now := by
  refine ⟨h.queue, h.nodup, h.fresh, h.owner, h.locked, h.cached, h.callers, fun hlives => h.awake fun hnone => hlives ?_⟩
  rw [Key.get, Option.map_eq_none_iff] at hnone ⊢
  exact Key.live_eq_none_of_le hle hnone

theorem Sound.goes (h : Sound s now) (hget : s.callers[caller]? = some c) {move : Move} (hgoes : Goes s now c move phase)
    (hlimit : move = .command → c.phase = .checking → s.lockTtlMs ≤ now - c.startedAt → c.sawStore = false) : Sound (setPhase s caller phase) now := by
  cases hgoes with
  | hit hphase hresult =>
    rename_i serialized
    have hstored : serialized ∈ s.stored := by
      rw [Key.get, Option.map_eq_some_iff] at hresult
      obtain ⟨entry, hlive, rfl⟩ := hresult
      exact h.cached entry (Key.live_eq_some.1 hlive).1
    exact h.put hget hphase rfl rfl rfl (by simp [Phase.token?]) (by simp)
      (fun other heq _ => Phase.returned.inj heq ▸ hstored) (by simp) s.signal
  | miss hphase hresult =>
    exact h.put hget hphase rfl rfl rfl (by simp [Phase.token?]) (by simp) (by simp) (by simp) s.signal
  | busy hphase hlock =>
    exact h.put hget hphase rfl rfl rfl (by simp [Phase.token?]) (by simp) (by simp) (by simp) s.signal
  | finished hphase =>
    exact h.put hget hphase rfl rfl rfl (by simp [Phase.token?]) (by simp) (by simp) (by simp) s.signal
  | failed hphase =>
    exact h.put hget hphase rfl rfl rfl (by simp [Phase.token?]) (by simp) (by simp) (by simp) s.signal
  | expired hphase hexpired =>
    exact h.put hget hphase rfl rfl rfl (by simp [Phase.token?]) (by simp) (by simp)
      (fun _ => hlimit rfl hphase hexpired) s.signal
  | waits hphase hwithin =>
    exact h.put hget hphase rfl rfl rfl (by simp [Phase.token?]) (by simp) (by simp) (by simp) s.signal

/-- A caller deletes no lock but its own. -/
theorem Sound.releases (h : Sound s now) (hget : s.callers[caller]? = some c) {token : Nat} {result : Option String}
    (hphase : c.phase = .releasing token result) : Sound (release s now caller token result) now := by
  have hworked : c.worked = true := (h.callers c (List.mem_of_getElem? hget)).busy (by rw [hphase]; simp [Phase.token?])
  have hsaw : c.sawStore = false := by
    rw [Bool.eq_false_iff]
    intro hsaw
    have hno := ((h.callers c (List.mem_of_getElem? hget)).saw hsaw).1
    rw [hworked] at hno
    cases hno
  have hunlocked : Sound { s with lock := if s.lock.get now = some token then none else s.lock } now := by
    refine ⟨h.queue, h.nodup, h.fresh, h.owner, fun i other since hi => ?_, h.cached, h.callers, h.awake⟩
    have hlock := h.locked i other since hi
    rw [if_neg, hlock]
    intro hown
    have hsame : other = token := by
      rw [hlock, Key.get_some] at hown
      split at hown
      · exact Option.some.inj hown
      · cases hown
    -- the caller would be at work and at the release at once
    have howner := h.owner i caller _ _ token hi (phaseAt_of_get hget) (by rw [hsame]; rfl) (by rw [hphase]; rfl)
    rw [howner] at hi
    have hboth := Option.some.inj (hi.symm.trans (phaseAt_of_get hget))
    rw [hphase] at hboth
    cases hboth
  unfold release
  refine hunlocked.put hget hphase rfl ?_ rfl ?_ ?_ ?_ (fun _ => hsaw) s.signal
  · cases result <;> rfl
  · cases result <;> simp [Phase.token?]
  · cases result <;> simp
  · intro serialized _ hno
    rw [hworked] at hno
    cases hno

theorem Sound.timesOut (h : Sound s now) (hget : s.callers[caller]? = some c) {timeoutAt : Nat} (hphase : c.phase = .blocked timeoutAt) :
    Sound (setPhase { s with queue := s.queue.filter (· != caller) } caller .getting) now := by
  refine h.move hget (h.nodup.filter _) (by simp [Phase.isBlocked]) (fun i hne => by simp [hne]) (by simp [Phase.token?]) (by simp)
    (by simp) (by simp) (fun hlives hsome => ?_) s.signal
  refine h.otherPushes hget (by rw [hphase]; rfl) hlives ?_
  rintro hnil
  rw [hnil] at hsome
  exact hsome rfl

theorem Sound.pushes (h : Sound s now) (hget : s.callers[caller]? = some c) {token : Nat} {serialized : String}
    (hphase : c.phase = .pushing token serialized) (hqueue : s.queue = []) (signal : Key Nat) :
    Sound (setPhase { s with signal } caller (.releasing token (some serialized))) now := by
  refine h.move hget h.nodup ?_ (fun _ _ => Iff.rfl) ?_ (by simp) (by simp) (by simp) (fun _ hsome => absurd hqueue hsome) signal
  · simp [hqueue, Phase.isBlocked]
  · simp [hphase, Phase.token?]

theorem Sound.wakes (h : Sound s now) (hget : s.callers[caller]? = some c) {token : Nat} {serialized : String}
    (hphase : c.phase = .pushing token serialized) {first : Nat} {rest : List Nat} (hqueue : s.queue = first :: rest)
    (hwaits : s.result.get now ≠ none → rest ≠ [] → OtherPushes s caller) (signal : Key Nat) :
    Sound (setPhase (setPhase { s with queue := rest, signal } first .getting) caller (.releasing token (some serialized))) now := by
  have hblocked : (phaseAt s first).any Phase.isBlocked = true := (h.queue first).1 (hqueue ▸ List.mem_cons_self)
  obtain ⟨d, hfirst, hd⟩ : ∃ d, s.callers[first]? = some d ∧ d.phase.isBlocked = true := by
    simpa [phaseAt, Option.any_eq_true] using hblocked
  have hne : first ≠ caller := by
    rintro rfl
    obtain rfl : c = d := Option.some.inj (hget.symm.trans hfirst)
    rw [hphase] at hd
    cases hd
  have hnodup : (first :: rest).Nodup := hqueue ▸ h.nodup
  rw [List.nodup_cons] at hnodup
  -- the caller itself is still to push
  have hpushes : OtherPushes s first := ⟨caller, hne.symm, by rw [phaseAt_of_get hget, hphase]; rfl⟩
  have hwoken : Sound (setPhase { s with queue := rest, signal } first .getting) now :=
    h.move hfirst hnodup.2 (by simp [hnodup.1, Phase.isBlocked]) (fun i hother => by simp [hqueue, hother]) (by simp [Phase.token?])
      (by simp) (by simp) (by simp) (fun _ _ => hpushes) signal
  have hget' : (setPhase { s with queue := rest, signal } first .getting).callers[caller]? = some c := by
    rw [setPhase, List.getElem?_modify_ne _ _ hne]
    exact hget
  have hout : caller ∉ rest := by
    intro hmem
    have hself := (h.queue caller).1 (hqueue ▸ List.mem_cons_of_mem _ hmem)
    rw [phaseAt_of_get hget, hphase] at hself
    cases hself
  refine hwoken.move hget' hwoken.nodup (iff_of_false hout (by simp [Phase.isBlocked])) (fun _ _ => Iff.rfl) (by simp [hphase, Phase.token?]) (by simp)
    (by simp) (by simp) (fun hlives hsome => ?_) signal
  obtain ⟨i, hother, hi⟩ := hwaits hlives hsome
  refine ⟨i, hother, ?_⟩
  rw [phaseAt_put (s := { s with queue := rest, signal }) hfirst]
  split
  case isTrue heq =>
    rw [← heq, phaseAt_of_get hfirst, Option.any_some] at hi
    cases hphase : d.phase <;> simp_all [Phase.isBlocked, Phase.isPushing]
  case isFalse => exact hi

theorem Sound.blocks (h : Sound s now) (hget : s.callers[caller]? = some c) {timeoutMs timeoutAt : Nat} (hphase : c.phase = .popping timeoutMs)
    (hwaits : s.result.get now ≠ none → ∃ i, (phaseAt s i).any Phase.isPushing = true) :
    Sound (setPhase { s with queue := s.queue ++ [caller] } caller (.blocked timeoutAt)) now := by
  have hout : caller ∉ s.queue := by
    rw [h.queue, phaseAt_of_get hget, hphase]
    simp [Phase.isBlocked]
  have hnodup : (s.queue ++ [caller]).Nodup := List.nodup_append.2 ⟨h.nodup, List.nodup_singleton _, fun i hi j hj heq =>
    hout (List.mem_singleton.1 hj ▸ heq ▸ hi)⟩
  refine h.move hget hnodup (by simp [Phase.isBlocked]) (fun i hne => by simp [hne]) (by simp [Phase.token?]) (by simp) (by simp) (by simp)
    (fun hlives _ => ?_) s.signal
  obtain ⟨i, hi⟩ := hwaits hlives
  refine ⟨i, ?_, hi⟩
  rintro rfl
  rw [phaseAt_of_get hget, hphase] at hi
  cases hi

theorem Sound.acquires (h : Sound s now) (hget : s.callers[caller]? = some c) (hphase : c.phase = .acquiring)
    (hfree : ∀ i token since, phaseAt s i ≠ some (.working token since)) (hsaw : c.sawStore = false)  :
    Sound { s with
      lock := Key.setPx s.nextToken now s.lockTtlMs
      nextToken := s.nextToken + 1
      callers := s.callers.modify caller fun c => { c with phase := .working s.nextToken now, worked := true } } now := by
  have hat : ∀ i, ((s.callers.modify caller fun c => { c with phase := .working s.nextToken now, worked := true })[i]?).map (·.phase) =
      if caller = i then some (.working s.nextToken now) else phaseAt s i := by
    intro i
    rw [List.getElem?_modify]
    split
    case isTrue heq =>
      subst heq
      rw [hget]
      rfl
    case isFalse => cases hi : s.callers[i]? <;> simp [phaseAt, hi]
  have hbefore := phaseAt_of_get hget
  rw [hphase] at hbefore
  constructor
  · intro i
    simp only [phaseAt, hat]
    rw [h.queue]
    split
    case isTrue heq => simp [← heq, hbefore, Phase.isBlocked]
    case isFalse => rfl
  · exact h.nodup
  · intro i p token hi htaken
    simp only [phaseAt, hat] at hi
    split at hi
    case isTrue =>
      obtain rfl := Option.some.inj hi
      obtain rfl := Option.some.inj htaken
      exact Nat.lt_succ_self _
    case isFalse => exact Nat.lt_succ_of_lt (h.fresh i p token hi htaken)
  · intro i j p q token hi hj hp hq
    simp only [phaseAt, hat] at hi hj
    have howner := h.owner i j p q token
    have hfresh := h.fresh
    grind [Phase.token?]
  · intro i token since hi
    simp only [phaseAt, hat] at hi
    split at hi
    case isTrue =>
      cases hi
      rfl
    case isFalse => exact absurd hi (hfree i token since)
  · exact h.cached
  · intro d hmem
    obtain ⟨i, hi⟩ := List.mem_iff_getElem?.1 hmem
    rw [List.getElem?_modify] at hi
    obtain ⟨e, he, rfl⟩ := Option.map_eq_some_iff.1 hi
    split
    case isTrue heq =>
      subst heq
      obtain rfl : c = e := Option.some.inj (hget.symm.trans he)
      exact ⟨by simp, by simp, by simp [hsaw]⟩
    case isFalse => exact h.callers e (List.mem_of_getElem? he)
  · intro hlives hsome
    obtain ⟨i, hne, hi⟩ := h.otherPushes hget (by rw [hphase]; rfl) hlives hsome
    refine ⟨i, ?_⟩
    simp only [phaseAt, hat]
    rw [if_neg hne.symm]
    exact hi

theorem Caller.Ok.noteStore {stored : List String} (h : c.Ok stored) (serialized : String) (hthrown : c.worked = true ∨ c.phase ≠ .thrown) :
    c.noteStore.Ok (serialized :: stored) := by
  refine ⟨h.busy, fun other heq hno => List.mem_cons_of_mem _ (h.returned other heq hno), fun hsaw => ?_⟩
  have hworked : c.worked = false := by
    by_contra htrue
    rw [Bool.not_eq_false] at htrue
    have hbefore : c.sawStore = true := by simpa [Caller.noteStore, htrue] using hsaw
    rw [(h.saw hbefore).1] at htrue
    cases htrue
  refine ⟨hworked, hthrown.resolve_left ?_⟩
  rw [hworked]
  simp

theorem Sound.stores (h : Sound s now) (hget : s.callers[caller]? = some c) {token : Nat} {serialized : String}
    (hphase : c.phase = .storing token serialized) (hthrown : ∀ d ∈ s.callers, d.worked = true ∨ d.phase ≠ .thrown) :
    Sound (store s now caller token serialized) now := by
  have hworked : c.worked = true := (h.callers c (List.mem_of_getElem? hget)).busy (by rw [hphase]; simp [Phase.token?])
  have hbefore := phaseAt_of_get hget
  rw [hphase] at hbefore
  have hget' : (s.callers.map Caller.noteStore)[caller]? = some c.noteStore := by
    rw [List.getElem?_map, hget]
    rfl
  have hat : ∀ i, phaseAt (store s now caller token serialized) i = if caller = i then some (.pushing token serialized) else phaseAt s i := by
    intro i
    rw [store, phaseAt_put hget']
    split
    case isTrue => rfl
    case isFalse =>
      simp only [phaseAt, List.getElem?_map, Option.map_map]
      rfl
  constructor
  · intro i
    rw [hat, show (store s now caller token serialized).queue = s.queue from rfl, h.queue]
    split
    case isTrue heq => simp [← heq, hbefore, Phase.isBlocked]
    case isFalse => rfl
  · exact h.nodup
  · intro i p other hi htaken
    rw [hat] at hi
    split at hi
    case isTrue =>
      obtain rfl := Option.some.inj hi
      exact h.fresh caller _ other hbefore htaken
    case isFalse => exact h.fresh i p other hi htaken
  · intro i j p q other hi hj hp hq
    rw [hat] at hi hj
    have howner := h.owner i j
    grind [Phase.token?]
  · intro i other since hi
    rw [hat] at hi
    split at hi
    case isTrue => cases hi
    case isFalse => exact h.locked i other since hi
  · intro entry hentry
    obtain rfl := Option.some.inj hentry
    exact List.mem_cons_self
  · intro d hmem
    have hnoted : ∀ e ∈ s.callers, e.noteStore.Ok (serialized :: s.stored) := fun e he => (h.callers e he).noteStore serialized (hthrown e he)
    rcases mem_setPhase (s := { s with callers := s.callers.map Caller.noteStore }) hget' hmem with hmem | rfl
    · obtain ⟨e, he, rfl⟩ := List.mem_map.1 hmem
      exact hnoted e he
    · have hok := hnoted c (List.mem_of_getElem? hget)
      exact ⟨fun _ => hworked, by simp, fun hsaw => ⟨(hok.saw hsaw).1, by simp⟩⟩
  · exact fun _ _ => ⟨caller, by rw [hat, if_pos rfl]; rfl⟩

theorem Sound.run (h : Sound s now) :
    Sound { s with callers := s.callers ++ [{ startedAt := now, phase := .getting, worked := false, sawStore := false }] } now := by
  have hat : ∀ i, ((s.callers ++ [{ startedAt := now, phase := .getting, worked := false, sawStore := false }])[i]?).map (·.phase) =
      if i = s.callers.length then some .getting else phaseAt s i := by
    intro i
    rw [phaseAt, List.getElem?_append]
    grind
  have hlast : phaseAt s s.callers.length = none := by simp [phaseAt]
  constructor
  · intro i
    simp only [phaseAt, hat]
    rw [h.queue]
    split
    case isTrue heq => simp [heq, hlast, Phase.isBlocked]
    case isFalse => rfl
  · exact h.nodup
  · intro i p token hi htaken
    simp only [phaseAt, hat] at hi
    split at hi
    case isTrue =>
      obtain rfl := Option.some.inj hi
      cases htaken
    case isFalse => exact h.fresh i p token hi htaken
  · intro i j p q token hi hj hp hq
    simp only [phaseAt, hat] at hi hj
    have howner := h.owner i j p q token
    grind [Phase.token?]
  · intro i token since hi
    simp only [phaseAt, hat] at hi
    split at hi
    case isTrue => cases hi
    case isFalse => exact h.locked i token since hi
  · exact h.cached
  · intro d hmem
    rcases List.mem_append.1 hmem with hmem | hmem
    · exact h.callers d hmem
    · obtain rfl := List.mem_singleton.1 hmem
      exact ⟨by simp [Phase.token?], by simp, by simp⟩
  · intro hlives hsome
    obtain ⟨i, hi⟩ := h.awake hlives hsome
    refine ⟨i, ?_⟩
    simp only [phaseAt, hat]
    rw [if_neg]
    · exact hi
    · rintro rfl
      rw [hlast] at hi
      cases hi

end

end Hyeboard.SingleFlight
