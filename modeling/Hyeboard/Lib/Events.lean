import Hyeboard.Lib.Runs
/-!
# Events of a run

A machine whose calls are answered with the events they cause. Where the events
so far can be read off the state, a run emits just these.
-/

namespace Hyeboard

universe u v w
variable {S : Type u} {C : Type v} {E : Type w}

/-- The events of a trace, in order. -/
def emitted (trace : List (Step S C (List E))) : List E := trace.flatMap (·.result)

theorem emitted_snoc (trace : List (Step S C (List E))) (e : Step S C (List E)) :
    emitted (trace ++ [e]) = emitted trace ++ e.result := by
  simp [emitted]

variable {step : S → C → List E × S} {time : C → Nat} {ok : List (Step S C (List E)) → S → C → Prop} {init s : S}
variable {trace : List (Step S C (List E))} {clock : Nat}

end Hyeboard
