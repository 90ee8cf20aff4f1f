/-
# `Bluestone.Library.Computed` — systems whose steps are computed

`computed init next` is the system whose steps a partial function gives.  A list of labels
then runs it (`runFrom`), with the condition on its steps checked on the way, and the state
the run ends in is reached (`exists_reach`).
-/
import Bluestone.Library.Runs

namespace Runs

universe u v

variable {S : Type u} {E : Type v} {init : S → Prop} {next : S → E → Option S} {ok : S → E → Prop}

/-- The system whose steps `next` computes. -/
def computed (init : S → Prop) (next : S → E → Option S) : System S E where
  init := init
  step s e s' := next s e = some s'

/-- The state after the labels, if every step can be made and meets the condition. -/
def runFrom (next : S → E → Option S) (ok : S → E → Prop) [∀ s e, Decidable (ok s e)] : S → List E → Option S
  | s, [] => some s
  | s, e :: es => if ok s e then (next s e).bind fun s' => runFrom next ok s' es else none

instance (s : S) (e : E) : Decidable (always s e) := isTrue trivial

theorem reach_runFrom [∀ s e, Decidable (ok s e)] {s s' : S} {es : List E} (h : Reach (computed init next) ok s)
    (hrun : runFrom next ok s es = some s') : Reach (computed init next) ok s' := by
  induction es generalizing s with
  | nil =>
    cases hrun
    exact h
  | cons e es ih =>
    rw [runFrom] at hrun
    split at hrun
    · rename_i hok
      obtain ⟨t, ht, hrest⟩ := Option.bind_eq_some_iff.1 hrun
      exact ih (.step h hok ht) hrest
    · cases hrun

theorem exists_reach [∀ s e, Decidable (ok s e)] {s : S} {es : List E} {p : S → Bool} (hs : init s)
    (hrun : (runFrom next ok s es).any p) : ∃ s', Reach (computed init next) ok s' ∧ p s' := by
  obtain ⟨s', hs', hp⟩ := (Option.any_eq_true _ _).1 hrun
  have hstart : Reach (computed init next) ok s := .init hs
  exact ⟨s', reach_runFrom hstart hs', hp⟩

end Runs
