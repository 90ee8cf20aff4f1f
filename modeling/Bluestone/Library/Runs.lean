/-
# `Bluestone.Library.Runs` — labelled systems, their runs, and what a run keeps

A `System` has initial states and labelled steps.  `Reach M ok s` says that `s`
is reached by a run all of whose steps meet the condition `ok`, which speaks
about the state before the step and the label, never about the state after it.
`Reach M always s` is plain reachability.

* `Reach.invariant`: what holds initially and is kept by every step that meets
  the condition holds in every state reached.
* `track` adds a history that the system itself never reads; a tracked run is a
  run of the system, and back (`reach_track_fst`, `exists_reach_track`).
* `AtMost p n` bounds how many indices satisfy `p` without counting them
  exactly: one index entering costs one (`AtMost.enter`), one leaving gives one
  back (`AtMost.leave`).
-/
import Mathlib.Data.Finset.Card

namespace Runs

universe u v w

/-- A labelled transition system. -/
structure System (S : Type u) (E : Type v) where
  init : S → Prop
  step : S → E → S → Prop

/-- The condition every step meets. -/
def always {S : Type u} {E : Type v} : S → E → Prop := fun _ _ => True

/-- The states reached by runs whose steps all meet `ok`. -/
inductive Reach {S : Type u} {E : Type v} (M : System S E) (ok : S → E → Prop) : S → Prop
  | init {s : S} : M.init s → Reach M ok s
  | step {s s' : S} {e : E} : Reach M ok s → ok s e → M.step s e s' → Reach M ok s'

section
variable {S : Type u} {E : Type v} {M : System S E} {ok : S → E → Prop}

/-- What holds initially and is kept by every step that meets the condition
holds in every state reached. -/
theorem Reach.invariant {I : S → Prop} (hinit : ∀ s, M.init s → I s) (hstep : ∀ s e s', I s → ok s e →
    M.step s e s' → I s') : ∀ {s : S}, Reach M ok s → I s := by
  intro s h
  induction h with
  | init h => exact hinit _ h
  | step _ hok hs ih => exact hstep _ _ _ ih hok hs

theorem Reach.next {s s' : S} {e : E} (h : Reach M ok s) (hs : M.step s e s')
    (hok : ok s e := by exact trivial) : Reach M ok s' :=
  .step h hok hs

end

/-! ## Histories -/

section
variable {S : Type u} {E : Type v} {G : Type w}

/-- `M` with a history: `start` is the history of an initial state and `upd`
extends it by one step.  The steps of `M` do not depend on it. -/
def System.track (M : System S E) (start : S → G) (upd : S → E → S → G → G) :
    System (S × G) E where
  init p := M.init p.1 ∧ p.2 = start p.1
  step p e p' := M.step p.1 e p'.1 ∧ p'.2 = upd p.1 e p'.1 p.2

/-- The condition of a tracked run, read off the system's part of the state. -/
def onState (ok : S → E → Prop) : S × G → E → Prop := fun p e => ok p.1 e

variable {M : System S E} {start : S → G} {upd : S → E → S → G → G} {ok : S → E → Prop}

theorem reach_track_fst {p : S × G} (h : Reach (M.track start upd) (onState ok) p) : Reach M ok p.1 := by
  induction h with
  | init h => exact .init h.1
  | step _ hok hs ih => exact .step ih hok hs.1

theorem exists_reach_track {s : S} (h : Reach M ok s) : ∃ g, Reach (M.track start upd) (onState ok) (s, g) := by
  induction h with
  | @init s h => exact ⟨start s, .init ⟨h, rfl⟩⟩
  | @step s s' e _ hok hs ih =>
    obtain ⟨g, hg⟩ := ih
    exact ⟨upd s e s' g, .step hg hok ⟨hs, rfl⟩⟩

/-- The invariant rule for a state together with its history, with an invariant
`J` already known of the states of the system. -/
theorem reach_track_invariant {I : S → G → Prop} {J : S → Prop} (hJ : ∀ {s}, Reach M ok s → J s)
    (hinit : ∀ s, M.init s → I s (start s)) (hstep : ∀ s e s' g, J s → I s g → ok s e → M.step s e s' →
    I s' (upd s e s' g)) : ∀ {p : S × G}, Reach (M.track start upd) (onState ok) p → I p.1 p.2 := by
  intro p h
  induction h with
  | @init p hi =>
    rw [hi.2]
    exact hinit _ hi.1
  | @step p p' e hr hok hs ih =>
    rw [hs.2]
    exact hstep _ _ _ _ (hJ (reach_track_fst hr)) ih hok hs.1

theorem Reach.next' {s s' : S} {g : G} {e : E} (h : Reach (M.track start upd) (onState ok) (s, g))
    (hs : M.step s e s') (hok : ok s e := by exact trivial) :
    Reach (M.track start upd) (onState ok) (s', upd s e s' g) :=
  .step h hok ⟨hs, rfl⟩

end

/-! ## Bounding without counting -/

section
variable {ι : Type u} [DecidableEq ι] {p q : ι → Prop} {n : Nat}

/-- At most `n` indices satisfy `p`. -/
def AtMost (p : ι → Prop) (n : Nat) : Prop :=
  ∃ S : Finset ι, S.card ≤ n ∧ ∀ i, p i → i ∈ S

omit [DecidableEq ι] in
theorem AtMost.mono (h : AtMost p n) {m : Nat} (hq : ∀ i, q i → p i) (hm : n ≤ m) : AtMost q m := by
  obtain ⟨S, hc, hS⟩ := h
  exact ⟨S, hc.trans hm, fun i hi => hS i (hq i hi)⟩

omit [DecidableEq ι] in
theorem atMost_of_none (h : ∀ i, ¬ p i) : AtMost p n :=
  ⟨∅, by simp, fun i hi => absurd hi (h i)⟩

omit [DecidableEq ι] in
theorem AtMost.none (h : AtMost p 0) : ∀ i, ¬ p i := by
  obtain ⟨S, hc, hS⟩ := h
  intro i hi
  have hempty : S = ∅ := Finset.card_eq_zero.1 (Nat.le_zero.1 hc)
  exact absurd (hS i hi) (by simp [hempty])

theorem AtMost.enter (h : AtMost p n) (t : ι) (hq : ∀ i, q i → p i ∨ i = t) : AtMost q (n + 1) := by
  obtain ⟨S, hc, hS⟩ := h
  refine ⟨insert t S, (Finset.card_insert_le t S).trans (by omega), ?_⟩
  intro i hi
  rcases hq i hi with hp | rfl
  · exact Finset.mem_insert_of_mem (hS i hp)
  · exact Finset.mem_insert_self _ _

theorem AtMost.leave (h : AtMost p n) {t : ι} (ht : p t) (hq : ∀ i, q i → p i ∧ i ≠ t) :
    AtMost q (n - 1) := by
  obtain ⟨S, hc, hS⟩ := h
  refine ⟨S.erase t, ?_, ?_⟩
  · rw [Finset.card_erase_of_mem (hS t ht)]
    omega
  · intro i hi
    exact Finset.mem_erase.2 ⟨(hq i hi).2, hS i (hq i hi).1⟩

end

end Runs
