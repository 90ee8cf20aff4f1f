/-
# `Bluestone.Library.Orbits` — going round a cycle

A function that brings every value back to itself within a number of steps cuts its type
into cycles.  `orbit` goes round the cycle of a value and stops where it began; that a value
lies on the cycle of another (`Same`) is what `mem_orbit` decides.
-/
import Mathlib.Dynamics.PeriodicPts.Defs

namespace Orbits

open Function

/-- A function all of whose cycles have at most `bound` values. -/
structure Cycles (α : Type) where
  next : α → α
  bound : Nat
  returns : ∀ a, ∃ n, 0 < n ∧ n ≤ bound ∧ next^[n] a = a

/-- The values after `b` on the way to `a`, with `rounds` steps to go at most. -/
def loop {α : Type} [DecidableEq α] (next : α → α) (a : α) : Nat → α → List α
  | 0, _ => []
  | rounds + 1, b => if b = a then [] else b :: loop next a rounds (next b)

/-- The values of the cycle of `a`, itself first. -/
def orbit {α : Type} [DecidableEq α] (c : Cycles α) (a : α) : List α :=
  a :: loop c.next a c.bound (c.next a)

variable {α : Type} {c : Cycles α} {a b : α}

def Same (c : Cycles α) (a b : α) : Prop := ∃ n, c.next^[n] a = b

theorem Same.symm (h : Same c a b) : Same c b a := by
  obtain ⟨n, rfl⟩ := h
  obtain ⟨p, hpos, -, hreturn⟩ := c.returns a
  -- on from `b` to the end of the `n`-th round
  have hround : c.next^[p * n] a = a := (IsPeriodicPt.mul_const (show IsPeriodicPt c.next p a from hreturn) n)
  refine ⟨p * n - n, ?_⟩
  rw [← iterate_add_apply, Nat.sub_add_cancel (Nat.le_mul_of_pos_left n hpos), hround]

variable [DecidableEq α]

theorem same_of_mem_loop {rounds : Nat} {d : α} (h : d ∈ loop c.next a rounds b) : Same c b d := by
  induction rounds generalizing b with
  | zero => cases h
  | succ rounds ih =>
    rw [loop] at h
    split at h
    · cases h
    · obtain rfl | hrest := List.mem_cons.1 h
      · exact ⟨0, rfl⟩
      · obtain ⟨n, hn⟩ := ih hrest
        exact ⟨n + 1, hn⟩

theorem mem_loop {rounds j : Nat} (hj : j < rounds) (h : ∀ i ≤ j, c.next^[i] b ≠ a) :
    c.next^[j] b ∈ loop c.next a rounds b := by
  induction rounds generalizing b j with
  | zero => omega
  | succ rounds ih =>
    have hne : b ≠ a := h 0 (Nat.zero_le j)
    rw [loop, if_neg hne]
    cases j with
    | zero => exact List.mem_cons_self ..
    | succ j =>
      refine List.mem_cons_of_mem _ (ih (by omega) fun i hi => ?_)
      exact h (i + 1) (by omega)

theorem mem_orbit : b ∈ orbit c a ↔ Same c a b := by
  rw [orbit, List.mem_cons]
  constructor
  · rintro (rfl | h)
    · exact ⟨0, rfl⟩
    · obtain ⟨n, hn⟩ := same_of_mem_loop h
      exact ⟨n + 1, hn⟩
  · rintro ⟨n, rfl⟩
    obtain ⟨p, hpos, hbound, hreturn⟩ := c.returns a
    have hperiod : minimalPeriod c.next a ≤ p :=
      IsPeriodicPt.minimalPeriod_le hpos hreturn
    have hperiodic : 0 < minimalPeriod c.next a := minimalPeriod_pos_of_mem_periodicPts ⟨p, hpos, hreturn⟩
    have hlt : n % minimalPeriod c.next a < minimalPeriod c.next a := Nat.mod_lt _ hperiodic
    rw [← iterate_mod_minimalPeriod_eq]
    generalize n % minimalPeriod c.next a = k at hlt
    cases k with
    | zero => exact .inl rfl
    | succ k =>
      refine .inr (mem_loop (by omega) fun i hi heq => ?_)
      exact not_isPeriodicPt_of_pos_of_lt_minimalPeriod (Nat.succ_ne_zero i) (by omega) heq

end Orbits
