/-
# `Bluestone.Library.Slot` — a reference-counted current value

A slot lists at most one current item.  Threads take references to the current
item and give them back; the item may be retired only when its count is zero,
and counts may exceed the number of holders (a thread may forget to give its
reference back).

By `Slot.Sound.step`, whoever holds an item holds the current one
(`Slot.Sound.holds_current`), and an item that a thread is still parting with is
never current again (`Slot.Sound.parting_retired`).
-/
import Bluestone.Library.Runs

namespace Runs

open Function

universe u

variable {T : Type u} [DecidableEq T]

/-- The current item, the reference counts, the next fresh item, what each thread
holds, and what each thread has retired and still parts with. -/
structure Slot (T : Type u) where
  current : Option Nat
  refs : Nat → Nat
  next : Nat
  holds : T → Option Nat
  parting : T → Option Nat

/-- What can happen to a slot in one step. -/
inductive SlotStep : Slot T → Slot T → Prop
  | quiet (s : Slot T) : SlotStep s s
  /-- A thread forgets its reference. -/
  | forget {s : Slot T} (t : T) : SlotStep s { s with holds := update s.holds t none }
  | acquire {s : Slot T} {i : Nat} (t : T) : s.current = some i → s.holds t = none →
      SlotStep s { s with
        refs := update s.refs i (s.refs i + 1)
        holds := update s.holds t (some i) }
  | create {s : Slot T} (t : T) : s.current = none → s.holds t = none →
      SlotStep s { s with
        current := some s.next
        refs := update s.refs s.next 1
        next := s.next + 1
        holds := update s.holds t (some s.next) }
  /-- A new item nobody holds becomes current. -/
  | adopt {s : Slot T} : s.current = none →
      SlotStep s { s with
        current := some s.next
        refs := update s.refs s.next 0
        next := s.next + 1 }
  | release {s : Slot T} {i j : Nat} (t : T) : s.current = some i → s.holds t = some j →
      SlotStep s { s with
        refs := update s.refs i (s.refs i - 1)
        holds := update s.holds t none }
  /-- The last reference is given back and the item retired in one step. -/
  | releaseRetire {s : Slot T} {i j : Nat} (t : T) : s.current = some i → s.holds t = some j →
      s.refs i - 1 = 0 →
      SlotStep s { s with
        current := none
        refs := update s.refs i (s.refs i - 1)
        holds := update s.holds t none
        parting := update s.parting t (some i) }
  | retire {s : Slot T} {i : Nat} (t : T) : s.current = some i → s.refs i = 0 →
      SlotStep s { s with
        current := none
        parting := update s.parting t (some i) }
  /-- A thread is done with the item it retired. -/
  | part {s : Slot T} (t : T) : SlotStep s { s with parting := update s.parting t none }

/-- Holders hold the current item, and its count covers them. -/
structure Slot.Sound (s : Slot T) : Prop where
  holds_current : ∀ t i, s.holds t = some i → s.current = some i
  counted : ∀ i, s.current = some i → AtMost (fun t => s.holds t = some i) (s.refs i)
  fresh : ∀ i, s.current = some i → i < s.next
  parting_retired : ∀ t i, s.parting t = some i → s.current ≠ some i ∧ i < s.next

omit [DecidableEq T] in
theorem Slot.Sound.unheld {s : Slot T} (h : s.Sound) {i : Nat} (hc : s.current = some i)
    (hz : s.refs i = 0) : ∀ t, s.holds t = none := by
  intro t
  cases ht : s.holds t with
  | none => rfl
  | some j =>
    have hj : j = i := Option.some.inj ((h.holds_current t j ht).symm.trans hc)
    subst hj
    have hmost := h.counted j hc
    rw [hz] at hmost
    exact absurd ht (hmost.none t)

omit [DecidableEq T] in
theorem Slot.Sound.unheld_of_none {s : Slot T} (h : s.Sound) (hc : s.current = none) :
    ∀ t, s.holds t = none := by
  intro t
  cases ht : s.holds t with
  | none => rfl
  | some j => exact nomatch (h.holds_current t j ht).symm.trans hc

private theorem Slot.Sound.parting_update {s : Slot T} (h : s.Sound) {t : T} {i : Nat}
    (hc : s.current = some i) :
    ∀ t' j, update s.parting t (some i) t' = some j → none ≠ some j ∧ j < s.next := by
  intro t' j hj
  refine ⟨nofun, ?_⟩
  by_cases ht : t' = t
  · subst ht
    simp only [update_self, Option.some.injEq] at hj
    subst hj; exact h.fresh i hc
  · exact (h.parting_retired t' j (by simpa [update_of_ne ht] using hj)).2

private theorem holds_of_update {f : T → Option Nat} {t t' : T} {i : Nat}
    (h : update f t none t' = some i) : f t' = some i ∧ t' ≠ t := by
  by_cases ht : t' = t
  · subst ht; simp at h
  · exact ⟨by simpa [update_of_ne ht] using h, ht⟩

omit [DecidableEq T] in
private theorem Slot.Sound.parting_next {s : Slot T} (h : s.Sound) :
    ∀ t i, s.parting t = some i → some s.next ≠ some i ∧ i < s.next + 1 := by
  intro t i hi
  have hlt := (h.parting_retired t i hi).2
  refine ⟨fun heq => ?_, by omega⟩
  have := Option.some.inj heq
  omega

private theorem Slot.Sound.counted_release {s : Slot T} (h : s.Sound) {t : T} {i j : Nat}
    (hc : s.current = some i) (ht : s.holds t = some j) :
    AtMost (fun t' => update s.holds t none t' = some i) (s.refs i - 1) := by
  have hj : i = j := Option.some.inj (hc.symm.trans (h.holds_current t j ht))
  subst hj
  exact (h.counted i hc).leave ht fun t' ht' => holds_of_update ht'

theorem Slot.Sound.step {s s' : Slot T} (h : s.Sound) (hs : SlotStep s s') : s'.Sound := by
  cases hs with
  | quiet => exact h
  | forget t =>
    refine ⟨?_, ?_, h.fresh, h.parting_retired⟩
    · intro t' i hi
      exact h.holds_current t' i (holds_of_update hi).1
    · intro i hi
      exact (h.counted i hi).mono (fun t' ht' => (holds_of_update ht').1) le_rfl
  | @acquire i t hc ht =>
    refine ⟨?_, ?_, h.fresh, h.parting_retired⟩
    · intro t' j hj
      by_cases htt : t' = t
      · subst htt
        simp only [update_self, Option.some.injEq] at hj
        subst hj; exact hc
      · exact h.holds_current t' j (by simpa [update_of_ne htt] using hj)
    · intro j hj
      have hij : i = j := Option.some.inj (hc.symm.trans hj)
      subst hij
      simp only [update_self]
      refine (h.counted i hc).enter t fun t' ht' => ?_
      by_cases htt : t' = t
      · exact .inr htt
      · exact .inl (by simpa [update_of_ne htt] using ht')
  | create t hc ht =>
    have hnone := h.unheld_of_none hc
    refine ⟨?_, ?_, ?_, h.parting_next⟩
    · intro t' j hj
      by_cases htt : t' = t
      · subst htt
        simpa using hj
      · simp [update_of_ne htt, hnone t'] at hj
    · intro j hj
      simp only [Option.some.injEq] at hj
      subst hj
      simp only [update_self]
      refine (atMost_of_none (p := fun _ => False) (n := 0) fun _ hf => hf).enter t fun t' ht' => ?_
      by_cases htt : t' = t
      · exact .inr htt
      · simp [update_of_ne htt, hnone t'] at ht'
    · intro j hj
      simp only [Option.some.injEq] at hj
      subst hj; exact Nat.lt_succ_self _
  | adopt hc =>
    have hnone := h.unheld_of_none hc
    refine ⟨?_, ?_, ?_, h.parting_next⟩
    · intro t j hj
      simp [hnone t] at hj
    · intro j _
      exact atMost_of_none fun t ht => by simp [hnone t] at ht
    · intro j hj
      simp only [Option.some.injEq] at hj
      subst hj; exact Nat.lt_succ_self _
  | @release i j t hc ht =>
    refine ⟨?_, ?_, h.fresh, h.parting_retired⟩
    · intro t' k hk
      exact h.holds_current t' k (holds_of_update hk).1
    · intro k hk
      have hik : i = k := Option.some.inj (hc.symm.trans hk)
      subst hik
      simp only [update_self]
      exact h.counted_release hc ht
  | @releaseRetire i j t hc ht hz =>
    refine ⟨?_, ?_, ?_, h.parting_update hc⟩
    · intro t' k hk
      obtain ⟨hk', _⟩ := holds_of_update hk
      have hik : i = k := Option.some.inj (hc.symm.trans (h.holds_current t' k hk'))
      subst hik
      have hmost := h.counted_release hc ht
      rw [hz] at hmost
      exact absurd hk (hmost.none t')
    all_goals intro k hk; exact nomatch hk
  | part t =>
    refine ⟨h.holds_current, h.counted, h.fresh, ?_⟩
    intro t' i hi
    exact h.parting_retired t' i (holds_of_update hi).1
  | retire t hc hz =>
    have hnone := h.unheld hc hz
    refine ⟨?_, ?_, ?_, h.parting_update hc⟩
    · intro t k hk
      simp [hnone t] at hk
    all_goals intro k hk; exact nomatch hk

end Runs
