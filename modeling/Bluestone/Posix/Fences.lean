/-
# `Bluestone.Posix.Fences` — the fences along a run

What a fence of `Bluestone.Posix.MetadataCache` does while calls begin, leave and are
invalidated.  Its entry stays as long as a call of the path is in flight, because the entry
counts them, and its generation never falls meanwhile (`FenceOk`, `Grows`).  So a call that is
stale once is stale when it checks, although an entry that goes takes its generation with it.
-/
import Bluestone.Posix.MetadataCache

namespace Bluestone.Metadata

open Runs Totals Paths

/-- The calls of the path that are in flight, counted one by one. -/
def waits (k : Kind) (p : Path) (c : Call) : Nat := if c.kind = k ∧ c.path = p ∧ c.stage = .probing then 1 else 0

/-- A fence has an entry while a call of the path is in flight, and the entry's generation
has not fallen since the call began. -/
structure FenceOk (fences : Kind → ListingFence) (calls : List Call) : Prop where
  counted : ∀ {k p e}, fences k p = some e → e.listings = total (waits k p) calls
  absent : ∀ {k p}, fences k p = none → total (waits k p) calls = 0
  generation : ∀ c ∈ calls, c.stage = .probing → ∀ {e}, fences c.kind c.path = some e → c.generation ≤ e.generation

/-- The entry of the call stays, and its generation does not fall. -/
def Grows (fences fences' : Kind → ListingFence) (c : Call) : Prop :=
  ∀ e, fences c.kind c.path = some e → ∃ e', fences' c.kind c.path = some e' ∧ e.generation ≤ e'.generation

section Fences

variable {fences fences' : Kind → ListingFence} {calls : List Call} {c : Call}

theorem waits_self (hp : c.stage = .probing) : waits c.kind c.path c = 1 := by
  simp [waits, hp]

theorem waits_of_ne_probing (k : Kind) (p : Path) (hp : c.stage ≠ .probing) : waits k p c = 0 := by
  simp [waits, hp]

theorem FenceOk.entry (h : FenceOk fences calls) (hc : c ∈ calls) (hp : c.stage = .probing) :
    ∃ e, fences c.kind c.path = some e := by
  cases he : fences c.kind c.path with
  | some e => exact ⟨e, rfl⟩
  | none =>
    have hle : waits c.kind c.path c ≤ total (waits c.kind c.path) calls := le_total hc
    rw [h.absent he, waits_self hp] at hle
    omega

theorem FenceOk.unchanged_of_grows (h : FenceOk fences calls) (hc : c ∈ calls) (hp : c.stage = .probing)
    (hg : Grows fences fences' c) (hs : (fences c.kind).unchanged c.path c.generation = false) :
    (fences' c.kind).unchanged c.path c.generation = false := by
  obtain ⟨e, he⟩ := h.entry hc hp
  obtain ⟨e', he', hle⟩ := hg e he
  have hgen := h.generation c hc hp he
  have hne : e.generation ≠ c.generation := by
    simpa [ListingFence.unchanged, he] using hs
  have hne' : e'.generation ≠ c.generation := by omega
  simpa [ListingFence.unchanged, he'] using hne'

variable {e : FenceEntry} {kind : Kind} {k : Nat} {path p : Path} {stage : Stage}

theorem FenceOk.generation_of_grows (h : FenceOk fences calls) (hc : c ∈ calls) (hp : c.stage = .probing)
    (hg : Grows fences fences' c) (he : fences' c.kind c.path = some e) :
    c.generation ≤ e.generation := by
  obtain ⟨e0, he0⟩ := h.entry hc hp
  obtain ⟨e', he', hle⟩ := hg e0 he0
  obtain rfl : e' = e := Option.some.inj (he'.symm.trans he)
  exact Nat.le_trans (h.generation c hc hp he0) hle

/-! ### A call begins -/

variable {s : State}

theorem call_fences_of_ne {k : Kind} (hne : ¬ (k = kind ∧ p = path)) :
    (s.call kind path).fences k p = s.fences k p := by
  simp only [State.call]
  by_cases hk : k = kind
  · rw [if_pos hk, ListingFence.begin, if_neg fun hp => hne ⟨hk, hp⟩]
  · rw [if_neg hk]

theorem call_fences_some (he : s.fences kind path = some e) :
    (s.call kind path).fences kind path = some ⟨e.listings + 1, e.generation⟩ := by
  simp [State.call, ListingFence.begin, he]

theorem call_fences_none (he : s.fences kind path = none) :
    (s.call kind path).fences kind path = some ⟨1, 0⟩ := by
  simp [State.call, ListingFence.begin, he]

theorem grows_call (kind : Kind) (path : Path) (c : Call) : Grows s.fences (s.call kind path).fences c := by
  intro e he
  by_cases heq : c.kind = kind ∧ c.path = path
  · obtain ⟨rfl, rfl⟩ := heq
    exact ⟨_, call_fences_some he, Nat.le_refl _⟩
  · exact ⟨e, (call_fences_of_ne heq).trans he, Nat.le_refl _⟩

theorem FenceOk.call (h : FenceOk s.fences s.calls) (kind : Kind) (path : Path) :
    FenceOk (s.call kind path).fences (s.call kind path).calls := by
  have htotal : ∀ k p, total (waits k p) (s.call kind path).calls =
      total (waits k p) s.calls + if kind = k ∧ path = p then 1 else 0 := by
    intro k p
    simp [State.call, total_concat, waits]
  constructor
  case counted =>
      intro k p e he
      rw [htotal]
      by_cases heq : k = kind ∧ p = path
      · obtain ⟨rfl, rfl⟩ := heq
        cases hold : s.fences k p with
        | some e0 =>
          obtain rfl := Option.some.inj ((call_fences_some hold).symm.trans he)
          simp [h.counted hold]
        | none =>
          obtain rfl := Option.some.inj ((call_fences_none hold).symm.trans he)
          simp [h.absent hold]
      · rw [call_fences_of_ne heq] at he
        rw [if_neg fun hsame => heq ⟨hsame.1.symm, hsame.2.symm⟩]
        exact h.counted he
  case absent =>
      intro k p he
      by_cases heq : k = kind ∧ p = path
      · obtain ⟨rfl, rfl⟩ := heq
        cases hold : s.fences k p with
        | some e0 => simp [call_fences_some hold] at he
        | none => simp [call_fences_none hold] at he
      · rw [call_fences_of_ne heq] at he
        rw [htotal, if_neg fun hsame => heq ⟨hsame.1.symm, hsame.2.symm⟩]
        exact h.absent he
  case generation =>
      intro c hc hp e he
      rcases List.mem_append.1 hc with hc | hc
      · exact h.generation_of_grows hc hp (grows_call kind path c) he
      · obtain rfl := List.mem_singleton.1 hc
        dsimp only at he ⊢
        cases hold : s.fences kind path with
        | some e0 =>
          obtain rfl := Option.some.inj ((call_fences_some hold).symm.trans he)
          simp [ListingFence.current, hold]
        | none => simp [ListingFence.current, hold]

/-! ### A call leaves its fence -/

theorem leave_fences_of_ne
    (hne : ¬ (kind = c.kind ∧ p = c.path)) : (s.leave k c stage).fences kind p = s.fences kind p := by
  simp only [State.leave]
  by_cases hk : kind = c.kind
  · rw [if_pos hk, ListingFence.finish, if_neg fun hp => hne ⟨hk, hp⟩]
  · rw [if_neg hk]

theorem leave_fences_self (he : s.fences c.kind c.path = some e) :
    (s.leave k c stage).fences c.kind c.path =
      if e.listings - 1 = 0 then none else some ⟨e.listings - 1, e.generation⟩ := by
  simp [State.leave, ListingFence.finish, he]

theorem total_leave (hk : s.calls[k]? = some c) (hp : c.stage = .probing)
    (hstage : stage ≠ .probing) (kind : Kind) (p : Path) :
    total (waits kind p) (s.leave k c stage).calls + (if c.kind = kind ∧ c.path = p then 1 else 0) =
      total (waits kind p) s.calls := by
  have hset := total_set (waits kind p) hk { c with stage := stage }
  have hnew : waits kind p { c with stage := stage } = 0 := waits_of_ne_probing kind p hstage
  have hold : waits kind p c = if c.kind = kind ∧ c.path = p then 1 else 0 := by simp [waits, hp]
  rw [hnew, hold, Nat.add_zero] at hset
  exact hset

theorem FenceOk.grows_leave (h : FenceOk s.fences s.calls) (hk : s.calls[k]? = some c)
    (hp : c.stage = .probing) (hstage : stage ≠ .probing) {c' : Call}
    (hc' : c' ∈ (s.leave k c stage).calls) (hp' : c'.stage = .probing) :
    Grows s.fences (s.leave k c stage).fences c' := by
  intro e he
  by_cases heq : c'.kind = c.kind ∧ c'.path = c.path
  · -- the call itself is counted after the other has left
    have hle : waits c'.kind c'.path c' ≤ total (waits c'.kind c'.path) (s.leave k c stage).calls := le_total hc'
    have htotal := total_leave hk hp hstage c'.kind c'.path
    rw [if_pos ⟨heq.1.symm, heq.2.symm⟩, ← h.counted he] at htotal
    rw [waits_self hp'] at hle
    rw [heq.1, heq.2] at he ⊢
    rw [leave_fences_self he, if_neg (by omega)]
    exact ⟨_, rfl, Nat.le_refl _⟩
  · exact ⟨e, (leave_fences_of_ne heq).trans he, Nat.le_refl _⟩

theorem mem_of_mem_leave (hstage : stage ≠ .probing) {c' : Call}
    (hc' : c' ∈ (s.leave k c stage).calls) (hp' : c'.stage = .probing) : c' ∈ s.calls := by
  rcases List.mem_or_eq_of_mem_set hc' with hc' | rfl
  · exact hc'
  · exact absurd hp' hstage

theorem FenceOk.leave (h : FenceOk s.fences s.calls) (hk : s.calls[k]? = some c)
    (hp : c.stage = .probing) (hstage : stage ≠ .probing) :
    FenceOk (s.leave k c stage).fences (s.leave k c stage).calls := by
  obtain ⟨e0, he0⟩ := h.entry (List.mem_of_getElem? hk) hp
  have htotal := total_leave hk hp hstage
  constructor
  case counted =>
      intro kind p e he
      have ht := htotal kind p
      by_cases heq : kind = c.kind ∧ p = c.path
      · obtain ⟨rfl, rfl⟩ := heq
        rw [if_pos ⟨rfl, rfl⟩, ← h.counted he0] at ht
        rw [leave_fences_self he0] at he
        split at he
        · cases he
        · obtain rfl := Option.some.inj he
          dsimp only
          omega
      · rw [leave_fences_of_ne heq] at he
        rw [if_neg fun hsame => heq ⟨hsame.1.symm, hsame.2.symm⟩] at ht
        rw [h.counted he]
        omega
  case absent =>
      intro kind p he
      have ht := htotal kind p
      by_cases heq : kind = c.kind ∧ p = c.path
      · obtain ⟨rfl, rfl⟩ := heq
        rw [if_pos ⟨rfl, rfl⟩, ← h.counted he0] at ht
        rw [leave_fences_self he0] at he
        split at he
        · omega
        · cases he
      · rw [leave_fences_of_ne heq] at he
        have hzero := h.absent he
        omega
  case generation =>
      intro c' hc' hp' e he
      exact h.generation_of_grows (mem_of_mem_leave hstage hc' hp') hp' (h.grows_leave hk hp hstage hc' hp') he

/-! ### A fence is invalidated -/

theorem invalidate_some {f : ListingFence} (he : f p = some e) (paths : Path → Bool) :
    ∃ e', f.invalidate paths p = some e' ∧ e'.listings = e.listings ∧ e.generation ≤ e'.generation ∧
    (paths p → e.generation < e'.generation) := by
  rw [ListingFence.invalidate, he]
  cases paths p with
  | true => exact ⟨_, rfl, rfl, Nat.le_succ _, fun _ => Nat.lt_succ_self _⟩
  | false => exact ⟨e, rfl, rfl, Nat.le_refl _, fun h => by cases h⟩

theorem invalidate_eq_none_iff {f : ListingFence} {paths : Path → Bool} :
    f.invalidate paths p = none ↔ f p = none := by
  rw [ListingFence.invalidate]
  cases paths p <;> simp

theorem grows_invalidate (paths : Kind → Path → Bool) (c : Call) :
    Grows fences (fun k => (fences k).invalidate (paths k)) c := by
  intro e he
  obtain ⟨e', he', -, hle, -⟩ := invalidate_some he (paths c.kind)
  exact ⟨e', he', hle⟩

theorem FenceOk.invalidate (h : FenceOk fences calls) (paths : Kind → Path → Bool) :
    FenceOk (fun k => (fences k).invalidate (paths k)) calls := by
  constructor
  case counted =>
      intro k p e he
      cases hold : fences k p with
      | none => simp [invalidate_eq_none_iff.2 hold] at he
      | some e0 =>
        obtain ⟨e', he', hlist, -, -⟩ := invalidate_some hold (paths k)
        obtain rfl : e' = e := Option.some.inj (he'.symm.trans he)
        rw [hlist]
        exact h.counted hold
  case absent =>
      intro k p he
      exact h.absent (invalidate_eq_none_iff.1 he)
  case generation =>
      intro c hc hp e he
      exact h.generation_of_grows hc hp (grows_invalidate paths c) he

theorem FenceOk.unchanged_invalidate (h : FenceOk fences calls) {paths : Kind → Path → Bool}
    (hc : c ∈ calls) (hp : c.stage = .probing) (hpath : paths c.kind c.path) :
    ((fences c.kind).invalidate (paths c.kind)).unchanged c.path c.generation = false := by
  obtain ⟨e, he⟩ := h.entry hc hp
  obtain ⟨e', he', -, -, hlt⟩ := invalidate_some he (paths c.kind)
  have hgen := h.generation c hc hp he
  have hne : e'.generation ≠ c.generation := by
    have := hlt hpath
    omega
  simpa [ListingFence.unchanged, he'] using hne

end Fences

end Bluestone.Metadata
