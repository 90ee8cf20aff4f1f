/-
# `Bluestone.Library.Firsts` — the first of each kind

`firsts f seen l` goes through a list and keeps what has a value of `f` that was not
seen before.  Each value is kept once (`nodup_map_firsts`), none is lost
(`mem_map_firsts`), and what is kept of an ordered list is the least with its value
(`firsts_least`).
-/
import Mathlib.Data.List.Basic

namespace Firsts

open List (mem_cons map_cons)

universe u v

variable {α : Type u} {β : Type v} [DecidableEq β] {f : α → β}

/-- The elements whose value was not seen before. -/
def firsts (f : α → β) (seen : List β) : List α → List α
  | [] => []
  | a :: l => if f a ∈ seen then firsts f seen l else a :: firsts f (f a :: seen) l

variable {seen : List β} {l : List α}

theorem mem_of_mem_firsts {a : α} (h : a ∈ firsts f seen l) : a ∈ l ∧ f a ∉ seen := by
  induction l generalizing seen with
  | nil => simp [firsts] at h
  | cons b l ih =>
    rw [firsts] at h
    split at h
    · exact ⟨List.mem_cons_of_mem _ (ih h).1, (ih h).2⟩
    · rename_i hnew
      rcases mem_cons.1 h with rfl | h'
      · exact ⟨List.mem_cons_self .., hnew⟩
      · obtain ⟨hl, hseen⟩ := ih h'
        exact ⟨List.mem_cons_of_mem _ hl, fun hs => hseen (List.mem_cons_of_mem _ hs)⟩

theorem mem_map_firsts {b : β} : b ∈ (firsts f seen l).map f ↔ b ∈ l.map f ∧ b ∉ seen := by
  constructor
  · intro h
    obtain ⟨a, ha, rfl⟩ := List.mem_map.1 h
    obtain ⟨hl, hseen⟩ := mem_of_mem_firsts ha
    exact ⟨List.mem_map_of_mem hl, hseen⟩
  · rintro ⟨h, hseen⟩
    induction l generalizing seen with
    | nil => simp at h
    | cons a l ih =>
      rw [firsts]
      rw [map_cons, mem_cons] at h
      split
      · rename_i hold
        rcases h with rfl | h'
        · exact absurd hold hseen
        · exact ih h' hseen
      · rw [map_cons, mem_cons]
        by_cases hb : b = f a
        · exact .inl hb
        · refine .inr (ih (h.resolve_left hb) ?_)
          rw [mem_cons, not_or]
          exact ⟨hb, hseen⟩

theorem nodup_map_firsts : ((firsts f seen l).map f).Nodup := by
  induction l generalizing seen with
  | nil => simp [firsts]
  | cons a l ih =>
    rw [firsts]
    split
    · exact ih
    · rw [map_cons, List.nodup_cons]
      refine ⟨fun h => ?_, ih⟩
      exact (mem_map_firsts.1 h).2 List.mem_cons_self

theorem length_firsts_le (seen : List β) (l : List α) : (firsts f seen l).length ≤ l.length := by
  induction l generalizing seen with
  | nil => simp [firsts]
  | cons a l ih =>
    rw [firsts]
    split
    · exact Nat.le_succ_of_le (ih seen)
    · exact Nat.succ_le_succ (ih _)

theorem firsts_least {R : α → α → Prop} (hl : l.Pairwise R) {a x : α}
    (ha : a ∈ firsts f seen l) (hx : x ∈ l) (hfx : f x = f a) : x = a ∨ R a x := by
  induction l generalizing seen with
  | nil => simp at hx
  | cons b l ih =>
    obtain ⟨hb, hl'⟩ := List.pairwise_cons.1 hl
    rw [firsts] at ha
    split at ha
    · rename_i hold
      rcases mem_cons.1 hx with rfl | hx'
      · rw [hfx] at hold
        exact absurd hold (mem_of_mem_firsts ha).2
      · exact ih hl' ha hx'
    · rcases mem_cons.1 ha with rfl | ha'
      · rcases mem_cons.1 hx with rfl | hx'
        · exact .inl rfl
        · exact .inr (hb x hx')
      · rcases mem_cons.1 hx with rfl | hx'
        · have hseen := (mem_of_mem_firsts ha').2
          rw [← hfx] at hseen
          exact absurd List.mem_cons_self hseen
        · exact ih hl' ha' hx'

end Firsts
