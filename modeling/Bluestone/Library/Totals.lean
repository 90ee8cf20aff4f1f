/-
# `Bluestone.Library.Totals` — the weight of a list

`total w l` adds up what the elements of a list weigh.  Replacing one element changes it
by the difference of two weights (`total_set`).
-/
import Mathlib.Data.List.Basic

namespace Totals

universe u

variable {α : Type u} {w w' : α → Nat} {l : List α} {a : α} {i : Nat}

def total (w : α → Nat) : List α → Nat
  | [] => 0
  | a :: l => w a + total w l

theorem total_cons (w : α → Nat) (a : α) (l : List α) : total w (a :: l) = w a + total w l := rfl

theorem total_concat (w : α → Nat) (l : List α) (a : α) : total w (l ++ [a]) = total w l + w a := by
  induction l with
  | nil => exact Nat.add_comm ..
  | cons b l ih => rw [List.cons_append, total_cons, ih, total_cons, Nat.add_assoc]

theorem total_set (w : α → Nat) (h : l[i]? = some a) (b : α) :
    total w (l.set i b) + w a = total w l + w b := by
  induction l generalizing i with
  | nil => simp at h
  | cons c l ih =>
    cases i with
    | zero =>
      obtain rfl : c = a := by simpa using h
      rw [List.set_cons_zero, total_cons, total_cons]
      omega
    | succ i =>
      have hrest := ih (i := i) (by simpa using h)
      rw [List.set_cons_succ, total_cons, total_cons]
      omega

theorem total_map (w : α → Nat) (f : α → α) (l : List α) : total w (l.map f) = total (fun a => w (f a)) l := by
  induction l with
  | nil => rfl
  | cons a l ih => rw [List.map_cons, total_cons, ih, total_cons]

theorem total_mono (h : ∀ a ∈ l, w a ≤ w' a) : total w l ≤ total w' l := by
  induction l with
  | nil => exact Nat.le_refl _
  | cons a l ih =>
    have hhead := h a List.mem_cons_self
    have htail := ih fun b hb => h b (List.mem_cons_of_mem _ hb)
    rw [total_cons, total_cons]
    omega

theorem total_eq_zero (h : ∀ a ∈ l, w a = 0) : total w l = 0 := by
  induction l with
  | nil => rfl
  | cons a l ih =>
    rw [total_cons, h a List.mem_cons_self, ih fun b hb => h b (List.mem_cons_of_mem _ hb)]

theorem le_total (h : a ∈ l) : w a ≤ total w l := by
  induction l with
  | nil => simp at h
  | cons b l ih =>
    rw [total_cons]
    rcases List.mem_cons.1 h with rfl | h
    · omega
    · have := ih h
      omega

end Totals
