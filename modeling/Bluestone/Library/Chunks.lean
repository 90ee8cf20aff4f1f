/-
# `Bluestone.Library.Chunks` — a list read in chunks

`slice l a b` is what a list has from `a` up to `b`; past its end there is nothing.
A request for `[o, r)` is answered chunk by chunk: `starts c x n` are the starts of
`n` chunks of length `c` from `x` on, and `piece` is what one of them gives to the
request.  The pieces of consecutive chunks join (`flatMap_piece`).
-/
import Mathlib.Data.List.Basic

namespace Chunks

universe u

variable {α : Type u} {l : List α} {a b c o r x y n : Nat}

/-- The elements from `a` up to `b`, as far as there are any. -/
def slice (l : List α) (a b : Nat) : List α := (l.take b).drop a

theorem length_slice : (slice l a b).length = min b l.length - a := by
  rw [slice, List.length_drop, List.length_take]

theorem slice_of_le (h : b ≤ a) : slice l a b = [] := by
  refine List.eq_nil_of_length_eq_zero ?_
  rw [length_slice]
  omega

theorem slice_past_end (h : l.length ≤ a) : slice l a b = [] := by
  refine List.eq_nil_of_length_eq_zero ?_
  rw [length_slice]
  omega

theorem slice_min_length : slice l a (min b l.length) = slice l a b := by
  rw [slice, slice, ← List.take_take, List.take_length]

theorem slice_append (hab : a ≤ b) (hbc : b ≤ c) : slice l a b ++ slice l b c = slice l a c := by
  obtain ⟨k, rfl⟩ := Nat.exists_eq_add_of_le hbc
  have hsplit : l.take (b + k) = l.take b ++ (l.take (b + k)).drop b := by
    have htake := List.take_append_drop b (l.take (b + k))
    rw [List.take_take, Nat.min_eq_left (Nat.le_add_right b k)] at htake
    exact htake.symm
  by_cases hlen : l.length ≤ a
  · rw [slice_past_end hlen, slice_past_end hlen, slice_past_end (Nat.le_trans hlen hab), List.append_nil]
  · have h : a ≤ (l.take b).length := by
      rw [List.length_take]
      omega
    unfold slice
    rw [hsplit, List.drop_append_of_le_length h, ← hsplit]

theorem slice_slice (h : x + b ≤ y) : slice (slice l x y) a b = slice l (x + a) (x + b) := by
  unfold slice
  rw [List.take_drop, List.take_take, List.drop_drop, Nat.min_eq_left h]

/-! ## Consecutive chunks -/

/-- The starts of `n` chunks of length `c` from `x` on. -/
def starts (c : Nat) : Nat → Nat → List Nat
  | _, 0 => []
  | x, n + 1 => x :: starts c (x + c) n

theorem mem_starts : y ∈ starts c x n ↔ ∃ i, i < n ∧ y = x + i * c := by
  induction n generalizing x with
  | zero => simp [starts]
  | succ n ih =>
    rw [starts, List.mem_cons, ih]
    constructor
    · rintro (rfl | ⟨i, hi, rfl⟩)
      · exact ⟨0, by omega, by omega⟩
      · refine ⟨i + 1, by omega, ?_⟩
        rw [Nat.add_mul, Nat.one_mul]
        omega
    · rintro ⟨i, hi, rfl⟩
      cases i with
      | zero => exact .inl (by omega)
      | succ i =>
        refine .inr ⟨i, by omega, ?_⟩
        rw [Nat.add_mul, Nat.one_mul]
        omega

/-- What the chunk at `x` has of `[o, r)`. -/
def piece (l : List α) (o r c x : Nat) : List α := slice l (max o x) (min r (x + c))

theorem piece_append (h : x + c ≤ y) :
    piece l o r c x ++ slice l (max o (x + c)) (min r y) = slice l (max o x) (min r y) := by
  unfold piece
  by_cases hr : r ≤ x + c
  · rw [slice_of_le (a := max o (x + c)) (by omega), List.append_nil, Nat.min_eq_left hr,
      Nat.min_eq_left (Nat.le_trans hr h)]
  · by_cases ho : x + c ≤ o
    · rw [slice_of_le (a := max o x) (by omega), List.nil_append, Nat.max_eq_left ho,
        Nat.max_eq_left (by omega)]
    · rw [Nat.max_eq_right (by omega : o ≤ x + c), Nat.min_eq_right (by omega : x + c ≤ r)]
      exact slice_append (by omega) (by omega)

/-- The piece of a chunk taken out of the chunk, from `max o x - x` up to what the
chunk and the request have. -/
theorem slice_chunk : slice (slice l x (x + c)) (max o x - x)
    (min r (x + (slice l x (x + c)).length) - x) = piece l o r c x := by
  have hend : min r (x + (slice l x (x + c)).length) - x ≤ c := by
    rw [length_slice]
    omega
  rw [slice_slice (by omega), piece]
  by_cases hx : l.length ≤ x
  · rw [slice_past_end (by omega), slice_past_end (by omega)]
  · by_cases hr : r ≤ x
    · rw [slice_of_le (by omega), slice_of_le (by omega)]
    · rw [← slice_min_length (b := min r (x + c)), length_slice]
      congr 1
      all_goals omega

theorem flatMap_piece :
    (starts c x n).flatMap (piece l o r c) = slice l (max o x) (min r (x + n * c)) := by
  induction n generalizing x with
  | zero =>
    rw [starts, List.flatMap_nil, slice_of_le]
    omega
  | succ n ih =>
    rw [starts, List.flatMap_cons, ih, Nat.add_mul, Nat.one_mul, Nat.add_comm (n * c), ← Nat.add_assoc]
    exact piece_append (Nat.le_add_right ..)

theorem append_piece : slice l o (min r x) ++ piece l o r c x = slice l o (min r (x + c)) := by
  unfold piece
  by_cases hx : x ≤ o
  · rw [slice_of_le (b := min r x) (by omega), List.nil_append, Nat.max_eq_left hx]
  · rw [Nat.max_eq_right (by omega)]
    by_cases hr : r ≤ x
    · rw [slice_of_le (a := x) (by omega), List.append_nil, Nat.min_eq_left hr, Nat.min_eq_left (by omega)]
    · rw [Nat.min_eq_right (by omega : x ≤ r)]
      exact slice_append (by omega) (by omega)

end Chunks
