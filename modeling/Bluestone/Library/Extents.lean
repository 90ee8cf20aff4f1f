/-
# `Bluestone.Library.Extents` — a file's content as a list, written and resized in place

`writeAt` is what a positional write does to a file's content and `resize` what
a truncation does, over any element type with a fill value for gaps and growth; a
write of nothing changes nothing.

The lemmas read both through `getElem?`, one index at a time.
-/
import Mathlib.Data.List.Basic

namespace Extents

open List (replicate length_append length_take)

universe u

variable {α : Type u} (z : α)

/-- `data` written over `content` at `offset`; a gap is filled with `z`. -/
def writeAt (content : List α) (offset : Nat) (data : List α) : List α :=
  if data = [] then content
  else content.take offset ++ replicate (offset - content.length) z ++ data ++
    content.drop (offset + data.length)

/-- `content` cut or grown with `z` to exactly `size`. -/
def resize (content : List α) (size : Nat) : List α :=
  content.take size ++ replicate (size - content.length) z

@[simp] theorem writeAt_nil (content : List α) (offset : Nat) :
    writeAt z content offset [] = content := by
  simp [writeAt]

@[simp] theorem resize_length (content : List α) (size : Nat) :
    (resize z content size).length = size := by
  simp only [resize, length_append, length_take, List.length_replicate]
  omega

@[simp] theorem resize_zero (content : List α) : resize z content 0 = [] := by
  simp [resize]

theorem resize_take (content : List α) (size : Nat) :
    resize z (content.take (min size content.length)) size = resize z content size := by
  rcases Nat.le_total size content.length with h | h
  · rw [Nat.min_eq_left h]
    simp [resize, List.take_take, Nat.min_eq_left h, Nat.sub_eq_zero_of_le h]
  · rw [Nat.min_eq_right h, List.take_length]

variable {content data : List α} {offset i : Nat}

theorem writeAt_getElem?_of_mem (hlo : offset ≤ i)
    (hhi : i < offset + data.length) : (writeAt z content offset data)[i]? = data[i - offset]? := by
  have hne : data ≠ [] := by
    rintro rfl
    simp only [List.length_nil] at hhi
    omega
  have hlen : (content.take offset ++ replicate (offset - content.length) z).length
      = offset := by
    simp only [length_append, length_take, List.length_replicate]
    omega
  rw [writeAt, if_neg hne, List.append_assoc, List.getElem?_append_right (by omega), hlen,
    List.getElem?_append_left (by omega)]

theorem writeAt_getElem?_of_lt (hi : i < content.length) (hout : i < offset ∨ offset + data.length ≤ i) :
    (writeAt z content offset data)[i]? = content[i]? := by
  by_cases hd : data = []
  · simp [writeAt, hd]
  have hlen : (content.take offset ++ replicate (offset - content.length) z).length
      = offset := by
    simp only [length_append, length_take, List.length_replicate]
    omega
  rw [writeAt, if_neg hd]
  rcases hout with hlt | hge
  · rw [List.append_assoc, List.getElem?_append_left (by omega),
      List.getElem?_append_left (by simp only [length_take]; omega),
      List.getElem?_take_of_lt hlt]
  · rw [List.getElem?_append_right (by simp only [length_append, hlen]; omega),
      length_append, hlen, List.getElem?_drop]
    congr 1
    omega

theorem writeAt_length (hd : data ≠ []) :
    (writeAt z content offset data).length = max content.length (offset + data.length) := by
  rw [writeAt, if_neg hd]
  simp only [length_append, length_take, List.length_replicate, List.length_drop]
  omega

theorem resize_getElem? {size : Nat} (hi : i < content.length)
    (hs : i < size) : (resize z content size)[i]? = content[i]? := by
  rw [resize, List.getElem?_append_left (by simp only [length_take]; omega),
    List.getElem?_take_of_lt hs]

end Extents
