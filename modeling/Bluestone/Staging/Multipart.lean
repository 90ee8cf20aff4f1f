/-
# `Bluestone.Staging.Multipart` — the parts of a multipart upload

The loop of `uploadMultipartOnce` over the offsets of a staged file.  The parts tile the file
whatever its size; that the service takes no more than `MaxParts` of them is checked by
`UploadParallel` of `internal/cos/multipart.go` only (`uploadParallel_exact`): every session has
parts of 20 MiB, and the quota may admit any size.
-/
import Bluestone.Staging.Quota

namespace Bluestone.Multipart

open Words

structure Part where
  number : Nat
  offset : Nat
  size : Nat
  deriving DecidableEq, Repr

/-- `NewS3MultipartState`, by its part size. -/
def newS3MultipartState (partSizeMB : Int) : Int :=
  wrap (wrap ((if partSizeMB < 5 then 20 else partSizeMB) * 1024) * 1024)

/-- The part size of `syncFileLocked`, for a session made by `NewWriteSession`. -/
def partSize : Nat :=
  let multipartPartSize := newS3MultipartState 20
  (if multipartPartSize ≤ 0 then 20 * 1024 * 1024 else multipartPartSize).toNat

def maxParts : Nat := 10000

/-- The loop of `uploadMultipartOnce` from an offset and part number on. -/
def uploadParts (size partSize offset partNumber : Nat) : List Part :=
  if offset < size ∧ 0 < partSize then
    ⟨partNumber, offset, min partSize (size - offset)⟩ :: uploadParts size partSize (offset + partSize) (partNumber + 1)
  else []
termination_by size - offset

/-- The parts are numbered in order from 1 on, lie one after the other and make up the file;
all but the last are full, and the service takes as many.  No offset leaves 64 bits. -/
structure Fitting (size partSize : Nat) (parts : List Part) : Prop where
  numbered : parts.map Part.number = List.range' 1 parts.length
  ordered : parts.Pairwise fun p q => p.offset + p.size ≤ q.offset
  covers : ∀ b, b < size ↔ ∃ p ∈ parts, p.offset ≤ b ∧ b < p.offset + p.size
  sized : ∀ p ∈ parts, 0 < p.size ∧ p.size ≤ partSize ∧ p.offset + partSize < 2 ^ 63
  full : ∀ p ∈ parts.dropLast, p.size = partSize
  accepted : parts.length ≤ maxParts

section

variable {size partSize : Nat}

theorem numbers_eq (offset number : Nat) : (uploadParts size partSize offset number).map Part.number =
    List.range' number (uploadParts size partSize offset number).length := by
  fun_induction uploadParts size partSize offset number with
  | case1 offset number h ih => simp [ih, List.range'_succ]
  | case2 => rfl

theorem part_bounds {offset number : Nat} {p : Part} (hp : p ∈ uploadParts size partSize offset number) :
    offset ≤ p.offset ∧ p.offset < size ∧ p.size = min partSize (size - p.offset) := by
  fun_induction uploadParts size partSize offset number with
  | case1 offset number h ih =>
    rcases List.mem_cons.1 hp with rfl | hp
    · exact ⟨Nat.le_refl _, h.1, rfl⟩
    · have := ih hp
      omega
  | case2 => cases hp

theorem parts_ordered (offset number : Nat) :
    (uploadParts size partSize offset number).Pairwise fun p q => p.offset + p.size ≤ q.offset := by
  fun_induction uploadParts size partSize offset number with
  | case1 offset number h ih =>
    refine List.pairwise_cons.2 ⟨fun q hq => ?_, ih⟩
    have := part_bounds hq
    dsimp only
    omega
  | case2 => exact .nil

theorem parts_cover (hpos : 0 < partSize) (offset number b : Nat) : offset ≤ b ∧ b < size ↔
    ∃ p ∈ uploadParts size partSize offset number, p.offset ≤ b ∧ b < p.offset + p.size := by
  fun_induction uploadParts size partSize offset number with
  | case1 offset number h ih =>
    simp only [List.mem_cons, exists_eq_or_imp, ← ih]
    omega
  | case2 offset number h =>
    simp only [List.not_mem_nil, false_and, exists_false, iff_false]
    omega

/-- A part before another is followed by a byte of the file. -/
theorem parts_full (offset number : Nat) :
    ∀ p ∈ (uploadParts size partSize offset number).dropLast, p.size = partSize := by
  fun_induction uploadParts size partSize offset number with
  | case1 offset number h ih =>
    cases hrest : uploadParts size partSize (offset + partSize) (number + 1) with
    | nil => exact nofun
    | cons q rest =>
      have hq := part_bounds (hrest ▸ List.mem_cons_self : q ∈ _)
      rw [List.dropLast_cons_cons, ← hrest]
      refine List.forall_mem_cons.2 ⟨?_, ih⟩
      dsimp only
      omega
  | case2 => exact nofun

theorem length_le_iff (hpos : 0 < partSize) (offset number n : Nat) :
    (uploadParts size partSize offset number).length ≤ n ↔ size ≤ offset + n * partSize := by
  fun_induction uploadParts size partSize offset number generalizing n with
  | case1 offset number h ih =>
    cases n with
    | zero =>
      rw [List.length_cons]
      omega
    | succ n =>
      rw [List.length_cons, Nat.succ_le_succ_iff, ih, Nat.succ_mul]
      omega
  | case2 offset number h =>
    rw [List.length_nil]
    omega

end

/-- The quota is a whole number of GiB below `2 ^ 63`. -/
theorem quotaBytes_le (c : Quota.Config) : c.quotaBytes ≤ 2 ^ 63 - 2 ^ 30 := by
  simp only [Quota.Config.quotaBytes, wrap, Int.bmod_def]
  omega

/-- **The parts of a file that the quota admits fit the service exactly up to `MaxParts` full
ones.** -/
theorem parts_fit_iff {c : Quota.Config} {size : Nat} (hquota : size ≤ c.quotaBytes) :
    Fitting size partSize (uploadParts size partSize 0 1) ↔ size ≤ maxParts * partSize := by
  have hpos : 0 < partSize := by decide
  have hlen := @length_le_iff size partSize hpos 0 1 maxParts
  rw [Nat.zero_add] at hlen
  refine ⟨fun h => hlen.1 h.accepted, fun h => ⟨numbers_eq 0 1, parts_ordered 0 1, fun b => ?_, fun p hp => ?_,
    parts_full 0 1, hlen.2 h⟩⟩
  · rw [← parts_cover hpos 0 1 b]
    omega
  · have hp := part_bounds hp
    have := quotaBytes_le c
    have hsmall : partSize < 2 ^ 30 := by decide
    omega

/-- One part of 20 MiB, and one byte. -/
theorem two_parts_fit : Fitting 20971521 partSize (uploadParts 20971521 partSize 0 1) :=
  (parts_fit_iff (c := ⟨1, by decide, false, false, 80, 95⟩) (by decide)).2 (by decide)

/-- A quota of 196 GiB admits a file of one byte more than 10000 parts. -/
theorem one_part_too_many : 209715200001 ≤ (⟨196, by decide, false, false, 80, 95⟩ : Quota.Config).quotaBytes ∧
    ¬ Fitting 209715200001 partSize (uploadParts 209715200001 partSize 0 1) := by
  refine ⟨by decide, fun h => ?_⟩
  exact absurd ((length_le_iff (by decide) 0 1 maxParts).1 h.accepted) (by decide)

/-! ## The parallel upload -/

/-- The part `UploadParallel` cuts out at an index. -/
def partAt (size partSize i : Nat) : Part := ⟨i + 1, i * partSize, min (i * partSize + partSize) size - i * partSize⟩

/-- The parts of `UploadParallel`, unless it refuses the data.  The sum that counts them may
leave 64 bits; then there are none. -/
def uploadParallel (size partSize : Nat) : Option (List Part) :=
  let numParts := (wrap (wrap (size + partSize) - 1)).tdiv partSize
  if numParts > maxParts then none else some ((List.range' 0 numParts.toNat).map (partAt size partSize))

section

variable {size partSize : Nat}

/-- Cut by the index or by the offset, the parts are the same. -/
theorem uploadParts_eq (hpos : 0 < partSize) {i n : Nat} (hn : (size + partSize - 1) / partSize = i + n) :
    uploadParts size partSize (i * partSize) (i + 1) = (List.range' i n).map (partAt size partSize) := by
  have hlt : ∀ k, k < i + n ↔ k * partSize < size := fun k => by
    rw [← hn, Nat.lt_iff_add_one_le, Nat.le_div_iff_mul_le hpos, Nat.succ_mul]
    omega
  induction n generalizing i with
  | zero =>
    have hend : ¬ i * partSize < size := (hlt i).2.mt (Nat.lt_irrefl _)
    rw [uploadParts, if_neg fun h => hend h.1]
    rfl
  | succ n ih =>
    have hmore : i * partSize < size := (hlt i).1 (by omega)
    rw [uploadParts, if_pos ⟨hmore, hpos⟩, ← Nat.succ_mul, ih (by omega) fun k => by rw [← hlt k]; omega]
    simp only [List.range'_succ, List.map_cons, partAt]
    congr 2
    omega

theorem wrap_count (hsize : size < 2 ^ 63) (hpart : partSize < 2 ^ 63) (hpos : 0 < partSize) :
    wrap (wrap (size + partSize) - 1) =
      if 2 ^ 63 < size + partSize then (size + partSize - 1 : Int) - 2 ^ 64 else ((size + partSize - 1 : Nat) : Int) := by
  simp only [wrap, Int.bmod_def]
  split <;> omega

/-- **`UploadParallel` sends the parts that the loop of the sync worker sends, and refuses
exactly what would take too many, unless data and part together pass 64 bits.** -/
theorem uploadParallel_exact (hsize : size < 2 ^ 63) (hpart : partSize < 2 ^ 63) (hpos : 0 < partSize) :
    uploadParallel size partSize = if 2 ^ 63 < size + partSize then some [] else
      if maxParts * partSize < size then none else some (uploadParts size partSize 0 1) := by
  rw [uploadParallel, wrap_count hsize hpart hpos]
  split
  · have hpast : 0 ≤ (-((size + partSize - 1 : Int) - 2 ^ 64)).tdiv partSize :=
      Int.tdiv_nonneg (by omega) (Int.natCast_nonneg _)
    rw [Int.neg_tdiv] at hpast
    rw [if_neg (by omega), Int.toNat_of_nonpos (by omega)]
    rfl
  · have hparts := @uploadParts_eq size partSize hpos 0 _ (Nat.zero_add _).symm
    have hlen := @length_le_iff size partSize hpos 0 1 maxParts
    rw [Nat.zero_mul] at hparts
    rw [hparts, List.length_map, List.length_range', Nat.zero_add] at hlen
    rw [← Int.ofNat_tdiv, Int.toNat_natCast, hparts]
    refine if_congr ?_ rfl rfl
    rw [gt_iff_lt, Int.ofNat_lt, ← not_le, hlen, not_le]

end

theorem two_parts_parallel : uploadParallel 20971521 partSize = some (uploadParts 20971521 partSize 0 1) :=
  (uploadParallel_exact (by decide) (by decide) (by decide)).trans (if_neg (by decide))

end Bluestone.Multipart
