/-
# `Bluestone.Library.Uvarint` — numbers of seven bits to the byte

An unsigned 64-bit number is written lowest bits first, with the high bit set on every
byte but the last (`appendUvarint`).  Reading stops at the first byte without it, and
refuses a number of more than ten bytes or of more than 64 bits (`uvarint`).

`uvarint_append` says that what is written is read back, whatever follows it.  The
converse fails: a number may be written with more bytes than it needs.
-/
import Mathlib.Tactic.Ring

namespace Uvarint

def maxVarintLen64 : Nat := 10

/-- The loop that writes the low seven bits while there are more.  Nine rounds leave at
most one bit of 64. -/
def appendLoop : Nat → Nat → List UInt8
  | 0, x => [UInt8.ofNat x]
  | k + 1, x => if 0x80 ≤ x then UInt8.ofNat (x % 0x80 + 0x80) :: appendLoop k (x / 0x80)
      else [UInt8.ofNat x]

def appendUvarint (x : Nat) : List UInt8 := appendLoop (maxVarintLen64 - 1) x

/-- The loop that reads, at byte `i` with the number so far.  The bits it adds are above
those it has, so that adding is what `|` does. -/
def readLoop : Nat → Nat → List UInt8 → Option (Nat × Nat)
  | _, _, [] => none
  | i, x, b :: rest =>
    if i = maxVarintLen64 then none
    else if b.toNat < 0x80 then
      if i = maxVarintLen64 - 1 ∧ 1 < b.toNat then none
      else some (x + b.toNat * 2 ^ (7 * i), i + 1)
    else readLoop (i + 1) (x + b.toNat % 0x80 * 2 ^ (7 * i)) rest

/-- The number at the start of the bytes and how many of them it takes. -/
def uvarint (bytes : List UInt8) : Option (Nat × Nat) := readLoop 0 0 bytes

theorem two_pow_succ (i : Nat) : 2 ^ (7 * (i + 1)) = 0x80 * 2 ^ (7 * i) := by
  rw [Nat.mul_add, Nat.pow_add]
  ring

theorem appendLoop_length_pos (k x : Nat) : 0 < (appendLoop k x).length := by
  cases k with
  | zero => simp [appendLoop]
  | succ k =>
    rw [appendLoop]
    split <;> simp

theorem readLoop_append {k i acc x : Nat} {rest : List UInt8} (hk : i + k = maxVarintLen64 - 1)
    (hx : x * 2 ^ (7 * i) < 2 ^ 64) : readLoop i acc (appendLoop k x ++ rest) =
    some (acc + x * 2 ^ (7 * i), i + (appendLoop k x).length) := by
  have h9 : maxVarintLen64 = 10 := rfl
  induction k generalizing i acc x with
  | zero =>
    -- the tenth byte: at most one bit is left
    have hi : i = 9 := by omega
    subst hi
    have hx1 : x ≤ 1 := by omega
    have hbyte : (UInt8.ofNat x).toNat = x := by
      rw [UInt8.toNat_ofNat']
      omega
    simp only [appendLoop, List.singleton_append, readLoop, hbyte, List.length_singleton]
    rw [if_neg (by omega), if_pos (by omega), if_neg (by omega)]
  | succ k ih =>
    rw [appendLoop]
    split
    next hbig =>
      have hbyte : (UInt8.ofNat (x % 0x80 + 0x80)).toNat = x % 0x80 + 0x80 := by
        rw [UInt8.toNat_ofNat']
        omega
      have hsplit : x * 2 ^ (7 * i) = x % 0x80 * 2 ^ (7 * i) + x / 0x80 * 2 ^ (7 * (i + 1)) := by
        have hdiv := Nat.mod_add_div x 0x80
        calc x * 2 ^ (7 * i) = (x % 0x80 + 0x80 * (x / 0x80)) * 2 ^ (7 * i) := by rw [hdiv]
          _ = x % 0x80 * 2 ^ (7 * i) + x / 0x80 * 2 ^ (7 * (i + 1)) := by
              rw [two_pow_succ]
              ring
      simp only [List.cons_append, readLoop, hbyte, List.length_cons]
      rw [if_neg (by omega), if_neg (by omega), ih (by omega) (by omega), hsplit]
      congr 2
      · have hmod : (x % 0x80 + 0x80) % 0x80 = x % 0x80 := by omega
        rw [hmod, Nat.add_assoc]
      · omega
    next hsmall =>
      have hbyte : (UInt8.ofNat x).toNat = x := by
        rw [UInt8.toNat_ofNat']
        omega
      simp only [List.singleton_append, readLoop, hbyte, List.length_singleton]
      rw [if_neg (by omega), if_pos (by omega), if_neg (by omega)]

theorem uvarint_append {x : Nat} (rest : List UInt8) (hx : x < 2 ^ 64) :
    uvarint (appendUvarint x ++ rest) = some (x, (appendUvarint x).length) := by
  have h : readLoop 0 0 (appendLoop 9 x ++ rest) = some (0 + x * 2 ^ (7 * 0), 0 + (appendLoop 9 x).length) :=
    readLoop_append rfl (by simpa using hx)
  simpa [uvarint, appendUvarint, maxVarintLen64] using h

theorem appendUvarint_length_pos (x : Nat) : 0 < (appendUvarint x).length :=
  appendLoop_length_pos _ x

theorem readLoop_bounds {i acc n size : Nat} {bytes : List UInt8}
    (h : readLoop i acc bytes = some (n, size)) (hacc : acc < 2 ^ (7 * i)) (hi : i ≤ maxVarintLen64) :
    n < 2 ^ 64 ∧ i < size ∧ size ≤ i + bytes.length := by
  have h10 : maxVarintLen64 = 10 := rfl
  induction bytes generalizing i acc with
  | nil => simp [readLoop] at h
  | cons b rest ih =>
    have hb := b.toNat_lt
    rw [readLoop] at h
    split at h
    · simp at h
    next hten =>
      split at h
      next hlast =>
        split at h
        · simp at h
        next hbit =>
          obtain ⟨rfl, rfl⟩ : acc + b.toNat * 2 ^ (7 * i) = n ∧ i + 1 = size := by simpa using h
          refine ⟨?_, by omega, by simp⟩
          by_cases h9 : i = 9
          · subst h9
            omega
          · have hpow : 2 ^ (7 * i) ≤ 2 ^ 56 := Nat.pow_le_pow_right (by decide) (by omega)
            have hle := Nat.mul_le_mul_right (2 ^ (7 * i)) (show b.toNat ≤ 0x7F by omega)
            omega
      next hmore =>
        have hacc' : acc + b.toNat % 0x80 * 2 ^ (7 * i) < 2 ^ (7 * (i + 1)) := by
          rw [two_pow_succ]
          have hle := Nat.mul_le_mul_right (2 ^ (7 * i)) (show b.toNat % 0x80 ≤ 0x7F by omega)
          omega
        obtain ⟨hn, hlow, hhigh⟩ := ih h hacc' (by omega)
        refine ⟨hn, by omega, ?_⟩
        rw [List.length_cons]
        omega

theorem uvarint_bounds {n size : Nat} {bytes : List UInt8} (h : uvarint bytes = some (n, size)) :
    n < 2 ^ 64 ∧ 0 < size ∧ size ≤ bytes.length := by
  have hbounds := readLoop_bounds h (by decide) (by decide)
  omega

end Uvarint
