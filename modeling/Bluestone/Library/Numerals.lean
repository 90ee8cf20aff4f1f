/-
# `Bluestone.Library.Numerals` — numbers in text

Numbers written in a base of at most ten and read back.  `readDigits` takes digits only, and
goes on from the number it is given; `parseUint` and `atoi` add what the source's readers
refuse: no digits, and a number that the type does not hold.

Text is its bytes.
-/
import Bluestone.Library.Words
import Mathlib.Data.Nat.Digits.Lemmas

namespace Numerals

/-! ## Digits -/

def digit (d : Nat) : UInt8 := UInt8.ofNat (48 + d)

/-- The value of a digit of the base. -/
def digitValue (base : Nat) (c : UInt8) : Option Nat :=
  if 48 ≤ c.toNat ∧ c.toNat < 48 + base then some (c.toNat - 48) else none

/-- The number the digits make after those already read. -/
def readDigits (base : Nat) : Nat → List UInt8 → Option Nat
  | acc, [] => some acc
  | acc, c :: rest => (digitValue base c).bind fun d => readDigits base (acc * base + d) rest

def format (base n : Nat) : List UInt8 :=
  if n = 0 then [digit 0] else (Nat.digits base n).reverse.map digit

variable {base : Nat}

theorem toNat_digit {d : Nat} (h : d < 10) : (digit d).toNat = 48 + d := by
  rw [digit, UInt8.toNat_ofNat']
  omega

theorem digitValue_digit {d : Nat} (hd : d < base) (hbase : base ≤ 10) :
    digitValue base (digit d) = some d := by
  rw [digitValue, toNat_digit (by omega), if_pos (by omega)]
  congr 1
  omega

theorem readDigits_append (acc : Nat) (l rest : List UInt8) :
    readDigits base acc (l ++ rest) = (readDigits base acc l).bind fun n => readDigits base n rest := by
  induction l generalizing acc with
  | nil => rfl
  | cons c l ih =>
    simp only [List.cons_append, readDigits]
    cases digitValue base c with
    | none => rfl
    | some d => exact ih _

theorem readDigits_digits (hlow : 2 ≤ base) (hbase : base ≤ 10) (n : Nat) :
    readDigits base 0 ((Nat.digits base n).reverse.map digit) = some n := by
  induction n using Nat.strong_induction_on with
  | _ n ih =>
    by_cases hn : n = 0
    · subst hn
      rw [Nat.digits_zero]
      rfl
    · have hlt : n / base < n := Nat.div_lt_self (by omega) hlow
      rw [Nat.digits_def' hlow (by omega), List.reverse_cons, List.map_append, readDigits_append,
        ih _ hlt, Option.bind_some, List.map_singleton, readDigits,
        digitValue_digit (Nat.mod_lt _ (by omega)) hbase, Option.bind_some, readDigits, Nat.mul_comm,
        Nat.div_add_mod]

theorem readDigits_format (hlow : 2 ≤ base) (hbase : base ≤ 10) (n : Nat) :
    readDigits base 0 (format base n) = some n := by
  rw [format]
  split
  next hn =>
    subst hn
    rw [readDigits, digitValue_digit (by omega) hbase, Option.bind_some, readDigits, Nat.zero_mul]
  next => exact readDigits_digits hlow hbase n

theorem format_ne_nil (base n : Nat) : format base n ≠ [] := by
  rw [format]
  split
  · simp
  next hn => simp [Nat.digits_eq_nil_iff_eq_zero, hn]

theorem format_digits (hlow : 2 ≤ base) (hbase : base ≤ 10) (n : Nat) :
    ∀ c ∈ format base n, 48 ≤ c.toNat ∧ c.toNat < 58 := by
  intro c hc
  rw [format] at hc
  split at hc
  · rw [List.mem_singleton] at hc
    subst hc
    decide
  · obtain ⟨d, hd, rfl⟩ := List.mem_map.1 hc
    have hlt := Nat.digits_lt_base hlow (List.mem_reverse.1 hd)
    rw [toNat_digit (by omega)]
    omega

/-! ## Machine integers -/

/-- `strconv.ParseUint` for a base of at most ten. -/
def parseUint (base bits : Nat) (text : List UInt8) : Option Nat :=
  if text = [] then none else (readDigits base 0 text).filter fun n => n < 2 ^ bits

/-- `strconv.Itoa`. -/
def itoa (n : Int) : List UInt8 :=
  if n < 0 then 45 :: format 10 n.natAbs else format 10 n.natAbs

/-- The number with its sign, if there are digits and an `int` holds it. -/
def signed (sign : Int) (digits : List UInt8) : Option Int :=
  if digits = [] then none
  else (readDigits 10 0 digits).bind fun n => if Words.Fits (sign * n) then some (sign * n) else none

/-- `strconv.Atoi`, for an `int` of 64 bits. -/
def atoi : List UInt8 → Option Int
  | 45 :: rest => signed (-1) rest
  | 43 :: rest => signed 1 rest
  | text => signed 1 text

theorem parseUint_format (hlow : 2 ≤ base) (hbase : base ≤ 10) {bits n : Nat} (h : n < 2 ^ bits) :
    parseUint base bits (format base n) = some n := by
  rw [parseUint, if_neg (format_ne_nil base n), readDigits_format hlow hbase]
  simp [Option.filter, h]

theorem signed_format {sign : Int} {n : Nat} (h : Words.Fits (sign * n)) :
    signed sign (format 10 n) = some (sign * n) := by
  rw [signed, if_neg (format_ne_nil 10 n), readDigits_format (by decide) (le_refl 10), Option.bind_some,
    if_pos h]

theorem atoi_format (n : Nat) : atoi (format 10 n) = signed 1 (format 10 n) := by
  have hdigits := format_digits (by decide : 2 ≤ 10) (le_refl 10) n
  unfold atoi
  split
  next rest heq =>
    have hminus := hdigits 45 (by rw [heq]; exact List.mem_cons_self ..)
    simp at hminus
  next rest heq =>
    have hplus := hdigits 43 (by rw [heq]; exact List.mem_cons_self ..)
    simp at hplus
  next => rfl

theorem atoi_itoa {n : Int} (h : Words.Fits n) : atoi (itoa n) = some n := by
  rw [itoa]
  split
  next hneg =>
    have hvalue : -1 * (n.natAbs : Int) = n := by omega
    rw [atoi, signed_format (hvalue.symm ▸ h), hvalue]
  next hpos =>
    have hvalue : 1 * (n.natAbs : Int) = n := by omega
    rw [atoi_format, signed_format (hvalue.symm ▸ h), hvalue]

/-! ## Numbers of a fixed width -/

/-- A number with zeros before it up to the width. -/
def pad (width n : Nat) : List UInt8 :=
  List.replicate (width - (format 10 n).length) (digit 0) ++ format 10 n

theorem length_format_le {width n : Nat} (hw : 0 < width) (h : n < 10 ^ width) :
    (format 10 n).length ≤ width := by
  rw [format]
  split
  · exact hw
  · rw [List.length_map, List.length_reverse]
    exact (Nat.digits_length_le_iff (by decide) n).2 h

theorem length_pad {width n : Nat} (hw : 0 < width) (h : n < 10 ^ width) :
    (pad width n).length = width := by
  have hle := length_format_le hw h
  rw [pad, List.length_append, List.length_replicate]
  omega

theorem readDigits_replicate_zero (k : Nat) : readDigits 10 0 (List.replicate k (digit 0)) = some 0 := by
  induction k with
  | zero => rfl
  | succ k ih =>
    rw [List.replicate_succ, readDigits, digitValue_digit (by decide) (le_refl 10), Option.bind_some]
    exact ih

theorem readDigits_pad (width n : Nat) : readDigits 10 0 (pad width n) = some n := by
  rw [pad, readDigits_append, readDigits_replicate_zero, Option.bind_some]
  exact readDigits_format (by decide) (le_refl 10) n

end Numerals
