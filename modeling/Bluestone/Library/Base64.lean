/-
# `Bluestone.Library.Base64` — base64 without padding

Three bytes are four characters of the standard alphabet, one or two bytes left over are
two or three (`encodeToString`).  Decoding drops line ends, refuses any other character
outside the alphabet and a single character left over, and does not look at the bits of
the last character that no byte takes (`decodeString`).

Text is its bytes.
-/
import Mathlib.Algebra.Group.Nat.Defs

namespace Base64

/-! ## The alphabet -/

/-- The character for six bits. -/
def digit (n : Nat) : UInt8 :=
  if n < 26 then UInt8.ofNat (65 + n)
  else if n < 52 then UInt8.ofNat (71 + n)
  else if n < 62 then UInt8.ofNat (n - 4)
  else if n = 62 then 43
  else 47

/-- The six bits of a character. -/
def value (c : UInt8) : Option Nat :=
  if 65 ≤ c ∧ c ≤ 90 then some (c.toNat - 65)
  else if 97 ≤ c ∧ c ≤ 122 then some (c.toNat - 71)
  else if 48 ≤ c ∧ c ≤ 57 then some (c.toNat + 4)
  else if c = 43 then some 62
  else if c = 47 then some 63
  else none

def isLineEnd (c : UInt8) : Bool := c = 10 || c = 13

theorem value_digit : ∀ n < 64, value (digit n) = some n := by decide

theorem isLineEnd_digit : ∀ n < 64, isLineEnd (digit n) = false := by decide

/-! ## Groups of six bits -/

/-- The bytes, six bits at a time. -/
def sextets : List UInt8 → List Nat
  | a :: b :: c :: rest =>
    let val := a.toNat * 0x10000 + b.toNat * 0x100 + c.toNat
    val / 0x40000 % 0x40 :: val / 0x1000 % 0x40 :: val / 0x40 % 0x40 :: val % 0x40 :: sextets rest
  | [a, b] =>
    let val := a.toNat * 0x10000 + b.toNat * 0x100
    [val / 0x40000 % 0x40, val / 0x1000 % 0x40, val / 0x40 % 0x40]
  | [a] =>
    let val := a.toNat * 0x10000
    [val / 0x40000 % 0x40, val / 0x1000 % 0x40]
  | [] => []

/-- `decodeQuantum`, over the whole text: four groups are three bytes. -/
def octets : List Nat → Option (List UInt8)
  | a :: b :: c :: d :: rest =>
    let val := a * 0x40000 + b * 0x1000 + c * 0x40 + d
    (octets rest).map fun bytes =>
      UInt8.ofNat (val / 0x10000) :: UInt8.ofNat (val / 0x100) :: UInt8.ofNat val :: bytes
  | [a, b, c] =>
    let val := a * 0x40000 + b * 0x1000 + c * 0x40
    some [UInt8.ofNat (val / 0x10000), UInt8.ofNat (val / 0x100)]
  | [a, b] =>
    let val := a * 0x40000 + b * 0x1000
    some [UInt8.ofNat (val / 0x10000)]
  | [_] => none
  | [] => some []

theorem sextets_lt : ∀ (bytes : List UInt8), ∀ n ∈ sextets bytes, n < 64
  | a :: b :: c :: rest => by
      have ih := sextets_lt rest
      simp only [sextets, List.forall_mem_cons]
      exact ⟨by omega, by omega, by omega, by omega, ih⟩
  | [a, b] => by
      simp only [sextets, List.forall_mem_cons]
      exact ⟨by omega, by omega, by omega, by simp⟩
  | [a] => by
      simp only [sextets, List.forall_mem_cons]
      exact ⟨by omega, by omega, by simp⟩
  | [] => by simp [sextets]

theorem ofNat_eq {n : Nat} {b : UInt8} (h : n % 0x100 = b.toNat) : UInt8.ofNat n = b := by
  apply UInt8.toNat_inj.1
  rw [UInt8.toNat_ofNat']
  exact h

theorem octets_sextets : ∀ bytes : List UInt8, octets (sextets bytes) = some bytes
  | a :: b :: c :: rest => by
      have ha := a.toNat_lt
      have hb := b.toNat_lt
      have hc := c.toNat_lt
      simp only [sextets, octets, octets_sextets rest, Option.map_some, Option.some.injEq]
      rw [ofNat_eq (b := a), ofNat_eq (b := b), ofNat_eq (b := c)] <;> omega
  | [a, b] => by
      have ha := a.toNat_lt
      have hb := b.toNat_lt
      simp only [sextets, octets, Option.some.injEq]
      rw [ofNat_eq (b := a), ofNat_eq (b := b)] <;> omega
  | [a] => by
      have ha := a.toNat_lt
      simp only [sextets, octets, Option.some.injEq]
      rw [ofNat_eq (b := a)]
      omega
  | [] => rfl

/-! ## Text -/

/-- `RawStdEncoding.EncodeToString`. -/
def encodeToString (bytes : List UInt8) : List UInt8 := (sextets bytes).map digit

/-- `RawStdEncoding.DecodeString`. -/
def decodeString (text : List UInt8) : Option (List UInt8) :=
  ((text.filter fun c => !isLineEnd c).mapM value).bind octets

/-- `RawStdEncoding.EncodedLen`. -/
def encodedLen (n : Nat) : Nat := n / 3 * 4 + (n % 3 * 8 + 5) / 6

theorem mapM_value_digit {groups : List Nat} (h : ∀ n ∈ groups, n < 64) :
    (groups.map digit).mapM value = some groups := by
  induction groups with
  | nil => rfl
  | cons n groups ih =>
    have hn := h n List.mem_cons_self
    have hrest := ih fun m hm => h m (List.mem_cons_of_mem _ hm)
    simp [value_digit n hn, hrest]

theorem decodeString_encodeToString (bytes : List UInt8) :
    decodeString (encodeToString bytes) = some bytes := by
  have hlt := sextets_lt bytes
  have hkeep : ((sextets bytes).map digit).filter (fun c => !isLineEnd c) =
      (sextets bytes).map digit := by
    rw [List.filter_eq_self]
    intro c hc
    obtain ⟨n, hn, rfl⟩ := List.mem_map.1 hc
    rw [isLineEnd_digit n (hlt n hn)]
    rfl
  rw [decodeString, encodeToString, hkeep, mapM_value_digit hlt, Option.bind_some, octets_sextets]

theorem length_sextets : ∀ bytes : List UInt8, (sextets bytes).length = encodedLen bytes.length
  | a :: b :: c :: rest => by
      have ih := length_sextets rest
      simp only [sextets, List.length_cons, ih, encodedLen]
      omega
  | [a, b] => by simp [sextets, encodedLen]
  | [a] => by simp [sextets, encodedLen]
  | [] => rfl

theorem length_encodeToString (bytes : List UInt8) :
    (encodeToString bytes).length = encodedLen bytes.length := by
  rw [encodeToString, List.length_map, length_sextets]

end Base64
