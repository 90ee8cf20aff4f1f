/-
# `Bluestone.Library.Utf8` — bytes read as characters

A text is any bytes.  Read from the left, a character that is properly encoded is read as
itself, and a byte that begins no such character as U+FFFD (`runes`).  A text is valid when
no byte is read that way.

Nothing but the encoding of a character is read as that character (`decodeRune_eq_some`), so
that a text begins with the encodings of the characters read from it, up to the first
U+FFFD (`eq_append_of_runes`).
-/
import Mathlib.Algebra.Group.Nat.Defs
import Mathlib.Data.List.Forall2

namespace Utf8

open List (cons_append getD_cons_zero getD_cons_succ length_cons mem_cons)

def encode (c : Char) : List UInt8 := String.utf8EncodeChar c

/-- The number the bytes at the start would encode, by the first of them. -/
def scalar (text : List UInt8) : Nat :=
  let b := fun i => (text.getD i 0).toNat
  if b 0 < 0x80 then b 0
  else if b 0 < 0xE0 then b 0 % 0x20 * 0x40 + b 1 % 0x40
  else if b 0 < 0xF0 then b 0 % 0x10 * 0x1000 + b 1 % 0x40 * 0x40 + b 2 % 0x40
  else b 0 % 0x08 * 0x40000 + b 1 % 0x40 * 0x1000 + b 2 % 0x40 * 0x40 + b 3 % 0x40

/-- The character at the start, and what follows it; none where no character is properly
encoded. -/
def decodeRune (text : List UInt8) : Option (Char × List UInt8) :=
  let c := Char.ofNat (scalar text)
  if (encode c).isPrefixOf text then some (c, text.drop (encode c).length) else none

variable {text rest : List UInt8} {c : Char}

theorem decodeRune_eq_some (h : decodeRune text = some (c, rest)) : text = encode c ++ rest := by
  rw [decodeRune] at h
  split at h
  next hpre =>
    cases h
    exact (List.prefix_iff_eq_append.1 (List.isPrefixOf_iff_prefix.1 hpre)).symm
  next => cases h

theorem encode_ne_nil (c : Char) : encode c ≠ [] := by
  rw [encode, String.utf8EncodeChar]
  split
  · simp
  · split
    · simp
    · split <;> simp

theorem scalar_encode (c : Char) (rest : List UInt8) : scalar (encode c ++ rest) = c.toNat := by
  have hmax : c.toNat < 0x110000 := by
    have hvalid := c.valid
    rw [UInt32.isValidChar, Nat.isValidChar] at hvalid
    rw [Char.toNat]
    omega
  have hval : c.val.toNat = c.toNat := rfl
  rw [encode, String.utf8EncodeChar]
  split
  next h1 =>
    simp only [scalar, cons_append, getD_cons_zero, getD_cons_succ, UInt8.toNat_ofNat', hval]
    rw [if_pos (by omega)]
    omega
  next h1 =>
    split
    next h2 =>
      simp only [scalar, cons_append, getD_cons_zero, getD_cons_succ, UInt8.toNat_ofNat', hval]
      rw [if_neg (by omega), if_pos (by omega)]
      omega
    next h2 =>
      split
      next h3 =>
        simp only [scalar, cons_append, getD_cons_zero, getD_cons_succ, UInt8.toNat_ofNat', hval]
        rw [if_neg (by omega), if_neg (by omega), if_pos (by omega)]
        omega
      next h3 =>
        simp only [scalar, cons_append, getD_cons_zero, getD_cons_succ, UInt8.toNat_ofNat', hval]
        rw [if_neg (by omega), if_neg (by omega), if_neg (by omega)]
        omega

theorem decodeRune_encode (c : Char) (rest : List UInt8) :
    decodeRune (encode c ++ rest) = some (c, rest) := by
  rw [decodeRune, scalar_encode, Char.ofNat_toNat,
    if_pos (List.isPrefixOf_iff_prefix.2 (List.prefix_append ..)), List.drop_left]

/-! ## Texts -/

/-- What a byte that begins no character is read as. -/
def replacement : Char := Char.ofNat 0xFFFD

/-- The loop over a text, with a round for each byte. -/
def runesLoop : Nat → List UInt8 → List Char
  | 0, _ => []
  | _ + 1, [] => []
  | rounds + 1, b :: rest =>
    match decodeRune (b :: rest) with
    | some (c, rest) => c :: runesLoop rounds rest
    | none => replacement :: runesLoop rounds rest

def runes (text : List UInt8) : List Char := runesLoop text.length text

/-- `utf8.ValidString`. -/
def validLoop : Nat → List UInt8 → Bool
  | 0, text => text.isEmpty
  | _ + 1, [] => true
  | rounds + 1, b :: rest =>
    match decodeRune (b :: rest) with
    | some (_, rest) => validLoop rounds rest
    | none => false

def validString (text : List UInt8) : Bool := validLoop text.length text

theorem decodeRune_shorter (h : decodeRune text = some (c, rest)) : rest.length < text.length := by
  have hpos := List.length_pos_iff.2 (encode_ne_nil c)
  rw [decodeRune_eq_some h, List.length_append]
  omega

theorem runesLoop_eq {rounds : Nat} (h : text.length ≤ rounds) : runesLoop rounds text = runes text := by
  have hall : ∀ {n m : Nat} {text : List UInt8}, text.length ≤ n → text.length ≤ m →
      runesLoop n text = runesLoop m text := by
    intro n
    induction n with
    | zero =>
      intro m text hn _
      obtain rfl : text = [] := List.length_eq_zero_iff.1 (Nat.le_zero.1 hn)
      cases m <;> rfl
    | succ n ih =>
      intro m text hn hm
      cases text with
      | nil => cases m <;> rfl
      | cons b rest =>
        cases m with
        | zero => simp at hm
        | succ m =>
          rw [length_cons] at hn hm
          rw [runesLoop, runesLoop]
          cases hread : decodeRune (b :: rest) with
          | none =>
            dsimp only
            rw [ih (show rest.length ≤ n by omega) (show rest.length ≤ m by omega)]
          | some read =>
            obtain ⟨c, rest'⟩ := read
            have hshort := decodeRune_shorter hread
            rw [length_cons] at hshort
            dsimp only
            rw [ih (show rest'.length ≤ n by omega) (show rest'.length ≤ m by omega)]
  exact hall h (Nat.le_refl _)

theorem runes_nil : runes [] = [] := rfl

theorem runes_encode (c : Char) (rest : List UInt8) : runes (encode c ++ rest) = c :: runes rest := by
  have hread := decodeRune_encode c rest
  have hshort := decodeRune_shorter hread
  cases htext : encode c ++ rest with
  | nil => exact absurd (List.append_eq_nil_iff.1 htext).1 (encode_ne_nil c)
  | cons b tail =>
    rw [htext] at hread hshort
    rw [length_cons] at hshort
    rw [runes, length_cons, runesLoop, hread]
    dsimp only
    rw [runesLoop_eq (by omega)]

theorem runes_flatMap_encode (cs : List Char) (rest : List UInt8) :
    runes (cs.flatMap encode ++ rest) = cs ++ runes rest := by
  induction cs with
  | nil => rfl
  | cons c cs ih => rw [List.flatMap_cons, List.append_assoc, runes_encode, ih, cons_append]

theorem runes_invalid {b : UInt8} (h : decodeRune (b :: rest) = none) :
    runes (b :: rest) = replacement :: runes rest := by
  rw [runes, length_cons, runesLoop, h]
  rfl

theorem text_induction {P : List UInt8 → Prop} (nil : P [])
    (invalid : ∀ b rest, decodeRune (b :: rest) = none → P rest → P (b :: rest))
    (char : ∀ c rest, P rest → P (encode c ++ rest)) (text : List UInt8) : P text := by
  induction hlen : text.length using Nat.strongRecOn generalizing text with
  | ind n ih =>
    cases text with
    | nil => exact nil
    | cons b rest =>
      cases hread : decodeRune (b :: rest) with
      | none =>
        rw [length_cons] at hlen
        exact invalid b rest hread (ih rest.length (by omega) rest rfl)
      | some read =>
        obtain ⟨c, rest'⟩ := read
        have hshort := decodeRune_shorter hread
        rw [decodeRune_eq_some hread]
        exact char c rest' (ih rest'.length (by omega) rest' rfl)

/-- The bytes of an encoding: the number itself if below 0x80, or bytes from 0x80 below 0xF8. -/
theorem mem_encode {b : UInt8} (h : b ∈ encode c) :
    (b.toNat < 0x80 ∧ c.toNat = b.toNat) ∨ (0x80 ≤ b.toNat ∧ b.toNat < 0xF8) := by
  have hval : c.val.toNat = c.toNat := rfl
  have hhigh : ∀ n : Nat, 0x80 ≤ n → n < 0xF8 → b = UInt8.ofNat n →
      0x80 ≤ b.toNat ∧ b.toNat < 0xF8 := by
    rintro n hlow hn rfl
    rw [UInt8.toNat_ofNat']
    omega
  rw [encode, String.utf8EncodeChar] at h
  split at h
  next h1 =>
    obtain rfl := List.mem_singleton.1 h
    rw [UInt8.toNat_ofNat', hval]
    omega
  next h1 =>
    refine .inr ?_
    split at h
    · simp only [mem_cons, List.not_mem_nil, or_false] at h
      obtain h | h := h <;> exact hhigh _ (by omega) (by omega) h
    · split at h
      · simp only [mem_cons, List.not_mem_nil, or_false] at h
        obtain h | h | h := h <;> exact hhigh _ (by omega) (by omega) h
      · simp only [mem_cons, List.not_mem_nil, or_false] at h
        obtain h | h | h | h := h <;> exact hhigh _ (by omega) (by omega) h

theorem decodeRune_ff (rest : List UInt8) : decodeRune (0xFF :: rest) = none := by
  cases hread : decodeRune (0xFF :: rest) with
  | none => rfl
  | some read =>
    obtain ⟨c, rest'⟩ := read
    have htext := decodeRune_eq_some hread
    obtain ⟨b, tail, hc⟩ := List.exists_cons_of_ne_nil (encode_ne_nil c)
    rw [hc, cons_append, List.cons.injEq] at htext
    have hff : (0xFF : UInt8) ∈ encode c := by simp [hc, ← htext.1]
    exact absurd (mem_encode hff) (by simp)

/-- A text begins with the encodings of its characters, up to the first it has no character
for. -/
theorem eq_append_of_runes {cs ds : List Char} (h : runes text = cs ++ ds)
    (hcs : replacement ∉ cs) : ∃ rest, text = cs.flatMap encode ++ rest ∧ runes rest = ds := by
  induction cs generalizing text with
  | nil => exact ⟨text, rfl, h⟩
  | cons c cs ih =>
    cases text with
    | nil => simp [runes_nil] at h
    | cons b rest =>
      cases hread : decodeRune (b :: rest) with
      | none =>
        rw [runes_invalid hread, cons_append, List.cons.injEq] at h
        exact absurd (h.1 ▸ List.mem_cons_self ..) hcs
      | some read =>
        obtain ⟨c', rest'⟩ := read
        have htext := decodeRune_eq_some hread
        rw [htext, runes_encode, cons_append, List.cons.injEq] at h
        obtain ⟨rfl, hrest⟩ := h
        obtain ⟨tail, htail, hds⟩ := ih hrest fun hmem => hcs (List.mem_cons_of_mem _ hmem)
        exact ⟨tail, by rw [htext, htail, List.flatMap_cons, List.append_assoc], hds⟩

end Utf8
