/-
# `Bluestone.Library.Rfc3339` — times in text

`format` and `parse` are those of Go's `time` package for the layouts `RFC3339` and
`RFC3339Nano`.  A time is an instant and the offset of the zone it is shown in.  The text
has the offset in whole minutes and the year in four digits, so that `parse_format` holds
for years 0 to 9999, up to the seconds of the offset and a fraction that is not written.

Reading is more lenient than writing: a fraction is read whether or not the layout has
one, an hour may have one digit, and a comma may stand for the period.
-/
import Bluestone.Library.Calendar
import Bluestone.Library.Numerals
import Mathlib.Data.List.DropRight

namespace Rfc3339

open Numerals
open Option (map_some bind_eq_bind bind_some)
open Calendar

/-- An instant, in seconds and nanoseconds from 1 January of year 1 UTC, and the offset of
its zone in seconds. -/
structure Time where
  sec : Int
  nsec : Nat
  offset : Int
  nsec_lt : nsec < 1000000000
  deriving DecidableEq, Repr

namespace Time

/-- `time.Time{}`. -/
def zero : Time := ⟨0, 0, 0, by decide⟩

def isZero (t : Time) : Bool := t.sec = 0 && t.nsec = 0

/-- `Time.Equal`: the same instant, in whatever zone. -/
def equal (t u : Time) : Bool := t.sec = u.sec && t.nsec = u.nsec

/-- `Time.UTC`. -/
def utc (t : Time) : Time := { t with offset := 0 }

/-- The date its zone shows. -/
def date (t : Time) : Date := Calendar.date ((t.sec + t.offset) / 86400)

/-- The second of the day its zone shows. -/
def clock (t : Time) : Nat := ((t.sec + t.offset) % 86400).toNat

def year (t : Time) : Int := t.date.year

end Time

/-! ## Writing -/

/-- `appendInt`. -/
def appendInt (n : Int) (width : Nat) : List UInt8 :=
  if n < 0 then 45 :: pad width n.natAbs else pad width n.natAbs

/-- `appendNano` for a layout that drops zeros at the end. -/
def appendNano (nsec : Nat) : List UInt8 :=
  if nsec = 0 then [] else 46 :: (pad 9 nsec).rdropWhile (· == digit 0)

/-- The zone: `Z`, or hours and minutes. -/
def appendZone (offset : Int) : List UInt8 :=
  if offset = 0 then [90]
  else
    let zone := offset.tdiv 60
    (if zone < 0 then 45 else 43) :: (pad 2 (zone.natAbs / 60) ++ 58 :: pad 2 (zone.natAbs % 60))

/-- `t.Format(time.RFC3339)`, or with `nanos` `t.Format(time.RFC3339Nano)`. -/
def format (nanos : Bool) (t : Time) : List UInt8 :=
  appendInt t.date.year 4 ++ 45 :: (pad 2 t.date.month ++ 45 :: (pad 2 t.date.day ++
    84 :: (pad 2 (t.clock / 3600) ++ 58 :: (pad 2 (t.clock / 60 % 60) ++
    58 :: (pad 2 (t.clock % 60) ++ ((if nanos then appendNano t.nsec else []) ++
    appendZone t.offset))))))

/-! ## Reading -/

/-- A number of as many digits as the width, and what follows it. -/
def fixed (width : Nat) (text : List UInt8) : Option (Nat × List UInt8) :=
  if text.length < width then none
  else (readDigits 10 0 (text.take width)).map fun n => (n, text.drop width)

/-- `getnum` when one digit is enough. -/
def oneOrTwo (text : List UInt8) : Option (Nat × List UInt8) := fixed 2 text <|> fixed 1 text

def literal (c : UInt8) : List UInt8 → Option (List UInt8)
  | [] => none
  | b :: rest => if b = c then some rest else none

def isDigit (c : UInt8) : Bool := 48 ≤ c.toNat && c.toNat < 58

/-- `parseNanoseconds`: nine digits at most. -/
def parseNanoseconds (digits : List UInt8) : Nat :=
  (readDigits 10 0 (digits.take 9)).getD 0 * 10 ^ (9 - (digits.take 9).length)

/-- A fraction of a second, if there is one, and what follows it. -/
def fraction : List UInt8 → Nat × List UInt8
  | [] => (0, [])
  | c :: rest =>
    if (c = 46 ∨ c = 44) ∧ rest.takeWhile isDigit ≠ [] then
      (parseNanoseconds (rest.takeWhile isDigit), rest.dropWhile isDigit)
    else (0, c :: rest)

/-- The zone's offset and what follows it. -/
def parseZone : List UInt8 → Option (Int × List UInt8)
  | [] => none
  | c :: text =>
    if c = 90 then some (0, text)
    else do
      let (hr, text) ← fixed 2 text
      let text ← literal 58 text
      let (mm, text) ← fixed 2 text
      guard (hr ≤ 24 ∧ mm ≤ 60)
      if c = 43 then some (((hr * 60 + mm) * 60 : Nat), text)
      else if c = 45 then some (-((hr * 60 + mm) * 60 : Nat), text)
      else none

theorem readDigits_lt {l : List UInt8} {acc n : Nat} (h : readDigits 10 acc l = some n) :
    n < (acc + 1) * 10 ^ l.length := by
  induction l generalizing acc with
  | nil =>
    cases h
    simp
  | cons c l ih =>
    rw [readDigits] at h
    obtain ⟨d, hd, hrest⟩ := Option.bind_eq_some_iff.1 h
    have hd10 : d < 10 := by
      rw [digitValue] at hd
      split at hd
      · cases hd
        omega
      · cases hd
    have hn := ih hrest
    rw [List.length_cons, Nat.pow_succ', ← Nat.mul_assoc]
    exact lt_of_lt_of_le hn (Nat.mul_le_mul_right _ (by omega))

theorem parseNanoseconds_lt (digits : List UInt8) : parseNanoseconds digits < 1000000000 := by
  rw [parseNanoseconds]
  cases hread : readDigits 10 0 (digits.take 9) with
  | none => simp
  | some n =>
    have hn := readDigits_lt hread
    have hlen : (digits.take 9).length ≤ 9 := by
      rw [List.length_take]
      omega
    rw [Option.getD_some]
    calc n * 10 ^ (9 - (digits.take 9).length)
        < (0 + 1) * 10 ^ (digits.take 9).length * 10 ^ (9 - (digits.take 9).length) :=
          Nat.mul_lt_mul_of_pos_right hn (Nat.pow_pos (by decide))
      _ = 10 ^ 9 := by rw [Nat.zero_add, Nat.one_mul, ← Nat.pow_add, Nat.add_sub_cancel' hlen]

theorem fraction_lt (text : List UInt8) : (fraction text).1 < 1000000000 := by
  cases text with
  | nil => decide
  | cons c rest =>
    rw [fraction]
    split
    · exact parseNanoseconds_lt _
    · exact Nat.zero_lt_succ _

/-- The fields are those of a date and a time of day. -/
def InRange (d : Date) (hour min sec : Nat) : Prop :=
  1 ≤ d.month ∧ d.month ≤ 12 ∧ 1 ≤ d.day ∧ d.day ≤ daysIn d.month d.year ∧ hour < 24 ∧ min < 60 ∧ sec < 60

instance (d : Date) (hour min sec : Nat) : Decidable (InRange d hour min sec) :=
  inferInstanceAs (Decidable (_ ∧ _))

def parseDate (text : List UInt8) : Option (Date × List UInt8) := do
  let (year, text) ← fixed 4 text
  let text ← literal 45 text
  let (month, text) ← fixed 2 text
  let text ← literal 45 text
  let (day, text) ← fixed 2 text
  some (⟨year, month, day⟩, text)

def parseClock (text : List UInt8) : Option ((Nat × Nat × Nat) × List UInt8) := do
  let (hour, text) ← oneOrTwo text
  let text ← literal 58 text
  let (min, text) ← fixed 2 text
  let text ← literal 58 text
  let (sec, text) ← fixed 2 text
  some ((hour, min, sec), text)

/-- `time.Parse` with either layout. -/
def parse (text : List UInt8) : Option Time := do
  let (date, text) ← parseDate text
  let text ← literal 84 text
  let ((hour, min, sec), text) ← parseClock text
  let (offset, rest) ← parseZone (fraction text).2
  guard (rest.isEmpty ∧ InRange date hour min sec)
  some ⟨dayNumber date * 86400 + (hour * 3600 + min * 60 + sec : Nat) - offset,
    (fraction text).1, offset, fraction_lt text⟩

/-! ## Reading what was written -/

theorem fixed_pad {width n : Nat} (rest : List UInt8) (hw : 0 < width) (h : n < 10 ^ width) :
    fixed width (pad width n ++ rest) = some (n, rest) := by
  have hlen := length_pad hw h
  rw [fixed, if_neg (by rw [List.length_append]; omega), List.take_left' hlen,
    List.drop_left' hlen, readDigits_pad, map_some]

theorem oneOrTwo_pad {n : Nat} (rest : List UInt8) (h : n < 100) :
    oneOrTwo (pad 2 n ++ rest) = some (n, rest) := by
  rw [oneOrTwo, fixed_pad rest (by decide) h]
  rfl

theorem literal_cons (c : UInt8) (rest : List UInt8) : literal c (c :: rest) = some rest :=
  if_pos rfl

theorem parseDate_written {year month day : Nat} (rest : List UInt8) (hyear : year < 10 ^ 4)
    (hmonth : month < 10 ^ 2) (hday : day < 10 ^ 2) :
    parseDate (pad 4 year ++ 45 :: (pad 2 month ++ 45 :: (pad 2 day ++ rest))) =
    some (⟨year, month, day⟩, rest) := by
  rw [parseDate, fixed_pad _ (by decide) hyear]
  dsimp only [bind_eq_bind, bind_some]
  rw [literal_cons, bind_some, fixed_pad _ (by decide) hmonth]
  dsimp only [bind_some]
  rw [literal_cons, bind_some, fixed_pad _ (by decide) hday]
  rfl

theorem parseClock_written {hour min sec : Nat} (rest : List UInt8) (hhour : hour < 10 ^ 2)
    (hmin : min < 10 ^ 2) (hsec : sec < 10 ^ 2) :
    parseClock (pad 2 hour ++ 58 :: (pad 2 min ++ 58 :: (pad 2 sec ++ rest))) =
    some ((hour, min, sec), rest) := by
  rw [parseClock, oneOrTwo_pad _ hhour]
  dsimp only [bind_eq_bind, bind_some]
  rw [literal_cons, bind_some, fixed_pad _ (by decide) hmin]
  dsimp only [bind_some]
  rw [literal_cons, bind_some, fixed_pad _ (by decide) hsec]
  rfl

theorem parseZone_minutes {zone : Int} (h : zone.natAbs / 60 ≤ 24) :
    parseZone ((if zone < 0 then 45 else 43) ::
      (pad 2 (zone.natAbs / 60) ++ 58 :: pad 2 (zone.natAbs % 60))) = some (zone * 60, []) := by
  have hhours : fixed 2 (pad 2 (zone.natAbs / 60) ++ 58 :: pad 2 (zone.natAbs % 60)) = _ :=
    fixed_pad _ (by decide) (by omega)
  have hminutes : fixed 2 (pad 2 (zone.natAbs % 60) ++ []) = _ :=
    fixed_pad _ (by decide) (by omega)
  rw [List.append_nil] at hminutes
  have hguard : zone.natAbs / 60 ≤ 24 ∧ zone.natAbs % 60 ≤ 60 := by omega
  have hvalue : zone.natAbs / 60 * 60 + zone.natAbs % 60 = zone.natAbs := by omega
  split <;>
    simp only [parseZone, hhours, literal_cons, hminutes, bind_eq_bind, bind_some,
      guard, if_pos hguard, hvalue]
  · have hneg : -((zone.natAbs * 60 : Nat) : Int) = zone * 60 := by omega
    simpa using hneg
  · have hpos : ((zone.natAbs * 60 : Nat) : Int) = zone * 60 := by omega
    simpa using hpos

theorem parseZone_appendZone {offset : Int} (h : (offset.tdiv 60).natAbs / 60 ≤ 24) :
    parseZone (appendZone offset) = some (offset.tdiv 60 * 60, []) := by
  rw [appendZone]
  split
  next hzero =>
    subst hzero
    rfl
  next => exact parseZone_minutes h

theorem appendZone_head (offset : Int) :
    ∃ c rest, appendZone offset = c :: rest ∧ isDigit c = false ∧ c ≠ 46 ∧ c ≠ 44 := by
  rw [appendZone]
  split
  · exact ⟨90, [], rfl, by decide⟩
  · dsimp only
    split
    · exact ⟨45, _, rfl, by decide⟩
    · exact ⟨43, _, rfl, by decide⟩

theorem fraction_appendZone (offset : Int) : fraction (appendZone offset) = (0, appendZone offset) := by
  obtain ⟨c, rest, heq, -, hperiod, hcomma⟩ := appendZone_head offset
  rw [heq, fraction, if_neg (by simp [hperiod, hcomma])]

theorem isDigit_pad (width n : Nat) : ∀ c ∈ pad width n, isDigit c := by
  intro c hc
  obtain hzero | hmem := List.mem_append.1 hc
  · rw [List.eq_of_mem_replicate hzero]
    decide
  · simpa [isDigit] using format_digits (by decide) (le_refl 10) n c hmem

theorem readDigits_zeros (l : List UInt8) (k : Nat) :
    readDigits 10 0 (l ++ List.replicate k (digit 0)) = (readDigits 10 0 l).map (· * 10 ^ k) := by
  induction k with
  | zero => simp
  | succ k ih =>
    rw [List.replicate_succ', ← List.append_assoc, readDigits_append, ih]
    cases readDigits 10 0 l with
    | none => rfl
    | some n =>
      simp only [map_some, bind_some, readDigits,
        digitValue_digit (by decide : 0 < 10) (le_refl 10), Nat.pow_succ, Nat.mul_assoc,
        Nat.add_zero]

theorem pad_trimmed {n : Nat} (h : n < 1000000000) : ∃ kept, (pad 9 n).rdropWhile (· == digit 0) = kept ∧
    kept.length ≤ 9 ∧ kept ++ List.replicate (9 - kept.length) (digit 0) = pad 9 n := by
  have hlen := length_pad (by decide : 0 < 9) h
  have hsplit : (pad 9 n).rdropWhile (· == digit 0) ++ (pad 9 n).rtakeWhile (· == digit 0) = pad 9 n :=
    List.rdropWhile_append_rtakeWhile
  have hzeros : ∀ c ∈ (pad 9 n).rtakeWhile (· == digit 0), c = digit 0 := by
    intro c hc
    have hzero := List.mem_rtakeWhile_imp hc
    simpa using hzero
  rw [List.eq_replicate_of_mem hzeros] at hsplit
  have htotal := congrArg List.length hsplit
  rw [List.length_append, List.length_replicate, hlen] at htotal
  refine ⟨_, rfl, by omega, ?_⟩
  rwa [show ((pad 9 n).rtakeWhile (· == digit 0)).length =
    9 - ((pad 9 n).rdropWhile (· == digit 0)).length by omega] at hsplit

theorem fraction_appendNano {n : Nat} (offset : Int) (h : n < 1000000000) :
    fraction (appendNano n ++ appendZone offset) = (n, appendZone offset) := by
  rw [appendNano]
  split
  next hzero =>
    subst hzero
    exact fraction_appendZone offset
  next hne =>
    obtain ⟨kept, heq, hlen, hpad⟩ := pad_trimmed h
    obtain ⟨c, rest, hzone, hnot, -⟩ := appendZone_head offset
    have hread := readDigits_zeros kept (9 - kept.length)
    rw [hpad, readDigits_pad] at hread
    obtain ⟨value, hvalue, hscale⟩ := Option.map_eq_some_iff.1 hread.symm
    have hdigits : ∀ b ∈ kept, isDigit b := fun b hb =>
      isDigit_pad 9 n b (hpad ▸ List.mem_append_left _ hb)
    have htake : (kept ++ c :: rest).takeWhile isDigit = kept := by
      rw [List.takeWhile_append_of_pos hdigits, List.takeWhile_cons_of_neg (by simp [hnot]),
        List.append_nil]
    have hdrop : (kept ++ c :: rest).dropWhile isDigit = c :: rest := by
      rw [List.dropWhile_append_of_pos hdigits, List.dropWhile_cons_of_neg (by simp [hnot])]
    have hkept : kept ≠ [] := by
      rintro rfl
      cases hvalue
      simp only [Nat.zero_mul] at hscale
      exact hne hscale.symm
    rw [heq, hzone, List.cons_append, fraction, htake, hdrop, if_pos ⟨.inl rfl, hkept⟩,
      parseNanoseconds, List.take_of_length_le hlen, hvalue, Option.getD_some, hscale]

theorem fraction_written (nanos : Bool) (t : Time) :
    fraction ((if nanos then appendNano t.nsec else []) ++ appendZone t.offset) =
      (if nanos then t.nsec else 0, appendZone t.offset) := by
  cases nanos with
  | false => exact fraction_appendZone t.offset
  | true => exact fraction_appendNano t.offset t.nsec_lt

theorem Time.clock_lt (t : Time) : t.clock < 86400 := by
  rw [Time.clock]
  omega

theorem parse_format {nanos : Bool} {t : Time} (hyear : 0 ≤ t.year ∧ t.year ≤ 9999)
    (hzone : (t.offset.tdiv 60).natAbs / 60 ≤ 24) :
    ∃ u, parse (format nanos t) = some u ∧ u.offset = t.offset.tdiv 60 * 60 ∧
      u.sec + u.offset = t.sec + t.offset ∧ u.nsec = if nanos then t.nsec else 0 := by
  obtain ⟨hlow, hhigh⟩ := hyear
  rw [Time.year] at hlow hhigh
  have hvalid := date_valid ((t.sec + t.offset) / 86400)
  have hday := dayNumber_date ((t.sec + t.offset) / 86400)
  have hclock := t.clock_lt
  rw [← Time.date] at hvalid hday
  obtain ⟨hm1, hm12, hd1, hdin⟩ := hvalid
  have hd31 : t.date.day ≤ 31 := hdin.trans (daysIn_le _ _)
  have hyear : ((t.date.year.natAbs : Nat) : Int) = t.date.year := by omega
  have hfraction := fraction_written nanos t
  have hparse := parseZone_appendZone hzone
  have hdate : (⟨(t.date.year.natAbs : Nat), t.date.month, t.date.day⟩ : Date) = t.date := by
    rw [hyear]
  have hrange : InRange t.date (t.clock / 3600) (t.clock / 60 % 60) (t.clock % 60) :=
    ⟨hm1, hm12, hd1, hdin, by omega, by omega, by omega⟩
  rw [format, appendInt, if_neg (by omega), parse,
    parseDate_written _ (by omega) (by omega) (by omega), hdate]
  dsimp only [bind_eq_bind, bind_some]
  rw [literal_cons, bind_some, parseClock_written _ (by omega) (by omega) (by omega)]
  simp only [bind_some, hfraction, hparse, guard, List.isEmpty_nil, hrange, and_self, if_true]
  refine ⟨_, rfl, rfl, ?_, ?_⟩
  · dsimp only
    rw [hday, Time.clock]
    omega
  · dsimp only

end Rfc3339
