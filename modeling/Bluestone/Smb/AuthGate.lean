/-
# `Bluestone.Smb.AuthGate` — blocks of a client that keeps failing to sign in

A client that fails `Failures` times is blocked, and each further block is twice as long
as the one before, up to `MaxBlock`.  Its record is dropped once its last failure is
older than `Window`, also when that is only because the block was longer: the client then
starts again with the first block (`guessing_gets_faster`, with the default limits).

`guessing_gets_slower` says when the blocks never get shorter for a client that tries
again as soon as it may, `blocked_only_after_failures` who is blocked at all.

Times and durations are nanoseconds.
-/
import Bluestone.Library.Words
import Mathlib.Algebra.Order.Ring.Int
import Mathlib.Data.List.Induction

namespace Bluestone.AuthGate

open Words

structure AuthLimits where
  failures : Int
  window : Int
  block : Int
  maxBlock : Int

def second : Int := 1000000000

def AuthLimits.withDefaults (l : AuthLimits) : AuthLimits :=
  let block := if l.block ≤ 0 then 30 * second else l.block
  { failures := if l.failures ≤ 0 then 5 else l.failures
    window := if l.window ≤ 0 then 300 * second else l.window
    block := block
    maxBlock := if l.maxBlock < block then max (900 * second) block else l.maxBlock }

/-- What `validateSMBLimits` accepts; the numbers are 64-bit. -/
structure Accepted (l : AuthLimits) : Prop where
  failures : 0 ≤ l.failures
  window : 0 < l.window
  block : 0 < l.block
  ordered : l.block ≤ l.maxBlock
  fits : l.maxBlock < 2 ^ 63

/-- `blockedTill` is `none` for the zero time, which is before every other. -/
structure AuthRecord where
  failures : Int
  lastFailure : Int
  blockedFor : Int
  blockedTill : Option Int
  deriving DecidableEq, Repr

def AuthRecord.zero : AuthRecord := ⟨0, 0, 0, none⟩

/-- `now.Before(record.blockedTill)`. -/
def AuthRecord.blockedAt (r : AuthRecord) (now : Int) : Bool := r.blockedTill.any fun till => now < till

/-- `now.Sub(record.lastFailure) > Window`; a difference of times is at most the longest
duration. -/
def AuthRecord.stale (l : AuthLimits) (r : AuthRecord) (now : Int) : Bool :=
  min (now - r.lastFailure) (2 ^ 63 - 1) > l.window

/-- `Allow`, on the record of the client. -/
def allow (l : AuthLimits) (now : Int) : Option AuthRecord → Bool × Option AuthRecord
  | none => (true, none)
  | some r =>
    if r.blockedAt now then (false, some r)
    else (true, if r.stale l now then none else some r)

/-- The next block. -/
def AuthLimits.nextBlock (l : AuthLimits) (blockedFor : Int) : Int :=
  if blockedFor = 0 then l.block
  else if blockedFor < l.maxBlock then min (wrap (blockedFor * 2)) l.maxBlock
  else blockedFor

/-- The record a failure counts in. -/
def recordFor (l : AuthLimits) (now : Int) : Option AuthRecord → AuthRecord
  | none => .zero
  | some r => if r.stale l now then .zero else r

/-- `Attempted`. -/
def attempted (l : AuthLimits) (now : Int) (ok : Bool) (record : Option AuthRecord) : Option AuthRecord :=
  if ok then none
  else
    let r := recordFor l now record
    let r := { r with failures := r.failures + 1, lastFailure := now }
    if r.failures < l.failures then some r
    else
      some { r with
        failures := 0
        blockedFor := l.nextBlock r.blockedFor
        blockedTill := some (now + l.nextBlock r.blockedFor) }

/-- What `blockedClients` leaves of the record. -/
def swept (l : AuthLimits) (record : Option AuthRecord) (now : Int) : Option AuthRecord :=
  record.filter fun r => r.blockedAt now || !r.stale l now

/-! ## The client -/

/-- The client is let in and fails the configured number of times at once. -/
def guess (l : AuthLimits) (now : Int) (record : Option AuthRecord) : Option AuthRecord :=
  (attempted l now false)^[l.failures.toNat] (allow l now record).2

/-- When the client may try again. -/
def retryAt (now : Int) (record : Option AuthRecord) : Int :=
  max now ((record.bind (·.blockedTill)).getD now)

/-- The time of the `n`-th block and the record then.  The timer calls `blockedClients` at
any times before the client tries again. -/
def turn (l : AuthLimits) (start : Int) (sweeps : Nat → List Int) : Nat → Int × Option AuthRecord
  | 0 => (start, guess l start none)
  | n + 1 =>
    let before := turn l start sweeps n
    let now := retryAt before.1 before.2
    let timer := (sweeps n).filter fun t => before.1 ≤ t && t ≤ now
    (now, guess l now (timer.foldl (swept l) before.2))

/-- The duration of the `n`-th block. -/
def duration (l : AuthLimits) (start : Int) (sweeps : Nat → List Int) (n : Nat) : Int :=
  ((turn l start sweeps n).2.map (·.blockedFor)).getD 0

/-- The client is blocked once it has failed the configured number of times. -/
def Blocked (l : AuthLimits) (start : Int) (sweeps : Nat → List Int) (n : Nat) : Prop :=
  (allow l (turn l start sweeps n).1 (turn l start sweeps n).2).1 = false

/-! ## What a round leaves -/

/-- The record of a client that was just blocked for `d`. -/
def blockedRecord (now d : Int) : AuthRecord := ⟨0, now, d, some (now + d)⟩

section
variable {l : AuthLimits} {now : Int}

theorem not_stale_self (hw : 0 < l.window) {r : AuthRecord} (hlast : r.lastFailure = now) :
    r.stale l now = false := by
  simp only [AuthRecord.stale, hlast, Int.sub_self, decide_eq_false_iff_not]
  omega

theorem attempts (hw : 0 < l.window) {record : Option AuthRecord}
    (hzero : (recordFor l now record).failures = 0) (k : Nat) (hk : k < l.failures) :
    (attempted l now false)^[k + 1] record = if k + 1 < l.failures then
        some { recordFor l now record with failures := k + 1, lastFailure := now }
      else some (blockedRecord now (l.nextBlock (recordFor l now record).blockedFor)) := by
  induction k with
  | zero =>
    simp only [Function.iterate_succ_apply', Function.iterate_zero, id, attempted, hzero,
      Bool.false_eq_true, if_false, blockedRecord]
    rfl
  | succ k ih =>
    rw [Function.iterate_succ_apply', ih (by omega), if_pos (by omega)]
    simp only [attempted, recordFor, not_stale_self hw, Bool.false_eq_true, if_false, blockedRecord]
    norm_cast

theorem guess_eq (hw : 0 < l.window) (hf : 0 < l.failures) {record : Option AuthRecord}
    (hzero : (recordFor l now (allow l now record).2).failures = 0) :
    guess l now record =
      some (blockedRecord now (l.nextBlock (recordFor l now (allow l now record).2).blockedFor)) := by
  obtain ⟨k, hk⟩ : ∃ k, l.failures.toNat = k + 1 := ⟨l.failures.toNat - 1, by omega⟩
  rw [guess, hk, attempts hw hzero k (by omega), if_neg (by omega)]

/-- When the client comes back, the record of its last block `d` is new if it is stale by
then; the timer makes no difference. -/
theorem guess_again (hw : 0 < l.window) (hf : 0 < l.failures) {d : Int} (hd : d < 2 ^ 63) (timer : List Int) :
    guess l (max now (now + d))
        ((timer.filter fun t => now ≤ t && t ≤ max now (now + d)).foldl (swept l) (some (blockedRecord now d))) =
      some (blockedRecord (max now (now + d)) (if l.window < d then l.block else l.nextBlock d)) := by
  have hstale : (blockedRecord now d).stale l (max now (now + d)) = decide (l.window < d) := by
    refine decide_eq_decide.2 ?_
    simp only [blockedRecord]
    omega
  have hfree : (blockedRecord now d).blockedAt (max now (now + d)) = false := by
    simp [AuthRecord.blockedAt, blockedRecord]
  -- a sweep drops the record only at the end of a block that made it stale
  have hswept : ∀ times : List Int, (∀ t ∈ times, now ≤ t ∧ t ≤ max now (now + d)) →
      times.foldl (swept l) (some (blockedRecord now d)) = some (blockedRecord now d) ∨
      l.window < d ∧ times.foldl (swept l) (some (blockedRecord now d)) = none := by
    intro times htimes
    induction times using List.reverseRecOn with
    | nil => exact .inl rfl
    | append_singleton times t ih =>
      rw [List.foldl_append]
      rcases ih fun u hu => htimes u (List.mem_append_left _ hu) with hsame | ⟨hlong, hnone⟩
      · rw [hsame, List.foldl_cons, List.foldl_nil, swept, Option.filter_some]
        split
        · exact .inl rfl
        · next hdrop =>
            have ht := htimes t (List.mem_append_right _ (List.mem_singleton_self t))
            refine .inr ⟨?_, rfl⟩
            simp [AuthRecord.stale, blockedRecord] at hdrop
            omega
      · exact .inr ⟨hlong, by rw [hnone]; rfl⟩
  have hfor : recordFor l (max now (now + d)) (allow l (max now (now + d))
      ((timer.filter fun t => now ≤ t && t ≤ max now (now + d)).foldl (swept l)
        (some (blockedRecord now d)))).2 = if l.window < d then .zero else blockedRecord now d := by
    rcases hswept (timer.filter fun t => now ≤ t && t ≤ max now (now + d)) (by simp) with hsame | ⟨hlong, hnone⟩
    · rw [hsame]
      by_cases hlong : l.window < d
      · simp [allow, hfree, hstale, hlong, recordFor]
      · simp [allow, hfree, hstale, hlong, recordFor]
    · rw [hnone, if_pos hlong]
      rfl
  rw [guess_eq hw hf, hfor]
  · split
    · rfl
    · rfl
  · rw [hfor]
    split <;> rfl

/-- The durations of a client that comes back: the first block again after one that was
longer than the window. -/
theorem turn_eq (hw : 0 < l.window) (hf : 0 < l.failures) (hl : l.block < 2 ^ 63) (hmax : l.maxBlock < 2 ^ 63)
    (start : Int) (sweeps : Nat → List Int) (n : Nat) :
    (turn l start sweeps n).2 = some (blockedRecord (turn l start sweeps n).1 (duration l start sweeps n)) ∧
    duration l start sweeps n < 2 ^ 63 ∧
    (n = 0 → duration l start sweeps n = l.block) ∧
    duration l start sweeps (n + 1) =
      if l.window < duration l start sweeps n then l.block else l.nextBlock (duration l start sweeps n) := by
  have hnext : ∀ d : Int, d < 2 ^ 63 → l.nextBlock d < 2 ^ 63 := by
    intro d hd
    unfold AuthLimits.nextBlock
    split
    · exact hl
    split
    · omega
    · exact hd
  have hagain : ∀ n, (∃ d, d < 2 ^ 63 ∧
      (turn l start sweeps n).2 = some (blockedRecord (turn l start sweeps n).1 d)) →
      (turn l start sweeps (n + 1)).2 = some (blockedRecord (turn l start sweeps (n + 1)).1
        (if l.window < duration l start sweeps n then l.block else l.nextBlock (duration l start sweeps n))) := by
    rintro n ⟨d, hd, hturn⟩
    have hduration : duration l start sweeps n = d := by rw [duration, hturn]; rfl
    rw [hduration, turn, hturn]
    exact guess_again hw hf hd (sweeps n)
  have hrecord : ∀ n, ∃ d, d < 2 ^ 63 ∧
      (turn l start sweeps n).2 = some (blockedRecord (turn l start sweeps n).1 d) := by
    intro n
    induction n with
    | zero => exact ⟨l.block, hl, guess_eq hw hf rfl⟩
    | succ n ih =>
      refine ⟨_, ?_, hagain n ih⟩
      obtain ⟨d, hd, hturn⟩ := ih
      have hduration : duration l start sweeps n = d := by rw [duration, hturn]; rfl
      rw [hduration]
      split
      · exact hl
      · exact hnext d hd
  obtain ⟨d, hd, hturn⟩ := hrecord n
  have hduration : duration l start sweeps n = d := by rw [duration, hturn]; rfl
  refine ⟨hduration ▸ hturn, hduration ▸ hd, ?_, ?_⟩
  · rintro rfl
    rw [duration, show (turn l start sweeps 0).2 = _ from guess_eq hw hf rfl]
    rfl
  · rw [duration, hagain n ⟨d, hd, hturn⟩]
    rfl

end

/-! ## The durations -/

/-- The durations of the blocks, one after another. -/
structure Series (l : AuthLimits) (d : Nat → Int) : Prop where
  first : d 0 = l.block
  next : ∀ n, d (n + 1) = if l.window < d n then l.block else l.nextBlock (d n)

section
variable {l : AuthLimits} {d : Nat → Int}

theorem two_pow_succ (b : Int) (n : Nat) : b * 2 ^ (n + 1) = b * 2 ^ n * 2 := by
  rw [pow_succ, mul_assoc]

theorem Series.doubled (h : Series l d) (hl : Accepted l) (hw : l.maxBlock ≤ l.window)
    (hfits : ∀ k : Nat, l.block * 2 ^ k < l.maxBlock → l.block * 2 ^ (k + 1) < 2 ^ 63) (n : Nat) :
    d n = min (l.block * 2 ^ n) l.maxBlock := by
  have hpos := hl.block
  induction n with
  | zero =>
    rw [h.first, pow_zero, mul_one, min_eq_left hl.ordered]
  | succ n ih =>
    have hge : l.block ≤ l.block * 2 ^ n := le_mul_of_one_le_right hpos.le (one_le_pow₀ (by omega))
    have hfit := hfits n
    rw [two_pow_succ] at hfit ⊢
    rw [h.next, if_neg (by omega), AuthLimits.nextBlock, if_neg (by have := hl.ordered; omega)]
    by_cases hlt : l.block * 2 ^ n < l.maxBlock
    · rw [ih, min_eq_left hlt.le, if_pos hlt, wrap_eq ⟨by omega, hfit hlt⟩]
    · rw [ih, min_eq_right (by omega), if_neg (lt_irrefl _), min_eq_right (by omega)]

theorem Series.doubled_of_monotone (h : Series l d) (hl : Accepted l) (hmono : ∀ n, d n ≤ d (n + 1))
    (hw : l.maxBlock ≤ l.window) (k : Nat) (hk : l.block * 2 ^ k < l.maxBlock) :
    d k = l.block * 2 ^ k ∧ l.block * 2 ^ (k + 1) < 2 ^ 63 := by
  have hpos := hl.block
  have hmax := hl.fits
  have hstep : ∀ k : Nat, l.block * 2 ^ k < l.maxBlock → d k = l.block * 2 ^ k →
      l.block * 2 ^ (k + 1) < 2 ^ 63 ∧ d (k + 1) = min (l.block * 2 ^ (k + 1)) l.maxBlock := by
    intro k hk hd
    have hge : l.block ≤ l.block * 2 ^ k := le_mul_of_one_le_right hpos.le (one_le_pow₀ (by omega))
    have hnext := h.next k
    rw [hd, if_neg (by omega), AuthLimits.nextBlock, if_neg (by omega), if_pos hk] at hnext
    have hle := hmono k
    rw [hd, hnext] at hle
    rw [two_pow_succ, hnext]
    by_cases hfits : l.block * 2 ^ k * 2 < 2 ^ 63
    · rw [wrap_eq ⟨by omega, hfits⟩]
      exact ⟨hfits, rfl⟩
    · rw [wrap_past (by omega) (by omega)] at hle
      omega
  induction k with
  | zero =>
    have hfirst : d 0 = l.block * 2 ^ 0 := by rw [h.first, pow_zero, mul_one]
    exact ⟨hfirst, (hstep 0 hk hfirst).1⟩
  | succ k ih =>
    have hge : 0 < l.block * 2 ^ k := mul_pos hpos (pow_pos (by omega) k)
    have hk' := hk
    rw [two_pow_succ] at hk'
    obtain ⟨hd, -⟩ := ih (by omega)
    have hd' : d (k + 1) = l.block * 2 ^ (k + 1) := by
      rw [(hstep k (by omega) hd).2, min_eq_left hk.le]
    exact ⟨hd', (hstep (k + 1) hk hd').1⟩

theorem Series.slower_iff (h : Series l d) (hl : Accepted l) :
    ((∀ n, d n ≤ d (n + 1)) ∧ (∃ n, d n = l.maxBlock) ∧ ∀ n, 0 < d n) ↔ l.block = l.maxBlock ∨
      l.maxBlock ≤ l.window ∧ ∀ k : Nat, l.block * 2 ^ k < l.maxBlock → l.block * 2 ^ (k + 1) < 2 ^ 63 := by
  have hpos := hl.block
  constructor
  · rintro ⟨hmono, ⟨N, hN⟩, -⟩
    by_cases heq : l.block = l.maxBlock
    · exact .inl heq
    have hle : ∀ n, l.block ≤ d n := by
      intro n
      induction n with
      | zero => exact h.first.ge
      | succ n ih => exact ih.trans (hmono n)
    -- a block longer than the window would be followed by the first one
    have hwindow : ∀ n, l.window < d n → d n = l.block := by
      intro n hn
      have hnext := h.next n
      rw [if_pos hn] at hnext
      exact le_antisymm (hnext ▸ hmono n) (hle n)
    have hw : l.maxBlock ≤ l.window := by
      by_contra hlong
      exact heq ((hwindow N (by omega)).symm.trans hN)
    exact .inr ⟨hw, fun k hk => (h.doubled_of_monotone hl hmono hw k hk).2⟩
  · rintro (heq | ⟨hw, hfits⟩)
    · have hconst : ∀ n, d n = l.block := by
        intro n
        induction n with
        | zero => exact h.first
        | succ n ih =>
          have hnext : l.nextBlock l.block = l.block := by
            rw [AuthLimits.nextBlock, if_neg hpos.ne', if_neg heq.not_lt]
          rw [h.next, ih, hnext, ite_self]
      exact ⟨fun n => by rw [hconst, hconst], ⟨0, (hconst 0).trans heq⟩, fun n => by rw [hconst]; exact hpos⟩
    · have hdoubled := h.doubled hl hw hfits
      have hge : ∀ n : Nat, 0 < l.block * 2 ^ n := fun n => mul_pos hpos (pow_pos (by omega) n)
      refine ⟨fun n => ?_, ⟨l.maxBlock.toNat, ?_⟩, fun n => ?_⟩
      · rw [hdoubled, hdoubled, two_pow_succ]
        have := hge n
        omega
      · rw [hdoubled]
        refine min_eq_right ?_
        have hpow : (l.maxBlock.toNat : Int) < 2 ^ l.maxBlock.toNat := by exact_mod_cast Nat.lt_two_pow_self
        have hmul : (2 : Int) ^ l.maxBlock.toNat ≤ l.block * 2 ^ l.maxBlock.toNat :=
          le_mul_of_one_le_left (pow_pos (by omega) _).le (by omega)
        omega
      · have := hge n
        rw [hdoubled]
        have := hl.ordered
        omega

end

theorem withDefaults_accepted {l : AuthLimits} (hl : Accepted l) :
    Accepted l.withDefaults ∧ 0 < l.withDefaults.failures ∧ l.withDefaults.window = l.window ∧
      l.withDefaults.block = l.block ∧ l.withDefaults.maxBlock = l.maxBlock := by
  obtain ⟨hfailures, hwindow, hblock, hordered, hfits⟩ := hl
  have heq : l.withDefaults = { l with failures := if l.failures ≤ 0 then 5 else l.failures } := by
    simp [AuthLimits.withDefaults, hwindow.not_ge, hblock.not_ge, hordered.not_gt]
  have hf : 0 < (if l.failures ≤ 0 then 5 else l.failures) := by
    split <;> omega
  rw [heq]
  exact ⟨⟨hf.le, hwindow, hblock, hordered, hfits⟩, hf, rfl, rfl, rfl⟩

/-- For all limits the configuration accepts, whenever the client starts and the timer
runs: its blocks never get shorter, reach the longest, and each begins with its last
failure, if and only if the longest block is within the window and is reached by doubling
in 64 bits, or the first block is the longest. -/
theorem guessing_gets_slower {l : AuthLimits} (hl : Accepted l) (start : Int) (sweeps : Nat → List Int) :
    ((∀ n, duration l.withDefaults start sweeps n ≤ duration l.withDefaults start sweeps (n + 1)) ∧
      (∃ n, duration l.withDefaults start sweeps n = l.maxBlock) ∧
      ∀ n, Blocked l.withDefaults start sweeps n) ↔
    l.block = l.maxBlock ∨
      l.maxBlock ≤ l.window ∧ ∀ k : Nat, l.block * 2 ^ k < l.maxBlock → l.block * 2 ^ (k + 1) < 2 ^ 63 := by
  obtain ⟨haccepted, hf, hwindow, hblock, hmax⟩ := withDefaults_accepted hl
  rw [← hwindow, ← hblock, ← hmax]
  generalize l.withDefaults = l at haccepted hf ⊢
  have hturn := turn_eq haccepted.window hf (haccepted.ordered.trans_lt haccepted.fits) haccepted.fits start sweeps
  have hblocked : ∀ n, Blocked l start sweeps n ↔ 0 < duration l start sweeps n := by
    intro n
    rw [Blocked, (hturn n).1]
    by_cases hpos : 0 < duration l start sweeps n <;>
      simp [allow, AuthRecord.blockedAt, blockedRecord, hpos]
  rw [forall_congr' hblocked]
  exact Series.slower_iff ⟨(hturn 0).2.2.1 rfl, fun n => (hturn n).2.2.2⟩ haccepted

/-- The limits of a gateway that sets none. -/
def defaultLimits : AuthLimits := ⟨5, 300 * second, 30 * second, 900 * second⟩

/-- With a window of a quarter of an hour, as long as the longest block, that is reached. -/
theorem quarter_hour_slower :
    ∃ n, duration { defaultLimits with window := 900 * second }.withDefaults 0 (fun _ => []) n = 900 * second := by
  have haccepted : Accepted { defaultLimits with window := 900 * second } := by
    constructor <;> decide
  refine ((guessing_gets_slower haccepted 0 fun _ => []).2 (.inr ⟨le_rfl, fun k hk => ?_⟩)).2.1
  rw [two_pow_succ]
  have hlt : (900 : Int) * second = 900000000000 := rfl
  dsimp only [defaultLimits] at hk ⊢
  omega

/-- By default the sixth block is the first again: the fifth outlasts the window. -/
theorem guessing_gets_faster : Accepted defaultLimits ∧
    (List.range 7).map (duration defaultLimits.withDefaults 0 fun _ => []) =
      [30 * second, 60 * second, 120 * second, 240 * second, 480 * second, 30 * second, 60 * second] := by
  refine ⟨by constructor <;> decide, ?_⟩
  decide +kernel

/-! ## Who is blocked -/

/-- What happens to a client's record. -/
inductive GateCall
  | allow
  | attempted (ok : Bool)
  | blockedClients
  deriving DecidableEq, Repr

/-- A call at its time, on the record and the number of failures since the last success. -/
def GateCall.apply (l : AuthLimits) (s : Option AuthRecord × Int) : Int × GateCall → Option AuthRecord × Int
  | (now, allow) => ((AuthGate.allow l now s.1).2, s.2)
  | (now, attempted ok) => (AuthGate.attempted l now ok s.1, if ok then 0 else s.2 + 1)
  | (now, blockedClients) => (swept l s.1 now, s.2)

/-- The failures counted are among those since the last success, and a block means enough. -/
structure Earned (l : AuthLimits) (s : Option AuthRecord × Int) : Prop where
  failed : 0 ≤ s.2
  counted : ∀ r ∈ s.1, r.failures ≤ s.2 ∧ (r.blockedTill.isSome → l.failures ≤ s.2)

theorem Earned.apply {l : AuthLimits} {s : Option AuthRecord × Int} (h : Earned l s) (e : Int × GateCall) :
    Earned l (GateCall.apply l s e) := by
  obtain ⟨record, failed⟩ := s
  obtain ⟨now, call⟩ := e
  obtain ⟨hfailed, hcounted⟩ := h
  cases call with
  | allow =>
    refine ⟨hfailed, fun r hr => hcounted r ?_⟩
    cases record with
    | none => exact hr
    | some r' => grind [GateCall.apply, AuthGate.allow]
  | attempted ok =>
    cases ok with
    | true => exact ⟨le_refl _, nofun⟩
    | false =>
      -- the record the failure counts in is the old one or a new one
      have hrecord : (recordFor l now record).failures ≤ failed ∧
          ((recordFor l now record).blockedTill.isSome → l.failures ≤ failed) := by
        cases record with
        | none => exact ⟨hfailed, nofun⟩
        | some r =>
          unfold recordFor
          dsimp only
          split
          · exact ⟨hfailed, nofun⟩
          · exact hcounted r rfl
      refine ⟨by grind [GateCall.apply], fun r hr => ?_⟩
      grind [GateCall.apply, AuthGate.attempted]
  | blockedClients => exact ⟨hfailed, fun r hr => hcounted r (Option.mem_filter_iff.1 hr).1⟩

def afterCalls (l : AuthLimits) (calls : List (Int × GateCall)) : Option AuthRecord × Int :=
  calls.foldl (GateCall.apply l) (none, 0)

/-- **Nobody is blocked who has not failed the configured number of times since they last
signed in**, whatever calls come at whatever times. -/
theorem blocked_only_after_failures {l : AuthLimits} {calls : List (Int × GateCall)} {now : Int}
    (h : (allow l now (afterCalls l calls).1).1 = false) : l.failures ≤ (afterCalls l calls).2 := by
  have hearned : Earned l (afterCalls l calls) :=
    List.foldlRecOn calls _ ⟨le_refl _, nofun⟩ fun _ hs e _ => hs.apply e
  cases hrecord : (afterCalls l calls).1 with
  | none =>
    rw [hrecord] at h
    cases h
  | some r =>
    refine (hearned.counted r hrecord).2 ?_
    cases htill : r.blockedTill with
    | none => simp [hrecord, allow, AuthRecord.blockedAt, htill] at h
    | some till => rfl

theorem five_failures_block : ∃ calls, (allow defaultLimits 1 (afterCalls defaultLimits calls).1).1 = false ∧
    defaultLimits.failures ≤ (afterCalls defaultLimits calls).2 :=
  ⟨List.replicate 5 (0, .attempted false), by decide, @blocked_only_after_failures _ _ 1 (by decide)⟩

end Bluestone.AuthGate
