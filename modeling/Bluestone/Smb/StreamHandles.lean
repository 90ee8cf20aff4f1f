/-
# `Bluestone.Smb.StreamHandles` — an open named stream and the requests a client sends to it

A handle holds the contents of its stream in memory.  Offsets and sizes are signed 64-bit
integers.  No sign is checked, and the end of a write is a sum that may wrap: such a request
passes `checkSize` and slices the contents out of bounds, which ends the process
(`negative_offset_panics`).

`requests_exact`: a request is answered as one to a byte array exactly when it is none of
these, or when it is a write below zero that has no room anyway.  So is every request of a
sequence of such ones, and the stream stays within the limit (`run_answered`).
-/
import Bluestone.Library.Runs
import Bluestone.Library.Words
import Bluestone.Staging.Session
import Mathlib.Data.List.GetD

namespace Bluestone.StreamHandles

open Runs Words

structure Handle where
  name : Bytes
  data : Bytes
  dirty : Bool
  deriving DecidableEq, Repr

inductive StreamError
  | eof
  | noSpace
  /-- The `Stat` of the file fails. -/
  | stat
  deriving DecidableEq, Repr

inductive Result
  | read (data : Bytes)
  | done
  | refused (e : StreamError)
  | panics
  deriving DecidableEq, Repr

/-- What a call reads of the backend: the limit, and the streams of the file as they are
now, or `none` when its `Stat` fails. -/
structure Env where
  streamLimit : Nat
  streams : Option (List (Bytes × Bytes))

/-- What the other streams of the file count. -/
def others (name : Bytes) (streams : List (Bytes × Bytes)) : Nat :=
  streams.foldl (fun others s => if s.1 = name then others else others + (s.1.length + s.2.length)) 0

/-- There is no room for `size` bytes, or nobody can say. -/
def Env.refusal (env : Env) (h : Handle) (size : Int) : Option StreamError :=
  if size > env.streamLimit then some .noSpace
  else match env.streams with
    | none => some .stat
    | some streams =>
      if others h.name streams + h.name.length + size > env.streamLimit then some .noSpace else none

def checkSize (env : Env) (h : Handle) (size : Int) : Option StreamError :=
  if size ≤ h.data.length then none else env.refusal h size

/-- `append(data, make([]byte, size-len(data))...)`. -/
def grow (data : Bytes) (size : Int) : Bytes := data ++ List.replicate (size - data.length).toNat 0

/-- The contents, grown if they end before `size`. -/
def extend (data : Bytes) (size : Int) : Bytes := if size > data.length then grow data size else data

/-- The bounds of the slice `data[offset:]`. -/
def Sliceable (data : Bytes) (offset : Int) : Prop := 0 ≤ offset ∧ offset ≤ data.length

instance decidableSliceable (data : Bytes) (offset : Int) : Decidable (Sliceable data offset) :=
  inferInstanceAs (Decidable (_ ∧ _))

/-- `copy(data[offset:], p)`. -/
def copyAt (data : Bytes) (offset : Nat) (p : Bytes) : Bytes :=
  data.take offset ++ p.take (data.length - offset) ++ data.drop (offset + p.length)

def Handle.read (h : Handle) (offset : Int) (length : Nat) : Result :=
  if offset ≥ h.data.length then .refused .eof
  else if Sliceable h.data offset then .read ((h.data.drop offset.toNat).take length)
  else .panics

def Handle.write (env : Env) (h : Handle) (offset : Int) (p : Bytes) : Result × Handle :=
  match checkSize env h (wrap (offset + p.length)) with
  | some e => (.refused e, h)
  | none =>
    let data := extend h.data (wrap (offset + p.length))
    if Sliceable data offset then (.done, { h with data := copyAt data offset.toNat p, dirty := true })
    else (.panics, { h with data := data })

/-- `SetInfo` with an end of file. -/
def Handle.setEndOfFile (env : Env) (h : Handle) (size : Int) : Result × Handle :=
  match checkSize env h size with
  | some e => (.refused e, h)
  | none =>
    if size < h.data.length then
      if Sliceable h.data size then (.done, { h with data := h.data.take size.toNat, dirty := true })
      else (.panics, h)
    else (.done, { h with data := grow h.data size, dirty := true })

inductive Request
  | read (offset : Int) (length : Nat)
  | write (offset : Int) (p : Bytes)
  | setEndOfFile (size : Int)

def Handle.serve (env : Env) (h : Handle) : Request → Result × Handle
  | .read offset length => (h.read offset length, h)
  | .write offset p => h.write env offset p
  | .setEndOfFile size => h.setEndOfFile env size

/-! ## The byte array -/

/-- The numbers of a request are signed 64-bit integers; its buffer and the contents are in
one memory. -/
def Request.Sized (h : Handle) : Request → Prop
  | .read offset _ => Fits offset
  | .write offset p => Fits offset ∧ Fits (h.data.length + p.length)
  | .setEndOfFile size => Fits size

/-- A negative offset or size, or an end that overflows. -/
def Request.Invalid : Request → Prop
  | .read offset _ => offset < 0
  | .write offset p => offset < 0 ∨ ¬ Fits (offset + p.length)
  | .setEndOfFile size => size < 0

/-- A request that succeeds, as one to an array: a write is laid over it, whatever lies
between the old end and the new one is zero. -/
def Answers (array array' : Bytes) : Request → Result → Prop
  | .read offset length, r =>
    array' = array ∧ offset.toNat < array.length ∧ r = .read ((array.drop offset.toNat).take length)
  | .write offset p, r => r = .done ∧ array'.length = max array.length (offset.toNat + p.length) ∧
      ∀ i, array'.getD i 0 =
        if offset.toNat ≤ i ∧ i < offset.toNat + p.length then p.getD (i - offset.toNat) 0 else array.getD i 0
  | .setEndOfFile size, r => r = .done ∧ array'.length = size.toNat ∧
      ∀ i, array'.getD i 0 = if i < size.toNat then array.getD i 0 else 0

/-- A safe and exact outcome: no panic, nothing allocated beyond the limit, and nothing
changed unless the request is valid and succeeds as one to an array. -/
def Exact (env : Env) (h : Handle) (r : Request) (o : Result × Handle) : Prop :=
  o.1 ≠ .panics ∧ o.2.data.length ≤ max h.data.length env.streamLimit ∧
  ((∃ e, o.1 = .refused e) ∧ o.2 = h ∨ ¬ r.Invalid ∧ Answers h.data o.2.data r o.1)

/-- A write below zero that has no room. -/
def NoRoom (env : Env) (h : Handle) : Request → Prop
  | .write offset p =>
    offset < 0 ∧ h.data.length < offset + p.length ∧ env.refusal h (offset + p.length) ≠ none
  | _ => False

section
variable {env : Env} {h : Handle}

theorem grow_length (data : Bytes) (size : Int) : (grow data size).length = max data.length size.toNat := by
  rw [grow, List.length_append, List.length_replicate]
  omega

theorem extend_eq (data : Bytes) (size : Int) : extend data size = grow data size := by
  unfold extend
  split
  · rfl
  · next hle =>
      rw [grow, Int.toNat_of_nonpos (by omega)]
      exact (List.append_nil _).symm

theorem grow_getD (data : Bytes) (size : Int) (i : Nat) : (grow data size).getD i 0 = data.getD i 0 := by
  rw [grow]
  by_cases hi : i < data.length
  · rw [List.getD_append _ _ _ _ hi]
  · rw [List.getD_append_right _ _ _ _ (by omega), List.getD_eq_default data 0 (by omega)]
    rw [List.getD_eq_getElem?_getD, List.getElem?_replicate]
    split <;> rfl

theorem copyAt_length {data : Bytes} {offset : Nat} {p : Bytes} (hfit : offset + p.length ≤ data.length) :
    (copyAt data offset p).length = data.length := by
  simp only [copyAt, List.length_append, List.length_take, List.length_drop]
  omega

theorem copyAt_getD {data : Bytes} {offset : Nat} {p : Bytes} (hfit : offset + p.length ≤ data.length) (i : Nat) :
    (copyAt data offset p).getD i 0 =
      if offset ≤ i ∧ i < offset + p.length then p.getD (i - offset) 0 else data.getD i 0 := by
  have hall : p.take (data.length - offset) = p := List.take_of_length_le (by omega)
  have htake : (data.take offset).length = offset := List.length_take_of_le (by omega)
  rw [copyAt, hall, List.append_assoc]
  by_cases hlow : i < offset
  · rw [List.getD_append _ _ _ _ (by omega), if_neg (by omega)]
    simp [List.getD_eq_getElem?_getD, hlow]
  rw [List.getD_append_right _ _ _ _ (by omega), htake]
  by_cases hhigh : i < offset + p.length
  · rw [if_pos ⟨by omega, hhigh⟩, List.getD_append _ _ _ _ (by omega)]
  · rw [if_neg (by omega), List.getD_append_right _ _ _ _ (by omega)]
    simp only [List.getD_eq_getElem?_getD, List.getElem?_drop]
    congr 2
    omega

theorem le_limit_of_room {size : Int} (hroom : env.refusal h size = none) : size ≤ env.streamLimit := by
  unfold Env.refusal at hroom
  split at hroom
  · cases hroom
  · omega

theorem exact_refused (r : Request) (e : StreamError) : Exact env h r (.refused e, h) :=
  ⟨nofun, Nat.le_max_left .., .inl ⟨⟨e, rfl⟩, rfl⟩⟩

theorem exact_panics {r : Request} {h' : Handle} : ¬ Exact env h r (.panics, h') := fun hexact => hexact.1 rfl

theorem read_exact (offset : Int) (length : Nat) :
    Exact env h (.read offset length) (h.read offset length, h) ↔ ¬ offset < 0 := by
  unfold Handle.read
  split
  · next hend => exact iff_of_true (exact_refused ..) (by omega)
  split
  · next hend hslice =>
      have hneg : ¬ offset < 0 := Int.not_lt.2 hslice.1
      exact iff_of_true ⟨nofun, Nat.le_max_left .., .inr ⟨hneg, rfl, by omega, rfl⟩⟩ hneg
  · next hend hslice =>
      have hneg : offset < 0 := Int.not_le.1 fun hpos => hslice ⟨hpos, by omega⟩
      exact iff_of_false exact_panics (not_not_intro hneg)

theorem exact_grown {size : Int} (hle : h.data.length ≤ size)
    (hlimit : size ≤ max h.data.length env.streamLimit) :
    Exact env h (.setEndOfFile size) (.done, { h with data := grow h.data size, dirty := true }) := by
  have hlen := grow_length h.data size
  refine ⟨nofun, ?_, .inr ⟨show ¬ size < 0 by omega, rfl, hlen.trans (by omega), fun i => ?_⟩⟩
  · exact Nat.le_trans (Nat.le_of_eq hlen) (by omega)
  · rw [grow_getD]
    split
    · rfl
    · exact List.getD_eq_default _ _ (by omega)

theorem exact_cut {size : Int} (hpos : 0 ≤ size) (hle : size ≤ h.data.length) :
    Exact env h (.setEndOfFile size) (.done, { h with data := h.data.take size.toNat, dirty := true }) := by
  have hlen : (h.data.take size.toNat).length = size.toNat := List.length_take_of_le (by omega)
  refine ⟨nofun, ?_, .inr ⟨Int.not_lt.2 hpos, rfl, hlen, fun i => ?_⟩⟩
  · rw [hlen]
    omega
  · rw [List.getD_eq_getElem?_getD, List.getElem?_take]
    split
    · rw [List.getD_eq_getElem?_getD]
    · rfl

theorem setEndOfFile_exact (size : Int) :
    Exact env h (.setEndOfFile size) (h.setEndOfFile env size) ↔ ¬ size < 0 := by
  unfold Handle.setEndOfFile checkSize
  by_cases hcut : size ≤ h.data.length
  · rw [if_pos hcut]
    dsimp only
    by_cases hneg : size < 0
    · rw [if_pos (by omega), if_neg fun hs : Sliceable h.data size => absurd hs.1 (by omega)]
      exact iff_of_false exact_panics (not_not_intro hneg)
    · refine iff_of_true ?_ hneg
      split
      · rw [if_pos (show Sliceable h.data size from ⟨by omega, hcut⟩)]
        exact exact_cut (by omega) hcut
      · exact exact_grown (by omega) (by omega)
  · rw [if_neg hcut]
    refine iff_of_true ?_ (by omega)
    cases hroom : env.refusal h size with
    | some e => exact exact_refused ..
    | none =>
      have hlimit := le_limit_of_room hroom
      dsimp only
      rw [if_neg (by omega)]
      exact exact_grown (by omega) (by omega)

theorem exact_copied {offset : Int} {p : Bytes} (hpos : 0 ≤ offset) (hfits : Fits (offset + p.length))
    (hroom : offset + p.length ≤ max h.data.length env.streamLimit) :
    Sliceable (extend h.data (offset + p.length)) offset ∧ Exact env h (.write offset p)
      (.done, { h with data := copyAt (extend h.data (offset + p.length)) offset.toNat p, dirty := true }) := by
  have hlen := grow_length h.data (offset + p.length)
  have hvalid : ¬ (Request.write offset p).Invalid := fun hinvalid =>
    hinvalid.elim (fun hneg => absurd hneg (by omega)) fun hover => hover hfits
  rw [extend_eq]
  have hfit : offset.toNat + p.length ≤ (grow h.data (offset + p.length)).length := by omega
  have hcopied := copyAt_length hfit
  refine ⟨⟨hpos, by omega⟩, nofun, ?_, .inr ⟨hvalid, rfl, ?_, fun i => ?_⟩⟩
  · exact Nat.le_trans (Nat.le_of_eq (hcopied.trans hlen)) (by omega)
  · exact (hcopied.trans hlen).trans (by omega)
  · rw [copyAt_getD hfit, grow_getD]

theorem write_exact {offset : Int} {p : Bytes} (hsized : (Request.write offset p).Sized h) :
    Exact env h (.write offset p) (h.write env offset p) ↔
      ¬ (Request.write offset p).Invalid ∨ NoRoom env h (.write offset p) := by
  obtain ⟨⟨hlow, hhigh⟩, -, hmemory⟩ := hsized
  have hpanics : ∀ {data : Bytes}, ¬ Sliceable data offset → (Request.write offset p).Invalid →
      ¬ NoRoom env h (.write offset p) →
      (Exact env h (.write offset p) (if Sliceable data offset
        then (.done, { h with data := copyAt data offset.toNat p, dirty := true })
        else (.panics, { h with data := data })) ↔
      ¬ (Request.write offset p).Invalid ∨ NoRoom env h (.write offset p)) := by
    intro data hslice hinvalid hno
    rw [if_neg hslice]
    exact iff_of_false exact_panics fun hor => hor.elim (· hinvalid) hno
  unfold Handle.write checkSize
  by_cases hfits : Fits (offset + p.length)
  · rw [wrap_eq hfits]
    by_cases hneg : offset < 0
    · have hslice : ∀ data : Bytes, ¬ Sliceable data offset := fun _ hs => absurd hs.1 (by omega)
      by_cases hin : offset + p.length ≤ h.data.length
      · rw [if_pos hin]
        exact hpanics (hslice _) (.inl hneg) fun hno => absurd hno.2.1 (by omega)
      · rw [if_neg hin]
        cases hroom : env.refusal h (offset + p.length) with
        | some e => exact iff_of_true (exact_refused ..) (.inr ⟨hneg, by omega, by simp [hroom]⟩)
        | none => exact hpanics (hslice _) (.inl hneg) fun hno => hno.2.2 hroom
    · have hvalid : ¬ (Request.write offset p).Invalid := fun hinvalid =>
        hinvalid.elim (fun h => absurd h hneg) fun hover => hover hfits
      refine iff_of_true ?_ (.inl hvalid)
      split
      · exact exact_refused ..
      next hcheck =>
      have hroom : offset + p.length ≤ max h.data.length env.streamLimit := by
        split at hcheck
        · omega
        · have := le_limit_of_room hcheck
          omega
      obtain ⟨hslice, hexact⟩ := exact_copied (by omega) hfits hroom
      dsimp only
      rw [if_pos hslice]
      exact hexact
  · -- the end wraps to a negative number, which is no growth
    have hover : 2 ^ 63 ≤ offset + p.length := by
      unfold Fits at hfits
      omega
    rw [wrap_past hover (by omega), if_pos (by omega)]
    refine hpanics (fun hs => ?_) (.inr hfits) fun hno => absurd hno.1 (by omega)
    have hend := hs.2
    rw [extend, if_neg (by omega)] at hend
    omega

end

/-- A request is answered exactly, for every 64-bit offset and size and every state of the
handle, if and only if it is valid or a write that has no room. -/
theorem requests_exact {env : Env} {h : Handle} {r : Request} (hsized : r.Sized h) :
    Exact env h r (h.serve env r) ↔ ¬ r.Invalid ∨ NoRoom env h r := by
  cases r with
  | read offset length =>
    rw [show NoRoom env h (.read offset length) = False from rfl, or_false]
    exact read_exact offset length
  | write offset p => exact write_exact hsized
  | setEndOfFile size =>
    rw [show NoRoom env h (.setEndOfFile size) = False from rfl, or_false]
    exact setEndOfFile_exact size

/-- A stream of three bytes. -/
def tagged : Handle := ⟨[116], [1, 2, 3], false⟩

/-- A write over the last byte and past it. -/
theorem overlay_answered :
    Exact ⟨2048, some []⟩ tagged (.write 2 [7, 8]) (tagged.serve ⟨2048, some []⟩ (.write 2 [7, 8])) :=
  have hsized : (Request.write 2 [7, 8]).Sized tagged := ⟨by decide, by decide⟩
  (requests_exact hsized).2 (.inl (not_or.2 ⟨by decide, not_not_intro (by decide)⟩))

/-- Offsets below zero or at the end of 64 bits, and a size below zero. -/
theorem negative_offset_panics : (tagged.serve ⟨2048, some []⟩ (.read (-1) 1)).1 = .panics ∧
    (tagged.serve ⟨2048, some []⟩ (.write (-1) [7])).1 = .panics ∧
    (tagged.serve ⟨2048, some []⟩ (.write (2 ^ 63 - 1) [7])).1 = .panics ∧
    (tagged.serve ⟨2048, some []⟩ (.setEndOfFile (-1))).1 = .panics := by
  decide

/-! ## A sequence of requests -/

/-- A handle that was opened with its stream within the limit, and the requests to it, each
with what it reads of the backend. -/
def handleSystem (limit : Nat) : System Handle (Env × Request) where
  init h := h.data.length ≤ limit
  step h e h' := h' = (h.serve e.1 e.2).2

/-- The condition on a request, in the state it finds. -/
structure Answerable (limit : Nat) (h : Handle) (e : Env × Request) : Prop where
  limit : e.1.streamLimit ≤ limit
  sized : e.2.Sized h
  served : ¬ e.2.Invalid ∨ NoRoom e.1 h e.2

section
variable {limit : Nat} {h : Handle} {e : Env × Request}

theorem Answerable.exact (he : Answerable limit h e) : Exact e.1 h e.2 (h.serve e.1 e.2) := by
  obtain ⟨env, r⟩ := e
  cases r with
  | read offset length => exact (read_exact offset length).2 (he.served.resolve_right id)
  | write offset p => exact (write_exact he.sized).2 he.served
  | setEndOfFile size => exact (setEndOfFile_exact size).2 (he.served.resolve_right id)

theorem Answerable.within (he : Answerable limit h e) (hwithin : h.data.length ≤ limit) :
    (h.serve e.1 e.2).2.data.length ≤ limit :=
  Nat.le_trans he.exact.2.1 (Nat.max_le.2 ⟨hwithin, he.limit⟩)

/-- In every run of such requests the next one is answered as one to a byte array, and the
stream stays within the limit. -/
theorem run_answered (hr : Reach (handleSystem limit) (Answerable limit) h) (he : Answerable limit h e) :
    Exact e.1 h e.2 (h.serve e.1 e.2) ∧ (h.serve e.1 e.2).2.data.length ≤ limit := by
  have hwithin : h.data.length ≤ limit := by
    refine hr.invariant (I := fun h => h.data.length ≤ limit) (fun _ hi => hi) ?_
    rintro h e h' hwithin hok rfl
    exact Answerable.within hok hwithin
  exact ⟨he.exact, he.within hwithin⟩

end

end Bluestone.StreamHandles
