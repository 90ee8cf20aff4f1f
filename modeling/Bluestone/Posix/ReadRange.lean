/-
# `Bluestone.Posix.ReadRange` — ranged reads through the chunk cache

`readRangeWithCache` of `internal/posix/operations.go` for one object, over the
chunk files `internal/cache/data.go` has of it.  A request is answered from the
cache alone when every chunk it needs is there (`readWarmChunks`); otherwise the
missing ones, with read-ahead behind them, are fetched (`fetchMissingChunks`).

Offsets and lengths are 64-bit.  Where the end of a chunk does not fit, the sum in
the source wraps to a negative number and its loop goes on there; the model stops
with `overflow`.  The fetches of one request run in parallel, and the order of the
results does not change the error.  Left out are the metrics and what the call
leaves in the cache.

The object store refuses a range that starts at or past the end of the object.
`fetchMissingChunks` takes that for a failure of the whole read, so a request that
reaches over the end into a further chunk is refused instead of cut short, unless
the cache saves it.
-/
import Bluestone.Library.Chunks
import Bluestone.Staging.Session
import Mathlib.Algebra.Group.Nat.Defs

namespace Bluestone.Posix

open Chunks

/-- What does not fit a 64-bit integer. -/
def int64Limit : Nat := 2 ^ 63

inductive ReadError
  | invalid
  | refused
  deriving DecidableEq, Repr

/-- What a ranged read comes to. -/
inductive Answer
  | data (bytes : Bytes)
  | failed (e : ReadError)
  | overflow
  deriving DecidableEq, Repr

/-- One object as a ranged read sees it: its bytes in the bucket, the chunk files
cached of it by their start, the size the metadata cache has for it, and the
settings. -/
structure Reader where
  object : Bytes
  chunk : Nat → Option Bytes
  cachedObjectSize : Option Nat
  configuredChunkSize : Int
  readAheadBytes : Int

namespace Reader

variable (h : Reader)

/-- The chunk size in use; one that is not positive selects the default. -/
def chunkSize : Nat :=
  if h.configuredChunkSize ≤ 0 then 1024 * 1024 else h.configuredChunkSize.toNat

/-- `DataCache.Read` of one file; a length of zero reads up to the end. -/
def read (file : Option Bytes) (offset length : Nat) : Option Bytes :=
  file.map fun bytes => if length = 0 then bytes.drop offset else (bytes.drop offset).take length

def readChunk (chunkStart : Nat) : Option Bytes := read (h.chunk chunkStart) 0 0

def readChunkRange (chunkStart offsetInChunk length : Nat) : Option Bytes :=
  read (h.chunk chunkStart) offsetInChunk length

def containsChunk (chunkStart : Nat) : Bool := (h.chunk chunkStart).isSome

/-- `Client.GetObjectRange`. -/
def getObjectRange (offset length : Nat) : Except ReadError Bytes :=
  if h.object.length ≤ offset then .error .refused else .ok ((h.object.drop offset).take length)

/-- The loop of `readWarmChunks` over the chunks still to read. -/
def readWarmChunks (offset requestEnd : Nat) : List Nat → Bytes → Option Answer
  | [], out => some (.data out)
  | chunkStart :: rest, out =>
    if int64Limit ≤ chunkStart + h.chunkSize then some .overflow
    else
      let readStart := if chunkStart < offset then offset - chunkStart else 0
      let readEnd :=
        if requestEnd < chunkStart + h.chunkSize then requestEnd - chunkStart else h.chunkSize
      match h.readChunkRange chunkStart readStart (readEnd - readStart) with
      | none => none
      | some data =>
        -- A short chunk is the end of the object.
        if data.length < readEnd - readStart then some (.data (out ++ data))
        else readWarmChunks offset requestEnd rest (out ++ data)

def fetchChunkSingleflight (chunkStart : Nat) : Except ReadError Bytes :=
  match h.readChunk chunkStart with
  | some cached => .ok cached
  | none => h.getObjectRange chunkStart h.chunkSize

/-- The chunks fetched by their start.  A chunk past `lastRequiredChunk` is optional. -/
def fetchMissingChunks (lastRequiredChunk : Int) : List Nat → Except ReadError (Nat → Option Bytes)
  | [] => .ok fun _ => none
  | chunkStart :: rest =>
    match h.fetchChunkSingleflight chunkStart with
    | .error e => if chunkStart ≤ lastRequiredChunk then .error e else fetchMissingChunks lastRequiredChunk rest
    | .ok data => (fetchMissingChunks lastRequiredChunk rest).map fun fetched =>
      Function.update fetched chunkStart (some data)

/-- The answer put together from `chunks`. -/
def assemble (chunks : Nat → Option Bytes) (offset requestEnd : Nat) : List Nat → Bytes → Bytes
  | [], out => out
  | chunkStart :: rest, out =>
    if requestEnd - offset ≤ out.length then out
    else
      let chunk := (chunks chunkStart).getD []
      let startInChunk := if chunkStart < offset then offset - chunkStart else 0
      let endInChunk :=
        if requestEnd < chunkStart + chunk.length then requestEnd - chunkStart else chunk.length
      if chunk = [] ∨ endInChunk ≤ startInChunk then assemble chunks offset requestEnd rest out
      else assemble chunks offset requestEnd rest (out ++ slice chunk startInChunk endInChunk)

/-- Where a fetch ends: with the read-ahead, but not past a size that is known, and
not before the request does.  A sum that does not fit is negative. -/
def fetchEnd (offset length : Nat) : Int :=
  let fetchLength : Int := if h.readAheadBytes < length then length else h.readAheadBytes
  let sum : Int := offset + fetchLength
  let wrapped := if (int64Limit : Int) ≤ sum then sum - 2 * int64Limit else sum
  let clamped : Int := match h.cachedObjectSize with
    | some size => if (size : Int) < wrapped then (size : Int) else wrapped
    | none => wrapped
  if clamped < offset + length then offset + length else clamped

def firstChunk (offset : Nat) : Nat := offset / h.chunkSize * h.chunkSize

def lastRequiredChunk (offset length : Nat) : Int :=
  Int.tdiv ((offset : Int) + length - 1) h.chunkSize * h.chunkSize

/-- The chunks a request needs. -/
def required (offset length : Nat) : List Nat :=
  starts h.chunkSize (h.firstChunk offset)
    ((h.lastRequiredChunk offset length - h.firstChunk offset) / h.chunkSize + 1).toNat

def readAheadLast (offset length : Nat) : Int :=
  Int.tdiv (h.fetchEnd offset length - 1) h.chunkSize * h.chunkSize

/-- The read-ahead chunks that are not cached. -/
def ahead (offset length : Nat) : List Nat :=
  (starts h.chunkSize (h.lastRequiredChunk offset length + h.chunkSize).toNat
    ((h.readAheadLast offset length - h.lastRequiredChunk offset length) / h.chunkSize).toNat).filter
      fun chunkStart => !h.containsChunk chunkStart

/-- What is left when the cache alone cannot answer. -/
def readMissing (offset length : Nat) : Answer :=
  let needed := h.required offset length
  let missing := needed.filter fun chunkStart => (h.readChunk chunkStart).isNone
  let requestEnd := offset + length
  if (int64Limit : Int) ≤ h.lastRequiredChunk offset length + h.chunkSize then .overflow
  else if missing = [] then .data (assemble h.readChunk offset requestEnd needed [])
  else if (int64Limit : Int) ≤ h.readAheadLast offset length + h.chunkSize then .overflow
  else
    match h.fetchMissingChunks (h.lastRequiredChunk offset length) (missing ++ h.ahead offset length) with
    | .error e => .failed e
    | .ok fetched =>
      .data (assemble (fun chunkStart => (fetched chunkStart).or (h.readChunk chunkStart))
        offset requestEnd needed [])

def readRangeWithCache (offset length : Int) : Answer :=
  if offset < 0 ∨ length < 0 then .failed .invalid
  else if (int64Limit : Int) ≤ offset + length then .overflow
  else
    let requestEnd := offset.toNat + length.toNat
    match h.readWarmChunks offset.toNat requestEnd (h.required offset.toNat length.toNat) [] with
    | some answer => answer
    | none => h.readMissing offset.toNat length.toNat

end Reader

/-- Every cached chunk has the object's bytes. -/
def Sound (h : Reader) : Prop :=
  ∀ x bytes, h.chunk x = some bytes → bytes = slice h.object x (x + h.chunkSize)

section
variable {h : Reader} {offset length requestEnd x n : Nat} {out : Bytes}

/-! ## Arithmetic -/

theorem chunkSize_pos (h : Reader) : 0 < h.chunkSize := by
  unfold Reader.chunkSize
  split
  · decide
  · omega

/-- The last chunk a request needs. -/
def lastChunk (h : Reader) (offset length : Nat) : Nat := (offset + length - 1) / h.chunkSize * h.chunkSize

theorem lastRequiredChunk_eq (hlen : 0 < length) : h.lastRequiredChunk offset length = lastChunk h offset length := by
  unfold Reader.lastRequiredChunk lastChunk
  have hcast : (offset : Int) + length - 1 = ((offset + length - 1 : Nat) : Int) := by omega
  rw [hcast]
  rfl

theorem firstChunk_le : h.firstChunk offset ≤ offset := Nat.div_mul_le_self ..

theorem lastChunk_lt (hlen : 0 < length) : lastChunk h offset length < offset + length := by
  have hle : lastChunk h offset length ≤ offset + length - 1 := Nat.div_mul_le_self ..
  omega

theorem le_lastChunk_add : offset + length ≤ lastChunk h offset length + h.chunkSize := by
  have hlt := Nat.lt_div_mul_add (a := offset + length - 1) (chunkSize_pos h)
  unfold lastChunk
  omega

/-- The number of chunks a request needs. -/
def chunkCount (h : Reader) (offset length : Nat) : Nat :=
  (offset + length - 1) / h.chunkSize - offset / h.chunkSize + 1

theorem firstChunk_add (hlen : 0 < length) : h.firstChunk offset + chunkCount h offset length * h.chunkSize =
    lastChunk h offset length + h.chunkSize := by
  have hle : offset / h.chunkSize ≤ (offset + length - 1) / h.chunkSize :=
    Nat.div_le_div_right (by omega)
  unfold Reader.firstChunk chunkCount lastChunk
  rw [Nat.add_mul, Nat.one_mul, Nat.sub_mul]
  have := Nat.mul_le_mul_right h.chunkSize hle
  omega

theorem required_eq (hlen : 0 < length) :
    h.required offset length = starts h.chunkSize (h.firstChunk offset) (chunkCount h offset length) := by
  unfold Reader.required
  rw [lastRequiredChunk_eq hlen]
  congr 1
  have hpos := chunkSize_pos h
  have hdiff : (lastChunk h offset length : Int) - h.firstChunk offset =
      (((offset + length - 1) / h.chunkSize - offset / h.chunkSize : Nat) : Int) * h.chunkSize := by
    have hle : offset / h.chunkSize ≤ (offset + length - 1) / h.chunkSize :=
      Nat.div_le_div_right (by omega)
    unfold lastChunk Reader.firstChunk
    push_cast [hle]
    rw [Int.sub_mul]
  rw [hdiff, Int.mul_ediv_cancel _ (by omega)]
  rfl

theorem mem_required_le (hlen : 0 < length) (hx : x ∈ h.required offset length) :
    x ≤ lastChunk h offset length := by
  rw [required_eq hlen] at hx
  obtain ⟨i, hi, rfl⟩ := mem_starts.1 hx
  have hadd : h.firstChunk offset + chunkCount h offset length * h.chunkSize =
      lastChunk h offset length + h.chunkSize := firstChunk_add hlen
  have hmul : (i + 1) * h.chunkSize ≤ chunkCount h offset length * h.chunkSize :=
    Nat.mul_le_mul_right _ hi
  rw [Nat.add_mul, Nat.one_mul] at hmul
  omega

/-! ## The cache alone -/

theorem readLength_eq (hlt : max offset x < min requestEnd (x + h.chunkSize)) :
    (if requestEnd < x + h.chunkSize then requestEnd - x else h.chunkSize) -
      (if x < offset then offset - x else 0) = min requestEnd (x + h.chunkSize) - max offset x := by
  split
  all_goals
    split
    · omega
    · omega

theorem readChunkRange_eq (hs : Sound h) (hx : (h.chunk x).isSome)
    (hlt : max offset x < min requestEnd (x + h.chunkSize)) :
    h.readChunkRange x (if x < offset then offset - x else 0)
      ((if requestEnd < x + h.chunkSize then requestEnd - x else h.chunkSize) -
        (if x < offset then offset - x else 0)) =
      some (piece h.object offset requestEnd h.chunkSize x) := by
  obtain ⟨bytes, hbytes⟩ := Option.isSome_iff_exists.1 hx
  have hstart : (if x < offset then offset - x else 0) = max offset x - x := by
    split
    all_goals omega
  have hend : max offset x - x + (min requestEnd (x + h.chunkSize) - max offset x) =
      min requestEnd (x + h.chunkSize) - x := by omega
  unfold Reader.readChunkRange Reader.read
  rw [hbytes, readLength_eq hlt, hstart, Option.map_some, if_neg (by omega), List.take_drop, hend,
    hs x bytes hbytes]
  show some (slice _ _ _) = some (slice _ _ _)
  rw [slice_slice (by omega)]
  congr 2
  all_goals omega

/-- The chunk is cached and its end fits, if the object reaches it. -/
def Served (h : Reader) (x : Nat) : Prop :=
  x ≤ h.object.length → (h.chunk x).isSome = true ∧ x + h.chunkSize < int64Limit

theorem flatMap_piece_past_end (hx : h.object.length ≤ x) :
    (starts h.chunkSize x n).flatMap (piece h.object offset requestEnd h.chunkSize) = [] := by
  rw [flatMap_piece, slice_past_end (Nat.le_trans hx (Nat.le_max_right ..))]

theorem readWarmChunks_cons (hs : Sound h) {rest : List Nat} (hcached : (h.chunk x).isSome)
    (hfits : x + h.chunkSize < int64Limit) (hlt : max offset x < min requestEnd (x + h.chunkSize)) :
    h.readWarmChunks offset requestEnd (x :: rest) out =
      if (piece h.object offset requestEnd h.chunkSize x).length <
          min requestEnd (x + h.chunkSize) - max offset x then
        some (.data (out ++ piece h.object offset requestEnd h.chunkSize x))
      else h.readWarmChunks offset requestEnd rest (out ++ piece h.object offset requestEnd h.chunkSize x) := by
  rw [Reader.readWarmChunks, if_neg (Nat.not_le.2 hfits)]
  dsimp only
  rw [readChunkRange_eq hs hcached hlt, readLength_eq hlt]

theorem reaches_of_not_short (hshort : ¬ (piece h.object offset requestEnd h.chunkSize x).length <
    min requestEnd (x + h.chunkSize) - max offset x)
    (hlt : max offset x < min requestEnd (x + h.chunkSize)) (hnext : x + h.chunkSize < requestEnd) :
    x + h.chunkSize ≤ h.object.length := by
  rw [piece, length_slice] at hshort
  omega

theorem readWarmChunks_served (hs : Sound h) (hle : x ≤ h.object.length) (hoff : offset < x + h.chunkSize)
    (hreq : ∀ y ∈ starts h.chunkSize x n, y < requestEnd) (hreqo : offset < requestEnd)
    (hserved : ∀ y ∈ starts h.chunkSize x n, Served h y) :
    h.readWarmChunks offset requestEnd (starts h.chunkSize x n) out =
    some (.data (out ++ (starts h.chunkSize x n).flatMap (piece h.object offset requestEnd h.chunkSize))) := by
  induction n generalizing x out with
  | zero => simp [starts, Reader.readWarmChunks]
  | succ n ih =>
    have hpos := chunkSize_pos h
    obtain ⟨hcached, hfits⟩ := hserved x (by simp [starts]) hle
    have hxr := hreq x (by simp [starts])
    have hlt : max offset x < min requestEnd (x + h.chunkSize) := by omega
    rw [starts, readWarmChunks_cons hs hcached hfits hlt, List.flatMap_cons]
    split
    · -- A short chunk: the object ends in it.
      rename_i hshort
      have hend : h.object.length ≤ x + h.chunkSize := by
        rw [piece, length_slice] at hshort
        omega
      rw [flatMap_piece_past_end hend, List.append_nil]
    · rename_i hshort
      rw [← List.append_assoc]
      cases n with
      | zero => simp [starts, Reader.readWarmChunks]
      | succ n =>
        have hnext := hreq (x + h.chunkSize) (by simp [starts])
        refine ih (reaches_of_not_short hshort hlt hnext) (by omega) ?_ ?_
        · intro y hy
          exact hreq y (by rw [starts]; exact List.mem_cons_of_mem _ hy)
        · intro y hy
          exact hserved y (by rw [starts]; exact List.mem_cons_of_mem _ hy)

theorem readWarmChunks_not_served (hs : Sound h) (hle : x ≤ h.object.length) (hoff : offset < x + h.chunkSize)
    (hreq : ∀ y ∈ starts h.chunkSize x n, y < requestEnd) (hreqo : offset < requestEnd)
    (hserved : ∃ y ∈ starts h.chunkSize x n, ¬ Served h y) :
    h.readWarmChunks offset requestEnd (starts h.chunkSize x n) out = none ∨
    (h.readWarmChunks offset requestEnd (starts h.chunkSize x n) out = some .overflow ∧
    ∃ y ∈ starts h.chunkSize x n, int64Limit ≤ y + h.chunkSize) := by
  induction n generalizing x out with
  | zero =>
    obtain ⟨y, hy, _⟩ := hserved
    simp [starts] at hy
  | succ n ih =>
    have hpos := chunkSize_pos h
    have hxr := hreq x (by simp [starts])
    have hlt : max offset x < min requestEnd (x + h.chunkSize) := by omega
    by_cases hfits : x + h.chunkSize < int64Limit
    · cases hcached : h.chunk x with
      | none =>
        refine .inl ?_
        rw [starts, Reader.readWarmChunks, if_neg (Nat.not_le.2 hfits)]
        simp [Reader.readChunkRange, Reader.read, hcached]
      | some bytes =>
        have hsome : (h.chunk x).isSome := by rw [hcached]; rfl
        -- The one not served comes later, so the object goes on.
        obtain ⟨y, hy, hnot⟩ := hserved
        have hlater : y ∈ starts h.chunkSize (x + h.chunkSize) n := by
          rw [starts] at hy
          rcases List.mem_cons.1 hy with rfl | hy'
          · exact absurd (fun _ => ⟨hsome, hfits⟩) hnot
          · exact hy'
        have hreached : y ≤ h.object.length := by
          by_contra hpast
          exact hnot fun hle => absurd hle hpast
        obtain ⟨i, _, hyi⟩ := mem_starts.1 hlater
        have hshort : ¬ (piece h.object offset requestEnd h.chunkSize x).length <
            min requestEnd (x + h.chunkSize) - max offset x := by
          rw [piece, length_slice]
          omega
        rw [starts, readWarmChunks_cons hs hsome hfits hlt, if_neg hshort]
        rcases ih (by omega) (by omega) (fun z hz => hreq z (by rw [starts]; exact List.mem_cons_of_mem _ hz))
          ⟨y, hlater, hnot⟩ with hnone | ⟨hover, z, hz, hlimit⟩
        · exact .inl hnone
        · exact .inr ⟨hover, z, List.mem_cons_of_mem _ hz, hlimit⟩
    · have hlimit := Nat.le_of_not_lt hfits
      refine .inr ⟨?_, x, by simp [starts], hlimit⟩
      rw [starts, Reader.readWarmChunks, if_pos hlimit]

/-! ## Fetching -/

theorem readChunk_eq (x : Nat) : h.readChunk x = h.chunk x := by
  unfold Reader.readChunk Reader.read
  cases h.chunk x with
  | none | some bytes => rfl

theorem take_drop_eq (x c : Nat) : (h.object.drop x).take c = slice h.object x (x + c) := List.take_drop ..

theorem fetchChunk_error (hcached : h.chunk x = none) (hx : h.object.length ≤ x) :
    h.fetchChunkSingleflight x = .error .refused := by
  unfold Reader.fetchChunkSingleflight Reader.getObjectRange
  rw [readChunk_eq, hcached, if_pos hx]

theorem fetchChunk_ok (hs : Sound h) (hx : h.chunk x = none → x < h.object.length) :
    h.fetchChunkSingleflight x = .ok (slice h.object x (x + h.chunkSize)) := by
  unfold Reader.fetchChunkSingleflight Reader.getObjectRange
  rw [readChunk_eq]
  cases hc : h.chunk x with
  | none => rw [if_neg (Nat.not_le.2 (hx hc)), take_drop_eq]
  | some bytes => rw [hs x bytes hc]

theorem fetchMissingChunks_error {last : Int} {missing : List Nat} (hbad : ∃ x ∈ missing, x ≤ last ∧
    h.chunk x = none ∧ h.object.length ≤ x) : h.fetchMissingChunks last missing = .error .refused := by
  induction missing with
  | nil =>
    obtain ⟨x, hx, _⟩ := hbad
    simp at hx
  | cons y rest ih =>
    obtain ⟨x, hx, hle, hcached, hpast⟩ := hbad
    rw [Reader.fetchMissingChunks]
    rcases List.mem_cons.1 hx with rfl | hx'
    · rw [fetchChunk_error hcached hpast]
      simp [hle]
    · have hrest := ih ⟨x, hx', hle, hcached, hpast⟩
      cases hy : h.fetchChunkSingleflight y with
      | error e =>
        have he : e = .refused := by
          unfold Reader.fetchChunkSingleflight Reader.getObjectRange at hy
          split at hy
          · cases hy
          · split at hy
            · cases hy
              rfl
            · cases hy
        simp only [he, hrest, ite_self]
      | ok data =>
        simp only [hrest]
        rfl

/-- Otherwise what is fetched are the object's bytes, and every required chunk the
object reaches is among it. -/
theorem fetchMissingChunks_ok (hs : Sound h) {last : Int} {missing : List Nat}
    (hgood : ∀ x ∈ missing, x ≤ last → h.chunk x = none → x < h.object.length) :
    ∃ fetched, h.fetchMissingChunks last missing = .ok fetched ∧ (∀ x bytes, fetched x = some bytes →
    bytes = slice h.object x (x + h.chunkSize)) ∧ ∀ x ∈ missing, x ≤ last →
    (fetched x).isSome := by
  induction missing with
  | nil => exact ⟨fun _ => none, rfl, fun x bytes hx => (by cases hx), fun x hx => (by simp at hx)⟩
  | cons y rest ih =>
    obtain ⟨fetched, hfetched, hbytes, hsome⟩ := ih fun x hx => hgood x (List.mem_cons_of_mem _ hx)
    rw [Reader.fetchMissingChunks]
    by_cases hy : h.chunk y = none → y < h.object.length
    · rw [fetchChunk_ok hs hy, hfetched]
      refine ⟨Function.update fetched y (some (slice h.object y (y + h.chunkSize))), rfl, ?_, ?_⟩
      · intro x bytes hx
        by_cases hxy : x = y
        · subst hxy
          rw [Function.update_self] at hx
          exact (Option.some.inj hx).symm
        · rw [Function.update_of_ne hxy] at hx
          exact hbytes x bytes hx
      · intro x hx hle
        by_cases hxy : x = y
        · rw [hxy, Function.update_self]
          rfl
        · rw [Function.update_of_ne hxy]
          exact hsome x ((List.mem_cons.1 hx).resolve_left hxy) hle
    · -- An optional chunk past the end.
      obtain ⟨hcached, hpast⟩ := Classical.not_imp.1 hy
      have hopt : ¬ (y : Int) ≤ last := fun hle =>
        hpast (hgood y List.mem_cons_self hle hcached)
      rw [fetchChunk_error hcached (Nat.le_of_not_lt hpast)]
      refine ⟨fetched, by simp only [hopt, if_false]; exact hfetched, hbytes, ?_⟩
      intro x hx hle
      rcases List.mem_cons.1 hx with rfl | hx'
      · exact absurd hle hopt
      · exact hsome x hx' hle

/-! ## Putting the answer together -/

theorem assemble_eq {chunks : Nat → Option Bytes} (hreqo : offset < requestEnd)
    (hchunks : ∀ y ∈ starts h.chunkSize x n, (chunks y).getD [] = slice h.object y (y + h.chunkSize)) :
    Reader.assemble chunks offset requestEnd (starts h.chunkSize x n)
    (slice h.object offset (min requestEnd x)) =
    slice h.object offset (min requestEnd (x + n * h.chunkSize)) := by
  induction n generalizing x with
  | zero =>
    rw [starts, Reader.assemble, Nat.zero_mul, Nat.add_zero]
  | succ n ih =>
    have hnext : x + h.chunkSize + n * h.chunkSize = x + (n + 1) * h.chunkSize := by
      rw [Nat.add_mul, Nat.one_mul]
      omega
    have hrest := ih fun y hy => hchunks y (by rw [starts]; exact List.mem_cons_of_mem _ hy)
    rw [starts, Reader.assemble]
    by_cases hfull : requestEnd - offset ≤ (slice h.object offset (min requestEnd x)).length
    · -- The request is answered; nothing of it is left.
      rw [if_pos hfull]
      rw [length_slice] at hfull
      rw [Nat.min_eq_left (by omega : requestEnd ≤ x), Nat.min_eq_left (by omega)]
    · rw [if_neg hfull, hchunks x (by simp [starts])]
      dsimp only
      rw [← hnext, ← hrest, ← append_piece]
      have hstart : (if x < offset then offset - x else 0) = max offset x - x := by
        split
        all_goals omega
      have hend : (if requestEnd < x + (slice h.object x (x + h.chunkSize)).length then requestEnd - x
          else (slice h.object x (x + h.chunkSize)).length) =
            min requestEnd (x + (slice h.object x (x + h.chunkSize)).length) - x := by
        split
        all_goals omega
      rw [hstart, hend]
      split
      · -- The chunk has nothing of the request.
        rename_i hnothing
        have hempty : piece h.object offset requestEnd h.chunkSize x = [] := by
          rw [← slice_chunk]
          rcases hnothing with hnil | hle
          · rw [hnil]
            simp [slice]
          · exact slice_of_le hle
        rw [hempty, List.append_nil]
      · rw [slice_chunk]

/-! ## Every request -/

theorem flatMap_required (hlen : 0 < length) :
    (h.required offset length).flatMap (piece h.object offset (offset + length) h.chunkSize) =
    slice h.object offset (offset + length) := by
  rw [required_eq hlen, flatMap_piece, firstChunk_add hlen, Nat.max_eq_left firstChunk_le,
    Nat.min_eq_left le_lastChunk_add]

theorem assemble_required {chunks : Nat → Option Bytes} (hlen : 0 < length)
    (hchunks : ∀ y ∈ h.required offset length, (chunks y).getD [] = slice h.object y (y + h.chunkSize)) :
    Reader.assemble chunks offset (offset + length) (h.required offset length) [] =
    slice h.object offset (offset + length) := by
  have hnone : slice h.object offset (min (offset + length) (h.firstChunk offset)) = [] := by
    refine slice_of_le ?_
    have hfirst : h.firstChunk offset ≤ offset := firstChunk_le
    omega
  rw [required_eq hlen] at hchunks ⊢
  rw [← hnone, assemble_eq (by omega) hchunks, firstChunk_add hlen, Nat.min_eq_left le_lastChunk_add]

/-- Every required chunk past the end of the object is cached, and all chunk ends fit. -/
def Fetchable (h : Reader) (offset length : Nat) : Prop :=
  (∀ x ∈ h.required offset length, h.object.length ≤ x → (h.chunk x).isSome = true) ∧
    h.readAheadLast offset length + h.chunkSize < int64Limit

theorem lastRequired_le_readAheadLast (hlen : 0 < length) :
    h.lastRequiredChunk offset length ≤ h.readAheadLast offset length := by
  have hend : (offset : Int) + length ≤ h.fetchEnd offset length := by
    have hmax : ∀ a b : Int, a ≤ if b < a then a else b := by
      intro a b
      split
      all_goals omega
    exact hmax _ _
  unfold Reader.lastRequiredChunk Reader.readAheadLast
  refine Int.mul_le_mul_of_nonneg_right ?_ (by omega)
  rw [Int.tdiv_eq_ediv_of_nonneg (by omega), Int.tdiv_eq_ediv_of_nonneg (by omega)]
  exact Int.ediv_le_ediv (by have := chunkSize_pos h; omega) (by omega)

theorem mem_missing (hx : x ∈ h.required offset length) (hcached : h.chunk x = none) :
    x ∈ (h.required offset length).filter fun y => (h.readChunk y).isNone := by
  refine List.mem_filter.2 ⟨hx, ?_⟩
  rw [readChunk_eq, hcached]
  rfl

theorem readMissing_fetchable (hs : Sound h) (hlen : 0 < length) (hf : Fetchable h offset length) :
    h.readMissing offset length = .data (slice h.object offset (offset + length)) := by
  obtain ⟨hpast, hfits⟩ := hf
  have hlast : h.lastRequiredChunk offset length ≤ h.readAheadLast offset length :=
    lastRequired_le_readAheadLast hlen
  unfold Reader.readMissing
  dsimp only
  rw [if_neg (by omega)]
  split
  · -- Everything was in the cache after all.
    rename_i hmissing
    rw [assemble_required hlen]
    intro y hy
    rw [readChunk_eq]
    cases hc : h.chunk y with
    | none =>
      have hmem := mem_missing hy hc
      rw [hmissing] at hmem
      simp at hmem
    | some bytes => exact hs y bytes hc
  · rw [if_neg (by omega)]
    have hgood : ∀ x ∈ (h.required offset length).filter (fun y => (h.readChunk y).isNone) ++
        h.ahead offset length, x ≤ h.lastRequiredChunk offset length → h.chunk x = none →
          x < h.object.length := by
      intro x hx hle hcached
      rcases List.mem_append.1 hx with hreq | hahead
      · by_contra hge
        have hsome := hpast x (List.mem_filter.1 hreq).1 (Nat.le_of_not_lt hge)
        rw [hcached] at hsome
        cases hsome
      · -- Read-ahead starts after the last required chunk.
        obtain ⟨i, _, hxi⟩ := mem_starts.1 (List.mem_filter.1 hahead).1
        have hpos := chunkSize_pos h
        omega
    obtain ⟨fetched, hfetched, hbytes, hsome⟩ := fetchMissingChunks_ok hs hgood
    rw [hfetched]
    dsimp only
    rw [assemble_required hlen]
    intro y hy
    cases hfy : fetched y with
    | some bytes => exact hbytes y bytes hfy
    | none =>
      rw [Option.none_or, readChunk_eq]
      cases hc : h.chunk y with
      | some bytes => exact hs y bytes hc
      | none =>
        have hle : (y : Int) ≤ h.lastRequiredChunk offset length := by
          rw [lastRequiredChunk_eq hlen]
          exact_mod_cast mem_required_le hlen hy
        have hfound := hsome y (List.mem_append_left _ (mem_missing hy hc)) hle
        rw [hfy] at hfound
        cases hfound

theorem readMissing_not_fetchable (hlen : 0 < length) (hserved : ¬ ∀ x ∈ h.required offset length, Served h x)
    (hf : ¬ Fetchable h offset length) (bytes : Bytes) : h.readMissing offset length ≠ .data bytes := by
  unfold Reader.readMissing
  dsimp only
  split
  · exact fun heq => (by cases heq)
  · rename_i hlast
    rw [lastRequiredChunk_eq hlen] at hlast
    split
    · -- With nothing missing and all ends fitting every chunk would be served.
      rename_i hmissing
      refine absurd (fun x hx _ => ⟨?_, ?_⟩) hserved
      · cases hc : h.chunk x with
        | some bytes => rfl
        | none =>
          have hmem := mem_missing hx hc
          rw [hmissing] at hmem
          simp at hmem
      · have hle := mem_required_le hlen hx
        omega
    · split
      · exact fun heq => (by cases heq)
      · rename_i hahead
        have hbad : ∃ x ∈ h.required offset length, h.object.length ≤ x ∧ h.chunk x = none := by
          by_contra hno
          refine hf ⟨fun x hx hpast => ?_, by omega⟩
          cases hc : h.chunk x with
          | some bytes => rfl
          | none => exact absurd ⟨x, hx, hpast, hc⟩ hno
        obtain ⟨x, hx, hpast, hc⟩ := hbad
        have hle : (x : Int) ≤ h.lastRequiredChunk offset length := by
          rw [lastRequiredChunk_eq hlen]
          exact_mod_cast mem_required_le hlen hx
        rw [fetchMissingChunks_error ⟨x, List.mem_append_left _ (mem_missing hx hc), hle, hc, hpast⟩]
        exact fun heq => (by cases heq)

/-- A ranged read is exact just when every chunk it needs and the object reaches comes
from the cache, or every one it needs that starts at or past the end of the object
does, with all ends of chunks fitting 64 bits. -/
theorem ranged_read_exact (hs : Sound h) (hoff : offset < h.object.length) (hlen : 0 < length)
    (hend : offset + length < int64Limit) : h.readRangeWithCache offset length =
    .data ((h.object.take (min (offset + length) h.object.length)).drop offset) ↔
    (∀ x ∈ h.required offset length, x ≤ h.object.length → (h.chunk x).isSome = true ∧
    x + h.chunkSize < int64Limit) ∨ ((∀ x ∈ h.required offset length, h.object.length ≤ x →
    (h.chunk x).isSome = true) ∧ h.readAheadLast offset length + h.chunkSize < int64Limit) := by
  have hbytes : (h.object.take (min (offset + length) h.object.length)).drop offset =
      slice h.object offset (offset + length) := slice_min_length
  have hfirst : h.firstChunk offset ≤ h.object.length := Nat.le_trans firstChunk_le (Nat.le_of_lt hoff)
  have hin : offset < h.firstChunk offset + h.chunkSize := Nat.lt_div_mul_add (chunkSize_pos h)
  have hreq : ∀ y ∈ starts h.chunkSize (h.firstChunk offset) (chunkCount h offset length),
      y < offset + length := by
    intro y hy
    rw [← required_eq hlen] at hy
    exact Nat.lt_of_le_of_lt (mem_required_le hlen hy) (lastChunk_lt hlen)
  rw [hbytes]
  unfold Reader.readRangeWithCache
  rw [if_neg (by omega), if_neg (by omega)]
  simp only [Int.toNat_natCast]
  by_cases hserved : ∀ x ∈ h.required offset length, Served h x
  · refine ⟨fun _ => .inl hserved, fun _ => ?_⟩
    have hwarm : h.readWarmChunks offset (offset + length) (h.required offset length) [] =
        some (.data (slice h.object offset (offset + length))) := by
      rw [← flatMap_required hlen]
      rw [required_eq hlen] at hserved ⊢
      exact readWarmChunks_served hs hfirst hin hreq (by omega) hserved
    rw [hwarm]
  · have hnot : ∃ y ∈ starts h.chunkSize (h.firstChunk offset) (chunkCount h offset length),
        ¬ Served h y := by
      rw [← required_eq hlen]
      by_contra hall
      exact hserved fun x hx => by_contra fun hx' => hall ⟨x, hx, hx'⟩
    have hwarm : h.readWarmChunks offset (offset + length) (h.required offset length) [] = none ∨
        (h.readWarmChunks offset (offset + length) (h.required offset length) [] = some .overflow ∧
          ∃ y ∈ h.required offset length, int64Limit ≤ y + h.chunkSize) := by
      rw [required_eq hlen]
      exact readWarmChunks_not_served hs hfirst hin hreq (by omega) hnot
    rcases hwarm with hnone | ⟨hover, y, hy, hlimit⟩
    · rw [hnone]
      constructor
      · intro hdata
        refine .inr ?_
        by_contra hf
        exact readMissing_not_fetchable hlen hserved hf _ hdata
      · rintro (hall | hf)
        · exact absurd hall hserved
        · exact readMissing_fetchable hs hlen hf
    · rw [hover]
      constructor
      · intro hdata
        cases hdata
      · -- A chunk whose end does not fit rules both out.
        rintro (hall | hf)
        · exact absurd hall hserved
        · have hle := mem_required_le hlen hy
          have hlast : h.lastRequiredChunk offset length ≤ h.readAheadLast offset length :=
            lastRequired_le_readAheadLast hlen
          rw [lastRequiredChunk_eq hlen] at hlast
          have hfits := hf.2
          omega

/-- Ten bytes in chunks of four, the last of them cached. -/
def tenBytes : Reader where
  object := [0, 1, 2, 3, 4, 5, 6, 7, 8, 9]
  chunk x := if x = 8 then some [8, 9] else none
  cachedObjectSize := none
  configuredChunkSize := 4
  readAheadBytes := 16

/-- The cached short chunk ends the read before the chunk past the end is asked for. -/
theorem ten_bytes_read : tenBytes.readRangeWithCache 8 8 = .data [8, 9] := by
  refine (ranged_read_exact (h := tenBytes) ?_ (by decide) (by decide) (by decide)).2 (.inl (by decide))
  intro x bytes hx
  by_cases heq : x = 8
  · subst heq
    cases hx
    rfl
  · simp [tenBytes, heq] at hx

/-- Nothing is cached, and the request reaches into the chunk after the last. -/
theorem ten_bytes_refused :
    ({ tenBytes with chunk := fun _ => none } : Reader).readRangeWithCache 8 8 = .failed .refused := by
  decide

end

end Bluestone.Posix
