/-
# `Bluestone.Posix.DataCache` — cached data after an invalidation

The reads of one path, as `ReadFile` of `internal/posix/operations.go` and the cache of
`internal/cache/data.go` interleave them.  A full read looks in the cache, gets the object
and stores it.  A ranged read tries the chunks it needs in the cache, and fetches those that
are missing, with others ahead, through a group that shares the fetches under way.  Every
change is followed by `invalidateDataPath`, which removes the full entry and then the chunks.

The bytes carry the version of the object they were read from.  A read must not return one
older than a change whose invalidation had returned when the read began (`Read.floor`).
Nothing fences a fetch against an invalidation, so an answer from before the change is
stored after it, or handed to a read that joins the fetch.
-/
import Bluestone.Library.Computed

namespace Bluestone.DataCache

open Runs
open Option (bind_eq_some_iff)
open List (mem_append mem_singleton)

/-! ## Reads, fetches and invalidations -/

/-- An entry of the cache: the whole object, or a chunk by its number. -/
inductive Slot
  | full
  | chunk (n : Nat)
  deriving DecidableEq, Repr

/-- How far a fetch is: about to look in the cache again, waiting for the store, with the
bytes of a version in hand, returning them, and gone from the group. -/
inductive Stage
  | looking
  | asked
  | served (version : Nat)
  | stored (version : Nat)
  | closed (version : Nat)
  | failed
  deriving DecidableEq, Repr

structure Fetch where
  slot : Slot
  stage : Stage
  deriving DecidableEq, Repr

/-- Where a read is.  A full read looks in the cache and then waits for a fetch of its own.
A ranged read tries the cache for all its chunks, then gathers what the cache has of them,
and then fetches what is missing, chunk and fetch in pairs. -/
inductive Phase
  | looking
  | own (fetch : Nat)
  | warm (left : List Nat)
  | gather (left missing : List Nat)
  | fetching (missing : List Nat) (waiting : List (Nat × Nat))
  | done
  | failed
  deriving DecidableEq, Repr

/-- A read: the newest change whose invalidation had returned at its start, the chunks it
needs and those ahead of it, and the versions of the bytes it has. -/
structure Read where
  floor : Nat
  required : List Nat
  ahead : List Nat
  phase : Phase
  got : List Nat
  deriving DecidableEq, Repr

/-- How far the invalidation after a change is. -/
inductive Progress
  | changed
  | fullDeleted
  | chunksDeleted
  | returned
  deriving DecidableEq, Repr

/-- A change, by the version it made, and its invalidation. -/
structure Task where
  version : Nat
  progress : Progress
  deriving DecidableEq, Repr

structure State where
  version : Nat
  cache : Slot → Option Nat
  fetches : List Fetch
  reads : List Read
  tasks : List Task
  /-- The newest change whose invalidation has returned. -/
  settled : Nat

/-! ## Steps -/

inductive Label
  | change
  | deleteFull (task : Nat)
  | deleteChunks (task : Nat)
  | invalidated (task : Nat)
  | evict (slot : Slot)
  | readFull
  | readRange (required ahead : List Nat)
  | lookFull (read : Nat)
  | tryWarm (read : Nat) (short : Bool)
  | gatherNext (read : Nat)
  | fetchMissing (read : Nat)
  | fetchChunk (read chunk fetch : Nat)
  | look (fetch : Nat)
  | serve (fetch : Nat)
  | fail (fetch : Nat)
  | store (fetch : Nat) (cached : Bool)
  | close (fetch : Nat)
  | receive (read chunk fetch : Nat)
  | receiveOwn (read : Nat)
  | finish (read : Nat)
  deriving DecidableEq, Repr

/-- A fetch that later calls of the group still join. -/
def Fetch.joinable (f : Fetch) : Bool :=
  match f.stage with
  | .looking | .asked | .served _ | .stored _ => true
  | .closed _ | .failed => false

namespace State

variable (s : State)

/-- An upload, a delete, a copy or a change by another writer. -/
def change : State :=
  { s with
    version := s.version + 1
    tasks := s.tasks ++ [⟨s.version + 1, .changed⟩] }

/-- `DataCache.Delete` of the full entry. -/
def deleteFull (t : Nat) : Option State :=
  (s.tasks[t]?).bind fun task =>
    if task.progress = .changed then
      some { s with
        cache := fun slot => if slot = .full then none else s.cache slot
        tasks := s.tasks.set t { task with progress := .fullDeleted } }
    else none

/-- `DeletePrefix` of the chunks. -/
def deleteChunks (t : Nat) : Option State :=
  (s.tasks[t]?).bind fun task =>
    if task.progress = .fullDeleted then
      some { s with
        cache := fun slot => if slot = .full then s.cache .full else none
        tasks := s.tasks.set t { task with progress := .chunksDeleted } }
    else none

/-- `invalidateDataPath` returns. -/
def invalidated (t : Nat) : Option State :=
  (s.tasks[t]?).bind fun task =>
    if task.progress = .chunksDeleted then
      some { s with
        tasks := s.tasks.set t { task with progress := .returned }
        settled := max s.settled task.version }
    else none

/-- An entry falls out of the cache. -/
def evict (slot : Slot) : State :=
  { s with cache := fun slot' => if slot' = slot then none else s.cache slot' }

def readFull : State := { s with reads := s.reads ++ [⟨s.settled, [], [], .looking, []⟩] }

def readRange (required ahead : List Nat) : State :=
  { s with reads := s.reads ++ [⟨s.settled, required, ahead, .warm required, []⟩] }

/-- A full read looks in the cache, and asks the store if nothing is there. -/
def lookFull (r : Nat) : Option State :=
  (s.reads[r]?).bind fun read =>
    if read.phase = .looking then
      match s.cache .full with
      | some v => some { s with reads := s.reads.set r { read with phase := .done, got := [v] } }
      | none => some { s with
          reads := s.reads.set r { read with phase := .own s.fetches.length }
          fetches := s.fetches ++ [⟨.full, .asked⟩] }
    else none

/-- `readWarmChunks`: the next chunk from the cache; a miss gives up what was read, a short
chunk ends the read. -/
def tryWarm (r : Nat) (short : Bool) : Option State :=
  (s.reads[r]?).bind fun read => match read.phase with
    | .warm [] => some { s with reads := s.reads.set r { read with phase := .done } }
    | .warm (n :: left) => match s.cache (.chunk n) with
      | some v => some { s with
          reads := s.reads.set r
            { read with phase := if short then .done else .warm left, got := read.got ++ [v] } }
      | none => some { s with
          reads := s.reads.set r { read with phase := .gather read.required [], got := [] } }
    | _ => none

/-- The loop that takes what the cache has and notes what is missing. -/
def gatherNext (r : Nat) : Option State :=
  (s.reads[r]?).bind fun read => match read.phase with
    | .gather (n :: left) missing => match s.cache (.chunk n) with
      | some v => some { s with
          reads := s.reads.set r { read with phase := .gather left missing, got := read.got ++ [v] } }
      | none => some { s with
          reads := s.reads.set r { read with phase := .gather left (missing ++ [n]) } }
    | _ => none

/-- What is missing is fetched, and with it what lies ahead. -/
def fetchMissing (r : Nat) : Option State :=
  (s.reads[r]?).bind fun read => match read.phase with
    | .gather [] [] => some { s with reads := s.reads.set r { read with phase := .done } }
    | .gather [] missing => some { s with
        reads := s.reads.set r { read with phase := .fetching (missing ++ read.ahead) [] } }
    | _ => none

/-- A worker calls `fetchChunkSingleflight`: it joins the fetch of the chunk that is under
way, or begins one. -/
def fetchChunk (r n f : Nat) : Option State :=
  (s.reads[r]?).bind fun read => match read.phase with
    | .fetching missing waiting =>
      if n ∈ missing then
        let joined := { read with phase := .fetching (missing.erase n) (waiting ++ [(n, f)]) }
        match s.fetches[f]? with
        | some fetch =>
          if fetch.slot = .chunk n ∧ fetch.joinable then some { s with reads := s.reads.set r joined } else none
        | none =>
          if f = s.fetches.length ∧ ∀ fetch ∈ s.fetches, fetch.slot = .chunk n → fetch.joinable = false then
            some { s with reads := s.reads.set r joined, fetches := s.fetches ++ [⟨.chunk n, .looking⟩] }
          else none
      else none
    | _ => none

/-- The function of the group looks in the cache once more. -/
def look (f : Nat) : Option State :=
  (s.fetches[f]?).bind fun fetch =>
    if fetch.stage = .looking then
      match s.cache fetch.slot with
      | some v => some { s with fetches := s.fetches.set f { fetch with stage := .stored v } }
      | none => some { s with fetches := s.fetches.set f { fetch with stage := .asked } }
    else none

/-- The store answers with the object as it is. -/
def serve (f : Nat) : Option State :=
  (s.fetches[f]?).bind fun fetch =>
    if fetch.stage = .asked then some { s with fetches := s.fetches.set f { fetch with stage := .served s.version } }
    else none

def fail (f : Nat) : Option State :=
  (s.fetches[f]?).bind fun fetch =>
    if fetch.stage = .asked then some { s with fetches := s.fetches.set f { fetch with stage := .failed } } else none

/-- The bytes go into the cache, unless they are empty, too many, or the cache fails.
Nothing joins a full read. -/
def store (f : Nat) (cached : Bool) : Option State :=
  (s.fetches[f]?).bind fun fetch => match fetch.stage with
    | .served v => some { s with
        cache := fun slot => if slot = fetch.slot ∧ cached then some v else s.cache slot
        fetches := s.fetches.set f
          { fetch with stage := if fetch.slot = .full then .closed v else .stored v } }
    | _ => none

/-- The group forgets the fetch. -/
def close (f : Nat) : Option State :=
  (s.fetches[f]?).bind fun fetch => match fetch.stage with
    | .stored v => some { s with fetches := s.fetches.set f { fetch with stage := .closed v } }
    | _ => none

/-- A worker has its result.  What was read ahead is dropped, and a failure of it too. -/
def receive (r n f : Nat) : Option State :=
  (s.reads[r]?).bind fun read => match read.phase with
    | .fetching missing waiting =>
      if (n, f) ∈ waiting then
        (s.fetches[f]?).bind fun fetch => match fetch.stage with
          | .closed v => some { s with
              reads := s.reads.set r
                { read with
                  phase := .fetching missing (waiting.erase (n, f))
                  got := if n ∈ read.required then read.got ++ [v] else read.got } }
          | .failed => some { s with
              reads := s.reads.set r
                { read with
                  phase :=
                    if n ∈ read.required then .failed else .fetching missing (waiting.erase (n, f)) } }
          | _ => none
      else none
    | _ => none

def receiveOwn (r : Nat) : Option State :=
  (s.reads[r]?).bind fun read => match read.phase with
    | .own f => (s.fetches[f]?).bind fun fetch => match fetch.stage with
      | .closed v => some { s with reads := s.reads.set r { read with phase := .done, got := [v] } }
      | .failed => some { s with reads := s.reads.set r { read with phase := .failed } }
      | _ => none
    | _ => none

def finish (r : Nat) : Option State :=
  (s.reads[r]?).bind fun read => match read.phase with
    | .fetching [] [] => some { s with reads := s.reads.set r { read with phase := .done } }
    | _ => none

def next : Label → Option State
  | .change => some s.change
  | .deleteFull t => s.deleteFull t
  | .deleteChunks t => s.deleteChunks t
  | .invalidated t => s.invalidated t
  | .evict slot => some (s.evict slot)
  | .readFull => some s.readFull
  | .readRange required ahead => some (s.readRange required ahead)
  | .lookFull r => s.lookFull r
  | .tryWarm r short => s.tryWarm r short
  | .gatherNext r => s.gatherNext r
  | .fetchMissing r => s.fetchMissing r
  | .fetchChunk r n f => s.fetchChunk r n f
  | .look f => s.look f
  | .serve f => s.serve f
  | .fail f => s.fail f
  | .store f cached => s.store f cached
  | .close f => s.close f
  | .receive r n f => s.receive r n f
  | .receiveOwn r => s.receiveOwn r
  | .finish r => s.finish r

end State

/-- The cache may hold anything when the gateway starts; nothing has changed since. -/
structure Starts (s : State) : Prop where
  fetches : s.fetches = []
  reads : s.reads = []
  tasks : s.tasks = []
  settled : s.settled = 0

def cacheSystem : System State Label := computed Starts State.next

/-! ## Runs without an old answer under way -/

/-- What the fetch will store, or hand to a call that joins it. -/
def Stage.held : Stage → Option Nat
  | .served v | .stored v => some v
  | .looking | .asked | .closed _ | .failed => none

/-- What the calls that wait for the fetch will get. -/
def Stage.result : Stage → Option Nat
  | .served v | .stored v | .closed v => some v
  | .looking | .asked | .failed => none

/-- An invalidation removes its part of the cache when no fetch of that part is under way
that was answered before the change. -/
def Quiet (s : State) : Label → Prop
  | .deleteFull t => ∀ task ∈ s.tasks[t]?, ∀ f ∈ s.fetches, f.slot = .full → ∀ v ∈ f.stage.held, task.version ≤ v
  | .deleteChunks t => ∀ task ∈ s.tasks[t]?, ∀ f ∈ s.fetches, f.slot ≠ .full → ∀ v ∈ f.stage.held, task.version ≤ v
  | _ => True

instance (s : State) (e : Label) : Decidable (Quiet s e) := by
  cases e <;> (unfold Quiet; infer_instance)

/-- The invalidation has removed the entry. -/
def Task.covers (t : Task) : Slot → Prop
  | .full => t.progress ≠ .changed
  | .chunk _ => t.progress = .chunksDeleted ∨ t.progress = .returned

/-- The fetches a read waits for. -/
def Phase.fetches : Phase → List Nat
  | .own f => [f]
  | .fetching _ waiting => waiting.map (·.2)
  | _ => []

/-- The bytes a read has are new enough, and those it waits for will be. -/
structure ReadOk (s : State) (r : Read) : Prop where
  floor : r.floor ≤ s.settled
  fresh : ∀ v ∈ r.got, r.floor ≤ v
  waits : ∀ f ∈ r.phase.fetches, ∃ fetch, s.fetches[f]? = some fetch ∧
    ∀ v, fetch.stage.result = some v → r.floor ≤ v

structure Inv (s : State) : Prop where
  bound : ∀ t ∈ s.tasks, t.version ≤ s.version
  cached : ∀ t ∈ s.tasks, ∀ slot, t.covers slot → ∀ v, s.cache slot = some v → t.version ≤ v
  fetched : ∀ t ∈ s.tasks, ∀ f ∈ s.fetches, t.covers f.slot → ∀ v, f.stage.held = some v → t.version ≤ v
  settled : s.settled = 0 ∨ ∃ t ∈ s.tasks, t.progress = .returned ∧ t.version = s.settled
  reads : ∀ r ∈ s.reads, ReadOk s r

section Steps

variable {s s' : State}

theorem Task.covers_of_returned {t : Task} (h : t.progress = .returned) (slot : Slot) : t.covers slot := by
  cases slot with
  | full => simp [Task.covers, h]
  | chunk n => exact .inr h

variable {t v f r : Nat} {read : Read}

theorem Inv.settled_le_cached (h : Inv s) {slot : Slot} (hv : s.cache slot = some v) : s.settled ≤ v := by
  rcases h.settled with hzero | ⟨t, ht, hret, hver⟩
  · omega
  · rw [← hver]
    exact h.cached t ht slot (t.covers_of_returned hret slot) v hv

theorem Inv.settled_le_held (h : Inv s) {f : Fetch} (hf : f ∈ s.fetches) (hv : f.stage.held = some v) :
    s.settled ≤ v := by
  rcases h.settled with hzero | ⟨t, ht, hret, hver⟩
  · omega
  · rw [← hver]
    exact h.fetched t ht f hf (t.covers_of_returned hret _) v hv

theorem Inv.settled_le_version (h : Inv s) : s.settled ≤ s.version := by
  rcases h.settled with hzero | ⟨t, ht, -, hver⟩
  · omega
  · rw [← hver]
    exact h.bound t ht

/-! ### Reads -/

theorem Inv.setRead (h : Inv s) (hok : ReadOk s read) : Inv { s with reads := s.reads.set r read } := by
  refine ⟨h.bound, h.cached, h.fetched, h.settled, fun read' hmem => ?_⟩
  have hread' : ReadOk s read' := by
    rcases List.mem_or_eq_of_mem_set hmem with hmem | rfl
    · exact h.reads read' hmem
    · exact hok
  exact ⟨hread'.floor, hread'.fresh, hread'.waits⟩

theorem Inv.addRead (h : Inv s) {required ahead : List Nat} {phase : Phase} (hphase : phase.fetches = []) :
    Inv { s with reads := s.reads ++ [⟨s.settled, required, ahead, phase, []⟩] } := by
  refine ⟨h.bound, h.cached, h.fetched, h.settled, fun read hmem => ?_⟩
  rcases mem_append.1 hmem with hmem | hmem
  · have hread := h.reads read hmem
    exact ⟨hread.floor, hread.fresh, hread.waits⟩
  · obtain rfl := mem_singleton.1 hmem
    exact ⟨Nat.le_refl _, by simp, by simp [hphase]⟩

theorem Inv.read_ok (h : Inv s) (hr : s.reads[r]? = some read) : ReadOk s read :=
  h.reads read (List.mem_of_getElem? hr)

theorem Inv.fresh_of_cached (h : Inv s) (hok : ReadOk s read) {slot : Slot}
    (hv : s.cache slot = some v) : ∀ w ∈ read.got ++ [v], read.floor ≤ w := by
  intro w hw
  rcases mem_append.1 hw with hw | hw
  · exact hok.fresh w hw
  · obtain rfl := mem_singleton.1 hw
    exact Nat.le_trans hok.floor (h.settled_le_cached hv)

theorem Inv.tryWarm (h : Inv s) {short : Bool} (hs : s.tryWarm r short = some s') : Inv s' := by
  obtain ⟨read, hr, hs⟩ := bind_eq_some_iff.1 hs
  have hok := h.read_ok hr
  split at hs
  · cases hs
    exact h.setRead ⟨hok.floor, hok.fresh, by simp [Phase.fetches]⟩
  · split at hs
    · rename_i v hv
      cases hs
      refine h.setRead ⟨hok.floor, h.fresh_of_cached hok hv, ?_⟩
      cases short <;> simp [Phase.fetches]
    · cases hs
      exact h.setRead ⟨hok.floor, by simp, by simp [Phase.fetches]⟩
  · cases hs

theorem Inv.gatherNext (h : Inv s) (hs : s.gatherNext r = some s') : Inv s' := by
  obtain ⟨read, hr, hs⟩ := bind_eq_some_iff.1 hs
  have hok := h.read_ok hr
  split at hs
  · split at hs
    · rename_i v hv
      cases hs
      exact h.setRead ⟨hok.floor, h.fresh_of_cached hok hv, by simp [Phase.fetches]⟩
    · cases hs
      exact h.setRead ⟨hok.floor, hok.fresh, by simp [Phase.fetches]⟩
  · cases hs

theorem Inv.fetchMissing (h : Inv s) (hs : s.fetchMissing r = some s') : Inv s' := by
  obtain ⟨read, hr, hs⟩ := bind_eq_some_iff.1 hs
  have hok := h.read_ok hr
  split at hs
  · cases hs
    exact h.setRead ⟨hok.floor, hok.fresh, by simp [Phase.fetches]⟩
  · cases hs
    exact h.setRead ⟨hok.floor, hok.fresh, by simp [Phase.fetches]⟩
  · cases hs

theorem Inv.finish (h : Inv s) (hs : s.finish r = some s') : Inv s' := by
  obtain ⟨read, hr, hs⟩ := bind_eq_some_iff.1 hs
  have hok := h.read_ok hr
  split at hs
  · cases hs
    exact h.setRead ⟨hok.floor, hok.fresh, by simp [Phase.fetches]⟩
  · cases hs

theorem Inv.receiveOwn (h : Inv s) (hs : s.receiveOwn r = some s') : Inv s' := by
  obtain ⟨read, hr, hs⟩ := bind_eq_some_iff.1 hs
  have hok := h.read_ok hr
  split at hs
  · rename_i f hphase
    obtain ⟨fetch, hf, hs⟩ := bind_eq_some_iff.1 hs
    split at hs
    · rename_i v hstage
      cases hs
      refine h.setRead ⟨hok.floor, ?_, by simp [Phase.fetches]⟩
      obtain ⟨fetch', hf', hres⟩ := hok.waits f (by simp [hphase, Phase.fetches])
      obtain rfl : fetch = fetch' := Option.some.inj (hf.symm.trans hf')
      simpa using hres v (by rw [hstage]; rfl)
    · cases hs
      exact h.setRead ⟨hok.floor, hok.fresh, by simp [Phase.fetches]⟩
    · cases hs
  · cases hs

theorem Inv.receive (h : Inv s) {n : Nat} (hs : s.receive r n f = some s') : Inv s' := by
  obtain ⟨read, hr, hs⟩ := bind_eq_some_iff.1 hs
  have hok := h.read_ok hr
  split at hs
  · rename_i missing waiting hphase
    split at hs
    · rename_i hmem
      obtain ⟨fetch, hf, hs⟩ := bind_eq_some_iff.1 hs
      have hwaits : ∀ g ∈ (Phase.fetching missing (waiting.erase (n, f))).fetches, g ∈ read.phase.fetches := by
        intro g hg
        rw [hphase]
        exact List.map_subset _ List.erase_subset hg
      split at hs
      · rename_i v hstage
        cases hs
        refine h.setRead ⟨hok.floor, ?_, fun g hg => hok.waits g (hwaits g hg)⟩
        obtain ⟨fetch', hf', hres⟩ := hok.waits f (by
          rw [hphase]
          exact List.mem_map_of_mem hmem)
        obtain rfl : fetch = fetch' := Option.some.inj (hf.symm.trans hf')
        have hv := hres v (by rw [hstage]; rfl)
        dsimp only
        split
        · intro w hw
          rcases mem_append.1 hw with hw | hw
          · exact hok.fresh w hw
          · exact mem_singleton.1 hw ▸ hv
        · exact hok.fresh
      · cases hs
        refine h.setRead ⟨hok.floor, hok.fresh, ?_⟩
        dsimp only
        split
        · simp [Phase.fetches]
        · exact fun g hg => hok.waits g (hwaits g hg)
      · cases hs
    · cases hs
  · cases hs

/-! ### Fetches -/

theorem getElem?_append_new {fetch new : Fetch} (hf : s.fetches[f]? = some fetch) :
    (s.fetches ++ [new])[f]? = some fetch := by
  rw [List.getElem?_append_left, hf]
  exact (List.getElem?_eq_some_iff.1 hf).1

theorem Inv.addFetch (h : Inv s) {new : Fetch} (hnew : new.stage.held = none) :
    Inv { s with fetches := s.fetches ++ [new] } := by
  refine ⟨h.bound, h.cached, ?_, h.settled, fun read hmem => ?_⟩
  · intro t ht f hf hcov v hv
    rcases mem_append.1 hf with hf | hf
    · exact h.fetched t ht f hf hcov v hv
    · obtain rfl := mem_singleton.1 hf
      rw [hnew] at hv
      cases hv
  · have hread := h.reads read hmem
    refine ⟨hread.floor, hread.fresh, fun f hf => ?_⟩
    obtain ⟨fetch, hfetch, hres⟩ := hread.waits f hf
    exact ⟨fetch, getElem?_append_new hfetch, hres⟩

theorem Inv.lookFull (h : Inv s) (hs : s.lookFull r = some s') : Inv s' := by
  obtain ⟨read, hr, hs⟩ := bind_eq_some_iff.1 hs
  have hok := h.read_ok hr
  split at hs
  · split at hs
    · rename_i v hv
      cases hs
      refine h.setRead ⟨hok.floor, ?_, by simp [Phase.fetches]⟩
      simpa using Nat.le_trans hok.floor (h.settled_le_cached hv)
    · cases hs
      have hadd : Inv { s with fetches := s.fetches ++ [⟨.full, .asked⟩] } := h.addFetch rfl
      refine hadd.setRead ⟨hok.floor, hok.fresh, fun f hf => ?_⟩
      obtain rfl : f = s.fetches.length := by simpa [Phase.fetches] using hf
      exact ⟨⟨.full, .asked⟩, by simp, by simp [Stage.result]⟩
  · cases hs

theorem Inv.fetchChunk (h : Inv s) {n : Nat} (hs : s.fetchChunk r n f = some s') : Inv s' := by
  obtain ⟨read, hr, hs⟩ := bind_eq_some_iff.1 hs
  have hok := h.read_ok hr
  split at hs
  · rename_i missing waiting hphase
    split at hs
    · have hwaits : ∀ g ∈ (Phase.fetching (missing.erase n) (waiting ++ [(n, f)])).fetches,
          g ∈ read.phase.fetches ∨ g = f := by
        intro g hg
        rw [Phase.fetches, List.map_append, mem_append] at hg
        rcases hg with hg | hg
        · rw [hphase]
          exact .inl hg
        · exact .inr (by simpa using hg)
      dsimp only at hs
      split at hs
      · rename_i fetch hf
        split at hs
        · rename_i hjoin
          cases hs
          refine h.setRead ⟨hok.floor, hok.fresh, fun g hg => ?_⟩
          rcases hwaits g hg with hg | rfl
          · exact hok.waits g hg
          · refine ⟨fetch, hf, fun v hv => Nat.le_trans hok.floor ?_⟩
            -- a fetch that can be joined has not given its bytes away
            have hheld : fetch.stage.held = some v := by
              have hopen := hjoin.2
              rw [Fetch.joinable] at hopen
              cases hstage : fetch.stage with
              | closed w | failed => simp [hstage] at hopen
              | looking | asked => simp [hstage, Stage.result] at hv
              | served w | stored w => simpa [hstage, Stage.result, Stage.held] using hv
            exact h.settled_le_held (List.mem_of_getElem? hf) hheld
        · cases hs
      · split at hs
        · rename_i hnew
          cases hs
          have hadd : Inv { s with fetches := s.fetches ++ [⟨.chunk n, .looking⟩] } := h.addFetch rfl
          refine hadd.setRead ⟨hok.floor, hok.fresh, fun g hg => ?_⟩
          rcases hwaits g hg with hg | rfl
          · obtain ⟨fetch, hfetch, hres⟩ := hok.waits g hg
            exact ⟨fetch, getElem?_append_new hfetch, hres⟩
          · refine ⟨⟨.chunk n, .looking⟩, ?_, by simp [Stage.result]⟩
            dsimp only
            rw [hnew.1]
            simp
        · cases hs
    · cases hs
  · cases hs

/-- A fetch goes on: what it newly holds is above every invalidation of its slot, and what
it newly gives is above every invalidation that has returned. -/
theorem Inv.setFetch (h : Inv s) {fetch : Fetch} {stage : Stage} (hf : s.fetches[f]? = some fetch)
    (hheld : ∀ v, stage.held = some v → fetch.stage.held = some v ∨ ∀ t ∈ s.tasks, t.covers fetch.slot →
    t.version ≤ v) (hres : ∀ v, stage.result = some v → fetch.stage.result = some v ∨ s.settled ≤ v) :
    Inv { s with fetches := s.fetches.set f { fetch with stage := stage } } := by
  have hmem := List.mem_of_getElem? hf
  refine ⟨h.bound, h.cached, ?_, h.settled, fun read hread => ?_⟩
  · intro t ht g hg hcov v hv
    rcases List.mem_or_eq_of_mem_set hg with hg | rfl
    · exact h.fetched t ht g hg hcov v hv
    · rcases hheld v hv with hold | hnew
      · exact h.fetched t ht fetch hmem hcov v hold
      · exact hnew t ht hcov
  · have hok := h.reads read hread
    refine ⟨hok.floor, hok.fresh, fun g hg => ?_⟩
    obtain ⟨old, hold, hfloor⟩ := hok.waits g hg
    dsimp only
    by_cases hgf : f = g
    · subst hgf
      obtain rfl : fetch = old := Option.some.inj (hf.symm.trans hold)
      have hlt := (List.getElem?_eq_some_iff.1 hf).1
      refine ⟨{ fetch with stage := stage }, by simp [hlt], fun v hv => ?_⟩
      rcases hres v hv with hsame | hset
      · exact hfloor v hsame
      · exact Nat.le_trans hok.floor hset
    · exact ⟨old, by rw [List.getElem?_set_ne hgf, hold], hfloor⟩

theorem Inv.look (h : Inv s) (hs : s.look f = some s') : Inv s' := by
  obtain ⟨fetch, hf, hs⟩ := bind_eq_some_iff.1 hs
  split at hs
  · split at hs
    · rename_i w hw
      cases hs
      refine h.setFetch hf (fun v hv => .inr fun t ht hcov => ?_) (fun v hv => .inr ?_)
      · obtain rfl : w = v := Option.some.inj hv
        exact h.cached t ht _ hcov w hw
      · obtain rfl : w = v := Option.some.inj hv
        exact h.settled_le_cached hw
    · cases hs
      exact h.setFetch hf (by simp [Stage.held]) (by simp [Stage.result])
  · cases hs

theorem Inv.serve (h : Inv s) (hs : s.serve f = some s') : Inv s' := by
  obtain ⟨fetch, hf, hs⟩ := bind_eq_some_iff.1 hs
  split at hs
  · cases hs
    refine h.setFetch hf (fun v hv => .inr fun t ht _ => ?_) (fun v hv => .inr ?_)
    · obtain rfl : s.version = v := Option.some.inj hv
      exact h.bound t ht
    · obtain rfl : s.version = v := Option.some.inj hv
      exact h.settled_le_version
  · cases hs

theorem Inv.fail (h : Inv s) (hs : s.fail f = some s') : Inv s' := by
  obtain ⟨fetch, hf, hs⟩ := bind_eq_some_iff.1 hs
  split at hs
  · cases hs
    exact h.setFetch hf (by simp [Stage.held]) (by simp [Stage.result])
  · cases hs

theorem Inv.close (h : Inv s) (hs : s.close f = some s') : Inv s' := by
  obtain ⟨fetch, hf, hs⟩ := bind_eq_some_iff.1 hs
  split at hs
  · rename_i w hstage
    cases hs
    refine h.setFetch hf (by simp [Stage.held]) (fun v hv => .inl ?_)
    rw [hstage]
    exact hv
  · cases hs

/-! ### The cache -/

theorem Inv.setCache (h : Inv s) {cache : Slot → Option Nat} (hcache : ∀ slot v, cache slot = some v →
    s.cache slot = some v ∨ ∀ t ∈ s.tasks, t.covers slot → t.version ≤ v) :
    Inv { s with cache := cache } := by
  refine ⟨h.bound, ?_, h.fetched, h.settled, fun r hr => ?_⟩
  · intro t ht slot hcov v hv
    rcases hcache slot v hv with hold | hnew
    · exact h.cached t ht slot hcov v hold
    · exact hnew t ht hcov
  · have hok := h.reads r hr
    exact ⟨hok.floor, hok.fresh, hok.waits⟩

theorem Inv.evict (h : Inv s) (slot : Slot) : Inv (s.evict slot) := by
  refine h.setCache fun slot' v hv => .inl ?_
  split at hv
  · cases hv
  · exact hv

theorem Inv.store (h : Inv s) {cached : Bool} (hs : s.store f cached = some s') : Inv s' := by
  obtain ⟨fetch, hf, hs⟩ := bind_eq_some_iff.1 hs
  split at hs
  · rename_i w hstage
    cases hs
    have hheld : fetch.stage.held = some w := by rw [hstage]; rfl
    have hcache : Inv { s with cache := fun slot => if slot = fetch.slot ∧ cached then some w else s.cache slot } := by
      refine h.setCache fun slot v hv => ?_
      split at hv
      · rename_i hslot
        obtain rfl : w = v := Option.some.inj hv
        refine .inr fun t ht hcov => h.fetched t ht fetch (List.mem_of_getElem? hf) ?_ w hheld
        exact hslot.1 ▸ hcov
      · exact .inl hv
    refine hcache.setFetch hf (fun v hv => .inl ?_) (fun v hv => .inl ?_)
    · rw [hstage]
      split at hv
      · cases hv
      · exact hv
    · rw [hstage]
      split at hv <;> exact hv
  · cases hs

/-! ### Invalidations -/

theorem Inv.change (h : Inv s) : Inv s.change := by
  have hnone : ∀ slot, ¬ Task.covers ⟨s.version + 1, .changed⟩ slot := by
    intro slot
    cases slot <;> simp [Task.covers]
  refine ⟨?_, ?_, ?_, ?_, fun r hr => ?_⟩
  · intro t ht
    rcases mem_append.1 ht with ht | ht
    · exact Nat.le_succ_of_le (h.bound t ht)
    · obtain rfl := mem_singleton.1 ht
      exact Nat.le_refl _
  · intro t ht slot hcov v hv
    rcases mem_append.1 ht with ht | ht
    · exact h.cached t ht slot hcov v hv
    · obtain rfl := mem_singleton.1 ht
      exact absurd hcov (hnone slot)
  · intro t ht f hf hcov v hv
    rcases mem_append.1 ht with ht | ht
    · exact h.fetched t ht f hf hcov v hv
    · obtain rfl := mem_singleton.1 ht
      exact absurd hcov (hnone _)
  · rcases h.settled with hzero | ⟨t, ht, hret⟩
    · exact .inl hzero
    · exact .inr ⟨t, List.mem_append_left _ ht, hret⟩
  · have hok := h.reads r hr
    exact ⟨hok.floor, hok.fresh, hok.waits⟩

theorem Inv.setTask (h : Inv s) {task : Task} {p : Progress} (ht : s.tasks[t]? = some task)
    (hnot : task.progress ≠ .returned) (hcached : ∀ slot, Task.covers { task with progress := p } slot →
    ∀ v, s.cache slot = some v → task.version ≤ v)
    (hfetched : ∀ f ∈ s.fetches, Task.covers { task with progress := p } f.slot →
    ∀ v, f.stage.held = some v → task.version ≤ v) :
    Inv { s with tasks := s.tasks.set t { task with progress := p } } := by
  have hmem := List.mem_of_getElem? ht
  refine ⟨?_, ?_, ?_, ?_, fun r hr => ?_⟩
  · intro u hu
    rcases List.mem_or_eq_of_mem_set hu with hu | rfl
    · exact h.bound u hu
    · exact h.bound task hmem
  · intro u hu slot hcov v hv
    rcases List.mem_or_eq_of_mem_set hu with hu | rfl
    · exact h.cached u hu slot hcov v hv
    · exact hcached slot hcov v hv
  · intro u hu f hf hcov v hv
    rcases List.mem_or_eq_of_mem_set hu with hu | rfl
    · exact h.fetched u hu f hf hcov v hv
    · exact hfetched f hf hcov v hv
  · rcases h.settled with hzero | ⟨u, hu, hret, hver⟩
    · exact .inl hzero
    · refine .inr ⟨u, ?_, hret, hver⟩
      obtain ⟨i, hi⟩ := List.getElem?_of_mem hu
      refine List.mem_of_getElem? (i := i) ?_
      rw [List.getElem?_set_ne, hi]
      rintro rfl
      rw [ht] at hi
      cases hi
      exact hnot hret
  · have hok := h.reads r hr
    exact ⟨hok.floor, hok.fresh, hok.waits⟩

theorem Inv.deleteFull (h : Inv s) (hquiet : Quiet s (.deleteFull t)) (hs : s.deleteFull t = some s') :
    Inv s' := by
  obtain ⟨task, ht, hs⟩ := bind_eq_some_iff.1 hs
  split at hs
  · rename_i hprog
    cases hs
    have hcache : Inv { s with cache := fun slot => if slot = .full then none else s.cache slot } := by
      refine h.setCache fun slot v hv => .inl ?_
      split at hv
      · cases hv
      · exact hv
    -- so far it covers the full entry only
    have hfull : ∀ slot, Task.covers { task with progress := .fullDeleted } slot → slot = .full := by
      intro slot hcov
      cases slot with
      | full => rfl
      | chunk n => simp [Task.covers] at hcov
    refine hcache.setTask ht (by simp [hprog]) ?_ ?_
    · intro slot hcov v hv
      obtain rfl := hfull slot hcov
      cases hv
    · exact fun f hf hcov v hv => hquiet task ht f hf (hfull _ hcov) v hv
  · cases hs

theorem Inv.deleteChunks (h : Inv s) (hquiet : Quiet s (.deleteChunks t))
    (hs : s.deleteChunks t = some s') : Inv s' := by
  obtain ⟨task, ht, hs⟩ := bind_eq_some_iff.1 hs
  split at hs
  · rename_i hprog
    cases hs
    have hmem := List.mem_of_getElem? ht
    have hbefore : task.covers .full := by simp [Task.covers, hprog]
    have hcache : Inv { s with cache := fun slot => if slot = .full then s.cache .full else none } := by
      refine h.setCache fun slot v hv => .inl ?_
      split at hv
      · rename_i hslot
        rw [hslot]
        exact hv
      · cases hv
    refine hcache.setTask ht (by simp [hprog]) ?_ ?_
    · intro slot _ v hv
      dsimp only at hv
      split at hv
      · exact h.cached task hmem .full hbefore v hv
      · cases hv
    · intro f hf _ v hv
      by_cases hslot : f.slot = .full
      · exact h.fetched task hmem f hf (hslot ▸ hbefore) v hv
      · exact hquiet task ht f hf hslot v hv
  · cases hs

theorem Inv.invalidated (h : Inv s) (hs : s.invalidated t = some s') : Inv s' := by
  obtain ⟨task, ht, hs⟩ := bind_eq_some_iff.1 hs
  split at hs
  · rename_i hprog
    cases hs
    have hmem := List.mem_of_getElem? ht
    have hbefore : ∀ slot, task.covers slot := by
      intro slot
      cases slot with
      | full => simp [Task.covers, hprog]
      | chunk n => exact .inl hprog
    have htask : Inv { s with tasks := s.tasks.set t { task with progress := .returned } } :=
      h.setTask ht (by simp [hprog]) (fun slot _ => h.cached task hmem slot (hbefore slot))
        (fun f hf _ => h.fetched task hmem f hf (hbefore _))
    refine ⟨htask.bound, htask.cached, htask.fetched, ?_, fun r hr => ?_⟩
    · by_cases hle : task.version ≤ s.settled
      · rw [Nat.max_eq_left hle]
        exact htask.settled
      · rw [Nat.max_eq_right (by omega)]
        exact .inr ⟨_, List.mem_set (List.getElem?_eq_some_iff.1 ht).1 _, rfl, rfl⟩
    · have hok := h.reads r hr
      exact ⟨Nat.le_trans hok.floor (Nat.le_max_left ..), hok.fresh, hok.waits⟩
  · cases hs

end Steps

/-- In every run in which no fetch that was answered before a change is still under way when
the change's invalidation removes its part of the cache, no read has a byte from before a
change whose invalidation had returned when the read began. -/
theorem no_data_outlives_invalidation {s : State} (h : Reach cacheSystem Quiet s) :
    ∀ r ∈ s.reads, ∀ v ∈ r.got, r.floor ≤ v := by
  have hinv : Inv s := by
    refine Reach.invariant (I := Inv) ?_ ?_ h
    · rintro s ⟨hfetches, hreads, htasks, hsettled⟩
      exact ⟨by simp [htasks], by simp [htasks], by simp [htasks], .inl hsettled, by simp [hreads]⟩
    · intro s e s' hs hok hstep
      change s.next e = some s' at hstep
      cases e with
      | change =>
        cases hstep
        exact hs.change
      | deleteFull t => exact hs.deleteFull hok hstep
      | deleteChunks t => exact hs.deleteChunks hok hstep
      | invalidated t => exact hs.invalidated hstep
      | evict slot =>
        cases hstep
        exact hs.evict slot
      | readFull | readRange required ahead =>
        cases hstep
        exact hs.addRead rfl
      | lookFull r => exact hs.lookFull hstep
      | tryWarm r short => exact hs.tryWarm hstep
      | gatherNext r => exact hs.gatherNext hstep
      | fetchMissing r => exact hs.fetchMissing hstep
      | fetchChunk r n f => exact hs.fetchChunk hstep
      | look f => exact hs.look hstep
      | serve f => exact hs.serve hstep
      | fail f => exact hs.fail hstep
      | store f cached => exact hs.store hstep
      | close f => exact hs.close hstep
      | receive r n f => exact hs.receive hstep
      | receiveOwn r => exact hs.receiveOwn hstep
      | finish r => exact hs.finish hstep
  exact fun r hr v hv => (hinv.reads r hr).fresh v hv

/-! ## Answers from before a change -/

/-- Nothing cached, nothing under way. -/
def State.idle : State := ⟨0, fun _ => none, [], [], [], 0⟩

theorem starts_idle : Starts State.idle := ⟨rfl, rfl, rfl, rfl⟩

/-- The object changes, and its invalidation returns. -/
def changeOnce : List Label := [.change, .deleteFull 0, .deleteChunks 0, .invalidated 0]

/-- A full read is answered before the change and stored after the invalidation. -/
def storedLate : List Label :=
  [.readFull, .lookFull 0, .serve 0] ++ changeOnce ++ [.store 0 true, .readFull, .lookFull 1]

/-- A read begins after the invalidation and joins a fetch that was answered before the
change. -/
def joinedLate : List Label :=
  [.readRange [0] [], .tryWarm 0 false, .gatherNext 0, .fetchMissing 0, .fetchChunk 0 0 0, .look 0, .serve 0] ++
    changeOnce ++
    [.readRange [0] [], .tryWarm 1 false, .gatherNext 1, .fetchMissing 1, .fetchChunk 1 0 0, .store 0 false, .close 0,
      .receive 1 0 0]

/-- A read that began after the invalidation has old bytes, from the cache and, with nothing
cached, from a fetch under way. -/
theorem old_bytes_read :
    (∃ s, Reach cacheSystem always s ∧ ∃ r ∈ s.reads, r.phase = .done ∧ ∃ v ∈ r.got, v < r.floor) ∧
    ∃ s, Reach cacheSystem always s ∧ s.cache (.chunk 0) = none ∧ ∃ r ∈ s.reads, ∃ v ∈ r.got, v < r.floor := by
  have hstored : (runFrom State.next always State.idle storedLate).any
      (fun s => decide (∃ r ∈ s.reads, r.phase = .done ∧ ∃ v ∈ r.got, v < r.floor)) := by decide
  have hjoined : (runFrom State.next always State.idle joinedLate).any
      (fun s => decide (s.cache (.chunk 0) = none ∧ ∃ r ∈ s.reads, ∃ v ∈ r.got, v < r.floor)) := by decide
  constructor
  · obtain ⟨s, hs, hp⟩ := exists_reach starts_idle hstored
    exact ⟨s, hs, of_decide_eq_true hp⟩
  · obtain ⟨s, hs, hp⟩ := exists_reach starts_idle hjoined
    exact ⟨s, hs, of_decide_eq_true hp⟩

/-- A full read that is over before the object changes, and one that begins after the
invalidation. -/
def storedInTime : List Label :=
  [.readFull, .lookFull 0, .serve 0, .store 0 true, .receiveOwn 0] ++ changeOnce ++
    [.readFull, .lookFull 1, .serve 1, .store 1 true, .receiveOwn 1]

theorem stored_in_time_fresh :
    ∃ s : State, (∃ r ∈ s.reads, r.floor = 1 ∧ r.got = [1]) ∧ ∀ r ∈ s.reads, ∀ v ∈ r.got, r.floor ≤ v := by
  have hrun : (runFrom State.next Quiet State.idle storedInTime).any
      (fun s => decide (∃ r ∈ s.reads, r.floor = 1 ∧ r.got = [1])) := by decide
  obtain ⟨s, hs, hp⟩ := exists_reach starts_idle hrun
  exact ⟨s, of_decide_eq_true hp, no_data_outlives_invalidation hs⟩

end Bluestone.DataCache
