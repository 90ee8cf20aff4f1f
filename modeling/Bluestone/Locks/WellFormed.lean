/-
# `Bluestone.Locks.WellFormed` — what the lock table keeps

`WellFormed` is the whole of what the table's fields promise: each owner's ranges
are tidy, different owners do not overlap where one of them is exclusive, the two
indexes agree and hold nothing empty, and each client's count is the number of
ranges its owners hold.  Everything the table does to itself is one `setLocked`,
so the invariant is proved for that and then for the calls.
-/
import Bluestone.Locks.Manager

namespace Bluestone.Locks

open Runs Spans Tables
open List (argAux not_mem_nil mem_map)

namespace Manager

/-- The owner is indexed as holding ranges on `path`. -/
def indexed (m : Manager) (owner : Owner) (path : String) : Bool := (lookupIn m.owned owner path).isSome

/-- The number of ranges an owner adds to what `client` holds. -/
def weight (client : String) (owner : Owner) (ranges : List Held) : Nat :=
  if owner.client = client then ranges.length else 0

/-- The number of ranges the owners of `client` hold. -/
def clientTotal (m : Manager) (client : String) : Nat := totalIn (weight client) m.files

end Manager

/-- Ranges of two owners that may be held together. -/
def Compatible (h h' : Held) : Prop :=
  h.overlaps h'.start h'.stop = true → h.tag = .shared ∧ h'.tag = .shared

/-- The two indexes, and the counts. -/
structure Indexed (m : Manager) : Prop where
  filled : ∀ path owner, m.entry path owner ≠ some []
  files : Filled m.files
  owned : Filled m.owned
  same : ∀ path owner, (m.entry path owner).isSome = m.indexed owner path
  count : ∀ client, m.clientCount client = m.clientTotal client

/-- The table is well formed. -/
structure WellFormed (m : Manager) : Prop extends Indexed m where
  tidy : ∀ path owner, Tidy (m.ranges path owner)
  exclusive : ∀ path owner other, owner ≠ other →
    ∀ h ∈ m.ranges path owner, ∀ h' ∈ m.ranges path other, Compatible h h'

section
variable {m : Manager} {owner other : Owner} {path p : String} {ranges : List Held} {client : String}
  {delta : Int}

/-! ## What `setLocked` does -/

theorem setLocked_ranges_self : (m.setLocked owner path ranges delta).ranges path owner = ranges := by
  unfold Manager.setLocked
  split
  · rename_i hnil
    show (lookupIn (eraseIn m.files path owner) path owner).getD [] = ranges
    rw [lookupIn_eraseIn_self, hnil]
    rfl
  · show (lookupIn (insertIn m.files path owner ranges) path owner).getD [] = ranges
    rw [lookupIn_insertIn_self]
    rfl

theorem setLocked_entry_of_ne (h : ¬ (p = path ∧ other = owner)) :
    (m.setLocked owner path ranges delta).entry p other = m.entry p other := by
  unfold Manager.setLocked
  split
  · exact lookupIn_eraseIn_of_ne h
  · exact lookupIn_insertIn_of_ne h

theorem setLocked_ranges_of_ne (h : ¬ (p = path ∧ other = owner)) :
    (m.setLocked owner path ranges delta).ranges p other = m.ranges p other := by
  unfold Manager.ranges
  rw [setLocked_entry_of_ne h]

theorem setLocked_indexed_of_ne (h : ¬ (p = path ∧ other = owner)) :
    (m.setLocked owner path ranges delta).indexed other p = m.indexed other p := by
  have h' : ¬ (other = owner ∧ p = path) := fun hp => h hp.symm
  unfold Manager.setLocked
  split
  · exact congrArg Option.isSome (lookupIn_eraseIn_of_ne h')
  · exact congrArg Option.isSome (lookupIn_insertIn_of_ne h')

theorem weight_ranges : weightIn (Manager.weight client) m.files path owner =
    Manager.weight client owner (m.ranges path owner) := by
  show (m.entry path owner).elim 0 (Manager.weight client owner) = _
  unfold Manager.ranges
  cases m.entry path owner with
  | none => simp [Manager.weight]
  | some l => rfl

theorem setLocked_clientTotal : (m.setLocked owner path ranges delta).clientTotal client +
    Manager.weight client owner (m.ranges path owner) =
    m.clientTotal client + Manager.weight client owner ranges := by
  rw [← weight_ranges]
  unfold Manager.setLocked
  split
  · rename_i hnil
    have hzero : Manager.weight client owner ranges = 0 := by simp [Manager.weight, hnil]
    rw [hzero]
    exact totalIn_eraseIn
  · exact totalIn_insertIn

theorem setLocked_clientCount_of_ne (h : client ≠ owner.client) :
    (m.setLocked owner path ranges delta).clientCount client = m.clientCount client := by
  have hadd : ∀ m' : Manager, (m'.addCount owner.client delta).clientCount client = m'.clientCount client := by
    intro m'
    unfold Manager.clientCount Manager.addCount
    dsimp only
    split
    · rw [AList.lookup_insert_ne h]
    · rw [AList.lookup_erase_ne h]
  unfold Manager.setLocked
  rw [hadd]
  split <;> rfl

theorem setLocked_clientCount (h : 0 ≤ m.clientCount owner.client + delta) :
    (m.setLocked owner path ranges delta).clientCount owner.client =
    m.clientCount owner.client + delta := by
  have hadd : ∀ m' : Manager, m'.clientLocks = m.clientLocks →
      (m'.addCount owner.client delta).clientCount owner.client = m.clientCount owner.client + delta := by
    intro m' hm'
    have hcount : m'.clientCount owner.client = m.clientCount owner.client := by
      unfold Manager.clientCount
      rw [hm']
    rw [← hcount] at h ⊢
    show ((m'.addCount owner.client delta).clientLocks.lookup owner.client).getD 0 = _
    unfold Manager.addCount
    dsimp only
    split
    · rw [AList.lookup_insert]
      rfl
    · rw [AList.lookup_erase]
      simp only [Option.getD_none]
      omega
  unfold Manager.setLocked
  split
  all_goals exact hadd _ rfl

/-- The indexes and counts stay right when `delta` is the change in the number of
ranges. -/
theorem Indexed.setLocked (h : Indexed m) (hdelta : delta = ranges.length - (m.ranges path owner).length) :
    Indexed (m.setLocked owner path ranges delta) where
  filled p o := by
    by_cases heq : p = path ∧ o = owner
    · obtain ⟨rfl, rfl⟩ := heq
      unfold Manager.setLocked
      split
      · show lookupIn (eraseIn m.files p o) p o ≠ some []
        rw [lookupIn_eraseIn_self]
        exact fun h => nomatch h
      · rename_i hne
        show lookupIn (insertIn m.files p o ranges) p o ≠ some []
        rw [lookupIn_insertIn_self]
        exact fun h => hne (Option.some.inj h)
    · rw [setLocked_entry_of_ne heq]
      exact h.filled p o
  files := by
    unfold Manager.setLocked
    split
    · exact h.files.eraseIn
    · exact h.files.insertIn
  owned := by
    unfold Manager.setLocked
    split
    · exact h.owned.eraseIn
    · exact h.owned.insertIn
  same p o := by
    by_cases heq : p = path ∧ o = owner
    · obtain ⟨rfl, rfl⟩ := heq
      unfold Manager.setLocked
      split
      · show (lookupIn (eraseIn m.files p o) p o).isSome = (lookupIn (eraseIn m.owned o p) o p).isSome
        rw [lookupIn_eraseIn_self, lookupIn_eraseIn_self]
        rfl
      · show (lookupIn (insertIn m.files p o ranges) p o).isSome =
          (lookupIn (insertIn m.owned o p ()) o p).isSome
        rw [lookupIn_insertIn_self, lookupIn_insertIn_self]
        rfl
    · rw [setLocked_entry_of_ne heq, setLocked_indexed_of_ne heq]
      exact h.same p o
  count client := by
    have htotal : (m.setLocked owner path ranges delta).clientTotal client +
        Manager.weight client owner (m.ranges path owner) =
          m.clientTotal client + Manager.weight client owner ranges := setLocked_clientTotal
    have hcount := h.count client
    by_cases hc : client = owner.client
    · subst hc
      simp only [Manager.weight, if_true] at htotal
      rw [setLocked_clientCount (by omega)]
      omega
    · have hzero : ∀ l, Manager.weight client owner l = 0 := fun l => if_neg fun heq => hc heq.symm
      rw [hzero, hzero] at htotal
      rw [setLocked_clientCount_of_ne hc]
      omega

/-- New ranges are fine when they are tidy and hold nothing that another owner
objects to. -/
theorem WellFormed.setLocked (h : WellFormed m) (htidy : Tidy ranges)
    (hholds : ∀ x tag, Holds ranges x tag → Holds (m.ranges path owner) x tag ∨ ∀ other, other ≠ owner →
    ∀ h' ∈ m.ranges path other, h'.start ≤ x → x < h'.stop → tag = .shared ∧ h'.tag = .shared) :
    WellFormed (m.setLocked owner path ranges (ranges.length - (m.ranges path owner).length)) := by
  -- The owner's new ranges against those of another.
  have hnew : ∀ other, other ≠ owner → ∀ s ∈ ranges, ∀ t ∈ m.ranges path other,
      (∃ x, (s.start ≤ x ∧ x < s.stop) ∧ t.start ≤ x ∧ x < t.stop) → s.tag = .shared ∧ t.tag = .shared := by
    rintro other hne s hs t ht ⟨x, ⟨hsx, hxs⟩, htx, hxt⟩
    rcases hholds x s.tag ⟨s, hs, hsx, hxs, rfl⟩ with ⟨old, hold, hox, hxo, htag⟩ | hfree
    · rw [← htag]
      refine h.exclusive path owner other hne.symm old hold t ht ?_
      exact (overlaps_iff ((h.tidy path owner).nonempty old hold) ((h.tidy path other).nonempty t ht)).2
        ⟨x, ⟨hox, hxo⟩, htx, hxt⟩
    · exact hfree other hne t ht htx hxt
  refine { h.toIndexed.setLocked rfl with tidy := ?_, exclusive := ?_ }
  · intro p o
    by_cases heq : p = path ∧ o = owner
    · obtain ⟨rfl, rfl⟩ := heq
      rw [setLocked_ranges_self]
      exact htidy
    · rw [setLocked_ranges_of_ne heq]
      exact h.tidy p o
  · intro p o o' hne s hs t ht hover
    by_cases heq : p = path ∧ o = owner
    · obtain ⟨rfl, rfl⟩ := heq
      rw [setLocked_ranges_self] at hs
      rw [setLocked_ranges_of_ne fun h' => hne h'.2.symm] at ht
      exact hnew o' hne.symm s hs t ht
        ((overlaps_iff (htidy.nonempty s hs) ((h.tidy p o').nonempty t ht)).1 hover)
    · rw [setLocked_ranges_of_ne heq] at hs
      by_cases heq' : p = path ∧ o' = owner
      · obtain ⟨rfl, rfl⟩ := heq'
        rw [setLocked_ranges_self] at ht
        obtain ⟨x, hsx, htx⟩ :=
          (overlaps_iff ((h.tidy p o).nonempty s hs) (htidy.nonempty t ht)).1 hover
        exact (hnew o hne t ht s hs ⟨x, htx, hsx⟩).symm
      · rw [setLocked_ranges_of_ne heq'] at ht
        exact h.exclusive p o o' hne s hs t ht hover

/-! ## The conflict search -/

/-- The range is in the way of `mode` on `r`. -/
def Blocks (r : Range) (mode : Mode) (h : Held) : Bool :=
  h.overlaps r.start r.stop && !(h.tag = .shared && mode = .shared)

variable {r : Range} {mode : Mode} {found : Option Lock}

theorem blocks_iff {h : Held} : Blocks r mode h ↔
    h.overlaps r.start r.stop ∧ ¬ (h.tag = .shared ∧ mode = .shared) := by
  simp [Blocks, imp_iff_not_or]

/-- The locks of other owners that are in the way, in the order of the entries. -/
def blocking (owner : Owner) (r : Range) (mode : Mode) (entries : List (Owner × List Held)) : List Lock :=
  entries.flatMap fun e =>
    if e.1 = owner then []
    else (e.2.filter (Blocks r mode)).map fun h => ⟨⟨h.start, h.stop⟩, h.tag, e.1⟩

/-- By start, then by owner. -/
def Lock.key (l : Lock) : UInt64 ×ₗ (String ×ₗ String) :=
  toLex (l.range.start, toLex (l.owner.client, l.owner.id))

theorem lessOwner_iff {a b : Owner} :
    lessOwner a b ↔ toLex (a.client, a.id) < toLex (b.client, b.id) := by
  rw [Prod.Lex.toLex_lt_toLex]
  unfold lessOwner
  by_cases hc : a.client = b.client
  all_goals simp [hc]

theorem key_lt_iff {l l' : Lock} : l.key < l'.key ↔ l.range.start < l'.range.start ∨
    (l.range.start = l'.range.start ∧ lessOwner l.owner l'.owner) := by
  rw [lessOwner_iff]
  exact Prod.Lex.toLex_lt_toLex

theorem consider_eq {h : Held} :
    Manager.consider r mode other found h = if Blocks r mode h then
        argAux (fun l l' => Lock.key l < Lock.key l') found ⟨⟨h.start, h.stop⟩, h.tag, other⟩
      else found := by
  have hskip : (!h.overlaps r.start r.stop || (h.tag = .shared && mode = .shared)) = !Blocks r mode h := by
    rw [Blocks, Bool.not_and, Bool.not_not]
  unfold Manager.consider
  rw [hskip]
  cases Blocks r mode h with
  | false => rfl
  | true =>
    cases found with
    | none => rfl
    | some best => simp [argAux, key_lt_iff]

theorem foldl_consider (l : List Held) : l.foldl (Manager.consider r mode other) found =
    ((l.filter (Blocks r mode)).map fun h => (⟨⟨h.start, h.stop⟩, h.tag, other⟩ : Lock)).foldl
    (argAux fun l l' => Lock.key l < Lock.key l') found := by
  induction l generalizing found with
  | nil => rfl
  | cons s rest ih =>
    rw [List.foldl_cons, ih, consider_eq, List.filter_cons]
    split
    all_goals rfl

theorem foldl_owners (entries : List (Owner × List Held)) :
    entries.foldl (fun found e =>
      if e.1 = owner then found else e.2.foldl (Manager.consider r mode e.1) found) found =
      (blocking owner r mode entries).foldl (argAux fun l l' => Lock.key l < Lock.key l') found := by
  induction entries generalizing found with
  | nil => rfl
  | cons e rest ih =>
    have hcons : blocking owner r mode (e :: rest) =
        (if e.1 = owner then [] else (e.2.filter (Blocks r mode)).map fun h =>
          (⟨⟨h.start, h.stop⟩, h.tag, e.1⟩ : Lock)) ++ blocking owner r mode rest := List.flatMap_cons ..
    rw [List.foldl_cons, ih, hcons, List.foldl_append]
    by_cases he : e.1 = owner
    · rw [if_pos he, if_pos he]
      rfl
    · rw [if_neg he, if_neg he, foldl_consider]

theorem conflictLocked_eq :
    m.conflictLocked owner path r mode = (blocking owner r mode (m.owners path)).argmin Lock.key :=
  foldl_owners (m.owners path)

theorem mem_owners : (other, ranges) ∈ m.owners path ↔ m.entry path other = some ranges := by
  unfold Manager.entry lookupIn Manager.owners
  cases m.files.lookup path with
  | none =>
    rw [Option.getD_none, Option.bind_none]
    exact ⟨fun h => (not_mem_nil h).elim, fun h => by cases h⟩
  | some owners =>
    rw [Option.getD_some, Option.bind_some, ← Option.mem_def, AList.mem_lookup_iff, mem_map]
    constructor
    · rintro ⟨e, he, heq⟩
      obtain ⟨rfl, rfl⟩ := Prod.mk.inj heq
      exact he
    · exact fun h => ⟨⟨other, ranges⟩, h, rfl⟩

theorem mem_blocking {l : Lock} : l ∈ blocking owner r mode (m.owners path) ↔ l.owner ≠ owner ∧
    Blocks r mode ⟨l.range.start, l.range.stop, l.mode⟩ = true ∧
    ⟨l.range.start, l.range.stop, l.mode⟩ ∈ m.ranges path l.owner := by
  unfold blocking
  rw [List.mem_flatMap]
  constructor
  · rintro ⟨⟨other, held⟩, he, hl⟩
    dsimp only at hl
    split at hl
    · exact (not_mem_nil hl).elim
    · rename_i hne
      obtain ⟨h, hh, rfl⟩ := mem_map.1 hl
      obtain ⟨hmem, hblocks⟩ := List.mem_filter.1 hh
      refine ⟨hne, hblocks, ?_⟩
      rw [Manager.ranges, mem_owners.1 he]
      exact hmem
  · rintro ⟨hne, hblocks, hmem⟩
    unfold Manager.ranges at hmem
    cases he : m.entry path l.owner with
    | none =>
      rw [he] at hmem
      exact (not_mem_nil hmem).elim
    | some held =>
      rw [he] at hmem
      refine ⟨(l.owner, held), mem_owners.2 he, ?_⟩
      rw [if_neg hne]
      exact mem_map.2 ⟨_, List.mem_filter.2 ⟨hmem, hblocks⟩, rfl⟩

/-- Without a conflict other owners' overlapping ranges are shared, and so is the
lock asked for. -/
theorem conflictLocked_none (h : m.conflictLocked owner path r mode = none)
    (hne : other ≠ owner) {h' : Held} (hm : h' ∈ m.ranges path other)
    (hover : h'.overlaps r.start r.stop) : h'.tag = .shared ∧ mode = .shared := by
  rw [conflictLocked_eq, List.argmin_eq_none] at h
  by_contra hblocks
  have hmem : (⟨⟨h'.start, h'.stop⟩, h'.tag, other⟩ : Lock) ∈ blocking owner r mode (m.owners path) := by
    exact mem_blocking.2 ⟨hne, blocks_iff.2 ⟨hover, hblocks⟩, hm⟩
  rw [h] at hmem
  exact not_mem_nil hmem

/-! ## The calls -/

theorem validate_ok {u : Unit} (h : validate r mode = .ok u) : r.start < r.stop := by
  unfold validate at h
  split at h
  · exact nomatch h
  · rename_i hvalid
    exact lt_of_not_ge fun hle => hvalid (.inl hle)

/-- What a `Lock` comes to: the request is refused and the table is as it was, or
the ranges are granted. -/
theorem lock_cases (m : Manager) (owner : Owner) (path : String) (r : Range) (mode : Mode) :
    (∃ e, validate r mode = .error e ∧ m.lock owner path r mode = (.error e, m)) ∨
    (validate r mode = .ok () ∧ ∃ l, m.conflictLocked owner path r mode = some l ∧
    m.lock owner path r mode = (.ok (some l), m)) ∨ (validate r mode = .ok () ∧
    m.conflictLocked owner path r mode = none ∧ m.lock owner path r mode = (.error .limit, m)) ∨
    (validate r mode = .ok () ∧ m.conflictLocked owner path r mode = none ∧
    ∃ delta : Int, delta = (m.granted owner path r mode).length - (m.ranges path owner).length ∧
    (0 < delta → m.fileLockCountLocked path + delta ≤ m.maxLocksPerFile ∧
    m.clientCount owner.client + delta ≤ m.maxLocksPerClient) ∧ m.lock owner path r mode =
    (.ok none, m.setLocked owner path (m.granted owner path r mode) delta)) := by
  unfold Manager.lock
  cases hv : validate r mode with
  | error e => exact .inl ⟨e, rfl, rfl⟩
  | ok u =>
    cases hc : m.conflictLocked owner path r mode with
    | some l => exact .inr (.inl ⟨rfl, l, rfl, rfl⟩)
    | none =>
      dsimp only
      split
      · exact .inr (.inr (.inl ⟨rfl, rfl, rfl⟩))
      · rename_i hlimit
        refine .inr (.inr (.inr ⟨rfl, rfl, _, rfl, fun hpos => ?_, rfl⟩))
        exact ⟨not_lt.1 fun h => hlimit ⟨hpos, .inl h⟩, not_lt.1 fun h => hlimit ⟨hpos, .inr h⟩⟩

theorem WellFormed.lock (h : WellFormed m) (owner : Owner) (path : String) (r : Range) (mode : Mode) :
    WellFormed (m.lock owner path r mode).2 := by
  rcases lock_cases m owner path r mode with ⟨e, _, hl⟩ | ⟨_, l, _, hl⟩ | ⟨_, _, hl⟩ |
    ⟨hv, hc, delta, rfl, _, hl⟩
  · rw [hl]
    exact h
  · rw [hl]
    exact h
  · rw [hl]
    exact h
  · rw [hl]
    obtain ⟨htidy, hholds⟩ := tidy_replace (h.tidy path owner) (validate_ok hv) mode
    refine h.setLocked htidy fun x tag hx => ?_
    rcases (hholds x tag).1 hx with hold | ⟨hlo, hhi, rfl⟩
    · exact .inl hold.1
    · refine .inr fun other hne h' hm hx' hx'' => ?_
      have hover : h'.overlaps r.start r.stop := by
        simp only [Span.overlaps, Bool.and_eq_true, decide_eq_true_eq]
        exact ⟨hx'.trans_lt hhi, hlo.trans_lt hx''⟩
      exact (conflictLocked_none hc hne hm hover).symm

theorem WellFormed.unlock (h : WellFormed m) (owner : Owner) (path : String) (r : Range) :
    WellFormed (m.unlock owner path r).2 := by
  unfold Manager.unlock
  split
  · exact h
  · rename_i hlt
    exact h.setLocked ((h.tidy path owner).subtract (lt_of_not_ge hlt)) fun x tag hx =>
      .inl (holds_subtract.1 hx).1

theorem WellFormed.releasePath (h : WellFormed m) (owner : Owner) (path : String) :
    WellFormed (m.releasePath owner path) := by
  have hset : WellFormed (m.setLocked owner path []
      (([] : List Held).length - (m.ranges path owner).length)) := by
    refine h.setLocked tidy_nil ?_
    rintro x tag ⟨s, hs, _⟩
    exact (not_mem_nil hs).elim
  rw [Manager.releasePath]
  simpa using hset

theorem WellFormed.releaseOwnerLocked (h : WellFormed m) (owner : Owner) :
    WellFormed (m.releaseOwnerLocked owner) :=
  Manager.releaseOwnerLocked_keeps (fun _ path hm => hm.releasePath owner path) h

theorem WellFormed.releaseClient (h : WellFormed m) (client : String) :
    WellFormed (m.releaseClient client) :=
  Manager.releaseClient_keeps (fun _ owner hm => hm.releaseOwnerLocked owner) h client

theorem WellFormed.next (h : WellFormed m) (c : Call) : WellFormed (m.next c) := by
  cases c with
  | lock owner path r mode => exact h.lock owner path r mode
  | unlock owner path r => exact h.unlock owner path r
  | releaseOwner owner => exact h.releaseOwnerLocked owner
  | releaseClient client => exact h.releaseClient client

theorem wellFormed_new (perFile perClient : Int) : WellFormed (newManager perFile perClient) where
  filled _ _ h := nomatch h
  files _ _ h := nomatch h
  owned _ _ h := nomatch h
  same _ _ := rfl
  count _ := rfl
  tidy _ _ := tidy_nil
  exclusive _ _ _ _ _ h := (not_mem_nil h).elim

/-! ## Every sequence of calls -/

theorem wellFormed_of_reach {m : Manager} {ok : Manager → Call → Prop} (hr : Reach tableSystem ok m) :
    WellFormed m := by
  refine Reach.invariant ?_ ?_ hr
  · rintro _ ⟨perFile, perClient, rfl⟩
    exact wellFormed_new perFile perClient
  · rintro m' c _ hm' _ rfl
    exact hm'.next c

/-- Whatever calls were made, the table is well formed: each owner's ranges are
non-empty, sorted, apart and merged, owners exclude each other, and the indexes
and counts are exact. -/
theorem lock_table_wellFormed {m : Manager} (hr : Reach tableSystem always m) :
    (∀ path owner, (∀ h ∈ m.ranges path owner, h.start < h.stop) ∧
    (m.ranges path owner).Pairwise fun h h' => h.stop ≤ h'.start ∧ (h.stop = h'.start →
    h.tag ≠ h'.tag)) ∧ (∀ path owner other, owner ≠ other →
    ∀ h ∈ m.ranges path owner, ∀ h' ∈ m.ranges path other, h.overlaps h'.start h'.stop = true →
    h.tag ≠ .exclusive ∧ h'.tag ≠ .exclusive) ∧
    (∀ path owner, (m.entry path owner).isSome = (lookupIn m.owned owner path).isSome ∧
    m.entry path owner ≠ some []) ∧ (∀ path owners, m.files.lookup path = some owners →
    ∃ owner, (m.entry path owner).isSome = true) ∧ (∀ owner paths, m.owned.lookup owner = some paths →
    ∃ path, (lookupIn m.owned owner path).isSome = true) ∧
    ∀ client, m.clientCount client = m.clientTotal client := by
  have hwf := wellFormed_of_reach hr
  refine ⟨fun path owner => ⟨(hwf.tidy path owner).nonempty, (hwf.tidy path owner).ordered⟩, ?_,
    fun path owner => ⟨hwf.same path owner, hwf.filled path owner⟩, ?_, ?_, hwf.count⟩
  · intro path owner other hne h hm h' hm' hover
    obtain ⟨hs, hs'⟩ := hwf.exclusive path owner other hne h hm h' hm' hover
    rw [hs, hs']
    exact ⟨by decide, by decide⟩
  · exact fun path owners hp => hwf.files.exists_lookupIn hp
  · exact fun owner paths ho => hwf.owned.exists_lookupIn ho

/-- An unlock in the middle splits a range, and the counts follow. -/
def splitTable : Manager :=
  ((newManager 0 0).next (.lock ⟨"nfs", "a"⟩ "f" ⟨0, 10⟩ .shared)).next (.unlock ⟨"nfs", "a"⟩ "f" ⟨3, 5⟩)

theorem split_table_wellFormed : splitTable.ranges "f" ⟨"nfs", "a"⟩ = [⟨0, 3, .shared⟩, ⟨5, 10, .shared⟩] ∧
    splitTable.clientCount "nfs" = splitTable.clientTotal "nfs" := by
  refine ⟨by decide +kernel, ?_⟩
  have hinit : Reach tableSystem always (newManager 0 0) := .init ⟨0, 0, rfl⟩
  have hr : Reach tableSystem always splitTable := (hinit.next rfl).next rfl
  exact (lock_table_wellFormed hr).2.2.2.2.2 "nfs"

end

end Bluestone.Locks
