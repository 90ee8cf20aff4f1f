/-
# `Bluestone.Locks.Exact` — locking and unlocking byte by byte

What the table says of a byte is the mode an owner holds it in (`modeAt`).  A
granted `Lock` and an `Unlock` set that for the bytes of the range and change it
nowhere else; a refused `Lock` leaves the table as it was.

Of the locks in the way the least by start and owner is found, and no two have the
same, so the order in which the map of owners is gone through does not matter.  A
release takes exactly what its owner or client holds (`release_exact`).
-/
import Bluestone.Locks.WellFormed

namespace Bluestone.Locks

open Runs Spans Tables

/-- The mode `owner` holds the byte in. -/
def Manager.modeAt (m : Manager) (path : String) (owner : Owner) (x : UInt64) : Option Mode :=
  tagAt (m.ranges path owner) x

/-- The search of `conflictLocked` through the owners in some order. -/
def searchOwners (owner : Owner) (r : Range) (mode : Mode) (entries : List (Owner × List Held)) :
    Option Lock :=
  entries.foldl (fun found e =>
    if e.1 = owner then found else e.2.foldl (Manager.consider r mode e.1) found) none

/-- Another owner's lock on `path` that overlaps `r`, one of the two exclusive. -/
structure Conflicting (m : Manager) (owner : Owner) (path : String) (r : Range) (mode : Mode)
    (l : Lock) : Prop where
  other : l.owner ≠ owner
  held : ⟨l.range.start, l.range.stop, l.mode⟩ ∈ m.ranges path l.owner
  overlaps : l.range.start < r.stop ∧ r.start < l.range.stop
  exclusive : l.mode = .exclusive ∨ mode = .exclusive

/-- Only the two modes are held. -/
def Known (m : Manager) : Prop :=
  ∀ path owner, ∀ h ∈ m.ranges path owner, h.tag = .shared ∨ h.tag = .exclusive

section
variable {m : Manager} {owner : Owner} {path : String} {r : Range} {mode : Mode}

/-! ## Bytes -/

theorem modeAt_setLocked {ranges : List Held} {delta : Int} (p : String) (o : Owner) (x : UInt64) :
    (m.setLocked owner path ranges delta).modeAt p o x =
      if p = path ∧ o = owner then tagAt ranges x else m.modeAt p o x := by
  unfold Manager.modeAt
  split
  · rename_i heq
    rw [heq.1, heq.2, setLocked_ranges_self]
  · rename_i hne
    rw [setLocked_ranges_of_ne hne]

theorem modeAt_granted (h : WellFormed m) (hr : r.start < r.stop) {delta : Int} (p : String) (o : Owner)
    (x : UInt64) :
    (m.setLocked owner path (m.granted owner path r mode) delta).modeAt p o x =
      if p = path ∧ o = owner ∧ r.start ≤ x ∧ x < r.stop then some mode else m.modeAt p o x := by
  have hbytes : tagAt (m.granted owner path r mode) x =
      if r.start ≤ x ∧ x < r.stop then some mode else tagAt (m.ranges path owner) x :=
    tagAt_replace (h.tidy path owner) hr mode
  rw [modeAt_setLocked]
  by_cases hpo : p = path ∧ o = owner
  · obtain ⟨rfl, rfl⟩ := hpo
    rw [if_pos ⟨rfl, rfl⟩, hbytes]
    simp only [true_and, Manager.modeAt]
  · rw [if_neg hpo, if_neg fun hall => hpo ⟨hall.1, hall.2.1⟩]

theorem modeAt_unlock (h : WellFormed m) (p : String) (o : Owner) (x : UInt64) :
    (m.unlock owner path r).2.modeAt p o x =
      if p = path ∧ o = owner ∧ r.start ≤ x ∧ x < r.stop then none else m.modeAt p o x := by
  unfold Manager.unlock
  split
  · -- An empty range has no bytes.
    rename_i hempty
    rw [if_neg]
    rintro ⟨_, _, hlo, hhi⟩
    exact absurd (hlo.trans_lt hhi) (not_lt_of_ge hempty)
  · rename_i hlt
    have hbytes : tagAt (subtract (m.ranges path owner) r) x =
        if r.start ≤ x ∧ x < r.stop then none else tagAt (m.ranges path owner) x :=
      tagAt_subtract (h.tidy path owner) (lt_of_not_ge hlt)
    rw [modeAt_setLocked]
    by_cases hpo : p = path ∧ o = owner
    · obtain ⟨rfl, rfl⟩ := hpo
      rw [if_pos ⟨rfl, rfl⟩, hbytes]
      simp only [true_and, Manager.modeAt]
    · rw [if_neg hpo, if_neg fun hall => hpo ⟨hall.1, hall.2.1⟩]

/-! ## Modes -/

theorem validate_mode {u : Unit} (h : validate r mode = .ok u) : mode = .shared ∨ mode = .exclusive := by
  unfold validate at h
  split at h
  · cases h
  · rename_i hvalid
    by_contra hmode
    exact hvalid (.inr (not_or.1 hmode))

theorem Known.setLocked (h : Known m) {ranges : List Held} {delta : Int}
    (hnew : ∀ s ∈ ranges, s.tag = .shared ∨ s.tag = .exclusive) :
    Known (m.setLocked owner path ranges delta) := by
  intro p o s hs
  by_cases heq : p = path ∧ o = owner
  · rw [heq.1, heq.2, setLocked_ranges_self] at hs
    exact hnew s hs
  · rw [setLocked_ranges_of_ne heq] at hs
    exact h p o s hs

theorem Known.lock (h : Known m) (hwf : WellFormed m) : Known (m.lock owner path r mode).2 := by
  rcases lock_cases m owner path r mode with ⟨e, _, hl⟩ | ⟨_, l, _, hl⟩ | ⟨_, _, hl⟩ |
    ⟨hv, hc, delta, rfl, _, hl⟩
  · rw [hl]
    exact h
  · rw [hl]
    exact h
  · rw [hl]
    exact h
  · rw [hl]
    refine h.setLocked fun s hs => ?_
    obtain ⟨htidy, hholds⟩ := tidy_replace (hwf.tidy path owner) (validate_ok hv) mode
    have hfirst : Holds (m.granted owner path r mode) s.start s.tag :=
      ⟨s, hs, le_refl _, htidy.nonempty s hs, rfl⟩
    rcases (hholds s.start s.tag).1 hfirst with ⟨⟨t, ht, _, _, htag⟩, _⟩ | ⟨_, _, rfl⟩
    · rw [← htag]
      exact h path owner t ht
    · exact validate_mode hv

theorem Known.unlock (h : Known m) : Known (m.unlock owner path r).2 := by
  unfold Manager.unlock
  split
  · exact h
  · refine h.setLocked fun s hs => ?_
    obtain ⟨t, ht, hst⟩ := List.mem_flatMap.1 hs
    rw [(mem_cut hst).2.2.1]
    exact h path owner t ht

theorem Known.releaseOwnerLocked (h : Known m) (owner : Owner) : Known (m.releaseOwnerLocked owner) :=
  Manager.releaseOwnerLocked_keeps (fun _ _ hm => hm.setLocked fun _ hs => (List.not_mem_nil hs).elim) h

theorem Known.releaseClient (h : Known m) (client : String) : Known (m.releaseClient client) :=
  Manager.releaseClient_keeps (fun _ owner hm => hm.releaseOwnerLocked owner) h client

theorem known_of_reach {ok : Manager → Call → Prop} (hr : Reach tableSystem ok m) : Known m := by
  have hboth : WellFormed m ∧ Known m := by
    refine Reach.invariant (I := fun m => WellFormed m ∧ Known m) ?_ ?_ hr
    · rintro _ ⟨perFile, perClient, rfl⟩
      exact ⟨wellFormed_new perFile perClient, fun _ _ _ hs => (List.not_mem_nil hs).elim⟩
    · rintro m' c _ ⟨hwf, hk⟩ _ rfl
      refine ⟨hwf.next c, ?_⟩
      cases c with
      | lock owner path r mode => exact hk.lock hwf
      | unlock owner path r => exact hk.unlock
      | releaseOwner owner => exact hk.releaseOwnerLocked owner
      | releaseClient client => exact hk.releaseClient client
  exact hboth.2

/-! ## Conflicts -/

/-- Where only the two modes are held, two that are not both shared are not both
held because one is exclusive. -/
theorem mem_blocking_iff (hk : Known m) (hmode : mode = .shared ∨ mode = .exclusive) {l : Lock} :
    l ∈ blocking owner r mode (m.owners path) ↔ Conflicting m owner path r mode l := by
  rw [mem_blocking, blocks_iff]
  constructor
  · rintro ⟨hne, ⟨hover, hshared⟩, hmem⟩
    refine ⟨hne, hmem, by simpa [Span.overlaps] using hover, ?_⟩
    rcases hk path l.owner _ hmem with hl | hl
    · rcases hmode with hm | hm
      · exact absurd ⟨hl, hm⟩ hshared
      · exact .inr hm
    · exact .inl hl
  · rintro ⟨hne, hmem, hover, hex⟩
    refine ⟨hne, ⟨by simpa [Span.overlaps] using hover, ?_⟩, hmem⟩
    rintro ⟨hl, hm⟩
    rcases hex with hex | hex
    · exact absurd (hl.symm.trans hex) (by decide)
    · exact absurd (hm.symm.trans hex) (by decide)

theorem key_injOn (h : WellFormed m) {l l' : Lock} (hl : l ∈ blocking owner r mode (m.owners path))
    (hl' : l' ∈ blocking owner r mode (m.owners path)) (heq : l.key = l'.key) : l = l' := by
  obtain ⟨⟨start, stop⟩, tag, other⟩ := l
  obtain ⟨⟨start', stop'⟩, tag', other'⟩ := l'
  simp only [Lock.key, toLex_inj, Prod.mk.injEq] at heq
  obtain ⟨rfl, hclient, hid⟩ := heq
  obtain rfl : other = other' := by
    cases other
    cases other'
    simp_all
  have hspan := (h.tidy path other).eq_of_start (mem_blocking.1 hl).2.2 (mem_blocking.1 hl').2.2 rfl
  obtain ⟨_, rfl, rfl⟩ := Span.mk.inj hspan
  rfl

theorem conflictLocked_some (h : WellFormed m) {l : Lock} :
    m.conflictLocked owner path r mode = some l ↔ l ∈ blocking owner r mode (m.owners path) ∧
    ∀ l' ∈ blocking owner r mode (m.owners path), l = l' ∨ l.key < l'.key := by
  rw [conflictLocked_eq]
  constructor
  · intro hl
    have hmem := List.argmin_mem hl
    refine ⟨hmem, fun l' hl' => ?_⟩
    rcases (List.le_of_mem_argmin hl' hl).eq_or_lt with heq | hlt
    · exact .inl (key_injOn h hmem hl' heq)
    · exact .inr hlt
  · rintro ⟨hmem, hleast⟩
    cases hfound : (blocking owner r mode (m.owners path)).argmin Lock.key with
    | none =>
      rw [List.argmin_eq_none.1 hfound] at hmem
      exact (List.not_mem_nil hmem).elim
    | some best =>
      rcases hleast best (List.argmin_mem hfound) with rfl | hlt
      · rfl
      · exact absurd hlt (not_lt_of_ge (List.le_of_mem_argmin hmem hfound))

theorem searchOwners_perm (h : WellFormed m) {entries : List (Owner × List Held)}
    (hperm : entries.Perm (m.owners path)) :
    searchOwners owner r mode entries = m.conflictLocked owner path r mode := by
  have hsearch : searchOwners owner r mode entries = (blocking owner r mode entries).argmin Lock.key :=
    foldl_owners entries
  have hmem : ∀ l, l ∈ blocking owner r mode entries ↔ l ∈ blocking owner r mode (m.owners path) :=
    fun l => (hperm.flatMap_right _).mem_iff
  cases hfound : (blocking owner r mode entries).argmin Lock.key with
  | none =>
    rw [hsearch, hfound, conflictLocked_eq, eq_comm, List.argmin_eq_none, List.eq_nil_iff_forall_not_mem]
    intro l hl
    rw [← hmem, List.argmin_eq_none.1 hfound] at hl
    exact List.not_mem_nil hl
  | some best =>
    rw [hsearch, hfound, eq_comm, conflictLocked_some h]
    have hbest := (hmem best).1 (List.argmin_mem hfound)
    refine ⟨hbest, fun l' hl' => ?_⟩
    rcases (List.le_of_mem_argmin ((hmem l').2 hl') hfound).eq_or_lt with heq | hlt
    · exact .inl (key_injOn h hbest hl' heq)
    · exact .inr hlt

/-! ## Every table -/

theorem lock_conflict_iff {l : Lock} : (m.lock owner path r mode).1 = .ok (some l) ↔
    validate r mode = .ok () ∧ m.conflictLocked owner path r mode = some l := by
  rcases lock_cases m owner path r mode with ⟨e, hv, hl⟩ | ⟨hv, l', hc, hl⟩ | ⟨hv, hc, hl⟩ |
    ⟨hv, hc, delta, _, _, hl⟩
  · simp [hl, hv]
  · simp [hl, hv, hc]
  all_goals simp [hl, hc]

/-- `Lock` and `Unlock` are exact byte by byte, a refused `Lock` changes nothing, and
a conflict is reported just when there is one, as the least by start and owner in
whatever order the owners are gone through. -/
theorem lock_unlock_exact {m : Manager} (hr : Reach tableSystem always m) (owner : Owner) (path : String)
    (r : Range) (mode : Mode) :
    ((m.lock owner path r mode).1 = .ok none → ∀ p o x, (m.lock owner path r mode).2.modeAt p o x =
        if p = path ∧ o = owner ∧ r.start ≤ x ∧ x < r.stop then some mode else m.modeAt p o x) ∧
    (∀ p o x, (m.unlock owner path r).2.modeAt p o x =
      if p = path ∧ o = owner ∧ r.start ≤ x ∧ x < r.stop then none else m.modeAt p o x) ∧
    ((m.lock owner path r mode).1 ≠ .ok none → (m.lock owner path r mode).2 = m) ∧
    ((∃ l, (m.lock owner path r mode).1 = .ok (some l)) ↔
      validate r mode = .ok () ∧ ∃ l, Conflicting m owner path r mode l) ∧
    (∀ l, (m.lock owner path r mode).1 = .ok (some l) → Conflicting m owner path r mode l ∧
      ∀ l', Conflicting m owner path r mode l' → l = l' ∨ l.key < l'.key) ∧
    ∀ entries, entries.Perm (m.owners path) →
      searchOwners owner r mode entries = m.conflictLocked owner path r mode := by
  have hwf := wellFormed_of_reach hr
  have hk := known_of_reach hr
  refine ⟨?_, modeAt_unlock hwf, ?_, ⟨?_, ?_⟩, ?_, fun entries => searchOwners_perm hwf⟩
  · intro hgranted p o x
    rcases lock_cases m owner path r mode with ⟨e, _, hl⟩ | ⟨_, l, _, hl⟩ | ⟨_, _, hl⟩ |
      ⟨hv, _, delta, _, _, hl⟩
    · simp [hl] at hgranted
    · simp [hl] at hgranted
    · simp [hl] at hgranted
    · rw [hl]
      exact modeAt_granted hwf (validate_ok hv) p o x
  · intro hrefused
    rcases lock_cases m owner path r mode with ⟨e, _, hl⟩ | ⟨_, l, _, hl⟩ | ⟨_, _, hl⟩ |
      ⟨_, _, delta, _, _, hl⟩
    · rw [hl]
    · rw [hl]
    · rw [hl]
    · simp [hl] at hrefused
  · rintro ⟨l, hl⟩
    obtain ⟨hv, hc⟩ := lock_conflict_iff.1 hl
    exact ⟨hv, l, (mem_blocking_iff hk (validate_mode hv)).1 ((conflictLocked_some hwf).1 hc).1⟩
  · rintro ⟨hv, l, hl⟩
    have hmem := (mem_blocking_iff hk (validate_mode hv)).2 hl
    cases hc : m.conflictLocked owner path r mode with
    | none =>
      rw [conflictLocked_eq, List.argmin_eq_none] at hc
      rw [hc] at hmem
      exact (List.not_mem_nil hmem).elim
    | some found => exact ⟨found, lock_conflict_iff.2 ⟨hv, hc⟩⟩
  · intro l hl
    obtain ⟨hv, hc⟩ := lock_conflict_iff.1 hl
    obtain ⟨hmem, hleast⟩ := (conflictLocked_some hwf).1 hc
    have hiff : ∀ {l'}, l' ∈ blocking owner r mode (m.owners path) ↔ Conflicting m owner path r mode l' :=
      mem_blocking_iff hk (validate_mode hv)
    exact ⟨hiff.1 hmem, fun l' hl' => hleast l' (hiff.2 hl')⟩

/-- Two owners share a range, and a third asks for all of it. -/
def sharedTable : Manager :=
  ((newManager 0 0).next (.lock ⟨"nfs", "b"⟩ "f" ⟨0, 10⟩ .shared)).next
    (.lock ⟨"nfs", "a"⟩ "f" ⟨0, 4⟩ .shared)

theorem shared_table_conflict : (sharedTable.lock ⟨"smb", "c"⟩ "f" ⟨2, 8⟩ .exclusive).1 =
    .ok (some ⟨⟨0, 4⟩, .shared, ⟨"nfs", "a"⟩⟩) ∧
    (sharedTable.lock ⟨"smb", "c"⟩ "f" ⟨2, 8⟩ .exclusive).2 = sharedTable := by
  have hinit : Reach tableSystem always (newManager 0 0) := .init ⟨0, 0, rfl⟩
  have hr : Reach tableSystem always sharedTable := (hinit.next rfl).next rfl
  have hfound : (sharedTable.lock ⟨"smb", "c"⟩ "f" ⟨2, 8⟩ .exclusive).1 =
      .ok (some ⟨⟨0, 4⟩, .shared, ⟨"nfs", "a"⟩⟩) := by decide +kernel
  refine ⟨hfound, (lock_unlock_exact hr _ _ _ _).2.2.1 ?_⟩
  rw [hfound]
  simp

end

/-! ## Releases -/

section
variable {m : Manager} {owner o : Owner} {p : String} {x : UInt64}

theorem modeAt_unindexed (h : WellFormed m) (hnone : m.indexed o p = false) : m.modeAt p o x = none := by
  have hentry : m.entry p o = none := by
    rw [← Option.not_isSome_iff_eq_none, h.same, hnone]
    exact Bool.false_ne_true
  rw [Manager.modeAt, Manager.ranges, hentry]
  rfl

theorem modeAt_releasePaths (paths : List String) :
    (paths.foldl (fun m path => m.releasePath owner path) m).modeAt p o x =
      if p ∈ paths ∧ o = owner then none else m.modeAt p o x := by
  induction paths generalizing m with
  | nil => simp
  | cons path rest ih =>
    have hnil : tagAt ([] : List Held) x = none := rfl
    rw [List.foldl_cons, ih, Manager.releasePath, modeAt_setLocked, hnil]
    grind

theorem modeAt_releaseOwnerLocked (h : WellFormed m) : (m.releaseOwnerLocked owner).modeAt p o x =
    if o = owner then none else m.modeAt p o x := by
  rw [Manager.releaseOwnerLocked, modeAt_releasePaths]
  by_cases ho : o = owner
  · subst ho
    rw [if_pos rfl, ite_eq_left_iff]
    refine fun hmem => modeAt_unindexed h ?_
    cases hown : m.owned.lookup o with
    | none => simp [Manager.indexed, lookupIn, hown]
    | some inner =>
      have hp : p ∉ inner := fun hin => hmem ⟨by rwa [hown], rfl⟩
      simp [Manager.indexed, lookupIn, hown, AList.lookup_eq_none.2 hp]
  · simp [ho]

theorem modeAt_releaseOwners (h : WellFormed m) (client : String) (owners : List Owner) :
    (owners.foldl (fun m owner => if owner.client = client then m.releaseOwnerLocked owner else m) m).modeAt p o x =
      if o ∈ owners ∧ o.client = client then none else m.modeAt p o x := by
  induction owners generalizing m with
  | nil => simp
  | cons owner rest ih =>
    rw [List.foldl_cons]
    split
    · rw [ih (h.releaseOwnerLocked owner), modeAt_releaseOwnerLocked h]
      grind
    · rw [ih h]
      grind

/-- **A client that goes leaves no lock behind and takes nobody else's**, and so an owner. -/
theorem release_exact (hr : Reach tableSystem always m) (p : String) (o : Owner) (x : UInt64) :
    (∀ client, (m.releaseClient client).modeAt p o x = if o.client = client then none else m.modeAt p o x) ∧
    ∀ owner, (m.releaseOwnerLocked owner).modeAt p o x = if o = owner then none else m.modeAt p o x := by
  have h := wellFormed_of_reach hr
  refine ⟨fun client => ?_, fun _ => modeAt_releaseOwnerLocked h⟩
  rw [Manager.releaseClient, modeAt_releaseOwners h]
  by_cases hmem : o ∈ m.owned
  · simp [AList.mem_keys.1 hmem]
  · rw [modeAt_unindexed h (by simp [Manager.indexed, lookupIn, AList.lookup_eq_none.2 hmem])]
    simp

end

theorem nfs_released : (sharedTable.releaseClient "nfs").modeAt "f" ⟨"nfs", "a"⟩ 2 = none := by
  have hinit : Reach tableSystem always (newManager 0 0) := .init ⟨0, 0, rfl⟩
  exact (release_exact ((hinit.next rfl).next rfl : Reach _ _ sharedTable) "f" ⟨"nfs", "a"⟩ 2).1 "nfs"

end Bluestone.Locks
