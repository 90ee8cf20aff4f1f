/-
# `Bluestone.Staging.Preserved` — what a recorded conflict preserves

The copy in `lost+found` should hold every change clients were told was accepted
before the path became conflicted.  It is taken first, and the path is listed as
conflicted last: a change made in between is accepted, by `MarkDirtyAgain` as for
any dirty file, and goes with the staged file.
Without such a change the copy is the file after its last (`conflict_copy_holds_changes`).
-/
import Bluestone.Staging.Conflict
import Bluestone.Staging.Crash
import Bluestone.Staging.Tombstones

namespace Bluestone

open Runs

/-- The copied file is open, or copied, and the path is not conflicted yet. -/
def RecordPc.copies : RecordPc → Bool
  | .copying _ _ _ | .unlist _ _ _ | .close _ _ _ | .removeData _ _ | .removeSidecar _ _
  | .mark _ => true
  | _ => false

/-- The step is a change by a client. -/
def Action.isChange : Action → Bool
  | .write _ _ | .truncate _ => true
  | _ => false

/-- The run is orderly, and no change is made while a conflict is being recorded. -/
def RecordsApart (c : Conflicting) : Event → Prop
  | .thread t a => Orderly c.state (t, a) ∧ (a.isChange = true → ∀ r, (c.recorder r).copies = false)
  | .recorder _ => True

/-- One call of `RecordConflict` with opens, handles, attribute changes and commits at
work on the path, and the changes of the run as its history. -/
def conflictWithChanges : System (Conflicting × Changes) Event :=
  (conflictSystem (Step withoutSyncs) False (· = 0)).track
    (fun c => ⟨c.state.baseBytes, []⟩) fun _ e c' h =>
      match e with
      | .thread t a => h.after c'.state t a
      | .recorder _ => h

section
variable {s s' : State} {t : Nat} {a : Action} {h : Changes}

/-! ## Steps that are not changes -/

theorem Step.stays_dirty {e : Nat × Action} (hstep : Step withoutSyncs s e s')
    (hd : s.dirty.isSome) : s'.dirty.isSome := by
  have hrelease : s.releaseSession.dirty = s.dirty := sameCore_releaseSession.dirty
  cases hstep with
  | elsewhere _ => exact hd
  | actor hactor hstep =>
    cases hstep with
    | opens h =>
      cases h with
      | refuseKept | release | refuseDiscard => exact hrelease ▸ hd
      | _ => exact hd
    | handles h =>
      cases h with
      | close | closeReading => exact hrelease ▸ hd
      | _ => exact hd
    | marks h =>
      cases h with
      | again _ hm | recordedMeanwhile _ hm =>
        obtain ⟨_, _, _, rfl⟩ := markDirtyAgain_cases hm
        rfl
      | record | recordFailed => rfl
      | _ => exact hd
    | persists h | attributes h => cases h <;> exact hd
    | syncs h => exact absurd rfl hactor
    | commits h =>
      cases h with
      | @metadata sid _ _ =>
        have hcommit : (s.commitPathMetadata sid).dirty = s.dirty :=
          sameCore_commitPathMetadata.dirty
        exact hcommit ▸ hd
      | _ => exact hd

theorem Step.same_files {e : Nat × Action} (hstep : Step withoutSyncs s e s')
    (ha : e.2.changesBytes = false) (hl : s.listed.isSome) : s'.disk.inode = s.disk.inode := by
  have hrelease : s.releaseSession.disk.inode = s.disk.inode :=
    (disk_core_fields sameCore_releaseSession.disk).1
  cases hstep with
  | elsewhere _ => rfl
  | actor hactor hstep =>
    cases hstep with
    | opens h =>
      cases h with
      | create _ hnone =>
        rw [hnone] at hl
        exact nomatch hl
      | fetched | fetchFailed | truncate => exact nomatch ha
      | refuseKept | release | refuseDiscard => exact hrelease
      | _ => rfl
    | handles h =>
      cases h with
      | write | truncate => exact nomatch ha
      | close | closeReading => exact hrelease
    | marks h =>
      cases h with
      | again _ hm | recordedMeanwhile _ hm =>
        obtain ⟨_, _, _, rfl⟩ := markDirtyAgain_cases hm
        rfl
      | record =>
        exact (disk_core_fields (sameCore_record (s := s) _ _).disk).1
      | _ => rfl
    | persists h | attributes h => cases h <;> rfl
    | syncs h => exact absurd rfl hactor
    | commits h =>
      cases h with
      | @metadata sid _ _ => exact (disk_core_fields sameCore_commitPathMetadata.disk).1
      | _ => rfl

theorem latest_of_not_change (ha : a.isChange = false) (t : Nat) :
    (h.after s' t a).latest = h.latest := by
  cases a with
  | write | truncate => exact nomatch ha
  | accepted => exact latest_answer t .accepted
  | refused => exact latest_answer t .refused
  | _ => rfl

/-! ## The call so far -/

/-- The call has left the path alone: it is one of an orderly run. -/
structure Untouched (c : Conflicting) (h : Changes) : Prop where
  reach : Reach (systemWithChanges withoutSyncs) (onState Orderly) (c.state, h)
  conflict : c.conflict = none

variable {c c' : Conflicting} {f : Nat}

theorem Untouched.intact (hu : Untouched c h) : Intact c.state :=
  reach_intact (fun _ _ ho => ho) (reach_track_fst hu.reach)

theorem Untouched.listed (hu : Untouched c h) (hd : c.state.dirty.isSome) :
    ∃ sid, c.state.listed = some sid ∧ (c.state.session sid).dirty := by
  obtain ⟨⟨hsafe, _⟩, _⟩ := reach_changes hu.reach
  obtain ⟨item, hitem, hchanged⟩ := hsafe.dirty_changed (by simpa [State.view] using hd)
  obtain ⟨sid, hl, rfl⟩ := Option.map_eq_some_iff.1 hitem
  exact ⟨sid, hl, hchanged⟩

theorem Untouched.staged (hu : Untouched c h) (hd : c.state.dirty.isSome)
    (hf : c.state.disk.dataFile = some f) : some (c.state.disk.inode f) = h.latest := by
  obtain ⟨⟨hsafe, _⟩, _⟩ := reach_changes hu.reach
  obtain ⟨sid, hl, hchanged⟩ := hu.listed hd
  obtain ⟨f', _, hd', hbytes⟩ := hu.intact.staged hl
  obtain rfl : f' = f := Option.some.inj (hd'.symm.trans hf)
  rw [hbytes]
  exact hsafe.value_last (c.state.item sid) (view_current_item hl) (.inl hchanged)

theorem Untouched.not_fetch (hu : Untouched c h) (hd : c.state.dirty.isSome)
    (hstep : Step withoutSyncs c.state (t, a) s') (hok : Orderly c.state (t, a))
    (ha : a.isChange = false) : a.changesBytes = false := by
  have hnot : ∀ fl sid how, a = .fetch how → c.state.task t ≠ .opening fl (.prefetch sid) := by
    intro fl sid how heq ht
    obtain ⟨sid', hl, hchanged⟩ := hu.listed hd
    have hlisted : c.state.listed = some sid :=
      listed_of_holds (t := t) hu.intact.slot
    obtain rfl : sid' = sid := Option.some.inj (hl.symm.trans hlisted)
    exact nomatch (hok.1 how fl sid' heq ht).symm.trans hchanged
  cases hstep with
  | elsewhere _ => rfl
  | actor _ hstep =>
    cases hstep with
    | opens h =>
      cases h with
      | fetched ht | fetchFailed ht => exact absurd ht (hnot _ _ _ rfl)
      | truncate => exact nomatch ha
      | _ => rfl
    | handles h =>
      cases h with
      | write | truncate => exact nomatch ha
      | _ => rfl
    | marks h | persists h | syncs h | attributes h | commits h => cases h <;> rfl

/-- What is known of the call by where it stands. -/
def Preserving (c : Conflicting) (h : Changes) : RecordPc → Prop
  | .idle => Untouched c h
  | .lookup | .snapshot _ => Untouched c h ∧ c.state.dirty.isSome = true
  | .stat _ here | .copy _ here => Untouched c h ∧ c.state.dirty.isSome = true ∧ here = true
  | .copying _ f copied => Untouched c h ∧ c.state.dirty.isSome = true ∧
      some (c.state.disk.inode f) = h.latest ∧ copied <+: c.state.disk.inode f
  | .unlist _ _ preserved | .close _ _ preserved | .removeData _ preserved
  | .removeSidecar _ preserved | .mark preserved => some preserved = h.latest
  | .done => True

theorem Untouched.thread (hu : Untouched c h) (hok : Orderly c.state (t, a))
    (hstep : Step withoutSyncs c.state (t, a) s') : Untouched (c.setState s') (h.after s' t a) :=
  ⟨hu.reach.next' hstep hok, hu.conflict⟩

theorem preserving_thread {pc : RecordPc} (hp : Preserving c h pc) (hok : Orderly c.state (t, a))
    (hapart : a.isChange → pc.copies = false) (hstep : Step withoutSyncs c.state (t, a) s') :
    Preserving (c.setState s') (h.after s' t a) pc := by
  have hlatest : pc.copies → (h.after s' t a).latest = h.latest := by
    intro hc
    refine latest_of_not_change ?_ t
    cases hch : a.isChange with
    | false => rfl
    | true => exact nomatch hc.symm.trans (hapart hch)
  cases pc with
  | idle => exact Untouched.thread hp hok hstep
  | lookup | snapshot _ => exact ⟨hp.1.thread hok hstep, hstep.stays_dirty hp.2⟩
  | stat _ _ | copy _ _ => exact ⟨hp.1.thread hok hstep, hstep.stays_dirty hp.2.1, hp.2.2⟩
  | copying found f copied =>
    obtain ⟨hu, hd, hbytes, hpre⟩ := hp
    have ha : a.isChange = false := by
      cases hch : a.isChange with
      | false => rfl
      | true => exact nomatch hapart hch
    obtain ⟨sid, hl, _⟩ := hu.listed hd
    have hsame : s'.disk.inode = c.state.disk.inode :=
      hstep.same_files (hu.not_fetch hd hstep hok ha) (by rw [hl]; rfl)
    refine ⟨hu.thread hok hstep, hstep.stays_dirty hd, ?_, ?_⟩
    · rw [hlatest rfl]
      exact (congrFun hsame f).symm ▸ hbytes
    · exact (congrFun hsame f).symm ▸ hpre
  | unlist _ _ _ | close _ _ _ | removeData _ _ | removeSidecar _ _ | mark _ =>
    exact Eq.trans hp (hlatest rfl).symm
  | done => trivial

theorem preserving_conflicted {pc : RecordPc} (hp : Preserving c h pc) (hc : c.conflict.isSome)
    (ha : a.isChange = false) : Preserving (c.setState s') (h.after s' t a) pc := by
  have hnot : Untouched c h → False := fun hu => by
    rw [hu.conflict] at hc
    exact nomatch hc
  cases pc with
  | idle => exact absurd hp hnot
  | lookup | snapshot _ | stat _ _ | copy _ _ | copying _ _ _ => exact absurd hp.1 hnot
  | unlist _ _ _ | close _ _ _ | removeData _ _ | removeSidecar _ _ | mark _ =>
    exact Eq.trans hp (latest_of_not_change ha t).symm
  | done => trivial

theorem preserving_record (hp : Preserving c h (c.recorder 0)) (hstep : RecordStep False c 0 c') :
    Preserving c' h (c'.recorder 0) := by
  have hself : ∀ (c1 : Conflicting) pc, (c1.goto 0 pc).recorder 0 = pc := fun c1 pc => by
    simp [Conflicting.goto]
  have hmove : ∀ {pc}, Untouched c h → Untouched (c.goto 0 pc) h := fun hu => ⟨hu.reach, hu.conflict⟩
  cases hstep with
  | begin hr hd =>
    rw [hr] at hp
    rw [hself]
    exact ⟨hmove hp, hd⟩
  | lookup hr | stat hr _ =>
    rw [hr] at hp
    rw [hself]
    exact ⟨hmove hp.1, hp.2⟩
  | @snapshot found here hr hhere =>
    rw [hr] at hp
    rw [hself]
    refine ⟨hmove hp.1, hp.2, ?_⟩
    cases here with
    | true => rfl
    | false => exact absurd (hhere rfl).2 id
  | copyOpen hr hf =>
    rw [hr] at hp
    rw [hself]
    exact ⟨hmove hp.1, hp.2.1, hp.1.staged hp.2.1 hf, List.nil_prefix⟩
  | @copyRead f n found copied hr =>
    rw [hr] at hp
    rw [hself]
    obtain ⟨hu, hd, hbytes, rest, hrest⟩ := hp
    refine ⟨hmove hu, hd, hbytes, ?_⟩
    -- what is read next is the front of what is left
    show copied ++ ((c.state.disk.inode f).drop copied.length).take (n + 1) <+: c.state.disk.inode f
    rw [← hrest, List.drop_left]
    exact (List.prefix_append_right_inj copied).2 (List.take_prefix ..)
  | copied hr hlen =>
    rw [hr] at hp
    rw [hself]
    obtain ⟨_, _, hbytes, hpre⟩ := hp
    rw [hpre.eq_of_length_le hlen]
    exact hbytes
  | copiedElsewhere hr =>
    rw [hr] at hp
    exact nomatch hp.2.2
  | @unlist found here preserved hr =>
    rw [hr] at hp
    rw [hself]
    cases c.state.listed.or found <;> exact hp
  | close hr | removeData hr | removeSidecar hr =>
    rw [hr] at hp
    rw [hself]
    exact hp
  | mark hr | failed _ =>
    rw [hself]
    trivial

theorem reach_preserving {p : Conflicting × Changes}
    (hr : Reach conflictWithChanges (onState RecordsApart) p) : Preserving p.1 p.2 (p.1.recorder 0) := by
  refine reach_track_invariant (I := fun c h => Preserving c h (c.recorder 0)) (J := fun _ => True)
    (fun _ => trivial) (fun c hinit => ?_) (fun c e c' h _ hp hok hstep => ?_) hr
  · obtain ⟨hinit, hc, hidle⟩ := hinit
    rw [hidle 0]
    exact ⟨.init ⟨hinit, rfl⟩, hc⟩
  · cases hstep with
    | thread hstep _ => exact preserving_thread hp hok.1 (fun ha => hok.2 ha 0) hstep
    | @record _ r hcall hstep =>
      obtain rfl : r = 0 := hcall
      exact preserving_record hp hstep
    | openConflicted hc _ | markConflicted hc _ | restoreConflicted hc _ | recordConflicted hc _
    | recordConflictedFailed hc _ => exact preserving_conflicted hp hc rfl

variable {ok : Conflicting → Event → Prop}

theorem reach_recovered : Reach conflictWithChanges (onState ok)
    (⟨State.recovered, none, fun _ => .idle⟩, ⟨State.recovered.baseBytes, []⟩) :=
  .init ⟨⟨recovered_init, rfl, fun _ => rfl⟩, rfl⟩

theorem conflict_thread (hr : Reach conflictWithChanges (onState ok) (c, h))
    (hs : Step withoutSyncs c.state (t, a) s') (hok : ok c (.thread t a) := by exact trivial)
    (hc : c.conflict = none := by rfl) :
    Reach conflictWithChanges (onState ok) (c.setState s', h.after s' t a) :=
  hr.next' (.thread hs fun hsome => nomatch (congrArg Option.isSome hc).symm.trans hsome) hok

theorem conflict_record
    (hr : Reach conflictWithChanges (onState ok) (c, h)) (hs : RecordStep False c 0 c')
    (hok : ok c (.recorder 0) := by exact trivial) : Reach conflictWithChanges (onState ok) (c', h) :=
  hr.next' (.record rfl hs) hok

theorem conflict_returned (preserved : Bytes) (hm : c.recorder 0 = .mark preserved) :
    conflictWithChanges.step (c, h) (.recorder 0)
    (({ c with state := c.state.markConflicted, conflict := some preserved }).goto 0 .done, h) :=
  ⟨.record rfl (.mark hm), rfl⟩

end

end Bluestone
