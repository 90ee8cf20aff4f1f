/-
# `Bluestone.Gateway.References` — who holds the sessions

The gateway's sessions, listed by path, are a ledger of references, and its open
handles are the holders.  Each operation is read as moves on the ledger: `OpenFile`
acquires or creates, `Close` releases by path, a rename re-keys, a delete unlists,
and the rest of what they do leaves the ledger alone.

An open whose truncation fails keeps its reference, and a handle whose path lists
another session gives that session's reference back.
-/
import Bluestone.Gateway.Files
import Bluestone.Library.References

namespace Bluestone

open Function Cuts Runs References

/-- The sessions listed and the references they count. -/
def Gateway.ledger (g : Gateway) : Ledger String :=
  ⟨g.listed, fun sid => (g.session sid).refCount, fun sid => (g.session sid).file.isSome, g.nextSession⟩

def File.holder (f : File) : Holder String := ⟨f.path, f.session, f.closed⟩

section
variable {g : Gateway} {path : String} {sid : Nat} {ws ws' : WriteSession} {s s' : State} {d d' : Disk}
  {f : State → State}

/-! ## Operations that leave the ledger alone

Up to sessions that are open again: a write through a handle can bring back the
descriptor of a session that was closed. -/

/-- The session's record as the ledger sees it. -/
def WriteSession.SameRef (ws ws' : WriteSession) : Prop :=
  ws'.refCount = ws.refCount ∧ (ws.file.isSome = true → ws'.file.isSome = true)

theorem sameRef_seedAttributes (attrs : StagedAttributes) : ws.SameRef (ws.seedAttributes attrs) := by
  unfold WriteSession.seedAttributes
  split <;> exact ⟨rfl, id⟩

theorem sameRef_setCreationIfUnset (btime : Nat) (mode : UInt32) :
    ws.SameRef (ws.setCreationIfUnset btime mode) := by
  unfold WriteSession.setCreationIfUnset
  split <;> exact ⟨rfl, id⟩

theorem sameRef_write {offset : Nat} {data : Bytes} {dropped : Bool}
    (h : ws.write d offset data = some (ws', d', dropped)) : ws.SameRef ws' := by
  refine ⟨write_refCount h, fun _ => ?_⟩
  obtain ⟨ws1, d1, f, _, hf, rfl, _⟩ := write_cases h
  simp [hf]

theorem sameRef_truncate {size : Nat} (h : ws.truncate d size = some (ws', d')) : ws.SameRef ws' := by
  refine ⟨truncate_refCount h, fun _ => ?_⟩
  obtain ⟨ws1, d1, f, _, hf, rfl, _⟩ := truncate_cases h
  simp [hf]

theorem sameRef_prefetch {body : Bytes} {how : Download} {ok : Bool}
    (h : ws.prefetch d body how = some (ws', d', ok)) : ws.SameRef ws' := by
  refine ⟨prefetch_refCount h, fun hfile => ?_⟩
  obtain ⟨ws1, d1, hd, hcases⟩ := prefetch_cases h
  have hopen : ws1.file.isSome := by
    rcases detach_cases hd with ⟨_, rfl, _⟩ | ⟨_, _, _, rfl, _⟩
    · exact hfile
    · rfl
  rcases hcases with ⟨-, -, -, rfl⟩ | ⟨-, -, rfl, -⟩ <;> exact hopen

/-- What a state of one path says about the ledger. -/
structure SameRefs (s s' : State) : Prop where
  listed : s'.listed = s.listed
  session : ∀ sid, (s.session sid).SameRef (s'.session sid)
  nextSession : s'.nextSession = s.nextSession

theorem ledger_put (h : SameRefs (g.slice path) s) : g.ledger.Grows (g.put path s).ledger where
  listed := by
    show update g.listed path s.listed = g.listed
    rw [h.listed]
    exact update_eq_self ..
  count := funext fun sid => (h.session sid).1
  live sid := (h.session sid).2
  next := h.nextSession

theorem ledger_on (h : SameRefs (g.slice path) (f (g.slice path))) :
    g.ledger.Grows (g.on path f).ledger := ledger_put h

theorem sameRef_update (h : (s.session sid).SameRef ws) (sid' : Nat) :
    (s.session sid').SameRef (update s.session sid ws sid') := by
  by_cases hne : sid' = sid
  · subst hne
    rw [update_self]
    exact h
  · rw [update_of_ne hne]
    exact ⟨rfl, id⟩

theorem sameRefs_setSession (h : (s.session sid).SameRef ws) : SameRefs s (s.setSession sid ws) :=
  ⟨rfl, sameRef_update h, rfl⟩

theorem ledger_setSession (h : (g.session sid).SameRef ws) : g.ledger.Grows (g.setSession sid ws).ledger where
  listed := rfl
  count := funext fun sid' => (sameRef_update (s := g.slice "") h sid').1
  live sid' := (sameRef_update (s := g.slice "") h sid').2
  next := rfl

theorem ledger_changeSession (h : (g.session sid).SameRef ws) :
    g.ledger.Grows (g.changeSession sid ws d).ledger :=
  ledger_on ⟨rfl, sameRef_update h, rfl⟩

theorem ledger_refl : g.ledger.Grows g.ledger := ⟨rfl, rfl, fun _ => id, rfl⟩

theorem ledger_writeSidecar (state : PathMetadataState) :
    g.ledger.Grows (g.writeSidecar path state).ledger := ledger_on ⟨rfl, fun _ => ⟨rfl, id⟩, rfl⟩

theorem ledger_persistAttributes (fails : Bool) :
    g.ledger.Grows (g.persistAttributes sid fails).ledger := by
  unfold Gateway.persistAttributes
  split
  · exact ledger_refl
  · split
    · exact (ledger_writeSidecar _).trans (ledger_setSession ⟨rfl, id⟩)
    · exact ledger_refl

theorem sameRefs_metadataChanged (found : Option Nat) : SameRefs s (s.metadataChanged found) := by
  cases found with
  | none => exact ⟨rfl, fun _ => ⟨rfl, id⟩, rfl⟩
  | some sid => exact sameRefs_setSession ⟨rfl, id⟩

theorem sameRefs_markDirtyAgain (h : s.markDirtyAgain = some s') : SameRefs s s' := by
  unfold State.markDirtyAgain at h
  split at h
  · exact nomatch h
  · split at h
    · cases h
      exact ⟨rfl, fun _ => ⟨rfl, id⟩, rfl⟩
    · exact nomatch h

theorem sameRefs_closeSnapshot (snap : Snapshot) : SameRefs s (s.closeSnapshot snap) := by
  unfold State.closeSnapshot
  split
  · exact sameRefs_setSession ⟨rfl, id⟩
  · exact ⟨rfl, fun _ => ⟨rfl, id⟩, rfl⟩

/-! ## Programs that leave the ledger alone -/

variable {P : Ledger String → Prop} {w : CallFaults}

/-- What is said of a ledger holds of those it grows to. -/
def Upward (P : Ledger String → Prop) : Prop := ∀ l l', l.Grows l' → P l → P l'

section
variable {E A : Type} {f : Gateway → Gateway} {X : E → Gateway → Prop}

theorem quiet_step (hP : Upward P) (h : ∀ g : Gateway, g.ledger.Grows (f g).ledger) :
    Triple (fun g => P g.ledger) (Program.step f) (fun _ g => P g.ledger) X (fun _ => True) :=
  Triple.step fun g hg => ⟨trivial, trivial, hP _ _ (h g) hg⟩

theorem quiet_step_at (hP : Upward P) (hg : P g.ledger) (h : g.ledger.Grows (f g).ledger) :
    Triple (fun g' => g' = g) (Program.step f) (fun _ g' => P g'.ledger) X (fun _ => True) := by
  refine Triple.step ?_
  rintro g' rfl
  exact ⟨trivial, trivial, hP _ _ h hg⟩

theorem quiet_done_at {a : A} (hg : P g.ledger) :
    Triple (fun g' => g' = g) (Program.done a) (fun _ g' => P g'.ledger) X (fun _ => True) := by
  refine Triple.done ?_
  rintro g' rfl
  exact ⟨trivial, hg⟩

theorem quiet_fail_at {Q : A → Gateway → Prop} {e : E} (hg : X e g) :
    Triple (fun g' => g' = g) (Program.fail e : Program Gateway E A) Q X (fun _ => True) := by
  refine Triple.fail ?_
  rintro g' rfl
  exact ⟨trivial, hg⟩

end

theorem quiet_seedAttributes {X : FileError → Gateway → Prop} (hP : Upward P) :
    Triple (fun g => P g.ledger) (seedAttributes w path sid) (fun _ g => P g.ledger) X
    (fun _ => True) := by
  refine Triple.read fun g hg => ?_
  split
  · exact quiet_done_at hg
  · exact Triple.bind (quiet_step_at hP hg (ledger_setSession (sameRef_seedAttributes _)))
      fun _ => quiet_step hP fun _ => ledger_persistAttributes _

theorem quiet_setCreation {fl : FileFlags} {X : FileError → Gateway → Prop} (hP : Upward P) :
    Triple (fun g => P g.ledger) (setCreation w fl sid) (fun _ g => P g.ledger) X (fun _ => True) := by
  refine Triple.read fun g hg => ?_
  split
  · exact quiet_done_at hg
  · exact Triple.bind (quiet_step_at hP hg (ledger_setSession (sameRef_setCreationIfUnset _ _)))
      fun _ => quiet_step hP fun _ => ledger_persistAttributes _

theorem quiet_markDirty (hP : Upward P) : Preserves (fun g => P g.ledger) (markDirty w path) := by
  refine Triple.read fun g hg => ?_
  split
  · exact quiet_done_at hg
  split
  · rename_i s hs
    exact quiet_step_at hP hg (ledger_put (sameRefs_markDirtyAgain hs))
  · split
    · exact Triple.bind (quiet_step_at hP hg (ledger_on ⟨rfl, fun _ => ⟨rfl, id⟩, rfl⟩)) fun _ => Preserves.fail
    · refine quiet_step_at hP hg (ledger_on ?_)
      exact ⟨(sameRefs_metadataChanged _).listed, (sameRefs_metadataChanged _).session,
        (sameRefs_metadataChanged _).nextSession⟩

theorem quiet_applyChange {change : Option (WriteSession × Disk)} (hP : Upward P) (hg : P g.ledger)
    (h : ∀ ws d, change = some (ws, d) → (g.session sid).SameRef ws) : Triple (fun g' => g' = g)
    (applyChange w sid change) (fun _ g' => P g'.ledger) (fun _ g' => P g'.ledger) (fun _ => True) := by
  cases change with
  | none => exact quiet_fail_at hg
  | some c =>
    show Triple _ (if w.change then _ else _) _ _ _
    split
    · exact quiet_fail_at hg
    · exact quiet_step_at hP hg (ledger_changeSession (h c.1 c.2 rfl))

theorem quiet_writeFile {file : File} {offset : Nat} {data : Bytes} (hP : Upward P) :
    Preserves (fun g => P g.ledger) (writeFile w file offset data) := by
  unfold writeFile
  split
  · exact Preserves.fail
  split
  · exact Preserves.fail
  refine Triple.read fun g hg => Triple.bind (quiet_applyChange hP hg ?_) fun _ =>
    Preserves.bind ?_ fun _ => quiet_markDirty hP
  · intro ws d hchange
    obtain ⟨⟨ws', d', dropped⟩, hwrite, heq⟩ := Option.map_eq_some_iff.1 hchange
    cases heq
    exact sameRef_write hwrite
  · unfold persistDropped
    split
    · exact quiet_step hP fun _ => ledger_persistAttributes _
    · exact Preserves.done

theorem quiet_truncateFile {file : File} {size : Nat} (hP : Upward P) :
    Preserves (fun g => P g.ledger) (truncateFile w file size) := by
  unfold truncateFile
  split
  · exact Preserves.fail
  split
  · exact Preserves.fail
  split
  · exact Preserves.fail
  exact Triple.read fun g hg => Triple.bind
    (quiet_applyChange hP hg fun _ _ h => sameRef_truncate h) fun _ => quiet_markDirty hP


/-! ## Moves on the ledger -/

theorem live_update (f : Nat → WriteSession) (sid : Nat) (ws : WriteSession) :
    (fun i => (update f sid ws i).file.isSome) =
    update (fun i => (f i).file.isSome) sid ws.file.isSome :=
  comp_update (fun ws : WriteSession => ws.file.isSome) f sid ws

theorem ledger_put_eq : (g.put path s).ledger =
    ⟨update g.listed path s.listed, fun i => (s.session i).refCount,
      fun i => (s.session i).file.isSome, s.nextSession⟩ := rfl

theorem ledger_setSession_eq : (g.setSession sid ws).ledger =
    ⟨g.listed, update g.ledger.count sid ws.refCount,
    update g.ledger.live sid ws.file.isSome, g.nextSession⟩ := by
  ext1
  · rfl
  · exact refs_update ..
  · exact live_update ..
  · rfl

theorem ledger_acquireSession : (g.setSession sid
    { g.session sid with refCount := (g.session sid).refCount + 1 }).ledger = g.ledger.acquire sid := by
  rw [ledger_setSession_eq]
  ext1
  · rfl
  · rfl
  · exact update_eq_self ..
  · rfl

theorem ledger_reuseSession : (g.on path (·.reuseSession sid)).ledger = g.ledger.acquire sid := by
  ext1
  · show update g.listed path (g.listed path) = g.listed
    exact update_eq_self ..
  · exact refs_update ..
  · show (fun i => (update g.session sid _ i).file.isSome) = g.ledger.live
    rw [live_update]
    exact update_eq_self ..
  · rfl

theorem ledger_createSession (sidecarOk : Bool) : (g.createSession path sidecarOk).ledger =
    (g.ledger.create path).acquire g.nextSession := by
  ext1
  · rfl
  · show (fun i => (update g.session g.nextSession _ i).refCount) = _
    rw [refs_update]
    simp [Ledger.acquire, Ledger.create, newWriteSession, Gateway.ledger]
  · show (fun i => (update g.session g.nextSession _ i).file.isSome) = _
    rw [live_update]
    rfl
  · rfl

theorem ledger_releaseSession : (g.releaseSession path).ledger = g.ledger.release path := by
  have hslice : (g.slice path).listed = g.listed path := rfl
  cases h : g.listed path with
  | none =>
    have hl : g.ledger.release path = g.ledger := by simp [Ledger.release, Gateway.ledger, h]
    rw [hl, Gateway.releaseSession, Gateway.on, State.releaseSession, hslice, h]
    ext1
    · exact update_eq_self ..
    all_goals rfl
  | some sid =>
    have hl : g.ledger.release path =
        { g.ledger with count := update g.ledger.count sid (g.ledger.count sid - 1) } := by
      simp [Ledger.release, Gateway.ledger, h]
    rw [hl, Gateway.releaseSession, Gateway.on, State.releaseSession, hslice, h]
    ext1
    · exact update_eq_self ..
    · exact refs_update ..
    · show (fun i => (update g.session sid _ i).file.isSome) = g.ledger.live
      rw [live_update]
      exact update_eq_self ..
    · rfl

theorem ledger_dropSession (h : s.listed = none) (hnext : s.nextSession = g.nextSession)
    (hsession : s.session = update g.session sid { g.session sid with file := none }) :
    (g.put path s).ledger = (g.ledger.unlist path).kill sid := by
  rw [ledger_put_eq, h, hnext, hsession]
  ext1
  · rfl
  · show (fun i => (update g.session sid _ i).refCount) = g.ledger.count
    rw [refs_update]
    exact update_eq_self ..
  · exact live_update ..
  · rfl

variable {hs : List (Holder String)} {l : Ledger String}

theorem exact_cleanupSession (he : Exact g.ledger hs) (hfree : Free hs path) :
    Exact (g.cleanupSession path).ledger hs := by
  unfold Gateway.cleanupSession
  cases h : g.listed path with
  | none => exact he
  | some sid =>
    have hl : (g.on path fun s => s.removeSession.closeSession sid).ledger =
        (g.ledger.unlist path).kill sid := ledger_dropSession rfl rfl rfl
    dsimp only
    rw [hl]
    exact he.drop hfree h

theorem exact_discardDeletedStaging (he : Exact g.ledger hs) (hfree : Free hs path) :
    Exact (g.discardDeletedStaging path).ledger hs := by
  unfold Gateway.discardDeletedStaging
  split
  · cases h : g.listed path with
    | none => exact he.grows (ledger_on ⟨rfl, fun _ => ⟨rfl, id⟩, rfl⟩)
    | some sid =>
      have hl : (g.on path fun s => s.dropDirtyEntry.removeSession.closeSession sid).ledger =
          (g.ledger.unlist path).kill sid := ledger_dropSession rfl rfl rfl
      dsimp only
      rw [hl]
      exact he.drop hfree h
  · exact he

theorem exact_cleanupSyncedSession (he : Exact g.ledger hs) :
    Exact (g.cleanupSyncedSession path sid).ledger hs := by
  unfold Gateway.cleanupSyncedSession
  split
  · rename_i hclean
    simp only [State.cleanable, Bool.and_eq_true, decide_eq_true_eq] at hclean
    obtain ⟨⟨⟨hlisted, hcount⟩, _⟩, _⟩ := hclean
    have hl : (g.on path fun s => s.cleanupSynced.closeSession sid).ledger =
        (g.ledger.unlist path).kill sid := ledger_dropSession rfl rfl rfl
    rw [hl]
    exact he.drop (he.free hlisted hcount) hlisted
  · exact he


/-! ## Opening a file -/

/-- An open that got `sid` is a holder already; the other counts are as before. -/
structure Opening (l0 : Ledger String) (hs : List (Holder String)) (path : String) (sid : Nat)
    (l : Ledger String) : Prop where
  exact : Exact l (hs ++ [⟨path, some sid, false⟩])
  counts : ∀ o, o < l0.next → l.count o = if o = sid then l0.count o + 1 else l0.count o

/-- An open that failed leaves every count as it was. -/
structure Failed (l0 : Ledger String) (hs : List (Holder String)) (l : Ledger String) : Prop where
  exact : Exact l hs
  counts : ∀ o, o < l0.next → l.count o = l0.count o

variable {l0 : Ledger String}

theorem upward_opening : Upward (Opening l0 hs path sid) :=
  fun _ _ hg h => ⟨h.exact.grows hg, by rw [hg.count]; exact h.counts⟩

theorem Opening.listed (h : Opening l0 hs path sid l) : l.listed path = some sid :=
  h.exact.held ⟨path, some sid, false⟩ (List.mem_append_right _ (List.mem_singleton.2 rfl)) sid
    (by simp [Holder.holds])

theorem Opening.release (h : Opening l0 hs path sid l) : Failed l0 hs (l.release path) := by
  have hholds : (⟨path, some sid, false⟩ : Holder String).holds sid := by simp [Holder.holds]
  have hexact := (show Exact l (hs ++ ⟨path, some sid, false⟩ :: []) from h.exact).release hholds
  rw [List.append_nil] at hexact
  refine ⟨hexact, fun o ho => ?_⟩
  have hcount := h.counts o ho
  rw [Ledger.release, h.listed]
  by_cases hne : o = sid
  · subst hne
    rw [if_pos rfl] at hcount
    simp [hcount]
  · rw [if_neg hne] at hcount
    simpa [hne] using hcount

theorem failed_releaseDiscarding (h : Opening l0 hs path sid g.ledger) :
    Failed l0 hs (g.releaseSessionDiscardingIfEmpty path).ledger := by
  have hfailed := h.release
  rw [← ledger_releaseSession] at hfailed
  have hlisted : g.listed path = some sid := h.listed
  unfold Gateway.releaseSessionDiscardingIfEmpty
  rw [hlisted]
  dsimp only
  split
  · rename_i hd
    simp only [State.discardable, Bool.and_eq_true, decide_eq_true_eq] at hd
    have hlisted' : (g.releaseSession path).ledger.listed path = some sid := by
      rw [ledger_releaseSession]
      unfold Ledger.release
      split <;> exact hlisted
    have hfree := hfailed.exact.free hlisted' hd.1.1
    have hl : (((g.releaseSession path).on path fun s =>
        { s with listed := none }.closeSession sid).removeFiles (g.stagingOf sid)).ledger =
          ((g.releaseSession path).ledger.unlist path).kill sid := ledger_dropSession rfl rfl rfl
    rw [hl]
    exact ⟨hfailed.exact.drop hfree hlisted', hfailed.counts⟩
  · exact hfailed


variable {fl : FileFlags}

/-- What follows the session of an open: it goes on as a holder, or fails. -/
abbrev OpenTriple (l0 : Ledger String) (hs : List (Holder String)) (path : String) (sid : Nat)
    (m : Program Gateway FileError Unit) : Prop :=
  Triple (fun g => Opening l0 hs path sid g.ledger) m (fun _ g => Opening l0 hs path sid g.ledger)
    (fun _ g => Failed l0 hs g.ledger) (fun _ => True)

theorem openTriple_refuse {e : FileError} : OpenTriple l0 hs path sid (refuse path e) :=
  Triple.bind (Q := fun _ g => Failed l0 hs g.ledger)
    (Triple.step fun _ h => ⟨trivial, trivial, failed_releaseDiscarding h⟩)
    fun _ => Triple.fail fun _ h => ⟨trivial, h⟩


theorem openTriple_prefetch : OpenTriple l0 hs path sid (prefetchObject w path sid) := by
  refine Triple.read fun g hg => ?_
  split
  · exact openTriple_refuse.at hg
  split
  · exact openTriple_refuse.at hg
  · rename_i ws d fetched hfetch
    refine Triple.bind (quiet_step_at upward_opening hg
      (ledger_changeSession (sameRef_prefetch hfetch))) fun _ => ?_
    split
    · exact Triple.done fun _ h => ⟨trivial, h⟩
    · exact openTriple_refuse

theorem openTriple_settleExistence {pendingDelete : Bool} :
    OpenTriple l0 hs path sid (settleExistence w fl path pendingDelete sid) := by
  refine Triple.read fun g hg => ?_
  have hstage : OpenTriple l0 hs path sid (stageExisting w fl path sid) := by
    refine Triple.bind (quiet_seedAttributes upward_opening) fun _ => ?_
    split
    · exact Triple.done fun _ h => ⟨trivial, h⟩
    · exact openTriple_prefetch
  split
  · exact quiet_done_at hg
  split
  · exact hstage.at hg
  · exact hstage.at hg
  · split
    · exact (quiet_setCreation upward_opening).at hg
    · exact openTriple_refuse.at hg
  · exact (quiet_setCreation upward_opening).at hg

theorem truncate_zero (d : Disk) (h : ws.file.isSome) : (ws.truncate d 0).isSome := by
  obtain ⟨f, hf⟩ := Option.isSome_iff_exists.1 h
  unfold WriteSession.truncate WriteSession.detachFromUploadsLocked
  by_cases hr : ws.uploadReaders = 0
  · simp [hr, hf]
  · simp [hr]

theorem openTriple_truncateIf (hchange : fl.trunc → w.change = false) :
    OpenTriple l0 hs path sid (truncateIf w fl path sid) := by
  unfold truncateIf
  split
  · rename_i htrunc
    refine Triple.read fun g hg => ?_
    have hlive : (g.session sid).file.isSome := hg.exact.live path sid hg.listed
    obtain ⟨⟨ws, d⟩, hsome⟩ := Option.isSome_iff_exists.1 (truncate_zero (g.disk (g.stagingOf sid)) hlive)
    rw [hsome, applyChange, hchange htrunc]
    refine Triple.bind (quiet_step_at upward_opening hg
      (ledger_changeSession (sameRef_truncate hsome))) fun _ => ?_
    refine Triple.bind (Triple.attempt (quiet_markDirty upward_opening)) fun r => ?_
    cases r with
    | ok _ => exact Triple.done fun _ h => ⟨trivial, h⟩
    | error e =>
      refine Triple.bind (Q := fun _ g => Failed l0 hs g.ledger)
        (Triple.step fun g h => ⟨trivial, trivial, ?_⟩) fun _ => Triple.fail fun _ h => ⟨trivial, h⟩
      rw [ledger_releaseSession]
      exact Opening.release h
  · exact Triple.done fun _ h => ⟨trivial, h⟩

theorem count_acquire (l : Ledger String) (sid o : Nat) :
    (l.acquire sid).count o = if o = sid then l.count o + 1 else l.count o := by
  by_cases h : o = sid
  · subst h
    simp [Ledger.acquire]
  · simp [Ledger.acquire, h]

theorem getOrCreateSession_triple (he : Exact g.ledger hs) : Triple (fun g' => g' = g)
    (getOrCreateSession w path) (fun sid g' => Opening g.ledger hs path sid g'.ledger)
    (fun _ g' => Failed g.ledger hs g'.ledger) (fun _ => True) := by
  refine Triple.read ?_
  rintro g rfl
  have hfailed : Failed g.ledger hs g.ledger := ⟨he, fun _ _ => rfl⟩
  split
  · exact quiet_fail_at hfailed
  split
  · rename_i sid hsid
    refine Triple.bind (Q := fun _ g' => Opening g.ledger hs path sid g'.ledger) (Triple.step ?_)
      fun _ => Triple.done fun _ h => ⟨trivial, h⟩
    rintro g' rfl
    refine ⟨trivial, trivial, ?_⟩
    rw [ledger_reuseSession]
    exact ⟨he.acquire hsid, fun o _ => count_acquire ..⟩
  · rename_i hnone
    split
    · refine Triple.bind (Q := fun _ g' => Failed g.ledger hs g'.ledger) (Triple.step ?_)
        fun _ => Triple.fail fun _ h => ⟨trivial, h⟩
      rintro g' rfl
      exact ⟨trivial, trivial, hfailed⟩
    · refine Triple.bind (Q := fun _ g' => Opening g.ledger hs path g.nextSession g'.ledger)
        (Triple.step ?_) fun _ => Triple.done fun _ h => ⟨trivial, h⟩
      rintro g' rfl
      refine ⟨trivial, trivial, ?_⟩
      rw [ledger_createSession]
      refine ⟨(he.create hnone).acquire (update_self ..), fun o ho => ?_⟩
      have hcreate : (g'.ledger.create path).count o = g'.ledger.count o :=
        update_of_ne (Nat.ne_of_lt ho) ..
      rw [count_acquire, hcreate]


theorem exact_unheld (he : Exact l hs) (path : String) (write : Bool) :
    Exact l (hs ++ [File.holder ⟨path, none, write, false⟩]) := by
  refine Exact.insert ?_ fun o => by simp [File.holder, Holder.holds]
  rw [List.append_nil]
  exact he

theorem opened_triple (hchange : fl.trunc → w.change = false) :
    Triple (fun g' => Opening l0 hs path sid g'.ledger)
      (do truncateIf w fl path sid; Program.done (File.mk path (some sid) fl.write false))
      (fun f g' => Exact g'.ledger (hs ++ [f.holder])) (fun _ g' => Failed l0 hs g'.ledger)
      (fun _ => True) :=
  Triple.bind (openTriple_truncateIf hchange) fun _ => Triple.done fun _ h => ⟨trivial, h.exact⟩

theorem openReading_triple (hchange : fl.trunc → w.change = false) (he : Exact g.ledger hs) :
    Triple (fun g' => g' = g) (openReading w fl path) (fun f g' => Exact g'.ledger (hs ++ [f.holder]))
    (fun _ g' => Failed g.ledger hs g'.ledger) (fun _ => True) := by
  refine Triple.read ?_
  rintro g rfl
  split
  · rename_i sid hsid
    have hlisted : g.listed path = some sid := by
      split at hsid
      · exact nomatch hsid
      · exact hsid
    refine Triple.bind (Q := fun _ g' => Opening g.ledger hs path sid g'.ledger) (Triple.step ?_)
      fun _ => opened_triple hchange
    rintro g' rfl
    rw [ledger_acquireSession]
    exact ⟨trivial, trivial, he.acquire hlisted, fun o _ => count_acquire ..⟩
  · split
    · refine Triple.done ?_
      rintro g' rfl
      exact ⟨trivial, exact_unheld he ..⟩
    split
    · exact quiet_fail_at ⟨he, fun _ _ => rfl⟩
    · refine Triple.bind (Q := fun _ g' => Exact g'.ledger hs) (Triple.step ?_)
        fun _ => Triple.done fun g' h => ⟨trivial, exact_unheld h ..⟩
      rintro g' rfl
      exact ⟨trivial, trivial, he⟩

theorem openFile_triple (hchange : fl.trunc → w.change = false) (he : Exact g.ledger hs) :
    Triple (fun g' => g' = g) (openFile w fl path) (fun f g' => Exact g'.ledger (hs ++ [f.holder]))
    (fun _ g' => Failed g.ledger hs g'.ledger) (fun _ => True) := by
  unfold openFile
  have hfailed : Failed g.ledger hs g.ledger := ⟨he, fun _ _ => rfl⟩
  split
  · exact quiet_fail_at hfailed
  refine Triple.read ?_
  rintro g rfl
  split
  · exact quiet_fail_at hfailed
  split
  · exact openReading_triple hchange he
  · exact Triple.bind (getOrCreateSession_triple he) fun sid =>
      Triple.bind openTriple_settleExistence fun _ => opened_triple hchange


/-! ## Renaming -/

theorem upward_exact : Upward (fun l => Exact l hs) := fun _ _ hg h => h.grows hg

variable {old new : String} {wr : RenameFaults} {X : RenameError → Gateway → Prop}

theorem ledger_moveStagingFile : g.ledger.Grows (g.moveStagingFile old new).ledger := by
  unfold Gateway.moveStagingFile
  cases h : g.listed old with
  | none => exact ledger_refl
  | some sid =>
    have hsession : g.ledger.Grows (g.setSession sid (g.session sid).metadataChanged).ledger :=
      ledger_setSession ⟨rfl, id⟩
    exact hsession

theorem exact_closeReplaced (he : Exact g.ledger hs) (hnew : Free hs new) :
    Exact (g.closeReplaced new).ledger hs := by
  unfold Gateway.closeReplaced
  cases h : g.listed new with
  | none => exact he
  | some sid =>
    have hl : Gateway.ledger { g with
        listed := update g.listed new none
        session := update g.session sid { g.session sid with dirty := false, file := none } } =
          (g.ledger.unlist new).kill sid := by
      ext1
      · rfl
      · show (fun i => (update g.session sid _ i).refCount) = g.ledger.count
        rw [refs_update]
        exact update_eq_self ..
      · exact live_update ..
      · rfl
    dsimp only
    rw [hl]
    exact he.drop hnew h

theorem exact_rekeySession (he : Exact g.ledger hs) (hold : Free hs old) (hnew : Free hs new) :
    Exact (g.rekeySession old new).ledger hs := by
  unfold Gateway.rekeySession
  cases h : g.listed old with
  | none => exact he
  | some sid =>
    have hgrow : (g.ledger.rekey old new).Grows (Gateway.ledger { g with
        listed := update (update g.listed old none) new (some sid)
        session := update g.session sid (g.session sid).metadataChanged
        stagingOf := update g.stagingOf sid new }) := by
      have hsession : g.ledger.Grows (g.setSession sid (g.session sid).metadataChanged).ledger :=
        ledger_setSession ⟨rfl, id⟩
      refine ⟨?_, hsession.count, hsession.live, rfl⟩
      show update (update g.listed old none) new (some sid) =
        update (update g.listed old none) new (g.listed old)
      rw [h]
    exact (he.rekey hold hnew).grows hgrow

theorem exact_syncedAway {uploaded : Object} (he : Exact g.ledger hs) (hold : Free hs old) :
    Exact (g.syncedAway old uploaded).ledger hs := by
  rw [Gateway.syncedAway_eq]
  exact he.unlist hold

theorem quiet_restorePathMetadata {replaced : Option PathMetadataState} (hP : Upward P) :
    Triple (fun g => P g.ledger) (restorePathMetadata wr path replaced) (fun _ g => P g.ledger) X
    (fun _ => True) := by
  have htake : Triple (fun g => P g.ledger) (takeBack wr path replaced) (fun _ g => P g.ledger) X
      (fun _ => True) := by
    unfold takeBack
    split
    · exact Triple.done fun _ h => ⟨trivial, h⟩
    · split
      · exact quiet_step hP fun _ => ledger_writeSidecar _
      · exact quiet_step hP fun _ => ledger_refl
  have hrecord : Triple (fun g => P g.ledger) (recordAgain wr path replaced) (fun _ g => P g.ledger) X
      (fun _ => True) := by
    refine Triple.read fun g hg => ?_
    split
    · split
      · exact quiet_step_at hP hg ledger_refl
      · exact quiet_step_at hP hg (ledger_on ⟨rfl, fun _ => ⟨rfl, id⟩, rfl⟩)
    · exact quiet_done_at hg
  exact Triple.bind htake fun _ => Triple.bind hrecord fun _ =>
    quiet_step hP fun _ => ledger_on (sameRefs_metadataChanged _)

theorem ledger_invalidate : g.ledger.Grows (g.on path State.invalidate).ledger := by
  refine ledger_on ?_
  unfold State.invalidate
  split <;> exact ⟨rfl, fun _ => ⟨rfl, id⟩, rfl⟩

theorem ledger_cancelPendingDelete (fails : Bool) :
    g.ledger.Grows (g.cancelPendingDelete path fails).ledger := by
  unfold Gateway.cancelPendingDelete
  split <;> exact ledger_refl

theorem ledger_addTombstone (fails : Bool) : g.ledger.Grows (g.addTombstone path fails).ledger := by
  unfold Gateway.addTombstone
  split <;> exact ledger_refl

theorem ledger_removeSidecar (fails : Bool) : g.ledger.Grows (g.removeSidecar path fails).ledger := by
  unfold Gateway.removeSidecar
  split <;> exact ledger_refl

theorem quiet_prepareDestination (hP : Upward P) :
    Preserves (fun g => P g.ledger) (prepareDestination wr old new) := by
  refine Triple.bind (quiet_step hP fun _ => ledger_cancelPendingDelete _) fun _ => ?_
  refine Triple.read fun g hg => Triple.bind (quiet_step_at hP hg ledger_invalidate) fun _ =>
    Triple.read fun g hg => ?_
  split
  · exact quiet_fail_at hg
  · exact Triple.bind (quiet_step_at hP hg (ledger_writeSidecar _)) fun _ =>
      Triple.done fun _ h => ⟨trivial, h⟩


theorem exact_renameStagedPath (hold : Free hs old) (hnew : Free hs new) :
    Preserves (fun g => Exact g.ledger hs) (renameStagedPath wr old new) := by
  refine Triple.read fun g hg => ?_
  split
  · exact quiet_fail_at hg
  split
  · exact quiet_fail_at hg
  split
  · exact Triple.bind (quiet_step_at upward_exact hg (ledger_on ⟨rfl, fun _ => ⟨rfl, id⟩, rfl⟩))
      fun _ => Preserves.fail
  · refine Triple.bind (Triple.at (quiet_prepareDestination upward_exact) hg) fun replaced => ?_
    refine Preserves.bind ?_ fun _ => ?_
    · unfold moveStagedData
      split
      · exact quiet_step upward_exact fun _ => ledger_moveStagingFile
      · refine Preserves.bind (Preserves.step fun _ h => exact_syncedAway h hold) fun _ =>
          Preserves.bind (quiet_restorePathMetadata upward_exact) fun _ =>
            Preserves.bind (quiet_step upward_exact fun _ => ?_) fun _ => Preserves.fail
        exact ledger_on ⟨rfl, fun _ => ⟨rfl, id⟩, rfl⟩
      · exact Preserves.bind (quiet_restorePathMetadata upward_exact) fun _ => Preserves.fail
    · refine Preserves.bind (quiet_step upward_exact fun _ => ledger_addTombstone _) fun _ =>
        Preserves.bind (quiet_step upward_exact fun _ => ledger_removeSidecar _) fun _ =>
          Preserves.bind (Preserves.step fun _ h => ?_) fun _ => quiet_step upward_exact fun _ => ledger_refl
      exact exact_rekeySession (exact_closeReplaced h hnew) hold hnew

variable {wf : FileFaults} {wd : DirectoryFaults}

theorem exact_discardStagedDestination (hg : Exact g.ledger hs) (hnew : (g.dirty new).isSome →
    Free hs new) : Triple (fun g' => g' = g) (discardStagedDestination wf new)
    (fun _ g' => Exact g'.ledger hs) (fun _ g' => Exact g'.ledger hs) (fun _ => True) := by
  refine Triple.bind (Q := fun _ g' => Exact g'.ledger hs) (Triple.read ?_) fun _ =>
    quiet_step upward_exact fun _ => ledger_cancelPendingDelete _
  rintro g rfl
  split
  · exact quiet_done_at (P := (Exact · hs)) hg
  rename_i hdirty
  have hfree : Free hs new := hnew (by simpa [Option.isSome_iff_ne_none] using hdirty)
  split
  · exact quiet_fail_at hg
  · refine Triple.bind (quiet_step_at upward_exact hg ledger_refl) fun _ =>
      Preserves.bind (quiet_step upward_exact fun _ => ledger_on ⟨rfl, fun _ => ⟨rfl, id⟩, rfl⟩)
        fun _ => Preserves.bind (Preserves.step fun _ h => exact_cleanupSession h hfree)
          fun _ => quiet_step upward_exact fun _ => ledger_refl

theorem quiet_renameFile {wb : BucketFaults} (hP : Upward P) :
    Preserves (fun g => P g.ledger) (renameFile wb old new) := by
  have hstep : ∀ f : Gateway → String → Option Object, Preserves (fun g => P g.ledger)
      (Program.step (fun g => { g with object := f g }) : Program Gateway VfsError PUnit) :=
    fun f => quiet_step hP fun _ => ledger_refl
  unfold renameFile
  split
  · exact Preserves.done
  split
  · exact Preserves.fail
  · exact Preserves.fail
  · unfold renameDirectory
    split
    · exact Preserves.fail
    split
    · exact Preserves.fail
    split
    · exact Preserves.fail
    · exact Preserves.fail
    · exact Preserves.fail
    · split
      · exact Preserves.fail
      · refine Preserves.bind (hstep _) fun _ => ?_
        split
        · exact Preserves.fail
        · refine Preserves.bind (hstep _) fun _ => ?_
          split
          · exact Preserves.fail
          · exact Preserves.done
  · unfold renameObject
    split
    · exact Preserves.fail
    · refine Preserves.bind (hstep _) fun _ => ?_
      split
      · exact Preserves.fail
      · exact hstep _

theorem quiet_deleteSource (hP : Upward P) : Preserves (fun g => P g.ledger) (deleteSource wf old) := by
  refine Preserves.read fun g _ => ?_
  split
  · exact Preserves.done
  split
  · exact Preserves.bind (quiet_step hP fun _ => ledger_refl) fun _ => quiet_step hP fun _ => ledger_refl
  · exact Preserves.bind (quiet_step hP fun _ => ledger_refl) fun _ =>
      Preserves.bind (quiet_step hP fun _ => ledger_refl) fun _ =>
        Preserves.bind (quiet_step hP fun _ => ledger_cancelPendingDelete _) fun _ =>
          quiet_step hP fun _ => ledger_refl

theorem exact_renameDirtyStagedFile (hold : Free hs old) (hnew : Free hs new) :
    Preserves (fun g => Exact g.ledger hs) (renameDirtyStagedFile wf old new) := by
  refine Preserves.bind (exact_renameStagedPath hold hnew).attempt fun r => ?_
  split
  · exact quiet_deleteSource upward_exact
  · refine Preserves.bind ?_ fun _ => quiet_renameFile upward_exact
    intro g hg
    exact exact_discardStagedDestination hg (fun _ => hnew) g rfl
  · exact Preserves.fail

/-! ## Renaming a directory -/

theorem quiet_release (hP : Upward P) (paths : List String) :
    Preserves (fun g => P g.ledger) (release paths) := by
  induction paths with
  | nil => exact Preserves.done
  | cons path rest ih => exact Preserves.bind ih fun _ => quiet_step hP fun _ => ledger_refl

theorem exact_moveBack (moved : List String)
    (hfree : ∀ c ∈ moved, Free hs c ∧ Free hs (renameTarget old new c)) :
    Preserves (fun g => Exact g.ledger hs) (moveBack wd old new moved) := by
  induction moved with
  | nil => exact Preserves.done
  | cons c rest ih =>
    obtain ⟨hc, htarget⟩ := hfree c List.mem_cons_self
    exact Preserves.bind (exact_renameStagedPath htarget hc).attempt fun _ =>
      ih fun c' hc' => hfree c' (List.mem_cons_of_mem _ hc')

theorem exact_undo {p : Progress} (hfree : ∀ c ∈ p.moved, Free hs c ∧ Free hs (renameTarget old new c)) :
    Preserves (fun g => Exact g.ledger hs) (undo wd old new p) :=
  Preserves.bind (exact_moveBack _ hfree) fun _ => quiet_release upward_exact _

theorem quiet_giveUp {holdsClaim : Bool} (hP : Upward P) :
    Preserves (fun g => P g.ledger) (giveUp holdsClaim path) := by
  unfold giveUp
  split
  · exact quiet_step hP fun _ => ledger_refl
  · exact Preserves.done

theorem exact_moveChildren (children : List String) : ∀ (p : Progress), (∀ c ∈ children, Free hs c ∧
    Free hs (renameTarget old new c)) → (∀ c ∈ p.moved, Free hs c ∧ Free hs (renameTarget old new c)) →
    Triple (fun g => Exact g.ledger hs) (moveChildren wd old new children p)
    (fun p' g => Exact g.ledger hs ∧ ∀ c ∈ p'.moved, Free hs c ∧ Free hs (renameTarget old new c))
    (fun _ g => Exact g.ledger hs) (fun _ => True) := by
  induction children with
  | nil => exact fun p _ hp => Triple.done fun g hg => ⟨trivial, hg, hp⟩
  | cons c rest ih =>
    intro p hc hp
    have hrest : ∀ c' ∈ rest, Free hs c' ∧ Free hs (renameTarget old new c') :=
      fun c' h => hc c' (List.mem_cons_of_mem _ h)
    obtain ⟨hchild, htarget⟩ := hc c List.mem_cons_self
    refine Triple.read fun g hg => ?_
    refine Triple.bind (quiet_step_at upward_exact hg ledger_refl) fun _ => ?_
    refine Triple.bind (exact_renameStagedPath hchild htarget).attempt fun r => ?_
    split
    · refine ih _ hrest fun c' hc' => ?_
      rcases List.mem_cons.1 hc' with rfl | hc'
      · exact ⟨hchild, htarget⟩
      · exact hp c' hc'
    · exact Triple.bind (quiet_giveUp upward_exact) fun _ => ih p hrest hp
    · exact Triple.bind (quiet_giveUp upward_exact) fun _ =>
        Triple.bind (exact_undo hp) fun _ => Triple.fail fun _ h => ⟨trivial, h⟩

theorem exact_renameInBucket {p : Progress}
    (hfree : ∀ c ∈ p.moved, Free hs c ∧ Free hs (renameTarget old new c)) :
    Preserves (fun g => Exact g.ledger hs) (renameInBucket wd old new p) := by
  refine Preserves.bind (quiet_renameFile upward_exact).attempt fun r => ?_
  split
  · exact quiet_release upward_exact _
  split
  · refine Preserves.bind (quiet_step upward_exact fun g => ?_) fun _ => quiet_release upward_exact _
    split <;> exact ledger_refl
  · exact Preserves.bind (exact_undo hfree) fun _ => Preserves.fail

theorem exact_renameDirectoryWithStagedFiles {children : List String}
    (hfree : ∀ c ∈ children, Free hs c ∧ Free hs (renameTarget old new c)) :
    Preserves (fun g => Exact g.ledger hs) (renameDirectoryWithStagedFiles wd old new children) := by
  refine Preserves.read fun g _ => ?_
  split
  · exact Preserves.fail
  split
  · exact quiet_renameFile upward_exact
  · exact quiet_renameFile upward_exact
  · exact Preserves.fail
  · refine Triple.bind (exact_moveChildren _ {} (fun c hc => hfree c ?_) (by simp)) fun p => ?_
    · exact (List.mem_insertionSort _).1 hc
    rintro g ⟨hg, hmoved⟩
    exact exact_renameInBucket hmoved g hg

/-- The names whose sessions a rename unlists or lists under another name. -/
def Gateway.restaged (g : Gateway) (known : List String) (old new : String) : List String :=
  if (g.dirtyStagedChildren known old).isEmpty then
    if (g.dirty old).isSome then [old, new]
    else if (g.dirty new).isSome then [new]
    else []
  else g.dirtyStagedChildren known old ++ (g.dirtyStagedChildren known old).map (renameTarget old new)

theorem exact_rename {known : List String} (hg : Exact g.ledger hs)
    (hfree : ∀ path ∈ g.restaged known old new, Free hs path) : Triple (fun g' => g' = g)
    (rename known wf wd old new) (fun _ g' => Exact g'.ledger hs) (fun _ g' => Exact g'.ledger hs)
    (fun _ => True) := by
  unfold rename
  split
  · exact quiet_fail_at hg
  refine Triple.read ?_
  rintro g rfl
  split
  · exact quiet_fail_at hg
  split
  · exact quiet_fail_at hg
  split
  · rename_i hchildren
    have hc : (g.dirtyStagedChildren known old).isEmpty = false := by simpa using hchildren
    rw [Gateway.restaged, if_neg (by simp [hc])] at hfree
    refine (exact_renameDirectoryWithStagedFiles fun c hmem => ?_).at hg
    exact ⟨hfree c (List.mem_append_left _ hmem),
      hfree _ (List.mem_append_right _ (List.mem_map_of_mem hmem))⟩
  rename_i hchildren
  have hc : (g.dirtyStagedChildren known old).isEmpty := by simpa using hchildren
  rw [Gateway.restaged, if_pos hc] at hfree
  split
  · exact quiet_fail_at hg
  split
  · rename_i hdirty
    rw [if_pos hdirty] at hfree
    exact (exact_renameDirtyStagedFile (hfree old (by simp)) (hfree new (by simp))).at hg
  · rename_i hclean
    rw [if_neg hclean] at hfree
    refine Triple.bind (exact_discardStagedDestination hg fun hnew => ?_) fun _ =>
      quiet_renameFile upward_exact
    rw [if_pos hnew] at hfree
    exact hfree new (List.mem_singleton.2 rfl)

end

end Bluestone
