/-
# `Bluestone.Staging.Reported` — attribute changes and the object

`SetAttributes` reports success once the change is on the session of the path, or
on its object when there is none.  A change on the session reaches the object
with the next upload, and there need not be one: a change does not mark the path
dirty, and an upload under way has read the attributes before.
`open_file_mode_lost` is the shortest such run.

`reported_in_object` is what holds: when changes do not overlap, each call on a
session finds it listed, dirty, seeded and with no upload that has read its
attributes, a change of the object finds no session, and a `Stat` that failed is
not taken for "no such file", then in every clean state at rest the object has the
value of every field last reported as set.
-/
import Bluestone.Staging.Durable
import Bluestone.Staging.Expected

namespace Bluestone

open Function Runs

/-- The fields `SetAttributes` has reported as set. -/
def reportedAfter (x : Expected) : Action → Expected
  | .attributesSet update => x.override update.get
  | _ => x

/-- The system with what has been reported as its history. -/
def systemWithReported (actors : Actor → Prop) : System (State × Expected) (Nat × Action) :=
  (system actors).track (fun _ => .nothing) fun _ e _ x => reportedAfter x e.2

/-- The object has every value expected. -/
def InObject (s : State) (x : Expected) : Prop :=
  ∀ f v, x f = some v → ∃ o, s.object = some o ∧ o.attributes.get f = v

/-- A thread with no operation on the file under way. -/
def Task.resting : Task → Bool
  | .idle | .handle _ | .reading _ => true
  | _ => false

/-! ## Where threads stand -/

/-- An open that has not decided whether the file is there, or a reader. -/
def Task.early (task : Task) : Bool :=
  match task.base with
  | .opening _ (.flags _ _) | .opening _ (.stat _ _) | .opening _ (.seed _ _)
  | .opening _ (.refuse _) | .reading _ => true
  | _ => false

/-- The session an open is about to seed, and the attributes `Stat` reported. -/
def Task.seeds (task : Task) : Option (Nat × StagedAttributes) :=
  match task.base with
  | .opening _ (.seed sid attrs) => some (sid, attrs)
  | _ => none

/-- The attributes an upload carries, and whether it has taken effect. -/
def Task.uploads (task : Task) : Option (StagedAttributes × Bool) :=
  match task.base with
  | .syncing (.uploading _ attrs landed) => some (attrs, landed)
  | _ => none

/-- An upload that is done and has not yet marked the path clean. -/
def Task.finishes (task : Task) : Bool :=
  match task.base with
  | .syncing (.finish _) => true
  | _ => false

/-- An open that found a pending delete. -/
def Task.sawDelete (task : Task) : Bool :=
  match task.base with
  | .opening _ (.lookup pd) | .opening _ (.flags pd _) | .opening _ (.stat pd _) => pd
  | _ => false

/-- The attribute change a thread is in the middle of. -/
def Task.change (task : Task) : Option AttrPc :=
  match task.base with
  | .setting pc => some pc
  | _ => none

/-- A thread that neither seeds nor uploads nor has seen a delete. -/
structure Task.Quiet (task : Task) : Prop where
  seeds : task.seeds = none
  uploads : task.uploads = none
  finishes : task.finishes = false
  sawDelete : task.sawDelete = false

theorem holds_base : (task : Task) → task.base.holds = task.holds
  | .persist _ _ next => holds_base next
  | .idle | .opening _ _ | .discarding _ _ | .handle _ | .reading _ | .marking _ _ _
  | .releasing _ | .syncing _ | .setting _ | .committing _ | .removing _ | .deleting _ | .renaming _
  | .copying _ => rfl

theorem holds_of_seeds {task : Task} {sid : Nat} {attrs : StagedAttributes}
    (h : task.seeds = some (sid, attrs)) : task.holds = some sid := by
  rw [← holds_base]
  unfold Task.seeds at h
  split at h
  · rename_i hb
    obtain ⟨rfl, rfl⟩ := Prod.mk.inj (Option.some.inj h)
    rw [hb]
    rfl
  · exact nomatch h

/-! ## Conditions on runs -/

structure ChangesApart (s : State) (e : Nat × Action) : Prop where
  orderly : Orderly s e
  undeleted : s.tombstone = false
  /-- A `Stat` that fails is taken for "no such file" only where it is so. -/
  answered : e.2 = .assumedAbsent → s.object = none
  /-- A change begins when no other is under way, and sets no zero time. -/
  begun : ∀ update, e.2 = .attributesBegun update →
    update.btime ≠ some 0 ∧ ∀ t, (s.task t).change = none
  /-- A call on a session finds it listed, dirty, seeded and not being uploaded. -/
  staged : ∀ sid call todo update, s.task e.1 = .setting (.apply sid (call :: todo) update) →
    s.listed = some sid ∧ s.dirty.isSome = true ∧ (s.session sid).attributesSet = true ∧
      ∀ t, (s.task t).uploads = none ∧ (s.task t).finishes = false
  /-- The half of an owner that is written back is still the session's. -/
  owner : ∀ sid uid gid todo update,
    s.task e.1 = .setting (.apply sid (.owner uid gid :: todo) update) →
    uid = update.uid.getD (s.session sid).attrs.uid ∧
      gid = update.gid.getD (s.session sid).attrs.gid
  /-- The object's metadata is replaced while no session is listed and with what
  was read still there. -/
  unstaged : ∀ update attrs, e.2 = .attributesSet update →
    s.task e.1 = .setting (.put update attrs) →
    s.listed = none ∧ ∃ o, s.object = some o ∧ attrs = update.apply o.attributes

/-! ## What has been made of the changes -/

/-- `made` are the values the calls made so far have set. -/
structure Carried (s : State) (made : Expected) : Prop where
  session : ∀ sid, s.listed = some sid → (s.session sid).attributesSet = true →
    made.Agrees (s.session sid).attrs
  /-- A session that is not seeded has no data, and nobody has got past `Stat`. -/
  unseeded : ∀ sid, s.listed = some sid → (s.session sid).attributesSet = false →
    ∀ f v, made f = some v →
      (s.session sid).existenceKnown = false ∧ s.dirty = none ∧
        ∀ t, (s.task t).holds = some sid → (s.task t).early = true
  object : s.dirty = none → InObject s made
  seeding : ∀ t sid attrs, (s.task t).seeds = some (sid, attrs) → s.listed = some sid →
    (s.session sid).attributesSet = false → made.Agrees attrs
  uploading : ∀ t attrs landed, (s.task t).uploads = some (attrs, landed) →
    made.Agrees attrs ∧ (landed = true → InObject s made)
  finished : ∀ t, (s.task t).finishes = true → InObject s made
  undeleted : ∀ t, (s.task t).sawDelete = false
  btime : made .btime ≠ some 0

section
variable {s s' s1 : State} {t sid : Nat} {task : Task} {a : Action} {made : Expected}

/-- What the invariant asks of a thread at `task`. -/
structure Stands (s : State) (made : Expected) (task : Task) : Prop where
  early : ∀ sid, task.holds = some sid → s.listed = some sid →
    (s.session sid).attributesSet = false → ∀ f v, made f = some v → task.early = true
  seeds : ∀ sid attrs, task.seeds = some (sid, attrs) → s.listed = some sid →
    (s.session sid).attributesSet = false → made.Agrees attrs
  uploads : ∀ attrs landed, task.uploads = some (attrs, landed) →
    made.Agrees attrs ∧ (landed = true → InObject s made)
  finishes : task.finishes = true → InObject s made
  sawDelete : task.sawDelete = false

theorem Carried.goto (hc : Carried s made) (hst : Stands s made task) :
    Carried (s.goto t task) made := by
  have htask : ∀ t', t' ≠ t → (s.goto t task).task t' = s.task t' := fun t' h =>
    update_of_ne h _ _
  refine ⟨hc.session, ?_, hc.object, ?_, ?_, ?_, ?_, hc.btime⟩
  · intro sid hl hset f v hv
    obtain ⟨hk, hd, hearly⟩ := hc.unseeded sid hl hset f v hv
    refine ⟨hk, hd, fun t' ht' => ?_⟩
    by_cases htt : t' = t
    · subst htt
      rw [goto_task_self] at ht' ⊢
      exact hst.early sid ht' hl hset f v hv
    · rw [htask t' htt] at ht' ⊢
      exact hearly t' ht'
  · intro t' sid attrs hs
    by_cases htt : t' = t
    · subst htt
      rw [goto_task_self] at hs
      exact hst.seeds sid attrs hs
    · rw [htask t' htt] at hs
      exact hc.seeding t' sid attrs hs
  · intro t' attrs landed hu
    by_cases htt : t' = t
    · subst htt
      rw [goto_task_self] at hu
      exact hst.uploads attrs landed hu
    · rw [htask t' htt] at hu
      exact hc.uploading t' attrs landed hu
  · intro t' hf
    by_cases htt : t' = t
    · subst htt
      rw [goto_task_self] at hf
      exact hst.finishes hf
    · rw [htask t' htt] at hf
      exact hc.finished t' hf
  · intro t'
    by_cases htt : t' = t
    · subst htt
      rw [goto_task_self]
      exact hst.sawDelete
    · rw [htask t' htt]
      exact hc.undeleted t'

theorem Task.Quiet.stands (hq : task.Quiet) (hh : ∀ sid, task.holds = some sid → s.listed = some sid →
    (s.session sid).attributesSet = false → ∀ f v, made f = some v → task.early) :
    Stands s made task := by
  refine ⟨hh, ?_, ?_, ?_, hq.sawDelete⟩
  · intro sid attrs hs
    exact nomatch hq.seeds.symm.trans hs
  · intro attrs landed hu
    exact nomatch hq.uploads.symm.trans hu
  · intro hf
    exact nomatch hq.finishes.symm.trans hf

theorem Carried.late (hc : Carried s made) (hl : s.listed = some sid) (hh : (s.task t).holds = some sid)
    (he : (s.task t).early = false) (hset : (s.session sid).attributesSet = false) {f : Field}
    {v : f.Value} (hv : made f = some v) : False :=
  nomatch he.symm.trans ((hc.unseeded sid hl hset f v hv).2.2 t hh)

theorem Carried.moveLate {old : Task} (hc : Carried s1 made) (htask : s1.task = s.task)
    (ht : s.task t = old) (ho : old.early = false) (hq : task.Quiet) (hh : ∀ sid, task.holds = some sid →
    old.holds = some sid) : Carried (s1.goto t task) made := by
  refine hc.goto (hq.stands fun sid hsid hl hset f v hv => ?_)
  have hheld : (s1.task t).holds = some sid := by
    rw [htask, ht]
    exact hh sid hsid
  exact (hc.late hl hheld (by rw [htask, ht]; exact ho) hset hv).elim

theorem Carried.moveFree (hc : Carried s made) (hq : task.Quiet) (hh : task.holds = none) :
    Carried (s.goto t task) made := by
  refine hc.goto (hq.stands fun sid hsid => ?_)
  exact nomatch hh.symm.trans hsid

theorem Carried.moveEarly (hc : Carried s made) (hq : task.Quiet) (he : task.early) :
    Carried (s.goto t task) made :=
  hc.goto (hq.stands fun _ _ _ _ _ _ _ => he)

theorem Carried.goto_base (hc : Carried s made) (hb : task.base = (s.task t).base) :
    Carried (s.goto t task) made := by
  have hbase : ∀ t', ((s.goto t task).task t').base = (s.task t').base := by
    intro t'
    by_cases htt : t' = t
    · subst htt
      rw [goto_task_self]
      exact hb
    · exact congrArg Task.base (update_of_ne htt _ _)
  refine ⟨hc.session, ?_, hc.object, ?_, ?_, ?_, ?_, hc.btime⟩
  · intro sid hl hset f v hv
    obtain ⟨hk, hd, hearly⟩ := hc.unseeded sid hl hset f v hv
    refine ⟨hk, hd, fun t' ht' => ?_⟩
    rw [← holds_base, hbase t', holds_base] at ht'
    have := hearly t' ht'
    unfold Task.early at this ⊢
    rw [hbase t']
    exact this
  · intro t' sid attrs hs
    unfold Task.seeds at hs
    rw [hbase t'] at hs
    exact hc.seeding t' sid attrs hs
  · intro t' attrs landed hu
    unfold Task.uploads at hu
    rw [hbase t'] at hu
    exact hc.uploading t' attrs landed hu
  · intro t' hf
    unfold Task.finishes at hf
    rw [hbase t'] at hf
    exact hc.finished t' hf
  · intro t'
    unfold Task.sawDelete
    rw [hbase t']
    exact hc.undeleted t'

/-- What the invariant does not see. -/
structure Alike (s s' : State) : Prop where
  listed : s'.listed = s.listed
  session : ∀ sid, s.listed = some sid → (s'.session sid).attrs = (s.session sid).attrs ∧
    (s'.session sid).attributesSet = (s.session sid).attributesSet ∧
    (s'.session sid).existenceKnown = (s.session sid).existenceKnown
  dirty : s'.dirty = s.dirty
  object : s'.object = s.object
  task : s'.task = s.task

theorem Carried.alike (hc : Carried s made) (h : Alike s s') : Carried s' made := by
  have hobj : InObject s made → InObject s' made := by
    intro hi f v hv
    rw [h.object]
    exact hi f v hv
  refine ⟨?_, ?_, ?_, ?_, ?_, ?_, ?_, hc.btime⟩
  · intro sid hl hset
    rw [h.listed] at hl
    rw [(h.session sid hl).2.1] at hset
    rw [(h.session sid hl).1]
    exact hc.session sid hl hset
  · intro sid hl hset f v hv
    rw [h.listed] at hl
    rw [(h.session sid hl).2.1] at hset
    rw [(h.session sid hl).2.2, h.dirty, h.task]
    exact hc.unseeded sid hl hset f v hv
  · intro hd
    rw [h.dirty] at hd
    exact hobj (hc.object hd)
  · intro t sid attrs hs hl hset
    rw [h.task] at hs
    rw [h.listed] at hl
    rw [(h.session sid hl).2.1] at hset
    exact hc.seeding t sid attrs hs hl hset
  · intro t attrs landed hu
    rw [h.task] at hu
    exact ⟨(hc.uploading t attrs landed hu).1, fun hl => hobj ((hc.uploading t attrs landed hu).2 hl)⟩
  · intro t hf
    rw [h.task] at hf
    exact hobj (hc.finished t hf)
  · intro t
    rw [h.task]
    exact hc.undeleted t

theorem Carried.lateChange (hc : Carried s made) (hl : s.listed = some sid)
    (hh : (s.task t).holds = some sid) (he : (s.task t).early = false) (hlisted : s'.listed = s.listed)
    (hsession : made.Agrees (s.session sid).attrs → made.Agrees (s'.session sid).attrs)
    (hset : (s'.session sid).attributesSet = (s.session sid).attributesSet)
    (hobject : s'.object = s.object) (htask : s'.task = s.task)
    (hdirty : s'.dirty = s.dirty ∨ s'.dirty.isSome) : Carried s' made := by
  have hobj : InObject s made → InObject s' made := by
    intro hi f v hv
    rw [hobject]
    exact hi f v hv
  have hsid : ∀ i, s'.listed = some i → i = sid := by
    intro i hi
    rw [hlisted] at hi
    exact Option.some.inj (hi.symm.trans hl)
  refine ⟨?_, ?_, ?_, ?_, ?_, ?_, ?_, hc.btime⟩
  · intro i hi hs
    obtain rfl := hsid i hi
    rw [hset] at hs
    exact hsession (hc.session i hl hs)
  · intro i hi hs f v hv
    obtain rfl := hsid i hi
    rw [hset] at hs
    exact (hc.late hl hh he hs hv).elim
  · intro hd
    rcases hdirty with hsame | hsome
    · exact hobj (hc.object (hsame.symm.trans hd))
    · rw [hd] at hsome
      exact nomatch hsome
  · intro t' i attrs hs hi hset'
    obtain rfl := hsid i hi
    rw [htask] at hs
    rw [hset] at hset'
    exact hc.seeding t' i attrs hs hl hset'
  · intro t' attrs landed hu
    rw [htask] at hu
    exact ⟨(hc.uploading t' attrs landed hu).1,
      fun h => hobj ((hc.uploading t' attrs landed hu).2 h)⟩
  · intro t' hf
    rw [htask] at hf
    exact hobj (hc.finished t' hf)
  · intro t'
    rw [htask]
    exact hc.undeleted t'

theorem Carried.lateSession {ws : WriteSession} {d : Disk} (hc : Carried s made)
    (hl : s.listed = some sid) (hh : (s.task t).holds = some sid) (he : (s.task t).early = false)
    (hattrs : made.Agrees (s.session sid).attrs → made.Agrees ws.attrs)
    (hset : ws.attributesSet = (s.session sid).attributesSet) :
    Carried ((s.setSession sid ws).setDisk d) made := by
  have hws : ((s.setSession sid ws).setDisk d).session sid = ws := update_self _ _ _
  exact hc.lateChange hl hh he rfl (by rw [hws]; exact hattrs) (by rw [hws]; exact hset) rfl rfl
    (.inl rfl)

theorem Carried.unlisted (hc : Carried s made) : Carried { s with listed := none } made :=
  ⟨nofun, nofun, hc.object, (fun _ _ _ _ h => nomatch h), hc.uploading, hc.finished, hc.undeleted,
    hc.btime⟩

theorem Carried.seeded {ws : WriteSession} (hc : Carried s made) (hl : s.listed = some sid)
    (hset : ws.attributesSet) (hagrees : made.Agrees ws.attrs) (hq : task.Quiet) :
    Carried ((s.setSession sid ws).goto t task) made := by
  have hsid : ∀ {i}, s.listed = some i → i = sid := fun hi => Option.some.inj (hi.symm.trans hl)
  have hws : (s.setSession sid ws).session sid = ws := update_self _ _ _
  have hc' : Carried (s.setSession sid ws) made := by
    refine ⟨?_, ?_, hc.object, ?_, hc.uploading, hc.finished, hc.undeleted, hc.btime⟩
    · intro i hi _
      obtain rfl := hsid hi
      rw [hws]
      exact hagrees
    · intro i hi hfalse
      obtain rfl := hsid hi
      rw [hws, hset] at hfalse
      exact nomatch hfalse
    · intro t' i attrs _ hi hfalse
      obtain rfl := hsid hi
      rw [hws, hset] at hfalse
      exact nomatch hfalse
  refine hc'.goto (hq.stands fun i _ hi hfalse => ?_)
  obtain rfl := hsid hi
  rw [hws, hset] at hfalse
  exact nomatch hfalse

theorem afterExists_quiet (fl : OpenFlags) (sid : Nat) : (afterExists fl sid).Quiet :=
  afterExists_at (P := Task.Quiet) ⟨rfl, rfl, rfl, rfl⟩ ⟨rfl, rfl, rfl, rfl⟩

theorem afterMissing_quiet (fl : OpenFlags) (sid : Nat) : (afterMissing fl sid).Quiet :=
  afterMissing_at (P := Task.Quiet) ⟨rfl, rfl, rfl, rfl⟩ (afterExists_quiet fl sid)

theorem afterSeed_quiet (fl : OpenFlags) (sid : Nat) : (afterSeed fl sid).Quiet := by
  unfold afterSeed
  split <;> exact ⟨rfl, rfl, rfl, rfl⟩

theorem persistIf_quiet {changed : Bool} (h : task.Quiet) : (persistIf changed sid task).Quiet := by
  unfold persistIf
  split
  · exact ⟨h.seeds, h.uploads, h.finishes, h.sawDelete⟩
  · exact h

theorem alike_setSession {ws : WriteSession} (hattrs : ws.attrs = (s.session sid).attrs)
    (hset : ws.attributesSet = (s.session sid).attributesSet)
    (hknown : ws.existenceKnown = (s.session sid).existenceKnown) : Alike s (s.setSession sid ws) := by
  refine ⟨rfl, ?_, rfl, rfl, rfl⟩
  intro i _
  by_cases hi : i = sid
  · subst hi
    simp only [State.setSession, update_self]
    exact ⟨hattrs, hset, hknown⟩
  · simp [State.setSession, update_of_ne hi]

theorem alike_releaseSession : Alike s s.releaseSession := by
  unfold State.releaseSession
  cases s.listed with
  | none => exact ⟨rfl, fun _ _ => ⟨rfl, rfl, rfl⟩, rfl, rfl, rfl⟩
  | some sid => exact alike_setSession rfl rfl rfl

theorem Carried.createSession {fl : OpenFlags} {pd sidecarOk : Bool} (hc : Carried s made)
    (hi : Intact s) (hl : s.listed = none) (hnone : ∀ t, (s.task t).discards = false)
    (hpd : pd = false) :
    Carried ((s.createSession sidecarOk).goto t (.opening fl (.flags pd s.nextSession))) made := by
  obtain ⟨hdata, _⟩ := hi.durable.bare hl hnone
  obtain ⟨last, hs⟩ := hi.safe
  have hclean : s.dirty = none := clean_of_unlisted hs hl
  have hfree : ∀ t', (s.task t').holds = none := hi.slot.unheld_of_none hl
  have hws : (s.createSession sidecarOk).session s.nextSession =
      (newWriteSession s.disk s.path sidecarOk).1 := update_self _ _ _
  have hknown : (newWriteSession s.disk s.path sidecarOk).1.existenceKnown = false := by
    simp [newWriteSession, WriteSession.existenceKnown, Disk.openOrCreate, hdata]
  have hc' : Carried (s.createSession sidecarOk) made := by
    refine ⟨?_, ?_, hc.object, ?_, hc.uploading, hc.finished, hc.undeleted, hc.btime⟩
    · intro i h hset
      obtain rfl := Option.some.inj h
      rw [hws] at hset
      cases hset
    · intro i h _ f v _
      obtain rfl := Option.some.inj h
      rw [hws]
      refine ⟨hknown, hclean, fun t' ht' => ?_⟩
      cases (hfree t').symm.trans ht'
    · intro t' i attrs hseeds
      cases (hfree t').symm.trans (holds_of_seeds hseeds)
  subst hpd
  exact hc'.moveEarly ⟨rfl, rfl, rfl, rfl⟩ rfl

theorem Carried.absent (hc : Carried s made) (hl : s.listed = some sid)
    (hset : (s.session sid).attributesSet = false) (ho : s.object = none) (f : Field) (v : f.Value) :
    made f ≠ some v := by
  intro hv
  obtain ⟨_, hd, _⟩ := hc.unseeded sid hl hset f v hv
  obtain ⟨o, hobj, _⟩ := hc.object hd f v hv
  exact nomatch ho.symm.trans hobj

theorem OpenStep.carried (h : OpenStep s t a s') (hi : Intact s) (hok : ChangesApart s (t, a))
    (hc : Carried s made) : Carried s' made := by
  have hlisted : ∀ {sid}, (s.task t).holds = some sid → s.listed = some sid :=
    fun h => listed_of_holds hi.slot h
  cases h with
  | begin ht _ => exact hc.moveFree ⟨rfl, rfl, rfl, hok.undeleted⟩ rfl
  | @acquire sid ht _ _ =>
    have hs : Alike s (s.setSession sid
        { s.session sid with refCount := (s.session sid).refCount + 1 }) :=
      alike_setSession rfl rfl rfl
    exact (hc.alike hs).moveEarly ⟨rfl, rfl, rfl, rfl⟩ rfl
  | @reuse fl pd sid ht hl =>
    have hs : Alike s (s.setSession sid
        { s.session sid with refCount := (s.session sid).refCount + 1 }) :=
      alike_setSession rfl rfl rfl
    have hs' : Alike s (s.reuseSession sid) := ⟨rfl, hs.session, rfl, rfl, rfl⟩
    have hpd := hc.undeleted t
    rw [ht] at hpd
    exact (hc.alike hs').moveEarly ⟨rfl, rfl, rfl, hpd⟩ rfl
  | create ht hl =>
    have hpd := hc.undeleted t
    rw [ht] at hpd
    exact hc.createSession hi hl (hok.orderly.2.2 rfl) hpd
  | @known fl pd sid ht hk =>
    refine hc.goto ((afterExists_quiet fl sid).stands fun i hh hl hset f v hv => ?_)
    rw [afterExists_holds] at hh
    obtain rfl := Option.some.inj hh
    exact nomatch hk.symm.trans (hc.unseeded sid hl hset f v hv).1
  | unknown ht _ =>
    have hpd := hc.undeleted t
    rw [ht] at hpd
    exact hc.moveEarly ⟨rfl, rfl, rfl, hpd⟩ rfl
  | @statFound fl sid o modTime atime mtime ht ho =>
    -- what `Stat` reports agrees with what is expected of the session
    have hagrees : s.listed = some sid → (s.session sid).attributesSet = false →
        made.Agrees (o.statAttributes modTime atime mtime) := by
      intro hl hset
      refine Expected.Agrees.stat (fun f v hv => ?_) hc.btime
      obtain ⟨_, hd, _⟩ := hc.unseeded sid hl hset f v hv
      obtain ⟨o', ho', hget⟩ := hc.object hd f v hv
      obtain rfl := Option.some.inj (ho.symm.trans ho')
      exact hget
    refine hc.goto ⟨fun _ _ _ _ _ _ _ => rfl, ?_, nofun, nofun, rfl⟩
    intro i attrs hs hl hset
    obtain ⟨rfl, rfl⟩ := Prod.mk.inj (Option.some.inj hs)
    exact hagrees hl hset
  | @statMissing fl pd sid ht ho =>
    have hpd : pd = false := by
      have := hc.undeleted t
      rw [ht] at this
      exact this
    have hnone : s.object = none := by
      rcases ho with ho | hpd'
      · exact ho
      · exact nomatch hpd.symm.trans hpd'
    refine hc.goto ((afterMissing_quiet fl sid).stands fun i hh hl hset f v hv => ?_)
    exact (hc.absent hl hset hnone f v hv).elim
  | statError ht _ | fetchAbandoned ht _ => exact hc.moveEarly ⟨rfl, rfl, rfl, rfl⟩ rfl
  | @statErrorTrunc fl pd sid ht _ =>
    refine hc.goto ((afterMissing_quiet fl sid).stands fun i hh hl hset f v hv => ?_)
    exact (hc.absent hl hset (hok.answered rfl) f v hv).elim
  | @seed fl sid attrs ht =>
    have hl : s.listed = some sid := hlisted (by rw [ht]; rfl)
    refine hc.seeded hl (seedAttributes_set attrs) ?_ (persistIf_quiet (afterSeed_quiet fl sid))
    cases hset : (s.session sid).attributesSet with
    | true =>
      rw [WriteSession.seedAttributes, if_pos hset]
      exact hc.session sid hl hset
    | false =>
      rw [WriteSession.seedAttributes, if_neg (by simp [hset])]
      exact hc.seeding t sid attrs (by rw [ht]; rfl) hl hset
  | prefetched ht _ => exact hc.moveLate rfl ht rfl ⟨rfl, rfl, rfl, rfl⟩ fun _ h => h
  | @fetched fl sid o ws d ht _ _ hp =>
    have hl : s.listed = some sid := hlisted (by rw [ht]; rfl)
    have hc' : Carried ((s.setSession sid ws).setDisk d) made :=
      hc.lateSession hl (by rw [ht]; rfl) (by rw [ht]; rfl)
        (fun h => (prefetch_attributes hp).1 ▸ h) (prefetch_attributes hp).2
    exact hc'.moveLate (s := s) rfl ht rfl ⟨rfl, rfl, rfl, rfl⟩ fun _ h => h
  | @fetchFailed fl sid body how ws d ht _ _ hp =>
    have hl : s.listed = some sid := hlisted (by rw [ht]; rfl)
    have hc' : Carried ((s.setSession sid ws).setDisk d) made :=
      hc.lateSession hl (by rw [ht]; rfl) (by rw [ht]; rfl)
        (fun h => (prefetch_attributes hp).1 ▸ h) (prefetch_attributes hp).2
    exact hc'.moveEarly ⟨rfl, rfl, rfl, rfl⟩ rfl
  | @creation fl sid now ht =>
    have hl : s.listed = some sid := hlisted (by rw [ht]; rfl)
    refine hc.seeded hl (setCreationIfUnset_set now fl.perm) ?_
      (persistIf_quiet (afterExists_quiet fl sid))
    cases hset : (s.session sid).attributesSet with
    | true =>
      rw [WriteSession.setCreationIfUnset, if_pos hset]
      exact hc.session sid hl hset
    | false =>
      intro f v hv
      exact (hc.late hl (t := t) (by rw [ht]; rfl) (by rw [ht]; rfl) hset hv).elim
  | @truncate fl sid ws d ht hw =>
    have hl : s.listed = some sid := hlisted (by rw [ht]; rfl)
    have hc' : Carried ((s.setSession sid ws).setDisk d) made :=
      hc.lateSession hl (by rw [ht]; rfl) (by rw [ht]; rfl)
        (fun h => (truncate_attributes hw).1 ▸ h) (truncate_attributes hw).2
    exact hc'.moveLate (s := s) rfl ht rfl ⟨rfl, rfl, rfl, rfl⟩ fun _ h => h
  | truncateFailed ht => exact hc.moveFree ⟨rfl, rfl, rfl, rfl⟩ rfl
  | refuseKept ht _ | release ht => exact (hc.alike alike_releaseSession).moveFree ⟨rfl, rfl, rfl, rfl⟩ rfl
  | refuseDiscard ht _ _ =>
    have hc' := hc.alike alike_releaseSession
    exact Carried.moveFree (s := { s.releaseSession with listed := none }) hc'.unlisted
      ⟨rfl, rfl, rfl, rfl⟩ rfl
  | @discardClose sid ht =>
    have hs : Alike s (s.setSession sid { s.session sid with file := none }) :=
      alike_setSession rfl rfl rfl
    exact (hc.alike hs).moveFree ⟨rfl, rfl, rfl, rfl⟩ rfl
  | discardData ht | discardSidecar ht =>
    exact Carried.moveFree (hc.alike ⟨rfl, fun _ _ => ⟨rfl, rfl, rfl⟩, rfl, rfl, rfl⟩)
      ⟨rfl, rfl, rfl, rfl⟩ rfl

theorem HandleStep.carried (h : HandleStep s t a s') (hi : Intact s) (hc : Carried s made) :
    Carried s' made := by
  cases h with
  | @write sid offset data ws d dropped ht hw =>
    have hl := listed_of_holds (t := t) hi.slot (by rw [ht]; rfl)
    have hc' : Carried ((s.setSession sid ws).setDisk d) made := by
      refine hc.lateSession hl (by rw [ht]; rfl) (by rw [ht]; rfl) ?_ (write_attributes hw).2
      intro h
      rw [(write_attributes hw).1]
      exact h.mtime
    refine hc'.moveLate (s := s) rfl ht rfl (persistIf_quiet ⟨rfl, rfl, rfl, rfl⟩) fun i h => ?_
    rw [persistIf_holds] at h
    exact h
  | @truncate sid size ws d ht hw =>
    have hl := listed_of_holds (t := t) hi.slot (by rw [ht]; rfl)
    have hc' : Carried ((s.setSession sid ws).setDisk d) made :=
      hc.lateSession hl (by rw [ht]; rfl) (by rw [ht]; rfl)
        (fun h => (truncate_attributes hw).1 ▸ h) (truncate_attributes hw).2
    exact hc'.moveLate (s := s) rfl ht rfl ⟨rfl, rfl, rfl, rfl⟩ fun _ h => h
  | close ht | closeReading ht =>
    exact (hc.alike alike_releaseSession).moveFree ⟨rfl, rfl, rfl, rfl⟩ rfl

theorem alike_metadataChanged (found : Option Nat) : Alike s (s.metadataChanged found) := by
  cases found with
  | none => exact ⟨rfl, fun _ _ => ⟨rfl, rfl, rfl⟩, rfl, rfl, rfl⟩
  | some sid => exact alike_setSession rfl rfl rfl

theorem Carried.markDirty (hc : Carried s made) (hl : s.listed = some sid)
    (hh : (s.task t).holds = some sid) (he : (s.task t).early = false) (entry : DirtyFileMetadata)
    (g : Nat) : Carried { s with dirty := some entry, generation := g } made :=
  hc.lateChange hl hh he rfl (fun h => h) rfl rfl rfl (.inr rfl)

theorem MarkStep.carried (h : MarkStep s t a s') (hi : Intact s) (hc : Carried s made) :
    Carried s' made := by
  have hlisted : ∀ {sid}, (s.task t).holds = some sid → s.listed = some sid :=
    fun h => listed_of_holds hi.slot h
  cases h with
  | again ht hm | recordedMeanwhile ht hm =>
    obtain ⟨_, _, _, rfl⟩ := markDirtyAgain_cases hm
    have hh := congrArg Task.holds ht
    exact (hc.markDirty (hlisted hh) hh (by rw [ht]; rfl) _ _).moveLate (s := s) rfl ht rfl
      ⟨rfl, rfl, rfl, rfl⟩ fun _ h => h
  | @record _ sid opens found attrs ht hm =>
    have hh := congrArg Task.holds ht
    have hdisk : Alike s (s.setDisk (s.disk.recordDirtyPath s.path attrs)) :=
      ⟨rfl, fun _ _ => ⟨rfl, rfl, rfl⟩, rfl, rfl, rfl⟩
    have hsame := alike_metadataChanged (s := s.setDisk (s.disk.recordDirtyPath s.path attrs)) found
    have htask : ((s.setDisk (s.disk.recordDirtyPath s.path attrs)).metadataChanged found).task
        = s.task := hsame.task
    have hc' := ((hc.alike hdisk).alike hsame).markDirty (t := t) (hsame.listed.trans (hlisted hh))
      (by rw [htask]; exact hh) (by rw [htask, ht]; rfl)
    exact (hc' _ _).moveLate (s := s) htask ht rfl ⟨rfl, rfl, rfl, rfl⟩ fun _ h => h
  | @recordFailed _ sid opens found attrs ht hm =>
    have hh := congrArg Task.holds ht
    refine (hc.markDirty (hlisted hh) hh (by rw [ht]; rfl) _ _).moveLate (s := s) rfl ht rfl ?_ ?_
    · split <;> exact ⟨rfl, rfl, rfl, rfl⟩
    · intro i h
      split at h <;> exact h
  | clean ht _ | lookup ht | attrs ht => exact hc.moveLate rfl ht rfl ⟨rfl, rfl, rfl, rfl⟩ fun _ h => h

theorem PersistStep.carried (h : PersistStep s t a s') (hc : Carried s made) : Carried s' made := by
  cases h with
  | copy ht =>
    refine hc.goto_base ?_
    rw [ht]
    split <;> rfl
  | @write sid next attrs state ht _ =>
    have hs : Alike s (s.setDisk
        (s.disk.writePathMetadataState { state with attributes := some attrs })) :=
      ⟨rfl, fun _ _ => ⟨rfl, rfl, rfl⟩, rfl, rfl, rfl⟩
    refine (hc.alike hs).goto_base ?_
    rw [hs.task, ht]
    rfl
  | skip ht =>
    refine hc.goto_base ?_
    rw [ht]
    rfl
  | @changed sid next ht =>
    have hs : Alike s (s.setSession sid (s.session sid).metadataChanged) :=
      alike_setSession rfl rfl rfl
    refine (hc.alike hs).goto_base ?_
    rw [hs.task, ht]
    rfl

theorem CommitStep.carried (h : CommitStep s t a s') (hc : Carried s made) : Carried s' made := by
  cases h with
  | @metadata sid version ht =>
    have hs : Alike s (s.commitPathMetadata sid) := by
      unfold State.commitPathMetadata
      split <;> split <;> exact ⟨rfl, fun _ _ => ⟨rfl, rfl, rfl⟩, rfl, rfl, rfl⟩
    exact (hc.alike hs).moveFree ⟨rfl, rfl, rfl, rfl⟩ rfl
  | @committed sid version ht =>
    have hs : Alike s (s.metadataCommitted sid version) := alike_setSession rfl rfl rfl
    exact (hc.alike hs).moveFree ⟨rfl, rfl, rfl, rfl⟩ rfl
  | _ => exact hc.moveFree ⟨rfl, rfl, rfl, rfl⟩ rfl

theorem Carried.uploadAttributes {snap : Snapshot} (hc : Carried s made) (hi : Intact s)
    (ht : s.task t = .syncing (.attributes snap)) : made.Agrees (s.session snap.sid).attrs := by
  obtain ⟨last, hs⟩ := hi.safe
  have hrole := sync_role hs ht
  have hl : s.listed = some snap.sid := listed_of_current hrole.2.2.1
  have hdirty : s.dirty.isSome := by
    rw [← view_dirty_isSome]
    exact hrole.2.1
  cases hset : (s.session snap.sid).attributesSet with
  | true => exact hc.session snap.sid hl hset
  | false =>
    intro f v hv
    rw [(hc.unseeded snap.sid hl hset f v hv).2.1] at hdirty
    exact nomatch hdirty

theorem SyncStep.carried (h : SyncStep s t a s') (hi : Intact s) (hc : Carried s made) :
    Carried s' made := by
  cases h with
  | statMissing ht _ | statFound ht _ | forget ht | recoverListed ht _ | recover ht _ => exact (hi.files.not_searching (t := t) (by rw [ht]; rfl)).elim
  | @snapshot sid generation file ht _ _ =>
    have hs : Alike s (s.setSession sid
        { s.session sid with uploadReaders := (s.session sid).uploadReaders + 1 }) :=
      alike_setSession rfl rfl rfl
    exact (hc.alike hs).moveFree ⟨rfl, rfl, rfl, rfl⟩ rfl
  | @attributes snap ht =>
    refine hc.goto ⟨nofun, nofun, ?_, nofun, rfl⟩
    intro attrs landed hu
    obtain ⟨rfl, rfl⟩ := Prod.mk.inj (Option.some.inj hu)
    exact ⟨hc.uploadAttributes hi ht, nofun⟩
  | @landed snap attrs before ht =>
    have hagrees : made.Agrees attrs := (hc.uploading t attrs before (by rw [ht]; rfl)).1
    have hobj : InObject { s with
        object := some ⟨s.snapshotBytes snap, encodePOSIXAttributes attrs⟩ } made :=
      fun f v hv => ⟨_, rfl, hagrees.encode f v hv⟩
    have hc' : Carried { s with
        object := some ⟨s.snapshotBytes snap, encodePOSIXAttributes attrs⟩ } made :=
      ⟨hc.session, hc.unseeded, fun _ => hobj, hc.seeding,
        fun t' attrs' landed hu => ⟨(hc.uploading t' attrs' landed hu).1, fun _ => hobj⟩,
        fun _ _ => hobj, hc.undeleted, hc.btime⟩
    refine hc'.goto ⟨nofun, nofun, ?_, nofun, rfl⟩
    intro attrs' landed hu
    obtain ⟨rfl, rfl⟩ := Prod.mk.inj (Option.some.inj hu)
    exact ⟨hagrees, fun _ => hobj⟩
  | @uploaded snap attrs ht =>
    refine hc.goto ⟨nofun, nofun, nofun, fun _ => ?_, rfl⟩
    exact (hc.uploading t attrs true (by rw [ht]; rfl)).2 rfl
  | @synced snap ht _ =>
    have hobj := hc.finished t (by rw [ht]; rfl)
    have hc' : Carried s.markClean made := by
      refine ⟨hc.session, ?_, fun _ => hobj, hc.seeding, hc.uploading, hc.finished, hc.undeleted,
        hc.btime⟩
      intro sid hl hset f v hv
      obtain ⟨hk, _, hearly⟩ := hc.unseeded sid hl hset f v hv
      exact ⟨hk, rfl, hearly⟩
    exact hc'.moveFree ⟨rfl, rfl, rfl, rfl⟩ rfl
  | cleanup ht _ =>
    have hs : Alike { s with listed := none } s.cleanupSynced :=
      ⟨rfl, fun _ _ => ⟨rfl, rfl, rfl⟩, rfl, rfl, rfl⟩
    exact (hc.unlisted.alike hs).moveFree ⟨rfl, rfl, rfl, rfl⟩ rfl
  | @closeRemoved snap ht =>
    have hs : Alike s (s.setSession snap.sid { s.session snap.sid with file := none }) :=
      alike_setSession rfl rfl rfl
    exact (hc.alike hs).moveFree ⟨rfl, rfl, rfl, rfl⟩ rfl
  | @close snap ht =>
    have hs : Alike s (s.closeSnapshot snap) := by
      unfold State.closeSnapshot
      split
      · exact alike_setSession rfl rfl rfl
      · exact ⟨rfl, fun _ _ => ⟨rfl, rfl, rfl⟩, rfl, rfl, rfl⟩
    exact (hc.alike hs).moveFree ⟨rfl, rfl, rfl, rfl⟩ rfl
  | _ =>
    exact Carried.moveFree (hc.alike ⟨rfl, fun _ _ => ⟨rfl, rfl, rfl⟩, rfl, rfl, rfl⟩)
      ⟨rfl, rfl, rfl, rfl⟩ rfl

/-! ## Changes under way -/

/-- The change a thread makes. -/
def AttrPc.update : AttrPc → AttributeUpdate
  | .lookup update | .apply _ _ update | .stat update | .head update | .put update _ => update

/-- A change that is making its calls on a session. -/
def AttrPc.applies : AttrPc → Bool
  | .apply _ _ _ => true
  | _ => false

/-- `made` and what has been reported: at most one change is under way, and what
it has still to set is all that `made` lacks. -/
structure Coherent (s : State) (made reported : Expected) : Prop where
  alone : ∀ t t' pc pc', (s.task t).change = some pc → (s.task t').change = some pc' → t = t'
  timed : ∀ t pc, (s.task t).change = some pc → pc.update.btime ≠ some 0
  calls : ∀ t sid todo update, (s.task t).change = some (.apply sid todo update) →
    ∀ call ∈ todo, (∃ uid gid, call = .owner uid gid) ∨ ∀ attrs, call.For update attrs
  rest : (∀ t pc, (s.task t).change = some pc → pc.applies = false) →
    ∀ f v, reported f = some v → made f = some v
  under : ∀ t sid todo update, (s.task t).change = some (.apply sid todo update) →
    ∀ f v, (reported.override update.get) f = some v →
      made f = some v ∨ f ∈ todo.flatMap Setter.fields ∧ update.get f = some v

theorem Coherent.of_change {reported : Expected} (hco : Coherent s made reported)
    (h : ∀ t, (s'.task t).change = (s.task t).change) : Coherent s' made reported := by
  refine ⟨?_, ?_, ?_, ?_, ?_⟩
  · intro t t'
    rw [h t, h t']
    exact hco.alone t t'
  · intro t
    rw [h t]
    exact hco.timed t
  · intro t
    rw [h t]
    exact hco.calls t
  · intro hnone
    refine hco.rest fun t => ?_
    rw [← h t]
    exact hnone t
  · intro t
    rw [h t]
    exact hco.under t

theorem Coherent.under_setter {reported : Expected} {call : Setter} {todo : List Setter}
    {update : AttributeUpdate} (hco : Coherent s made reported)
    (hpc : (s.task t).change = some (.apply sid (call :: todo) update)) {f : Field} {v : f.Value}
    (hv : (reported.override update.get) f = some v) : (made.set update.get call.fields) f = some v ∨
    f ∈ todo.flatMap Setter.fields ∧ update.get f = some v := by
  unfold Expected.set
  by_cases hf : f ∈ call.fields
  · left
    rw [if_pos hf]
    rcases override_eq_some hv with hu | ⟨hn, _⟩
    · rw [hu]
      rfl
    · rcases hco.under t _ _ _ hpc f v hv with hm | ⟨_, hu⟩
      · rw [hn, hm]
        rfl
      · exact nomatch hn.symm.trans hu
  · rw [if_neg hf]
    rcases hco.under t _ _ _ hpc f v hv with hm | ⟨hmem, hu⟩
    · exact .inl hm
    · rw [List.flatMap_cons, List.mem_append] at hmem
      exact .inr ⟨hmem.resolve_left hf, hu⟩

theorem change_of_holds (h : task.holds = some sid) : task.change = none := by
  rw [← holds_base] at h
  unfold Task.change
  split
  · rename_i hb
    rw [hb] at h
    exact nomatch h
  · rfl

theorem OpenStep.change_self (h : OpenStep s t a s') : (s'.task t).change = (s.task t).change := by
  have hleft : ∀ {old new : Task}, s.task t = old → old.change = none → new.change = none →
      new.change = (s.task t).change := by
    intro old new ht ho hn
    rw [ht, ho, hn]
  cases h with
  | known ht _ =>
    rw [goto_task_self]
    exact hleft ht rfl (change_of_holds (afterExists_holds _ _))
  | statMissing ht _ | statErrorTrunc ht _ =>
    rw [goto_task_self]
    exact hleft ht rfl (change_of_holds (afterMissing_holds _ _))
  | seed ht =>
    rw [goto_task_self]
    exact hleft ht rfl (change_of_holds ((persistIf_holds _ _ _).trans (afterSeed_holds _ _)))
  | creation ht =>
    rw [goto_task_self]
    exact hleft ht rfl (change_of_holds ((persistIf_holds _ _ _).trans (afterExists_holds _ _)))
  | _ =>
    rw [goto_task_self]
    exact hleft ‹s.task t = _› rfl rfl

theorem ActorStep.change_eq {actor : Actor} (h : ActorStep actor s t a s')
    (ha : actor ≠ .attributes) : ∀ t', (s'.task t').change = (s.task t').change := by
  intro t'
  by_cases htt : t' = t
  · subst htt
    cases h with
    | opens h => exact h.change_self
    | handles h =>
      cases h with
      | write ht _ =>
        rw [goto_task_self, ht]
        exact change_of_holds ((persistIf_holds _ _ _).trans rfl)
      | _ => rw [goto_task_self, ‹s.task t' = _›]; rfl
    | marks h =>
      cases h with
      | recordFailed ht _ =>
        rw [goto_task_self, ht]
        split <;> rfl
      | _ => rw [goto_task_self, ‹s.task t' = _›]; rfl
    | persists h =>
      cases h with
      | copy ht =>
        rw [goto_task_self, ht]
        split <;> rfl
      | _ => rw [goto_task_self, ‹s.task t' = _›]; rfl
    | syncs h | commits h => cases h <;> rw [goto_task_self, ‹s.task t' = _›] <;> rfl
    | attributes h => exact absurd rfl ha
  · rw [h.task_other htt]

theorem coherent_outside {reported : Expected} (hothers : ∀ t', t' ≠ t → (s.task t').change = none)
    (hself : ∀ pc, (s.task t).change = some pc → pc.update.btime ≠ some 0 ∧ pc.applies = false)
    (hrest : ∀ f v, reported f = some v → made f = some v) : Coherent s made reported := by
  have heq : ∀ {t' pc}, (s.task t').change = some pc → t' = t := by
    intro t' pc h
    by_contra hne
    exact nomatch (hothers t' hne).symm.trans h
  refine ⟨?_, ?_, ?_, fun _ => hrest, ?_⟩
  · intro t1 t2 _ _ h1 h2
    exact (heq h1).trans (heq h2).symm
  · intro t' pc h
    obtain rfl := heq h
    exact (hself pc h).1
  all_goals
    intro t' sid todo update h
    obtain rfl := heq h
    exact nomatch (hself _ h).2

theorem coherent_inside {reported : Expected} {todo : List Setter} {update : AttributeUpdate}
    (hothers : ∀ t', t' ≠ t → (s.task t').change = none)
    (hself : (s.task t).change = some (.apply sid todo update)) (hb : update.btime ≠ some 0)
    (hcalls : ∀ call ∈ todo, (∃ uid gid, call = .owner uid gid) ∨ ∀ attrs, call.For update attrs)
    (hunder : ∀ f v, (reported.override update.get) f = some v →
    made f = some v ∨ f ∈ todo.flatMap Setter.fields ∧ update.get f = some v) :
    Coherent s made reported := by
  have heq : ∀ {t' pc}, (s.task t').change = some pc → t' = t ∧ pc = .apply sid todo update := by
    intro t' pc h
    by_cases hne : t' = t
    · subst hne
      exact ⟨rfl, Option.some.inj (h.symm.trans hself)⟩
    · exact nomatch (hothers t' hne).symm.trans h
  refine ⟨?_, ?_, ?_, ?_, ?_⟩
  · intro t1 t2 _ _ h1 h2
    exact (heq h1).1.trans (heq h2).1.symm
  · intro t' pc h
    rw [(heq h).2]
    exact hb
  · intro t' _ _ _ h
    cases (heq h).2
    exact hcalls
  · intro hnone
    exact nomatch hnone t _ hself
  · intro t' _ _ _ h
    cases (heq h).2
    exact hunder

theorem Carried.setter {call : Setter} {update : AttributeUpdate} (hc : Carried s made)
    (hl : s.listed = some sid) (hd : s.dirty.isSome) (hset : (s.session sid).attributesSet)
    (hup : ∀ t, (s.task t).uploads = none ∧ (s.task t).finishes = false)
    (hfor : call.For update (s.session sid).attrs) (hr : call.reads = false)
    (hb : update.btime ≠ some 0) :
    Carried (s.setSession sid ((s.session sid).setAttributes (call.change (s.session sid).attrs)))
    (made.set update.get call.fields) := by
  have hsid : ∀ {i}, s.listed = some i → i = sid := fun hi => Option.some.inj (hi.symm.trans hl)
  refine ⟨?_, ?_, ?_, ?_, ?_, ?_, hc.undeleted, ?_⟩
  · intro i hi _
    obtain rfl := hsid hi
    simp only [State.setSession, update_self]
    exact (hc.session i hl hset).change hfor hr
  · intro i hi hfalse
    obtain rfl := hsid hi
    simp [State.setSession, WriteSession.setAttributes] at hfalse
  · intro hnone
    rw [show s.dirty = none from hnone] at hd
    cases hd
  · intro t i attrs _ hi hfalse
    obtain rfl := hsid hi
    simp [State.setSession, WriteSession.setAttributes] at hfalse
  · intro t attrs landed hu
    cases (hup t).1.symm.trans hu
  · intro t hf
    cases (hup t).2.symm.trans hf
  · intro h0
    rcases set_eq_some h0 with ⟨_, hu⟩ | ⟨_, hm⟩
    · exact hb hu
    · exact hc.btime hm

theorem listed_of_openSnapshot {snap : Snapshot} (hi : Intact s)
    (h : (s.task t).openSnapshot = some snap) : s.listed = some snap.sid := by
  obtain ⟨last, hs⟩ := hi.safe
  obtain ⟨landed, hr⟩ := role_of_openSnapshot s.disk.inode h
  have hrole := hs.roles t
  rw [view_role hr] at hrole
  exact listed_of_current hrole.2.2.1

theorem Intact.not_uploading (hi : Intact s) (hl : s.listed = none) (t : Nat) :
    (s.task t).uploads = none ∧ (s.task t).finishes = false := by
  have hnone : (s.task t).openSnapshot = none := by
    cases h : (s.task t).openSnapshot with
    | none => rfl
    | some snap => exact nomatch hl.symm.trans (listed_of_openSnapshot hi h)
  unfold Task.openSnapshot at hnone
  unfold Task.uploads Task.finishes
  split at hnone <;> simp_all

theorem Carried.put {update : AttributeUpdate} {o : Object} (hc : Carried s made) (hi : Intact s)
    (hl : s.listed = none) (ho : s.object = some o) (hb : update.btime ≠ some 0) :
    Carried
      { s with
        object := some { o with attributes := encodePOSIXAttributes (update.apply o.attributes) } }
      (made.override update.get) := by
  obtain ⟨last, hs⟩ := hi.safe
  have hagrees : made.Agrees o.attributes := by
    intro f v hv
    obtain ⟨o', ho', hget⟩ := hc.object (clean_of_unlisted hs hl) f v hv
    obtain rfl := Option.some.inj (ho.symm.trans ho')
    exact hget
  have hobj : InObject
      { s with
        object := some { o with attributes := encodePOSIXAttributes (update.apply o.attributes) } }
      (made.override update.get) :=
    fun f v hv => ⟨_, rfl, hagrees.apply.encode f v hv⟩
  refine ⟨?_, ?_, fun _ => hobj, ?_, ?_, fun _ _ => hobj, hc.undeleted, ?_⟩
  · intro i h
    exact nomatch hl.symm.trans h
  · intro i h
    exact nomatch hl.symm.trans h
  · intro t i attrs _ h
    exact nomatch hl.symm.trans h
  · intro t attrs landed hu
    exact nomatch (hi.not_uploading hl t).1.symm.trans hu
  · intro h0
    rcases override_eq_some h0 with hu | ⟨_, hm⟩
    · exact hb hu
    · exact hc.btime hm

theorem AttrStep.carried {reported : Expected} (h : AttrStep s t a s') (hi : Intact s)
    (hok : ChangesApart s (t, a)) (hc : Carried s made) (hco : Coherent s made reported) :
    ∃ made', Carried s' made' ∧ Coherent s' made' (reportedAfter reported a) := by
  -- once a thread is in a change, the others are not
  have hothers : ∀ {pc}, (s.task t).change = some pc → ∀ t', t' ≠ t → (s.task t').change = none := by
    intro pc hpc t' hne
    cases h' : (s.task t').change with
    | none => rfl
    | some pc' => exact absurd (hco.alone t' t pc' pc h' hpc) hne
  have hkept : ∀ {s1 : State} {task : Task}, s1.task = s.task → ∀ t', t' ≠ t →
      ((s1.goto t task).task t').change = (s.task t').change := by
    intro s1 task htask t' hne
    rw [← htask]
    exact congrArg Task.change (update_of_ne hne _ _)
  have hrest : ∀ {pc}, (s.task t).change = some pc → pc.applies = false →
      ∀ f v, reported f = some v → made f = some v := by
    intro pc hpc hne
    refine hco.rest fun t' pc' h' => ?_
    obtain rfl := hco.alone t' t _ pc h' hpc
    obtain rfl := Option.some.inj (hpc.symm.trans h')
    exact hne
  cases h with
  | @begin update ht =>
    obtain ⟨hb, hnone⟩ := hok.begun update rfl
    refine ⟨made, hc.moveFree ⟨rfl, rfl, rfl, rfl⟩ rfl, coherent_outside (t := t)
      (fun t' hne => (hkept rfl t' hne).trans (hnone t')) ?_ (hco.rest ?_)⟩
    · intro pc hpc
      rw [goto_task_self] at hpc
      obtain rfl := Option.some.inj hpc
      exact ⟨hb, rfl⟩
    · intro t' pc h'
      exact nomatch (hnone t').symm.trans h'
  | @staged sid update ht hl =>
    have hpc : (s.task t).change = some (.lookup update) := congrArg Task.change ht
    refine ⟨made, hc.moveFree ⟨rfl, rfl, rfl, rfl⟩ rfl, coherent_inside (t := t)
      (fun t' hne => (hkept rfl t' hne).trans (hothers hpc t' hne))
      (congrArg Task.change goto_task_self) (hco.timed t _ hpc)
      (fun call hcall => .inr (for_of_mem hcall)) ?_⟩
    intro f v hv
    rcases override_eq_some hv with hu | ⟨_, hr⟩
    · exact .inr ⟨mem_applyStagedUpdate hu, hu⟩
    · exact .inl (hrest hpc rfl f v hr)
  | @readOwner sid uid gid todo update ht =>
    have hpc : (s.task t).change = some (.apply sid (.readOwner uid gid :: todo) update) :=
      congrArg Task.change ht
    refine ⟨made, hc.moveFree ⟨rfl, rfl, rfl, rfl⟩ rfl, coherent_inside (t := t)
      (fun t' hne => (hkept rfl t' hne).trans (hothers hpc t' hne))
      (congrArg Task.change goto_task_self) (hco.timed t _ hpc) ?_ ?_⟩
    · intro call hcall
      rcases List.mem_cons.1 hcall with rfl | hmem
      · exact .inl ⟨_, _, rfl⟩
      · exact hco.calls t _ _ _ hpc call (List.mem_cons_of_mem _ hmem)
    · exact hco.under t sid (.readOwner uid gid :: todo) update hpc
  | @setter sid call todo update ht hr =>
    have hpc : (s.task t).change = some (.apply sid (call :: todo) update) :=
      congrArg Task.change ht
    obtain ⟨hl, hd, hset, hup⟩ := hok.staged sid call todo update ht
    have hfor : call.For update (s.session sid).attrs := by
      rcases hco.calls t _ _ _ hpc call List.mem_cons_self with ⟨uid, gid, rfl⟩ | hfor
      · exact hok.owner sid uid gid todo update ht
      · exact hfor _
    have hb : update.btime ≠ some 0 := hco.timed t _ hpc
    refine ⟨made.set update.get call.fields,
      (hc.setter hl hd hset hup hfor hr hb).moveFree ⟨rfl, rfl, rfl, rfl⟩ rfl,
      coherent_inside (t := t)
        (fun t' hne => (hkept rfl t' hne).trans (hothers hpc t' hne))
        (congrArg Task.change goto_task_self) hb ?_ fun f v hv => hco.under_setter hpc hv⟩
    intro call' hcall'
    exact hco.calls t _ _ _ hpc call' (List.mem_cons_of_mem _ hcall')
  | @stagedDone sid update ht =>
    have hpc : (s.task t).change = some (.apply sid [] update) := congrArg Task.change ht
    refine ⟨made, hc.moveFree ⟨rfl, rfl, rfl, rfl⟩ rfl, coherent_outside (t := t)
      (fun t' hne => (hkept rfl t' hne).trans (hothers hpc t' hne)) ?_ ?_⟩
    · intro pc hnew
      rw [goto_task_self] at hnew
      exact nomatch hnew
    · intro f v hv
      rcases hco.under t _ _ _ hpc f v hv with hm | ⟨hf, _⟩
      · exact hm
      · exact nomatch hf
  | @put update attrs o ht ho =>
    have hpc : (s.task t).change = some (.put update attrs) := congrArg Task.change ht
    obtain ⟨hl, o', ho', rfl⟩ := hok.unstaged update attrs rfl ht
    obtain rfl := Option.some.inj (ho.symm.trans ho')
    refine ⟨made.override update.get,
      (hc.put hi hl ho (hco.timed t _ hpc)).moveFree ⟨rfl, rfl, rfl, rfl⟩ rfl,
      coherent_outside (t := t)
        (fun t' hne => (hkept rfl t' hne).trans (hothers hpc t' hne)) ?_ ?_⟩
    · intro pc hnew
      rw [goto_task_self] at hnew
      exact nomatch hnew
    · intro f v hv
      rcases override_eq_some hv with hu | ⟨hn, hr⟩
      · simp [Expected.override, hu]
      · simp [Expected.override, hn, hrest hpc rfl f v hr]
  | @failed pc update ht hpc' =>
    have hpc : (s.task t).change = some pc := congrArg Task.change ht
    have hne : pc.applies = false := by
      rcases hpc' with rfl | rfl | ⟨_, rfl⟩ <;> rfl
    refine ⟨made, hc.moveFree ⟨rfl, rfl, rfl, rfl⟩ rfl, coherent_outside (t := t)
      (fun t' hne' => (hkept rfl t' hne').trans (hothers hpc t' hne')) ?_ (hrest hpc hne)⟩
    intro pc hnew
    rw [goto_task_self] at hnew
    exact nomatch hnew
  | @unstaged update ht _ | @stat update ht _ | @head update o ht _ =>
    have hb : update.btime ≠ some 0 := hco.timed t _ (congrArg Task.change ht)
    refine ⟨made, hc.moveFree ⟨rfl, rfl, rfl, rfl⟩ rfl, coherent_outside (t := t)
      (fun t' hne => (hkept rfl t' hne).trans (hothers (congrArg Task.change ht) t' hne)) ?_
      (hrest (congrArg Task.change ht) rfl)⟩
    intro pc hnew
    rw [goto_task_self] at hnew
    obtain rfl := Option.some.inj hnew
    exact ⟨hb, rfl⟩

/-! ## Runs -/

/-- The values made account for what has been reported. -/
def Traced (s : State) (reported : Expected) : Prop :=
  ∃ made, Carried s made ∧ Coherent s made reported

theorem ActorStep.reported_same {actor : Actor} (h : ActorStep actor s t a s')
    (ha : actor ≠ .attributes) (reported : Expected) : reportedAfter reported a = reported := by
  cases h with
  | opens h | handles h | marks h | persists h | syncs h | commits h => cases h <;> rfl
  | attributes h => exact absurd rfl ha

theorem Step.traced {actors : Actor → Prop} {e : Nat × Action} {reported : Expected}
    (h : Step actors s e s') (hi : Intact s) (hok : ChangesApart s e) (hm : Traced s reported) :
    Traced s' (reportedAfter reported e.2) := by
  obtain ⟨made, hc, hco⟩ := hm
  cases h with
  | elsewhere _ =>
    exact ⟨made, hc.alike ⟨rfl, fun _ _ => ⟨rfl, rfl, rfl⟩, rfl, rfl, rfl⟩,
      hco.of_change fun _ => rfl⟩
  | @actor actor _ _ t act _ h =>
    have hothers : actor ≠ .attributes → Carried s' made →
        Traced s' (reportedAfter reported act) := by
      intro ha hc'
      rw [h.reported_same ha]
      exact ⟨made, hc', hco.of_change (h.change_eq ha)⟩
    cases h with
    | opens h => exact hothers nofun (h.carried hi hok hc)
    | handles h | marks h | syncs h => exact hothers nofun (h.carried hi hc)
    | persists h | commits h => exact hothers nofun (h.carried hc)
    | attributes h => exact h.carried hi hok hc hco

theorem Init.traced (h : Init s) : Traced s .nothing := by
  have hidle := Init.task_idle h
  refine ⟨.nothing, ⟨fun _ _ _ => agrees_nothing _, (fun _ _ _ _ _ hv => nomatch hv),
    (fun _ _ _ hv => nomatch hv), fun _ _ _ _ _ _ => agrees_nothing _, ?_, ?_, ?_, nofun⟩, ?_⟩
  · intro t attrs landed hu
    rw [hidle t] at hu
    exact nomatch hu
  · intro t hf
    rw [hidle t] at hf
    exact nomatch hf
  · intro t
    rw [hidle t]
    rfl
  · refine coherent_outside (t := 0) (fun t _ => by rw [hidle t]; rfl) ?_ fun _ _ hv => hv
    intro pc hpc
    rw [hidle 0] at hpc
    exact nomatch hpc

theorem reach_traced {actors : Actor → Prop} {p : State × Expected}
    (hr : Reach (systemWithReported actors) (onState ChangesApart) p) : Traced p.1 p.2 := by
  refine reach_track_invariant (I := Traced) (J := Intact)
    (reach_intact fun _ _ hok => hok.orderly) (fun s hinit => Init.traced hinit) ?_ hr
  intro s e s' reported hi hm hok hstep
  exact hstep.traced hi hok hm

end

/-! ## Two runs -/

/-- A step whose label needs a look at the state. -/
def Action.opensChange : Action → Bool
  | .assumedAbsent | .attributesBegun _ => true
  | _ => false

/-- A thread about to set attributes. -/
def Task.calling : Task → Bool
  | .setting (.apply _ (_ :: _) _) | .setting (.put _ _) => true
  | _ => false

theorem apart_of {s : State} {t : Nat} {a : Action} (hord : Orderly s (t, a))
    (htomb : s.tombstone = false) (ha : a.opensChange = false)
    (ht : (s.task t).calling = false) : ChangesApart s (t, a) := by
  refine ⟨hord, htomb, ?_, ?_, ?_, ?_, ?_⟩
  · rintro rfl
    exact nomatch ha
  · rintro update rfl
    exact nomatch ha
  · intro _ _ _ _ htask
    rw [show s.task t = _ from htask] at ht
    exact nomatch ht
  · intro _ _ _ _ _ htask
    rw [show s.task t = _ from htask] at ht
    exact nomatch ht
  · intro _ _ _ htask
    rw [show s.task t = _ from htask] at ht
    exact nomatch ht

theorem apartNext {G : Type} {start : State → G} {upd : State → Nat × Action → State → G → G} {s s' : State} {g : G}
    {t : Nat} {a : Action} (h : Reach ((system everyone).track start upd) (onState ChangesApart) (s, g))
    (hs : Step everyone s (t, a) s') (hg : a.guarded = false := by rfl) (hd : s.tombstone = false := by rfl)
    (ha : a.opensChange = false := by rfl) (ht : (s.task t).calling = false := by rfl) :
    Reach ((system everyone).track start upd) (onState ChangesApart) (s', upd s (t, a) s' g) :=
  h.next' hs (apart_of (orderly_of hg) hd ha ht)

theorem apart_begun {s : State} {t : Nat} {update : AttributeUpdate} (htomb : s.tombstone = false)
    (ht : s.task t = .idle) (hb : update.btime ≠ some 0) (hnone : ∀ t, (s.task t).change = none) :
    ChangesApart s (t, .attributesBegun update) := by
  refine ⟨orderly_of rfl, htomb, (fun he => nomatch he), ?_, ?_, ?_, (fun _ _ he => nomatch he)⟩
  · intro update' he
    cases he
    exact ⟨hb, hnone⟩
  · intro _ _ _ _ htask
    exact nomatch ht.symm.trans htask
  · intro _ _ _ _ _ htask
    exact nomatch ht.symm.trans htask

theorem apart_mode {s : State} {t sid : Nat} {m : UInt32} {todo : List Setter} {update : AttributeUpdate}
    (htomb : s.tombstone = false) (ht : s.task t = .setting (.apply sid (.mode m :: todo) update))
    (hl : s.listed = some sid) (hd : s.dirty.isSome) (hset : (s.session sid).attributesSet)
    (hup : ∀ t, (s.task t).uploads = none ∧ (s.task t).finishes = false) :
    ChangesApart s (t, .setter) := by
  refine ⟨orderly_of rfl, htomb, (fun he => nomatch he), (fun _ he => nomatch he), ?_, ?_,
    (fun _ _ he => nomatch he)⟩
  · intro _ _ _ _ htask
    cases ht.symm.trans htask
    exact ⟨hl, hd, hset, hup⟩
  · intro _ _ _ _ _ htask
    cases ht.symm.trans htask

end Bluestone
