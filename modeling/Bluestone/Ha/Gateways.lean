/-
# `Bluestone.Ha.Gateways` — any number of gateways on one bucket

The gateways of one bucket as a labelled system.  Reading, writing and deleting
the lease are separate atomic steps; every request may fail, and a write or a
delete that fails may still have taken effect.

A gateway is a place where processes run one after the other: it starts, acquires
the lease, renews it from the heartbeat loop, releases it or crashes, and starts
again under a new holder id.  The marker file may change at any time, since
staging replication copies it.
-/
import Bluestone.Ha.Acquire

namespace Bluestone.Ha

open Cuts Runs

/-- Where a gateway stands.  The phases of `Acquire` are named for the request it
makes next. -/
inductive Phase
  | down
  | reading
  | writing
  | readingBack
  | marking
  /-- Serving, until the heartbeat's timer fires. -/
  | waiting
  /-- The heartbeat is about to write, after its read was answered like this. -/
  | renewing (answer : LeaseRead)
  /-- `Release` has stopped the heartbeat. -/
  | releasing
  | deleting
  deriving DecidableEq, Repr

structure Gateway where
  forceTakeover : Bool
  m : Manager
  phase : Phase
  deriving DecidableEq, Repr

/-- What a gateway does next, and what the bucket answers. -/
inductive Act
  | start (opts : Options) (holderID : String)
  | read (answered : Bool)
  | write (put : Put)
  | readBack (answered : Bool)
  | mark (written : Bool)
  | beat (answered : Bool)
  | renew (put : Put)
  | stop
  | check (answered : Bool)
  | delete (landed : Bool)
  | crash
  deriving DecidableEq, Repr

/-- `Release` leaves the lease of another gateway. -/
def Manager.keepsLease (m : Manager) : LeaseRead → Bool
  | .lease current => decide (current.holderID ≠ m.holderID)
  | _ => false

/-- One step of a gateway on the node `hostname`. -/
inductive Gateway.Step (hostname : String) (now : Int) :
    Gateway → Site → Act → Gateway → Site → Prop
  | start {f m s} (opts holderID) : Step hostname now ⟨f, m, .down⟩ s (.start opts holderID)
    ⟨opts.forceTakeover, newManager opts hostname holderID, .reading⟩ s
  | readRefused {f m s answered e} :
    m.afterRead f s.marker now (readLease answered s.object) = .error e →
    Step hostname now ⟨f, m, .reading⟩ s (.read answered) ⟨f, m, .down⟩ s
  | read {f m s answered epoch} : m.afterRead f s.marker now (readLease answered s.object) = .ok epoch →
    Step hostname now ⟨f, m, .reading⟩ s (.read answered) ⟨f, m.claim epoch now, .writing⟩ s
  | writeRefused {f m s put e} : (m.sending now).afterFirstWrite f s.marker now put = .error e →
    Step hostname now ⟨f, m, .writing⟩ s (.write put) ⟨f, m, .down⟩ (s.put put (m.sending now).lease)
  | write {f m s put m'} :
      (m.sending now).afterFirstWrite f s.marker now put = .ok m' →
      Step hostname now ⟨f, m, .writing⟩ s (.write put)
        ⟨f, m', if put = .ok then .readingBack else .marking⟩ (s.put put (m.sending now).lease)
  | standDown {f m s answered winner} : m.lostAcquireRace (readLease answered s.object) = some winner →
    Step hostname now ⟨f, m, .readingBack⟩ s (.readBack answered) ⟨f, m, .down⟩ s
  | readBack {f m s answered} : m.lostAcquireRace (readLease answered s.object) = none →
    Step hostname now ⟨f, m, .readingBack⟩ s (.readBack answered) ⟨f, m, .marking⟩ s
  | mark {f m s} (written) : Step hostname now ⟨f, m, .marking⟩ s (.mark written) ⟨f, m, .waiting⟩
    (s.mark written m.hostname)
  | taken {f m s answered l} : m.findsTaken (readLease answered s.object) = some l →
    Step hostname now ⟨f, m, .waiting⟩ s (.beat answered) ⟨f, m.reportLoss (.taken l), .waiting⟩ s
  | beat {f m s answered} : m.findsTaken (readLease answered s.object) = none →
    Step hostname now ⟨f, m, .waiting⟩ s (.beat answered)
    ⟨f, m, .renewing (readLease answered s.object)⟩ s
  | renew {f m s answer} (put) : Step hostname now ⟨f, m, .renewing answer⟩ s (.renew put)
    ⟨f, (m.sending now).afterWrite answer now put, .waiting⟩ (s.put put (m.sending now).lease)
  | stop {f m s} : Step hostname now ⟨f, m, .waiting⟩ s .stop ⟨f, m, .releasing⟩ s
  | keep {f m s answered} : m.keepsLease (readLease answered s.object) = true →
    Step hostname now ⟨f, m, .releasing⟩ s (.check answered) ⟨f, m, .down⟩ s
  | check {f m s answered} : m.keepsLease (readLease answered s.object) = false →
    Step hostname now ⟨f, m, .releasing⟩ s (.check answered) ⟨f, m, .deleting⟩ s
  | delete {f m s} (landed) :
      Step hostname now ⟨f, m, .deleting⟩ s (.delete landed) ⟨f, m, .down⟩
        { s with object := if landed then none else s.object }
  | crash {f m p s} : Step hostname now ⟨f, m, p⟩ s .crash ⟨f, m, .down⟩ s

/-! ## The system -/

/-- The bucket's lease, the nodes' markers and the gateways.  `I` names the
gateways. -/
structure World (I : Type) where
  now : Int
  object : Option Stored
  marker : I → Option String
  gateway : I → Gateway

inductive Event (I : Type)
  /-- Time passes. -/
  | tick (d : Nat)
  /-- A marker file is copied, or removed. -/
  | copyMarker (i : I) (marker : Option String)
  | act (i : I) (a : Act)

variable {I : Type} [DecidableEq I]

/-- What the gateway `i` sees. -/
def World.site (w : World I) (i : I) : Site := ⟨w.object, w.marker i⟩

/-- The world after a step of the gateway `i`. -/
def World.set (w : World I) (i : I) (g : Gateway) (s : Site) : World I :=
  { w with
    object := s.object
    marker := Function.update w.marker i s.marker
    gateway := Function.update w.gateway i g }

inductive World.Step (host : I → String) : World I → Event I → World I → Prop
  | tick {w} (d) : Step host w (.tick d) { w with now := w.now + d }
  | copyMarker {w} (i marker) : Step host w (.copyMarker i marker)
    { w with marker := Function.update w.marker i marker }
  | act {w i a g s} : Gateway.Step (host i) w.now (w.gateway i) (w.site i) a g s → Step host w (.act i a)
    (w.set i g s)

/-- The gateways of one bucket, on the nodes `host`, none of them started. -/
def gateways (host : I → String) : System (World I) (Event I) where
  init w := ∀ i, (w.gateway i).phase = .down
  step := World.Step host

/-! ## What a step changes -/

/-- The act is a `PutObject` of the lease. -/
def Act.writes : Act → Bool
  | .write _ => true
  | .renew _ => true
  | _ => false

/-- The act is a `PutObject` of the lease that takes effect. -/
def Act.lands : Act → Bool
  | .write put => put.lands
  | .renew put => put.lands
  | _ => false

section
variable {hostname : String} {now : Int} {g g' : Gateway} {s s' : Site} {a : Act}

theorem Gateway.Step.object_cases (h : Gateway.Step hostname now g s a g' s') :
    s'.object = s.object ∨ (g.phase = .deleting ∧ s'.object = none) ∨ (a.lands ∧
    s'.object = some (.lease (g.m.sending now).lease)) := by
  cases h with
  | writeRefused _ | write _ | renew put =>
    rw [Site.put_object]
    split
    · exact .inr (.inr ⟨‹_›, rfl⟩)
    · exact .inl rfl
  | delete landed =>
    cases landed with
    | false => exact .inl rfl
    | true => exact .inr (.inl ⟨rfl, rfl⟩)
  | mark written => cases written <;> exact .inl rfl
  | _ => exact .inl rfl

theorem Act.writes_of_lands (h : a.lands) : a.writes := by
  cases a <;> first | rfl | cases h

theorem Gateway.Step.phase_of_writes (h : Gateway.Step hostname now g s a g' s')
    (ha : a.writes) : g.phase = .writing ∨ ∃ answer, g.phase = .renewing answer := by
  cases h with
  | writeRefused _ | write _ => exact .inl rfl
  | renew put => exact .inr ⟨_, rfl⟩
  | _ => cases ha

end

section
variable {host : I → String} {w w' : World I} {i : I} {g g' : Gateway} {s s' : Site}

@[simp] theorem World.gateway_set_self : (w.set i g s).gateway i = g := by
  simp [World.set]

theorem World.gateway_set_of_ne {j : I} (h : j ≠ i) : (w.set i g s).gateway j = w.gateway j := by
  simp [World.set, h]

@[simp] theorem World.site_set_self : (w.set i g s).site i = s := by
  simp [World.set, World.site]

@[simp] theorem World.set_set : (w.set i g s).set i g' s' = w.set i g' s' := by
  simp [World.set]

theorem World.set_self : w.set i (w.gateway i) (w.site i) = w := by
  simp [World.set, World.site]

theorem World.Step.forall_gateway {P : Gateway → Prop} {e : Event I} (h : World.Step host w e w')
    (hstep : ∀ i a g s, e = .act i a → Gateway.Step (host i) w.now (w.gateway i) (w.site i) a g s →
    P (w.gateway i) → P g) (hP : ∀ i, P (w.gateway i)) : ∀ i, P (w'.gateway i) := by
  intro j
  cases h with
  | tick d | copyMarker i marker => exact hP j
  | act hact =>
    rename_i i a g s
    by_cases hj : j = i
    · subst hj
      rw [gateway_set_self]
      exact hstep j a g s rfl hact (hP j)
    · rw [gateway_set_of_ne hj]
      exact hP j

end

/-! ## `Acquire` as a run

A gateway that nobody interrupts goes through the steps of `acquire`. -/

section
variable {host : I → String} {w : World I} {i : I} {opts : Options} {holderID : String} {a : Answers}
  {m : Manager} {M : System (World I) (Event I)} {ok : World I → Event I → Prop}

/-- What a start that returned a manager went through after its read. -/
structure TookOver (opts : Options) (a : Answers) (m0 : Manager) (s : Site) (m : Manager) (s' : Site) :
    Prop where
  written : m0.afterFirstWrite opts.forceTakeover s.marker a.written a.put = .ok m
  own : a.put = .ok →
    m.lostAcquireRace (readLease a.readsBack (s.put a.put m0.lease).object) = none
  final : s' = (s.put a.put m0.lease).mark a.marks m.hostname

/-- Whatever a program that fails leaves behind. -/
def Returns {A : Type} (P : Site → Prop) (m : Program Site AcquireError A) (Q : A → Site → Prop) :
    Prop :=
  Triple P m Q (fun _ _ => True) (fun _ => True)

theorem Succeeds.returns {A : Type} {P : Site → Prop} {m : Program Site AcquireError A}
    {Q : A → Site → Prop} (h : Succeeds P m Q) : Returns P m Q :=
  h.conseq (fun _ h => h) (fun _ _ h => h) (fun _ _ h => h.elim)

theorem ofExcept_returns {A : Type} {r : Except AcquireError A} {s : Site} :
    Returns (fun s' => s' = s) (ofExcept r) (fun v s' => r = .ok v ∧ s' = s) := by
  cases r with
  | error e => exact .fail fun _ _ => ⟨trivial, trivial⟩
  | ok v => exact .done fun _ h => ⟨trivial, rfl, h⟩

theorem standDown_returns {m : Manager} {s : Site} : Returns (fun s' => s' = s) (standDown m a)
    (fun _ s' => (a.put = .ok → m.lostAcquireRace (readLease a.readsBack s.object) = none) ∧
    s' = s) := by
  refine .read ?_
  rintro s' rfl
  split
  · split
    · exact .fail fun _ _ => ⟨trivial, trivial⟩
    · exact .done fun _ h => ⟨trivial, fun hput => absurd hput ‹_›, h⟩
  · exact .done fun _ h => ⟨trivial, fun _ => ‹_›, h⟩

theorem takeOver_returns {m0 : Manager} {s : Site} :
    Returns (fun s' => s' = s) (takeOver m0 opts a) (TookOver opts a m0 s) := by
  refine .read ?_
  rintro s' rfl
  refine .bind putLease_succeeds.returns fun _ => .bind ofExcept_returns fun m => ?_
  refine .assume (fun _ h => h.1) fun hm => ?_
  refine .bind (standDown_returns.conseq (fun _ h => h.2) (fun _ _ h => h) (fun _ _ h => h)) fun _ => ?_
  refine .assume (fun _ h => h.1) fun hown => ?_
  refine .bind (writeLocalMarker_succeeds.returns.conseq (fun _ h => h.2) (fun _ _ h => h)
    (fun _ _ h => h)) fun _ => .done ?_
  rintro s rfl
  exact ⟨trivial, hm, hown, rfl⟩

theorem acquire_returns {hostname : String} {s : Site} : Returns (fun s' => s' = s)
    (acquire opts hostname holderID a) (fun m s' => ∃ epoch,
    (newManager opts hostname holderID).afterRead opts.forceTakeover s.marker a.now
    (readLease a.reads s.object) = .ok epoch ∧
    TookOver opts a (((newManager opts hostname holderID).claim epoch a.now).sending a.now) s m s') := by
  refine .read ?_
  rintro s' rfl
  refine .bind ofExcept_returns fun epoch => ?_
  refine .assume (fun _ h => h.1) fun hepoch => ?_
  exact takeOver_returns.conseq (fun _ h => h.2) (fun _ _ h => ⟨epoch, hepoch, h⟩) (fun _ _ h => h)

/-- The acts of `Acquire`. -/
def Act.acquires : Act → Bool
  | .start _ _ | .read _ | .write _ | .readBack _ | .mark _ => true
  | _ => false

theorem reach_act (hM : M.step = World.Step host) {g g' : Gateway} {s s' : Site} {a : Act}
    (h : Gateway.Step (host i) w.now g s a g' s') (hok : ok (w.set i g s) (.act i a))
    (hreach : Reach M ok (w.set i g s)) : Reach M ok (w.set i g' s') := by
  have hstep : World.Step host (w.set i g s) (.act i a) ((w.set i g s).set i g' s') := by
    refine .act ?_
    rw [World.gateway_set_self, World.site_set_self]
    exact h
  rw [World.set_set] at hstep
  exact hreach.next (hM ▸ hstep) hok

theorem acquire_reaches (hM : M.step = World.Step host) (hok : ∀ g s a, g.phase ≠ .deleting →
    a.acquires → ok (w.set i g s) (.act i a)) (hreach : Reach M ok w)
    (hdown : (w.gateway i).phase = .down) (hnow : a.now = w.now) (hwritten : a.written = w.now)
    (h : (acquire opts (host i) holderID a (w.site i)).result = .ok m) :
    Reach M ok (w.set i ⟨opts.forceTakeover, m, .waiting⟩
    (acquire opts (host i) holderID a (w.site i)).final) := by
  have hret : Returns (fun s' => s' = w.site i) (acquire opts (host i) holderID a) _ := acquire_returns
  obtain ⟨epoch, hepoch, hm, hown, hfinal⟩ := Triple.of_ok hret rfl h
  rw [hnow] at hepoch hm hown hfinal
  rw [hwritten] at hm
  have hstart : Reach M ok (w.set i
      ⟨opts.forceTakeover, newManager opts (host i) holderID, .reading⟩ (w.site i)) := by
    refine reach_act hM (g := w.gateway i) (s := w.site i) (a := .start opts holderID) ?_ (hok _ _ _ (by simp [hdown]) rfl) (by
      rwa [World.set_self])
    generalize w.gateway i = g at hdown
    obtain ⟨f, m', p⟩ := g
    obtain rfl : p = .down := hdown
    exact .start opts holderID
  have hwrite := reach_act hM (.write hm) (hok _ _ _ (by simp) rfl) (reach_act hM (.read hepoch) (hok _ _ _ (by simp) rfl) hstart)
  rw [hfinal]
  refine reach_act hM (.mark a.marks) (hok _ _ _ (by simp) rfl) ?_
  by_cases hput : a.put = .ok
  · rw [if_pos hput] at hwrite
    exact reach_act hM (.readBack (hown hput)) (hok _ _ _ (by simp) rfl) hwrite
  · rwa [if_neg hput] at hwrite

end

end Bluestone.Ha
