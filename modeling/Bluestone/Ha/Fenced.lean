/-
# `Bluestone.Ha.Fenced` — what a gateway writes after it reported the loss

`reportLoss` tells the application once; the heartbeat loop goes on.  A read that
shows another's lease keeps it from writing, but a read that fails, or that finds
no lease or its own, does not: the next write puts the lease of the fenced gateway
back.  While every lease read of a fenced gateway shows another's lease, a fenced
gateway writes nothing.
-/
import Bluestone.Ha.Gateways

namespace Bluestone.Ha

open Runs

variable {I : Type} [DecidableEq I] {host : I → String}

/-- A heartbeat of a gateway that has reported its loss has its read answered, with
the lease of a gateway that took over. -/
def ShownTaken (w : World I) : Event I → Prop
  | .act i (.beat answered) => (w.gateway i).m.lost ≠ none →
      ∃ l, answered = true ∧ w.object = some (.lease l) ∧ (w.gateway i).m.takenBy l = true
  | _ => True

/-- The phases from which the gateway goes on to write the lease or has just written
it. -/
def Phase.writes : Phase → Bool
  | .reading | .writing | .readingBack | .marking | .renewing _ => true
  | _ => false

/-- A gateway that goes on to write the lease has reported no loss. -/
def Gateway.Unfenced (g : Gateway) : Prop := g.phase.writes = true → g.m.lost = none

theorem Manager.lost_afterFirstWrite {m m' : Manager} {force : Bool} {marker : Option String} {now : Int}
    {put : Put} (h : m.afterFirstWrite force marker now put = .ok m') : m'.lost = m.lost := by
  cases put with
  | ok => cases h; rfl
  | quota | failed landed =>
    simp only [Manager.afterFirstWrite] at h
    split at h <;> cases h
    rfl

theorem Manager.findsTaken_stored {m : Manager} {l : Lease} (h : m.takenBy l) :
    m.findsTaken (readLease true (some (.lease l))) = some l := by
  exact if_pos h

theorem Gateway.Unfenced.step {hostname : String} {now : Int} {g g' : Gateway} {s s' : Site} {a : Act}
    (h : Gateway.Step hostname now g s a g' s') (hg : g.Unfenced)
    (hbeat : ∀ answered, a = .beat answered → g.m.lost ≠ none → ∃ l, answered ∧
    s.object = some (.lease l) ∧ g.m.takenBy l) : g'.Unfenced := by
  cases h with
  | start opts holderID => exact fun _ => rfl
  | read _ | readBack _ => exact fun _ => hg rfl
  | write hm => exact fun _ => (Manager.lost_afterFirstWrite hm).trans (hg rfl)
  | beat hnone =>
    intro _
    by_contra hlost
    obtain ⟨l, rfl, hobj, htaken⟩ := hbeat _ rfl hlost
    rw [hobj, Manager.findsTaken_stored htaken] at hnone
    cases hnone
  | _ => exact nofun

theorem gateway_unfenced {w : World I} (h : Reach (gateways host) ShownTaken w) :
    ∀ i, (w.gateway i).Unfenced := by
  refine h.invariant (I := fun w => ∀ i, (w.gateway i).Unfenced) ?_ ?_
  · intro w hw i hphase
    rw [hw i] at hphase
    cases hphase
  · intro w e w' hI hok hstep
    refine hstep.forall_gateway ?_ hI
    intro i a g s he hact hg
    refine hg.step hact ?_
    rintro answered rfl
    rw [he] at hok
    exact hok

/-- While the reads of fenced gateways show them another's lease, no gateway that
reported a loss writes the lease, and a lease that comes to be in the bucket is that
of a gateway that has reported none. -/
theorem fenced_gateway_never_writes (host : I → String) {w : World I}
    (h : Reach (gateways host) ShownTaken w) : (∀ i a w', World.Step host w (.act i a) w' →
    a.writes = true → (w.gateway i).m.lost = none) ∧ (∀ e w' l, World.Step host w e w' →
    w'.object = some (.lease l) → w.object ≠ some (.lease l) →
    ∃ i, l = ((w.gateway i).m.sending w.now).lease ∧ (w.gateway i).m.lost = none) := by
  have hwrites : ∀ i a w', World.Step host w (.act i a) w' → a.writes →
      (w.gateway i).m.lost = none := by
    intro i a w' hstep ha
    cases hstep with
    | act hact =>
      refine gateway_unfenced h i ?_
      rcases hact.phase_of_writes ha with hp | ⟨answer, hp⟩ <;> rw [hp] <;> rfl
  refine ⟨hwrites, ?_⟩
  intro e w' l hstep hobj hnew
  cases hstep with
  | tick d | copyMarker i marker => exact absurd hobj hnew
  | act hact =>
    rename_i i a g s
    rcases hact.object_cases with hsame | ⟨_, hnone⟩ | ⟨hlands, hput⟩
    · exact absurd (hsame.symm.trans hobj) hnew
    · cases hnone.symm.trans hobj
    · refine ⟨i, ?_, hwrites i a _ (.act hact) (Act.writes_of_lands hlands)⟩
      cases hput.symm.trans hobj
      rfl

/-! ## A lease that comes back -/

/-- Two nodes. -/
def node : Bool → String
  | true => "gw-a"
  | false => "gw-b"

/-- Every request of the start succeeds at once. -/
def prompt (now : Int) : Answers := ⟨now, true, .ok, now, true, true⟩

/-- The manager of a node whose start succeeded at once. -/
def started (b : Bool) (epoch : UInt64) (now : Int) : Manager :=
  ((newManager {} (node b) (newHolderID (node b) 1 [])).claim epoch now)

def idle : World Bool := ⟨0, none, fun _ => none, fun _ => ⟨false, newManager {} "" "", .down⟩⟩

/-- A node starts, with nothing in its way. -/
def World.startNode (w : World Bool) (b : Bool) (epoch : UInt64) : World Bool :=
  w.set b ⟨false, started b epoch w.now, .waiting⟩
    (acquire {} (node b) (newHolderID (node b) 1 []) (prompt w.now) (w.site b)).final

variable {ok : World Bool → Event Bool → Prop}

theorem startNode_reached {w : World Bool} {b : Bool}
    {epoch : UInt64} (hok : ∀ g s a, g.phase ≠ .deleting → a.acquires → ok (w.set b g s)
    (.act b a)) (hreach : Reach (gateways node) ok w) (hdown : (w.gateway b).phase = .down)
    (h : (acquire {} (node b) (newHolderID (node b) 1 []) (prompt w.now) (w.site b)).result =
    .ok (started b epoch w.now)) : Reach (gateways node) ok (w.startNode b epoch) :=
  acquire_reaches rfl hok hreach hdown rfl rfl h

/-- The first node has the lease. -/
def serving : World Bool := idle.startNode true 0

/-- It has not renewed it for a minute. -/
def expired : World Bool := { serving with now := serving.now + (60000000000 : Nat) }

/-- The second node has taken it over. -/
def promoted : World Bool := expired.startNode false 1

theorem promoted_reached (hok : ∀ w i a, a.acquires →
    ok w (.act i a)) (htick : ∀ w d, ok w (.tick d)) : Reach (gateways node) ok promoted := by
  have hidle : Reach (gateways node) ok idle := .init fun _ => rfl
  have hserving : Reach (gateways node) ok serving :=
    startNode_reached (fun _ _ a _ => hok _ true a) hidle rfl (by decide +kernel)
  have hexpired : Reach (gateways node) ok expired := hserving.next (.tick _) (htick _ _)
  exact startNode_reached (fun _ _ a _ => hok _ false a) hexpired rfl (by decide +kernel)

/-- The first node, told of the second. -/
def fenced : Manager := (started true 0 0).reportLoss (.taken (started false 1 (60 * second)).lease)

theorem fenced_reached (hok : ∀ w i a, a.acquires →
    ok w (.act i a)) (htick : ∀ w d, ok w (.tick d)) (hbeat : ok promoted (.act true (.beat true))) :
    Reach (gateways node) ok (promoted.set true ⟨false, fenced, .waiting⟩ (promoted.site true)) := by
  have hfound : (started true 0 0).findsTaken (readLease true (promoted.site true).object) =
      some (started false 1 (60 * second)).lease := by decide +kernel
  have hself : promoted.set true (promoted.gateway true) (promoted.site true) = promoted :=
    World.set_self
  refine reach_act rfl (g := promoted.gateway true) (.taken hfound) ?_ ?_
  · rw [hself]
    exact hbeat
  · rw [hself]
    exact promoted_reached hok htick

/-- The first node has reported that its lease was taken.  Its next read fails, and
it writes its lease over that of the second. -/
theorem fenced_gateway_writes_again : ∃ w w' : World Bool, Reach (gateways node) always w ∧
    World.Step node w (.act true (.renew .ok)) w' ∧
    (w.gateway true).m.lost = some (.taken (started false 1 (60 * second)).lease) ∧
    w.object = some (.lease (started false 1 (60 * second)).lease) ∧
    w'.object = some (.lease ((started true 0 0).sending (60 * second)).lease) := by
  have hunread : fenced.findsTaken (readLease false (promoted.site true).object) = none := rfl
  have hfenced : Reach (gateways node) always _ :=
    fenced_reached (fun _ _ _ _ => trivial) (fun _ _ => trivial) trivial
  refine ⟨_, _, reach_act rfl (.beat hunread) trivial hfenced, .act (.renew .ok), rfl, ?_, ?_⟩
  all_goals decide +kernel

/-- Right after its report the first node is fenced. -/
theorem reported_gateway_never_writes : Reach (gateways node) ShownTaken
    (promoted.set true ⟨false, fenced, .waiting⟩ (promoted.site true)) ∧ fenced.lost ≠ none ∧
    ∀ i a w', World.Step node (promoted.set true ⟨false, fenced, .waiting⟩ (promoted.site true))
    (.act i a) w' → a.writes = true →
    ((promoted.set true ⟨false, fenced, .waiting⟩ (promoted.site true)).gateway i).m.lost = none := by
  have hreach : Reach (gateways node) ShownTaken
      (promoted.set true ⟨false, fenced, .waiting⟩ (promoted.site true)) := by
    refine fenced_reached ?_ (fun _ _ => trivial) (fun hlost => absurd rfl hlost)
    intro w i a ha
    cases a with
    | beat answered => cases ha
    | _ => trivial
  exact ⟨hreach, by decide +kernel, (fenced_gateway_never_writes node hreach).1⟩

end Bluestone.Ha
