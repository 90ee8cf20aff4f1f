/-
# `Bluestone.Ha.Release` — what the delete of `Release` removes

`Release` reads the lease and leaves it alone when another gateway holds it.  The
check and the delete are two requests, so a takeover between them is deleted, and a
read that fails counts as leave to delete.
-/
import Bluestone.Ha.Fenced

namespace Bluestone.Ha

open Runs

variable {I : Type} [DecidableEq I] {host : I → String}

/-- The lease in the bucket, if there is one, is this gateway's. -/
def HoldsOnly (m : Manager) (object : Option Stored) : Prop :=
  ∀ l, object = some (.lease l) → l.holderID = m.holderID

/-- The check of a `Release` fails only where no other gateway's lease is stored, and
no lease is written while a `Release` stands between its check and its delete. -/
def ReleasedAlone (w : World I) : Event I → Prop
  | .act i (.check false) => HoldsOnly (w.gateway i).m w.object
  | .act _ a => a.lands = true → ∀ j, (w.gateway j).phase ≠ .deleting
  | _ => True

theorem holdsOnly_of_check {m : Manager} {object : Option Stored}
    (h : m.keepsLease (readLease true object) = false) : HoldsOnly m object := by
  rintro l rfl
  simpa [readLease, readStored, Manager.keepsLease] using h

/-- A gateway about to delete finds its own lease, or none. -/
def DeletesOwn (w : World I) : Prop :=
  ∀ i, (w.gateway i).phase = .deleting → HoldsOnly (w.gateway i).m w.object

theorem Gateway.Step.deleting {hostname : String} {now : Int} {g g' : Gateway} {s s' : Site} {a : Act}
    (h : Gateway.Step hostname now g s a g' s') (hphase : g'.phase = .deleting) :
    ∃ answered, a = .check answered ∧ g'.m = g.m ∧ s' = s ∧
    g.m.keepsLease (readLease answered s.object) = false := by
  cases h with
  | check hkeep => exact ⟨_, rfl, rfl, rfl, hkeep⟩
  | write _ =>
    dsimp only at hphase
    split at hphase <;> cases hphase
  | _ => cases hphase

omit [DecidableEq I] in
theorem ReleasedAlone.not_deleting {w : World I} {i : I} {a : Act} (h : ReleasedAlone w (.act i a))
    (ha : a.lands) (j : I) : (w.gateway j).phase ≠ .deleting := by
  cases a with
  | write put | renew put => exact h ha j
  | _ => cases ha

theorem DeletesOwn.act {w : World I} {i : I} {a : Act} {g : Gateway} {s : Site} (hw : DeletesOwn w)
    (hok : ReleasedAlone w (.act i a))
    (h : Gateway.Step (host i) w.now (w.gateway i) (w.site i) a g s) : DeletesOwn (w.set i g s) := by
  intro j hphase
  by_cases hj : j = i
  · subst hj
    rw [World.gateway_set_self] at hphase ⊢
    obtain ⟨answered, rfl, hm, rfl, hkeep⟩ := h.deleting hphase
    rw [hm]
    cases answered with
    | false => exact hok
    | true => exact holdsOnly_of_check hkeep
  · rw [World.gateway_set_of_ne hj] at hphase ⊢
    rcases h.object_cases with hsame | ⟨_, hnone⟩ | ⟨hlands, _⟩
    · intro l hl
      exact hw j hphase l (hsame.symm.trans hl)
    · intro l hl
      cases hnone.symm.trans hl
    · exact absurd hphase (hok.not_deleting hlands j)

theorem deletes_own {w : World I} (h : Reach (gateways host) ReleasedAlone w) : DeletesOwn w := by
  refine h.invariant (I := DeletesOwn) ?_ ?_
  · intro w hw i hphase
    rw [hw i] at hphase
    cases hphase
  · intro w e w' hI hok hstep
    cases hstep with
    | tick d | copyMarker i marker => exact hI
    | act hact => exact hI.act hok hact

/-- Where it is alone, no delete of a `Release` removes the lease of another gateway. -/
theorem release_deletes_own_lease (host : I → String) {w w' : World I} {i : I} {landed : Bool}
    (h : Reach (gateways host) ReleasedAlone w)
    (hdelete : World.Step host w (.act i (.delete landed)) w') {l : Lease}
    (hl : w.object = some (.lease l)) : l.holderID = (w.gateway i).m.holderID := by
  cases hdelete with
  | act hact =>
    refine deletes_own h i ?_ l hl
    generalize w.gateway i = g at hact
    cases hact
    rfl

/-! ## A standby's lease, deleted -/

/-- The second node has taken the lease over.  The first one shuts down; its check
fails, and it deletes the lease of the second. -/
theorem release_deletes_standby_lease : ∃ w w' : World Bool, Reach (gateways node) always w ∧
    World.Step node w (.act true (.delete true)) w' ∧
    w.object = some (.lease (started false 1 (60 * second)).lease) ∧
    (started false 1 (60 * second)).lease.holderID ≠ (w.gateway true).m.holderID ∧ w'.object = none := by
  have hreach : Reach (gateways node) always
      (promoted.set true (promoted.gateway true) (promoted.site true)) := by
    rw [World.set_self]
    exact promoted_reached (fun _ _ _ _ => trivial) (fun _ _ => trivial)
  have hstop : Reach (gateways node) always
      (promoted.set true ⟨false, started true 0 0, .releasing⟩ (promoted.site true)) :=
    reach_act rfl .stop trivial hreach
  have hunread : (started true 0 0).keepsLease (readLease false (promoted.site true).object) = false :=
    rfl
  refine ⟨_, _, reach_act rfl (.check hunread) trivial hstop, .act (.delete true), ?_, ?_, rfl⟩
  all_goals decide +kernel

theorem serving_reached_alone : Reach (gateways node) ReleasedAlone serving := by
  have hidle : Reach (gateways node) ReleasedAlone idle := .init fun _ => rfl
  refine startNode_reached ?_ hidle rfl (by decide +kernel)
  intro g s a hphase ha
  have hnone : ∀ j, ((idle.set true g s).gateway j).phase ≠ .deleting := by
    intro j
    cases j with
    | false => exact nofun
    | true => exact hphase
  cases a with
  | check answered => cases ha
  | _ => exact fun _ => hnone

/-- A gateway alone releases its own lease. -/
theorem serving_release_deletes_own : ∃ w w' : World Bool, Reach (gateways node) ReleasedAlone w ∧
    World.Step node w (.act true (.delete true)) w' ∧ w.object = some (.lease (started true 0 0).lease) ∧
    (started true 0 0).lease.holderID = (w.gateway true).m.holderID := by
  have hreach : Reach (gateways node) ReleasedAlone
      (serving.set true (serving.gateway true) (serving.site true)) := by
    rw [World.set_self]
    exact serving_reached_alone
  have hstop : Reach (gateways node) ReleasedAlone
      (serving.set true ⟨false, started true 0 0, .releasing⟩ (serving.site true)) :=
    reach_act rfl .stop nofun hreach
  have hown : (started true 0 0).keepsLease (readLease true (serving.site true).object) = false := by
    decide +kernel
  have hchecked := reach_act rfl (.check hown) nofun hstop
  have hobj : (serving.site true).object = some (.lease (started true 0 0).lease) := by decide +kernel
  have hdelete : World.Step node _ (.act true (.delete true)) _ :=
    .act (w := serving.set true ⟨false, started true 0 0, .deleting⟩ (serving.site true)) (.delete true)
  exact ⟨_, _, hchecked, hdelete, hobj, release_deletes_own_lease node hchecked hdelete hobj⟩

end Bluestone.Ha
