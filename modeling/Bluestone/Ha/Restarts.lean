/-
# `Bluestone.Ha.Restarts` — a node and its own old lease

On one node gateways crash and start again, and the lease in the bucket may be that
of an earlier one.  `takenBy` tells it from a takeover by its epoch: a start that
has read the old lease goes on from its epoch, so the old one is smaller.  A start
that could not read it begins at epoch 1, and the old lease is then no smaller; it
is harmless only if the first write takes effect.
-/
import Bluestone.Ha.Gateways

namespace Bluestone.Ha

open Runs

/-- The gateways of one node, one after the other, on a bucket whose lease, if there
is one, was written by that node. -/
def oneNode (hostname : String) : System (World Unit) (Event Unit) where
  init w := (w.gateway ()).phase = .down ∧ (w.gateway ()).m.lost = none ∧
    ∀ l, w.object = some (.lease l) → l.hostname = hostname
  step := World.Step fun _ => hostname

/-- A start at epoch 1, which found no lease or could not read it, has its first
write take effect where a lease is stored; and no lease that is read has the last
epoch. -/
def FirstWriteLands (w : World Unit) : Event Unit → Prop
  | .act i (.read true) => (w.gateway i).phase = .reading →
      ∀ l, w.object = some (.lease l) → l.epoch + 1 ≠ 0
  | .act i (.write put) => (w.gateway i).m.lease.epoch = 1 →
      put.lands = true ∨ ∀ l, w.object ≠ some (.lease l)
  | _ => True

/-! ## What the manager keeps -/

/-- The same identity and the same claim. -/
structure Manager.SameClaim (m m' : Manager) : Prop where
  holderID : m'.holderID = m.holderID
  hostname : m'.hostname = m.hostname
  leaseHolder : m'.lease.holderID = m.lease.holderID
  leaseHost : m'.lease.hostname = m.lease.hostname
  epoch : m'.lease.epoch = m.lease.epoch

/-- No loss was reported with the reason that the lease was taken. -/
def Manager.Untaken (m : Manager) : Prop := ∀ l, m.lost ≠ some (.taken l)

theorem Manager.SameClaim.refl (m : Manager) : m.SameClaim m := ⟨rfl, rfl, rfl, rfl, rfl⟩

theorem Manager.reportLoss_sameClaim (m : Manager) (loss : LeaseLoss) :
    m.SameClaim (m.reportLoss loss) := by
  rw [Manager.reportLoss]
  split <;> exact ⟨rfl, rfl, rfl, rfl, rfl⟩

variable {m : Manager} {hostname : String}

theorem Manager.Untaken.failing (h : m.Untaken) (now : Int) : (m.failing now).Untaken := by
  rw [Manager.failing]
  split
  · rw [Manager.reportLoss]
    split
    · exact h
    · exact nofun
  · exact h

theorem Manager.failing_sameClaim (m : Manager) (now : Int) : m.SameClaim (m.failing now) := by
  rw [Manager.failing]
  split
  · exact m.reportLoss_sameClaim _
  · exact .refl m

theorem Manager.afterWrite_keeps (m : Manager) (answer : LeaseRead) (now : Int) (put : Put) :
    m.SameClaim (m.afterWrite answer now put) ∧ (m.Untaken → (m.afterWrite answer now put).Untaken) := by
  cases put with
  | ok => exact ⟨⟨rfl, rfl, rfl, rfl, rfl⟩, id⟩
  | quota =>
    rw [Manager.afterWrite]
    split
    · exact ⟨m.failing_sameClaim now, fun h => h.failing now⟩
    · exact ⟨⟨rfl, rfl, rfl, rfl, rfl⟩, id⟩
  | failed landed => exact ⟨m.failing_sameClaim now, fun h => h.failing now⟩

theorem Manager.afterFirstWrite_keeps {m' : Manager} {force : Bool} {marker : Option String}
    {now : Int} {put : Put} (h : m.afterFirstWrite force marker now put = .ok m') :
    m.SameClaim m' ∧ (m.Untaken → m'.Untaken) := by
  cases put with
  | ok =>
    cases h
    exact ⟨⟨rfl, rfl, rfl, rfl, rfl⟩, id⟩
  | quota | failed landed =>
    simp only [Manager.afterFirstWrite] at h
    split at h <;> cases h
    exact ⟨.refl _, id⟩

/-! ## The lease in the bucket -/

/-- The stored lease, if there is one, satisfies `P`. -/
def StoredLease (object : Option Stored) (P : Lease → Prop) : Prop :=
  ∀ l, object = some (.lease l) → P l

/-- The gateway has made its claim, as a node of this name. -/
structure Manager.Claims (m : Manager) (hostname : String) : Prop where
  host : m.hostname = hostname
  leaseHolder : m.lease.holderID = m.holderID
  leaseHost : m.lease.hostname = hostname

/-- What holds of the manager and the stored lease in each phase. -/
def Manager.Stands (m : Manager) (hostname : String) (object : Option Stored) : Phase → Prop
  | .down => True
  | .reading => m.hostname = hostname
  | .writing => m.Claims hostname ∧
      StoredLease object fun l => m.lease.epoch = 1 ∨ l.epoch < m.lease.epoch
  | .readingBack | .marking | .waiting | .renewing _ => m.Claims hostname ∧
      StoredLease object fun l => l.holderID = m.holderID ∨ l.epoch < m.lease.epoch
  | .releasing | .deleting => True

structure OwnLease (hostname : String) (g : Gateway) (object : Option Stored) : Prop where
  ofNode : StoredLease object fun l => l.hostname = hostname
  untaken : g.m.Untaken
  stands : g.m.Stands hostname object g.phase

theorem Manager.findsTaken_own {answered : Bool} {object : Option Stored} (hm : m.Claims hostname)
    (hnode : StoredLease object fun l => l.hostname = hostname)
    (hold : StoredLease object fun l => l.holderID = m.holderID ∨ l.epoch < m.lease.epoch) :
    m.findsTaken (readLease answered object) = none := by
  cases answered with
  | false => rfl
  | true =>
    match object with
    | none => rfl
    | some .corrupt => rfl
    | some (.lease l) =>
      refine if_neg ?_
      have hhost : l.hostname = m.hostname := (hnode l rfl).trans hm.host.symm
      rcases hold l rfl with hid | hepoch
      · simp [Manager.takenBy, hid]
      · simp [Manager.takenBy, hhost, hepoch]

theorem Manager.Claims.of_sameClaim {m' : Manager} (h : m.Claims hostname)
    (hs : m.SameClaim m') : m'.Claims hostname :=
  ⟨hs.hostname.trans h.host, hs.leaseHolder.trans (h.leaseHolder.trans hs.holderID.symm),
    hs.leaseHost.trans h.leaseHost⟩

theorem Manager.Claims.sending (h : m.Claims hostname) (now : Int) : (m.sending now).Claims hostname :=
  ⟨h.host, h.leaseHolder, h.leaseHost⟩

section
variable {m m' : Manager} {hostname : String} {now : Int} {s : Site} {put : Put}

theorem ofNode_put (hm : m.Claims hostname) (h : StoredLease s.object fun l => l.hostname = hostname) :
    StoredLease (s.put put (m.sending now).lease).object fun l => l.hostname = hostname := by
  rw [Site.put_object]
  split
  · rintro l ⟨⟩
    exact hm.leaseHost
  · exact h

/-- A write that takes effect leaves this gateway's lease, and one that does not
leaves what was there. -/
theorem older_put (hm : m.Claims hostname) (hs : (m.sending now).SameClaim m') (h : put.lands ∨
    StoredLease s.object fun l => l.holderID = m.holderID ∨ l.epoch < m.lease.epoch) :
    StoredLease (s.put put (m.sending now).lease).object fun l =>
    l.holderID = m'.holderID ∨ l.epoch < m'.lease.epoch := by
  rw [Site.put_object]
  split
  · rintro l ⟨⟩
    exact .inl (hm.leaseHolder.trans hs.holderID.symm)
  · intro l hl
    rcases h with hlands | hold
    · exact absurd hlands ‹_›
    · rw [hs.holderID, hs.epoch]
      exact hold l hl

theorem epoch_lt_next {n : UInt64} (h : n + 1 ≠ 0) : n < n + 1 := by
  have hnat : (n + 1).toNat ≠ 0 := fun h0 => h (UInt64.toNat_inj.1 h0)
  have hlt := n.toNat_lt
  rw [UInt64.lt_iff_toNat_lt]
  rw [UInt64.toNat_add] at hnat ⊢
  have hone : (1 : UInt64).toNat = 1 := rfl
  omega

theorem epoch_of_failed {f : Bool} {marker : Option String} {epoch : UInt64}
    (h : m.afterRead f marker now .failed = .ok epoch) : epoch = 0 := by
  rw [Manager.afterRead] at h
  split at h <;> cases h
  rfl

theorem epoch_of_lease {f : Bool} {marker : Option String} {epoch : UInt64} {l : Lease}
    (h : m.afterRead f marker now (.lease l) = .ok epoch) : epoch = l.epoch := by
  rw [Manager.afterRead] at h
  split at h <;> cases h
  rfl

/-- The claim that follows the read is newer than the lease in the bucket, or is
the claim of a start that read none. -/
theorem claim_stands {f answered : Bool} {epoch : UInt64} (hm : m.hostname = hostname)
    (hread : m.afterRead f s.marker now (readLease answered s.object) = .ok epoch)
    (hlast : answered → StoredLease s.object fun l => l.epoch + 1 ≠ 0) :
    (m.claim epoch now).Stands hostname s.object .writing := by
  refine ⟨⟨hm, rfl, hm⟩, ?_⟩
  intro l hl
  cases answered with
  | false =>
    rw [epoch_of_failed hread]
    exact .inl rfl
  | true =>
    rw [hl] at hread
    rw [epoch_of_lease hread]
    exact .inr (epoch_lt_next (hlast rfl l hl))

end

theorem OwnLease.step {hostname : String} {now : Int} {g g' : Gateway} {s s' : Site} {a : Act}
    (h : Gateway.Step hostname now g s a g' s') (hg : OwnLease hostname g s.object)
    (hread : a = .read true → g.phase = .reading → StoredLease s.object fun l => l.epoch + 1 ≠ 0)
    (hwrite : ∀ put, a = .write put → g.m.lease.epoch = 1 →
    put.lands ∨ ∀ l, s.object ≠ some (.lease l)) : OwnLease hostname g' s'.object := by
  obtain ⟨hnode, huntaken, hstands⟩ := hg
  cases h with
  | start opts holderID => exact ⟨hnode, nofun, rfl⟩
  | read hr =>
    refine ⟨hnode, huntaken, claim_stands hstands hr ?_⟩
    rintro rfl
    exact hread rfl rfl
  | writeRefused _ => exact ⟨ofNode_put hstands.1 hnode, huntaken, trivial⟩
  | write hm =>
    rename_i f m put m'
    obtain ⟨hsame, hkeep⟩ := Manager.afterFirstWrite_keeps hm
    have hold : put.lands ∨
        StoredLease s.object fun l => l.holderID = m.holderID ∨ l.epoch < m.lease.epoch := by
      by_cases hone : m.lease.epoch = 1
      · refine (hwrite put rfl hone).imp_right ?_
        intro hnone l hl
        exact absurd hl (hnone l)
      · exact .inr fun l hl => .inr ((hstands.2 l hl).resolve_left hone)
    have hserves : m'.Claims hostname ∧ _ :=
      ⟨(hstands.1.sending now).of_sameClaim hsame, older_put hstands.1 hsame hold⟩
    refine ⟨ofNode_put hstands.1 hnode, hkeep huntaken, ?_⟩
    dsimp only
    split <;> exact hserves
  | taken hfound =>
    rw [Manager.findsTaken_own hstands.1 hnode hstands.2] at hfound
    cases hfound
  | renew put =>
    rename_i f m answer
    obtain ⟨hsame, hkeep⟩ := (m.sending now).afterWrite_keeps answer now put
    exact ⟨ofNode_put hstands.1 hnode, hkeep huntaken, (hstands.1.sending now).of_sameClaim hsame,
      older_put hstands.1 hsame (.inr hstands.2)⟩
  | delete landed =>
    refine ⟨?_, huntaken, trivial⟩
    cases landed with
    | false => exact hnode
    | true => exact nofun
  | mark written => cases written <;> exact ⟨hnode, huntaken, hstands⟩
  | standDown _ | keep _ | crash | readRefused _ | stop | check _ =>
    exact ⟨hnode, huntaken, trivial⟩
  | readBack _ | beat _ => exact ⟨hnode, huntaken, hstands⟩

/-- On a node whose starts either read its old lease or have their first write take
effect, no heartbeat reports that the lease was taken. -/
theorem own_lease_never_taken (hostname : String) {w : World Unit}
    (h : Reach (oneNode hostname) FirstWriteLands w) : ∀ l, (w.gateway ()).m.lost ≠ some (.taken l) := by
  have hinv : OwnLease hostname (w.gateway ()) w.object := by
    refine h.invariant (I := fun w => OwnLease hostname (w.gateway ()) w.object) ?_ ?_
    · rintro w ⟨hdown, hlost, hnode⟩
      refine ⟨hnode, ?_, ?_⟩
      · rw [Manager.Untaken, hlost]
        exact nofun
      · rw [hdown]
        trivial
    · intro w e w' hI hok hstep
      cases hstep with
      | tick d | copyMarker i marker => exact hI
      | act hact =>
        rename_i i a g s
        rw [World.gateway_set_self]
        refine hI.step hact ?_ ?_
        · rintro rfl
          exact hok
        · rintro put rfl
          exact hok
  exact hinv.untaken

/-! ## A restart in an outage -/

/-- The manager of the process `pid` on the node `gw`, after its start. -/
def process (pid : Nat) (epoch : UInt64) : Manager :=
  (newManager {} "gw" (newHolderID "gw" pid [])).claim epoch 0

/-- A start on the node `gw`. -/
def World.startProcess (w : World Unit) (pid : Nat) (epoch : UInt64) (a : Answers) : World Unit :=
  w.set () ⟨false, process pid epoch, .waiting⟩
    (acquire {} "gw" (newHolderID "gw" pid []) a (w.site ())).final

theorem startProcess_reached {w : World Unit} (pid : Nat) (epoch : UInt64) (a : Answers)
    (hreach : Reach (oneNode "gw") always w) (hdown : (w.gateway ()).phase = .down)
    (hnow : a.now = w.now) (hwritten : a.written = w.now)
    (h : (acquire {} "gw" (newHolderID "gw" pid []) a (w.site ())).result = .ok (process pid epoch)) :
    Reach (oneNode "gw") always (w.startProcess pid epoch a) := by
  have hM : (oneNode "gw").step = World.Step fun _ => "gw" := rfl
  have hreached := acquire_reaches hM (i := ()) (fun _ _ _ _ _ => trivial) hreach hdown hnow hwritten h
  exact hreached

def emptyBucket : World Unit := ⟨0, none, fun _ => none, fun _ => ⟨false, process 1 0, .down⟩⟩

/-- The first process has the lease, and has crashed. -/
def crashed : World Unit :=
  (emptyBucket.startProcess 1 0 ⟨0, true, .ok, 0, true, true⟩).set () ⟨false, process 1 0, .down⟩
    ((emptyBucket.startProcess 1 0 ⟨0, true, .ok, 0, true, true⟩).site ())

/-- The second process has started in an outage. -/
def restarted : World Unit := crashed.startProcess 2 0 ⟨0, false, .failed false, 0, false, true⟩

/-- Its heartbeat reads the lease of the first as soon as the bucket answers, and
reports that the lease was taken. -/
theorem restarted_gateway_fenced : ∃ w : World Unit, Reach (oneNode "gw") always w ∧
    (w.gateway ()).m.lost = some (.taken (process 1 0).lease) := by
  have hempty : Reach (oneNode "gw") always emptyBucket := .init ⟨rfl, rfl, nofun⟩
  have hserving : Reach (oneNode "gw") always
      (emptyBucket.startProcess 1 0 ⟨0, true, .ok, 0, true, true⟩) :=
    startProcess_reached 1 0 _ hempty rfl rfl rfl (by decide +kernel)
  have hcrash : World.Step (fun _ => "gw") (emptyBucket.startProcess 1 0 ⟨0, true, .ok, 0, true, true⟩)
      (.act () .crash) crashed := .act .crash
  have hcrashed : Reach (oneNode "gw") always crashed := hserving.next hcrash trivial
  have hrestarted : Reach (oneNode "gw") always restarted :=
    startProcess_reached 2 0 _ hcrashed rfl rfl rfl (by decide +kernel)
  have hfound : (process 2 0).findsTaken (readLease true (restarted.site ()).object) =
      some (process 1 0).lease := by decide +kernel
  have hbeat : World.Step (fun _ => "gw") restarted (.act () (.beat true))
      (restarted.set () ⟨false, (process 2 0).reportLoss (.taken (process 1 0).lease), .waiting⟩
        (restarted.site ())) := .act (.taken hfound)
  exact ⟨_, hrestarted.next hbeat trivial, rfl⟩

/-- The lease of an earlier process is in the bucket, and the marker in place. -/
def leased : World Unit :=
  ⟨0, some (.lease (process 1 0).lease), fun _ => some "gw", fun _ => ⟨false, process 1 0, .down⟩⟩

/-- A restart on a full bucket reads the old lease and cannot replace it. -/
theorem full_bucket_restart_untaken : ∃ w : World Unit, Reach (oneNode "gw") FirstWriteLands w ∧
    w.object = some (.lease (process 1 0).lease) ∧ (w.gateway ()).m.lease.epoch = 2 ∧
    ∀ l, (w.gateway ()).m.lost ≠ some (.taken l) := by
  have hM : (oneNode "gw").step = World.Step fun _ => "gw" := rfl
  have hleased : Reach (oneNode "gw") FirstWriteLands leased := by
    refine .init ⟨rfl, rfl, ?_⟩
    rintro l ⟨⟩
    rfl
  have hstart : Reach (oneNode "gw") FirstWriteLands
      (leased.set () ⟨false, newManager {} "gw" (newHolderID "gw" 2 []), .reading⟩ (leased.site ())) :=
    reach_act hM (g := leased.gateway ()) (.start {} (newHolderID "gw" 2 [])) trivial hleased
  have hepoch : (newManager {} "gw" (newHolderID "gw" 2 [])).afterRead false (leased.site ()).marker 0
      (readLease true (leased.site ()).object) = .ok 1 := by decide +kernel
  have hread : Reach (oneNode "gw") FirstWriteLands
      (leased.set () ⟨false, process 2 1, .writing⟩ (leased.site ())) := by
    refine reach_act hM (.read hepoch) ?_ hstart
    rintro _ l ⟨⟩
    decide
  have hquota : ((process 2 1).sending 0).afterFirstWrite false (leased.site ()).marker 0 .quota =
      .ok (process 2 1) := by decide +kernel
  have hwrite : Reach (oneNode "gw") FirstWriteLands
      (leased.set () ⟨false, process 2 1, .marking⟩ (leased.site ())) :=
    reach_act hM (.write hquota) (fun hone => absurd hone (by decide)) hread
  have hmark : Reach (oneNode "gw") FirstWriteLands
      (leased.set () ⟨false, process 2 1, .waiting⟩ (leased.site ())) :=
    reach_act hM (.mark false) trivial hwrite
  exact ⟨_, hmark, rfl, rfl, own_lease_never_taken "gw" hmark⟩

end Bluestone.Ha
