/-
# `Bluestone.Posix.Outlives` — no metadata answer outlives an invalidation, when it holds

The runs of `Bluestone.Posix.MetadataCache` whose invalidations meet no answer between its
fence and the cache (`Clear`).  The invariant is one for each invalidation (`Settled`): what
is cached, and what calls past their fence hold, is younger than the invalidation wherever it
has removed the path, and older calls still probing are stopped by their fence.
-/
import Bluestone.Posix.Fences

namespace Bluestone.Metadata

open Runs Totals Paths

/-! ## What a routine is about -/

/-- The action removes the entry, or looks whether it should. -/
def Action.aims : Action → Path → Bool
  | .unlessListed dir _, q => q == dir
  | a, q => a.removes q

theorem prefix_dropLast {p q : Path} (h : q <+: p) : q = p ∨ q <+: p.dropLast := by
  obtain ⟨t, rfl⟩ := h
  rcases List.eq_nil_or_concat t with rfl | ⟨t', x, rfl⟩
  · exact .inl (by simp)
  · refine .inr ⟨t', ?_⟩
    rw [List.concat_eq_append, ← List.append_assoc, List.dropLast_concat]

theorem under_of_ne {p q : Path} (h : p <+: q) (hne : q ≠ p) : under p q := by
  simp [under, List.isPrefixOf_iff_prefix.2 h, hne]

theorem ancestors_aim {dir q : Path}
    (h : q <+: dir) : ∃ a ∈ invalidateAncestorListings dir, a.aims q := by
  refine ⟨.delete q, ?_, by simp [Action.aims, Action.removes]⟩
  rw [invalidateAncestorListings, List.mem_flatMap]
  exact ⟨q, by simpa using h, by simp⟩

theorem objectPath_aims {p q : Path} (h : q <+: p) : ∃ a ∈ invalidateObjectPath p, a.aims q := by
  rcases prefix_dropLast h with rfl | h
  · exact ⟨.delete q, by simp [invalidateObjectPath], by simp [Action.aims, Action.removes]⟩
  · obtain ⟨a, ha, haim⟩ := ancestors_aim h
    exact ⟨a, by simp [invalidateObjectPath, ha], haim⟩

theorem directoryMutation_aims {p q : Path} (h : q <+: p ∨ p <+: q) :
    ∃ a ∈ invalidateDirectoryMutation p, a.aims q := by
  by_cases heq : q = p
  · exact ⟨.delete p, by simp [invalidateDirectoryMutation], by simp [heq, Action.aims, Action.removes]⟩
  rcases h with h | h
  · obtain ⟨a, ha, haim⟩ := ancestors_aim ((prefix_dropLast h).resolve_left heq)
    exact ⟨a, by simp [invalidateDirectoryMutation, ha], haim⟩
  · exact ⟨.deletePrefix p, by simp [invalidateDirectoryMutation], under_of_ne h heq⟩

theorem Routine.aims_of_covers {r : Routine} {q : Path}
    (h : r.covers q) : ∃ a ∈ r.actions, a.aims q := by
  cases r with
  | fileMutation p => exact objectPath_aims h
  | directoryMutation p => exact directoryMutation_aims h
  | renameMutation old new isDir =>
    have hboth : ∀ (f : Path → List Action), ((∃ a ∈ f old, a.aims q) ∨ ∃ a ∈ f new, a.aims q) →
        ∃ a ∈ f old ++ f new, a.aims q := by
      rintro f (⟨a, ha, haim⟩ | ⟨a, ha, haim⟩)
      · exact ⟨a, List.mem_append_left _ ha, haim⟩
      · exact ⟨a, List.mem_append_right _ ha, haim⟩
    cases isDir with
    | true =>
      refine hboth invalidateDirectoryMutation ?_
      rcases h with h | h | ⟨-, h | h⟩
      · exact .inl (directoryMutation_aims (.inl h))
      · exact .inr (directoryMutation_aims (.inl h))
      · exact .inl (directoryMutation_aims (.inr h))
      · exact .inr (directoryMutation_aims (.inr h))
    | false =>
      refine hboth invalidateObjectPath ?_
      rcases h with h | h | ⟨hdir, -⟩
      · exact .inl (objectPath_aims h)
      · exact .inr (objectPath_aims h)
      · cases hdir
  | objectAfterSync p =>
    rcases h with rfl | rfl
    · exact ⟨.delete q, by simp [Routine.actions, invalidateObjectAfterSync], by simp [Action.aims, Action.removes]⟩
    · exact ⟨.unlessListed p.dropLast (p.getLast?.getD []),
        by simp [Routine.actions, invalidateObjectAfterSync], by simp [Action.aims]⟩
  | attributes p =>
    by_cases hroot : p = []
    · obtain rfl : q = [] := by simpa [Routine.covers, hroot] using h
      exact ⟨.delete [], by simp [Routine.actions, invalidatePath, hroot], by simp [Action.aims, Action.removes]⟩
    · refine ⟨.delete q, ?_, by simp [Action.aims, Action.removes]⟩
      rcases h with rfl | rfl
      · simp [Routine.actions, invalidatePath]
      · simp [Routine.actions, invalidatePath, hroot]
  | parentListing p => exact ancestors_aim h

/-! ## The invariant -/

/-- What an invalidation can rely on: the paths it has removed have nothing older in the cache
or on the way there, and every path it is about is removed, left or still to come. -/
structure Settled (s : State) (i : Invalidation) : Prop where
  began : i.began < s.now
  cached : ∀ q, i.removed q → ∀ e, s.cache q = some e → ∀ b ∈ e.began, i.began ≤ b
  held : ∀ c ∈ s.calls, i.removed c.path → ∀ b ∈ c.held, i.began ≤ b
  stopped : ∀ c ∈ s.calls, i.removed c.path → c.stage = .probing → s.Stops i c
  covered : ∀ q, i.routine.covers q → i.removed q ∨ q ∈ i.kept ∨ ∃ a ∈ i.todo, a.aims q = true

structure Inv (s : State) : Prop where
  fenced : FenceOk s.fences s.calls
  settled : ∀ i ∈ s.invalidations, Settled s i

section Steps

variable {s s' : State} {i : Invalidation}

variable {c : Call} {k : Nat} {stage : Stage} {a : Action} {hit : Bool} {rest : List Action} {q : Path}

theorem FenceOk.stops_of_grows (h : FenceOk s.fences s.calls) (hc : c ∈ s.calls)
    (hp : c.stage = .probing) (hg : Grows s.fences s'.fences c) (hs : s.Stops i c) : s'.Stops i c := by
  rcases hs with hs | hs | hs
  · exact .inl hs
  · exact .inr (.inl (h.unchanged_of_grows hc hp hg hs))
  · exact .inr (.inr hs)

/-! ### Calls -/

theorem Inv.call (h : Inv s) (kind : Kind) (path : Path) : Inv (s.call kind path) := by
  refine ⟨h.fenced.call kind path, fun i hi => ?_⟩
  have hset := h.settled i hi
  refine ⟨Nat.lt_succ_of_lt hset.began, hset.cached, ?_, ?_, hset.covered⟩
  · intro c hc hrem b hb
    rcases List.mem_append.1 hc with hc | hc
    · exact hset.held c hc hrem b hb
    · obtain rfl := List.mem_singleton.1 hc
      cases hb
  · intro c hc hrem hp
    rcases List.mem_append.1 hc with hc | hc
    · exact h.fenced.stops_of_grows hc hp (grows_call kind path c) (hset.stopped c hc hrem hp)
    · obtain rfl := List.mem_singleton.1 hc
      exact .inl (Nat.le_of_lt hset.began)

/-- A call goes on with nothing older than the invalidations of its path, past its fence. -/
theorem Settled.held_set (h : Settled s i)
    (hheld : i.removed c.path → ∀ b ∈ Call.held { c with stage := stage }, i.began ≤ b) :
    ∀ c' ∈ s.calls.set k { c with stage := stage }, i.removed c'.path → ∀ b ∈ c'.held, i.began ≤ b := by
  intro c' hc' hrem b hb
  rcases List.mem_or_eq_of_mem_set hc' with hc' | rfl
  · exact h.held c' hc' hrem b hb
  · exact hheld hrem b hb

theorem Inv.leave (h : Inv s) (hk : s.calls[k]? = some c) (hp : c.stage = .probing)
    (hstage : stage ≠ .probing) (hheld : ∀ i, Settled s i → i ∈ s.invalidations → i.removed c.path →
    ∀ b ∈ Call.held { c with stage := stage }, i.began ≤ b) : Inv (s.leave k c stage) := by
  refine ⟨h.fenced.leave hk hp hstage, fun i hi => ?_⟩
  have hset := h.settled i hi
  refine ⟨hset.began, hset.cached, hset.held_set (hheld i hset hi), ?_, hset.covered⟩
  intro c' hc' hrem hp'
  have hmem := mem_of_mem_leave hstage hc' hp'
  exact h.fenced.stops_of_grows hmem hp' (h.fenced.grows_leave hk hp hstage hc' hp') (hset.stopped c' hmem hrem hp')

theorem Inv.abandon (h : Inv s) (hs : s.abandon k = some s') : Inv s' := by
  obtain ⟨c, hk, hs⟩ := Option.bind_eq_some_iff.1 hs
  split at hs
  · rename_i hp
    cases hs
    exact h.leave hk hp (by simp) (by simp [Call.held])
  · cases hs

theorem Inv.answer (h : Inv s) {a : Answer} (hclear : Clear s (.answer k a))
    (hs : s.answer k a = some s') : Inv s' := by
  obtain ⟨c, hk, hs⟩ := Option.bind_eq_some_iff.1 hs
  split at hs
  · rename_i hcond
    cases hs
    split
    · rename_i hunchanged
      refine h.leave hk hcond.1 (by simp) fun i hset hi hrem b hb => ?_
      obtain rfl : b = c.began := by simpa [Call.held] using hb
      -- the fence has let the call pass, and nothing is left that would stop it
      rcases hset.stopped c (List.mem_of_getElem? hk) hrem hcond.1 with hle | hstale | ⟨act, hact, hfence⟩
      · exact hle
      · rw [State.stale, hunchanged] at hstale
        cases hstale
      · by_contra hlt
        have hnot := hclear c hk i hi hrem (Nat.lt_of_not_le hlt) act hact
        rw [hfence] at hnot
        cases hnot
    · exact h.leave hk hcond.1 (by simp) (by simp [Call.held])
  · cases hs

/-! ### The cache -/

theorem Inv.set (h : Inv s) {path : Path} {entry : MetadataEntry} (hentry : ∀ i, Settled s i →
    i.removed path → ∀ b ∈ entry.began, i.began ≤ b) : Inv { s with cache := s.set path entry } := by
  refine ⟨h.fenced, fun i hi => ?_⟩
  have hset := h.settled i hi
  refine ⟨hset.began, ?_, hset.held, hset.stopped, hset.covered⟩
  intro q hrem e he
  simp only [State.set] at he
  split at he
  · rename_i hq
    obtain rfl := Option.some.inj he
    exact hentry i hset (hq ▸ hrem)
  · exact hset.cached q hrem e he

theorem Inv.evict (h : Inv s) (path : Path) : Inv (s.evict path) := by
  refine ⟨h.fenced, fun i hi => ?_⟩
  have hset := h.settled i hi
  refine ⟨hset.began, ?_, hset.held, hset.stopped, hset.covered⟩
  intro q hrem e he
  simp only [State.evict] at he
  split at he
  · cases he
  · exact hset.cached q hrem e he

theorem Settled.tick (h : Settled s i) : Settled { s with now := s.now + 1 } i :=
  ⟨Nat.lt_succ_of_lt h.began, h.cached, h.held, h.stopped, h.covered⟩

theorem Inv.statRoot (h : Inv s) : Inv s.statRoot := by
  have htick : Inv { s with now := s.now + 1 } := ⟨h.fenced, fun i hi => (h.settled i hi).tick⟩
  refine htick.set fun i hset _ b hb => ?_
  obtain rfl : b = s.now := by simpa [MetadataEntry.began] using hb
  exact Nat.le_of_lt_succ hset.began

theorem FenceOk.setCall {calls : List Call} {fences : Kind → ListingFence} (h : FenceOk fences calls)
    {c' : Call} (hk : calls[k]? = some c) (hp : c.stage ≠ .probing) (hp' : c'.stage ≠ .probing) :
    FenceOk fences (calls.set k c') := by
  have htotal : ∀ kind p, total (waits kind p) (calls.set k c') = total (waits kind p) calls := by
    intro kind p
    have hset := total_set (waits kind p) hk c'
    rwa [waits_of_ne_probing kind p hp, waits_of_ne_probing kind p hp'] at hset
  refine ⟨fun he => ?_, fun he => ?_, fun d hd hpd _ he => ?_⟩
  · rw [htotal]
    exact h.counted he
  · rw [htotal]
    exact h.absent he
  · rcases List.mem_or_eq_of_mem_set hd with hd | rfl
    · exact h.generation d hd hpd he
    · exact absurd hpd hp'

theorem Inv.setCall (h : Inv s) (hk : s.calls[k]? = some c)
    (hp : c.stage ≠ .probing) (hstage : stage ≠ .probing)
    (hheld : ∀ i, Settled s i → i.removed c.path → ∀ b ∈ Call.held { c with stage := stage }, i.began ≤ b) :
    Inv { s with calls := s.calls.set k { c with stage := stage } } := by
  refine ⟨h.fenced.setCall hk hp hstage, fun i hi => ?_⟩
  have hset := h.settled i hi
  refine ⟨hset.began, hset.cached, hset.held_set (hheld i hset), ?_, hset.covered⟩
  intro c' hc' hrem hp'
  rcases List.mem_or_eq_of_mem_set hc' with hc' | rfl
  · exact hset.stopped c' hc' hrem hp'
  · exact absurd hp' hstage

theorem Inv.keep (h : Inv s) {entry : MetadataEntry} (hk : s.calls[k]? = some c)
    (hp : c.stage ≠ .probing) (hentry : ∀ b ∈ entry.began, b ∈ c.held) :
    Inv { s with cache := s.set c.path entry, calls := s.calls.set k { c with stage := .returned } } := by
  have hset : Inv { s with cache := s.set c.path entry } :=
    h.set fun i hi hrem b hb => hi.held c (List.mem_of_getElem? hk) hrem b (hentry b hb)
  exact hset.setCall hk hp (by simp) (by simp [Call.held])

theorem Settled.previous (h : Settled s i) {path : Path} (hrem : i.removed path) {b : Nat}
    (hb : s.previous path hit = some b) : i.began ≤ b := by
  rw [State.previous] at hb
  split at hb
  · rename_i e he
    split at hb
    · exact h.cached path hrem e he b (by simp [MetadataEntry.began, hb])
    · cases hb
  · cases hb

theorem Inv.store (h : Inv s) (hs : s.store k hit = some s') : Inv s' := by
  obtain ⟨c, hk, hs⟩ := Option.bind_eq_some_iff.1 hs
  split at hs
  · rename_i hstage
    cases hs
    exact h.keep hk (by simp [hstage]) (by simp [MetadataEntry.began, Call.held, hstage])
  · rename_i hstage
    cases hs
    exact h.keep hk (by simp [hstage]) (by simp [MetadataEntry.began, Call.held, hstage])
  · rename_i hstage
    cases hs
    refine h.setCall hk (by simp [hstage]) (by simp) fun i hset hrem b hb => ?_
    rcases List.mem_cons.1 hb with rfl | hb
    · exact hset.held c (List.mem_of_getElem? hk) hrem _ (by simp [Call.held, hstage])
    · exact hset.previous hrem (Option.mem_toList.1 hb)
  · rename_i names prev hstage
    cases hs
    refine h.keep hk (by simp [hstage]) fun b hb => ?_
    have hb : b ∈ prev ∨ b = c.began := by simpa [MetadataEntry.began] using hb
    rcases hb with hb | rfl
    · simp [Call.held, hstage, Option.mem_def.1 hb]
    · simp [Call.held, hstage]
  all_goals cases hs

/-! ### Invalidations -/

theorem Inv.invalidate (h : Inv s) (r : Routine) : Inv (s.invalidate r) := by
  refine ⟨h.fenced, fun i hi => ?_⟩
  rcases List.mem_append.1 hi with hi | hi
  · have hset := (h.settled i hi).tick
    exact ⟨hset.began, hset.cached, hset.held, hset.stopped, hset.covered⟩
  · obtain rfl := List.mem_singleton.1 hi
    have hnew : ∀ q, ¬ Invalidation.removed ⟨r, s.now, [], r.actions, []⟩ q := by
      rintro q ⟨a, ha, -⟩
      cases ha
    exact ⟨Nat.lt_succ_self _, fun q hrem => absurd hrem (hnew q), fun c _ hrem => absurd hrem (hnew _),
      fun c _ hrem => absurd hrem (hnew _), fun q hcov => .inr (.inr (Routine.aims_of_covers hcov))⟩

theorem advance_eq (i : Invalidation) (a : Action) (rest : List Action) (hit : Bool) :
    (s.advance i a rest hit).routine = i.routine ∧ (s.advance i a rest hit).began = i.began ∧
    rest ⊆ (s.advance i a rest hit).todo ∧ i.kept ⊆ (s.advance i a rest hit).kept := by
  cases a with
  | unlessListed dir name =>
    rw [State.advance]
    split
    · exact ⟨rfl, rfl, fun _ h => h, fun _ h => List.mem_cons_of_mem _ h⟩
    · exact ⟨rfl, rfl, fun _ h => List.mem_cons_of_mem _ h, fun _ h => h⟩
  | delete p | deletePrefix p | invalidate k p | invalidatePrefix p => exact ⟨rfl, rfl, fun _ h => h, fun _ h => h⟩

theorem removed_cons {i : Invalidation} :
    Invalidation.removed { i with todo := rest, done := a :: i.done } q ↔ a.removes q ∨ i.removed q := by
  simp [Invalidation.removed]

theorem removed_advance {i : Invalidation} :
    (s.advance i a rest hit).removed q ↔ a.removes q ∨ i.removed q := by
  cases a with
  | unlessListed dir name =>
    have hsame : ∀ j : Invalidation, j.done = i.done → (j.removed q ↔ False ∨ i.removed q) := by
      intro j hj
      rw [Invalidation.removed, Invalidation.removed, hj, false_or]
    rw [State.advance]
    simp only [Action.removes, Bool.false_eq_true]
    split
    all_goals exact hsame _ rfl
  | delete p | deletePrefix p | invalidate k p | invalidatePrefix p => exact removed_cons

theorem aimed_advance {i : Invalidation}
    (h : a.aims q) : (s.advance i a rest hit).removed q ∨ q ∈ (s.advance i a rest hit).kept ∨
    ∃ a' ∈ (s.advance i a rest hit).todo, a'.aims q := by
  cases a with
  | unlessListed dir name =>
    obtain rfl : q = dir := by simpa [Action.aims] using h
    rw [State.advance]
    split
    · exact .inr (.inl List.mem_cons_self)
    · exact .inr (.inr ⟨.delete q, List.mem_cons_self .., by simp [Action.aims, Action.removes]⟩)
  | delete p | deletePrefix p => exact .inl (removed_advance.2 (.inl h))
  | invalidate k p | invalidatePrefix p => cases h

/-- The state after an action of an invalidation. -/
def State.acted (s : State) (n : Nat) (i : Invalidation) (a : Action) (rest : List Action) (hit : Bool) : State :=
  { s with
    cache := fun q => if a.removes q then none else s.cache q
    fences := fun k => (s.fences k).invalidate (a.fences k)
    invalidations := s.invalidations.set n (s.advance i a rest hit) }

section Acted

variable {n : Nat} {a : Action} {rest : List Action} {hit : Bool}

/-- What stops a call still stops it after an action of the invalidation: an action on its
fence makes it stale. -/
theorem FenceOk.stops_acted (h : FenceOk s.fences s.calls) {c : Call} (htodo : i.todo = a :: rest)
    (hc : c ∈ s.calls) (hp : c.stage = .probing) (hs : s.Stops i c) :
    (s.acted n i a rest hit).Stops (s.advance i a rest hit) c := by
  obtain ⟨-, hbegan, hrest, -⟩ := advance_eq (s := s) i a rest hit
  rcases hs with hs | hs | ⟨a', ha', hfence⟩
  · exact .inl (hbegan ▸ hs)
  · exact .inr (.inl (h.unchanged_of_grows hc hp (grows_invalidate a.fences c) hs))
  · rw [htodo] at ha'
    rcases List.mem_cons.1 ha' with rfl | ha'
    · exact .inr (.inl (h.unchanged_invalidate hc hp hfence))
    · exact .inr (.inr ⟨a', hrest ha', hfence⟩)

/-- What is cached after an action was cached before, and the action does not remove it. -/
theorem acted_cache {q : Path} {e : MetadataEntry} (he : (s.acted n i a rest hit).cache q = some e) :
    s.cache q = some e ∧ ¬ a.removes q := by
  simp only [State.acted] at he
  split at he
  · cases he
  · rename_i hnot
    exact ⟨he, hnot⟩

theorem Settled.acted {j : Invalidation} (h : Settled s j) (hf : FenceOk s.fences s.calls) :
    Settled (s.acted n i a rest hit) j := by
  refine ⟨h.began, fun q hrem e he => h.cached q hrem e (acted_cache he).1, h.held, ?_, h.covered⟩
  intro c hc hrem hp
  exact hf.stops_of_grows hc hp (grows_invalidate a.fences c) (h.stopped c hc hrem hp)

theorem Settled.advance (h : Settled s i) (hf : FenceOk s.fences s.calls) (htodo : i.todo = a :: rest)
    (hclear : ∀ c ∈ s.calls, a.removes c.path → c.stage = .returned ∨ c.stage = .probing ∧ s.Stops i c) :
    Settled (s.acted n i a rest hit) (s.advance i a rest hit) := by
  obtain ⟨hroutine, hbegan, hrest, hkept⟩ := advance_eq (s := s) i a rest hit
  refine ⟨hbegan ▸ h.began, ?_, ?_, ?_, ?_⟩
  · intro q hrem e he
    obtain ⟨hold, hnot⟩ := acted_cache he
    rw [hbegan]
    exact h.cached q ((removed_advance.1 hrem).resolve_left hnot) e hold
  · intro c hc hrem b hb
    rw [hbegan]
    rcases removed_advance.1 hrem with hnow | hrem
    · rcases hclear c hc hnow with hret | ⟨hp, -⟩
      · simp [Call.held, hret] at hb
      · simp [Call.held, hp] at hb
    · exact h.held c hc hrem b hb
  · intro c hc hrem hp
    refine hf.stops_acted htodo hc hp ?_
    rcases removed_advance.1 hrem with hnow | hrem
    · rcases hclear c hc hnow with hret | ⟨-, hstops⟩
      · rw [hp] at hret
        cases hret
      · exact hstops
    · exact h.stopped c hc hrem hp
  · intro q hcov
    rw [hroutine] at hcov
    rcases h.covered q hcov with hrem | hk | ⟨a', ha', haim⟩
    · exact .inl (removed_advance.2 (.inr hrem))
    · exact .inr (.inl (hkept hk))
    · rw [htodo] at ha'
      rcases List.mem_cons.1 ha' with rfl | ha'
      · exact aimed_advance haim
      · exact .inr (.inr ⟨a', hrest ha', haim⟩)

theorem Inv.act (h : Inv s) (hclear : Clear s (.act n hit)) (hs : s.act n hit = some s') : Inv s' := by
  obtain ⟨i, hn, hs⟩ := Option.bind_eq_some_iff.1 hs
  split at hs
  · cases hs
  · rename_i a rest htodo
    cases hs
    refine ⟨h.fenced.invalidate a.fences, fun j hj => ?_⟩
    rcases List.mem_or_eq_of_mem_set hj with hj | rfl
    · exact (h.settled j hj).acted h.fenced
    · have hset := h.settled i (List.mem_of_getElem? hn)
      exact hset.advance h.fenced htodo (hclear i hn a (by simp [htodo]))

end Acted

end Steps

theorem Inv.start {s : State} (h : Starts s) : Inv s := by
  have hcalls := h.calls
  refine ⟨⟨?_, ?_, ?_⟩, by simp [h.invalidations]⟩
  · intro k p e he
    rw [h.fences k p] at he
    cases he
  · intro k p _
    simp [hcalls, total]
  · simp [hcalls]

theorem Inv.next {s s' : State} {l : Label} (h : Inv s) (hclear : Clear s l)
    (hs : s.next l = some s') : Inv s' := by
  cases l with
  | stat path =>
    rw [State.next] at hs
    split at hs
    · cases hs
    · cases hs
      exact h.call .lookup path
  | statRoot =>
    cases hs
    exact h.statRoot
  | listDirectory path =>
    cases hs
    exact h.call .listing path
  | answer k a => exact h.answer hclear hs
  | abandon k => exact h.abandon hs
  | store k hit => exact h.store hs
  | invalidate r =>
    cases hs
    exact h.invalidate r
  | act n hit => exact h.act hclear hs
  | evict path =>
    cases hs
    exact h.evict path

/-- In a run whose invalidations meet no answer between its fence and the cache, nothing in
the cache is older than an invalidation of its path that has returned. -/
theorem no_answer_outlives_invalidation {s : State} (h : Reach metadataSystem Clear s) (q : Path) :
    ¬ Outlives s q := by
  have hinv : Inv s := h.invariant (fun _ => Inv.start) fun _ _ _ hi hok hs => hi.next hok hs
  rintro ⟨i, hi, htodo, hcov, hkept, e, he, b, hb, hlt⟩
  have hset := hinv.settled i hi
  rcases hset.covered q hcov with hrem | hmem | ⟨a, ha, -⟩
  · have hle := hset.cached q hrem e he b hb
    omega
  · exact hkept hmem
  · rw [htodo] at ha
    cases ha

/-! ## Runs -/

def State.empty : State := ⟨0, fun _ => none, fun _ _ => none, [], []⟩

theorem State.empty_starts : Starts State.empty := ⟨fun _ => rfl, fun _ _ => rfl, rfl, rfl⟩

/-- The next actions of the first invalidation. -/
def acts (n : Nat) : List Label := List.replicate n (.act 0 true)

/-- A change overtakes a `Stat`, which its fence stops; the next `Stat` is stored. -/
def overtaken : List Label :=
  [.stat [['f']], .invalidate (.fileMutation [['f']])] ++ acts 4 ++
    [.answer 0 .negative, .stat [['f']], .answer 1 (.fileInfo false), .store 1 true]

theorem stat_after_change_fresh : ∃ s : State, ((s.cache [['f']]).isSome ∧
    ∃ i ∈ s.invalidations, i.todo = [] ∧ i.routine.covers [['f']]) ∧ ∀ q, ¬ Outlives s q := by
  have hrun : (runFrom State.next Clear State.empty overtaken).any
      (fun s => decide ((s.cache [['f']]).isSome ∧
        ∃ i ∈ s.invalidations, i.todo = [] ∧ i.routine.covers [['f']])) := by decide
  obtain ⟨s, hs, hp⟩ := exists_reach State.empty_starts hrun
  exact ⟨s, of_decide_eq_true hp, no_answer_outlives_invalidation hs⟩

/-- The change comes between the fence and the cache. -/
def storedLate : List Label :=
  [.stat [['f']], .answer 0 .negative, .invalidate (.fileMutation [['f']])] ++ acts 4 ++ [.store 0 true]

/-- A directory is listed while it changes. -/
def listedAcross : List Label :=
  [.listDirectory [['d']], .invalidate (.directoryMutation [['d']])] ++ acts 6 ++
    [.answer 0 (.entries [['x']]), .store 0 true, .store 0 true]

/-- A file is looked up while its attributes change. -/
def lookedUpAcross : List Label :=
  [.stat [['f']], .invalidate (.attributes [['f']])] ++ acts 2 ++ [.answer 0 (.fileInfo false), .store 0 true]

/-- Answers outlive the invalidation of a file, of a directory and of attributes. -/
theorem old_answers_cached : (∃ s, Reach metadataSystem always s ∧
    s.invalidations.map (·.routine) = [.fileMutation [['f']]] ∧ Outlives s [['f']]) ∧
    (∃ s, Reach metadataSystem always s ∧ s.invalidations.map (·.routine) = [.directoryMutation [['d']]] ∧
    Outlives s [['d']]) ∧ ∃ s, Reach metadataSystem always s ∧
    s.invalidations.map (·.routine) = [.attributes [['f']]] ∧ Outlives s [['f']] := by
  have hlate : (runFrom State.next always State.empty storedLate).any
      (fun s => decide (s.invalidations.map (·.routine) = [.fileMutation [['f']]] ∧ Outlives s [['f']])) := by
    decide
  have hlisted : (runFrom State.next always State.empty listedAcross).any
      (fun s => decide (s.invalidations.map (·.routine) = [.directoryMutation [['d']]] ∧ Outlives s [['d']])) := by
    decide
  have hlooked : (runFrom State.next always State.empty lookedUpAcross).any
      (fun s => decide (s.invalidations.map (·.routine) = [.attributes [['f']]] ∧ Outlives s [['f']])) := by
    decide
  refine ⟨?_, ?_, ?_⟩
  · obtain ⟨s, hs, hp⟩ := exists_reach State.empty_starts hlate
    exact ⟨s, hs, of_decide_eq_true hp⟩
  · obtain ⟨s, hs, hp⟩ := exists_reach State.empty_starts hlisted
    exact ⟨s, hs, of_decide_eq_true hp⟩
  · obtain ⟨s, hs, hp⟩ := exists_reach State.empty_starts hlooked
    exact ⟨s, hs, of_decide_eq_true hp⟩

end Bluestone.Metadata
