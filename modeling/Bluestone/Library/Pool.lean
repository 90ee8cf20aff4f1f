/-
# `Bluestone.Library.Pool` — calls made several at a time, stopping at a failure

A loop makes one call for each key of a list, at most `limit` of them at a time.
A call runs in steps of its own that change a shared world, and ends with an
error or with whether it did anything.  The loop looks for a failure, then waits
for a free slot: after a failure no further key is picked, one that was picked
before still starts, and those under way finish.

`Rule` asks of a fact about a key's call that the call's own steps carry it, and
that the steps of other calls and of the surroundings leave it alone.
`Sound` is what then holds in every state of the loop, and `Sound.all_ended` what
a loop that returns without a failure leaves.
-/
import Mathlib.Data.List.Nodup
import Mathlib.Logic.Relation

namespace Pool

open Function (update update_self update_of_ne)

universe u

variable {K L E W : Type u}

/-- How far the loop is with a key. -/
inductive Stage (L : Type u)
  | waiting
  /-- Past the look for a failure, waiting for a slot. -/
  | picked
  | running (l : L)
  | ended (l : L)
  deriving DecidableEq

/-- Where a call is, once it has started. -/
def Stage.place : Stage L → Option L
  | .waiting | .picked => none
  | .running l | .ended l => some l

/-- What is called: where a call starts, its steps, its result where it has one,
and what else happens to the world. -/
structure Calls (K L E W : Type u) where
  start : L
  step : K → L → W → L → W → Prop
  result : L → Option (Except E Bool)
  around : W → W → Prop

structure Loop (K L E W : Type u) where
  world : W
  /-- The keys the loop has not come to. -/
  queue : List K
  stage : K → Stage L
  active : Nat
  /-- How many calls did something. -/
  did : Nat
  /-- The first failure and its key. -/
  failed : Option (K × E)

namespace Loop

def start (keys : List K) (w : W) : Loop K L E W where
  world := w
  queue := keys
  stage := fun _ => .waiting
  active := 0
  did := 0
  failed := none

def move [DecidableEq K] (s : Loop K L E W) (k : K) (st : Stage L) : Loop K L E W :=
  { s with stage := update s.stage k st }

/-- A call's result is taken down. -/
def record (s : Loop K L E W) (k : K) : Except E Bool → Loop K L E W
  | .error e => { s with failed := some (s.failed.getD (k, e)) }
  | .ok b => { s with did := if b then s.did + 1 else s.did }

/-- The loop is over and every call it made has finished. -/
structure Returned (s : Loop K L E W) : Prop where
  finished : s.queue = [] ∨ s.failed.isSome = true
  quiet : ∀ k, s.stage k = .waiting ∨ ∃ l, s.stage k = .ended l

end Loop

/-- One step of the loop, of a call, or of the surroundings. -/
inductive LoopStep [DecidableEq K] (c : Calls K L E W) (limit : Nat) : Loop K L E W → Loop K L E W → Prop
  | pick {s : Loop K L E W} {k : K} {rest : List K} : s.queue = k :: rest → s.failed = none →
    (∀ k', s.stage k' ≠ .picked) → LoopStep c limit s ({ s with queue := rest }.move k .picked)
  | start {s : Loop K L E W} {k : K} : s.stage k = .picked → s.active < limit →
    LoopStep c limit s ({ s with active := s.active + 1 }.move k (.running c.start))
  | call {s : Loop K L E W} {k : K} {l l' : L} {w : W} : s.stage k = .running l →
    c.step k l s.world l' w → LoopStep c limit s ({ s with world := w }.move k (.running l'))
  | finish {s : Loop K L E W} {k : K} {l : L} {r : Except E Bool} : s.stage k = .running l →
    c.result l = some r →
    LoopStep c limit s (({ s with active := s.active - 1 }.move k (.ended l)).record k r)
  | around {s : Loop K L E W} {w : W} : c.around s.world w → LoopStep c limit s { s with world := w }

/-- `F k place` holds of the world while the call of `k` is at `place`, and `I` always. -/
structure Rule (c : Calls K L E W) (I : W → Prop) (F : K → Option L → W → Prop) : Prop where
  start : ∀ {k w}, F k none w → F k (some c.start) w
  own : ∀ {k l w l' w'}, I w → F k (some l) w → c.step k l w l' w' → I w' ∧ F k (some l') w'
  other : ∀ {k k' o l w l' w'}, k' ≠ k → I w → F k (some l) w → F k' o w → c.step k l w l' w' → F k' o w'
  around : ∀ {k o w w'}, F k o w → c.around w w' → F k o w'
  surroundings : ∀ {w w'}, I w → c.around w w' → I w'

/-- The loop's bookkeeping over `keys`. -/
structure Books (c : Calls K L E W) (keys : List K) (s : Loop K L E W) : Prop where
  queue : ∀ k, k ∈ s.queue ↔ k ∈ keys ∧ s.stage k = .waiting
  listed : ∀ k, s.stage k ≠ .waiting → k ∈ keys
  nodup : s.queue.Nodup
  ended : ∀ k l, s.stage k = .ended l → ∃ r, c.result l = some r ∧ ∀ e, r = .error e → s.failed.isSome = true

/-- What holds in every state of the loop over `keys`. -/
structure Sound (c : Calls K L E W) (keys : List K) (I : W → Prop) (F : K → Option L → W → Prop)
    (s : Loop K L E W) : Prop where
  books : Books c keys s
  world : I s.world
  facts : ∀ k ∈ keys, F k (s.stage k).place s.world

section
variable {c : Calls K L E W} {limit : Nat} {keys : List K} {I : W → Prop}
  {F : K → Option L → W → Prop} {s s' : Loop K L E W} {k : K}

theorem sound_start {w : W} (hnd : keys.Nodup) (hI : I w) (hF : ∀ k ∈ keys, F k none w) :
    Sound c keys I F (Loop.start keys w) :=
  ⟨⟨fun _ => by simp [Loop.start], fun _ h => absurd rfl h, hnd, nofun⟩, hI, hF⟩

theorem Sound.all_ended (h : Sound c keys I F s) (hret : s.Returned) (hok : s.failed = none) :
    ∀ k ∈ keys, ∃ l b, s.stage k = .ended l ∧ c.result l = some (.ok b) ∧ F k (some l) s.world := by
  intro k hk
  have hqueue : s.queue = [] := by
    rcases hret.finished with hnil | hfailed
    · exact hnil
    · rw [hok] at hfailed
      exact nomatch hfailed
  rcases hret.quiet k with hw | ⟨l, hl⟩
  · have hmem := (h.books.queue k).2 ⟨hk, hw⟩
    rw [hqueue] at hmem
    exact nomatch hmem
  · obtain ⟨r, hr, herr⟩ := h.books.ended k l hl
    have hF := h.facts k hk
    rw [hl] at hF
    cases r with
    | ok b => exact ⟨l, b, hl, hr, hF⟩
    | error e =>
      have hfailed := herr e rfl
      rw [hok] at hfailed
      exact nomatch hfailed

@[simp] theorem Loop.world_record (r : Except E Bool) : (s.record k r).world = s.world := by
  cases r <;> rfl

@[simp] theorem Loop.stage_record (r : Except E Bool) : (s.record k r).stage = s.stage := by
  cases r <;> rfl

@[simp] theorem Loop.queue_record (r : Except E Bool) : (s.record k r).queue = s.queue := by
  cases r <;> rfl

theorem Loop.failed_record (h : s.failed.isSome) (r : Except E Bool) :
    (s.record k r).failed.isSome := by
  cases r with
  | error e => rfl
  | ok b => exact h

variable [DecidableEq K]

theorem Books.move (st : Stage L) (h : Books c keys s) (hk : s.stage k ≠ .waiting) (hst : st ≠ .waiting)
    (hqueue : s'.queue = s.queue) (hstage : s'.stage = update s.stage k st)
    (hfailed : s.failed.isSome → s'.failed.isSome) (hended : ∀ l, st = .ended l →
    ∃ r, c.result l = some r ∧ ∀ e, r = .error e → s'.failed.isSome) : Books c keys s' := by
  have hwaiting : ∀ k', s'.stage k' = .waiting ↔ s.stage k' = .waiting := by
    intro k'
    rw [hstage]
    by_cases hne : k' = k
    · subst hne
      rw [update_self]
      exact iff_of_false hst hk
    · rw [update_of_ne hne]
  refine ⟨fun k' => ?_, fun k' hk' => ?_, hqueue ▸ h.nodup, fun k' l hl => ?_⟩
  · rw [hqueue, hwaiting]
    exact h.queue k'
  · exact h.listed k' fun hw => hk' ((hwaiting k').2 hw)
  · rw [hstage] at hl
    by_cases hne : k' = k
    · subst hne
      rw [update_self] at hl
      exact hended l hl
    · rw [update_of_ne hne] at hl
      obtain ⟨r, hr, herr⟩ := h.ended k' l hl
      exact ⟨r, hr, fun e he => hfailed (herr e he)⟩

theorem Books.pick {rest : List K} (h : Books c keys s) (hqueue : s.queue = k :: rest) :
    Books c keys ({ s with queue := rest }.move k .picked) := by
  have hnd := h.nodup
  rw [hqueue] at hnd
  obtain ⟨hnotin, hrest⟩ := List.nodup_cons.1 hnd
  have hk := (h.queue k).1 (hqueue ▸ List.mem_cons_self ..)
  refine ⟨fun k' => ?_, fun k' hk' => ?_, hrest, fun k' l hl => ?_⟩ <;> by_cases hne : k' = k
  · subst hne
    exact iff_of_false hnotin fun h' => by simpa [Loop.move] using h'.2
  · have hq := h.queue k'
    rw [hqueue, List.mem_cons, or_iff_right hne] at hq
    simpa [Loop.move, hne] using hq
  · exact hne ▸ hk.1
  · exact h.listed k' (by simpa [Loop.move, hne] using hk')
  · subst hne
    simp [Loop.move] at hl
  · exact h.ended k' l (by simpa [Loop.move, hne] using hl)

theorem Books.step (h : Books c keys s) (hstep : LoopStep c limit s s') : Books c keys s' := by
  cases hstep with
  | pick hqueue _ _ => exact h.pick hqueue
  | start hk _ =>
    exact h.move (.running c.start) (by rw [hk]; exact nofun) nofun rfl rfl id nofun
  | @call _ _ l' _ hk _ =>
    exact h.move (.running l') (by rw [hk]; exact nofun) nofun rfl rfl id nofun
  | @finish _ l r hk hr =>
    refine h.move (.ended l) (by rw [hk]; exact nofun) nofun (Loop.queue_record r)
      (Loop.stage_record r) (fun hf => Loop.failed_record (s := { s with active := s.active - 1 }.move _ (.ended l)) hf r) ?_
    rintro _ ⟨⟩
    refine ⟨r, hr, ?_⟩
    rintro e rfl
    rfl
  | around _ => exact ⟨h.queue, h.listed, h.nodup, h.ended⟩

theorem Sound.step (hrule : Rule c I F) (h : Sound c keys I F s) (hstep : LoopStep c limit s s') :
    Sound c keys I F s' := by
  refine ⟨h.books.step hstep, ?_, ?_⟩
  · cases hstep with
    | pick _ _ _ | start _ _ => exact h.world
    | @call k _ _ _ hk hs =>
      have hmem := h.books.listed k (by rw [hk]; exact nofun)
      have hF := h.facts k hmem
      rw [hk] at hF
      exact (hrule.own h.world hF hs).1
    | @finish _ _ r _ _ => exact (Loop.world_record r).symm ▸ h.world
    | around hw => exact hrule.surroundings h.world hw
  · intro k' hk'
    have hF' := h.facts k' hk'
    cases hstep with
    | @pick k rest hqueue _ _ =>
      by_cases hne : k' = k
      · subst hne
        rw [((h.books.queue k').1 (hqueue ▸ List.mem_cons_self ..)).2] at hF'
        simpa [Loop.move, Stage.place] using hF'
      · simpa [Loop.move, hne] using hF'
    | @start k hk _ =>
      by_cases hne : k' = k
      · subst hne
        rw [hk] at hF'
        simpa [Loop.move, Stage.place] using hrule.start hF'
      · simpa [Loop.move, hne] using hF'
    | @call k l l' w hk hs =>
      have hF := h.facts k (h.books.listed k (by rw [hk]; exact nofun))
      rw [hk] at hF
      by_cases hne : k' = k
      · subst hne
        simpa [Loop.move, Stage.place] using (hrule.own h.world hF hs).2
      · simpa [Loop.move, hne] using hrule.other hne h.world hF hF' hs
    | @finish k l r hk _ =>
      rw [Loop.world_record, Loop.stage_record]
      by_cases hne : k' = k
      · subst hne
        rw [hk] at hF'
        simpa [Loop.move, Stage.place] using hF'
      · simpa [Loop.move, hne] using hF'
    | around hw => exact hrule.around hF' hw

/-! ## A call made while nothing else happens -/

/-- The loop once the call of the next key, at `l`, is the only one to have moved. -/
def Loop.alone (s : Loop K L E W) (k : K) (rest : List K) (l : L) (w : W) : Loop K L E W :=
  { s with queue := rest, active := s.active + 1, world := w }.move k (.running l)

/-- The loop once that call has ended. -/
def Loop.ends (s : Loop K L E W) (k : K) (rest : List K) (l : L) (w : W) (r : Except E Bool) :
    Loop K L E W :=
  ({ s with queue := rest, world := w }.move k (.ended l)).record k r

theorem Loop.ends_idle {rest : List K} {l : L} {w : W} {r : Except E Bool}
    (h : ∀ k', s.stage k' = .waiting ∨ ∃ l', s.stage k' = .ended l') (k' : K) :
    (s.ends k rest l w r).stage k' = .waiting ∨ ∃ l', (s.ends k rest l w r).stage k' = .ended l' := by
  rw [Loop.ends, Loop.stage_record]
  by_cases hne : k' = k
  · subst hne
    exact .inr ⟨l, update_self ..⟩
  · have hsame : (({ s with queue := rest, world := w } : Loop K L E W).move k (.ended l)).stage k' =
        s.stage k' := update_of_ne hne ..
    rw [hsame]
    exact h k'

theorem reaches_ends {rest : List K} {l : L} {w : W} {r : Except E Bool}
    (hidle : ∀ k', s.stage k' = .waiting ∨ ∃ l', s.stage k' = .ended l') (hqueue : s.queue = k :: rest)
    (hfailed : s.failed = none) (hslot : s.active < limit)
    (hcall : Relation.ReflTransGen (fun a b : L × W => c.step k a.1 a.2 b.1 b.2) (c.start, s.world)
    (l, w)) (hr : c.result l = some r) :
    Relation.ReflTransGen (LoopStep c limit) s (s.ends k rest l w r) := by
  have hunpicked : ∀ k', s.stage k' ≠ .picked := by
    intro k' hk'
    rcases hidle k' with hw | ⟨l', hl'⟩
    · exact nomatch hk'.symm.trans hw
    · exact nomatch hk'.symm.trans hl'
  have hstart : LoopStep c limit ({ s with queue := rest }.move k .picked)
      (s.alone k rest c.start s.world) := by
    have hs : LoopStep c limit ({ s with queue := rest }.move k .picked) _ :=
      .start (update_self ..) hslot
    simpa [Loop.move, Loop.alone] using hs
  have hrun : ∀ p : L × W, Relation.ReflTransGen (fun a b : L × W => c.step k a.1 a.2 b.1 b.2)
      (c.start, s.world) p → Relation.ReflTransGen (LoopStep c limit) s (s.alone k rest p.1 p.2) := by
    intro p hp
    induction hp with
    | refl => exact (Relation.ReflTransGen.single (.pick hqueue hfailed hunpicked)).tail hstart
    | @tail a b _ hstep ih =>
      have hs : LoopStep c limit (s.alone k rest a.1 a.2) _ :=
        .call (update_self ..) hstep
      exact ih.tail (by simpa [Loop.move, Loop.alone] using hs)
  have hs : LoopStep c limit (s.alone k rest l w) _ := .finish (update_self ..) hr
  exact (hrun (l, w) hcall).tail (by simpa [Loop.move, Loop.alone, Loop.ends] using hs)

end

end Pool
