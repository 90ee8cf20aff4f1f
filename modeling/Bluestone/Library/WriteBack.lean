/-
# `Bluestone.Library.WriteBack` — a write-back cache of one value, with generations

An abstract machine over any type of values.  A store holds a value; a current
item caches it; threads change the item and then, in a second step, mark it
dirty with a fresh generation; uploaders read the generation, then the item's
value, store it, and mark it clean if the generation is still the one they read.

Any number of threads take these steps in any order.  What makes the machine
safe is in its guards: an upload is entered only while the item is dirty and by
one thread at a time, a fetch replaces only an item nobody has changed, and an
item is retired only when it is clean and nobody uses it.

`Safe` is the invariant and `Safe.step` its preservation.  Its last field is
what the machine is for (`Safe.stored`): clean, with no change between its two
steps, the store holds the value after the last change.
-/
import Mathlib.Logic.Function.Basic

namespace WriteBack

universe u v

variable {T : Type u} [DecidableEq T] {V : Type v}

/-- Where a thread stands. -/
inductive Role (V : Type v)
  | outside
  | holder (i : Nat)
  /-- The item has been changed and not yet marked dirty. -/
  | pending (i : Nat)
  | entered
  | reading (i : Nat)
  | opening (i : Nat) (generation : Nat)
  | uploading (i : Nat) (generation : Nat) (value : V) (landed : Bool)
  | leaving

/-- The role belongs to an upload that has not ended: the item is dirty. -/
def Role.inside : Role V → Bool
  | .entered | .reading _ | .opening _ _ | .uploading _ _ _ _ => true
  | _ => false

/-- A cached copy of the stored value. -/
structure Item (V : Type v) where
  id : Nat
  value : V
  /-- Some thread has changed it. -/
  changed : Bool
  /-- It has been filled from the store. -/
  fetched : Bool

structure Cache (T : Type u) (V : Type v) where
  stored : Option V
  lock : Option T
  dirty : Option Nat
  generation : Nat
  current : Option (Item V)
  role : T → Role V

/-- The current item is the one called `i`. -/
def Cache.Current (c : Cache T V) (i : Nat) : Prop := c.current.map Item.id = some i

/-- Some thread is between changing the item and marking it dirty. -/
def Cache.Pending (c : Cache T V) : Prop := ∃ t i, c.role t = .pending i

/-- What a step does to the value after the last change. -/
inductive Effect (V : Type v)
  | none
  | change (v : V)

/-- The value after the last change. -/
def Effect.apply (last : Option V) : Effect V → Option V
  | .none => last
  | .change v => some v

namespace Cache

/-- Thread `t` takes the role `r`. -/
def goto (c : Cache T V) (t : T) (r : Role V) : Cache T V :=
  { c with role := Function.update c.role t r }

@[simp] theorem goto_role_self (c : Cache T V) (t : T) (r : Role V) : (c.goto t r).role t = r := by
  simp [goto]

theorem goto_role_of_ne (c : Cache T V) {t t' : T} (r : Role V) (h : t' ≠ t) :
    (c.goto t r).role t' = c.role t' := by
  simp [goto, Function.update_of_ne h]

end Cache

/-- One step of the machine. -/
inductive Step : Cache T V → Effect V → Cache T V → Prop
  | quiet (c : Cache T V) : Step c .none c
  | advance {c : Cache T V} {n : Nat} : c.generation ≤ n → Step c .none { c with generation := n }
  | join {c : Cache T V} {i : Nat} (t : T) : c.role t = .outside → c.Current i →
    Step c .none (c.goto t (.holder i))
  | create {c : Cache T V} (t : T) (i : Nat) (v : V) : c.role t = .outside → c.current = none →
    Step c .none ({ c with current := some ⟨i, v, false, false⟩ }.goto t (.holder i))
  | fetch {c : Cache T V} {item : Item V} {v : V} : c.current = some item → item.changed = false →
    c.stored = some v → Step c .none { c with current := some { item with value := v, fetched := true } }
  /-- A fetch that failed leaves some value in an item that carries none yet. -/
  | spoil {c : Cache T V} {item : Item V} (v : V) : c.current = some item → item.changed = false →
    item.fetched = false → Step c .none { c with current := some { item with value := v } }
  | change {c : Cache T V} {i : Nat} {item : Item V} (t : T) (v : V) : c.role t = .holder i →
    c.current = some item → Step c (.change v)
    ({ c with current := some { item with value := v, changed := true } }.goto t (.pending i))
  | mark {c : Cache T V} {i : Nat} (t : T) : c.role t = .pending i →
    Step c .none ({ c with dirty := some (c.generation + 1), generation := c.generation + 1 }.goto t
    (.holder i))
  | leave {c : Cache T V} {i : Nat} (t : T) : c.role t = .holder i → Step c .none (c.goto t .outside)
  /-- The last holder leaves a clean item, which is retired. -/
  | leaveRetire {c : Cache T V} {i : Nat} (t : T) : c.role t = .holder i → c.dirty = none →
    (∀ t' j, t' ≠ t → c.role t' ≠ .holder j ∧ c.role t' ≠ .pending j) →
    Step c .none ({ c with current := none }.goto t .outside)
  | retire {c : Cache T V} : c.dirty = none → (∀ t j, c.role t ≠ .holder j ∧ c.role t ≠ .pending j) →
    Step c .none { c with current := none }
  | enter {c : Cache T V} (t : T) : c.role t = .outside → c.lock = none → c.dirty.isSome →
    Step c .none ({ c with lock := some t }.goto t .entered)
  | find {c : Cache T V} {i : Nat} (t : T) : c.role t = .entered → c.Current i →
    Step c .none (c.goto t (.reading i))
  | readGeneration {c : Cache T V} {i g : Nat} (t : T) : c.role t = .reading i → c.dirty = some g →
    Step c .none (c.goto t (.opening i g))
  | snapshot {c : Cache T V} {i g : Nat} {item : Item V} (t : T) : c.role t = .opening i g →
    c.current = some item → Step c .none (c.goto t (.uploading i g item.value false))
  | land {c : Cache T V} {i g : Nat} {v : V} {before : Bool} (t : T) :
    c.role t = .uploading i g v before →
    Step c .none ({ c with stored := some v }.goto t (.uploading i g v true))
  | clean {c : Cache T V} {i g : Nat} {v : V} (t : T) : c.role t = .uploading i g v true →
    c.dirty = some g → Step c .none ({ c with dirty := none }.goto t .leaving)
  | giveUp {c : Cache T V} (t : T) : (c.role t).inside → Step c .none (c.goto t .leaving)
  | unlock {c : Cache T V} (t : T) : c.role t = .leaving →
    Step c .none ({ c with lock := none }.goto t .outside)

/-! ## The invariant -/

/-- What the machine owes thread `t` in its role. -/
def RoleOk (c : Cache T V) (last : Option V) (t : T) : Role V → Prop
  | .outside => True
  | .holder i => c.Current i
  | .pending i => c.Current i ∧ ∀ item, c.current = some item → item.changed = true
  | .entered => c.lock = some t ∧ c.dirty.isSome
  | .reading i => c.lock = some t ∧ c.dirty.isSome ∧ c.Current i
  | .opening i g => c.lock = some t ∧ c.dirty.isSome ∧ c.Current i ∧ g ≤ c.generation
  | .uploading i g v landed =>
    c.lock = some t ∧ c.dirty.isSome ∧ c.Current i ∧ g ≤ c.generation ∧
      (c.dirty = some g → some v = last ∨ c.Pending) ∧ (landed = true → c.stored = some v)
  | .leaving => c.lock = some t

/-- The invariant of the machine, with the value after the last change. -/
structure Safe (c : Cache T V) (last : Option V) : Prop where
  roles : ∀ t, RoleOk c last t (c.role t)
  dirty_changed : c.dirty.isSome → ∃ item, c.current = some item ∧ item.changed = true
  dirty_bound : ∀ g, c.dirty = some g → g ≤ c.generation
  value_last : ∀ item, c.current = some item → item.changed = true ∨ item.fetched = true →
    some item.value = last
  stored : c.dirty = none → ¬ c.Pending → c.stored = last

section
variable {c c' : Cache T V} {last last' : Option V} {t t' : T} {r : Role V}

omit [DecidableEq T] in
/-- A role stays owed what it was owed while the machine only grows: the same
current item and lock, no fewer changes, a later generation. -/
theorem RoleOk.grow (h : RoleOk c last t r) (hcur : ∀ i, c.Current i → c'.Current i)
    (hch : (∀ item, c.current = some item → item.changed) → ∀ item, c'.current = some item →
    item.changed) (hlock : c'.lock = c.lock) (hdirty : c.dirty.isSome → c'.dirty.isSome)
    (hgen : c.generation ≤ c'.generation) (hst : c'.stored = c.stored) (hsnap : ∀ g v, g ≤ c.generation →
    (c.dirty = some g → some v = last ∨ c.Pending) → c'.dirty = some g →
    some v = last' ∨ c'.Pending) : RoleOk c' last' t r := by
  cases r with
  | outside => trivial
  | holder i => exact hcur i h
  | pending i => exact ⟨hcur i h.1, hch h.2⟩
  | entered => exact ⟨hlock.trans h.1, hdirty h.2⟩
  | reading i => exact ⟨hlock.trans h.1, hdirty h.2.1, hcur i h.2.2⟩
  | opening i g =>
    exact ⟨hlock.trans h.1, hdirty h.2.1, hcur i h.2.2.1, Nat.le_trans h.2.2.2 hgen⟩
  | uploading i g v l =>
    obtain ⟨hl, hd, hc, hg, hs, hland⟩ := h
    exact ⟨hlock.trans hl, hdirty hd, hcur i hc, Nat.le_trans hg hgen, hsnap g v hg hs,
      fun hl' => hst.trans (hland hl')⟩
  | leaving => exact hlock.trans h

omit [DecidableEq T] in
theorem RoleOk.unlocked (h : RoleOk c last t r) (hlock : c.lock ≠ some t) :
    r = .outside ∨ (∃ i, r = .holder i) ∨ ∃ i, r = .pending i := by
  cases r with
  | outside => exact .inl rfl
  | holder i => exact .inr (.inl ⟨i, rfl⟩)
  | pending i => exact .inr (.inr ⟨i, rfl⟩)
  | entered | reading _ | opening _ _ | uploading _ _ _ _ => exact absurd h.1 hlock
  | leaving => exact absurd h hlock

omit [DecidableEq T] in
/-- What a thread without the lock is owed does not depend on the lock, the
store or the dirty mark. -/
theorem RoleOk.of_unlocked (h : RoleOk c last t r) (hlock : c.lock ≠ some t)
    (hcur : c'.current = c.current) : RoleOk c' last' t r := by
  rcases h.unlocked hlock with rfl | ⟨i, rfl⟩ | ⟨i, rfl⟩
  · trivial
  · exact (congrArg (Option.map Item.id) hcur).trans h
  · exact ⟨(congrArg (Option.map Item.id) hcur).trans h.1, fun item hi => h.2 item (hcur ▸ hi)⟩

omit [DecidableEq T] in
theorem lock_ne (hlock : c.lock = some t) (hne : t' ≠ t) : c.lock ≠ some t' := by
  rw [hlock]
  exact fun h => hne (Option.some.inj h).symm

theorem Cache.Pending.goto (h : c.Pending) (hnot : ∀ i, c.role t ≠ .pending i) :
    (c.goto t r).Pending := by
  obtain ⟨t', i, hi⟩ := h
  by_cases ht : t' = t
  · subst ht; exact absurd hi (hnot i)
  · exact ⟨t', i, (c.goto_role_of_ne r ht).trans hi⟩

/-- Thread `t` moves to a role that it is owed and that is not a change taking
effect or a pending one ending. -/
theorem Safe.goto (h : Safe c last) (hr : RoleOk c last t r)
    (hold : ∀ i, c.role t ≠ .pending i) : Safe (c.goto t r) last := by
  have hpend : c.Pending → (c.goto t r).Pending := fun hp => Cache.Pending.goto hp hold
  have hgrow : ∀ t' r', RoleOk c last t' r' → RoleOk (c.goto t r) last t' r' := by
    intro t' r' h'
    exact h'.grow (fun _ hi => hi) (fun hi => hi) rfl (fun hd => hd) (Nat.le_refl _) rfl
      fun g v _ hs hd => (hs hd).imp_right hpend
  refine ⟨?_, h.dirty_changed, h.dirty_bound, h.value_last, ?_⟩
  · intro t'
    by_cases ht : t' = t
    · subst ht
      rw [Cache.goto_role_self]
      exact hgrow _ _ hr
    · rw [Cache.goto_role_of_ne _ _ ht]
      exact hgrow _ _ (h.roles t')
  · intro hd hnp
    exact h.stored hd fun hp => hnp (hpend hp)

/-- Thread `t` moves to `r` while the rest of the machine changes from `c` to
`c'`: what every thread is owed has to be shown. -/
theorem roles_goto (hrole : c'.role = c.role) (hself : RoleOk (c'.goto t r) last' t r)
    (hother : ∀ t', t' ≠ t → RoleOk (c'.goto t r) last' t' (c.role t')) :
    ∀ t', RoleOk (c'.goto t r) last' t' ((c'.goto t r).role t') := by
  intro t'
  by_cases ht : t' = t
  · subst ht
    rw [Cache.goto_role_self]
    exact hself
  · rw [Cache.goto_role_of_ne _ _ ht, hrole]
    exact hother t' ht

/-! ## One step at a time -/

omit [DecidableEq T] in
theorem RoleOk.inside (h : RoleOk c last t r) (hr : r.inside) :
    c.lock = some t ∧ c.dirty.isSome := by
  cases r with
  | entered => exact h
  | reading _ | opening _ _ | uploading _ _ _ _ => exact ⟨h.1, h.2.1⟩
  | outside | holder _ | pending _ | leaving => exact nomatch hr

omit [DecidableEq T] in
theorem RoleOk.unused (h : RoleOk c last t r) (hd : c.dirty = none) (hr : ∀ i, r ≠ .holder i ∧
    r ≠ .pending i) (hlock : c'.lock = c.lock) : RoleOk c' last' t r := by
  have hnot : ¬ c.dirty.isSome := by simp [hd]
  cases r with
  | outside => trivial
  | holder i => exact absurd rfl (hr i).1
  | pending i => exact absurd rfl (hr i).2
  | entered => exact absurd h.2 hnot
  | reading _ | opening _ _ | uploading _ _ _ _ => exact absurd h.2.1 hnot
  | leaving => exact hlock.trans h

omit [DecidableEq T] in
theorem Safe.idle (h : Safe c last) (hcur : c.current = none) :
    c.dirty = none ∧ ∀ t i, c.role t ≠ .holder i ∧ c.role t ≠ .pending i := by
  have hnot : ∀ i, ¬ c.Current i := by
    intro i hi
    simp [Cache.Current, hcur] at hi
  constructor
  · cases hd : c.dirty with
    | none => rfl
    | some g =>
      obtain ⟨item, hi, _⟩ := h.dirty_changed (by simp [hd])
      exact nomatch hcur.symm.trans hi
  · intro t i
    have ht := h.roles t
    constructor
    · intro hr
      rw [hr] at ht
      exact hnot i ht
    · intro hr
      rw [hr] at ht
      exact hnot i ht.1

theorem Safe.create (h : Safe c last) (hcur : c.current = none) (i : Nat) (v : V) :
    Safe ({ c with current := some ⟨i, v, false, false⟩ }.goto t (.holder i)) last := by
  obtain ⟨hd, hnone⟩ := h.idle hcur
  refine Safe.goto ?_ rfl fun j hj => (hnone t j).2 hj
  refine ⟨fun t' => (h.roles t').unused hd (hnone t') rfl, ?_, h.dirty_bound, ?_, h.stored⟩
  · intro hd'
    simp [hd] at hd'
  · intro item hitem hready
    obtain rfl := Option.some.inj hitem
    simp at hready

omit [DecidableEq T] in
theorem Safe.unchanged (h : Safe c last) {item : Item V} (hcur : c.current = some item)
    (hch : item.changed = false) : c.dirty = none ∧ ¬ c.Pending := by
  constructor
  · cases hd : c.dirty with
    | none => rfl
    | some g =>
      obtain ⟨item', hi', hch'⟩ := h.dirty_changed (by simp [hd])
      obtain rfl : item = item' := Option.some.inj (hcur.symm.trans hi')
      exact nomatch hch.symm.trans hch'
  · rintro ⟨t', j, hj⟩
    have hrole := h.roles t'
    rw [hj] at hrole
    exact nomatch hch.symm.trans (hrole.2 item hcur)

omit [DecidableEq T] in
theorem RoleOk.item (h : RoleOk c last t r) {item item' : Item V} (hcur : c.current = some item)
    (hid : item'.id = item.id) (hch : item.changed → item'.changed) :
    RoleOk { c with current := some item' } last t r := by
  refine h.grow ?_ ?_ rfl (fun hd => hd) (Nat.le_refl _) rfl fun _ _ _ hs hd => hs hd
  · intro i hi
    simpa [Cache.Current, hcur, hid] using hi
  · intro hall it hit
    obtain rfl := Option.some.inj hit
    exact hch (hall item hcur)

omit [DecidableEq T] in
theorem Safe.fetch (h : Safe c last) {item : Item V} {v : V} (hcur : c.current = some item)
    (hch : item.changed = false) (hst : c.stored = some v) :
    Safe { c with current := some { item with value := v, fetched := true } } last := by
  obtain ⟨hd, hnp⟩ := h.unchanged hcur hch
  refine ⟨fun t' => (h.roles t').item hcur rfl (fun hi => hi), ?_, h.dirty_bound, ?_, h.stored⟩
  · intro hd'
    simp [hd] at hd'
  · intro it hit _
    obtain rfl := Option.some.inj hit
    exact hst.symm.trans (h.stored hd hnp)

omit [DecidableEq T] in
theorem Safe.spoil (h : Safe c last) {item : Item V} (v : V) (hcur : c.current = some item)
    (hch : item.changed = false) (hf : item.fetched = false) :
    Safe { c with current := some { item with value := v } } last := by
  obtain ⟨hd, _⟩ := h.unchanged hcur hch
  refine ⟨fun t' => (h.roles t').item hcur rfl (fun hi => hi), ?_, h.dirty_bound, ?_, h.stored⟩
  · intro hd'
    simp [hd] at hd'
  · intro it hit hready
    obtain rfl := Option.some.inj hit
    simp [hch, hf] at hready

theorem Safe.change (h : Safe c last) {i : Nat} {item : Item V} (v : V) (hr : c.role t = .holder i)
    (hcur : c.current = some item) :
    Safe ({ c with current := some { item with value := v, changed := true } }.goto t (.pending i))
    (some v) := by
  have hid : c.Current i := by simpa [hr, RoleOk] using h.roles t
  have hpend : ({ c with current := some { item with value := v, changed := true } }.goto t
      (.pending i)).Pending := ⟨t, i, Cache.goto_role_self _ _ _⟩
  have hkeep : ∀ j, c.Current j → ({ c with current := some { item with value := v, changed := true } }.goto t
        (.pending i)).Current j := by
    intro j hj
    simpa [Cache.Current, Cache.goto, hcur] using hj
  have hall : ∀ it, some ({ item with value := v, changed := true } : Item V) = some it →
      it.changed := by
    intro it hit
    obtain rfl := Option.some.inj hit
    rfl
  refine ⟨roles_goto (c := c) rfl ⟨hkeep i hid, hall⟩ ?_, ?_, h.dirty_bound, ?_, ?_⟩
  · intro t' _
    exact (h.roles t').grow hkeep (fun _ => hall) rfl (fun hd => hd) (Nat.le_refl _) rfl
      fun _ _ _ _ _ => .inr hpend
  · intro _
    exact ⟨_, rfl, rfl⟩
  · intro it hit _
    obtain rfl := Option.some.inj hit
    rfl
  · intro _ hnp
    exact absurd hpend hnp

theorem Safe.mark (h : Safe c last) {i : Nat} (hr : c.role t = .pending i) :
    Safe ({ c with dirty := some (c.generation + 1), generation := c.generation + 1 }.goto t
    (.holder i)) last := by
  have hrole : RoleOk c last t (.pending i) := hr ▸ h.roles t
  refine ⟨roles_goto (c := c) rfl hrole.1 ?_, ?_, ?_, h.value_last, ?_⟩
  · intro t' _
    refine (h.roles t').grow (fun _ hi => hi) (fun hi => hi) rfl (fun _ => rfl) (Nat.le_succ _) rfl ?_
    -- a generation read before is not the one just handed out
    intro g v hg _ hd
    simp only [Cache.goto, Option.some.injEq] at hd
    omega
  · intro _
    obtain ⟨item, hitem, _⟩ := Option.map_eq_some_iff.1 hrole.1
    exact ⟨item, hitem, hrole.2 item hitem⟩
  · intro g hg
    simp only [Cache.goto, Option.some.injEq] at hg
    simp only [Cache.goto]
    omega
  · intro hd
    exact nomatch hd

theorem Safe.leaveRetire (h : Safe c last) (hd : c.dirty = none) (ho : ∀ t' j, t' ≠ t →
    c.role t' ≠ .holder j ∧ c.role t' ≠ .pending j) {i : Nat} (hr : c.role t = .holder i) :
    Safe ({ c with current := none }.goto t .outside) last := by
  refine ⟨roles_goto (c := c) rfl trivial ?_, ?_, h.dirty_bound, ?_, ?_⟩
  · intro t' ht
    exact (h.roles t').unused hd (fun j => ho t' j ht) rfl
  · intro hd'
    simp [Cache.goto, hd] at hd'
  · intro j hj
    exact nomatch hj
  · intro _ hnp
    exact h.stored hd fun hp => hnp (Cache.Pending.goto hp fun j hj => by simp [hr] at hj)

omit [DecidableEq T] in
theorem Safe.retire (h : Safe c last) (hd : c.dirty = none) (ho : ∀ t j, c.role t ≠ .holder j ∧
    c.role t ≠ .pending j) : Safe { c with current := none } last := by
  refine ⟨fun t' => (h.roles t').unused hd (ho t') rfl, ?_, h.dirty_bound, ?_, h.stored⟩
  · intro hd'
    simp [hd] at hd'
  · intro j hj
    exact nomatch hj

theorem Safe.enter (h : Safe c last) (hr : c.role t = .outside) (hl : c.lock = none)
    (hd : c.dirty.isSome) : Safe ({ c with lock := some t }.goto t .entered) last := by
  refine Safe.goto ?_ ⟨rfl, hd⟩ fun i hi => by simp [hr] at hi
  refine ⟨fun t' => (h.roles t').of_unlocked (by simp [hl]) rfl, h.dirty_changed, h.dirty_bound,
    h.value_last, h.stored⟩

theorem Safe.land (h : Safe c last) {i g : Nat} {v : V} {before : Bool}
    (hr : c.role t = .uploading i g v before) :
    Safe ({ c with stored := some v }.goto t (.uploading i g v true)) last := by
  obtain ⟨hl, hd, hc, hg, hs, _⟩ : RoleOk c last t (.uploading i g v before) := hr ▸ h.roles t
  have hpend : c.Pending → ({ c with stored := some v }.goto t (.uploading i g v true)).Pending :=
    fun hp => Cache.Pending.goto hp fun j hj => by simp [hr] at hj
  refine ⟨roles_goto (c := c) rfl ⟨hl, hd, hc, hg, fun hdg => (hs hdg).imp_right hpend, fun _ => rfl⟩ ?_,
    h.dirty_changed, h.dirty_bound, h.value_last, ?_⟩
  · intro t' ht
    exact (h.roles t').of_unlocked (lock_ne hl ht) rfl
  · intro hd' _
    simp only [Cache.goto] at hd'
    simp [hd'] at hd

theorem Safe.clean (h : Safe c last) {i g : Nat} {v : V} (hr : c.role t = .uploading i g v true)
    (hd : c.dirty = some g) : Safe ({ c with dirty := none }.goto t .leaving) last := by
  obtain ⟨hl, _, _, _, hs, hland⟩ : RoleOk c last t (.uploading i g v true) := hr ▸ h.roles t
  refine ⟨roles_goto (c := c) rfl hl ?_, ?_, ?_, h.value_last, ?_⟩
  · intro t' ht
    exact (h.roles t').of_unlocked (lock_ne hl ht) rfl
  · intro hd'
    exact nomatch hd'
  · intro g' hg'
    exact nomatch hg'
  · intro _ hnp
    -- the generation is still the one read before the value was
    rcases hs hd with hv | hp
    · exact (hland rfl).trans hv
    · exact absurd (Cache.Pending.goto hp fun j hj => by simp [hr] at hj) hnp

theorem Safe.unlock (h : Safe c last) (hr : c.role t = .leaving) :
    Safe ({ c with lock := none }.goto t .outside) last := by
  have hl : c.lock = some t := by simpa [hr, RoleOk] using h.roles t
  refine ⟨roles_goto (c := c) rfl trivial ?_, h.dirty_changed, h.dirty_bound, h.value_last, ?_⟩
  · intro t' ht
    exact (h.roles t').of_unlocked (lock_ne hl ht) rfl
  · intro hd hnp
    exact h.stored hd fun hp => hnp (Cache.Pending.goto hp fun j hj => by simp [hr] at hj)

theorem Safe.step {e : Effect V} (h : Safe c last) (hs : Step c e c') : Safe c' (e.apply last) := by
  cases hs with
  | quiet => exact h
  | advance hn =>
    refine ⟨fun t' => (h.roles t').grow (fun _ hi => hi) (fun hi => hi) rfl (fun hd => hd) hn rfl
      fun g v _ hs hd => hs hd, h.dirty_changed, ?_, h.value_last, h.stored⟩
    intro g hg
    exact Nat.le_trans (h.dirty_bound g hg) hn
  | join t hr hc => exact h.goto hc fun i hi => by simp [hr] at hi
  | create t i v _ hc => exact h.create hc i v
  | fetch hcur hch hst => exact h.fetch hcur hch hst
  | spoil v hcur hch hf => exact h.spoil v hcur hch hf
  | change t v hr hcur => exact h.change v hr hcur
  | mark t hr => exact h.mark hr
  | leave t hr => exact h.goto trivial fun i hi => by simp [hr] at hi
  | leaveRetire t hr hd ho => exact h.leaveRetire hd ho hr
  | retire hd ho => exact h.retire hd ho
  | enter t hr hl hd => exact h.enter hr hl hd
  | find t hr hc =>
    have hrole : RoleOk c last t .entered := hr ▸ h.roles t
    exact h.goto ⟨hrole.1, hrole.2, hc⟩ fun i hi => by simp [hr] at hi
  | @readGeneration i g t hr hd =>
    have hrole : RoleOk c last t (.reading i) := hr ▸ h.roles t
    exact h.goto ⟨hrole.1, hrole.2.1, hrole.2.2, h.dirty_bound g hd⟩ fun i hi => by simp [hr] at hi
  | @snapshot i g item t hr hcur =>
    obtain ⟨hl, hd, hc, hg⟩ : RoleOk c last t (.opening i g) := hr ▸ h.roles t
    obtain ⟨item', hitem', hch⟩ := h.dirty_changed hd
    obtain rfl : item = item' := Option.some.inj (hcur.symm.trans hitem')
    exact h.goto ⟨hl, hd, hc, hg, fun _ => .inl (h.value_last item hcur (.inl hch)),
      fun hf => nomatch hf⟩ fun k hk => by simp [hr] at hk
  | land t hr => exact h.land hr
  | clean t hr hd => exact h.clean hr hd
  | giveUp t hr =>
    exact h.goto ((h.roles t).inside hr).1 fun i hi => by simp [hi, Role.inside] at hr
  | unlock t hr => exact h.unlock hr

end

end WriteBack
