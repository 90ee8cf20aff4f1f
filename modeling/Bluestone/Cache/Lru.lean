/-
# `Bluestone.Cache.Lru` — the cache that forgets what was used longest ago

`LRUCache` keeps a map from keys to the elements of a list, most recently used first.  A
`Get` that hits moves its element to the front and leaves its expiry; an expired entry is
a miss and stays where it is.

`Ledger` is the history of the calls: for each key that was not removed the value last
set, when, and the number of the call that last set or found it.  It is computed from the
calls alone, the evictions too, which take the key used longest ago.
`lru_bounded_map`: map and list agree with each other and with the ledger, and the callback
runs once for each entry that goes.

`CleanExpired` walks the list from the back and stops at the first entry it keeps.  Since
reading does not renew an entry, an expired one may stand in front of it
(`read_entry_left`); `clean_expired_exact` says when none does.
-/
import Bluestone.Library.Runs
import Mathlib.Data.List.TakeWhile
import Mathlib.Data.Set.Card

namespace Bluestone.Cache

open Function (update update_self update_of_ne)
open List (mem_filter mem_cons_self mem_reverse mem_cons mem_map)

open Runs

structure Entry (K V : Type) where
  key : K
  value : V
  expiresAt : Int

/-- The statistics are left out.  An element of the list is told by the key of its entry: it
never changes, and a key gets a new element only when the map has none. -/
structure LRUCache (K V : Type) where
  maxSize : Nat
  ttl : Int
  /-- The entry of the element the map has for a key. -/
  items : K → Option (Entry K V)
  /-- Front first. -/
  evictList : List (Entry K V)
  /-- The calls of `onEvict`, oldest first. -/
  evicted : List (K × V)

def staleRetention : Int := 24 * 3600 * 1000000000

namespace LRUCache

variable {K V : Type} [DecidableEq K] (c : LRUCache K V)

def get (now : Int) (key : K) : Option V × LRUCache K V :=
  match c.items key with
  | none => (none, c)
  | some e =>
    if now > e.expiresAt then (none, c)
    else (some e.value, { c with evictList := e :: c.evictList.filter (·.key ≠ key) })

def getStale (key : K) : Option V := (c.items key).map Entry.value

def removeElement (e : Entry K V) : LRUCache K V :=
  { c with
    evictList := c.evictList.filter (·.key ≠ e.key)
    items := update c.items e.key none
    evicted := c.evicted ++ [(e.key, e.value)] }

def evictOldest : LRUCache K V :=
  match c.evictList.getLast? with
  | none => c
  | some e => c.removeElement e

def pushFront (e : Entry K V) : LRUCache K V :=
  { c with
    evictList := e :: c.evictList
    items := update c.items e.key (some e) }

def set (now : Int) (key : K) (value : V) : LRUCache K V :=
  let e := ⟨key, value, now + c.ttl⟩
  match c.items key with
  | some _ =>
    { c with
      evictList := e :: c.evictList.filter (·.key ≠ key)
      items := update c.items key (some e) }
  | none =>
    if (c.pushFront e).evictList.length > c.maxSize then (c.pushFront e).evictOldest else c.pushFront e

def delete (key : K) : LRUCache K V :=
  match c.items key with
  | none => c
  | some e => c.removeElement e

/-- `DeletePrefix`, for the keys that have the prefix.  The map is walked in the order of
the list; removals of different elements commute. -/
def deleteWhere (hasPrefix : K → Bool) : LRUCache K V :=
  (c.evictList.filter fun e => hasPrefix e.key).foldl removeElement c

def clear : LRUCache K V :=
  { c with
    items := fun _ => none
    evictList := []
    evicted := c.evicted ++ c.evictList.map fun e => (e.key, e.value) }

def expired (now : Int) (e : Entry K V) : Bool := now > e.expiresAt + staleRetention

/-- The loop of `CleanExpired` over what is left of the list, from the back. -/
def sweep (now : Int) : List (Entry K V) → LRUCache K V → LRUCache K V
  | [], c => c
  | e :: rest, c => if expired now e then sweep now rest (c.removeElement e) else c

def cleanExpired (now : Int) : LRUCache K V := sweep now c.evictList.reverse c

end LRUCache

/-- A call; `CleanExpired` and `EvictOldest` may also come from the janitor. -/
inductive Call (K V : Type)
  | set (now : Int) (key : K) (value : V)
  | get (now : Int) (key : K)
  | getStale (key : K)
  | delete (key : K)
  | deleteWhere (hasPrefix : K → Bool)
  | evictOldest
  | cleanExpired (now : Int)
  | clear

section
variable {K V : Type}

def LRUCache.holds (c : LRUCache K V) (key : K) : Bool := (c.items key).isSome

/-! ## The history of a key -/

/-- The value last set, the time of that call, and the number of the call that last set or
found it. -/
structure Use (V : Type) where
  value : V
  setAt : Int
  used : Nat

/-- The number of the next call, and the uses of the keys that were not removed since. -/
structure Ledger (K V : Type) where
  calls : Nat
  use : K → Option (Use V)

namespace Ledger

variable (l : Ledger K V)

/-- The key was used longest ago. -/
def Oldest (key : K) : Prop := ∃ u, l.use key = some u ∧ ∀ k w, l.use k = some w → u.used ≤ w.used

/-- The retention of the key, and of all that were used before it, has passed. -/
def Overdue (ttl now : Int) (key : K) : Prop :=
  ∃ u, l.use key = some u ∧ ∀ k w, l.use k = some w → w.used ≤ u.used → now > w.setAt + ttl + staleRetention

open Classical in
/-- The uses without those of the keys that go. -/
noncomputable def drop (gone : K → Prop) (key : K) : Option (Use V) := if gone key then none else l.use key

end Ledger

/-! ## The invariant -/

/-- Map and list have the same entries, once each. -/
structure Agree (c : LRUCache K V) : Prop where
  nodup : (c.evictList.map Entry.key).Nodup
  items : ∀ key e, c.items key = some e ↔ e ∈ c.evictList ∧ e.key = key

/-- The entries are as the ledger says, and their order is the order of use. -/
structure Kept (c : LRUCache K V) (l : Ledger K V) : Prop where
  agree : Agree c
  seen : ∀ e ∈ c.evictList, ∃ u, l.use e.key = some u ∧ e.value = u.value ∧ e.expiresAt = u.setAt + c.ttl ∧
    u.used < l.calls
  unseen : ∀ key, c.items key = none → l.use key = none
  order : c.evictList.Pairwise fun a b => ∀ u w, l.use a.key = some u → l.use b.key = some w → w.used < u.used

variable {c : LRUCache K V} {l : Ledger K V} {e : Entry K V}

theorem Agree.nodup_reverse (ha : Agree c) : (c.evictList.reverse.map Entry.key).Nodup := by
  rw [List.map_reverse]
  exact List.nodup_reverse.2 ha.nodup

theorem Kept.entry (hk : Kept c l) {key : K} {u : Use V} (hu : l.use key = some u) :
    ∃ e ∈ c.evictList, e.key = key ∧ e.value = u.value ∧ e.expiresAt = u.setAt + c.ttl := by
  cases hitem : c.items key with
  | none => exact nomatch hu.symm.trans (hk.unseen key hitem)
  | some e =>
    obtain ⟨hmem, rfl⟩ := (hk.agree.items _ _).1 hitem
    obtain ⟨w, hw, hval, hexp, -⟩ := hk.seen e hmem
    obtain rfl := Option.some.inj (hu.symm.trans hw)
    exact ⟨e, hmem, rfl, hval, hexp⟩

theorem getStale_eq_some (hk : Kept c l) (key : K) (value : V) :
    c.getStale key = some value ↔ ∃ u, l.use key = some u ∧ u.value = value := by
  rw [LRUCache.getStale, Option.map_eq_some_iff]
  constructor
  · rintro ⟨e, hitem, rfl⟩
    obtain ⟨hmem, rfl⟩ := (hk.agree.items _ _).1 hitem
    obtain ⟨u, hu, hval, -⟩ := hk.seen e hmem
    exact ⟨u, hu, hval.symm⟩
  · rintro ⟨u, hu, rfl⟩
    obtain ⟨e, hmem, hkey, hval, -⟩ := hk.entry hu
    exact ⟨e, (hk.agree.items _ _).2 ⟨hmem, hkey⟩, hval⟩

theorem Kept.use_eq_none (hk : Kept c l) (key : K) : l.use key = none ↔ c.items key = none := by
  refine ⟨fun hnone => ?_, hk.unseen key⟩
  cases hitem : c.items key with
  | none => rfl
  | some e =>
    obtain ⟨hmem, rfl⟩ := (hk.agree.items _ _).1 hitem
    obtain ⟨u, hu, -⟩ := hk.seen e hmem
    exact nomatch hu.symm.trans hnone

theorem Kept.last_oldest (hk : Kept c l) {o a : Entry K V} (hlast : c.evictList.getLast? = some o)
    (hmem : a ∈ c.evictList) (hne : a ≠ o) {u w : Use V} (hu : l.use o.key = some u)
    (hw : l.use a.key = some w) : u.used < w.used := by
  obtain ⟨rest, hrest⟩ := List.getLast?_eq_some_iff.1 hlast
  have horder := hk.order
  rw [hrest, List.pairwise_append] at horder
  rw [hrest, List.mem_append, List.mem_singleton] at hmem
  exact horder.2.2 a (hmem.resolve_right hne) o mem_cons_self w u hw hu

theorem Kept.oldest_iff (hk : Kept c l) (he : e ∈ c.evictList) :
    e ∈ c.evictList.getLast?.toList ↔ l.Oldest e.key := by
  obtain ⟨u, hu, -⟩ := hk.seen e he
  rw [Option.mem_toList]
  constructor
  · intro hlast
    refine ⟨u, hu, fun k w hw => ?_⟩
    obtain ⟨a, ha, rfl, -⟩ := hk.entry hw
    by_cases heq : a = e
    · subst heq
      rw [Option.some.inj (hu.symm.trans hw)]
    · exact Nat.le_of_lt (hk.last_oldest hlast ha heq hu hw)
  · rintro ⟨u', hu', hall⟩
    obtain rfl := Option.some.inj (hu.symm.trans hu')
    obtain ⟨o, ho⟩ := Option.ne_none_iff_exists'.1 (mt List.getLast?_eq_none_iff.1 (List.ne_nil_of_mem he))
    by_cases heq : e = o
    · exact heq ▸ ho
    · obtain ⟨w, hw, -⟩ := hk.seen o (List.mem_of_getLast? ho)
      exact absurd (hall o.key w hw) (Nat.not_le.2 (hk.last_oldest ho he heq hw hu))

theorem mem_takeWhile_iff {α : Type} {p : α → Bool} {f : α → Nat} {xs : List α} (h : xs.Pairwise (f · < f ·))
    {a : α} (ha : a ∈ xs) : a ∈ xs.takeWhile p ↔ ∀ b ∈ xs, f b ≤ f a → p b := by
  induction xs with
  | nil => exact absurd ha List.not_mem_nil
  | cons x xs ih =>
    obtain ⟨hx, h⟩ := List.pairwise_cons.1 h
    have hfirst : f x ≤ f a := by
      rcases mem_cons.1 ha with rfl | hrest
      · exact Nat.le_refl _
      · exact Nat.le_of_lt (hx a hrest)
    by_cases hp : p x
    · rw [List.takeWhile_cons_of_pos hp, List.forall_mem_cons, and_iff_right fun _ => hp]
      rcases mem_cons.1 ha with rfl | hrest
      · exact iff_of_true mem_cons_self fun b hb hle => absurd (hx b hb) (Nat.not_lt.2 hle)
      · rw [mem_cons, ih h hrest, or_iff_right]
        rintro rfl
        exact Nat.lt_irrefl _ (hx a hrest)
    · rw [List.takeWhile_cons_of_neg hp]
      exact iff_of_false List.not_mem_nil fun hall => hp (hall x mem_cons_self hfirst)

/-- The sweep from the back takes what is overdue. -/
theorem Kept.overdue_iff (hk : Kept c l) (he : e ∈ c.evictList) (now : Int) :
    e ∈ c.evictList.reverse.takeWhile (LRUCache.expired now) ↔ l.Overdue c.ttl now e.key := by
  have hrank : ∀ {key u}, l.use key = some u → ((l.use key).map Use.used).getD 0 = u.used := by
    intro key u hu
    rw [hu]
    rfl
  have hpair : c.evictList.reverse.Pairwise fun a b => ((l.use a.key).map Use.used).getD 0 <
      ((l.use b.key).map Use.used).getD 0 := by
    refine (List.pairwise_reverse.2 hk.order).imp_of_mem fun {a b} ha hb hab => ?_
    obtain ⟨u, hu, -⟩ := hk.seen a (mem_reverse.1 ha)
    obtain ⟨w, hw, -⟩ := hk.seen b (mem_reverse.1 hb)
    rw [hrank hu, hrank hw]
    exact hab w u hw hu
  obtain ⟨u, hu, -⟩ := hk.seen e he
  rw [mem_takeWhile_iff hpair (mem_reverse.2 he)]
  constructor
  · intro h
    refine ⟨u, hu, fun k w hw hle => ?_⟩
    obtain ⟨b, hb, rfl, -, hexp⟩ := hk.entry hw
    have hpast := h b (mem_reverse.2 hb) (by rw [hrank hw, hrank hu]; exact hle)
    exact hexp ▸ of_decide_eq_true hpast
  · rintro ⟨u', hu', hall⟩ b hb hle
    obtain rfl := Option.some.inj (hu.symm.trans hu')
    obtain ⟨w, hw, -, hexp, -⟩ := hk.seen b (mem_reverse.1 hb)
    rw [hrank hw, hrank hu] at hle
    exact decide_eq_true (hexp ▸ hall b.key w hw hle)

theorem Kept.later (hk : Kept c l) : Kept c ⟨l.calls + 1, l.use⟩ where
  agree := hk.agree
  seen e he := (hk.seen e he).imp fun _ h => ⟨h.1, h.2.1, h.2.2.1, Nat.lt_succ_of_lt h.2.2.2⟩
  unseen := hk.unseen
  order := hk.order

end

section
variable {K V : Type} [DecidableEq K]

/-! ## Runs of calls -/

def LRUCache.after (c : LRUCache K V) : Call K V → LRUCache K V
  | .set now key value => c.set now key value
  | .get now key => (c.get now key).2
  | .getStale _ => c
  | .delete key => c.delete key
  | .deleteWhere hasPrefix => c.deleteWhere hasPrefix
  | .evictOldest => c.evictOldest
  | .cleanExpired now => c.cleanExpired now
  | .clear => c.clear

open Classical in
/-- The ledger after a call of a cache with the capacity and the ttl. -/
noncomputable def Ledger.after (l : Ledger K V) (maxSize : Nat) (ttl : Int) (e : Call K V) : Ledger K V where
  calls := l.calls + 1
  use :=
    match e with
    | .set now key value =>
      update (if l.use key = none ∧ maxSize ≤ {k | l.use k ≠ none}.ncard then l.drop l.Oldest else l.use) key
        (some ⟨value, now, l.calls⟩)
    | .get now key =>
      match l.use key with
      | some u => if now ≤ u.setAt + ttl then update l.use key (some { u with used := l.calls }) else l.use
      | none => l.use
    | .getStale _ => l.use
    | .delete key => l.drop (· = key)
    | .deleteWhere hasPrefix => l.drop (hasPrefix ·)
    | .evictOldest => l.drop l.Oldest
    | .cleanExpired now => l.drop (l.Overdue ttl now)
    | .clear => l.drop fun _ => True

/-- An empty cache with room for an entry, and its history. -/
noncomputable def lruSystem (K V : Type) [DecidableEq K] : System (LRUCache K V × Ledger K V) (Call K V) :=
  System.track
    { init := fun c => 0 < c.maxSize ∧ c.items = (fun _ => none) ∧ c.evictList = []
      step := fun c e c' => c' = c.after e }
    (fun _ => ⟨0, fun _ => none⟩) fun c e _ l => l.after c.maxSize c.ttl e

/-- The entries `gone` are removed, each with a call of `onEvict`. -/
structure Removed (c : LRUCache K V) (gone : List (Entry K V)) (c' : LRUCache K V) : Prop where
  nodup : (gone.map Entry.key).Nodup
  mem : ∀ e ∈ gone, e ∈ c.evictList
  evictList : c'.evictList = c.evictList.filter (·.key ∉ gone.map Entry.key)
  items : ∀ key, c'.items key = if key ∈ gone.map Entry.key then none else c.items key
  evicted : c'.evicted = c.evicted ++ gone.map fun e => (e.key, e.value)
  rest : c'.maxSize = c.maxSize ∧ c'.ttl = c.ttl

variable {c c' : LRUCache K V} {l : Ledger K V} {gone : List (Entry K V)} {e : Entry K V}

theorem Removed.refl (c : LRUCache K V) : Removed c [] c := by
  refine ⟨.nil, nofun, ?_, ?_, ?_, rfl, rfl⟩ <;> simp

theorem Removed.agree (h : Removed c gone c') (ha : Agree c) : Agree c' where
  nodup := h.evictList ▸ ha.nodup.sublist (List.filter_sublist.map _)
  items key e := by
    rw [h.items, h.evictList, mem_filter, decide_eq_true_iff]
    split
    · next hgone =>
      refine iff_of_false nofun ?_
      rintro ⟨⟨_, hstay⟩, rfl⟩
      exact hstay hgone
    · next hstay =>
      rw [ha.items]
      constructor
      · rintro ⟨hmem, rfl⟩
        exact ⟨⟨hmem, hstay⟩, rfl⟩
      · rintro ⟨⟨hmem, _⟩, rfl⟩
        exact ⟨hmem, rfl⟩

theorem Removed.removeElement (h : Removed c gone c') (he : e ∈ c'.evictList) :
    Removed c (gone ++ [e]) (c'.removeElement e) := by
  rw [h.evictList, mem_filter, decide_eq_true_iff] at he
  refine ⟨?_, ?_, ?_, fun key => ?_, ?_, h.rest⟩
  · rw [List.map_append, List.nodup_append]
    refine ⟨h.nodup, List.nodup_singleton _, fun a hold b hnew hab => he.2 ?_⟩
    rw [← List.mem_singleton.1 hnew, ← hab]
    exact hold
  · intro a hmem
    rcases List.mem_append.1 hmem with hold | hnew
    · exact h.mem a hold
    · exact List.mem_singleton.1 hnew ▸ he.1
  · change c'.evictList.filter _ = _
    rw [h.evictList, List.filter_filter]
    refine List.filter_congr fun a _ => ?_
    by_cases ha : a.key = e.key <;> simp [ha]
  · change update c'.items e.key none key = _
    rw [Function.update_apply, h.items]
    by_cases hkey : key = e.key <;> simp [hkey]
  · change c'.evicted ++ [_] = _
    rw [h.evicted, List.append_assoc, List.map_append]
    rfl

theorem removed_delete (ha : Agree c) (key : K) : Removed c (c.items key).toList (c.delete key) := by
  rw [LRUCache.delete]
  cases h : c.items key with
  | none => exact .refl c
  | some e => exact (Removed.refl c).removeElement ((ha.items key e).1 h).1

theorem removed_foldl (h : Removed c gone c') {todo : List (Entry K V)} (hnd : (todo.map Entry.key).Nodup)
    (hmem : ∀ e ∈ todo, e ∈ c'.evictList) : Removed c (gone ++ todo) (todo.foldl LRUCache.removeElement c') := by
  induction todo generalizing gone c' with
  | nil => simpa using h
  | cons e rest ih =>
    obtain ⟨hnew, hnd⟩ := List.nodup_cons.1 hnd
    have hstep := ih (h.removeElement (hmem e mem_cons_self)) hnd fun a hrest => by
      refine mem_filter.2 ⟨hmem a (List.mem_cons_of_mem _ hrest), decide_eq_true fun heq => hnew ?_⟩
      exact heq ▸ List.mem_map_of_mem hrest
    rwa [List.append_assoc] at hstep

theorem removed_deleteWhere (ha : Agree c) (hasPrefix : K → Bool) :
    Removed c (c.evictList.filter fun e => hasPrefix e.key) (c.deleteWhere hasPrefix) :=
  removed_foldl (.refl c) (ha.nodup.sublist (List.filter_sublist.map _)) fun _ he => (mem_filter.1 he).1

theorem sweep_eq_foldl (now : Int) (todo : List (Entry K V)) (c : LRUCache K V) :
    LRUCache.sweep now todo c = (todo.takeWhile (LRUCache.expired now)).foldl LRUCache.removeElement c := by
  induction todo generalizing c with
  | nil => rfl
  | cons e rest ih =>
    by_cases h : LRUCache.expired now e
    · rw [LRUCache.sweep, if_pos h, ih, List.takeWhile_cons_of_pos h]
      rfl
    · rw [LRUCache.sweep, if_neg h, List.takeWhile_cons_of_neg h]
      rfl

theorem removed_cleanExpired (ha : Agree c) (now : Int) :
    Removed c (c.evictList.reverse.takeWhile (LRUCache.expired now)) (c.cleanExpired now) := by
  have hsub := List.takeWhile_sublist (l := c.evictList.reverse) (LRUCache.expired now)
  rw [LRUCache.cleanExpired, sweep_eq_foldl]
  exact removed_foldl (.refl c) (ha.nodup_reverse.sublist (hsub.map _)) fun e he => mem_reverse.1 (hsub.subset he)

theorem removed_evictOldest (c : LRUCache K V) : Removed c c.evictList.getLast?.toList c.evictOldest := by
  rw [LRUCache.evictOldest]
  cases h : c.evictList.getLast? with
  | none => exact .refl c
  | some e => exact (Removed.refl c).removeElement (List.mem_of_getLast? h)

theorem removed_clear (ha : Agree c) : Removed c c.evictList c.clear where
  nodup := ha.nodup
  mem _ he := he
  evictList := (List.filter_eq_nil_iff.2 fun e he => by simpa using ⟨e, he, rfl⟩).symm
  items key := by
    split
    · rfl
    · next hout =>
      cases h : c.items key with
      | none => rfl
      | some e =>
        obtain ⟨hmem, rfl⟩ := (ha.items key e).1 h
        exact absurd (List.mem_map_of_mem hmem) hout
  evicted := rfl
  rest := ⟨rfl, rfl⟩

/-! ## What a call keeps -/

theorem Removed.mem_iff (h : Removed c gone c') (ha : Agree c) (he : e ∈ c.evictList) :
    e ∈ c'.evictList ↔ e ∉ gone := by
  rw [h.evictList, mem_filter, decide_eq_true_iff, and_iff_right he]
  refine not_congr ⟨fun hkey => ?_, List.mem_map_of_mem⟩
  obtain ⟨a, hmem, hkey⟩ := mem_map.1 hkey
  have hsame := ((ha.items _ a).2 ⟨h.mem a hmem, hkey⟩).symm.trans ((ha.items _ e).2 ⟨he, rfl⟩)
  exact Option.some.inj hsame ▸ hmem

/-- The ledger knows how many entries there are. -/
theorem Kept.card (hk : Kept c l) : {key | l.use key ≠ none}.ncard = c.evictList.length := by
  have hkeys : {key | l.use key ≠ none} = ((c.evictList.map Entry.key).toFinset : Set K) := by
    ext key
    rw [Set.mem_ofPred_eq, Ne, hk.use_eq_none, List.coe_toFinset, Set.mem_ofPred_eq, mem_map, ← Ne,
      Option.ne_none_iff_exists']
    exact exists_congr fun e => hk.agree.items key e
  rw [hkeys, Set.ncard_coe_finset, List.toFinset_card_of_nodup hk.agree.nodup, List.length_map]

/-- What the ledger drops is what the cache removes. -/
theorem Kept.drop (hk : Kept c l) (h : Removed c gone c') {p : K → Prop} (hp : ∀ e ∈ c.evictList, e ∈ gone ↔ p e.key)
    {calls : Nat} (hcalls : l.calls ≤ calls) : Kept c' ⟨calls, l.drop p⟩ := by
  have hstay : ∀ a ∈ c'.evictList, a ∈ c.evictList ∧ l.drop p a.key = l.use a.key := by
    intro a ha
    rw [h.evictList, mem_filter, decide_eq_true_iff] at ha
    exact ⟨ha.1, if_neg fun hgone => ha.2 (List.mem_map_of_mem ((hp a ha.1).2 hgone))⟩
  refine ⟨h.agree hk.agree, fun a ha => ?_, fun key hnone => ?_, ?_⟩
  · obtain ⟨hold, huse⟩ := hstay a ha
    obtain ⟨u, hu, hvalue, hexp, hused⟩ := hk.seen a hold
    exact ⟨u, huse.trans hu, hvalue, h.rest.2.symm ▸ hexp, Nat.lt_of_lt_of_le hused hcalls⟩
  · rw [h.items] at hnone
    by_cases hin : key ∈ gone.map Entry.key
    · obtain ⟨a, ha, rfl⟩ := mem_map.1 hin
      exact if_pos ((hp a (h.mem a ha)).1 ha)
    · rw [if_neg hin] at hnone
      show l.drop p key = none
      rw [Ledger.drop, hk.unseen key hnone, ite_self]
  · have hold : c'.evictList.Pairwise _ := h.evictList ▸ hk.order.filter _
    refine hold.imp_of_mem fun {a b} ha hb hab u w hu hw => hab u w ?_ ?_
    · exact (hstay a ha).2.symm.trans hu
    · exact (hstay b hb).2.symm.trans hw

/-- The entry `e` at the front, in the place of another one of its key. -/
def atFront (c : LRUCache K V) (e : Entry K V) : LRUCache K V :=
  { c with
    evictList := e :: c.evictList.filter (·.key ≠ e.key)
    items := update c.items e.key (some e) }

theorem mem_atFront {a : Entry K V} :
    a ∈ (atFront c e).evictList ↔ a = e ∨ a ∈ c.evictList ∧ a.key ≠ e.key := by
  rw [atFront, mem_cons, mem_filter, decide_eq_true_iff]

theorem Agree.front (ha : Agree c) (e : Entry K V) : Agree (atFront c e) where
  nodup := by
    refine List.nodup_cons.2 ⟨fun h => ?_, ha.nodup.sublist (List.filter_sublist.map _)⟩
    obtain ⟨a, hmem, hkey⟩ := mem_map.1 h
    exact of_decide_eq_true (mem_filter.1 hmem).2 hkey
  items key a := by
    rw [mem_atFront]
    change update c.items e.key (some e) key = some a ↔ _
    by_cases hkey : key = e.key
    · subst hkey
      rw [update_self, Option.some.injEq]
      constructor
      · rintro rfl
        exact ⟨.inl rfl, rfl⟩
      · rintro ⟨rfl | hold, heq⟩
        · rfl
        · exact absurd heq hold.2
    · rw [update_of_ne hkey, ha.items]
      constructor
      · rintro ⟨hold, rfl⟩
        exact ⟨.inr ⟨hold, hkey⟩, rfl⟩
      · rintro ⟨rfl | hold, rfl⟩
        · exact absurd rfl hkey
        · exact ⟨hold.1, rfl⟩

theorem Kept.front (hk : Kept c l) {u : Use V} (hvalue : e.value = u.value)
    (hexp : e.expiresAt = u.setAt + c.ttl) (hused : u.used = l.calls) :
    Kept (atFront c e) ⟨l.calls + 1, update l.use e.key (some u)⟩ := by
  refine ⟨hk.agree.front e, fun a hmem => ?_, fun key hnone => ?_, List.pairwise_cons.2 ⟨fun a hmem v w hv hw => ?_, ?_⟩⟩
  · rcases mem_atFront.1 hmem with rfl | ⟨hold, hne⟩
    · exact ⟨u, update_self .., hvalue, hexp, hused ▸ Nat.lt_succ_self _⟩
    · obtain ⟨w, hw, hval, hex, hlt⟩ := hk.seen a hold
      exact ⟨w, (update_of_ne hne ..).trans hw, hval, hex, Nat.lt_succ_of_lt hlt⟩
  · have hkey : key ≠ e.key := by
      rintro rfl
      simp [atFront] at hnone
    have hnone : update c.items e.key (some e) key = none := hnone
    rw [update_of_ne hkey] at hnone
    exact (update_of_ne hkey ..).trans (hk.unseen key hnone)
  · obtain ⟨hold, hne⟩ := mem_filter.1 hmem
    obtain ⟨w', hw', _, _, hlt⟩ := hk.seen a hold
    have hwe := hw'.symm.trans ((update_of_ne (of_decide_eq_true hne) ..).symm.trans hw)
    have hve := (update_self e.key (some u) l.use).symm.trans hv
    rw [← Option.some.inj hwe, ← Option.some.inj hve, hused]
    exact hlt
  · refine (hk.order.filter _).imp_of_mem fun {a b} hma hmb hab v w hv hw => hab v w ?_ ?_
    · exact (update_of_ne (of_decide_eq_true (mem_filter.1 hma).2) ..).symm.trans hv
    · exact (update_of_ne (of_decide_eq_true (mem_filter.1 hmb).2) ..).symm.trans hw

theorem Agree.atFront_new (ha : Agree c) (h : c.items e.key = none) : atFront c e = c.pushFront e := by
  have hother : ∀ a ∈ c.evictList, decide (a.key ≠ e.key) := fun a hmem => decide_eq_true fun heq =>
    Option.some_ne_none a (((ha.items _ _).2 ⟨hmem, heq⟩).symm.trans h)
  rw [atFront, List.filter_eq_self.2 hother]
  rfl

/-- A `Set` of a new key in a full cache first removes the last entry. -/
theorem set_eq (ha : Agree c) (hpos : 0 < c.maxSize) (now : Int) (key : K) (value : V) :
    c.set now key value = atFront (if c.items key = none ∧ c.maxSize ≤ c.evictList.length then c.evictOldest else c)
      ⟨key, value, now + c.ttl⟩ := by
  cases h : c.items key with
  | some e =>
    simp only [LRUCache.set, h, reduceCtorEq, false_and, if_false]
    rfl
  | none =>
    have hlen : (c.pushFront ⟨key, value, now + c.ttl⟩).evictList.length > c.maxSize ↔
        c.maxSize ≤ c.evictList.length := Nat.lt_succ_iff
    simp only [LRUCache.set, h, true_and]
    by_cases hfull : c.maxSize ≤ c.evictList.length
    · obtain ⟨o, ho⟩ : ∃ o, c.evictList.getLast? = some o := by
        refine Option.ne_none_iff_exists'.1 (mt List.getLast?_eq_none_iff.1 ?_)
        exact List.ne_nil_of_length_pos (Nat.lt_of_lt_of_le hpos hfull)
      have hmem := List.mem_of_getLast? ho
      have hother : key ≠ o.key := by
        rintro rfl
        exact nomatch ((ha.items _ _).2 ⟨hmem, rfl⟩).symm.trans h
      have hold : c.evictOldest = c.removeElement o := by rw [LRUCache.evictOldest, ho]
      have hleft : (c.removeElement o).items key = none := (update_of_ne hother ..).trans h
      have hpushed : (c.pushFront ⟨key, value, now + c.ttl⟩).evictList.getLast? = some o := by
        rw [LRUCache.pushFront, List.getLast?_cons, ho]
        rfl
      rw [if_pos (hlen.2 hfull), if_pos hfull, hold,
        (((Removed.refl c).removeElement hmem).agree ha).atFront_new hleft, LRUCache.evictOldest, hpushed]
      simp [LRUCache.removeElement, LRUCache.pushFront, hother, Function.update_comm hother]
    · rw [if_neg (mt hlen.1 hfull), if_neg hfull, ha.atFront_new h]

/-- Map and list agree, in a cache with room for an entry and no more entries than that. -/
def Formed (c : LRUCache K V) : Prop := Agree c ∧ 0 < c.maxSize ∧ c.evictList.length ≤ c.maxSize

theorem Formed.removed (hf : Formed c) (h : Removed c gone c') : Formed c' := by
  refine ⟨h.agree hf.1, h.rest.1 ▸ hf.2.1, ?_⟩
  rw [h.rest.1, h.evictList]
  exact (List.length_filter_le ..).trans hf.2.2

theorem Formed.again (hf : Formed c) (hitem : c.items e.key ≠ none) : Formed (atFront c e) := by
  obtain ⟨a, ha⟩ := Option.ne_none_iff_exists'.1 hitem
  obtain ⟨hmem, hkey⟩ := (hf.1.items _ _).1 ha
  refine ⟨hf.1.front e, hf.2.1, Nat.le_trans ?_ hf.2.2⟩
  exact List.length_filter_lt_length_iff_exists.2 ⟨a, hmem, by simp [hkey]⟩

theorem Formed.set (hf : Formed c) (now : Int) (key : K) (value : V) : Formed (c.set now key value) := by
  rw [set_eq hf.1 hf.2.1]
  split
  · next hfull =>
    have hrem := removed_evictOldest c
    have hless : c.evictOldest.evictList.length < c.maxSize := by
      obtain ⟨o, ho⟩ := Option.ne_none_iff_exists'.1 (mt List.getLast?_eq_none_iff.1
        (List.ne_nil_of_length_pos (Nat.lt_of_lt_of_le hf.2.1 hfull.2)))
      have hout := List.length_filter_lt_length_iff_exists (p := (·.key ∉ (some o).toList.map Entry.key)).2
        ⟨o, List.mem_of_getLast? ho, by simp⟩
      rw [hrem.evictList, ho]
      exact Nat.lt_of_lt_of_le hout hf.2.2
    refine ⟨(hrem.agree hf.1).front _, hrem.rest.1 ▸ hf.2.1, hrem.rest.1 ▸ ?_⟩
    exact Nat.lt_of_le_of_lt (List.length_filter_le ..) hless
  · next hroom =>
    by_cases hitem : c.items key = none
    · refine ⟨hf.1.front _, hf.2.1, ?_⟩
      exact Nat.lt_of_le_of_lt (List.length_filter_le ..) (Nat.not_le.1 fun hle => hroom ⟨hitem, hle⟩)
    · exact hf.again hitem

theorem get_inv (ha : Agree c) (now : Int) (key : K) : (c.get now key = (none, c) ∧
    ∀ e, c.items key = some e → now > e.expiresAt) ∨ ∃ e, c.items key = some e ∧ now ≤ e.expiresAt ∧
    c.get now key = (some e.value, atFront c e) := by
  rw [LRUCache.get]
  cases h : c.items key with
  | none => exact .inl ⟨rfl, nofun⟩
  | some e =>
    by_cases hexp : now > e.expiresAt
    · refine .inl ⟨if_pos hexp, ?_⟩
      rintro _ ⟨⟩
      exact hexp
    · obtain ⟨_, rfl⟩ := (ha.items _ _).1 h
      refine .inr ⟨e, rfl, Int.not_lt.1 hexp, (if_neg hexp).trans ?_⟩
      rw [atFront, ← h, Function.update_eq_self]

/-- `Kept`, in a cache that is formed. -/
def Inv (c : LRUCache K V) (l : Ledger K V) : Prop := Kept c l ∧ Formed c

theorem Inv.drop (hi : Inv c l) (h : Removed c gone c') {p : K → Prop}
    (hp : ∀ e ∈ c.evictList, e ∈ gone ↔ p e.key) : Inv c' ⟨l.calls + 1, l.drop p⟩ :=
  ⟨hi.1.drop h hp (Nat.le_succ _), hi.2.removed h⟩

theorem inv_after (hi : Inv c l) (e : Call K V) : Inv (c.after e) (l.after c.maxSize c.ttl e) := by
  obtain ⟨hk, hf⟩ := hi
  have ha := hk.agree
  cases e with
  | set now key value =>
    refine ⟨?_, hf.set now key value⟩
    show Kept (c.set now key value) _
    rw [set_eq ha hf.2.1]
    simp only [Ledger.after, hk.use_eq_none, hk.card]
    split
    · have hold := hk.drop (removed_evictOldest c) (fun e he => hk.oldest_iff he) (Nat.le_refl _)
      exact hold.front (e := ⟨key, value, now + c.ttl⟩) (u := ⟨value, now, l.calls⟩) rfl
        (congrArg (now + ·) (removed_evictOldest c).rest.2.symm) rfl
    · exact hk.front (e := ⟨key, value, now + c.ttl⟩) (u := ⟨value, now, l.calls⟩) rfl rfl rfl
  | get now key =>
    rcases get_inv ha now key with ⟨hget, hpast⟩ | ⟨e, hitem, hexp, hget⟩
    · have hsame : l.after c.maxSize c.ttl (.get now key) = ⟨l.calls + 1, l.use⟩ := by
        rw [Ledger.after]
        cases hu : l.use key with
        | none => rfl
        | some u =>
          obtain ⟨e, hmem, rfl, -, hexp⟩ := hk.entry hu
          have hlate := hpast e ((ha.items _ _).2 ⟨hmem, rfl⟩)
          simp only [if_neg (Int.not_le.2 (hexp ▸ hlate))]
      rw [LRUCache.after, hget, hsame]
      exact ⟨hk.later, hf⟩
    · obtain ⟨hmem, rfl⟩ := (ha.items _ _).1 hitem
      obtain ⟨u, hu, hval, hexp', -⟩ := hk.seen e hmem
      have hfound : l.after c.maxSize c.ttl (.get now e.key) =
          ⟨l.calls + 1, update l.use e.key (some { u with used := l.calls })⟩ := by
        simp only [Ledger.after, hu, if_pos (hexp' ▸ hexp)]
      rw [LRUCache.after, hget, hfound]
      exact ⟨hk.front (u := { u with used := l.calls }) hval hexp' rfl, hf.again (hitem ▸ nofun)⟩
  | getStale key => exact ⟨hk.later, hf⟩
  | delete key =>
    refine Inv.drop ⟨hk, hf⟩ (removed_delete ha key) fun e he => ?_
    rw [Option.mem_toList, ha.items, and_iff_right he]
  | deleteWhere hasPrefix =>
    refine Inv.drop ⟨hk, hf⟩ (removed_deleteWhere ha hasPrefix) fun e he => ?_
    rw [mem_filter, and_iff_right he]
  | evictOldest => exact Inv.drop ⟨hk, hf⟩ (removed_evictOldest c) fun e he => hk.oldest_iff he
  | cleanExpired now => exact Inv.drop ⟨hk, hf⟩ (removed_cleanExpired ha now) fun e he => hk.overdue_iff he now
  | clear => exact Inv.drop ⟨hk, hf⟩ (removed_clear ha) fun e he => iff_of_true he trivial

theorem reach_after (h : Reach (lruSystem K V) always (c, l)) (e : Call K V) :
    Reach (lruSystem K V) always (c.after e, l.after c.maxSize c.ttl e) :=
  .step h trivial ⟨rfl, rfl⟩

theorem inv_of_reach {s : LRUCache K V × Ledger K V} (h : Reach (lruSystem K V) always s) : Inv s.1 s.2 := by
  induction h with
  | @init s hi =>
    obtain ⟨⟨hpos, hitems, hlist⟩, hledger⟩ := hi
    refine ⟨⟨⟨?_, ?_⟩, ?_, ?_, ?_⟩, ⟨?_, ?_⟩, hpos, ?_⟩ <;> simp [hitems, hlist, hledger]
  | step _ _ hs ih =>
    obtain ⟨hstep, hledger⟩ := hs
    rw [hledger, hstep]
    exact inv_after ih _

/-! ## The map and its evictions -/

/-- The calls that make room. -/
def Call.Evicts : Call K V → Prop
  | .set .. | .evictOldest => True
  | _ => False

/-- `calls` are the calls of `onEvict` for the entries that are in `c` and not in `c'`. -/
def Announced (c c' : LRUCache K V) (calls : List (K × V)) : Prop :=
  c'.evicted = c.evicted ++ calls ∧ (calls.map Prod.fst).Nodup ∧
    ∀ key value, (key, value) ∈ calls ↔ c.getStale key = some value ∧ c'.holds key = false

theorem Removed.holds_eq_false (h : Removed c gone c') (ha : Agree c) (he : e ∈ c.evictList) :
    c'.holds e.key = false ↔ e ∈ gone := by
  have hitem := (ha.items _ e).2 ⟨he, rfl⟩
  rw [LRUCache.holds, h.items, hitem]
  constructor
  · intro hgone
    split at hgone
    · next hmem =>
      obtain ⟨a, hmem, hkey⟩ := mem_map.1 hmem
      exact Option.some.inj (((ha.items _ a).2 ⟨h.mem a hmem, hkey⟩).symm.trans hitem) ▸ hmem
    · exact absurd hgone nofun
  · intro hmem
    rw [if_pos (List.mem_map_of_mem hmem)]
    rfl

theorem Removed.announced (h : Removed c gone c') (ha : Agree c) :
    Announced c c' (gone.map fun e => (e.key, e.value)) := by
  refine ⟨h.evicted, ?_, fun key value => ?_⟩
  · rw [List.map_map]
    exact h.nodup
  · rw [mem_map, LRUCache.getStale, Option.map_eq_some_iff]
    constructor
    · rintro ⟨e, hmem, heq⟩
      obtain ⟨rfl, rfl⟩ := Prod.mk.inj heq
      exact ⟨⟨e, (ha.items _ e).2 ⟨h.mem e hmem, rfl⟩, rfl⟩, (h.holds_eq_false ha (h.mem e hmem)).2 hmem⟩
    · rintro ⟨⟨e, hitem, rfl⟩, hgone⟩
      obtain ⟨hmem, rfl⟩ := (ha.items _ _).1 hitem
      exact ⟨e, (h.holds_eq_false ha hmem).1 hgone, rfl⟩

/-- An entry put at the front afterwards is announced by nobody. -/
theorem Removed.announced_front (h : Removed c gone c') (ha : Agree c)
    (hnew : c'.holds e.key = false → c.items e.key = none) :
    Announced c (atFront c' e) (gone.map fun e => (e.key, e.value)) := by
  obtain ⟨hev, hnd, hiff⟩ := h.announced ha
  refine ⟨hev, hnd, fun key value => (hiff key value).trans (and_congr_right fun hstale => ?_)⟩
  by_cases hkey : key = e.key
  · subst hkey
    refine iff_of_false (fun hout => ?_) ?_
    · simp [LRUCache.getStale, hnew hout] at hstale
    · simp [LRUCache.holds, atFront]
  · simp [LRUCache.holds, atFront, hkey]

theorem announced_of_inv (hi : Inv c l) (e : Call K V) : ∃ calls, Announced c (c.after e) calls := by
  obtain ⟨hk, hf⟩ := hi
  have ha := hk.agree
  cases e with
  | set now key value =>
    rw [LRUCache.after, set_eq ha hf.2.1]
    split
    · next hfull => exact ⟨_, (removed_evictOldest c).announced_front ha fun _ => hfull.1⟩
    · exact ⟨_, (Removed.refl c).announced_front ha fun hout => by simpa [LRUCache.holds] using hout⟩
  | get now key =>
    rw [LRUCache.after]
    rcases get_inv ha now key with ⟨hget, -⟩ | ⟨e, hitem, -, hget⟩ <;> rw [hget]
    · exact ⟨_, (Removed.refl c).announced ha⟩
    · exact ⟨_, (Removed.refl c).announced_front ha fun hout => by simpa [LRUCache.holds] using hout⟩
  | getStale key => exact ⟨_, (Removed.refl c).announced ha⟩
  | delete key => exact ⟨_, (removed_delete ha key).announced ha⟩
  | deleteWhere hasPrefix => exact ⟨_, (removed_deleteWhere ha hasPrefix).announced ha⟩
  | evictOldest => exact ⟨_, (removed_evictOldest c).announced ha⟩
  | cleanExpired now => exact ⟨_, (removed_cleanExpired ha now).announced ha⟩
  | clear => exact ⟨_, (removed_clear ha).announced ha⟩

/-- What a call that makes room removes was used longest ago. -/
theorem oldest_of_evicted (hi : Inv c l) {e : Call K V} (he : e.Evicts) {key : K} (hin : c.holds key)
    (hout : (c.after e).holds key = false) : l.Oldest key := by
  have huse : l.use key ≠ none := fun hnone => by
    simp [LRUCache.holds, (hi.1.use_eq_none key).1 hnone] at hin
  have hgone : (l.after c.maxSize c.ttl e).use key = none := by
    refine (inv_after hi e).1.unseen key ?_
    simpa [LRUCache.holds] using hout
  have hdropped : l.drop l.Oldest key = none → l.Oldest key := by
    intro hnone
    by_contra hnot
    exact huse ((if_neg hnot).symm.trans hnone)
  cases e with
  | set now k value =>
    by_cases hkey : key = k
    · simp [Ledger.after, hkey] at hgone
    · simp only [Ledger.after, update_of_ne hkey] at hgone
      split at hgone
      · exact hdropped hgone
      · exact absurd hgone huse
  | evictOldest => exact hdropped hgone
  | _ => exact he.elim

theorem get_eq_some (hk : Kept c l) (now : Int) (key : K) (value : V) :
    (c.get now key).1 = some value ↔ ∃ u, l.use key = some u ∧ u.value = value ∧ now ≤ u.setAt + c.ttl := by
  rcases get_inv hk.agree now key with ⟨hget, hpast⟩ | ⟨e, hitem, hexp, hget⟩
  · rw [hget]
    refine iff_of_false nofun ?_
    rintro ⟨u, hu, -, hle⟩
    obtain ⟨e, hmem, hkey, -, hexp⟩ := hk.entry hu
    exact absurd (hpast e ((hk.agree.items _ _).2 ⟨hmem, hkey⟩)) (Int.not_lt.2 (hexp ▸ hle))
  · obtain ⟨hmem, rfl⟩ := (hk.agree.items _ _).1 hitem
    obtain ⟨w, hw, hval, hexp', -⟩ := hk.seen e hmem
    rw [hget, Option.some.injEq, hval]
    constructor
    · rintro rfl
      exact ⟨w, hw, rfl, hexp' ▸ hexp⟩
    · rintro ⟨u, hu, rfl, -⟩
      exact congrArg Use.value (Option.some.inj (hw.symm.trans hu))

/-- **A bounded map with recency order**, over every run of calls: it holds the keys and
values of the ledger, and what goes is announced. -/
theorem lru_bounded_map {s : LRUCache K V × Ledger K V} (h : Reach (lruSystem K V) always s) :
    (Agree s.1 ∧ s.1.evictList.length ≤ s.1.maxSize) ∧ (∀ now key value, (s.1.get now key).1 = some value ↔
    ∃ u, s.2.use key = some u ∧ u.value = value ∧ now ≤ u.setAt + s.1.ttl) ∧ (∀ key value,
    s.1.getStale key = some value ↔ ∃ u, s.2.use key = some u ∧ u.value = value) ∧
    ∀ e : Call K V, (∃ calls, Announced s.1 (s.1.after e) calls) ∧ (e.Evicts → ∀ key, s.1.holds key = true →
      (s.1.after e).holds key = false → s.2.Oldest key) := by
  have hi := inv_of_reach h
  refine ⟨⟨hi.1.agree, hi.2.2.2⟩, get_eq_some hi.1, getStale_eq_some hi.1, fun e => ⟨announced_of_inv hi e, ?_⟩⟩
  intro he key hin hout
  exact oldest_of_evicted hi he hin hout

/-! ## The sweep -/

/-- `CleanExpired` at `now` removes the entries whose expiry and retention have passed and no
other. -/
def Reclaims (c : LRUCache K V) (now : Int) : Prop :=
  ∀ e ∈ c.evictList, e ∈ (c.cleanExpired now).evictList ↔ now ≤ e.expiresAt + staleRetention

/-- **The sweep reclaims exactly what has expired when no expired entry was used after one
that has not.** -/
theorem clean_expired_exact {s : LRUCache K V × Ledger K V} (h : Reach (lruSystem K V) always s) (now : Int) :
    Reclaims s.1 now ↔ ∀ key live u w, s.2.use key = some u → s.2.use live = some w →
    now > u.setAt + s.1.ttl + staleRetention → now ≤ w.setAt + s.1.ttl + staleRetention →
    u.used < w.used := by
  have hk := (inv_of_reach h).1
  have hswept : ∀ e ∈ s.1.evictList, (e ∈ (s.1.cleanExpired now).evictList ↔ ¬ s.2.Overdue s.1.ttl now e.key) := by
    intro e he
    rw [(removed_cleanExpired hk.agree now).mem_iff hk.agree he, hk.overdue_iff he]
  constructor
  · intro hexact key live u w hu hw hpast hlive
    obtain ⟨e, he, rfl, -, hexp⟩ := hk.entry hu
    by_contra hle
    -- the live entry is used no later, so the sweep stops before it gets to the expired one
    have hstays : ¬ s.2.Overdue s.1.ttl now e.key := by
      rintro ⟨u', hu', hall⟩
      obtain rfl := Option.some.inj (hu.symm.trans hu')
      exact absurd (hall live w hw (Nat.not_lt.1 hle)) (Int.not_lt.2 hlive)
    exact absurd ((hexact e he).1 ((hswept e he).2 hstays)) (Int.not_le.2 (hexp ▸ hpast))
  · intro hall e he
    obtain ⟨u, hu, -, hexp, -⟩ := hk.seen e he
    rw [hswept e he, hexp]
    constructor
    · intro hnot
      by_contra hpast
      refine hnot ⟨u, hu, fun k w hw hle => ?_⟩
      by_contra hlive
      exact absurd (hall e.key k u w hu hw (Int.not_le.1 hpast) (Int.not_lt.1 hlive)) (Nat.not_lt.2 hle)
    · rintro hlive ⟨u', hu', hover⟩
      obtain rfl := Option.some.inj (hu.symm.trans hu')
      exact absurd (hover e.key u hu (Nat.le_refl _)) (Int.not_lt.2 hlive)

end

/-! ## An expired entry that was read -/

def emptyCache : LRUCache Nat Nat where
  maxSize := 2
  ttl := 1
  items _ := none
  evictList := []
  evicted := []

/-- Key 1 is set at time 0 and key 2 at time 1. -/
def setCache : LRUCache Nat Nat := (emptyCache.after (.set 0 1 10)).after (.set 1 2 20)

theorem reach_setCache : ∃ l, Reach (lruSystem Nat Nat) always (setCache, l) :=
  ⟨_, reach_after (reach_after (.init ⟨⟨Nat.succ_pos 1, rfl, rfl⟩, rfl⟩) (.set 0 1 10)) (.set 1 2 20)⟩

/-- Key 1 is read before key 3 is set, which evicts key 2. -/
theorem found_again : ∃ l, Reach (lruSystem Nat Nat) always ((setCache.after (.get 1 1)).after (.set 1 3 30), l) ∧
    (∃ u, l.use 1 = some u ∧ u.value = 10) ∧ ¬ ∃ u, l.use 2 = some u ∧ u.value = 20 := by
  obtain ⟨l, h⟩ := reach_setCache
  have h := reach_after (reach_after h (.get 1 1)) (.set 1 3 30)
  have hmap := (lru_bounded_map h).2.2.1
  exact ⟨_, h, (hmap 1 10).1 rfl, mt (hmap 2 20).2 (show (none : Option Nat) ≠ some 20 by decide)⟩

/-- Unless key 1 is read, the sweep takes it. -/
theorem unread_reclaimed : Reclaims setCache (2 + staleRetention) := by
  obtain ⟨l, h⟩ := reach_setCache
  have hk := (inv_of_reach h).1
  refine (clean_expired_exact h _).2 fun key live u w hu hw hpast hlive => ?_
  obtain ⟨a, ha, rfl, -, hxa⟩ := hk.entry hu
  obtain ⟨b, hb, rfl, -, hxb⟩ := hk.entry hw
  rw [← hxa] at hpast
  rw [← hxb] at hlive
  change a ∈ [⟨2, 20, 2⟩, ⟨1, 10, 1⟩] at ha
  change b ∈ [⟨2, 20, 2⟩, ⟨1, 10, 1⟩] at hb
  simp only [List.mem_cons, List.not_mem_nil, or_false] at ha hb
  rcases ha with rfl | rfl
  · exact absurd hpast (by decide)
  · rcases hb with rfl | rfl
    · exact (List.pairwise_cons.1 hk.order).1 _ mem_cons_self w u hw hu
    · exact absurd hlive (by decide)

/-- Key 1 is read at time 1: two seconds and the retention later its entry has expired, and
the sweep stops at key 2. -/
theorem read_entry_left : ∃ l, Reach (lruSystem Nat Nat) always (setCache.after (.get 1 1), l) ∧
    ¬ Reclaims (setCache.after (.get 1 1)) (2 + staleRetention) := by
  obtain ⟨l, h⟩ := reach_setCache
  refine ⟨_, reach_after h _, fun h => ?_⟩
  exact absurd ((h ⟨1, 10, 1⟩ mem_cons_self).1 mem_cons_self) (by decide)

end Bluestone.Cache
