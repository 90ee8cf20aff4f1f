/-
# `Bluestone.Bucket.RenameDirectory` — a directory renamed in the bucket

`renameDirectory` and `forEachKey` of `internal/posix/operations.go`.  The objects
below the old name are listed, copied several at a time, and when no copy failed
deleted several at a time.  A copy asks first whether its key is only waiting to
be deleted, and a source that is gone is nothing to carry over.

Requests take effect at any time, and one that fails may have taken effect.
Pending deletes come and go, and other writers write outside the two
directories; `others` is the bucket as they alone would have left it.

`Stat` does not count objects that wait to be deleted, so the new name may have
some below it, and it looks no further than the entries a directory may have.
-/
import Bluestone.Gateway.Namespace
import Bluestone.Library.Pool

namespace Bluestone.Bucket

open Function Pool

/-- The bucket by key, what `isPendingDelete` answers, and what others wrote. -/
structure World where
  object : String → Option Object
  pending : String → Bool
  others : String → Option Object

def World.put (w : World) (key : String) (o : Option Object) : World :=
  { w with object := update w.object key o }

/-! ## What is listed -/

/-- `ToObjectKey` of a normalized path. -/
def toObjectKey (path : String) : String := trimPrefix path "/"

/-- `ListPrefix` of a normalized path. -/
def listPrefix (dir : String) : String := if dir = "/" then "" else toObjectKey dir ++ "/"

/-- `ListObjects`; 0 is no limit.  `known` are the keys in the bucket's order. -/
def listObjects (known : List String) (w : World) (pre : String) (maxKeys : Nat) : List String :=
  let objects := known.filter fun key => (w.object key).isSome && hasPrefix key pre
  if maxKeys = 0 then objects else objects.take maxKeys

/-- What `Stat` looks at to call a name a directory when neither it nor its marker
is an object. -/
def visible (known : List String) (w : World) (maxEntries : Nat) (pre : String) : List String :=
  match listObjects known w pre 1 with
  | [] => []
  | first :: rest =>
    if w.pending first then
      (listObjects known w pre (maxEntries + 1)).filter fun key => !w.pending key
    else first :: rest

/-- `Stat` when nothing is cached and the bucket answers. -/
def stat (known : List String) (w : World) (maxEntries : Nat) (path : String) : BucketStat :=
  if (w.object (toObjectKey path)).isSome then .file
  else if (w.object (toObjectKey path ++ "/")).isSome then .directory
  else if (visible known w maxEntries (toObjectKey path ++ "/")).isEmpty then .missing
  else .directory

/-! ## The calls -/

/-- Where the copy of one object is. -/
inductive CopyCall
  | look
  | send
  /-- The key was pending delete. -/
  | skipped
  /-- The source was not there. -/
  | gone
  | copied
  | failed
  deriving DecidableEq, Repr

inductive CopyStep (target : String → String) : String → CopyCall → World → CopyCall → World → Prop
  | pendingDelete {key : String} {w : World} : w.pending key = true →
    CopyStep target key .look w .skipped w
  | look {key : String} {w : World} : w.pending key = false → CopyStep target key .look w .send w
  | copied {key : String} {w : World} {o : Object} : w.object key = some o →
    CopyStep target key .send w .copied (w.put (target key) (some o))
  | gone {key : String} {w : World} : w.object key = none → CopyStep target key .send w .gone w
  | failed {key : String} {w : World} : CopyStep target key .send w .failed w
  /-- The request took effect and its answer was lost. -/
  | unanswered {key : String} {w : World} {o : Object} : w.object key = some o →
    CopyStep target key .send w .failed (w.put (target key) (some o))

def CopyCall.result : CopyCall → Option (Except VfsError Bool)
  | .look | .send => none
  | .skipped | .gone => some (.ok false)
  | .copied => some (.ok true)
  | .failed => some (.error .backend)

/-- Where the delete of one object is. -/
inductive DeleteCall
  | send
  | deleted
  | failed
  deriving DecidableEq, Repr

inductive DeleteStep : String → DeleteCall → World → DeleteCall → World → Prop
  | deleted {key : String} {w : World} : DeleteStep key .send w .deleted (w.put key none)
  | failed {key : String} {w : World} : DeleteStep key .send w .failed w
  | unanswered {key : String} {w : World} : DeleteStep key .send w .failed (w.put key none)

def DeleteCall.result : DeleteCall → Option (Except VfsError Bool)
  | .send => none
  | .deleted => some (.ok true)
  | .failed => some (.error .backend)

/-- What else happens: pending deletes change, and objects of neither directory. -/
inductive Around (old new : String) : World → World → Prop
  | pending {w : World} (pending : String → Bool) : Around old new w { w with pending := pending }
  | write {w : World} {key : String} (o : Option Object) : hasPrefix key (listPrefix old) = false →
    hasPrefix key (listPrefix new) = false →
    Around old new w { w.put key o with others := update w.others key o }

/-- Where an object below `old` goes. -/
def target (old new key : String) : String := listPrefix new ++ trimPrefix key (listPrefix old)

def copies (old new : String) : Calls String CopyCall VfsError World where
  start := .look
  step := CopyStep (target old new)
  result := CopyCall.result
  around := Around old new

def deletes (old new : String) : Calls String DeleteCall VfsError World where
  start := .send
  step := DeleteStep
  result := DeleteCall.result
  around := Around old new

/-! ## The call -/

/-- What `renameDirectory` returns when it does not return nil. -/
inductive DirectoryError
  | rootDirectory
  | ownSubtree
  | existing
  | backend
  | notExist
  | copy (copied total : Nat) (failedKey destKey : String)
  | delete (copied deleted : Nat) (failedKey : String)
  deriving DecidableEq, Repr

abbrev CopyLoop := Loop String CopyCall VfsError World

abbrev DeleteLoop := Loop String DeleteCall VfsError World

inductive Run
  | copying (pool : CopyLoop)
  | deleting (copied : CopyLoop) (pool : DeleteLoop)
  | returned (copied : String → Stage CopyCall) (w : World) (result : Except DirectoryError Unit)

def Run.world : Run → World
  | .copying pool => pool.world
  | .deleting _ pool => pool.world
  | .returned _ w _ => w

/-- How far the copy of a key got. -/
def Run.copied : Run → String → Stage CopyCall
  | .copying pool => pool.stage
  | .deleting copied _ => copied.stage
  | .returned copied _ _ => copied

/-- What the caches in front of `Stat`, or an outage, answer in its place, and
whether the listing fails. -/
structure Answers where
  stat : Option BucketStat := none
  list : Bool := false

/-- The checks and the listing. -/
def sources (known : List String) (w : World) (maxEntries : Nat) (a : Answers) (old new : String) :
    Except DirectoryError (List String) :=
  if old = "/" then .error .rootDirectory
  else if isDescendant old new then .error .ownSubtree
  else match statAnswer new (a.stat.getD (stat known w maxEntries new)) with
    | .file | .directory => .error .existing
    | .unreachable => .error .backend
    | .missing =>
      if a.list then .error .backend
      else
        let objects := listObjects known w (listPrefix old) 0
        if objects.isEmpty then .error .notExist
        else .ok (objects.filter fun key => hasPrefix key (listPrefix old))

/-- `renameDirectory` up to the first copy. -/
def Run.start (w : World) : Except DirectoryError (List String) → Run
  | .error e => .returned (fun _ => .waiting) w (.error e)
  | .ok keys => .copying (Loop.start keys w)

/-- A step of `renameDirectory` once it has listed `keys`. -/
inductive RunStep (old new : String) (limit : Nat) (keys : List String) : Run → Run → Prop
  | copy {p p' : CopyLoop} : LoopStep (copies old new) limit p p' →
    RunStep old new limit keys (.copying p) (.copying p')
  | copyFailed {p : CopyLoop} {key : String} {e : VfsError} : p.Returned → p.failed = some (key, e) →
    RunStep old new limit keys (.copying p)
    (.returned p.stage p.world (.error (.copy p.did keys.length key (target old new key))))
  | allCopied {p : CopyLoop} : p.Returned → p.failed = none → RunStep old new limit keys (.copying p)
    (.deleting p (Loop.start keys p.world))
  | delete {c : CopyLoop} {p p' : DeleteLoop} : LoopStep (deletes old new) limit p p' →
    RunStep old new limit keys (.deleting c p) (.deleting c p')
  | deleteFailed {c : CopyLoop} {p : DeleteLoop} {key : String} {e : VfsError} : p.Returned →
    p.failed = some (key, e) → RunStep old new limit keys (.deleting c p)
    (.returned c.stage p.world (.error (.delete c.did p.did key)))
  | allDeleted {c : CopyLoop} {p : DeleteLoop} : p.Returned → p.failed = none →
    RunStep old new limit keys (.deleting c p) (.returned c.stage p.world (.ok ⟨⟩))

/-- The states a call can get to. -/
def Reaches (known : List String) (w : World) (maxEntries limit : Nat) (a : Answers)
    (old new : String) (r : Run) : Prop :=
  ∃ keys, (sources known w maxEntries a old new).toOption.getD [] = keys ∧
    Relation.ReflTransGen (RunStep old new limit keys) (Run.start w (sources known w maxEntries a old new)) r

/-! ## Two directories -/

section
variable {old new key key' : String} {w w0 : World}

theorem listPrefix_toList {dir : String} {rest : List Char} (hroot : dir ≠ "/")
    (h : dir.toList = '/' :: rest) : (listPrefix dir).toList = rest ++ ['/'] := by
  have hpre : hasPrefix dir "/" = true := hasPrefix_iff.2 ⟨rest, h.symm⟩
  simp [listPrefix, hroot, toObjectKey, trimPrefix, hpre, h]

theorem isDescendant_of_below {parent child : String} {p c : List Char} (hroot : parent ≠ "/")
    (hp : parent.toList = '/' :: p) (hc : child.toList = '/' :: c) (h : p ++ ['/'] <+: c) :
    isDescendant parent child := by
  refine hasPrefix_iff.2 ?_
  rw [Bluestone.listPrefix, if_neg hroot, String.toList_append, hp, hc]
  exact (List.prefix_cons_inj _).2 h

theorem listPrefix_disjoint (hold : hasPrefix old "/" = true) (hnew : hasPrefix new "/" = true)
    (hro : old ≠ "/") (hrn : new ≠ "/") (hne : old ≠ new) (h : isDescendant old new = false)
    (h' : isDescendant new old = false) (hk : hasPrefix key (listPrefix old)) :
    hasPrefix key (listPrefix new) = false := by
  obtain ⟨o, ho⟩ := hasPrefix_iff.1 hold
  obtain ⟨n, hn⟩ := hasPrefix_iff.1 hnew
  refine Bool.eq_false_iff.2 fun hk' => ?_
  rw [hasPrefix_iff, listPrefix_toList hro ho.symm] at hk
  rw [hasPrefix_iff, listPrefix_toList hrn hn.symm] at hk'
  have hsame : o ≠ n := by
    rintro rfl
    exact hne (String.toList_inj.1 (ho.symm.trans hn))
  rcases List.prefix_or_prefix_of_prefix hk hk' with hp | hp
  · rcases List.prefix_concat_iff.1 hp with heq | hp
    · exact hsame (List.append_cancel_right heq)
    · exact nomatch h.symm.trans (isDescendant_of_below hro ho.symm hn.symm hp)
  · rcases List.prefix_concat_iff.1 hp with heq | hp
    · exact hsame (List.append_cancel_right heq).symm
    · exact nomatch h'.symm.trans (isDescendant_of_below hrn hn.symm ho.symm hp)

theorem hasPrefix_target : hasPrefix (target old new key) (listPrefix new) := by
  rw [hasPrefix_iff, target, String.toList_append]
  exact List.prefix_append ..

theorem target_injective (hk : hasPrefix key (listPrefix old))
    (hk' : hasPrefix key' (listPrefix old))
    (h : target old new key = target old new key') : key = key' := by
  have hrest : trimPrefix key (listPrefix old) = trimPrefix key' (listPrefix old) := by
    rw [← String.toList_inj] at h ⊢
    simpa [target] using h
  obtain ⟨rest, hr⟩ := hasPrefix_iff.1 hk
  obtain ⟨rest', hr'⟩ := hasPrefix_iff.1 hk'
  rw [← String.toList_inj] at hrest ⊢
  simp only [trimPrefix, hk, hk', if_true, ← hr, ← hr', String.toList_ofList, List.drop_left] at hrest
  rw [← hr, ← hr', hrest]


/-! ## The copies -/

@[simp] theorem put_self (o : Option Object) : (w.put key o).object key = o := update_self ..

theorem put_of_ne (o : Option Object) (h : key' ≠ key) : (w.put key o).object key' = w.object key' :=
  update_of_ne h ..

/-- The two directories share no key. -/
def Disjoint (old new : String) : Prop :=
  ∀ key, hasPrefix key (listPrefix old) = true → hasPrefix key (listPrefix new) = false

/-- Objects of neither directory are as others left them. -/
def Elsewhere (old new : String) (w : World) : Prop :=
  ∀ key, hasPrefix key (listPrefix old) = false → hasPrefix key (listPrefix new) = false →
    w.object key = w.others key

variable {o : Option Object} {w' : World} {keys known : List String} {limit maxEntries : Nat} {r : Run}
  {a : Answers}

theorem Elsewhere.put (h : Elsewhere old new w)
    (hk : hasPrefix key (listPrefix old) ∨ hasPrefix key (listPrefix new)) :
    Elsewhere old new (w.put key o) := by
  intro key' hold hnew
  have hne : key' ≠ key := by
    rintro rfl
    rcases hk with hk | hk
    · exact nomatch hold.symm.trans hk
    · exact nomatch hnew.symm.trans hk
  rw [put_of_ne _ hne]
  exact h key' hold hnew

theorem Elsewhere.around (h : Elsewhere old new w) (ha : Around old new w w') :
    Elsewhere old new w' := by
  cases ha with
  | pending _ => exact h
  | @write key o _ _ =>
    intro key' hold hnew
    by_cases hne : key' = key
    · subst hne
      simp [World.put]
    · have hsame := h key' hold hnew
      simpa [World.put, hne] using hsame

theorem Around.object_eq (ha : Around old new w w')
    (hk : hasPrefix key (listPrefix old) ∨ hasPrefix key (listPrefix new)) :
    w'.object key = w.object key := by
  cases ha with
  | pending _ => rfl
  | @write key' o hold hnew =>
    refine update_of_ne ?_ _ _
    rintro rfl
    rcases hk with hk | hk
    · exact nomatch hold.symm.trans hk
    · exact nomatch hnew.symm.trans hk

/-- While the copies run, the old directory is as it was. -/
structure Copying (w0 : World) (old new : String) (w : World) : Prop where
  sources : ∀ key, hasPrefix key (listPrefix old) = true → w.object key = w0.object key
  elsewhere : Elsewhere old new w

/-- What is at the target of a copy. -/
def CopyCall.leaves (w0 : World) (old new key : String) (w : World) : Option CopyCall → Prop
  | none | some .look | some .send | some .skipped =>
    w.object (target old new key) = w0.object (target old new key)
  | some .copied => w.object (target old new key) = w0.object key
  | some .gone => False
  | some .failed => True

/-- The fact about one listed key while its copy is at `place`. -/
structure CopyFact (w0 : World) (old new key : String) (place : Option CopyCall) (w : World) :
    Prop where
  present : (w0.object key).isSome = true
  below : hasPrefix key (listPrefix old) = true
  leaves : CopyCall.leaves w0 old new key w place

theorem CopyFact.of_target {place : Option CopyCall} (h : CopyFact w0 old new key place w)
    (hsame : w'.object (target old new key) = w.object (target old new key)) :
    CopyFact w0 old new key place w' := by
  refine ⟨h.present, h.below, ?_⟩
  have hleaves := h.leaves
  unfold CopyCall.leaves at hleaves ⊢
  rw [hsame]
  exact hleaves

theorem Copying.put (hd : Disjoint old new) (h : Copying w0 old new w) :
    Copying w0 old new (w.put (target old new key) o) := by
  refine ⟨fun key' hk' => ?_, h.elsewhere.put (.inr hasPrefix_target)⟩
  have hne : key' ≠ target old new key := by
    rintro rfl
    exact nomatch (hd _ hk').symm.trans hasPrefix_target
  rw [put_of_ne _ hne]
  exact h.sources key' hk'

theorem copies_rule (hd : Disjoint old new) :
    Rule (copies old new) (Copying w0 old new) (CopyFact w0 old new) where
  start h := ⟨h.present, h.below, h.leaves⟩
  own := by
    intro key l w l' w' hI hF hstep
    cases hstep with
    | pendingDelete _ | look _ => exact ⟨hI, hF.present, hF.below, hF.leaves⟩
    | copied ho =>
      refine ⟨hI.put hd, hF.present, hF.below, ?_⟩
      rw [hI.sources key hF.below] at ho
      simp [CopyCall.leaves, ho]
    | gone hnone =>
      have hsome := hF.present
      rw [← hI.sources key hF.below, hnone] at hsome
      exact nomatch hsome
    | failed => exact ⟨hI, hF.present, hF.below, trivial⟩
    | unanswered _ => exact ⟨hI.put hd, hF.present, hF.below, trivial⟩
  other := by
    intro key key' place l w l' w' hne _ hF hF' hstep
    have htarget : target old new key' ≠ target old new key := fun h =>
      hne (target_injective hF'.below hF.below h)
    cases hstep with
    | pendingDelete _ | look _ | gone _ | failed => exact hF'
    | copied _ | unanswered _ => exact hF'.of_target (put_of_ne _ htarget)
  around h ha := h.of_target (ha.object_eq (.inr hasPrefix_target))
  surroundings h ha :=
    ⟨fun key hk => (ha.object_eq (.inl hk)).trans (h.sources key hk), h.elsewhere.around ha⟩

/-! ## The deletes -/

/-- While the deletes run, the new directory is as the copies left it. -/
structure Deleting (w1 : World) (old new : String) (w : World) : Prop where
  targets : ∀ key, hasPrefix key (listPrefix new) = true → w.object key = w1.object key
  elsewhere : Elsewhere old new w

/-- The fact about one listed key while its delete is at `place`. -/
structure DeleteFact (old key : String) (place : Option DeleteCall) (w : World) : Prop where
  below : hasPrefix key (listPrefix old) = true
  deleted : place = some .deleted → w.object key = none

theorem DeleteFact.put {place : Option DeleteCall} (h : DeleteFact old key place w) (key' : String) :
    DeleteFact old key place (w.put key' none) := by
  refine ⟨h.below, fun hp => ?_⟩
  by_cases hne : key = key'
  · subst hne
    exact put_self none
  · rw [put_of_ne _ hne]
    exact h.deleted hp

theorem Deleting.put {w1 : World} (hd : Disjoint old new) (h : Deleting w1 old new w)
    (hk : hasPrefix key (listPrefix old)) : Deleting w1 old new (w.put key o) := by
  refine ⟨fun key' hk' => ?_, h.elsewhere.put (.inl hk)⟩
  have hne : key' ≠ key := by
    rintro rfl
    exact nomatch (hd _ hk).symm.trans hk'
  rw [put_of_ne _ hne]
  exact h.targets key' hk'

theorem deletes_rule {w1 : World} (hd : Disjoint old new) :
    Rule (deletes old new) (Deleting w1 old new) (DeleteFact old) where
  start h := ⟨h.below, nofun⟩
  own := by
    intro key l w l' w' hI hF hstep
    cases hstep with
    | deleted => exact ⟨hI.put hd hF.below, hF.below, fun _ => put_self none⟩
    | failed => exact ⟨hI, hF.below, nofun⟩
    | unanswered => exact ⟨hI.put hd hF.below, hF.below, nofun⟩
  other := by
    intro key key' place l w l' w' _ _ _ hF' hstep
    cases hstep with
    | deleted | unanswered => exact hF'.put key
    | failed => exact hF'
  around h ha := ⟨h.below, fun hp => (ha.object_eq (.inl h.below)).trans (h.deleted hp)⟩
  surroundings h ha :=
    ⟨fun key hk => (ha.object_eq (.inr hk)).trans (h.targets key hk), h.elsewhere.around ha⟩

/-! ## The whole call -/

/-- A listed key once the call has returned nil: the source is gone, and its copy
is there, or it was skipped and the target is as before the call. -/
def Exact (w0 : World) (old new key : String) (st : Stage CopyCall) (w : World) : Prop :=
  w.object key = none ∧ (st = .ended .copied ∧ w.object (target old new key) = w0.object key ∧
        (w0.object key).isSome = true ∨
      st = .ended .skipped ∧ w.object (target old new key) = w0.object (target old new key))

/-- What holds of a call that listed `keys`. -/
def Run.Holds (w0 : World) (old new : String) (keys : List String) : Run → Prop
  | .copying p => Sound (copies old new) keys (Copying w0 old new) (CopyFact w0 old new) p
  | .deleting c p =>
    Sound (copies old new) keys (Copying w0 old new) (CopyFact w0 old new) c ∧ c.Returned ∧
      c.failed = none ∧ Sound (deletes old new) keys (Deleting c.world old new) (DeleteFact old) p
  | .returned copied w result =>
    Elsewhere old new w ∧
    ((∃ key, copied key = .ended .failed) → ∀ key ∈ keys, w.object key = w0.object key) ∧
    (result = .ok ⟨⟩ → ∀ key ∈ keys, Exact w0 old new key (copied key) w)

theorem copies_ended {p : CopyLoop}
    (h : Sound (copies old new) keys (Copying w0 old new) (CopyFact w0 old new) p) (hret : p.Returned)
    (hok : p.failed = none) : ∀ key ∈ keys, CopyFact w0 old new key (p.stage key).place p.world ∧
    (p.stage key = .ended .copied ∨ p.stage key = .ended .skipped) := by
  intro key hk
  obtain ⟨l, b, hl, hr, hF⟩ := h.all_ended hret hok key hk
  rw [hl]
  refine ⟨hF, ?_⟩
  cases l with
  | look | send | failed => exact nomatch hr
  | copied => exact .inl rfl
  | skipped => exact .inr rfl
  | gone => exact hF.leaves.elim

theorem no_copy_failed {p : CopyLoop}
    (h : Sound (copies old new) keys (Copying w0 old new) (CopyFact w0 old new) p)
    (hret : p.Returned) (hok : p.failed = none) : ¬ ∃ key, p.stage key = .ended .failed := by
  rintro ⟨key, hkey⟩
  have hk := h.books.listed key (by rw [hkey]; exact nofun)
  rcases (copies_ended h hret hok key hk).2 with hst | hst
  all_goals exact nomatch hkey.symm.trans hst

theorem Run.Holds.step {r' : Run} (hd : Disjoint old new)
    (hnd : keys.Nodup) (h : r.Holds w0 old new keys) (hstep : RunStep old new limit keys r r') :
    r'.Holds w0 old new keys := by
  cases hstep with
  | copy hs => exact Sound.step (copies_rule hd) h hs
  | copyFailed _ _ =>
    refine ⟨h.world.elsewhere, fun _ key hk => h.world.sources key (h.facts key hk).below, nofun⟩
  | allCopied hret hok =>
    refine ⟨h, hret, hok, sound_start hnd ⟨fun _ _ => rfl, h.world.elsewhere⟩ fun key hk => ?_⟩
    exact ⟨(h.facts key hk).below, nofun⟩
  | delete hs => exact ⟨h.1, h.2.1, h.2.2.1, Sound.step (deletes_rule hd) h.2.2.2 hs⟩
  | deleteFailed _ _ =>
    obtain ⟨hc, hcret, hcok, hp⟩ := h
    exact ⟨hp.world.elsewhere, fun hfailed => absurd hfailed (no_copy_failed hc hcret hcok), nofun⟩
  | @allDeleted c p hret hok =>
    obtain ⟨hc, hcret, hcok, hp⟩ := h
    refine ⟨hp.world.elsewhere, fun hfailed => absurd hfailed (no_copy_failed hc hcret hcok), ?_⟩
    intro _ key hk
    obtain ⟨l, b, _, hr, hF⟩ := hp.all_ended hret hok key hk
    have hgone : p.world.object key = none := by
      cases l with
      | send | failed => exact nomatch hr
      | deleted => exact hF.deleted rfl
    obtain ⟨hcopy, hst⟩ := copies_ended hc hcret hcok key hk
    have htarget := hp.world.targets (target old new key) hasPrefix_target
    have hleaves := hcopy.leaves
    refine ⟨hgone, hst.imp (fun hst => ⟨hst, ?_, hcopy.present⟩) fun hst => ⟨hst, ?_⟩⟩ <;>
      (rw [hst] at hleaves; exact htarget.trans hleaves)

theorem sources_ok (h : sources known w maxEntries a old new = .ok keys) : old ≠ "/" ∧ new ≠ "/" ∧
    isDescendant old new = false ∧ keys.Sublist known ∧ ∀ key ∈ keys, (w.object key).isSome ∧
    hasPrefix key (listPrefix old) := by
  unfold sources at h
  split at h
  · exact nomatch h
  rename_i hroot
  split at h
  · exact nomatch h
  rename_i hsub
  split at h
  · exact nomatch h
  · exact nomatch h
  · exact nomatch h
  rename_i hmissing
  split at h
  · exact nomatch h
  dsimp only at h
  split at h
  · exact nomatch h
  cases h
  refine ⟨hroot, ?_, by simpa using hsub, ?_, fun key hk => ?_⟩
  · rintro rfl
    exact nomatch hmissing
  · exact List.filter_sublist.trans List.filter_sublist
  · simp only [listObjects, if_true, List.mem_filter, Bool.and_eq_true] at hk
    exact ⟨hk.1.2.1, hk.2⟩

theorem reaches_of_error {e : DirectoryError} (he : sources known w maxEntries a old new = .error e)
    (hr : Reaches known w maxEntries limit a old new r) :
    r = .returned (fun _ => .waiting) w (.error e) := by
  obtain ⟨keys, _, hrun⟩ := hr
  rw [he] at hrun
  rcases Relation.ReflTransGen.cases_head hrun with rfl | ⟨_, hstep, _⟩
  · rfl
  · exact nomatch hstep

theorem reaches_holds (hknown : known.Nodup) (hothers : w.others = w.object) (hd : Disjoint old new)
    (hk : sources known w maxEntries a old new = .ok keys)
    (hr : Reaches known w maxEntries limit a old new r) : r.Holds w old new keys := by
  obtain ⟨keys', hkeys', hrun⟩ := hr
  rw [hk] at hkeys' hrun
  obtain rfl : keys = keys' := hkeys'
  obtain ⟨_, _, _, hsub, hlisted⟩ := sources_ok hk
  have hnd := hknown.sublist hsub
  induction hrun with
  | refl =>
    refine sound_start hnd ⟨fun _ _ => rfl, fun key _ _ => by rw [hothers]⟩ fun key hkey => ?_
    exact ⟨(hlisted key hkey).1, (hlisted key hkey).2, rfl⟩
  | tail _ hstep ih => exact ih.step hd hnd hstep

theorem Run.Holds.elsewhere (h : r.Holds w0 old new keys) : Elsewhere old new r.world := by
  cases r with
  | copying p => exact h.world.elsewhere
  | deleting c p => exact h.2.2.2.world.elsewhere
  | returned copied w result => exact h.1

theorem Run.Holds.unchanged (h : r.Holds w0 old new keys)
    (hfailed : ∃ key, r.copied key = .ended .failed) :
    ∀ key ∈ keys, r.world.object key = w0.object key := by
  cases r with
  | copying p => exact fun key hk => h.world.sources key (h.facts key hk).below
  | deleting c p => exact absurd hfailed (no_copy_failed h.1 h.2.1 h.2.2.1)
  | returned copied w result => exact h.2.1 hfailed

end

/-- In every state a directory rename reaches, objects of neither directory are as
others left them and, if a copy failed, every listed source is there unchanged.
Once it has returned nil, every listed source is gone, and is at its target unless it
was pending delete at its copy. -/
theorem directory_rename_exact {known : List String} {w : World} {maxEntries limit : Nat} {a : Answers}
    {old new : String} {r : Run} (hknown : known.Nodup) (hothers : w.others = w.object)
    (hold : hasPrefix old "/" = true) (hnew : hasPrefix new "/" = true) (hne : old ≠ new)
    (habove : isDescendant new old = false) (hr : Reaches known w maxEntries limit a old new r) :
    Elsewhere old new r.world ∧ ∀ keys, sources known w maxEntries a old new = .ok keys →
    ((∃ key, r.copied key = .ended .failed) → ∀ key ∈ keys, r.world.object key = w.object key) ∧
    ∀ w' copied, r = .returned copied w' (.ok ⟨⟩) →
    ∀ key ∈ keys, Exact w old new key (copied key) w' := by
  cases hs : sources known w maxEntries a old new with
  | error e =>
    rw [reaches_of_error hs hr]
    exact ⟨fun key _ _ => by rw [Run.world, hothers], nofun⟩
  | ok keys =>
    obtain ⟨hro, hrn, hsub, _, _⟩ := sources_ok hs
    have hd : Disjoint old new := fun key hk =>
      listPrefix_disjoint hold hnew hro hrn hne hsub habove hk
    have hholds := reaches_holds hknown hothers hd hs hr
    refine ⟨hholds.elsewhere, ?_⟩
    rintro _ ⟨⟩
    refine ⟨hholds.unchanged, ?_⟩
    rintro w' copied rfl
    exact hholds.2.2 rfl

/-! ## Objects at the root of the bucket

These are below no directory that can be renamed or renamed to, so they are as
others left them, also when one of the two directories is inside the other. -/

section
variable {old new key : String}

/-- The object is as others left it. -/
def Left (key : String) (w : World) : Prop := w.object key = w.others key

theorem ne_of_below {dir key' : String} (hslash : '/' ∉ key.toList) (hroot : dir ≠ "/")
    (hdir : hasPrefix dir "/" = true) (h : hasPrefix key' (listPrefix dir)) : key ≠ key' := by
  rintro rfl
  obtain ⟨rest, hrest⟩ := hasPrefix_iff.1 hdir
  obtain ⟨tail, htail⟩ := hasPrefix_iff.1 h
  rw [listPrefix_toList hroot hrest.symm] at htail
  exact hslash (by rw [← htail]; simp)

theorem Left.put {w : World} {key' : String} {o : Option Object} (h : Left key w) (hne : key ≠ key') :
    Left key (w.put key' o) :=
  (put_of_ne o hne).trans h

theorem Left.around {w w' : World} (h : Left key w) (ha : Around old new w w') : Left key w' := by
  cases ha with
  | pending _ => exact h
  | @write key' o _ _ =>
    by_cases hne : key = key'
    · subst hne
      simp [Left, World.put]
    · have hsame : w.object key = w.others key := h
      simpa [Left, World.put, hne] using hsame

/-- The keys a call is made for are below the old name. -/
def Below (old key : String) : Prop := hasPrefix key (listPrefix old) = true

theorem copies_left (hslash : '/' ∉ key.toList) (hroot : new ≠ "/") (hnew : hasPrefix new "/" = true) :
    Rule (copies old new) (Left key) (fun k _ _ => Below old k) where
  start h := h
  own hI hF hstep := by
    refine ⟨?_, hF⟩
    have hput : ∀ {w : World} {k : String} {o : Object}, Left key w →
        Left key (w.put (target old new k) (some o)) :=
      fun h => h.put (ne_of_below hslash hroot hnew hasPrefix_target)
    cases hstep with
    | copied _ | unanswered _ => exact hput hI
    | _ => exact hI
  other _ _ _ hF _ := hF
  around hF _ := hF
  surroundings hI ha := hI.around ha

theorem deletes_left (hslash : '/' ∉ key.toList) (hroot : old ≠ "/") (hold : hasPrefix old "/" = true) :
    Rule (deletes old new) (Left key) (fun k _ _ => Below old k) where
  start h := h
  own hI hF hstep := by
    refine ⟨?_, hF⟩
    cases hstep with
    | failed => exact hI
    | _ => exact hI.put (ne_of_below hslash hroot hold hF)
  other _ _ _ hF _ := hF
  around hF _ := hF
  surroundings hI ha := hI.around ha

/-- What is kept while the directory is renamed. -/
def Run.Keeps (old new key : String) (keys : List String) : Run → Prop
  | .copying p => Sound (copies old new) keys (Left key) (fun k _ _ => Below old k) p
  | .deleting _ p => Sound (deletes old new) keys (Left key) (fun k _ _ => Below old k) p
  | .returned _ w _ => Left key w

/-- In every state a directory rename reaches, an object at the root of the bucket is as
others left it. -/
theorem root_object_left {known : List String} {w : World} {maxEntries limit : Nat} {a : Answers}
    {r : Run} (hslash : '/' ∉ key.toList) (hknown : known.Nodup) (hothers : w.others = w.object)
    (hold : hasPrefix old "/" = true) (hnew : hasPrefix new "/" = true)
    (hr : Reaches known w maxEntries limit a old new r) : r.world.object key = r.world.others key := by
  have hleft : Left key w := by rw [Left, hothers]
  cases hs : sources known w maxEntries a old new with
  | error e =>
    rw [reaches_of_error hs hr]
    exact hleft
  | ok keys =>
    obtain ⟨hro, hrn, _, hsub, hlisted⟩ := sources_ok hs
    have hnd := hknown.sublist hsub
    have hbelow : ∀ k ∈ keys, Below old k := fun k hk => (hlisted k hk).2
    obtain ⟨keys', hkeys', hrun⟩ := hr
    rw [hs] at hkeys' hrun
    obtain rfl : keys = keys' := hkeys'
    have hkeeps : r.Keeps old new key keys := by
      induction hrun with
      | refl => exact sound_start hnd hleft hbelow
      | tail _ hstep ih =>
        cases hstep with
        | copy hstep => exact ih.step (copies_left hslash hrn hnew) hstep
        | copyFailed _ _ | deleteFailed _ _ | allDeleted _ _ => exact ih.world
        | allCopied _ _ => exact sound_start hnd ih.world hbelow
        | delete hstep => exact ih.step (deletes_left hslash hro hold) hstep
    cases r with
    | copying p | deleting c p => exact hkeeps.world
    | returned copied w' result => exact hkeeps

end

theorem reaches_returned {known keys : List String} {w : World} {maxEntries limit : Nat} {a : Answers}
    {old new : String} {c : CopyLoop} {d : DeleteLoop}
    (hkeys : sources known w maxEntries a old new = .ok keys)
    (hcopies : Relation.ReflTransGen (LoopStep (copies old new) limit) (Loop.start keys w) c)
    (hc : c.Returned) (hcok : c.failed = none)
    (hdeletes : Relation.ReflTransGen (LoopStep (deletes old new) limit) (Loop.start keys c.world) d)
    (hd : d.Returned) (hdok : d.failed = none) :
    Reaches known w maxEntries limit a old new (.returned c.stage d.world (.ok ⟨⟩)) := by
  refine ⟨keys, by rw [hkeys]; rfl, ?_⟩
  rw [hkeys]
  have hcopying : Relation.ReflTransGen (RunStep old new limit keys)
      (.copying (Loop.start keys w)) (.copying c) := hcopies.lift _ fun _ _ => .copy
  have hdeleting : Relation.ReflTransGen (RunStep old new limit keys)
      (.deleting c (Loop.start keys c.world)) (.deleting c d) := hdeletes.lift _ fun _ _ => .delete
  exact ((hcopying.tail (.allCopied hc hcok)).trans hdeleting).tail (.allDeleted hd hdok)

theorem copy_call {w : World} {old new key key' : String} {o : Object} (hp : w.pending key = false)
    (ho : w.object key = some o) (ht : target old new key = key') :
    Relation.ReflTransGen (fun a b : CopyCall × World => (copies old new).step key a.1 a.2 b.1 b.2)
    (.look, w) (.copied, w.put key' (some o)) := by
  subst ht
  have hlook : (copies old new).step key .look w .send w := .look hp
  have hcopied : (copies old new).step key .send w .copied (w.put (target old new key) (some o)) :=
    .copied ho
  exact .tail (.single (b := (.send, w)) hlook) hcopied

/-- The bucket holds `objects`, of which `pending` wait to be deleted. -/
def World.of (objects : List (String × Object)) (pending : List String) : World where
  object := fun key => objects.lookup key
  pending := fun key => pending.contains key
  others := fun key => objects.lookup key

/-- `/new` has only `new/x`, which waits to be deleted, as `old/x` does; `old/y` does not. -/
def hiddenTarget : World :=
  .of [("new/x", ⟨[1], .default⟩), ("old/x", ⟨[2], .default⟩), ("old/y", ⟨[3], .default⟩),
    (".nfs-gateway.lease", ⟨[4], .default⟩)] ["new/x", "old/x"]

def hiddenCopied : World := hiddenTarget.put "new/y" (some ⟨[3], .default⟩)

def hiddenCopies : CopyLoop :=
  ((Loop.start ["old/x", "old/y"] hiddenTarget).ends "old/x" ["old/y"] .skipped hiddenTarget
    (.ok false)).ends "old/y" [] .copied hiddenCopied (.ok true)

def hiddenDeletes : DeleteLoop :=
  ((Loop.start ["old/x", "old/y"] hiddenCopied).ends "old/x" ["old/y"] .deleted
    (hiddenCopied.put "old/x" none) (.ok true)).ends "old/y" [] .deleted
    ((hiddenCopied.put "old/x" none).put "old/y" none) (.ok true)

theorem hidden_reaches : Reaches ["new/x", "old/x", "old/y"] hiddenTarget 1000 8 {} "/old" "/new"
    (.returned hiddenCopies.stage hiddenDeletes.world (.ok ⟨⟩)) := by
  refine reaches_returned rfl ?_ ⟨.inl rfl, Loop.ends_idle (Loop.ends_idle fun _ => .inl rfl)⟩ rfl ?_
    ⟨.inl rfl, Loop.ends_idle (Loop.ends_idle fun _ => .inl rfl)⟩ rfl
  · refine .trans (reaches_ends (fun _ => .inl rfl) rfl rfl (by decide) (.single (.pendingDelete rfl)) rfl) ?_
    exact reaches_ends (Loop.ends_idle fun _ => .inl rfl) rfl rfl (by decide)
      (copy_call rfl rfl rfl) rfl
  · refine .trans (reaches_ends (fun _ => .inl rfl) rfl rfl (by decide) (.single .deleted) rfl) ?_
    exact reaches_ends (Loop.ends_idle fun _ => .inl rfl) rfl rfl (by decide) (.single .deleted) rfl

/-- `/a/b` is below `/a`, which `Stat` does not see: the first two keys below it wait
to be deleted, and it looks no further with one entry allowed. -/
def nestedSource : World :=
  .of [("a/0", ⟨[0], .default⟩), ("a/1", ⟨[0], .default⟩), ("a/b/b/x", ⟨[1], .default⟩),
    ("a/b/x", ⟨[2], .default⟩)] ["a/0", "a/1"]

/-- The first copy lands on the second source. -/
def nestedFirst : World := nestedSource.put "a/b/x" (some ⟨[1], .default⟩)

def nestedCopied : World := nestedFirst.put "a/x" (some ⟨[1], .default⟩)

def nestedCopies : CopyLoop :=
  ((Loop.start ["a/b/b/x", "a/b/x"] nestedSource).ends "a/b/b/x" ["a/b/x"] .copied nestedFirst
    (.ok true)).ends "a/b/x" [] .copied nestedCopied (.ok true)

def nestedDeletes : DeleteLoop :=
  ((Loop.start ["a/b/b/x", "a/b/x"] nestedCopied).ends "a/b/b/x" ["a/b/x"] .deleted
    (nestedCopied.put "a/b/b/x" none) (.ok true)).ends "a/b/x" [] .deleted
    ((nestedCopied.put "a/b/b/x" none).put "a/b/x" none) (.ok true)

theorem nested_reaches : Reaches ["a/0", "a/1", "a/b/b/x", "a/b/x"] nestedSource 1 8 {} "/a/b" "/a"
    (.returned nestedCopies.stage nestedDeletes.world (.ok ⟨⟩)) := by
  refine reaches_returned rfl ?_ ⟨.inl rfl, Loop.ends_idle (Loop.ends_idle fun _ => .inl rfl)⟩ rfl ?_
    ⟨.inl rfl, Loop.ends_idle (Loop.ends_idle fun _ => .inl rfl)⟩ rfl
  · refine .trans (reaches_ends (fun _ => .inl rfl) rfl rfl (by decide)
      (copy_call rfl rfl rfl) rfl) ?_
    exact reaches_ends (Loop.ends_idle fun _ => .inl rfl) rfl rfl (by decide)
      (copy_call rfl rfl rfl) rfl
  · refine .trans (reaches_ends (fun _ => .inl rfl) rfl rfl (by decide) (.single .deleted) rfl) ?_
    exact reaches_ends (Loop.ends_idle fun _ => .inl rfl) rfl rfl (by decide) (.single .deleted) rfl

/-- A listed key that was pending delete may have an object at its target all the
same, and a listed key that was copied may be lost. -/
theorem directory_rename_not_exact :
    (∃ copied w', Reaches ["new/x", "old/x", "old/y"] hiddenTarget 1000 8 {} "/old" "/new"
    (.returned copied w' (.ok ⟨⟩)) ∧ copied "old/x" = .ended .skipped ∧
    (w'.object (target "/old" "/new" "old/x")).isSome = true) ∧
    ∃ copied w', Reaches ["a/0", "a/1", "a/b/b/x", "a/b/x"] nestedSource 1 8 {} "/a/b" "/a"
    (.returned copied w' (.ok ⟨⟩)) ∧ copied "a/b/b/x" = .ended .copied ∧
    w'.object (target "/a/b" "/a" "a/b/b/x") = none :=
  ⟨⟨_, _, hidden_reaches, by decide, by decide⟩, _, _, nested_reaches, by decide, by decide⟩

/-- The rename over a hidden target: both sources are gone, the target of the hidden one
is as it was, and the other has its copy. -/
theorem directory_rename_exact_hidden : (hiddenDeletes.world.object "old/x" = none ∧
    hiddenDeletes.world.object (target "/old" "/new" "old/x") =
    hiddenTarget.object (target "/old" "/new" "old/x")) ∧ hiddenDeletes.world.object "old/y" = none ∧
    hiddenDeletes.world.object (target "/old" "/new" "old/y") = hiddenTarget.object "old/y" := by
  have hexact := ((directory_rename_exact (by decide) rfl (by decide) (by decide) (by decide)
    (by decide) hidden_reaches).2 ["old/x", "old/y"] rfl).2 _ _ rfl
  have hx := hexact "old/x" (by decide)
  have hy := hexact "old/y" (by decide)
  refine ⟨⟨hx.1, ?_⟩, hy.1, ?_⟩
  · rcases hx.2 with ⟨hst, _⟩ | ⟨_, htarget⟩
    · exact nomatch hst
    · exact htarget
  · rcases hy.2 with ⟨_, htarget, _⟩ | ⟨hst, _⟩
    · exact htarget
    · exact nomatch hst

end Bluestone.Bucket
