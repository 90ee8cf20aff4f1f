/-
# `Bluestone.Vfs.Reserved` — clients and the lease object

The lease of the gateways is an object of the bucket the clients use.  Each call
that takes a name compares its path with the reserved one (`isReservedPath`), all
but `setAttributes` and `mkdirAll`.

`LeaseUntouched` is what clients should leave alone: the object does not change, no
answer or other effect depends on its bytes or metadata, and it is not shown.
That holds of every act in a state with nothing staged for the lease and no handle
or upload on it (`Guarded`).
-/
import Bluestone.Bucket.RenameDirectory
import Bluestone.Vfs.Calls
import Bluestone.Vfs.Shares

namespace Bluestone

open Cuts Runs Gateway Vfs

theorem isReservedPath_leasePath : isReservedPath leasePath := by decide

theorem isReservedPath_iff {path : String} : isReservedPath path ↔ path = leasePath := beq_iff_eq

theorem directoryKey_ne (path : String) : directoryKey path ≠ leasePath := by
  intro h
  have hlast : (directoryKey path).toList.getLast? = some '/' := by
    simp [directoryKey, String.toList_append]
  rw [h] at hlast
  exact absurd hlast (by decide)

/-! ## Calls that pass the lease by -/

section
variable {x y : Option Object} {path src dst : String}

theorem mkdirAll_passesBy (fails : Bool) (perm : UInt32) (now : Nat) :
    PassesBy leasePath x y (mkdirAll fails perm now path) := by
  unfold mkdirAll
  split
  · exact .fail
  · exact .step (.setObject (directoryKey_ne path) _)

theorem applySetters_passesBy (w : CallFaults) (sid : Nat) (calls : List Setter) :
    PassesBy leasePath x y (applySetters w sid calls) := by
  induction calls with
  | nil => exact .done
  | cons call rest ih =>
    exact .read (fun _ => rfl) fun g _ => .bind (.step (.setSession _ _)) fun _ =>
      .bind (.step (.persistAttributes _ _)) fun _ => ih

theorem updateObjectMetadata_passesBy {key : String} (h : key ≠ leasePath) (fails isDir : Bool)
    (update : AttributeUpdate) :
    PassesBy leasePath x y (updateObjectMetadata fails isDir update key) := by
  refine .read (fun g => by rw [withObject_object_of_ne h]) fun g _ => ?_
  split
  · split
    · exact .fail
    split
    · exact .fail
    · exact .step (.setObject h _)
  · split
    · exact .fail
    · exact .step (.setObject h _)

theorem setAttributes_passesBy (h : path ≠ leasePath) (w : CallFaults) (update : AttributeUpdate) :
    PassesBy leasePath x y (setAttributes w update path) := by
  refine .read (fun _ => rfl) fun g _ => ?_
  split
  · exact applySetters_passesBy _ _ _
  · refine .read (fun g => by rw [statObject_withObject h]) fun g _ => ?_
    split
    · exact .fail
    · exact .fail
    · exact updateObjectMetadata_passesBy h _ _ _
    · exact updateObjectMetadata_passesBy (directoryKey_ne path) _ _ _

theorem discardUnwrittenSession_passesBy (h : path ≠ leasePath) :
    PassesBy leasePath x y (discardUnwrittenSession path) := by
  refine .read (fun _ => rfl) fun g _ => ?_
  split
  · exact .done
  split
  · exact .done
  · exact .bind (.step (.on h _)) fun _ => .bind (.step (.on h _)) fun _ => .bind (.step (.on h _)) fun _ =>
      .bind (.step .removeFiles) fun _ => .done

theorem restoreUnwrittenSession_passesBy (h : path ≠ leasePath) (w : CopyFaults)
    (discarded : Nat × StagedAttributes) :
    PassesBy leasePath x y (restoreUnwrittenSession w path discarded) := by
  refine .read (fun _ => rfl) fun g _ => ?_
  split
  · exact .done
  · refine .bind (.step (Spares.on h _).setStagingOf) fun _ => ?_
    split
    all_goals exact .step (.on h _)

theorem copyObject_passesBy (hsrc : src ≠ leasePath) (hdst : dst ≠ leasePath) (w : CopyFaults)
    (attrs : Option StagedAttributes) : PassesBy leasePath x y (copyObject w attrs src dst) := by
  refine .read (fun g => by rw [statObject_withObject hsrc, withObject_object_of_ne hsrc]) fun g _ => ?_
  split
  · exact .fail
  · exact .fail
  · dsimp only
    split
    · refine .bind (.step (.setObject hdst _)) fun _ => ?_
      split
      · exact .fail
      · exact .done
    · exact .fail
  · exact .fail

theorem copyOverStaged_passesBy (hsrc : src ≠ leasePath) (hdst : dst ≠ leasePath) (w : CopyFaults)
    (onlyUnwritten : Bool) : PassesBy leasePath x y (copyOverStaged w onlyUnwritten src dst) := by
  refine .bind (.step .lockFile) fun _ => .bind (discardUnwrittenSession_passesBy hdst) ?_
  rintro (_ | _ | discarded)
  · exact .bind (.step .unlockFile) fun _ => .fail
  · dsimp only
    split
    · exact .bind (.step .unlockFile) fun _ => .fail
    · refine .bind (copyObject_passesBy hsrc hdst w none).attempt fun r => .bind (.step .unlockFile) fun _ => ?_
      cases r with
      | ok _ => exact .done
      | error e => exact .fail
  · refine .bind (copyObject_passesBy hsrc hdst w _).attempt ?_
    rintro (e | _)
    · exact .bind (restoreUnwrittenSession_passesBy hdst w discarded) fun _ =>
        .bind (.step .unlockFile) fun _ => .fail
    · exact .step .unlockFile

theorem copyFile_passesBy (w : CopyFaults) (onlyUnwritten : Bool) :
    PassesBy leasePath x y (copyFile w onlyUnwritten src dst) := by
  unfold copyFile
  split
  · exact .fail
  · rename_i hreserved
    have hsrc : src ≠ leasePath := by
      rintro rfl
      exact hreserved (by simp [isReservedPath_leasePath])
    have hdst : dst ≠ leasePath := by
      rintro rfl
      exact hreserved (by simp [isReservedPath_leasePath])
    split
    · exact .done
    · refine .read (fun _ => rfl) fun g _ => ?_
      split
      · exact .fail
      split
      · exact copyObject_passesBy hsrc hdst w none
      split
      · exact .fail
      · exact copyOverStaged_passesBy hsrc hdst w onlyUnwritten

end

/-- Why `Host.answer` keeps the lease through a directory rename in the bucket: no state
of that call has touched it. -/
theorem lease_left_by_directory_rename {known : List String} {w : Bucket.World}
    {maxEntries limit : Nat} {a : Bucket.Answers} {old new : String} {r : Bucket.Run}
    (hknown : known.Nodup) (hothers : w.others = w.object) (hold : hasPrefix old "/" = true)
    (hnew : hasPrefix new "/" = true) (hr : Bucket.Reaches known w maxEntries limit a old new r) :
    r.world.object leaseObjectKey = r.world.others leaseObjectKey :=
  Bucket.root_object_left (by decide) hknown hothers hold hnew hr

/-- A rename that has copied a file: the lease is there as before. -/
theorem lease_left_by_hidden_rename : Bucket.hiddenDeletes.world.object "new/y" = some ⟨[3], .default⟩ ∧
    Bucket.hiddenDeletes.world.others leaseObjectKey = some ⟨[4], .default⟩ ∧
    Bucket.hiddenDeletes.world.object leaseObjectKey = Bucket.hiddenDeletes.world.others leaseObjectKey := by
  refine ⟨by decide, by decide, ?_⟩
  exact lease_left_by_directory_rename (by decide) rfl (by decide) (by decide) Bucket.hidden_reaches

/-! ## The two models of a directory rename -/

/-- By path, the objects of a state that a directory rename of `world` gets to while
nobody else writes. -/
def Bucket.LeftByRename (world : Bucket.World) (old new : String) (object : String → Option Object) : Prop :=
  ∃ known maxEntries limit a r, known.Nodup ∧ Bucket.Reaches known world maxEntries limit a old new r ∧
    r.world.others = world.object ∧ ∀ path, object path = r.world.object (Bucket.toObjectKey path)

/-- What the bucket is said to hold in the course of the rename is what it leaves there. -/
structure BucketFaults.Follows (w : BucketFaults) (world : Bucket.World) (old new : String) : Prop where
  copied : Bucket.LeftByRename world old new w.copied
  deleted : Bucket.LeftByRename world old new w.deleted

section
variable {world : Bucket.World} {old new : String} {object : String → Option Object}

theorem Bucket.LeftByRename.lease (h : Bucket.LeftByRename world old new object) (hothers : world.others = world.object)
    (hold : hasPrefix old "/" = true) (hnew : hasPrefix new "/" = true) :
    object leasePath = world.object leaseObjectKey := by
  obtain ⟨known, maxEntries, limit, a, r, hknown, hr, hquiet, hobject⟩ := h
  have hkey : Bucket.toObjectKey leasePath = leaseObjectKey := by decide
  rw [hobject, hkey, Bucket.root_object_left (by decide) hknown hothers hold hnew hr, hquiet]

theorem BucketFaults.Follows.sparing {w : BucketFaults} (h : w.Follows world old new)
    (hothers : world.others = world.object) (hold : hasPrefix old "/" = true)
    (hnew : hasPrefix new "/" = true) : w.sparing leasePath (world.object leaseObjectKey) = w := by
  have hcopied := h.copied.lease hothers hold hnew
  have hdeleted := h.deleted.lease hothers hold hnew
  rw [BucketFaults.sparing, ← hcopied, Function.update_eq_self, hcopied, ← hdeleted,
    Function.update_eq_self]

/-- `Host.answer` asks for nothing that the bucket does not do: when its answers are those of
the bucket's own rename, the lease is spared without being put back. -/
theorem rename_sparing {h : Host} {known : List String} {wf : FileFaults} {wd : DirectoryFaults}
    (hlease : h.gateway.object leasePath = world.object leaseObjectKey)
    (hfile : wf.bucket.Follows world old new) (hdirectory : wd.bucket.Follows world old new)
    (hothers : world.others = world.object) (hold : hasPrefix old "/" = true)
    (hnew : hasPrefix new "/" = true) : rename known (wf.sparing leasePath (h.gateway.object leasePath))
    (wd.sparing leasePath (h.gateway.object leasePath)) old new h.gateway =
    rename known wf wd old new h.gateway := by
  rw [hlease, FileFaults.sparing, hfile.sparing hothers hold hnew, DirectoryFaults.sparing,
    hdirectory.sparing hothers hold hnew]

end

/-! ## Listings -/

/-- The same entry, unless it is the one of the lease: that has the same name. -/
structure SameEntry (dir : String) (e e' : FileInfo) : Prop where
  name : e.name = e'.name
  isDir : e.isDir = e'.isDir
  eq : isReservedPath (joinName dir e.name) = false → e = e'

theorem SameEntry.refl (dir : String) (e : FileInfo) : SameEntry dir e e := ⟨rfl, rfl, fun _ => rfl⟩

theorem listPrefix_of_lease {dir : String} (h : hasPrefix leasePath (listPrefix dir)) :
    listPrefix dir = "/" ∧ (dir = "/" ∨ dir = "") := by
  rw [listPrefix] at h ⊢
  split at h
  · rename_i hroot
    rw [if_pos hroot]
    exact ⟨hroot, .inl hroot⟩
  · rename_i hroot
    rw [if_neg hroot]
    rw [hasPrefix_iff, String.toList_append] at h
    have hslash : '/' ∉ leasePath.toList.tail := by decide
    cases hdir : dir.toList with
    | nil =>
      obtain rfl : dir = "" := String.toList_inj.1 hdir
      exact ⟨rfl, .inr rfl⟩
    | cons c rest =>
      rw [hdir, List.cons_append] at h
      refine absurd ?_ hslash
      obtain ⟨tail, htail⟩ := h
      rw [← htail]
      simp

section
variable {g : Gateway} {o : Option Object} {w : ListFaults} {known : List String} {dir : String}

theorem isSome_withObject (ho : o.isSome = (g.object leasePath).isSome) (key : String) :
    ((g.withObject leasePath o).object key).isSome = (g.object key).isSome := by
  by_cases h : key = leasePath
  · subst h
    rw [withObject_object_self, ho]
  · rw [withObject_object_of_ne h]

theorem listedEntry_lease {a : Object} (ha : g.object leasePath = some a) (hpre : listPrefix dir = "/") :
    g.listedEntry w dir leasePath = some ⟨leaseObjectKey.toList, false, a.content.length,
    a.statAttributes w.modTime w.atime w.mtime⟩ := by
  have hrel : (trimPrefix leasePath "/").toList = leaseObjectKey.toList := by decide +kernel
  have hparts : ((leaseObjectKey.toList.dropWhile (· == '/')).rdropWhile (· == '/')).splitOn '/' =
      [leaseObjectKey.toList] := by decide +kernel
  have hne : leaseObjectKey.toList ≠ [] := by decide
  have hlast : leaseObjectKey.toList.getLast? ≠ some '/' := by decide
  simp only [listedEntry, ha, hpre, hrel, hparts, Option.bind_some]
  simp [hne, hlast]

theorem reserved_of_lease (hdir : dir = "/" ∨ dir = "") :
    isReservedPath (joinName dir leaseObjectKey.toList) := by
  rcases hdir with rfl | rfl
  all_goals decide +kernel

theorem listedEntry_sameEntry (ho : o.isSome = (g.object leasePath).isSome) {key : String}
    (hkey : hasPrefix key (listPrefix dir)) :
    Option.Rel (SameEntry dir) (g.listedEntry w dir key) ((g.withObject leasePath o).listedEntry w dir key) := by
  by_cases h : key = leasePath
  · subst h
    obtain ⟨hpre, hdir⟩ := listPrefix_of_lease hkey
    cases ha : g.object leasePath with
    | none =>
      obtain rfl : o = none := by simpa [ha] using ho
      simp only [listedEntry, ha, withObject_object_self, Option.bind_none]
      exact .none
    | some a =>
      obtain ⟨b, rfl⟩ : ∃ b, o = some b := Option.isSome_iff_exists.1 (by simpa [ha] using ho)
      rw [listedEntry_lease ha hpre, listedEntry_lease withObject_object_self hpre]
      refine .some ⟨rfl, rfl, fun hnot => ?_⟩
      rw [reserved_of_lease hdir] at hnot
      cases hnot
  · rw [listedEntry, listedEntry, withObject_object_of_ne h]
    cases (g.object key).bind _ with
    | none => exact .none
    | some e => exact .some (.refl dir e)

theorem distinct_sameEntry : ∀ {es es' : List FileInfo} (seen : List Str), List.Forall₂ (SameEntry dir) es es' →
    List.Forall₂ (SameEntry dir) (distinct seen es) (distinct seen es') := by
  intro es es' seen h
  induction h generalizing seen with
  | nil => exact .nil
  | cons he _ ih =>
    rw [distinct, distinct, ← he.name]
    split
    · exact ih seen
    · exact .cons he (ih _)

/-- What a directory lists when the lease is another one of the same presence. -/
inductive SameListing (dir : String) :
    Except CallError (List FileInfo) → Except CallError (List FileInfo) → Prop
  | error (e : CallError) : SameListing dir (.error e) (.error e)
  | ok {es es' : List FileInfo} : List.Forall₂ (SameEntry dir) es es' → SameListing dir (.ok es) (.ok es')

theorem listDirectory_same (ho : o.isSome = (g.object leasePath).isSome) :
    SameListing dir (g.listDirectory known w dir)
    ((g.withObject leasePath o).listDirectory known w dir) := by
  have hlimit : ∀ {es es' : List FileInfo}, List.Forall₂ (SameEntry dir) es es' →
      SameListing dir (if w.maxEntries < es.length then .error .tooLarge else .ok es)
        (if w.maxEntries < es'.length then .error .tooLarge else .ok es') := by
    intro es es' h
    rw [← h.length_eq]
    split
    · exact .error _
    · exact .ok h
  unfold listDirectory
  cases w.listing with
  | unreachable => exact .error _
  | cached entries => exact hlimit (List.forall₂_same.2 fun e _ => .refl dir e)
  | fresh =>
    refine hlimit (distinct_sameEntry [] ?_)
    simp only [isSome_withObject ho]
    refine List.rel_filterMap (R := fun key key' => key = key' ∧ hasPrefix key (listPrefix dir))
      ?_ (List.forall₂_same.2 fun key hkey => ⟨rfl, ?_⟩)
    · rintro key _ ⟨rfl, hkey⟩
      exact listedEntry_sameEntry ho hkey
    · have hobject := List.mem_of_mem_take (List.mem_of_mem_filter hkey)
      exact (Bool.and_eq_true_iff.1 (List.mem_filter.1 hobject).2).2

theorem filter_reserved_eq {es es' : List FileInfo} (h : List.Forall₂ (SameEntry dir) es es') :
    (es.filter fun e => !isReservedPath (joinName dir e.name)) =
    es'.filter fun e => !isReservedPath (joinName dir e.name) := by
  induction h with
  | nil => rfl
  | cons he _ ih =>
    rename_i e e' es es' _
    have hname := he.name
    cases hres : isReservedPath (joinName dir e.name) with
    | true => rw [List.filter_cons_of_neg (by simp [hres]), List.filter_cons_of_neg (by simp [← hname, hres]), ih]
    | false =>
      obtain rfl := he.eq hres
      rw [List.filter_cons_of_pos (by simp [hres]), List.filter_cons_of_pos (by simp [hres]), ih]

theorem addStaged_withObject (result : List FileInfo) (sessions : List (String × Nat))
    (hs : ∀ s ∈ sessions, s.1 ≠ leasePath) :
    (g.withObject leasePath o).addStaged result sessions = g.addStaged result sessions := by
  induction sessions generalizing result with
  | nil => rfl
  | cons s rest ih =>
    have hrest : ∀ s ∈ rest, s.1 ≠ leasePath := fun s hs' => hs s (List.mem_cons_of_mem _ hs')
    have hslice := slice_withObject (g := g) (o := o) (hs s List.mem_cons_self)
    rw [addStaged, addStaged, ih _ hrest, ih _ hrest, hslice]
    rfl

theorem sessionsInDirectory_ne (hg : Unstaged leasePath g) :
    ∀ s ∈ g.sessionsInDirectory known dir, s.1 ≠ leasePath := by
  intro s hs he
  obtain ⟨path, -, hpath⟩ := List.mem_filterMap.1 hs
  split at hpath
  · obtain ⟨sid, hsid, rfl⟩ := Option.map_eq_some_iff.1 hpath
    obtain rfl : path = leasePath := he
    rw [getSession] at hsid
    split at hsid
    · cases hsid
    · rw [hg.listed] at hsid
      cases hsid
  · cases hpath

theorem readDir_withObject (hg : Unstaged leasePath g) (ho : o.isSome = (g.object leasePath).isSome) :
    (g.withObject leasePath o).readDir known w dir = g.readDir known w dir := by
  have hsame : SameListing dir (g.listDirectory known w dir)
      ((g.withObject leasePath o).listDirectory known w dir) := listDirectory_same ho
  have hsessions : (g.withObject leasePath o).sessionsInDirectory known dir =
      g.sessionsInDirectory known dir := rfl
  rw [readDir, readDir, hsessions]
  cases hlist : g.listDirectory known w dir with
  | error e =>
    rw [hlist] at hsame
    generalize (g.withObject leasePath o).listDirectory known w dir = r at hsame ⊢
    cases hsame
    rfl
  | ok es =>
    rw [hlist] at hsame
    generalize (g.withObject leasePath o).listDirectory known w dir = r at hsame ⊢
    cases hsame with
    | ok h =>
      dsimp only
      rw [addStaged_withObject _ _ (sessionsInDirectory_ne hg), filter_reserved_eq h]
      rfl

/-! ## What is shown -/

theorem mem_addStaged {e : FileInfo} {result : List FileInfo} {sessions : List (String × Nat)}
    (h : e ∈ g.addStaged result sessions) :
    e ∈ result ∨ ∃ s ∈ sessions, e = g.stagedFileInfo s.1 s.2 := by
  induction sessions generalizing result with
  | nil => exact .inl h
  | cons s rest ih =>
    rw [addStaged] at h
    split at h
    · exact (ih h).imp_right fun ⟨s', hs', he⟩ => ⟨s', List.mem_cons_of_mem _ hs', he⟩
    · rcases ih h with h | ⟨s', hs', he⟩
      · rcases List.mem_append.1 h with h | h
        · exact .inl h
        · exact .inr ⟨s, List.mem_cons_self .., List.mem_singleton.1 h⟩
      · exact .inr ⟨s', List.mem_cons_of_mem _ hs', he⟩

theorem eq_leasePath_of_baseName {path : String} (hpre : hasPrefix path "/" = true)
    (hslash : '/' ∉ (trimPrefix path "/").toList) (hname : baseName path = leaseObjectKey.toList) :
    path = leasePath := by
  obtain ⟨rest, hrest⟩ := hasPrefix_iff.1 hpre
  have htrim : (trimPrefix path "/").toList = rest := by
    rw [trimPrefix, if_pos hpre, ← hrest]
    simp
  rw [htrim] at hslash
  have hbase : baseName path = rest := by
    have hsplit : ('/' :: rest).splitOn '/' = [] :: rest.splitOn '/' :=
      List.splitOn_append_cons_self [] rest
    rw [baseName, ← hrest]
    show (('/' :: rest).splitOn '/').getLast?.getD [] = rest
    rw [hsplit, List.splitOn_eq_singleton hslash]
    rfl
  rw [hbase] at hname
  rw [← String.toList_inj, ← hrest, hname]
  rfl

theorem readDir_hides (hg : Unstaged leasePath g) {entries : List FileInfo}
    (h : g.readDir known w "/" = .ok entries) : ∀ e ∈ entries, e.name ≠ leaseObjectKey.toList := by
  have hstaged : ∀ s ∈ g.sessionsInDirectory known "/",
      (g.stagedFileInfo s.1 s.2).name ≠ leaseObjectKey.toList := by
    intro s hs hname
    refine sessionsInDirectory_ne hg s hs ?_
    obtain ⟨path, -, hpath⟩ := List.mem_filterMap.1 hs
    split at hpath
    · rename_i hchild
      obtain ⟨sid, -, rfl⟩ := Option.map_eq_some_iff.1 hpath
      have hroot : listPrefix "/" = "/" := rfl
      rw [hroot] at hchild
      simp only [Bool.and_eq_true, Bool.not_eq_true', List.contains_eq_mem, decide_eq_false_iff_not] at hchild
      exact eq_leasePath_of_baseName hchild.1.1 hchild.2 hname
    · cases hpath
  rw [readDir] at h
  split at h
  · split at h
    · cases h
    · obtain rfl := Except.ok.inj h
      intro e he
      obtain ⟨s, hs, rfl⟩ := List.mem_map.1 he
      exact hstaged s (List.mem_of_mem_filter hs)
  · obtain rfl := Except.ok.inj h
    intro e he
    rcases mem_addStaged he with he | ⟨s, hs, rfl⟩
    · intro hname
      have hshown := (List.mem_filter.1 (List.mem_of_mem_filter he)).2
      rw [hname, reserved_of_lease (.inl rfl)] at hshown
      cases hshown
    · exact hstaged s hs

/-! ## Removing, and reading -/

theorem listedEntriesAreGone_same (ho : o.isSome = (g.object leasePath).isSome) {es es' : List FileInfo}
    (h : List.Forall₂ (SameEntry dir) es es') :
    (g.withObject leasePath o).listedEntriesAreGone dir es' = g.listedEntriesAreGone dir es := by
  have hall : (es'.all fun e => !e.isDir &&
      ((g.withObject leasePath o).object (listPrefix dir ++ String.ofList e.name)).isNone) =
      es.all fun e => !e.isDir && (g.object (listPrefix dir ++ String.ofList e.name)).isNone := by
    induction h with
    | nil => rfl
    | cons he _ ih =>
      rw [List.all_cons, List.all_cons, ih, ← he.name, ← he.isDir]
      simp only [← Option.not_isSome, isSome_withObject ho]
  rw [listedEntriesAreGone, listedEntriesAreGone, hall, h.length_eq]

end

section
variable {x y : Option Object} {known : List String} {path : String}

theorem deleteDirectory_passesBy (hxy : y.isSome = x.isSome) (w : ListFaults) (fails : Bool) :
    PassesBy leasePath x y (deleteDirectory known w fails path) := by
  refine Blind.read ?_ ?_
  · rintro g ⟨-, rfl⟩
    have hsame : SameListing path (g.listDirectory known w path)
        ((g.withObject leasePath y).listDirectory known w path) := listDirectory_same hxy
    generalize g.listDirectory known w path = r at hsame ⊢
    generalize (g.withObject leasePath y).listDirectory known w path = r' at hsame ⊢
    cases hsame with
    | error e => rfl
    | ok h =>
      rename_i es es'
      have hempty : es'.isEmpty = es.isEmpty := by
        cases h <;> rfl
      dsimp only
      rw [listedEntriesAreGone_same hxy h, hempty]
  · rintro g -
    split
    · exact PassesBy.fail
    split
    · exact PassesBy.fail
    split
    · exact PassesBy.fail
    · exact PassesBy.step (.setObject (directoryKey_ne path) none)

theorem remove_passesBy (hxy : y.isSome = x.isSome) (w : RemoveFaults) (wl : ListFaults) :
    PassesBy leasePath x y (remove known w wl path) := by
  unfold remove
  split
  · exact .fail
  · rename_i hreserved
    have hpath : path ≠ leasePath := fun he => hreserved (isReservedPath_iff.2 he)
    have hclean : ∀ g : Gateway, (g.withObject leasePath y).isCleanDirectory known w path =
        g.isCleanDirectory known w path := by
      intro g
      rw [isCleanDirectory, isCleanDirectory, statPath_withObject hpath]
      rfl
    refine .read (fun g => by rw [hclean]) fun g _ => ?_
    split
    · exact deleteDirectory_passesBy hxy wl w.delete
    · refine .bind (PassesBy.removeFile isReservedPath_leasePath known).attempt ?_
      rintro (e | _)
      · exact .fail
      · exact .done

end

section
variable {g : Gateway} {o : Option Object} {known : List String} {w : CallFaults}

theorem statInfo_withObject (path : String) :
    (g.withObject leasePath o).statInfo known w path = g.statInfo known w path := by
  by_cases h : path = leasePath
  · subst h
    rw [statInfo, statInfo, isReservedPath_leasePath, Bool.true_or, Bool.true_or, if_pos rfl, if_pos rfl]
  · rw [statInfo, statInfo, slice_withObject h, statObject_withObject h, withObject_object_of_ne h,
      statAttributes_withObject h, withObject_object_of_ne (directoryKey_ne path)]
    rfl

theorem statInfo_lease : g.statInfo known w leasePath = .error .notExist := by
  rw [statInfo, isReservedPath_leasePath, Bool.true_or, if_pos rfl]

theorem readFile_withObject {f : File} (h : f.path ≠ leasePath) (offset length : Nat) :
    (g.withObject leasePath o).readFile w f offset length = g.readFile w f offset length := by
  rw [readFile, readFile, readObject, readObject, statObject_withObject h, withObject_object_of_ne h]
  rfl

end

/-! ## The host -/

/-- Nothing is staged for the lease, and no handle and no upload is on it. -/
structure Guarded (h : Host) : Prop where
  unstaged : Unstaged leasePath h.gateway
  files : ∀ f ∈ h.files, f.path ≠ leasePath
  uploads : h.uploads leasePath = none

/-- The same host with another lease in the bucket. -/
def Host.withLease (h : Host) (o : Option Object) : Host :=
  { h with gateway := h.gateway.withObject leasePath o }

/-- The lease stays, and with other bytes and metadata in it everything would have gone
the same way. -/
structure Leaves (h : Host) (F : Host → Host × Reply) : Prop where
  guarded : Guarded (F h).1
  unchanged : (F h).1.gateway.object leasePath = h.gateway.object leasePath
  unread : ∀ o, o.isSome = (h.gateway.object leasePath).isSome →
    F (h.withLease o) = ((F h).1.withLease o, (F h).2)

section
variable {h : Host}

theorem Leaves.of_reply (hh : Guarded h) {reply : Host → Reply}
    (hr : ∀ o, o.isSome = (h.gateway.object leasePath).isSome → reply (h.withLease o) = reply h) :
    Leaves h fun h => (h, reply h) where
  guarded := hh
  unchanged := rfl
  unread o ho := by
    dsimp only
    rw [hr o ho]

theorem Leaves.of_matches {E A : Type} {m : Gateway → Outcome Gateway E A} {F : Host → Host × Reply}
    (hm : ∀ o, o.isSome = (h.gateway.object leasePath).isSome →
    Outcome.Matches (Twins leasePath (h.gateway.object leasePath) o) (m h.gateway)
    (m (h.gateway.withObject leasePath o))) (hfinal : (F h).1.gateway = (m h.gateway).final)
    (hfiles : ∀ f ∈ (F h).1.files, f.path ≠ leasePath) (huploads : (F h).1.uploads leasePath = none)
    (hF : ∀ o, (m (h.gateway.withObject leasePath o)).final = (m h.gateway).final.withObject leasePath o →
    (m (h.gateway.withObject leasePath o)).result = (m h.gateway).result →
    F (h.withLease o) = ((F h).1.withLease o, (F h).2)) : Leaves h F := by
  obtain ⟨⟨hunstaged, hobject⟩, -⟩ := (hm _ rfl).final
  refine ⟨⟨?_, hfiles, huploads⟩, ?_, fun o ho => ?_⟩
  · rw [hfinal]
    exact hunstaged
  · rw [hfinal]
    exact hobject
  · exact hF o (hm o ho).final.2 (hm o ho).result.symm

theorem Leaves.called (hh : Guarded h) {m : Program Gateway CallError Unit}
    (hm : ∀ {x y : Option Object}, y.isSome = x.isSome → PassesBy leasePath x y m) :
    Leaves h (·.called m) := by
  refine .of_matches (m := m) (fun o ho => hm ho _ _ ⟨⟨hh.unstaged, rfl⟩, rfl⟩) rfl hh.files
    hh.uploads ?_
  intro o hfinal hresult
  simp only [Host.called, Host.withLease, hfinal, hresult]

theorem Leaves.changed (hh : Guarded h) {handle : Nat} {change : File → Program Gateway FileError Unit}
    (hchange : ∀ {x y : Option Object} {f : File}, f.path ≠ leasePath → PassesBy leasePath x y (change f)) :
    Leaves h (·.changed handle change) := by
  cases hfile : h.files[handle]? with
  | none =>
    refine ⟨?_, ?_, fun o _ => ?_⟩
    · simp only [Host.changed, Host.through, hfile]
      exact hh
    · simp only [Host.changed, Host.through, hfile]
    · simp only [Host.changed, Host.through, Host.withLease, hfile]
  | some f =>
    have hpath : f.path ≠ leasePath := hh.files f (List.mem_of_getElem? hfile)
    refine .of_matches (m := change f) (fun o _ => hchange hpath _ _ ⟨⟨hh.unstaged, rfl⟩, rfl⟩)
      ?_ ?_ ?_ ?_
    · simp only [Host.changed, Host.through, hfile]
    · simp only [Host.changed, Host.through, hfile]
      exact hh.files
    · simp only [Host.changed, Host.through, hfile]
      exact hh.uploads
    · intro o hfinal hresult
      simp only [Host.changed, Host.through, Host.withLease, hfile, hfinal, hresult]

theorem openFile_path (w : CallFaults) (fl : FileFlags) (path : String) : Triple (fun _ => True)
    (openFile w fl path) (fun f _ => f.path = path ∧ path ≠ leasePath) (fun _ _ => True)
    (fun _ => True) := by
  unfold openFile
  split
  · exact Triple.fail fun _ _ => ⟨trivial, trivial⟩
  · rename_i hreserved
    have hpath : path ≠ leasePath := fun he => hreserved (isReservedPath_iff.2 he)
    have hdone : ∀ {P : Gateway → Prop} (session : Option Nat),
        Triple P (.done (⟨path, session, fl.write, false⟩ : File)) (fun f _ => f.path = path ∧ path ≠ leasePath)
          (fun (_ : FileError) _ => True) (fun _ => True) :=
      fun _ => Triple.done fun _ _ => ⟨trivial, rfl, hpath⟩
    refine Triple.read fun g _ => ?_
    split
    · exact Triple.fail fun _ _ => ⟨trivial, trivial⟩
    split
    · refine Triple.read fun g _ => ?_
      split
      · exact Triple.bind Triple.anything fun _ => Triple.bind Triple.anything fun _ => hdone _
      split
      · exact hdone _
      split
      · exact Triple.fail fun _ _ => ⟨trivial, trivial⟩
      · exact Triple.bind Triple.anything fun _ => hdone _
    · exact Triple.bind Triple.anything fun _ => Triple.bind Triple.anything fun _ =>
        Triple.bind Triple.anything fun _ => hdone _

theorem Leaves.openFile (hh : Guarded h) (v : View) (w : CallFaults) (fl : FileFlags) (name : Str) :
    Leaves h (·.answer v (.openFile w fl name)) := by
  refine .of_matches (m := Bluestone.openFile w fl (v.path name))
    (fun o _ => PassesBy.openFile isReservedPath_leasePath _ _ ⟨⟨hh.unstaged, rfl⟩, rfl⟩) rfl ?_ hh.uploads ?_
  · intro f hf
    cases hres : (Bluestone.openFile w fl (v.path name) h.gateway).result with
    | error e =>
      simp only [Host.answer, Host.opened, hres] at hf
      exact hh.files f hf
    | ok opened =>
      simp only [Host.answer, Host.opened, hres] at hf
      rcases List.mem_append.1 hf with hf | hf
      · exact hh.files f hf
      · obtain rfl := List.mem_singleton.1 hf
        obtain ⟨hpath, hne⟩ := (openFile_path w fl (v.path name)).of_ok trivial hres
        exact hpath ▸ hne
  · intro o hfinal hresult
    simp only [Host.answer, Host.opened, Host.withLease, hfinal, hresult]

theorem Leaves.close (hh : Guarded h) (v : View) (handle : Nat) : Leaves h (·.answer v (.close handle)) := by
  cases hfile : h.files[handle]? with
  | none =>
    refine ⟨?_, ?_, fun o _ => ?_⟩
    · simp only [Host.answer, Host.close, hfile]
      exact hh
    · simp only [Host.answer, Host.close, hfile]
    · simp only [Host.answer, Host.close, Host.withLease, hfile]
  | some f =>
    have hpath : f.path ≠ leasePath := hh.files f (List.mem_of_getElem? hfile)
    have hspares : Spares leasePath (closeFile f) := .closeFile hpath
    refine ⟨⟨?_, ?_, ?_⟩, ?_, fun o _ => ?_⟩
    · simp only [Host.answer, Host.close, hfile]
      exact hspares.unstaged _ hh.unstaged
    · simp only [Host.answer, Host.close, hfile]
      intro f' hf'
      rcases List.mem_or_eq_of_mem_set hf' with hf' | rfl
      · exact hh.files f' hf'
      · exact hpath
    · simp only [Host.answer, Host.close, hfile]
      exact hh.uploads
    · simp only [Host.answer, Host.close, hfile]
      exact hspares.object _
    · simp only [Host.answer, Host.close, Host.withLease, hfile, hspares.commutes]

theorem Leaves.rename (hh : Guarded h) (v : View) (known : List String) (wf : FileFaults)
    (wd : DirectoryFaults) (old new : Str)
    (htarget : ∀ child ∈ h.gateway.dirtyStagedChildren known (v.path old), renameTarget (v.path old)
    (v.targetPath old new) child ≠ leasePath) : Leaves h (·.answer v (.rename known wf wd old new)) := by
  refine .of_matches (m := fun g => Bluestone.rename known (wf.sparing leasePath (g.object leasePath))
    (wd.sparing leasePath (g.object leasePath)) (v.path old) (v.targetPath old new) g)
    (fun o _ => ?_) rfl hh.files hh.uploads ?_
  · rw [withObject_object_self]
    exact rename_spares isReservedPath_leasePath hh.unstaged rfl htarget
  · intro o hfinal hresult
    simp only [Host.answer, Host.withLease, hfinal, hresult]

/-! The worker. -/

theorem beginSync_lease {g : Gateway} (hg : Unstaged leasePath g) (w : CallFaults) :
    beginSync w leasePath g = ⟨[], g, .ok none⟩ := by
  have hnone : (g.syncing leasePath || (g.dirty leasePath).isNone || g.conflicted leasePath ||
      g.tombstone leasePath) := by simp [hg.dirty]
  show (if _ then _ else _ : Program Gateway FileError (Option Turn)) g = _
  rw [if_pos hnone]
  rfl

theorem Leaves.beginSync (hh : Guarded h) (w : CallFaults) (path : String) :
    Leaves h (·.serve (.beginSync w path)) := by
  refine .of_matches (m := Bluestone.beginSync w path)
    (fun o _ => PassesBy.beginSync _ _ ⟨⟨hh.unstaged, rfl⟩, rfl⟩) rfl hh.files ?_ ?_
  · by_cases hpath : path = leasePath
    · subst hpath
      simp only [Host.serve, Host.next, Host.syncBegun, beginSync_lease hh.unstaged]
      exact hh.uploads
    · rcases hres : (Bluestone.beginSync w path h.gateway).result with e | _ | turn
      · simp only [Host.serve, Host.next, Host.syncBegun, hres]
        exact hh.uploads
      · simp only [Host.serve, Host.next, Host.syncBegun, hres]
        exact hh.uploads
      · simp only [Host.serve, Host.next, Host.syncBegun, hres]
        rw [Function.update_of_ne (Ne.symm hpath)]
        exact hh.uploads
  · intro o hfinal hresult
    simp only [Host.serve, Host.next, Host.syncBegun, Host.withLease, hfinal, hresult]

theorem Leaves.of_upload (hh : Guarded h) {path : String} {F : Host → Host} {f : Turn → Gateway →
    Gateway} {l : Turn → Option Turn} (hnone : ∀ h : Host, h.uploads path = none → F h = h)
    (hsome : ∀ (h : Host) turn, h.uploads path = some turn →
    F h = { h with gateway := f turn h.gateway, uploads := Function.update h.uploads path (l turn) })
    (hf : ∀ turn, path ≠ leasePath → Spares leasePath (f turn)) : Leaves h fun h => (F h, .nothing) := by
  cases hup : h.uploads path with
  | none =>
    have hother : ∀ o, F (h.withLease o) = h.withLease o := fun o => hnone _ hup
    refine ⟨?_, ?_, fun o _ => ?_⟩
    · rw [hnone h hup]
      exact hh
    · rw [hnone h hup]
    · dsimp only
      rw [hother, hnone h hup]
  | some turn =>
    have hpath : path ≠ leasePath := by
      rintro rfl
      rw [hh.uploads] at hup
      cases hup
    have hspares := hf turn hpath
    refine ⟨⟨?_, ?_, ?_⟩, ?_, fun o _ => ?_⟩
    · rw [hsome h turn hup]
      exact hspares.unstaged _ hh.unstaged
    · rw [hsome h turn hup]
      exact hh.files
    · rw [hsome h turn hup]
      exact (Function.update_of_ne hpath.symm ..).trans hh.uploads
    · rw [hsome h turn hup]
      exact hspares.object _
    · dsimp only
      rw [hsome h turn hup, hsome (h.withLease o) turn hup, Host.withLease, Host.withLease]
      dsimp only
      rw [hspares.commutes]

theorem Leaves.landUpload (hh : Guarded h) (path : String) : Leaves h (·.serve (.landUpload path)) := by
  refine .of_upload (F := fun h => h.uploadLanded path) (f := fun turn g => g.landUpload path turn)
    (l := fun turn => some { turn with landed := true }) hh ?_ ?_ fun turn hpath => .landUpload hpath turn
  · intro h hup
    simp only [Host.uploadLanded, hup]
  · intro h turn hup
    simp only [Host.uploadLanded, hup]

theorem Leaves.endSync (hh : Guarded h) (path : String) (uploaded cleanAfterSync : Bool) :
    Leaves h (·.serve (.endSync path uploaded cleanAfterSync)) := by
  refine .of_upload (F := fun h => h.syncEnded path uploaded cleanAfterSync)
    (f := fun turn g => g.endTurn path turn (uploaded && turn.landed) cleanAfterSync)
    (l := fun _ => none) hh ?_ ?_ fun turn hpath => .endTurn hpath turn _ _
  · intro h hup
    simp only [Host.syncEnded, hup]
  · intro h turn hup
    simp only [Host.syncEnded, hup]

theorem Leaves.deletePending (hh : Guarded h) (w : RemoveFaults) (path : String) :
    Leaves h (·.serve (.deletePending w path)) := by
  refine .of_matches (m := Bluestone.deletePending w path)
    (fun o _ => PassesBy.deletePending _ _ ⟨⟨hh.unstaged, rfl⟩, rfl⟩) rfl hh.files hh.uploads ?_
  intro o hfinal _
  simp only [Host.serve, Host.next, Host.withLease, hfinal]

end

/-! ## Every act -/

/-- What the guards leave out: an attribute change of the reserved path, and a rename of
the root that moves a staged file onto it. -/
def LeavesLease (h : Host) : Act → Prop
  | .client v (.setAttributes _ _ name) => v.path name ≠ leasePath
  | .client v (.rename known _ _ old new) => v.path old = "/" →
      ∀ child ∈ h.gateway.dirtyStagedChildren known "/", renameTarget "/" (v.targetPath old new) child ≠ leasePath
  | _ => True

/-- The acts of clients and of the sync worker. -/
def Act.isLease : Act → Bool
  | .lease _ => true
  | _ => false

/-- The answer does not show the lease. -/
def Hides : Act → Reply → Prop
  | .client v (.stat _ _ name), .info r => v.path name = leasePath → r = .error .notExist
  | .client v (.readDir _ _ name), .entries (.ok entries) =>
    v.path name = "/" → ∀ e ∈ entries, e.name ≠ leaseObjectKey.toList
  | _, _ => True

/-- The lease is not changed, not read and not shown. -/
structure LeaseUntouched (h : Host) (a : Act) : Prop where
  unchanged : (h.serve a).1.gateway.object leasePath = h.gateway.object leasePath
  unread : ∀ o, o.isSome = (h.gateway.object leasePath).isSome →
    (h.withLease o).serve a = ((h.serve a).1.withLease o, (h.serve a).2)
  hidden : Hides a (h.serve a).2

section
variable {h : Host}

/-- Below any directory but the root a staged file moves to a name that is not the
reserved one: the name keeps the slash after the directory. -/
theorem renameTarget_ne_leasePath {old child : String} (v : View) (name new : Str) (hroot : old ≠ "/")
    (hchild : isDescendant old child) : renameTarget old (v.targetPath name new) child ≠ leasePath := by
  obtain ⟨rest, hrest⟩ := (isDescendant_iff hroot).1 hchild
  obtain ⟨t, ht⟩ := v.renameTargetPath_rooted (v.keyPath name) new
  intro he
  have htarget := renameTarget_toList (v.targetPath name new) hrest
  rw [he, View.targetPath, ht, String.toList_ofList] at htarget
  have hslash : '/' ∉ leasePath.toList.tail := by decide
  rw [htarget] at hslash
  simp at hslash

theorem leaves_answer (hh : Guarded h) {v : View} {call : Call} (ha : LeavesLease h (.client v call)) :
    Leaves h (·.answer v call) := by
  cases call with
  | openFile w fl name => exact .openFile hh v w fl name
  | read w handle offset length =>
    refine .of_reply hh fun o _ => ?_
    cases hfile : h.files[handle]? with
    | none => simp only [Host.withLease, hfile]
    | some f =>
      simp only [Host.withLease, hfile]
      rw [readFile_withObject (hh.files f (List.mem_of_getElem? hfile))]
  | write w handle offset data => exact .changed hh fun hf => .writeFile hf offset data
  | truncate w handle size => exact .changed hh fun hf => .truncateFile hf size
  | close handle => exact .close hh v handle
  | rename known wf wd old new =>
    refine .rename hh v known wf wd old new fun child hchild => ?_
    by_cases hroot : v.path old = "/"
    · rw [hroot] at hchild ⊢
      exact ha hroot child hchild
    · exact renameTarget_ne_leasePath v old new hroot (mem_dirtyStagedChildren.1 hchild).2.2.2.1
  | remove known w wl name => exact .called hh fun hxy => remove_passesBy hxy w wl
  | copyFile w onlyUnwritten src dst => exact .called hh fun _ => copyFile_passesBy w onlyUnwritten
  | mkdirAll fails perm now name => exact .called hh fun _ => mkdirAll_passesBy fails perm now
  | setAttributes w update name => exact .called hh fun _ => setAttributes_passesBy ha w update
  | stat known w name =>
    refine .of_reply hh fun o _ => ?_
    rw [Host.withLease, statInfo_withObject]
  | readDir known w name =>
    refine .of_reply hh fun o ho => ?_
    rw [Host.withLease, readDir_withObject hh.unstaged ho]

theorem leaves_serve (hh : Guarded h) {a : Act} (ha : LeavesLease h a) (hlease : a.isLease = false) :
    Leaves h (·.serve a) := by
  cases a with
  | client v call => exact leaves_answer hh ha
  | beginSync w path => exact .beginSync hh w path
  | landUpload path => exact .landUpload hh path
  | endSync path uploaded cleanAfterSync => exact .endSync hh path uploaded cleanAfterSync
  | deletePending w path => exact .deletePending hh w path
  | lease o => cases hlease

theorem hides_serve (hh : Guarded h) (a : Act) : Hides a (h.serve a).2 := by
  cases a with
  | client v call =>
    cases call with
    | stat known w name =>
      intro hpath
      rw [hpath]
      exact statInfo_lease
    | readDir known w name =>
      show Hides _ (.entries (h.gateway.readDir known w (v.path name)))
      cases hr : h.gateway.readDir known w (v.path name) with
      | error e => exact trivial
      | ok entries =>
        intro hpath
        rw [hpath] at hr
        exact readDir_hides hh.unstaged hr
    | _ => exact trivial
  | _ => exact trivial

theorem guarded_serve (hh : Guarded h) {a : Act} (ha : LeavesLease h a) : Guarded (h.serve a).1 := by
  cases hlease : a.isLease with
  | false => exact (leaves_serve hh ha hlease).guarded
  | true =>
    cases a with
    | lease o => exact ⟨⟨hh.unstaged.listed, hh.unstaged.dirty, hh.unstaged.tombstone⟩, hh.files, hh.uploads⟩
    | _ => cases hlease

end

/-- In every run in which no client changes attributes under the reserved path or
renames the root so that a staged file moves onto it, no act of a client or of the
worker changes the lease, reads it or shows it. -/
theorem lease_untouched {h : Host} (hr : Reach clientSystem LeavesLease h) {a : Act}
    (ha : LeavesLease h a) (hlease : a.isLease = false) : LeaseUntouched h a := by
  have hguarded : Guarded h := by
    refine hr.invariant (I := Guarded) ?_ ?_
    · rintro h ⟨hunstaged, hfiles, huploads⟩
      refine ⟨hunstaged, ?_, huploads _⟩
      rw [hfiles]
      exact fun _ hf => absurd hf List.not_mem_nil
    · rintro h a h' hh ha rfl
      exact guarded_serve hh ha
  have hleaves := leaves_serve hguarded ha hlease
  exact ⟨hleaves.unchanged, hleaves.unread, hides_serve hguarded a⟩

/-! ## Two ways to the lease -/

/-- The whole bucket, with names as they are given. -/
def wholeView : View where
  root := "/".toList
  windowsNames := false
  fold := asciiFolding
  cachedChildNames := fun _ => none
  stagedChildNames := fun _ => []
  exists_ := fun _ => false
  listedCandidates := fun _ _ => []

/-- A gateway holds the lease. -/
def Host.leaseHeld : Host :=
  ⟨Gateway.blank.withObject leasePath (some ⟨[1], .default⟩), [], fun _ => none⟩

theorem reach_leaseHeld {ok : Host → Act → Prop} : Reach clientSystem ok Host.leaseHeld :=
  .init ⟨⟨rfl, rfl, rfl⟩, rfl, fun _ => rfl⟩

theorem reach_acts (acts : List Act) : ∀ {h : Host}, Reach clientSystem always h →
    Reach clientSystem always (acts.foldl (fun h a => (h.serve a).1) h) := by
  induction acts with
  | nil => exact fun hr => hr
  | cons a rest ih => exact fun hr => ih (hr.next rfl)

/-- `Chmod` of the lease. -/
def chmodLease : Act :=
  .client wholeView (.setAttributes {} { mode := some 0 } leaseObjectKey.toList)

/-- A file is written, and the root renamed to the rest of the reserved path. -/
def renameRoot : List Act :=
  [.client wholeView (.openFile {} { write := true, create := true } "ease".toList),
    .client wholeView (.write {} 0 0 [7]),
    .client wholeView (.rename ["/ease"] {} {} [] ".nfs-gateway.l".toList)]

/-- An attribute change gets through to the lease; and a rename of the root, refused in
the end, leaves a pending delete on it that the worker carries out. -/
theorem lease_touched : (Reach clientSystem always Host.leaseHeld ∧
    (Host.leaseHeld.serve chmodLease).1.gateway.object leasePath =
    some ⟨[1], { StagedAttributes.default with mode := 0 }⟩) ∧ ∃ h, Reach clientSystem always h ∧
    h.gateway.object leasePath = some ⟨[1], .default⟩ ∧
    (h.serve (.deletePending {} leasePath)).1.gateway.object leasePath = none := by
  refine ⟨⟨reach_leaseHeld, by decide +kernel⟩, _, reach_acts renameRoot reach_leaseHeld, ?_, ?_⟩
  all_goals decide +kernel

/-- A client has opened `/ease` and written to it, and then lists the root. -/
theorem listed_lease_untouched : ∃ h, Reach clientSystem LeavesLease h ∧
    h.gateway.object leasePath = some ⟨[1], .default⟩ ∧
    (h.gateway.dataFile "/ease").map h.gateway.inode = some [7] ∧
    LeaseUntouched h (.client wholeView (.readDir [leasePath, "/ease"] {} [])) := by
  have h : Reach clientSystem LeavesLease Host.leaseHeld := reach_leaseHeld
  have h := h.next (e := .client wholeView (.openFile {} { write := true, create := true } "ease".toList)) rfl
  have h := h.next (e := .client wholeView (.write {} 0 0 [7])) rfl
  exact ⟨_, h, by decide +kernel, by decide +kernel, lease_untouched h trivial rfl⟩

end Bluestone
