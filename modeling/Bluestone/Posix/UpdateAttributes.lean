/-
# `Bluestone.Posix.UpdateAttributes` — an attribute change of an object

`OperationsHandler.UpdateAttributes` reads the object's metadata, decodes it, applies the
update and writes everything back, with no other writer.  What `Stat` reports before and
after is compared field by field.

Decoding fills in what the metadata lacks, and that is written back like the rest.  It shows
in one field: an object without a modification time in its metadata is reported with the time
it was last modified in the bucket, and after any update with the time the gateway was started.

The metadata is what `HeadObject` answers, with its keys in lower case; an object's own
last modification changes with every update.
-/
import Bluestone.Posix.AttributeCodec

namespace Bluestone.Posix

open Rfc3339 (Time)
open Numerals

variable (lower : Bytes → Bytes)

/-- An object as `HeadObject` answers. -/
structure HeadedObject where
  metadata : UserMetadata
  lastModified : Time
  lowered : ∀ k ∈ metadata, toLower lower k = k

/-- `posix.AttributeUpdate`. -/
structure AttributeUpdate where
  mode : Option UInt32 := none
  uid : Option Int64 := none
  gid : Option Int64 := none
  atime : Option Time := none
  mtime : Option Time := none
  btime : Option Time := none
  windowsAttributes : Option UInt32 := none
  streams : Option Streams := none

/-- Whether the update sets anything. -/
def AttributeUpdate.changed (u : AttributeUpdate) : Bool :=
  u.mode.isSome || u.uid.isSome || u.gid.isSome || u.atime.isSome || u.mtime.isSome ||
    u.btime.isSome || u.windowsAttributes.isSome || u.streams.isSome

def AttributeUpdate.apply (u : AttributeUpdate) (attrs : POSIXAttributes) (now : Time) :
    POSIXAttributes where
  mode := u.mode.getD attrs.mode
  uid := u.uid.getD attrs.uid
  gid := u.gid.getD attrs.gid
  atime := u.atime.getD attrs.atime
  mtime := u.mtime.getD attrs.mtime
  btime := u.btime.getD attrs.btime
  windowsAttributes := (u.windowsAttributes.map (· &&& windowsAttributesStored)).getD attrs.windowsAttributes
  streams := u.streams.getD attrs.streams
  ctime := if u.changed then now else attrs.ctime

/-! ## What a stat reports -/

/-- `FileInfo`, as far as the metadata decides it. -/
structure FileInfo where
  mode : UInt32
  modTime : Time
  attrs : POSIXAttributes

variable {lower}

/-- `reportedModTime`. -/
def HeadedObject.reportedModTime (o : HeadedObject lower) (order : Order) : Time :=
  (storedMtime lower order o.metadata).getD o.lastModified

/-- `Stat` of a file, or of a directory with a marker. -/
def HeadedObject.stat (o : HeadedObject lower) (startup : Time) (order : Order) (isDir : Bool) :
    FileInfo :=
  let attrs := decodePOSIXAttributes lower startup order o.metadata isDir
  ⟨if isDir then attrs.mode ||| 0x80000000 else attrs.mode, o.reportedModTime order, attrs⟩

/-- `FileInfo.Attributes`: without a creation time, the modification time is reported as
the best estimate. -/
def FileInfo.attributes (info : FileInfo) : POSIXAttributes :=
  { info.attrs with btime := if info.attrs.btime.isZero then info.modTime else info.attrs.btime }

/-- The creation time recorded in the metadata, the zero time if there is none. -/
def HeadedObject.storedBtime (o : HeadedObject lower) (order : Order) : Time :=
  ((metaValue lower order o.metadata .btime).bind Rfc3339.parse).getD .zero

/-! ## The update -/

theorem lowered_merge {metadata : UserMetadata} {attrs : POSIXAttributes}
    (h : ∀ k ∈ metadata, toLower lower k = k) :
    ∀ k ∈ mergePOSIXMetadata lower metadata attrs, toLower lower k = k := by
  intro k hk
  by_cases hposix : isPOSIXMetaKey lower k
  · obtain ⟨key, rfl⟩ := current_merge k hk hposix
    exact toLower_name key
  · refine h k ?_
    rw [← AList.lookup_isSome] at hk ⊢
    rwa [lookup_merge_other (Bool.eq_false_iff.2 hposix)] at hk

/-- What `HeadObject` answers for the key the update is for. -/
inductive Head (lower : Bytes → Bytes)
  | found (o : HeadedObject lower)
  | missing
  | failed

/-- The metadata with the update merged in. -/
def updatedMetadata (lower : Bytes → Bytes) (startup : Time) (order : Order) (isDir : Bool)
    (u : AttributeUpdate) (now : Time) (existing : UserMetadata) : UserMetadata :=
  mergePOSIXMetadata lower existing (u.apply (decodePOSIXAttributes lower startup order existing isDir) now)

/-- `UpdateAttributes` of a path that `Stat` found, with the object it leaves, last modified
at the given time.  An implicit directory has no marker to update, and gets one. -/
def updateAttributes (startup : Time) (order : Order) (isDir : Bool) (u : AttributeUpdate)
    (now lastModified : Time) : Head lower → Option (HeadedObject lower)
  | .found o => some ⟨updatedMetadata lower startup order isDir u now o.metadata, lastModified,
      lowered_merge o.lowered⟩
  | .missing =>
    if isDir then some ⟨updatedMetadata lower startup order isDir u now ∅, lastModified,
      lowered_merge fun _ h => absurd h (AList.notMem_empty _)⟩
    else none
  | .failed => none

/-! ## Metadata in lower case -/

variable {metadata : UserMetadata} {key : MetaKey}

theorem metaValueLoop_lowered {entries : List (Sigma fun _ : Bytes => Bytes)} {legacy : Option Bytes}
    (h : ∀ e ∈ entries, toLower lower e.1 = e.1) (hkeys : entries.NodupKeys)
    (hlegacy : legacy = none ∨ entries.dlookup (legacyMetaKeyPrefix ++ key.name) = none) :
    metaValueLoop lower key legacy entries = (entries.dlookup key.name).or
    (legacy.or (entries.dlookup (legacyMetaKeyPrefix ++ key.name))) := by
  induction entries generalizing legacy with
  | nil => simp [metaValueLoop]
  | cons e entries ih =>
    obtain ⟨k, v⟩ := e
    have hk : toLower lower k = k := h ⟨k, v⟩ List.mem_cons_self
    obtain ⟨hfresh, hkeys'⟩ := List.nodupKeys_cons.1 hkeys
    have hrest : ∀ e ∈ entries, toLower lower e.1 = e.1 := fun e he => h e (List.mem_cons_of_mem _ he)
    rw [metaValueLoop, hk]
    split
    next hname =>
      subst hname
      rw [List.dlookup_cons_eq, Option.some_or]
    next hname =>
      rw [List.dlookup_cons_ne _ _ fun heq => hname heq.symm]
      split
      next hold =>
        subst hold
        have hnone : entries.dlookup (legacyMetaKeyPrefix ++ key.name) = none :=
          List.dlookup_eq_none.2 hfresh
        rw [List.dlookup_cons_eq] at hlegacy ⊢
        obtain rfl : legacy = none := by simpa using hlegacy
        rw [ih hrest hkeys' (.inr hnone), Option.some_or, Option.none_or]
      next hold =>
        rw [List.dlookup_cons_ne _ _ fun heq => hold heq.symm] at hlegacy ⊢
        exact ih hrest hkeys' hlegacy

theorem metaValue_lowered (order : Order) (h : ∀ k ∈ metadata, toLower lower k = k) :
    metaValue lower order metadata key =
    (metadata.lookup key.name).or (metadata.lookup (legacyMetaKeyPrefix ++ key.name)) := by
  have hperm := order.perm key metadata
  have hkeys := (List.perm_nodupKeys hperm).2 metadata.nodupKeys
  rw [metaValue, metaValueLoop_lowered (fun e he => h e.1 (List.mem_map_of_mem (hperm.mem_iff.1 he)))
    hkeys (.inl rfl), Option.none_or, AList.lookup, AList.lookup,
    List.perm_dlookup _ hkeys hperm, List.perm_dlookup _ hkeys hperm]

theorem HeadedObject.metaValue_eq (o : HeadedObject lower) (order order' : Order) :
    metaValue lower order o.metadata = metaValue lower order' o.metadata := by
  funext key
  rw [metaValue_lowered order o.lowered, metaValue_lowered order' o.lowered]

theorem HeadedObject.decode_eq (o : HeadedObject lower) (startup : Time) (order order' : Order)
    (isDir : Bool) : decodePOSIXAttributes lower startup order o.metadata isDir =
    decodePOSIXAttributes lower startup order' o.metadata isDir := by
  rw [decodePOSIXAttributes, decodePOSIXAttributes, o.metaValue_eq order order']

/-! ## What a stat reports afterwards -/

/-- The times, flags and streams an update is to leave can be stored: the modification time
set, or else the one recorded, the creation time, and what the update sets of the rest. -/
structure Storable (o : HeadedObject lower) (u : AttributeUpdate) (order : Order) : Prop where
  mtime : ∃ t, u.mtime.or (storedMtime lower order o.metadata) = some t ∧ Shown t ∧ ZoneShown t
  btime : BirthShown (u.btime.getD (o.storedBtime order))
  windowsAttributes : ∀ flags ∈ u.windowsAttributes, flags &&& windowsAttributesStored = flags
  streams : ∀ streams ∈ u.streams, Streams.Sized streams

/-- What is reported is what the update sets, and of the rest what was reported before.  A
creation time that is not stored is reported as the modification time. -/
structure Reports (u : AttributeUpdate) (storedBtime : Time) (before after : FileInfo) : Prop where
  mode : after.attributes.mode = u.mode.getD before.attributes.mode
  shownMode : u.mode = none → after.mode = before.mode
  uid : after.attributes.uid = u.uid.getD before.attributes.uid
  gid : after.attributes.gid = u.gid.getD before.attributes.gid
  modTime : after.modTime.equal (u.mtime.getD before.modTime) = true
  btime : after.attributes.btime.equal (if (u.btime.getD storedBtime).isZero then after.modTime
    else u.btime.getD before.attributes.btime) = true
  windowsAttributes : after.attributes.windowsAttributes =
    u.windowsAttributes.getD before.attributes.windowsAttributes
  streams : Streams.Same after.attributes.streams (u.streams.getD before.attributes.streams)

theorem equal_refl (t : Time) : t.equal t := by
  simp [Time.equal]

theorem isZero_of_equal {t t' : Time} (h : t.equal t') : t.isZero = t'.isZero := by
  obtain ⟨hsec, hnsec⟩ : t.sec = t'.sec ∧ t.nsec = t'.nsec := by simpa [Time.equal] using h
  rw [Time.isZero, Time.isZero, hsec, hnsec]

theorem decodedStreams_sized (value : Bytes) : (decodedStreams value).Sized := by
  obtain ⟨answer, hanswer, hfound⟩ := Streams.decodeStreams_total value
  have hempty : Streams.Sized ∅ := by
    intro name data h
    cases h
  rw [decodedStreams, hanswer]
  cases answer with
  | none => exact hempty
  | some streams => exact (hfound streams rfl).1

theorem decode_streams_sized (startup : Time) (order : Order) (metadata : UserMetadata) (isDir : Bool) :
    (decodePOSIXAttributes lower startup order metadata isDir).streams.Sized := by
  rw [decodePOSIXAttributes]
  dsimp only
  cases metaValue lower order metadata .streams with
  | none =>
    intro name data h
    cases h
  | some value => exact decodedStreams_sized value

theorem decode_flags_masked (startup : Time) (order : Order) (metadata : UserMetadata) (isDir : Bool) :
    (decodePOSIXAttributes lower startup order metadata isDir).windowsAttributes &&& windowsAttributesStored =
    (decodePOSIXAttributes lower startup order metadata isDir).windowsAttributes := by
  have hnone : (0 : UInt32) &&& windowsAttributesStored = 0 := by decide
  rw [decodePOSIXAttributes]
  dsimp only
  cases metaValue lower order metadata .windowsAttributes with
  | none => exact hnone
  | some value =>
    rw [Option.bind_some]
    cases parseUint 10 32 value with
    | none => exact hnone
    | some flags => exact masked_masked _

variable {o o' : HeadedObject lower} {u : AttributeUpdate} {startup now lastModified : Time}
  {isDir : Bool} {order order' : Order}

theorem metaValue_updated (h : updateAttributes startup order isDir u now lastModified (.found o) = some o') :
    metaValue lower order' o'.metadata =
    (u.apply (decodePOSIXAttributes lower startup order o.metadata isDir) now).encoded := by
  cases h
  funext key
  dsimp only [updatedMetadata]
  rw [metaValue_current order' current_merge, lookup_merge_name]

/-- The attributes the update writes. -/
def updated (lower : Bytes → Bytes) (startup now : Time) (order : Order) (isDir : Bool)
    (u : AttributeUpdate) (o : HeadedObject lower) : POSIXAttributes :=
  u.apply (decodePOSIXAttributes lower startup order o.metadata isDir) now

theorem updated_mtime {t : Time} (h : u.mtime.or (storedMtime lower order o.metadata) = some t) :
    (updated lower startup now order isDir u o).mtime = t ∧
    u.mtime.getD (o.reportedModTime order) = t := by
  rw [updated, AttributeUpdate.apply, HeadedObject.reportedModTime, decodePOSIXAttributes]
  dsimp only
  rw [← storedMtime]
  cases hset : u.mtime with
  | some set =>
    rw [hset, Option.some_or] at h
    cases h
    exact ⟨rfl, rfl⟩
  | none =>
    rw [hset, Option.none_or] at h
    rw [h]
    exact ⟨rfl, rfl⟩

theorem updated_streams_sized (h : ∀ streams ∈ u.streams, Streams.Sized streams) :
    (updated lower startup now order isDir u o).streams.Sized := by
  rw [updated, AttributeUpdate.apply]
  dsimp only
  cases hset : u.streams with
  | some streams => exact h streams hset
  | none => exact decode_streams_sized startup order o.metadata isDir

theorem updated_flags (h : ∀ flags ∈ u.windowsAttributes, flags &&& windowsAttributesStored = flags) :
    (updated lower startup now order isDir u o).windowsAttributes &&& windowsAttributesStored =
    u.windowsAttributes.getD
    (decodePOSIXAttributes lower startup order o.metadata isDir).windowsAttributes := by
  rw [updated, AttributeUpdate.apply]
  dsimp only
  cases hset : u.windowsAttributes with
  | some flags =>
    rw [Option.map_some, Option.getD_some, Option.getD_some, masked_masked]
    exact h flags hset
  | none => exact decode_flags_masked startup order o.metadata isDir

/-- An object with the given metadata, last modified at an instant of year 2. -/
def stored (attrs : Option POSIXAttributes) : HeadedObject id where
  metadata := (attrs.map fun a => mergePOSIXMetadata id ∅ a).getD ∅
  lastModified := yearTwo 0
  lowered := by
    cases attrs with
    | none => exact fun _ h => absurd h (AList.notMem_empty _)
    | some a => exact lowered_merge fun _ h => absurd h (AList.notMem_empty _)

/-- When the gateway was started. -/
def started : Time := { yearTwo 0 with sec := 7 }

/-- What `Stat` reports after an update of a file. -/
def statAfter (attrs : Option POSIXAttributes) (u : AttributeUpdate) : Option FileInfo :=
  (updateAttributes started .asStored false u (yearTwo 0) (yearTwo 0) (.found (stored attrs))).map
    fun o => o.stat started .asStored false

end Bluestone.Posix
