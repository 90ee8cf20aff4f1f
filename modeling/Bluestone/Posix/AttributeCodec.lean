/-
# `Bluestone.Posix.AttributeCodec` — attributes in an object's metadata

`internal/posix/attributes.go`: attributes are nine keys of the object's user metadata.
They are read in any case of letters and under the names of an earlier version, and
written under the current names only.

Two things of the source are kept as it has them:

* a lookup goes over the map in whatever order the map gives, and takes the first current
  spelling or else the last legacy one, so that a map with two spellings of one key has no
  definite value.  The order is an argument of every reading (`Order`);
* the three POSIX times are written in their own zone and in whole seconds, the creation
  time in UTC with its fraction.

`strings.ToLower` is spelled out for ASCII; what it does elsewhere is an argument too.
Texts are their bytes.
-/
import Bluestone.Library.Rfc3339
import Bluestone.Posix.Streams

namespace Bluestone.Posix

open Rfc3339 (Time)
open Option (bind_some map_some getD_some)
open Numerals

/-- The bytes of an ASCII text. -/
def ascii (s : String) : Bytes := s.toList.map fun c => UInt8.ofNat c.toNat

/-- `map[string]string`. -/
abbrev UserMetadata := AList fun _ : Bytes => Bytes

/-- `types.POSIXAttributes`. -/
structure POSIXAttributes where
  mode : UInt32
  uid : Int64
  gid : Int64
  atime : Time
  mtime : Time
  ctime : Time
  btime : Time
  windowsAttributes : UInt32
  streams : Streams

/-! ## Keys -/

inductive MetaKey
  | mode | uid | gid | atime | mtime | ctime | btime | windowsAttributes | streams
  deriving DecidableEq, Repr

def MetaKey.name : MetaKey → Bytes
  | .mode => ascii "mode"
  | .uid => ascii "uid"
  | .gid => ascii "gid"
  | .atime => ascii "atime"
  | .mtime => ascii "mtime"
  | .ctime => ascii "ctime"
  | .btime => ascii "btime"
  | .windowsAttributes => ascii "windows-attributes"
  | .streams => ascii "streams"

def posixMetaKeys : List MetaKey :=
  [.mode, .uid, .gid, .atime, .mtime, .ctime, .btime, .windowsAttributes, .streams]

def legacyMetaKeyPrefix : Bytes := ascii "x-amz-meta-"

def windowsAttributesStored : UInt32 := 0x1 ||| 0x2 ||| 0x4 ||| 0x20

/-- `strings.ToLower`: byte by byte where all are ASCII, else what `lower` makes of it. -/
def toLower (lower : Bytes → Bytes) (k : Bytes) : Bytes :=
  if k.all (· < 0x80) then k.map fun c => if 65 ≤ c ∧ c ≤ 90 then c + 32 else c else lower k

/-- `strings.TrimPrefix`. -/
def trimPrefix (start text : Bytes) : Bytes :=
  if start.isPrefixOf text then text.drop start.length else text

variable (lower : Bytes → Bytes)

/-- Whether a key spells a POSIX attribute, in any case or legacy form. -/
def isPOSIXMetaKey (k : Bytes) : Bool :=
  posixMetaKeys.any fun key => decide (trimPrefix legacyMetaKeyPrefix (toLower lower k) = key.name)

/-! ## Writing -/

/-- A time that is set, in its own zone and in whole seconds. -/
def encodeTime (t : Time) : Option Bytes :=
  if t.isZero then none else some (Rfc3339.format false t)

/-- What `EncodePOSIXAttributes` writes under a key. -/
def POSIXAttributes.encoded (attrs : POSIXAttributes) : MetaKey → Option Bytes
  | .mode => some (format 8 attrs.mode.toNat)
  | .uid => some (itoa attrs.uid.toInt)
  | .gid => some (itoa attrs.gid.toInt)
  | .atime => encodeTime attrs.atime
  | .mtime => encodeTime attrs.mtime
  | .ctime => encodeTime attrs.ctime
  | .btime => if attrs.btime.isZero then none else some (Rfc3339.format true attrs.btime.utc)
  | .windowsAttributes =>
    let flags := attrs.windowsAttributes &&& windowsAttributesStored
    if flags ≠ 0 then some (format 10 flags.toNat) else none
  | .streams =>
    if 0 < attrs.streams.entries.length then some attrs.streams.encodeStreams else none

/-- One key written over a map. -/
def POSIXAttributes.writeKey (attrs : POSIXAttributes) (metadata : UserMetadata) (key : MetaKey) :
    UserMetadata :=
  match attrs.encoded key with
  | some value => metadata.insert key.name value
  | none => metadata

def encodePOSIXAttributes (attrs : POSIXAttributes) : UserMetadata :=
  posixMetaKeys.foldl attrs.writeKey ∅

/-- The entries of a map that the condition holds of. -/
def keep (condition : Bytes → Bool) (metadata : UserMetadata) : UserMetadata :=
  ⟨metadata.entries.filter fun e => condition e.1, metadata.nodupKeys.sublist List.filter_sublist⟩

def mergePOSIXMetadata (existing : UserMetadata) (attrs : POSIXAttributes) : UserMetadata :=
  encodePOSIXAttributes attrs ∪ keep (fun k => !isPOSIXMetaKey lower k) existing

/-! ## Reading -/

/-- An order for the loops over a map, one for each key that is looked up. -/
structure Order where
  range : MetaKey → UserMetadata → List (Sigma fun _ : Bytes => Bytes)
  perm : ∀ key metadata, (range key metadata).Perm metadata.entries

/-- The loop of `metaValue`. -/
def metaValueLoop (key : MetaKey) :
    Option Bytes → List (Sigma fun _ : Bytes => Bytes) → Option Bytes
  | legacy, [] => legacy
  | legacy, ⟨k, v⟩ :: rest =>
    if toLower lower k = key.name then some v
    else if toLower lower k = legacyMetaKeyPrefix ++ key.name then metaValueLoop key (some v) rest
    else metaValueLoop key legacy rest

def metaValue (order : Order) (metadata : UserMetadata) (key : MetaKey) : Option Bytes :=
  metaValueLoop lower key none (order.range key metadata)

/-- `DefaultAttributes`, of a gateway started at the given time. -/
def defaultAttributes (startup : Time) (isDir : Bool) : POSIXAttributes where
  mode := if isDir then 0o755 ||| 0x80000000 else 0o644
  uid := 1000
  gid := 1000
  atime := startup
  mtime := startup
  ctime := startup
  btime := .zero
  windowsAttributes := 0
  streams := ∅

/-- The streams of a value; none if it does not decode. -/
def decodedStreams (value : Bytes) : Streams :=
  match Streams.decodeStreams value with
  | .ok (some streams) => streams
  | _ => ∅

/-- A value that does not parse leaves the default. -/
def decodePOSIXAttributes (startup : Time) (order : Order) (metadata : UserMetadata)
    (isDir : Bool) : POSIXAttributes :=
  let value := metaValue lower order metadata
  let attrs := defaultAttributes startup isDir
  { mode := ((value .mode).bind fun v => (parseUint 8 32 v).map UInt32.ofNat).getD attrs.mode
    uid := ((value .uid).bind fun v => (atoi v).map Int64.ofInt).getD attrs.uid
    gid := ((value .gid).bind fun v => (atoi v).map Int64.ofInt).getD attrs.gid
    atime := ((value .atime).bind Rfc3339.parse).getD attrs.atime
    mtime := ((value .mtime).bind Rfc3339.parse).getD attrs.mtime
    ctime := ((value .ctime).bind Rfc3339.parse).getD attrs.ctime
    btime := ((value .btime).bind Rfc3339.parse).getD attrs.btime
    windowsAttributes := ((value .windowsAttributes).bind fun v => (parseUint 10 32 v).map fun flags =>
      UInt32.ofNat flags &&& windowsAttributesStored).getD attrs.windowsAttributes
    streams := ((value .streams).map decodedStreams).getD attrs.streams }

/-- The modification time recorded in an object's metadata. -/
def storedMtime (order : Order) (metadata : UserMetadata) : Option Time :=
  (metaValue lower order metadata .mtime).bind Rfc3339.parse

/-! ## Spellings -/

variable {lower}

theorem toLower_name (key : MetaKey) : toLower lower key.name = key.name := by
  cases key <;> rfl

theorem mem_posixMetaKeys (key : MetaKey) : key ∈ posixMetaKeys := by
  cases key <;> decide

theorem name_injective {key other : MetaKey} (h : key.name = other.name) : key = other := by
  have hall : ∀ key ∈ posixMetaKeys, ∀ other ∈ posixMetaKeys, key.name = other.name → key = other := by
    decide
  exact hall key (mem_posixMetaKeys key) other (mem_posixMetaKeys other) h

theorem name_not_legacy (key : MetaKey) : legacyMetaKeyPrefix.isPrefixOf key.name = false := by
  cases key <;> decide

theorem name_ne_legacy (key other : MetaKey) : key.name ≠ legacyMetaKeyPrefix ++ other.name := by
  intro h
  have hnot := name_not_legacy key
  rw [h, List.isPrefixOf_iff_prefix.2 (List.prefix_append ..)] at hnot
  cases hnot

theorem isPOSIXMetaKey_iff {k : Bytes} : isPOSIXMetaKey lower k ↔
    ∃ key : MetaKey, toLower lower k = key.name ∨ toLower lower k = legacyMetaKeyPrefix ++ key.name := by
  simp only [isPOSIXMetaKey, List.any_eq_true, decide_eq_true_eq]
  constructor
  · rintro ⟨key, -, h⟩
    rw [trimPrefix] at h
    split at h
    next hpre =>
      refine ⟨key, .inr ?_⟩
      obtain ⟨rest, hrest⟩ := List.isPrefixOf_iff_prefix.1 hpre
      rw [← hrest, List.drop_left] at h
      rw [← hrest, h]
    next => exact ⟨key, .inl h⟩
  · rintro ⟨key, h | h⟩
    · refine ⟨key, mem_posixMetaKeys key, ?_⟩
      rw [h, trimPrefix, if_neg (by rw [name_not_legacy]; decide)]
    · refine ⟨key, mem_posixMetaKeys key, ?_⟩
      rw [h, trimPrefix, if_pos (List.isPrefixOf_iff_prefix.2 (List.prefix_append ..)), List.drop_left]

theorem isPOSIXMetaKey_name (key : MetaKey) : isPOSIXMetaKey lower key.name :=
  isPOSIXMetaKey_iff.2 ⟨key, .inl (toLower_name key)⟩

/-! ## What is written -/

/-- A map with one spelling of each attribute, the current one. -/
def Current (lower : Bytes → Bytes) (metadata : UserMetadata) : Prop :=
  ∀ k ∈ metadata, isPOSIXMetaKey lower k = true → ∃ key : MetaKey, k = key.name

variable {attrs : POSIXAttributes} {metadata : UserMetadata} {key : MetaKey} {k : Bytes}

theorem lookup_writeKey_ne (h : key.name ≠ k) :
    (attrs.writeKey metadata key).lookup k = metadata.lookup k := by
  rw [POSIXAttributes.writeKey]
  split
  · exact AList.lookup_insert_ne fun heq => h heq.symm
  · rfl

theorem lookup_writeKey : (attrs.writeKey metadata key).lookup key.name =
    (attrs.encoded key).or (metadata.lookup key.name) := by
  rw [POSIXAttributes.writeKey]
  split
  next value hvalue => rw [AList.lookup_insert, hvalue, Option.some_or]
  next hnone => rw [hnone, Option.none_or]

theorem lookup_foldl_ne {keys : List MetaKey} (h : ∀ key ∈ keys, key.name ≠ k) :
    (keys.foldl attrs.writeKey metadata).lookup k = metadata.lookup k := by
  induction keys generalizing metadata with
  | nil => rfl
  | cons key keys ih =>
    rw [List.foldl_cons, ih fun key hkey => h key (List.mem_cons_of_mem _ hkey),
      lookup_writeKey_ne (h key List.mem_cons_self)]

theorem lookup_foldl_name {keys : List MetaKey} (hkeys : keys.Nodup) (hmem : key ∈ keys) :
    (keys.foldl attrs.writeKey metadata).lookup key.name =
    (attrs.encoded key).or (metadata.lookup key.name) := by
  induction keys generalizing metadata with
  | nil => cases hmem
  | cons first keys ih =>
    obtain ⟨hfirst, hkeys⟩ := List.nodup_cons.1 hkeys
    rw [List.foldl_cons]
    by_cases heq : key = first
    · subst heq
      rw [lookup_foldl_ne fun other hother hname => hfirst ((name_injective hname : other = key) ▸ hother),
        lookup_writeKey]
    · rw [ih hkeys ((List.mem_cons.1 hmem).resolve_left heq),
        lookup_writeKey_ne fun hname => heq (name_injective hname).symm]

theorem lookup_encode : (encodePOSIXAttributes attrs).lookup key.name = attrs.encoded key := by
  rw [encodePOSIXAttributes, lookup_foldl_name (by decide) (mem_posixMetaKeys key),
    AList.lookup_empty, Option.or_none]

theorem name_of_mem_encode (h : k ∈ encodePOSIXAttributes attrs) : ∃ key : MetaKey, k = key.name := by
  by_contra hno
  have hnone : (encodePOSIXAttributes attrs).lookup k = none := by
    rw [encodePOSIXAttributes, lookup_foldl_ne fun key _ heq => hno ⟨key, heq.symm⟩, AList.lookup_empty]
  exact AList.lookup_eq_none.1 hnone h

theorem lookup_keep {condition : Bytes → Bool} :
    (keep condition metadata).lookup k = if condition k then metadata.lookup k else none := by
  apply Option.ext
  intro v
  rw [← Option.mem_def, AList.mem_lookup_iff, keep, List.mem_filter, ← AList.mem_lookup_iff]
  by_cases hk : condition k
  all_goals simp [hk]

theorem lookup_merge_name :
    (mergePOSIXMetadata lower metadata attrs).lookup key.name = attrs.encoded key := by
  rw [mergePOSIXMetadata]
  by_cases hmem : key.name ∈ encodePOSIXAttributes attrs
  · rw [AList.lookup_union_left hmem, lookup_encode]
  · rw [AList.lookup_union_right hmem, lookup_keep, if_neg (by simp [isPOSIXMetaKey_name]),
      ← lookup_encode, AList.lookup_eq_none.2 hmem]

theorem lookup_merge_other (h : isPOSIXMetaKey lower k = false) :
    (mergePOSIXMetadata lower metadata attrs).lookup k = metadata.lookup k := by
  have hnot : k ∉ encodePOSIXAttributes attrs := by
    intro hmem
    obtain ⟨key, rfl⟩ := name_of_mem_encode hmem
    rw [isPOSIXMetaKey_name] at h
    cases h
  rw [mergePOSIXMetadata, AList.lookup_union_right hnot, lookup_keep, if_pos (by simp [h])]

theorem current_encode : Current lower (encodePOSIXAttributes attrs) :=
  fun _ hk _ => name_of_mem_encode hk

theorem current_merge : Current lower (mergePOSIXMetadata lower metadata attrs) := by
  intro k hk hposix
  by_contra hno
  have hnot : k ∉ encodePOSIXAttributes attrs := fun hmem => hno (name_of_mem_encode hmem)
  have hnone : (mergePOSIXMetadata lower metadata attrs).lookup k = none := by
    rw [mergePOSIXMetadata, AList.lookup_union_right hnot, lookup_keep, if_neg (by simp [hposix])]
  exact AList.lookup_eq_none.1 hnone hk

/-! ## What is read -/

theorem metaValueLoop_current {entries : List (Sigma fun _ : Bytes => Bytes)}
    (h : ∀ e ∈ entries, isPOSIXMetaKey lower e.1 → ∃ key : MetaKey, e.1 = key.name) :
    metaValueLoop lower key none entries = entries.dlookup key.name := by
  induction entries with
  | nil => rfl
  | cons e entries ih =>
    obtain ⟨k, v⟩ := e
    have hfirst := h ⟨k, v⟩ List.mem_cons_self
    rw [metaValueLoop]
    split
    next hcurrent =>
      obtain ⟨other, hother⟩ := hfirst (isPOSIXMetaKey_iff.2 ⟨key, .inl hcurrent⟩)
      dsimp only at hother
      rw [hother, toLower_name] at hcurrent
      subst hother
      rw [hcurrent, List.dlookup_cons_eq]
    next hcurrent =>
      have hne : key.name ≠ k := by
        rintro rfl
        exact hcurrent (toLower_name key)
      have hlegacy : toLower lower k ≠ legacyMetaKeyPrefix ++ key.name := by
        intro hlegacy
        obtain ⟨other, hother⟩ := hfirst (isPOSIXMetaKey_iff.2 ⟨key, .inr hlegacy⟩)
        dsimp only at hother
        rw [hother, toLower_name] at hlegacy
        exact name_ne_legacy other key hlegacy
      rw [if_neg hlegacy, ih fun e he => h e (List.mem_cons_of_mem _ he), List.dlookup_cons_ne _ _ hne]

theorem metaValue_current (order : Order) (h : Current lower metadata) :
    metaValue lower order metadata key = metadata.lookup key.name := by
  have hperm := order.perm key metadata
  rw [metaValue, metaValueLoop_current, AList.lookup]
  · exact (List.perm_dlookup _ metadata.nodupKeys hperm.symm).symm
  · intro e he
    exact h e.1 (List.mem_map_of_mem (hperm.mem_iff.1 he))

theorem decode_merge (startup : Time) (order order' : Order) (isDir : Bool) :
    decodePOSIXAttributes lower startup order (mergePOSIXMetadata lower metadata attrs) isDir =
    decodePOSIXAttributes lower startup order' (encodePOSIXAttributes attrs) isDir := by
  have hvalue : metaValue lower order (mergePOSIXMetadata lower metadata attrs) =
      metaValue lower order' (encodePOSIXAttributes attrs) := by
    funext key
    rw [metaValue_current order current_merge, metaValue_current order' current_encode,
      lookup_merge_name, lookup_encode]
  rw [decodePOSIXAttributes, decodePOSIXAttributes, hvalue]

theorem lookup_merge_merge : (mergePOSIXMetadata lower (mergePOSIXMetadata lower metadata attrs)
    attrs).lookup k = (mergePOSIXMetadata lower metadata attrs).lookup k := by
  by_cases hposix : isPOSIXMetaKey lower k
  · by_cases hname : ∃ key : MetaKey, k = key.name
    · obtain ⟨key, rfl⟩ := hname
      rw [lookup_merge_name, lookup_merge_name]
    · have hno : ∀ metadata, k ∉ mergePOSIXMetadata lower metadata attrs :=
        fun metadata hmem => hname (current_merge k hmem hposix)
      rw [AList.lookup_eq_none.2 (hno _), AList.lookup_eq_none.2 (hno _)]
  · exact lookup_merge_other (Bool.eq_false_iff.2 hposix)

/-! ## Attributes read back -/

/-- A time the layout of the POSIX times can show: set, in whole seconds, in years 0 to 9999. -/
def Shown (t : Time) : Prop :=
  t.isZero = false ∧ t.nsec = 0 ∧ 0 ≤ t.year ∧ t.year ≤ 9999

/-- A zone the layout can show: whole minutes, below 25 hours. -/
def ZoneShown (t : Time) : Prop := 60 ∣ t.offset ∧ t.offset.natAbs < 90000

/-- A creation time that is not set, or in years 0 to 9999 in UTC. -/
def BirthShown (t : Time) : Prop := t.isZero = true ∨ (0 ≤ t.utc.year ∧ t.utc.year ≤ 9999)

instance (t : Time) : Decidable (Shown t) := inferInstanceAs (Decidable (_ ∧ _))

instance (t : Time) : Decidable (ZoneShown t) := inferInstanceAs (Decidable (_ ∧ _))

instance (t : Time) : Decidable (BirthShown t) := inferInstanceAs (Decidable (_ ∨ _))

/-- The same attributes, with times compared as instants and streams as maps. -/
structure POSIXAttributes.Agrees (a b : POSIXAttributes) : Prop where
  mode : a.mode = b.mode
  uid : a.uid = b.uid
  gid : a.gid = b.gid
  atime : a.atime.equal b.atime = true
  mtime : a.mtime.equal b.mtime = true
  ctime : a.ctime.equal b.ctime = true
  btime : a.btime.equal b.btime = true
  windowsAttributes : a.windowsAttributes = b.windowsAttributes
  streams : Streams.Same a.streams b.streams

theorem parse_encodeTime {t : Time} (h : Shown t) (hzone : ZoneShown t) :
    ∃ u, (encodeTime t).bind Rfc3339.parse = some u ∧ u.equal t := by
  obtain ⟨hset, hwhole, hyear⟩ := h
  obtain ⟨⟨minutes, hminutes⟩, hday⟩ := hzone
  have hzone : t.offset.tdiv 60 = minutes := by
    rw [hminutes, Int.mul_tdiv_cancel_left _ (by decide)]
  obtain ⟨u, hu, hoffset, hsec, hnsec⟩ : ∃ u, Rfc3339.parse (Rfc3339.format false t) = some u ∧ _ :=
    Rfc3339.parse_format hyear (by rw [hzone]; omega)
  refine ⟨u, ?_, ?_⟩
  · rw [encodeTime, hset]
    exact hu
  · have heq : u.sec = t.sec ∧ u.nsec = t.nsec := ⟨by omega, by simp [hnsec, hwhole]⟩
    simp [Time.equal, heq]

theorem parse_encodeBirth (h : BirthShown attrs.btime) :
    (((attrs.encoded .btime).bind Rfc3339.parse).getD .zero).equal attrs.btime := by
  rw [POSIXAttributes.encoded]
  split
  next hzero =>
    obtain ⟨hsec, hnsec⟩ : attrs.btime.sec = 0 ∧ attrs.btime.nsec = 0 := by
      simpa [Time.isZero] using hzero
    simp [Time.equal, Time.zero, hsec, hnsec]
  next hset =>
    have hyear : 0 ≤ attrs.btime.utc.year ∧ attrs.btime.utc.year ≤ 9999 := h.resolve_left hset
    have hutc : (attrs.btime.utc.offset.tdiv 60).natAbs / 60 ≤ 24 :=
      show ((0 : Int).tdiv 60).natAbs / 60 ≤ 24 by decide
    obtain ⟨u, hu, hoffset, hsec, hnsec⟩ : ∃ u,
        Rfc3339.parse (Rfc3339.format true attrs.btime.utc) = some u ∧ _ :=
      Rfc3339.parse_format hyear hutc
    have hsec' : u.sec = attrs.btime.sec := by
      have hzone : u.offset = 0 := hoffset
      have hinstant : u.sec + u.offset = attrs.btime.sec + 0 := hsec
      omega
    have hnsec' : u.nsec = attrs.btime.nsec := hnsec
    rw [bind_some, hu]
    simp [Time.equal, hsec', hnsec']

theorem parse_encodeMode (default : UInt32) :
    ((attrs.encoded .mode).bind fun v => (parseUint 8 32 v).map UInt32.ofNat).getD default =
    attrs.mode := by
  rw [POSIXAttributes.encoded, bind_some,
    parseUint_format (by decide) (by decide) (UInt32.toNat_lt _), map_some,
    getD_some, UInt32.ofNat_toNat]

theorem parse_encodeId (id default : Int64) :
    ((some (itoa id.toInt)).bind fun v => (atoi v).map Int64.ofInt).getD default = id := by
  rw [bind_some, atoi_itoa ⟨Int64.le_toInt _, Int64.toInt_lt _⟩, map_some,
    getD_some, Int64.ofInt_toInt]

theorem masked_masked (flags : UInt32) : flags &&& windowsAttributesStored &&& windowsAttributesStored =
    flags &&& windowsAttributesStored := by
  rw [UInt32.and_assoc, UInt32.and_self]

theorem parse_encodeFlags :
    (((attrs.encoded .windowsAttributes).bind fun v => (parseUint 10 32 v).map fun flags =>
    UInt32.ofNat flags &&& windowsAttributesStored).getD 0) =
    attrs.windowsAttributes &&& windowsAttributesStored := by
  rw [POSIXAttributes.encoded]
  split
  next =>
    rw [bind_some, parseUint_format (by decide) (le_refl 10) (UInt32.toNat_lt _),
      map_some, getD_some, UInt32.ofNat_toNat, masked_masked]
  next hzero =>
    rw [not_not] at hzero
    rw [hzero]
    rfl

theorem decode_encodeStreams (hsized : attrs.streams.Sized) :
    Streams.Same (((attrs.encoded .streams).map decodedStreams).getD ∅) attrs.streams := by
  rw [POSIXAttributes.encoded]
  split
  next hsome =>
    obtain ⟨found, hfound, hsame⟩ :=
      Streams.decodeStreams_encodeStreams hsized (Nat.pos_iff_ne_zero.1 hsome)
    rw [map_some, getD_some, decodedStreams, hfound]
    exact hsame
  next hnone =>
    have hempty : attrs.streams = ∅ := AList.ext (List.length_eq_zero_iff.1 (by omega))
    rw [hempty]
    exact fun _ => rfl

/-- Times in whole seconds of years 0 to 9999, and flags that are stored.  A length is one
the encoding can write, as every length of the source is. -/
structure POSIXAttributes.Plain (a : POSIXAttributes) : Prop where
  atime : Shown a.atime
  mtime : Shown a.mtime
  ctime : Shown a.ctime
  windowsAttributes : a.windowsAttributes &&& windowsAttributesStored = a.windowsAttributes
  streams : a.streams.Sized

theorem metaValue_encode (order : Order) :
    metaValue lower order (encodePOSIXAttributes attrs) = attrs.encoded := by
  funext key
  rw [metaValue_current order current_encode, lookup_encode]

theorem decode_encode_agrees (startup : Time) (order : Order) (isDir : Bool) (h : attrs.Plain)
    (hatime : ZoneShown attrs.atime) (hmtime : ZoneShown attrs.mtime)
    (hctime : ZoneShown attrs.ctime) (hbtime : BirthShown attrs.btime) :
    (decodePOSIXAttributes lower startup order (encodePOSIXAttributes attrs) isDir).Agrees attrs := by
  obtain ⟨accessed, ha, hasame⟩ := parse_encodeTime h.atime hatime
  obtain ⟨modified, hm, hmsame⟩ := parse_encodeTime h.mtime hmtime
  obtain ⟨changed, hc, hcsame⟩ := parse_encodeTime h.ctime hctime
  rw [decodePOSIXAttributes, metaValue_encode]
  refine ⟨parse_encodeMode _, parse_encodeId _ _, parse_encodeId _ _, ?_, ?_, ?_,
    parse_encodeBirth hbtime, parse_encodeFlags.trans h.windowsAttributes,
    decode_encodeStreams h.streams⟩
  · dsimp only [POSIXAttributes.encoded]
    rw [ha]
    exact hasame
  · dsimp only [POSIXAttributes.encoded]
    rw [hm]
    exact hmsame
  · dsimp only [POSIXAttributes.encoded]
    rw [hc]
    exact hcsame

/-- The codec round-trips and merges cleanly: attributes are read back, and merged into any
metadata they read as they do alone, with no other spelling left and every other key kept. -/
theorem attribute_codec_round_trips (lower : Bytes → Bytes) (startup : Time) :
    (∀ (a : POSIXAttributes), a.Plain → ZoneShown a.atime → ZoneShown a.mtime → ZoneShown a.ctime →
    BirthShown a.btime → ∀ (order : Order) (isDir : Bool),
    (decodePOSIXAttributes lower startup order (encodePOSIXAttributes a) isDir).Agrees a) ∧
    ∀ (m : UserMetadata) (a : POSIXAttributes), (∀ (order order' : Order) (isDir : Bool),
    decodePOSIXAttributes lower startup order (mergePOSIXMetadata lower m a) isDir =
    decodePOSIXAttributes lower startup order' (encodePOSIXAttributes a) isDir) ∧
    (∀ k, isPOSIXMetaKey lower k = false → (mergePOSIXMetadata lower m a).lookup k = m.lookup k) ∧
    (∀ k ∈ mergePOSIXMetadata lower m a, isPOSIXMetaKey lower k = true → ∃ key : MetaKey, k = key.name) ∧
    ∀ k, (mergePOSIXMetadata lower (mergePOSIXMetadata lower m a) a).lookup k =
    (mergePOSIXMetadata lower m a).lookup k := by
  refine ⟨fun a h hatime hmtime hctime hbtime order isDir => ?_, fun m a => ⟨?_, ?_, ?_, ?_⟩⟩
  · exact decode_encode_agrees startup order isDir h hatime hmtime hctime hbtime
  · exact fun order order' isDir => decode_merge startup order order' isDir
  · exact fun k hk => lookup_merge_other hk
  · exact current_merge
  · exact fun k => lookup_merge_merge

/-- The entries as they stand. -/
def Order.asStored : Order := ⟨fun _ metadata => metadata.entries, fun _ _ => .refl _⟩

/-- An instant of year 2. -/
def yearTwo (offset : Int) : Time := ⟨40000000, 0, offset, Nat.succ_pos _⟩

/-- Attributes with the three times at one instant, the modification time in another zone. -/
def dated (offset : Int) (btime : Time) : POSIXAttributes where
  mode := 0o644
  uid := 1000
  gid := 1000
  atime := yearTwo 0
  mtime := yearTwo offset
  ctime := yearTwo 0
  btime := btime
  windowsAttributes := 0
  streams := ∅

theorem dated_plain {offset : Int} {btime : Time} (h : Shown (yearTwo offset)) :
    (dated offset btime).Plain := by
  have hutc : Shown (yearTwo 0) := by decide
  have hflags : (0 : UInt32) &&& windowsAttributesStored = 0 := by decide
  refine ⟨hutc, h, hutc, hflags, ?_⟩
  intro name data hnone
  cases hnone

theorem dated_read_back : (decodePOSIXAttributes id .zero .asStored
    (encodePOSIXAttributes (dated (-3600) ⟨5, 6, 0, by decide⟩)) false).Agrees
      (dated (-3600) ⟨5, 6, 0, by decide⟩) :=
  (attribute_codec_round_trips id .zero).1 _ (dated_plain (by decide)) (by decide) (by decide)
    (by decide) (by decide) _ _

/-- Not read back: a time in a zone with seconds, as local mean time has, a time in a zone
of 25 hours, and a creation time in year 10000. -/
theorem zone_seconds_lost : (∃ a : POSIXAttributes, a.Plain ∧ a.mtime.offset = -11188 ∧ BirthShown a.btime ∧
    ¬ (decodePOSIXAttributes id .zero .asStored (encodePOSIXAttributes a) false).Agrees a) ∧
    (∃ a : POSIXAttributes, a.Plain ∧ a.mtime.offset = 90000 ∧ BirthShown a.btime ∧
    ¬ (decodePOSIXAttributes id .zero .asStored (encodePOSIXAttributes a) false).Agrees a) ∧
    ∃ a : POSIXAttributes, a.Plain ∧ ZoneShown a.atime ∧ ZoneShown a.mtime ∧ ZoneShown a.ctime ∧
    a.btime.utc.year = 10000 ∧
    ¬ (decodePOSIXAttributes id .zero .asStored (encodePOSIXAttributes a) false).Agrees a := by
  refine ⟨⟨dated (-11188) .zero, dated_plain (by decide), rfl, by decide, fun h => ?_⟩,
    ⟨dated 90000 .zero, dated_plain (by decide), rfl, by decide, fun h => ?_⟩,
    ⟨dated 0 ⟨315537897600, 0, 0, by decide⟩, dated_plain (by decide), by decide, by decide,
      by decide, by decide, fun h => ?_⟩⟩
  · have hmtime := h.mtime
    rw [decodePOSIXAttributes, metaValue_encode] at hmtime
    revert hmtime
    decide
  · have hmtime := h.mtime
    rw [decodePOSIXAttributes, metaValue_encode] at hmtime
    revert hmtime
    decide
  · have hbtime := h.btime
    rw [decodePOSIXAttributes, metaValue_encode] at hbtime
    revert hbtime
    decide

end Bluestone.Posix
