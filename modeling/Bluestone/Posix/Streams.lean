/-
# `Bluestone.Posix.Streams` — named streams in one metadata value

`internal/posix/streams.go`.  Each stream is its name and its bytes, both with their
length before them, sorted by name, and all of it in base64 (`encodeStreams`).  Anyone
may have written the value `decodeStreams` reads: its slices are checked and its loop has
as many rounds as there are bytes, and neither is ever used up (`decodeStreams_total`).

A map is a list of entries with distinct names, in the order a loop happens to take them.
-/
import Bluestone.Library.Base64
import Bluestone.Library.Uvarint
import Bluestone.Staging.Session
import Mathlib.Data.List.AList
import Mathlib.Data.List.Sort

namespace Bluestone

open Uvarint

/-- `map[string][]byte`. -/
abbrev Streams := AList fun _ : Bytes => Bytes

namespace Streams

/-! ## Writing -/

/-- A length and that many bytes. -/
def field (b : Bytes) : Bytes := appendUvarint b.length ++ b

/-- What `appendStreams` adds for one name. -/
def stream (streams : Streams) (name : Bytes) : Bytes :=
  field name ++ field ((streams.lookup name).getD [])

/-- `sort.Strings(names)`. -/
def sortedNames (streams : Streams) : List Bytes := streams.keys.insertionSort (· ≤ ·)

def appendStreams (dst : Bytes) (streams : Streams) : Bytes :=
  streams.sortedNames.foldl (fun dst name => dst ++ streams.stream name) dst

def encodeStreams (streams : Streams) : Bytes := Base64.encodeToString (appendStreams [] streams)

def streamsSize (streams : Streams) : Nat :=
  if streams.entries.length = 0 then 0 else Base64.encodedLen (appendStreams [] streams).length

/-! ## Reading -/

/-- What a run cannot go on from. -/
inductive Fault
  | outOfRange
  | outOfRounds
  deriving DecidableEq, Repr

/-- `b[lo:]`. -/
def sliceFrom (b : Bytes) (lo : Nat) : Except Fault Bytes :=
  if lo ≤ b.length then .ok (b.drop lo) else .error .outOfRange

/-- `b[:hi]`. -/
def sliceTo (b : Bytes) (hi : Nat) : Except Fault Bytes :=
  if hi ≤ b.length then .ok (b.take hi) else .error .outOfRange

def takeField (b : Bytes) : Except Fault (Option (Bytes × Bytes)) :=
  match uvarint b with
  | none => .ok none
  | some (n, size) =>
    if b.length - size < n then .ok none
    else do
      let b ← sliceFrom b size
      let taken ← sliceTo b n
      let rest ← sliceFrom b n
      return some (taken, rest)

/-- A map without entries is answered as no map. -/
def nonEmpty (streams : Streams) : Option Streams :=
  if streams.entries.length = 0 then none else some streams

/-- The loop of `DecodeStreams`. -/
def decodeLoop : Nat → Bytes → Streams → Except Fault (Option Streams)
  | rounds, raw, streams =>
    if raw.length = 0 then .ok streams.nonEmpty
    else
      match rounds with
      | 0 => .error .outOfRounds
      | rounds + 1 => do
          let some (name, rest) ← takeField raw | return none
          let some (data, rest) ← takeField rest | return none
          decodeLoop rounds rest (streams.insert name data)

def decodeStreams (value : Bytes) : Except Fault (Option Streams) :=
  match Base64.decodeString value with
  | none => .ok none
  | some raw => decodeLoop raw.length raw ∅

/-! ## Fields -/

theorem takeField_field {b : Bytes} (rest : Bytes) (hb : b.length < 2 ^ 64) :
    takeField (field b ++ rest) = .ok (some (b, rest)) := by
  have hread := uvarint_append (b ++ rest) hb
  have hdrop : (appendUvarint b.length ++ (b ++ rest)).drop (appendUvarint b.length).length =
      b ++ rest := List.drop_left
  rw [takeField, field, List.append_assoc, hread]
  dsimp only
  rw [if_neg (by simp), sliceFrom, if_pos (by simp), hdrop]
  simp [sliceTo, sliceFrom, bind, Except.bind, pure, Except.pure]

/-- A field that is taken is shorter than what it is taken from, by its length at least. -/
theorem takeField_cases (b : Bytes) :
    takeField b = .ok none ∨ ∃ taken rest, takeField b = .ok (some (taken, rest)) ∧
    taken.length < 2 ^ 64 ∧ rest.length < b.length := by
  rw [takeField]
  cases hread : uvarint b with
  | none => exact .inl rfl
  | some read =>
    obtain ⟨n, size⟩ := read
    obtain ⟨hn, hpos, hsize⟩ := uvarint_bounds hread
    dsimp only
    split
    · exact .inl rfl
    next hfits =>
      refine .inr ⟨(b.drop size).take n, (b.drop size).drop n, ?_, ?_, ?_⟩
      · rw [sliceFrom, if_pos hsize]
        have hlen : n ≤ (b.drop size).length := by
          rw [List.length_drop]
          omega
        simp only [bind, Except.bind, sliceTo, sliceFrom, if_pos hlen]
        rfl
      · rw [List.length_take]
        omega
      · simp only [List.length_drop]
        omega

/-! ## The loop -/

/-- A length is held by a 64-bit number, as every length of the source is. -/
def Sized (streams : Streams) : Prop :=
  ∀ name data, streams.lookup name = some data → name.length < 2 ^ 64 ∧ data.length < 2 ^ 64

variable {streams m : Streams} {name : Bytes}

theorem Sized.insert {data : Bytes} (h : streams.Sized) (hname : name.length < 2 ^ 64)
    (hdata : data.length < 2 ^ 64) : Sized (streams.insert name data) := by
  intro other found hfound
  by_cases heq : other = name
  · subst heq
    rw [AList.lookup_insert] at hfound
    cases hfound
    exact ⟨hname, hdata⟩
  · rw [AList.lookup_insert_ne heq] at hfound
    exact h other found hfound

theorem nonEmpty_spec (h : streams.Sized) :
    ∀ found ∈ streams.nonEmpty, found.Sized ∧ found.entries.length ≠ 0 := by
  intro found hfound
  rw [nonEmpty] at hfound
  split at hfound
  · simp at hfound
  next hne =>
    cases hfound
    exact ⟨h, hne⟩

/-- With a round for each byte the loop comes to an answer, and what it answers has
entries, with lengths that were read as 64-bit numbers. -/
theorem decodeLoop_total {rounds : Nat} {raw : Bytes} (hrounds : raw.length ≤ rounds)
    (hsized : streams.Sized) : ∃ answer, decodeLoop rounds raw streams = .ok answer ∧
    ∀ found ∈ answer, found.Sized ∧ found.entries.length ≠ 0 := by
  induction rounds generalizing raw streams with
  | zero =>
    rw [decodeLoop, if_pos (by omega)]
    exact ⟨_, rfl, nonEmpty_spec hsized⟩
  | succ rounds ih =>
    rw [decodeLoop]
    split
    · exact ⟨_, rfl, nonEmpty_spec hsized⟩
    · obtain hname | ⟨name, rest, hname, hnlt, hrest⟩ := takeField_cases raw
      · exact ⟨none, by rw [hname]; rfl, by simp⟩
      obtain hdata | ⟨data, rest', hdata, hdlt, hrest'⟩ := takeField_cases rest
      · exact ⟨none, by simp [hname, hdata, bind, Except.bind, pure, Except.pure], by simp⟩
      have hleft : rest'.length ≤ rounds := by omega
      obtain ⟨answer, heq, hanswer⟩ := ih hleft (hsized.insert hnlt hdlt)
      exact ⟨answer, by simpa [hname, hdata, bind, Except.bind] using heq, hanswer⟩

theorem stream_ne_nil (streams : Streams) (name : Bytes) : (streams.stream name).length ≠ 0 := by
  have hpos := appendUvarint_length_pos name.length
  rw [stream, field, List.append_assoc, List.length_append]
  omega

theorem takeField_stream {data : Bytes} (rest : Bytes) (hsized : streams.Sized)
    (hdata : streams.lookup name = some data) :
    takeField (streams.stream name ++ rest) = .ok (some (name, field data ++ rest)) ∧
    takeField (field data ++ rest) = .ok (some (data, rest)) := by
  obtain ⟨hname, hlen⟩ := hsized name data hdata
  refine ⟨?_, takeField_field rest hlen⟩
  rw [stream, hdata, List.append_assoc]
  exact takeField_field _ hname

/-- Read back one after the other, the streams of the names are entered one after the
other. -/
theorem decodeLoop_names (hm : m.Sized) {names : List Bytes} {rounds : Nat}
    (hnames : ∀ name ∈ names, name ∈ m) (hrounds : (names.flatMap m.stream).length ≤ rounds) :
    decodeLoop rounds (names.flatMap m.stream) streams =
    .ok (nonEmpty (names.foldl (fun s name => s.insert name ((m.lookup name).getD [])) streams)) := by
  induction names generalizing rounds streams with
  | nil =>
    cases rounds <;> rfl
  | cons name names ih =>
    obtain ⟨data, hdata⟩ := Option.isSome_iff_exists.1
      (AList.lookup_isSome.2 (hnames name List.mem_cons_self))
    have hpos := m.stream_ne_nil name
    rw [List.flatMap_cons, List.length_append] at hrounds
    cases rounds with
    | zero => omega
    | succ rounds =>
      obtain ⟨htake, hrest⟩ := takeField_stream (names.flatMap m.stream) hm hdata
      rw [List.flatMap_cons, decodeLoop, if_neg (by rw [List.length_append]; omega)]
      simp only [htake, hrest, bind, Except.bind]
      rw [ih (fun n hn => hnames n (List.mem_cons_of_mem _ hn)) (by omega), List.foldl_cons, hdata]
      rfl

theorem lookup_foldl_insert {names : List Bytes} (streams : Streams) (name : Bytes) :
    (names.foldl (fun s n => s.insert n ((m.lookup n).getD [])) streams).lookup name =
      if name ∈ names then some ((m.lookup name).getD []) else streams.lookup name := by
  induction names generalizing streams with
  | nil => simp
  | cons n names ih =>
    rw [List.foldl_cons, ih]
    by_cases hmem : name ∈ names
    · simp [hmem]
    · by_cases heq : name = n
      · subst heq
        simp [hmem, AList.lookup_insert]
      · simp [hmem, heq, AList.lookup_insert_ne heq]

theorem mem_sortedNames : name ∈ streams.sortedNames ↔ name ∈ streams :=
  (List.perm_insertionSort _ _).mem_iff

theorem appendStreams_nil (streams : Streams) :
    appendStreams [] streams = streams.sortedNames.flatMap streams.stream :=
  List.flatMap_eq_foldl.symm

/-! ## The codec -/

theorem decodeStreams_total (value : Bytes) : ∃ answer, decodeStreams value = .ok answer ∧
    ∀ found ∈ answer, found.Sized ∧ found.entries.length ≠ 0 := by
  rw [decodeStreams]
  cases Base64.decodeString value with
  | none => exact ⟨none, rfl, by simp⟩
  | some raw =>
    refine decodeLoop_total (le_refl _) ?_
    intro name data h
    simp at h

/-- Two lists of entries are one map. -/
def Same (m m' : Streams) : Prop := ∀ name, m.lookup name = m'.lookup name

theorem Same.perm {m' : Streams} (h : Same m m') : m.entries.Perm m'.entries := by
  refine List.lookup_ext m.nodupKeys m'.nodupKeys fun name data => ?_
  have hname : List.dlookup name m.entries = List.dlookup name m'.entries := h name
  rw [hname]

theorem decodeStreams_encodeStreams (hm : m.Sized) (hne : m.entries.length ≠ 0) :
    ∃ found, decodeStreams (encodeStreams m) = .ok (some found) ∧ Same found m := by
  have hread : decodeLoop (m.sortedNames.flatMap m.stream).length (m.sortedNames.flatMap m.stream) ∅ = _ :=
    decodeLoop_names hm (fun name hname => mem_sortedNames.1 hname) (le_refl _)
  generalize hall : m.sortedNames.foldl _ _ = all at hread
  have hsame : Same all m := by
    intro name
    rw [← hall, lookup_foldl_insert]
    split
    next hmem =>
      obtain ⟨data, hdata⟩ := Option.isSome_iff_exists.1 (AList.lookup_isSome.2 (mem_sortedNames.1 hmem))
      rw [hdata]
      rfl
    next hmem =>
      rw [AList.lookup_eq_none.2 fun hin => hmem (mem_sortedNames.2 hin)]
      rfl
  have hsome : all.nonEmpty = some all := by
    refine if_neg fun hnone => hne ?_
    rw [← hsame.perm.length_eq, hnone]
  refine ⟨all, ?_, hsame⟩
  rw [decodeStreams, encodeStreams, Base64.decodeString_encodeToString, appendStreams_nil]
  dsimp only
  rw [hread, hsome]

theorem Same.encodeStreams_eq {m' : Streams} (h : Same m m') : encodeStreams m = encodeStreams m' := by
  have hkeys : m.keys.Perm m'.keys := h.perm.map _
  have hsorted : m.sortedNames = m'.sortedNames :=
    List.Perm.eq_of_pairwise (fun _ _ _ _ => List.le_antisymm)
      (List.pairwise_insertionSort ..) (List.pairwise_insertionSort ..)
      ((List.perm_insertionSort _ _).trans (hkeys.trans (List.perm_insertionSort _ _).symm))
  have hstream : m.stream = m'.stream := by
    funext name
    rw [stream, stream, h name]
  rw [encodeStreams, encodeStreams, appendStreams_nil, appendStreams_nil, hsorted, hstream]

theorem streamsSize_eq (hne : m.entries.length ≠ 0) : streamsSize m = (encodeStreams m).length := by
  rw [streamsSize, if_neg hne, encodeStreams, Base64.length_encodeToString]

/-- The codec of named streams is faithful: streams that are written are read back, in
one encoding and with the size announced; a value of any origin is read without a fault,
and streams read from one are read back once written. -/
theorem streams_codec_faithful : (∀ m : Streams, m.Sized → m.entries ≠ [] →
    (∃ found, decodeStreams (encodeStreams m) = .ok (some found) ∧ Same found m) ∧ (∀ m', Same m' m →
    encodeStreams m' = encodeStreams m) ∧ streamsSize m = (encodeStreams m).length) ∧
    ∀ value : Bytes, ∃ answer, decodeStreams value = .ok answer ∧ ∀ found ∈ answer, ∃ again,
    decodeStreams (encodeStreams found) = .ok (some again) ∧ Same again found := by
  refine ⟨fun m hm hne => ?_, fun value => ?_⟩
  · have hlen : m.entries.length ≠ 0 := fun h => hne (List.length_eq_zero_iff.1 h)
    exact ⟨decodeStreams_encodeStreams hm hlen, fun _ h => h.encodeStreams_eq, streamsSize_eq hlen⟩
  · obtain ⟨answer, hanswer, hfound⟩ := decodeStreams_total value
    refine ⟨answer, hanswer, fun found hmem => ?_⟩
    obtain ⟨hsized, hlen⟩ := hfound found hmem
    exact decodeStreams_encodeStreams hsized hlen

/-- Two streams with bytes. -/
def twoStreams : Streams := (AList.singleton [98] [3]).insert [97] [1, 2]

theorem two_streams_read_back :
    ∃ found, decodeStreams (encodeStreams twoStreams) = .ok (some found) ∧ Same found twoStreams := by
  refine (streams_codec_faithful.1 twoStreams ?_ (by decide)).1
  intro name data h
  have hmem : (⟨name, data⟩ : Sigma fun _ => Bytes) ∈ twoStreams.entries := AList.mem_lookup_iff.1 h
  have hentries : twoStreams.entries = [⟨[97], [1, 2]⟩, ⟨[98], [3]⟩] := by decide
  rw [hentries] at hmem
  simp only [List.mem_cons, Sigma.mk.injEq, heq_eq_eq, List.not_mem_nil, or_false] at hmem
  rcases hmem with ⟨rfl, rfl⟩ | ⟨rfl, rfl⟩ <;> decide

end Streams

end Bluestone
