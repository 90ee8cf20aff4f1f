/-
# `Bluestone.Staging.Expected` — what a file's attributes are expected to be

An attribute change sets some of the fields an object keeps in its metadata.
`Expected` holds, field by field, the value the last change of that field set,
and `Agrees` says that attributes have those values.

The lemmas say which steps keep agreement: each call on a staged session, the
metadata update of an object, encoding for an upload, and what `Stat` reports.
-/
import Bluestone.Staging.Attributes

namespace Bluestone

/-- The attributes a change is followed by.  Access and modification times are staged
too (`Setter.times`), but writes set them as well. -/
inductive Field
  | mode
  | uid
  | gid
  | btime
  | windowsAttributes
  | streams
  deriving DecidableEq, Repr

/-- What a field holds. -/
abbrev Field.Value : Field → Type
  | .mode | .uid | .gid | .windowsAttributes => UInt32
  | .btime => Nat
  | .streams => List (String × Bytes)

/-- A field of the attributes; of the Windows flags those that are stored. -/
def StagedAttributes.get (attrs : StagedAttributes) : (f : Field) → f.Value
  | .mode => attrs.mode
  | .uid => attrs.uid
  | .gid => attrs.gid
  | .btime => attrs.btime
  | .windowsAttributes => attrs.windowsAttributes &&& windowsAttributesStored
  | .streams => attrs.streams

/-- The fields whose value is known. -/
abbrev Expected := (f : Field) → Option f.Value

namespace Expected

def nothing : Expected := fun _ => none

def Agrees (x : Expected) (attrs : StagedAttributes) : Prop :=
  ∀ f v, x f = some v → attrs.get f = v

/-- `x`, with the values of `u` at the given fields. -/
def set (x u : Expected) (fields : List Field) : Expected :=
  fun f => if f ∈ fields then (u f).or (x f) else x f

/-- `x`, with the values of `u`. -/
def override (x u : Expected) : Expected := fun f => (u f).or (x f)

end Expected

/-- The fields a change sets. -/
def AttributeUpdate.get (update : AttributeUpdate) : Expected
  | .mode => update.mode
  | .uid => update.uid
  | .gid => update.gid
  | .btime => update.btime
  | .windowsAttributes => update.windowsAttributes.map (· &&& windowsAttributesStored)
  | .streams => update.streams

/-- The fields one call on the session is about. -/
def Setter.fields : Setter → List Field
  | .mode _ => [.mode]
  | .readOwner _ _ | .owner _ _ => [.uid, .gid]
  | .btime _ => [.btime]
  | .windowsAttributes _ => [.windowsAttributes]
  | .streams _ => [.streams]
  | .times _ _ => []

/-- A call made for `update` on a session with the given attributes. -/
def Setter.For (update : AttributeUpdate) (attrs : StagedAttributes) : Setter → Prop
  | .mode m => update.mode = some m
  | .readOwner u g => u = update.uid ∧ g = update.gid
  | .owner u g => u = update.uid.getD attrs.uid ∧ g = update.gid.getD attrs.gid
  | .btime b => update.btime = some b
  | .windowsAttributes flags =>
    update.windowsAttributes.map (· &&& windowsAttributesStored) = some flags
  | .streams named => update.streams = some named
  | .times _ _ => True

section
variable {x y : Expected} {attrs attrs' : StagedAttributes} {update : AttributeUpdate}
  {call : Setter}

theorem agrees_nothing (attrs : StagedAttributes) : Expected.nothing.Agrees attrs := by
  intro f v h
  exact nomatch h

theorem Expected.Agrees.congr (h : x.Agrees attrs) (he : ∀ f, attrs'.get f = attrs.get f) :
    x.Agrees attrs' := by
  intro f v hv
  rw [he f]
  exact h f v hv

theorem stored_idem (w : UInt32) :
    w &&& windowsAttributesStored &&& windowsAttributesStored = w &&& windowsAttributesStored := by
  rw [UInt32.and_assoc, UInt32.and_self]

theorem Expected.Agrees.encode (h : x.Agrees attrs) : x.Agrees (encodePOSIXAttributes attrs) := by
  refine h.congr fun f => ?_
  cases f with
  | windowsAttributes => exact stored_idem _
  | _ => rfl

theorem Expected.Agrees.stat {o : Object} {modTime atime mtime : Nat} (h : x.Agrees o.attributes)
    (hb : x .btime ≠ some 0) : x.Agrees (o.statAttributes modTime atime mtime) := by
  intro f v hv
  cases f with
  | btime =>
    have hstored : o.attributes.btime = v := h .btime v hv
    have hne : o.attributes.btime ≠ 0 := by
      intro h0
      rw [hv, ← hstored, h0] at hb
      exact hb rfl
    simp only [StagedAttributes.get, Object.statAttributes, if_neg hne]
    exact hstored
  | _ => exact h _ v hv

theorem Expected.Agrees.mtime (h : x.Agrees attrs) : x.Agrees { attrs with mtime := 0 } := by
  refine h.congr fun f => ?_
  cases f <;> rfl

theorem override_eq_some {f : Field} {v : f.Value} (h : (x.override y) f = some v) :
    y f = some v ∨ y f = none ∧ x f = some v := by
  unfold Expected.override at h
  cases hy : y f with
  | none => exact .inr ⟨rfl, by simpa [hy] using h⟩
  | some w => exact .inl (by simpa [hy] using h)

theorem set_eq_some {fields : List Field} {f : Field} {v : f.Value} (h : (x.set y fields) f = some v) :
    (f ∈ fields ∧ y f = some v) ∨ ((f ∈ fields → y f = none) ∧ x f = some v) := by
  unfold Expected.set at h
  split at h
  · rename_i hf
    rcases override_eq_some (x := x) (y := y) h with h | ⟨hn, h⟩
    · exact .inl ⟨hf, h⟩
    · exact .inr ⟨fun _ => hn, h⟩
  · rename_i hf
    exact .inr ⟨fun hf' => absurd hf' hf, h⟩

/-- One call on a session: its own fields get the values of the change, the
others stay. -/
theorem change_get (hfor : call.For update attrs) (hr : call.reads = false) (f : Field) :
    (call.change attrs).get f =
      if f ∈ call.fields then (update.get f).getD (attrs.get f) else attrs.get f := by
  cases call with
  | mode m =>
    have hm : update.mode = some m := hfor
    cases f <;> simp [Setter.change, Setter.fields, StagedAttributes.get, AttributeUpdate.get, hm]
  | readOwner u g => cases hr
  | owner u g =>
    obtain ⟨rfl, rfl⟩ := hfor
    cases f <;> simp [Setter.change, Setter.fields, StagedAttributes.get, AttributeUpdate.get]
  | btime b =>
    have hb : update.btime = some b := hfor
    cases f <;> simp [Setter.change, Setter.fields, StagedAttributes.get, AttributeUpdate.get, hb]
  | windowsAttributes flags =>
    obtain ⟨w, hw, rfl⟩ := Option.map_eq_some_iff.1
      (show update.windowsAttributes.map (· &&& windowsAttributesStored) = some flags from hfor)
    cases f <;> simp [Setter.change, Setter.fields, StagedAttributes.get, AttributeUpdate.get, hw,
      stored_idem]
  | streams named =>
    have hn : update.streams = some named := hfor
    cases f <;> simp [Setter.change, Setter.fields, StagedAttributes.get, AttributeUpdate.get, hn]
  | times accessed modified =>
    cases f <;> simp [Setter.change, Setter.fields, StagedAttributes.get]

theorem Expected.Agrees.change (h : x.Agrees attrs) (hfor : call.For update attrs)
    (hr : call.reads = false) : (x.set update.get call.fields).Agrees (call.change attrs) := by
  intro f v hv
  rw [change_get hfor hr f]
  rcases set_eq_some hv with ⟨hf, hu⟩ | ⟨hn, hx⟩
  · simp [hf, hu]
  · split
    · rename_i hf
      rw [hn hf]
      exact h f v hx
    · exact h f v hx

theorem apply_get (f : Field) : (update.apply attrs).get f = (update.get f).getD (attrs.get f) := by
  cases f with
  | windowsAttributes =>
    simp only [StagedAttributes.get, AttributeUpdate.apply, AttributeUpdate.get]
    cases update.windowsAttributes with
    | none => rfl
    | some w => exact stored_idem w
  | _ => rfl

theorem Expected.Agrees.apply (h : x.Agrees attrs) :
    (x.override update.get).Agrees (update.apply attrs) := by
  intro f v hv
  rw [apply_get]
  rcases override_eq_some hv with hu | ⟨hn, hx⟩
  · rw [hu]
    rfl
  · rw [hn]
    exact h f v hx

theorem mem_applyStagedUpdate {f : Field} {v : f.Value} (h : update.get f = some v) :
    f ∈ (applyStagedUpdate update).flatMap Setter.fields := by
  rw [List.mem_flatMap]
  cases f with
  | mode =>
    exact ⟨.mode v, by simp [applyStagedUpdate, show update.mode = some v from h],
      by simp [Setter.fields]⟩
  | uid =>
    exact ⟨.readOwner update.uid update.gid,
      by simp [applyStagedUpdate, show update.uid = some v from h], by simp [Setter.fields]⟩
  | gid =>
    exact ⟨.readOwner update.uid update.gid,
      by simp [applyStagedUpdate, show update.gid = some v from h], by simp [Setter.fields]⟩
  | btime =>
    exact ⟨.btime v, by simp [applyStagedUpdate, show update.btime = some v from h],
      by simp [Setter.fields]⟩
  | windowsAttributes =>
    exact ⟨.windowsAttributes v, by
      obtain ⟨w, hw, rfl⟩ := Option.map_eq_some_iff.1
        (show update.windowsAttributes.map (· &&& windowsAttributesStored) = some v from h)
      simp [applyStagedUpdate, hw], by simp [Setter.fields]⟩
  | streams =>
    exact ⟨.streams v, by simp [applyStagedUpdate, show update.streams = some v from h],
      by simp [Setter.fields]⟩

theorem for_of_mem (h : call ∈ applyStagedUpdate update) (attrs : StagedAttributes) :
    call.For update attrs := by
  simp only [applyStagedUpdate, List.mem_append, List.mem_map, Option.mem_toList] at h
  rcases h with ((((⟨m, hm, rfl⟩ | h) | ⟨b, hb, rfl⟩) | ⟨w, hw, rfl⟩) | ⟨n, hn, rfl⟩) | h
  · exact hm
  · split at h
    · obtain rfl := List.mem_singleton.1 h
      exact ⟨rfl, rfl⟩
    · exact nomatch h
  · exact hb
  · show Option.map _ _ = _
    rw [hw]
    rfl
  · exact hn
  · split at h
    · obtain rfl := List.mem_singleton.1 h
      trivial
    · exact nomatch h

end

end Bluestone
