/-
# `Bluestone.Vfs.SameAnswers` — the two models of `Stat` and `ReadDir`

`Gateway.statInfo` and `Gateway.readDir` are among the calls of a client, over a state that
other calls change and with any answer of the store.  `Mount.stat` and `Mount.readDir` are
the same calls at rest, over a bucket.  With the same staging, and a store that answers what
the bucket does, they show the same names, and the same of them as directories.
-/
import Bluestone.Vfs.Calls
import Bluestone.Vfs.Entries

namespace Bluestone.Vfs

open Paths Posix
open List (Forall₂)

/-- The text of a path of names. -/
def textOf (path : List Name) : String := String.ofList (render path)

/-- An entry of the gateway and one of the mount that a client cannot tell apart by name or
kind. -/
structure Alike (e : FileInfo) (i : Info) : Prop where
  name : e.name = i.name
  isDir : e.isDir = i.isDir

/-- A session of the gateway, with its path, and one of the mount. -/
structure SameSession (g : Gateway) (a : String × Nat) (s : StagedSession) : Prop where
  path : a.1 = textOf s.path
  plain : ∀ n ∈ s.path, Plain n
  named : s.path ≠ []
  answers : (g.slice a.1).answersStat a.2 = Mount.answers s

/-- The gateway and the mount have the same pending deletes and sessions. -/
structure SameStaging (g : Gateway) (known : List String) (m : Mount) : Prop where
  tombstone : ∀ path, (∀ n ∈ path, Plain n) → g.tombstone (textOf path) = m.pendingDelete path
  session : ∀ path, (∀ n ∈ path, Plain n) → Option.Rel (fun sid s => SameSession g (textOf path, sid) s)
    (g.getSession (textOf path)) (m.getSession path)
  sessions : ∀ dir, (∀ n ∈ dir, Plain n) →
    Forall₂ (SameSession g) (g.sessionsInDirectory known (textOf dir)) (m.getSessionsInDirectory dir)

section
variable {g : Gateway} {known : List String} {m : Mount} {path dir : List Name}

theorem textOf_inj {other : List Name} (hpath : ∀ n ∈ path, Plain n) (hother : ∀ n ∈ other, Plain n)
    (h : textOf path = textOf other) : path = other := by
  rw [← clean_render hpath, ← clean_render hother, String.ofList_injective h]

theorem isReservedPath_textOf (hpath : ∀ n ∈ path, Plain n) :
    Bluestone.isReservedPath (textOf path) = Posix.isReservedPath path := by
  have hlease : textOf [leaseName] = "/" ++ leaseObjectKey := by decide
  have hplain : ∀ n ∈ [leaseName], Plain n := by
    rintro n (_ | ⟨_, hn⟩)
    · exact ⟨by decide, by decide, by decide, by decide⟩
    · cases hn
  rw [Bluestone.isReservedPath, Posix.isReservedPath, Bool.eq_iff_iff, beq_iff_eq, beq_iff_eq, ← hlease]
  exact ⟨textOf_inj hpath hplain, congrArg textOf⟩

theorem baseName_textOf (hpath : ∀ n ∈ path, Plain n) (hne : path ≠ []) :
    Bluestone.baseName (textOf path) = Posix.baseName path := by
  have hsplit : (['/'].intercalate path).splitOn '/' = path :=
    List.splitOn_intercalate '/' (fun n hn => (hpath n hn).no_slash) hne
  rw [Bluestone.baseName, Posix.baseName, textOf, String.toList_ofList, splitOn_render, hsplit,
    List.getLast?_cons_of_ne_nil hne]

theorem joinName_textOf {n : Name} (hdir : ∀ n ∈ dir, Plain n) (hn : '/' ∉ n) :
    joinName (textOf dir) n = textOf (push dir n) := by
  rw [joinName, textOf, String.toList_ofList, join_render hdir hn]
  rfl

theorem alike_staged {a : String × Nat} {s : StagedSession} (h : SameSession g a s) :
    Alike (g.stagedFileInfo a.1 a.2) (Mount.stagedFileInfo s) :=
  ⟨by rw [Gateway.stagedFileInfo, h.path]; exact baseName_textOf h.plain h.named, rfl⟩

/-- The two loops over the sessions add the same names. -/
theorem addStaged_alike (hs : SameStaging g known m) {as : List (String × Nat)}
    {ss : List StagedSession} (h : Forall₂ (SameSession g) as ss) {es : List FileInfo} {is : List Info}
    (he : Forall₂ Alike es is) : Forall₂ Alike (g.addStaged es as) (m.addStaged is ss) := by
  induction h generalizing es is with
  | nil => exact he
  | @cons a s as ss hfirst _ ih =>
    have hnames : es.any (fun e => e.name == Bluestone.baseName a.1) =
        (is.map (·.name)).contains (Posix.baseName s.path) := by
      rw [hfirst.path, baseName_textOf hfirst.plain hfirst.named]
      clear ih
      induction he with
      | nil => rfl
      | cons h _ ih => rw [List.any_cons, List.map_cons, List.contains_cons, ih, h.name, Bool.beq_comm]
    have hdeleted : g.tombstone a.1 = m.pendingDelete s.path := by rw [hfirst.path, hs.tombstone _ hfirst.plain]
    rw [Gateway.addStaged, Mount.addStaged, hnames, hdeleted, hfirst.answers]
    cases m.pendingDelete s.path with
    | true => exact ih he
    | false =>
      cases (is.map (·.name)).contains (Posix.baseName s.path) with
      | true => exact ih he
      | false =>
        cases Mount.answers s with
        | false => exact ih he
        | true => exact ih (List.rel_append he (.cons (alike_staged hfirst) .nil))

/-- What a listing shows once the lease and the deleted names are left out. -/
theorem shown_alike (hs : SameStaging g known m) (hdir : ∀ n ∈ dir, Plain n) {es : List FileInfo}
    {entries : List Entry} (hnames : ∀ e ∈ entries, '/' ∉ e.name)
    (h : Forall₂ (fun e i => Alike e ⟨i.name, i.isDir, i.size, i.modTime⟩) es entries) :
    Forall₂ Alike ((es.filter fun e => !Bluestone.isReservedPath (joinName (textOf dir) e.name)).filter
      fun e => !g.tombstone (joinName (textOf dir) e.name)) (m.shown dir entries) := by
  induction h with
  | nil => exact .nil
  | @cons e i es entries hfirst _ ih =>
    have hn : '/' ∉ i.name := hnames i List.mem_cons_self
    have hrest := ih fun e he => hnames e (List.mem_cons_of_mem _ he)
    have hjoin : joinName (textOf dir) e.name = textOf (push dir i.name) := by
      rw [hfirst.name]
      exact joinName_textOf hdir hn
    have hplain := push_plain hdir hn
    have hreserved := isReservedPath_textOf hplain
    rw [Mount.shown, List.filter_cons, List.filter_cons, hjoin, hreserved]
    cases Posix.isReservedPath (push dir i.name) with
    | true => exact hrest
    | false =>
      simp only [Bool.not_false, if_true, List.map_cons, List.filter_cons, hjoin, hs.tombstone _ hplain]
      cases m.pendingDelete (push dir i.name) with
      | true => exact hrest
      | false => exact .cons hfirst hrest

/-- `ReadDir` of the two models shows the same names, if the listings do. -/
theorem readDir_alike (hs : SameStaging g known m) (hdir : ∀ n ∈ dir, Plain n) {w : ListFaults}
    {es : List FileInfo} {entries : List Entry} (hlisted : g.listDirectory known w (textOf dir) = .ok es)
    (hbucket : Posix.listDirectory m.bucket m.pendingDelete (fun _ => none) m.configured dir = .ok entries)
    (hnames : ∀ e ∈ entries, '/' ∉ e.name)
    (h : Forall₂ (fun e i => Alike e ⟨i.name, i.isDir, i.size, i.modTime⟩) es entries) :
    ∃ shown infos, g.readDir known w (textOf dir) = .ok shown ∧ m.readDir dir = .ok infos ∧
      Forall₂ Alike shown infos := by
  rw [Gateway.readDir, Mount.readDir, hlisted, hbucket]
  refine ⟨_, _, rfl, rfl, ?_⟩
  rw [List.forall₂_map_right_iff]
  exact (addStaged_alike hs (hs.sessions dir hdir) (shown_alike hs hdir hnames h)).imp
    fun e i halike => ⟨halike.name, halike.isDir⟩

/-- What the store's `Stat` finds. -/
def kindOf : Except StatError Info → BucketStat
  | .error .notExist => .missing
  | .ok info => if info.isDir then .directory else .file

/-- The two answers to a `Stat`. -/
def SameStat : Except CallError FileInfo → Except StatError Info → Prop
  | .ok e, .ok i => Alike e i
  | .error e, .error .notExist => e = .notExist
  | _, _ => False

theorem answering_same (hs : SameStaging g known m) (hpath : ∀ n ∈ path, Plain n) :
    Option.Rel (fun sid s => SameSession g (textOf path, sid) s)
      ((g.getSession (textOf path)).filter fun sid => (g.slice (textOf path)).answersStat sid)
      (m.answering path) := by
  rw [Mount.answering]
  have hsession := hs.session path hpath
  generalize g.getSession (textOf path) = found at hsession ⊢
  generalize m.getSession path = other at hsession ⊢
  cases hsession with
  | none => exact .none
  | @some sid s h =>
    have hanswers : (g.slice (textOf path)).answersStat sid = Mount.answers s := h.answers
    rw [Option.filter_some, Option.filter_some, hanswers]
    cases Mount.answers s with
    | true => exact .some h
    | false => exact .none

theorem statObject_name {info : Info} (hne : path ≠ []) (h : m.statObject path = .ok info) :
    info.name = Posix.baseName path := by
  rw [Mount.statObject, if_neg hne] at h
  split at h
  · cases h
    rfl
  · split at h
    · cases h
      rfl
    · split at h
      · cases h
      · cases h
        rfl

/-- `Stat` of the two models finds the same, if the store does. -/
theorem stat_alike (hs : SameStaging g known m) (hpath : ∀ n ∈ path, Plain n) (hne : path ≠ [])
    {w : CallFaults} (hstore : statAnswer (textOf path) (g.statObject (textOf path) w.stat) =
      kindOf (m.statObject path)) : SameStat (g.statInfo known w (textOf path)) (m.stat path) := by
  have hanswering := answering_same hs hpath
  rw [Gateway.statInfo, Mount.stat, Mount.statPath, isReservedPath_textOf hpath,
    hs.tombstone path hpath, hstore]
  generalize (g.getSession (textOf path)).filter _ = found at hanswering ⊢
  generalize m.answering path = other at hanswering ⊢
  cases Posix.isReservedPath path with
  | true => exact rfl
  | false =>
    cases m.pendingDelete path with
    | true => exact rfl
    | false =>
      cases hanswering with
      | some h => exact ⟨(alike_staged h).name, rfl⟩
      | none =>
        cases hfound : m.statObject path with
        | error e =>
          cases e
          exact rfl
        | ok info =>
          have hname := statObject_name hne hfound
          have hbase := (baseName_textOf hpath hne).trans hname.symm
          cases hkind : info.isDir with
          | true | false =>
            simp only [kindOf, hkind]
            exact ⟨hbase, hkind.symm⟩

end

end Bluestone.Vfs
