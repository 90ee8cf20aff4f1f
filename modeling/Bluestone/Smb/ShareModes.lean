/-
# `Bluestone.Smb.ShareModes` — opens of one file permit each other

The share table compares opens that have the same table key.  Two opens of one file
are compared when they have the same spelling; a name in another case, or one that
maps to the same key another way, is another table key.  A rename moves opens onto
the opens of its target without comparing them.
-/
import Bluestone.Smb.Opens
import Bluestone.Vfs.Shares

namespace Bluestone.Smb

open Paths Vfs Locks Runs
open Function (update_of_ne update_self)

variable {b : Backend}

/-- The handle `id` holds the reservation `r`. -/
def Opens.Holds (s : Opens) (id r : Nat) : Prop := ∃ p, s.handles id = some ⟨p, some r⟩

/-- Handles hold reservations of their own that are in the table. -/
structure Opens.Sound (s : Opens) : Prop where
  listed : s.table.Listed
  held : ∀ {id r}, s.Holds id r → s.table.Held r
  own : ∀ {i j r}, s.Holds i r → s.Holds j r → i = j

/-- Any two opens of one file permit each other. -/
def Permitted (s : Opens) (file : Nat → List Name) : Prop :=
  ∀ i j r r', i ≠ j → s.Holds i r → s.Holds j r' → file i = file j → s.table.opposed r r' = false

/-- A file that is open is opened only under the table key its opens have, and no open
file is renamed onto another one. -/
def OneName (b : Backend) (p : Opens × (Nat → List Name)) : Call → Prop
  | .openFile _ v opts _ _ => ∀ j r, p.1.Holds j r → p.2 j = clean (v.keyPath (sharePath opts.path)) →
      (p.1.table.handle r).path = b.tableKey (sharePath opts.path)
  | .close _ => True
  | .rename id v newPath _ => ∀ h i j r r', p.1.handles id = some h → p.1.Holds i r → p.1.Holds j r' →
      clean (v.keyPath h.path) <+: p.2 i → ¬ clean (v.keyPath h.path) <+: p.2 j →
      renamed v h newPath (p.2 i) ≠ p.2 j

theorem eq_of_renamed_eq {v : View} {h : Handle} {newPath : Str} {f f' : List Name}
    (heq : renamed v h newPath f = renamed v h newPath f') (hmoved : clean (v.keyPath h.path) <+: f →
    ¬ clean (v.keyPath h.path) <+: f' → renamed v h newPath f ≠ f')
    (hmoved' : clean (v.keyPath h.path) <+: f' → ¬ clean (v.keyPath h.path) <+: f →
    renamed v h newPath f' ≠ f) : f = f' := by
  by_cases hf : clean (v.keyPath h.path) <+: f
  · by_cases hf' : clean (v.keyPath h.path) <+: f'
    · rw [renamed, moveKey, moveKey, if_pos hf, if_pos hf'] at heq
      obtain ⟨rest, rfl⟩ := hf
      obtain ⟨rest', rfl⟩ := hf'
      simpa using heq
    · have hstay : renamed v h newPath f' = f' := if_neg hf'
      exact absurd (heq.trans hstay) (hmoved hf hf')
  · have hstay : renamed v h newPath f = f := if_neg hf
    by_cases hf' : clean (v.keyPath h.path) <+: f'
    · exact absurd (heq.symm.trans hstay) (hmoved' hf' hf)
    · rw [← hstay, heq]
      exact if_neg hf'

/-! ## What each call keeps -/

/-- The opens are sound, and those of one file permit each other. -/
structure Shared (s : Opens) (file : Nat → List Name) : Prop where
  sound : s.Sound
  permitted : Permitted s file

section
variable {s : Opens} {file : Nat → List Name} {id : Nat}

theorem holds_update_none {t : ShareTable Str} {j r : Nat}
    (h : (⟨t, Function.update s.handles id none⟩ : Opens).Holds j r) : j ≠ id ∧ s.Holds j r := by
  obtain ⟨p, hp⟩ := h
  by_cases hj : j = id
  · subst hj
    simp at hp
  · exact ⟨hj, p, by simpa [hj] using hp⟩

theorem holds_update_some {t : ShareTable Str} {j r : Nat} {h' : Handle}
    (h : (⟨t, Function.update s.handles id (some h')⟩ : Opens).Holds j r) :
    (j = id ∧ h'.reservation = some r) ∨ (j ≠ id ∧ s.Holds j r) := by
  obtain ⟨p, hp⟩ := h
  by_cases hj : j = id
  · subst hj
    have hh : h' = ⟨p, some r⟩ := by simpa using hp
    exact .inl ⟨rfl, by rw [hh]⟩
  · exact .inr ⟨hj, p, by simpa [hj] using hp⟩

theorem Shared.close (h : Shared s file) (id : Nat) : Shared (Backend.close s id) file := by
  rw [Backend.close]
  split
  · exact h
  · rename_i hd hhd
    obtain ⟨⟨hlisted, hheld, hown⟩, hperm⟩ := h
    -- Only the reservation of the closed handle is released.
    obtain ⟨p, reservation⟩ := hd
    cases reservation with
    | none =>
      refine ⟨⟨hlisted, ?_, ?_⟩, ?_⟩
      · exact fun hj => hheld (holds_update_none hj).2
      · exact fun hi hj => hown (holds_update_none hi).2 (holds_update_none hj).2
      · intro i j r r' hij hi hj
        exact hperm i j r r' hij (holds_update_none hi).2 (holds_update_none hj).2
    | some r0 =>
      refine ⟨⟨hlisted.release r0, ?_, ?_⟩, ?_⟩
      · intro j r hj
        obtain ⟨hne, hold⟩ := holds_update_none hj
        refine ShareTable.held_release (hheld hold) ?_
        intro hr
        exact hne (hown (hr ▸ hold) ⟨p, hhd⟩)
      · exact fun hi hj => hown (holds_update_none hi).2 (holds_update_none hj).2
      · intro i j r r' hij hi hj hfile
        rw [ShareTable.opposed_release]
        exact hperm i j r r' hij (holds_update_none hi).2 (holds_update_none hj).2 hfile

theorem Shared.rename (h : Shared s file) {v : View} {newPath : Str} {succeeds : Bool}
    (hok : OneName b (s, file) (.rename id v newPath succeeds)) : Shared (b.rename s id newPath succeeds)
    (ofFile s (.rename id v newPath succeeds) (b.rename s id newPath succeeds) file) := by
  cases hhd : s.handles id with
  | none => simpa [Backend.rename, ofFile, hhd] using h
  | some hd =>
    cases succeeds with
    | false => simpa [Backend.rename, ofFile, hhd] using h
    | true =>
      simp only [Backend.rename, ofFile, hhd, if_true]
      obtain ⟨⟨hlisted, hheld, hown⟩, hperm⟩ := h
      have hold : ∀ {j r}, (⟨s.table.rename (b.tableKey hd.path) (b.tableKey (sharePath newPath)),
          Function.update s.handles id (some ⟨sharePath newPath, hd.reservation⟩)⟩ : Opens).Holds j r →
          s.Holds j r := by
        intro j r hj
        rcases holds_update_some hj with ⟨rfl, hr⟩ | ⟨_, hj⟩
        · exact ⟨hd.path, by rw [hhd, ← hr]⟩
        · exact hj
      refine ⟨⟨hlisted.rename _ _, ?_, ?_⟩, ?_⟩
      · exact fun hj => ShareTable.held_rename (hheld (hold hj))
      · exact fun hi hj => hown (hold hi) (hold hj)
      · intro i j r r' hij hi hj hfile
        rw [ShareTable.opposed_rename]
        refine hperm i j r r' hij (hold hi) (hold hj) (eq_of_renamed_eq hfile ?_ ?_)
        · exact hok hd i j r r' hhd (hold hi) (hold hj)
        · exact hok hd j i r' r hhd (hold hj) (hold hi)

theorem Holds.ne {j r : Nat} (hid : s.handles id = none) (h : s.Holds j r) : j ≠ id := by
  rintro rfl
  obtain ⟨p, hp⟩ := h
  rw [hid] at hp
  cases hp

theorem Shared.update (h : Shared s file) (hid : s.handles id = none) (f : List Name) :
    Shared s (Function.update file id f) := by
  refine ⟨h.sound, ?_⟩
  intro i j r r' hij hi hj hfile
  rw [update_of_ne (Holds.ne hid hi), update_of_ne (Holds.ne hid hj)] at hfile
  exact h.permitted i j r r' hij hi hj hfile

theorem Shared.granted (h : Shared s file) {path p : Str} {access share : Access} {r0 : Nat}
    {table : ShareTable Str} {f : List Name} (hid : s.handles id = none)
    (hgrant : s.table.acquire path access share = .ok (r0, table))
    (hpath : ∀ j r, s.Holds j r → file j = f → (s.table.handle r).path = path) :
    Shared ⟨table, Function.update s.handles id (some ⟨p, some r0⟩)⟩ (Function.update file id f) := by
  obtain ⟨⟨hlisted, hheld, hown⟩, hperm⟩ := h
  obtain ⟨hnew, hothers, hsame⟩ := ShareTable.acquire_keeps hgrant
  have hagainst : ∀ {j r}, s.Holds j r → file j = f → table.opposed r0 r = false := by
    intro j r hj hfile
    rw [(hothers r (hheld hj)).2.2]
    exact hlisted.permits hgrant (hheld hj) (hpath j r hj hfile)
  refine ⟨⟨hlisted.acquire hgrant, ?_, ?_⟩, ?_⟩
  · intro j r hj
    rcases holds_update_some hj with ⟨_, hr⟩ | ⟨_, hj⟩
    · cases hr
      exact hnew
    · exact (hothers r (hheld hj)).2.1
  · intro i j r hi hj
    rcases holds_update_some hi with ⟨rfl, hr⟩ | ⟨_, hi⟩
    · cases hr
      rcases holds_update_some hj with ⟨rfl, _⟩ | ⟨_, hj⟩
      · rfl
      · exact absurd rfl (hothers _ (hheld hj)).1
    · rcases holds_update_some hj with ⟨_, hr⟩ | ⟨_, hj⟩
      · cases hr
        exact absurd rfl (hothers _ (hheld hi)).1
      · exact hown hi hj
  · intro i j r r' hij hi hj hfile
    rcases holds_update_some hi with ⟨rfl, hr⟩ | ⟨hine, hiold⟩
    · cases hr
      rcases holds_update_some hj with ⟨rfl, _⟩ | ⟨hjne, hjold⟩
      · exact absurd rfl hij
      · rw [update_self, update_of_ne hjne] at hfile
        exact hagainst hjold hfile.symm
    · rw [update_of_ne hine] at hfile
      rcases holds_update_some hj with ⟨rfl, hr⟩ | ⟨hjne, hjold⟩
      · cases hr
        rw [update_self] at hfile
        rw [ShareTable.opposed_comm]
        exact hagainst hiold hfile
      · rw [update_of_ne hjne] at hfile
        rw [hsame r r' (hheld hiold) (hheld hjold)]
        exact hperm i j r r' hij hiold hjold hfile

theorem Shared.givenBack (h : Shared s file) {path : Str} {access share : Access} {r0 : Nat}
    {table : ShareTable Str} (hgrant : s.table.acquire path access share = .ok (r0, table)) :
    Shared { s with table := table.release r0 } file := by
  obtain ⟨⟨hlisted, hheld, hown⟩, hperm⟩ := h
  obtain ⟨_, hothers, hsame⟩ := ShareTable.acquire_keeps hgrant
  refine ⟨⟨(hlisted.acquire hgrant).release r0, ?_, hown⟩, ?_⟩
  · intro j r hj
    obtain ⟨hne, hr, _⟩ := hothers r (hheld hj)
    exact ShareTable.held_release hr hne
  · intro i j r r' hij hi hj hfile
    rw [ShareTable.opposed_release, hsame r r' (hheld hi) (hheld hj)]
    exact hperm i j r r' hij hi hj hfile

theorem Shared.directory (h : Shared s file) (p : Str) :
    Shared { s with handles := Function.update s.handles id (some ⟨p, none⟩) } file := by
  have hold : ∀ {j r}, ({ s with handles := Function.update s.handles id (some ⟨p, none⟩) } : Opens).Holds
      j r → s.Holds j r := by
    intro j r hj
    rcases holds_update_some hj with ⟨_, hr⟩ | ⟨_, hj⟩
    · cases hr
    · exact hj
  refine ⟨⟨h.sound.listed, ?_, ?_⟩, ?_⟩
  · exact fun hj => h.sound.held (hold hj)
  · exact fun hi hj => h.sound.own (hold hi) (hold hj)
  · exact fun i j r r' hij hi hj => h.permitted i j r r' hij (hold hi) (hold hj)

theorem Shared.openFile (h : Shared s file) {v : View} {opts : OpenOptions} {found : Found}
    {succeeds : Bool} (hid : s.handles id = none) (hok : OneName b (s, file)
    (.openFile id v opts found succeeds)) : Shared (b.openFile s id opts found succeeds)
    (Function.update file id (clean (v.keyPath (sharePath opts.path)))) := by
  cases found with
  | failed => exact h.update hid _
  | directory =>
    cases succeeds with
    | false => exact h.update hid _
    | true => exact (h.update hid _).directory _
  | file =>
    rw [Backend.openFile]
    split
    · exact h.update hid _
    · rename_i r table hgrant
      split
      · exact h.granted hid hgrant hok
      · exact (h.givenBack hgrant).update hid _

theorem Shared.next (h : Shared s file) {c : Call} (hok : OneName b (s, file) c) :
    Shared (s.next b c) (ofFile s c (s.next b c) file) := by
  cases c with
  | openFile id v opts found succeeds =>
    simp only [Opens.next, ofFile]
    split
    · rename_i hid
      exact h.openFile (Option.isNone_iff_eq_none.1 hid) hok
    · exact h
  | close id => exact h.close id
  | rename id v newPath succeeds => exact h.rename hok

end

/-- In every run in which a file that is open is opened again only under the table key
its opens have, and no open file is renamed onto another one, any two opens of a file
that are held permit each other. -/
theorem opens_of_one_file_permitted (b : Backend) {p : Opens × (Nat → List Name)}
    (h : Reach (filesOf b) (OneName b) p) : Permitted p.1 p.2 := by
  have hshared : Shared p.1 p.2 := by
    refine h.invariant (I := fun p => Shared p.1 p.2) ?_ ?_
    · rintro ⟨s, file⟩ ⟨⟨hlisted, hnone⟩, _⟩
      have hno : ∀ {j r}, ¬ s.Holds j r := by
        rintro j r ⟨q, hq⟩
        rw [hnone j] at hq
        cases hq
      exact ⟨⟨hlisted, fun hj => (hno hj).elim, fun hi => (hno hi).elim⟩,
        fun _ _ _ _ _ hi => (hno hi).elim⟩
    · rintro ⟨s, file⟩ c ⟨s', file'⟩ hI hok ⟨hs, hfile⟩
      dsimp only at hfile ⊢
      rw [hfile, show s' = s.next b c from hs]
      exact hI.next hok
  exact hshared.permitted

/-! ## Two spellings -/

/-- The share `/team/a` with one file, `f`. -/
def oneFile : View where
  root := "/team/a".toList
  windowsNames := true
  fold := asciiFolding
  cachedChildNames _ := none
  stagedChildNames _ := []
  exists_ p := p = "/team/a/f".toList
  listedCandidates dir _ := if dir = "/team/a".toList then ["f".toList] else []

def teamShare : Backend := ⟨"/team/a".toList⟩

/-- Nothing is open. -/
def unopened : Opens × (Nat → List Name) := (⟨newShareTable 0 [], fun _ => none⟩, fun _ => [])

/-- A call that opens `name` for reading and writing, sharing what `share` says. -/
def openFor (id : Nat) (name : String) (share : UInt32) : Call :=
  .openFile id oneFile ⟨name.toList, accessGenericRead ||| accessGenericWrite, share, false⟩ .file true

/-- The state and the files after a call. -/
def after (p : Opens × (Nat → List Name)) (c : Call) : Opens × (Nat → List Name) :=
  (p.1.next teamShare c, ofFile p.1 c (p.1.next teamShare c) p.2)

theorem unopened_reached {ok : Opens × (Nat → List Name) → Call → Prop} :
    Reach (filesOf teamShare) ok unopened :=
  .init ⟨⟨ShareTable.newShareTable_listed 0, fun _ => rfl⟩, rfl⟩

theorem after_reached {ok : Opens × (Nat → List Name) → Call → Prop} {p : Opens × (Nat → List Name)}
    {c : Call} (h : Reach (filesOf teamShare) ok p) (hok : ok p c) :
    Reach (filesOf teamShare) ok (after p c) :=
  .step h hok ⟨rfl, rfl⟩

/-- One client has `f` open and shares nothing; another opens `F`. -/
theorem exclusive_open_not_alone : ∃ p, Reach (filesOf teamShare) always p ∧ ¬ Permitted p.1 p.2 := by
  refine ⟨after (after unopened (openFor 0 "f" 0)) (openFor 1 "F" 0),
    after_reached (after_reached unopened_reached trivial) trivial, ?_⟩
  intro hperm
  have hfree := hperm 0 1 0 1 (by decide) ⟨"/f".toList, by decide +kernel⟩
    ⟨"/F".toList, by decide +kernel⟩ (by decide +kernel)
  revert hfree
  decide +kernel

/-- Two clients that share everything open `f`. -/
theorem shared_opens_permitted : ∃ p, Reach (filesOf teamShare) (OneName teamShare) p ∧ p.1.Holds 0 0 ∧
    p.1.Holds 1 1 ∧ p.2 0 = p.2 1 ∧ Permitted p.1 p.2 := by
  have hfirst : Reach (filesOf teamShare) (OneName teamShare) (after unopened (openFor 0 "f" 7)) := by
    refine after_reached unopened_reached ?_
    rintro j r ⟨q, hq⟩
    cases hq
  have hsecond : Reach (filesOf teamShare) (OneName teamShare)
      (after (after unopened (openFor 0 "f" 7)) (openFor 1 "f" 7)) := by
    refine after_reached hfirst ?_
    have hhandles : (after unopened (openFor 0 "f" 7)).1.handles =
        Function.update (fun _ => none) 0 (some ⟨"/f".toList, some 0⟩) := rfl
    rintro j r ⟨q, hq⟩ _
    rw [hhandles] at hq
    cases j with
    | zero =>
      cases hq
      decide +kernel
    | succ j => cases hq
  exact ⟨_, hsecond, ⟨"/f".toList, by decide +kernel⟩, ⟨"/f".toList, by decide +kernel⟩,
    by decide +kernel, opens_of_one_file_permitted teamShare hsecond⟩

end Bluestone.Smb
