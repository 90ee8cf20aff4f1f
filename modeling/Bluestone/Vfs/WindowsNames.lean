/-
# `Bluestone.Vfs.WindowsNames` — key names as Windows clients see them

`windowsName` of `internal/vfs/names.go` and its way back.  Both go character by
character, except that a space or a period is mapped only at the end of a name: one loop
over the name from the left, and one from the right over what the first has left
(`mapTrailing`).

The mapping back is `keyName`, which rewrites every character of its range, so that a key
comes back exactly when it has none of them.
-/
import Bluestone.Vfs.Names
import Mathlib.Data.List.Forall2

namespace Bluestone.Vfs

/-- The first loop's body: control characters and reserved ones. -/
def mapChar (r : Char) : Char :=
  if 0x01 ≤ r.toNat ∧ r.toNat ≤ 0x1F then Char.ofNat (sfmControlOffset + r.toNat)
  else match sfmReserved.find? fun pair => pair.1 = r with
    | some pair => pair.2
    | none => r

/-- The second loop, over the characters from the last to the first. -/
def mapTrailing : List Char → List Char
  | [] => []
  | r :: rest =>
    if r = ' ' then sfmTrailingSpace :: mapTrailing rest
    else if r = '.' then sfmTrailingPeriod :: mapTrailing rest
    else r :: rest

/-- A stored key name as Windows naming clients see it. -/
def windowsName (key : Str) : Str :=
  if key = ['.'] ∨ key = ['.', '.'] then key
  else (mapTrailing (key.map mapChar).reverse).reverse

/-! ## The characters -/

/-- What the way back rewrites. -/
def Mapped (r : Char) : Prop := sfmFirst ≤ r ∧ r ≤ sfmLast

/-- What a Windows name must not have. -/
def Refused (r : Char) : Prop := (0x01 ≤ r.toNat ∧ r.toNat ≤ 0x1F) ∨ r ∈ sfmReserved.map Prod.fst

instance (r : Char) : Decidable (Mapped r) := inferInstanceAs (Decidable (_ ∧ _))

instance (r : Char) : Decidable (Refused r) := inferInstanceAs (Decidable (_ ∨ _))

variable {r : Char} {P : Char → Prop} {k : Str}

theorem mapped_iff : Mapped r ↔ 0xF001 ≤ r.toNat ∧ r.toNat ≤ 0xF029 := by
  have hfirst : sfmFirst.toNat = 0xF001 := by decide
  have hlast : sfmLast.toNat = 0xF029 := by decide
  rw [Mapped, Char.le_def, Char.le_def, UInt32.le_iff_toNat_le, UInt32.le_iff_toNat_le]
  exact Iff.of_eq (congrArg₂ (fun a b => a ≤ r.toNat ∧ r.toNat ≤ b) hfirst hlast)

theorem forall_range {low count : Nat} (h : ∀ i < count, P (Char.ofNat (low + i))) (hlow : low ≤ r.toNat)
    (hhigh : r.toNat < low + count) : P r := by
  have hr := h (r.toNat - low) (by omega)
  rwa [Nat.add_sub_cancel' hlow, Char.ofNat_toNat] at hr

theorem unmapChar_unmapped (h : ¬ Mapped r) : unmapChar r = r := by
  have hne : ∀ c, Mapped c → r ≠ c := fun c hc heq => h (heq ▸ hc)
  have hreserved : ∀ pair ∈ sfmReserved, Mapped pair.2 := by decide
  rw [unmapChar, if_neg, if_neg (hne _ (by decide)),
    if_neg (hne _ (by decide))]
  · have hnone : sfmReserved.find? (fun pair => pair.2 = r) = none := by
      rw [List.find?_eq_none]
      intro pair hpair heq
      exact hne _ (hreserved pair hpair) (of_decide_eq_true heq).symm
    rw [hnone]
  · rintro ⟨hfirst, hcontrol⟩
    refine h ⟨hfirst, ?_⟩
    have hlast : sfmLast.toNat = 0xF029 := by decide
    have hoffset : sfmControlOffset = 0xF000 := rfl
    rw [Char.le_def, UInt32.le_iff_toNat_le]
    show r.toNat ≤ sfmLast.toNat
    omega

theorem mapped_cases (h : ∀ i < 0x29, P (Char.ofNat (0xF001 + i))) (hr : Mapped r) : P r := by
  obtain ⟨hlow, hhigh⟩ := mapped_iff.1 hr
  exact forall_range h hlow (by omega)

theorem control_cases (h : ∀ i < 0x1F, P (Char.ofNat (0x01 + i)))
    (hlow : 0x01 ≤ r.toNat) (hhigh : r.toNat ≤ 0x1F) : P r :=
  forall_range h hlow (by omega)

theorem unmapChar_mapped (h : Mapped r) : unmapChar r ≠ r := by
  refine mapped_cases (P := fun r => unmapChar r ≠ r) ?_ h
  decide

/-- A character and what stands for it in a Windows name. -/
structure Stands (r m : Char) : Prop where
  back : ¬ Mapped r → unmapChar m = r
  fixed : Mapped r → m = r
  usable : ¬ Refused m

theorem mapChar_refused (h : Refused r) :
    unmapChar (mapChar r) = r ∧ ¬ Mapped r ∧ ¬ Refused (mapChar r) ∧ mapChar r ≠ ' ' ∧ mapChar r ≠ '.' := by
  obtain ⟨hlow, hhigh⟩ | hmem := h
  · refine control_cases (P := fun r => unmapChar (mapChar r) = r ∧ ¬ Mapped r ∧
      ¬ Refused (mapChar r) ∧ mapChar r ≠ ' ' ∧ mapChar r ≠ '.') ?_ hlow hhigh
    decide
  · have hall : (sfmReserved.map Prod.fst).Forall fun r => unmapChar (mapChar r) = r ∧ ¬ Mapped r ∧
        ¬ Refused (mapChar r) ∧ mapChar r ≠ ' ' ∧ mapChar r ≠ '.' := by decide
    exact List.forall_iff_forall_mem.1 hall r hmem

theorem mapChar_usable (h : ¬ Refused r) : mapChar r = r := by
  have hnone : sfmReserved.find? (fun pair => pair.1 = r) = none := by
    rw [List.find?_eq_none]
    intro pair hpair heq
    exact h (.inr (List.mem_map.2 ⟨pair, hpair, of_decide_eq_true heq⟩))
  rw [mapChar, if_neg fun hcontrol => h (.inl hcontrol), hnone]

theorem stands_mapChar (r : Char) : Stands r (mapChar r) := by
  by_cases hr : Refused r
  · obtain ⟨hback, hmapped, husable, -⟩ := mapChar_refused hr
    exact ⟨fun _ => hback, fun h => absurd h hmapped, husable⟩
  · rw [mapChar_usable hr]
    exact ⟨unmapChar_unmapped, fun _ => rfl, hr⟩

theorem mapChar_eq {c : Char} (hc : c = ' ' ∨ c = '.') (h : mapChar r = c) : r = c := by
  by_cases hr : Refused r
  · obtain ⟨-, -, -, hspace, hperiod⟩ := mapChar_refused hr
    obtain rfl | rfl := hc
    · exact absurd h hspace
    · exact absurd h hperiod
  · rwa [mapChar_usable hr] at h

/-! ## Names -/

theorem stands_map (l : List Char) : List.Forall₂ Stands l (l.map mapChar) := by
  induction l with
  | nil => exact .nil
  | cons r l ih => exact .cons (stands_mapChar r) ih

theorem stands_mapTrailing (l : List Char) : List.Forall₂ Stands l (mapTrailing (l.map mapChar)) := by
  induction l with
  | nil => exact .nil
  | cons r l ih =>
    rw [List.map_cons, mapTrailing]
    split
    next hspace =>
      obtain rfl := mapChar_eq (.inl rfl) hspace
      exact .cons ⟨fun _ => by decide, fun h => absurd h (by decide), by decide⟩ ih
    next =>
      split
      next hperiod =>
        obtain rfl := mapChar_eq (.inr rfl) hperiod
        exact .cons ⟨fun _ => by decide, fun h => absurd h (by decide), by decide⟩ ih
      next => exact .cons (stands_mapChar r) (stands_map l)

theorem stands_windowsName (h : ¬ (k = ['.'] ∨ k = ['.', '.'])) :
    List.Forall₂ Stands k (windowsName k) := by
  rw [windowsName, if_neg h, ← List.map_reverse, ← List.forall₂_reverse_iff, List.reverse_reverse]
  exact stands_mapTrailing k.reverse

theorem exists_stands {name : Str} (h : List.Forall₂ Stands k name) {m : Char} (hm : m ∈ name) :
    ∃ r, Stands r m := by
  induction h with
  | nil => cases hm
  | cons hr _ ih =>
    obtain rfl | hm := List.mem_cons.1 hm
    · exact ⟨_, hr⟩
    · exact ih hm

theorem mapTrailing_head (l : List Char) :
    (mapTrailing l).head? ≠ some ' ' ∧ (mapTrailing l).head? ≠ some '.' := by
  cases l with
  | nil => decide
  | cons r l =>
    rw [mapTrailing]
    split
    · simp [sfmTrailingSpace]
    next hspace =>
      split
      · simp [sfmTrailingPeriod]
      next hperiod => simp [hspace, hperiod]

theorem keyName_eq_map (name : Str) : keyName name = name.map unmapChar := by
  rw [keyName]
  split
  · rfl
  next hnone =>
    have hfixed : ∀ r ∈ name, unmapChar r = r := by
      intro r hr
      refine unmapChar_unmapped fun hmapped => hnone ?_
      rw [List.any_eq_true]
      exact ⟨r, hr, by simpa [Mapped] using hmapped⟩
    rw [List.map_congr_left hfixed, List.map_id']

theorem map_unmapChar_iff {name : Str} (h : List.Forall₂ Stands k name) :
    name.map unmapChar = k ↔ ∀ r ∈ k, ¬ Mapped r := by
  induction h with
  | nil => simp
  | @cons r m k name hr _ ih =>
    rw [List.map_cons, List.cons.injEq, List.forall_mem_cons, ih]
    have hiff : unmapChar m = r ↔ ¬ Mapped r := by
      refine ⟨fun heq hmapped => ?_, hr.back⟩
      rw [hr.fixed hmapped] at heq
      exact unmapChar_mapped hmapped heq
    rw [hiff]

/-- Windows names map back to their keys. -/
theorem windows_names_map_back (k : Str) (hk : ¬ (k = ['.'] ∨ k = ['.', '.'])) :
    (∀ r ∈ windowsName k, ¬ (0x01 ≤ r.toNat ∧ r.toNat ≤ 0x1F) ∧ r ∉ sfmReserved.map Prod.fst) ∧
    (windowsName k).getLast? ≠ some ' ' ∧ (windowsName k).getLast? ≠ some '.' ∧
    (keyName (windowsName k) = k ↔ ∀ r ∈ k, ¬ (0xF001 ≤ r.toNat ∧ r.toNat ≤ 0xF029)) ∧
    ∀ k', ¬ (k' = ['.'] ∨ k' = ['.', '.']) → (∀ r ∈ k, ¬ (0xF001 ≤ r.toNat ∧ r.toNat ≤ 0xF029)) →
    (∀ r ∈ k', ¬ (0xF001 ≤ r.toNat ∧ r.toNat ≤ 0xF029)) → windowsName k = windowsName k' → k = k' := by
  have hback : ∀ {k : Str}, ¬ (k = ['.'] ∨ k = ['.', '.']) → (keyName (windowsName k) = k ↔
      ∀ r ∈ k, ¬ (0xF001 ≤ r.toNat ∧ r.toNat ≤ 0xF029)) := by
    intro k hk
    simp only [keyName_eq_map, map_unmapChar_iff (stands_windowsName hk), mapped_iff]
  refine ⟨?_, ?_, ?_, hback hk, ?_⟩
  · intro r hr
    obtain ⟨c, hc⟩ := exists_stands (stands_windowsName hk) hr
    exact ⟨fun h => hc.usable (.inl h), fun h => hc.usable (.inr h)⟩
  · rw [windowsName, if_neg hk, List.getLast?_reverse]
    exact (mapTrailing_head _).1
  · rw [windowsName, if_neg hk, List.getLast?_reverse]
    exact (mapTrailing_head _).2
  · intro k' hk' hrange hrange' heq
    rw [← (hback hk).2 hrange, ← (hback hk').2 hrange', heq]

/-- A name that ends in both, after a colon. -/
theorem trailing_run_maps_back : keyName (windowsName [':', 'a', ' ', '.']) = [':', 'a', ' ', '.'] :=
  (windows_names_map_back [':', 'a', ' ', '.'] (by decide)).2.2.2.1.2 (List.forall_iff_forall_mem.1 (by decide))

end Bluestone.Vfs
