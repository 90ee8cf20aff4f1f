/-
# `Bluestone.Vfs.Shares` — whether a name leaves its share

A share is a view with a root.  A name is cleaned before its components are
unmapped, so no component is `..` then; but U+F029 stands for a period, so a
component can become `..` afterwards, and joining it climbs.  Nothing else climbs:
case folding maps only periods to periods, and no stage produces a slash.
-/
import Bluestone.Vfs.Names

namespace Bluestone.Vfs

open Paths

namespace View

variable (v : View)

/-- The components of a name as they are joined: unmapped, and matched in the
directory reached so far. -/
def matched : List Name → List Name → List Name
  | _, [] => []
  | current, c :: cs =>
    let child := v.matchChild (render current) (keyName c)
    child :: matched (push current child) cs

variable {v}

theorem matchChild_no_slash {dir c : Str} (h : '/' ∉ c) : '/' ∉ v.matchChild dir (keyName c) :=
  no_slash_of_equalRunes (equalRunes_matchChild _ _) (keyName_no_slash h)

theorem foldl_resolve {cs current : List Name} (h : ∀ n ∈ current, Plain n) (hcs : ∀ c ∈ cs, '/' ∉ c) :
    cs.foldl v.resolve (render current) = render ((v.matched current cs).foldl push current) := by
  induction cs generalizing current with
  | nil => rfl
  | cons c cs ih =>
    have hchild : '/' ∉ v.matchChild (render current) (keyName c) :=
      matchChild_no_slash (hcs c List.mem_cons_self)
    rw [List.foldl_cons, resolve, join_render h hchild,
      ih (push_plain h hchild) fun c' hc' => hcs c' (List.mem_cons_of_mem _ hc')]
    rfl

theorem matched_no_slash {cs current : List Name} (hcs : ∀ c ∈ cs, '/' ∉ c) :
    ∀ c ∈ v.matched current cs, '/' ∉ c := by
  induction cs generalizing current with
  | nil => exact nofun
  | cons c cs ih =>
    intro c' hc'
    rcases List.mem_cons.1 hc' with rfl | hc'
    · exact matchChild_no_slash (hcs c List.mem_cons_self)
    · exact ih (fun c'' h => hcs c'' (List.mem_cons_of_mem _ h)) c' hc'

theorem clean_keyPath (hw : v.windowsNames) (name : Str) :
    clean (v.keyPath name) = (v.matched (clean v.root) (clean name)).foldl push (clean v.root) := by
  have hname : ∀ c ∈ clean name, '/' ∉ c := fun c hc => (clean_plain name c hc).no_slash
  rw [keyPath, if_pos hw, foldl_resolve (clean_plain v.root) hname]
  exact clean_render (foldl_push_plain (clean_plain v.root) (matched_no_slash hname))

end View

/-! ## How far a name climbs -/

/-- How many levels above the share's root a name climbs, once its components are
unmapped. -/
def climbs (name : Str) : Nat := (offset ((clean name).map keyName)).up

/-- The names a client's name goes down by after climbing, as they are matched. -/
def View.goesDown (v : View) (name : Str) : List Name :=
  (offset (v.matched (clean v.root) (clean name))).names

/-- Two components that `push` reads alike. -/
structure SameKind (a b : Name) : Prop where
  empty : a = [] ↔ b = []
  dot : a = dot ↔ b = dot
  dotdot : a = dotdot ↔ b = dotdot

theorem sameKind_of_equalRunes {f : Folding} {a b : Str} (h : equalRunes f a b) : SameKind a b where
  empty := eq_replicate_period_iff h (n := 0)
  dot := eq_replicate_period_iff h (n := 1)
  dotdot := eq_replicate_period_iff h (n := 2)

/-- The same climb, and as many names. -/
def SameShape (o o' : Offset) : Prop := o.up = o'.up ∧ o.names.length = o'.names.length

theorem SameShape.push {o o' : Offset} {a b : Name} (h : SameShape o o') (hab : SameKind a b) :
    SameShape (o.push a) (o'.push b) := by
  obtain ⟨hup, hlen⟩ := h
  have hnil : o.names = [] ↔ o'.names = [] := by
    rw [← List.length_eq_zero_iff, hlen, List.length_eq_zero_iff]
  simp only [Offset.push, hab.empty, hab.dot, hab.dotdot, hnil]
  split
  · exact ⟨hup, hlen⟩
  · split
    · split
      · exact ⟨congrArg (· + 1) hup, hlen⟩
      · exact ⟨hup, by simp [hlen]⟩
    · exact ⟨hup, by simp [hlen]⟩

theorem offset_up_eq {as bs : List Name} (h : List.Forall₂ SameKind as bs) :
    (offset as).up = (offset bs).up := by
  have hgen : ∀ o o', SameShape o o' →
      SameShape (as.foldl Offset.push o) (bs.foldl Offset.push o') := by
    induction h with
    | nil => exact fun _ _ h => h
    | cons hab _ ih => exact fun o o' ho => ih _ _ (ho.push hab)
  exact (hgen _ _ ⟨rfl, rfl⟩).1

theorem View.matched_sameKind (v : View) (current cs : List Name) :
    List.Forall₂ SameKind (v.matched current cs) (cs.map keyName) := by
  induction cs generalizing current with
  | nil => exact .nil
  | cons c cs ih => exact .cons (sameKind_of_equalRunes (View.equalRunes_matchChild _ _)) (ih _)

/-- A name stays in its share exactly when what it goes down by, after climbing above
the root, begins with the last names of the root: always when it does not climb. -/
theorem keyPath_within_iff (v : View) (hw : v.windowsNames = true) (name : Str) :
    clean v.root <+: clean (v.keyPath name) ↔
    (clean v.root).drop ((clean v.root).length - climbs name) <+: v.goesDown name := by
  rw [View.clean_keyPath hw, prefix_foldl_push_iff, offset_up_eq (v.matched_sameKind _ _)]
  rfl

/-! ## A way out -/

/-- The other case of a letter of ASCII. -/
def otherCase (c : Char) : Char :=
  if 65 ≤ c.toNat ∧ c.toNat ≤ 90 then Char.ofNat (c.toNat + 32)
  else if 97 ≤ c.toNat ∧ c.toNat ≤ 122 then Char.ofNat (c.toNat - 32)
  else c

theorem otherCase_otherCase (c : Char) : otherCase (otherCase c) = c := by
  have hascii : ∀ n < 128, otherCase (otherCase (Char.ofNat n)) = Char.ofNat n := by decide
  by_cases hc : c.toNat < 128
  · rw [← Char.ofNat_toNat c]
    exact hascii _ hc
  · have hnone : otherCase c = c := by
      rw [otherCase, if_neg (by omega), if_neg (by omega)]
    rw [hnone, hnone]

/-- Case folding of the letters of ASCII. -/
def asciiFolding : Folding where
  next := otherCase
  bound := 2
  returns c := ⟨2, by decide, Nat.le_refl 2, otherCase_otherCase c⟩
  slash := by decide
  period := by decide
  unknown := by decide

/-- The share `/team/a` of an empty bucket. -/
def shareView : View where
  root := "/team/a".toList
  windowsNames := true
  fold := asciiFolding
  cachedChildNames _ := none
  stagedChildNames _ := []
  exists_ _ := false
  listedCandidates _ _ := []

/-- Two U+F029 and then `b`: the share next door. -/
theorem neighbour_share_reached : ¬ clean shareView.root <+:
    clean (shareView.keyPath [sfmTrailingPeriod, sfmTrailingPeriod, '/', 'b']) ∧
    shareView.keyPath [sfmTrailingPeriod, sfmTrailingPeriod, '/', 'b'] = "/team/b".toList := by
  decide +kernel

theorem dotted_name_within :
    clean shareView.root <+: clean (shareView.keyPath "notes/../x.txt".toList) :=
  (keyPath_within_iff shareView rfl "notes/../x.txt".toList).2 (by decide +kernel)

end Bluestone.Vfs
