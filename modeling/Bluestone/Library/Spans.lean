/-
# `Bluestone.Library.Spans` — lists of tagged half-open intervals

A `Span` is an interval `[start, stop)` with a tag.  A list of them is `Tidy` when
its spans are non-empty, in order, apart from each other, and merged: two that
touch carry different tags.

Taking an interval away (`subtract`) and merging after something was added
(`coalesce`) both end in a tidy list, and `Holds` says at which points which tag
is held before and after.  On a tidy list that is a partial function (`tagAt`), and
the two operations update it on the interval and nowhere else.
-/
import Mathlib.Data.List.Sort

namespace Spans

open List (mem_cons_of_mem pairwise_cons mem_cons_self mem_cons mem_singleton pairwise_singleton
  mem_flatMap)

universe u v

/-- The interval `[start, stop)` with a tag. -/
structure Span (α : Type u) (τ : Type v) where
  start : α
  stop : α
  tag : τ
  deriving DecidableEq, Repr

variable {α : Type u} {τ : Type v} [LinearOrder α]

/-- The span shares a point with `[a, b)`, if neither is empty. -/
def Span.overlaps (s : Span α τ) (a b : α) : Bool := decide (s.start < b) && decide (a < s.stop)

/-- What is left of a span without `[a, b)`. -/
def Span.cut (s : Span α τ) (a b : α) : List (Span α τ) :=
  if s.overlaps a b then
    (if s.start < a then [⟨s.start, a, s.tag⟩] else []) ++ (if b < s.stop then [⟨b, s.stop, s.tag⟩] else [])
  else [s]

/-- The spans without `[a, b)`. -/
def subtract (l : List (Span α τ)) (a b : α) : List (Span α τ) := l.flatMap fun s => s.cut a b

/-- Spans in order of their starts, merged into the last one where they reach it
with its tag. -/
def mergeFrom [DecidableEq τ] (last : Span α τ) : List (Span α τ) → List (Span α τ)
  | [] => [last]
  | s :: rest =>
    if s.tag = last.tag ∧ s.start ≤ last.stop then
      mergeFrom { last with stop := if last.stop < s.stop then s.stop else last.stop } rest
    else last :: mergeFrom s rest

/-- Sorted by start and merged. -/
def coalesce [DecidableEq τ] (l : List (Span α τ)) : List (Span α τ) :=
  match l.insertionSort (·.start ≤ ·.start) with
  | [] => []
  | s :: rest => mergeFrom s rest

/-- `s` ends before `t` starts, and if they touch their tags differ. -/
def Before (s t : Span α τ) : Prop := s.stop ≤ t.start ∧ (s.stop = t.start → s.tag ≠ t.tag)

/-- Non-empty, in order, apart and merged. -/
structure Tidy (l : List (Span α τ)) : Prop where
  nonempty : ∀ s ∈ l, s.start < s.stop
  ordered : l.Pairwise Before

/-- The tag is held at the point. -/
def Holds (l : List (Span α τ)) (x : α) (tag : τ) : Prop :=
  ∃ s ∈ l, s.start ≤ x ∧ x < s.stop ∧ s.tag = tag

/-- The tag held at the point, if there is one. -/
def tagAt (l : List (Span α τ)) (x : α) : Option τ :=
  (l.find? fun s => decide (s.start ≤ x) && decide (x < s.stop)).map (·.tag)

section
variable {l : List (Span α τ)} {s t : Span α τ} {a b x : α} {tag : τ}

theorem tidy_nil : Tidy ([] : List (Span α τ)) :=
  ⟨fun _ h => (List.not_mem_nil h).elim, .nil⟩

theorem holds_cons : Holds (s :: l) x tag ↔ (s.start ≤ x ∧ x < s.stop ∧ s.tag = tag) ∨ Holds l x tag := by
  simp [Holds]

theorem Tidy.tail (h : Tidy (s :: l)) : Tidy l :=
  ⟨fun t ht => h.nonempty t (mem_cons_of_mem _ ht), (pairwise_cons.1 h.ordered).2⟩

theorem Tidy.not_holds_tail (h : Tidy (s :: l)) (hx : x < s.stop) : ¬ Holds l x tag := by
  rintro ⟨t, ht, hlo, _⟩
  have hbefore := ((pairwise_cons.1 h.ordered).1 t ht).1
  exact absurd (hx.trans_le (hbefore.trans hlo)) (lt_irrefl x)

theorem Tidy.eq_of_start (h : Tidy l) (hs : s ∈ l) (ht : t ∈ l) (heq : s.start = t.start) : s = t := by
  induction l with
  | nil => exact (List.not_mem_nil hs).elim
  | cons r rest ih =>
    -- A later span starts after the first has ended.
    have hlater : ∀ t ∈ rest, r.start < t.start := fun t ht =>
      (h.nonempty r mem_cons_self).trans_le ((pairwise_cons.1 h.ordered).1 t ht).1
    rcases mem_cons.1 hs with rfl | hs'
    · rcases mem_cons.1 ht with rfl | ht'
      · rfl
      · exact absurd heq (hlater t ht').ne
    · rcases mem_cons.1 ht with rfl | ht'
      · exact absurd heq.symm (hlater s hs').ne
      · exact ih h.tail hs' ht'

theorem tagAt_eq_some (h : Tidy l) : tagAt l x = some tag ↔ Holds l x tag := by
  induction l with
  | nil => simp [tagAt, Holds]
  | cons s rest ih =>
    rw [holds_cons, ← ih h.tail, tagAt, List.find?_cons]
    cases hs : decide (s.start ≤ x) && decide (x < s.stop) with
    | true =>
      obtain ⟨hlo, hhi⟩ : s.start ≤ x ∧ x < s.stop := by
        simpa only [Bool.and_eq_true, decide_eq_true_eq] using hs
      have hrest : tagAt rest x ≠ some tag := fun hr => h.not_holds_tail hhi ((ih h.tail).1 hr)
      simp [hlo, hhi, hrest]
    | false =>
      have hout : ¬ (s.start ≤ x ∧ x < s.stop ∧ s.tag = tag) := by
        rintro ⟨hlo, hhi, _⟩
        simp [hlo, hhi] at hs
      simp [hout, tagAt]

/-! ## Taking an interval away -/

theorem not_overlaps_iff : s.overlaps a b = false ↔ b ≤ s.start ∨ s.stop ≤ a := by
  simp only [Span.overlaps, Bool.and_eq_false_iff, decide_eq_false_iff_not, not_lt]

theorem mem_cut (ht : t ∈ s.cut a b) : s.start ≤ t.start ∧ t.stop ≤ s.stop ∧ t.tag = s.tag ∧
    (s.start < s.stop → t.start < t.stop) ∧ (t.stop ≤ a ∨ b ≤ t.start) := by
  unfold Span.cut at ht
  cases ho : s.overlaps a b with
  | false =>
    rw [ho, if_neg Bool.false_ne_true, mem_singleton] at ht
    subst ht
    refine ⟨le_refl _, le_refl _, rfl, id, ?_⟩
    exact (not_overlaps_iff.1 ho).symm
  | true =>
    obtain ⟨hb, ha⟩ : s.start < b ∧ a < s.stop := by
      simpa only [Span.overlaps, Bool.and_eq_true, decide_eq_true_eq] using ho
    rw [ho, if_pos rfl] at ht
    rcases List.mem_append.1 ht with h | h
    · by_cases hlt : s.start < a
      · rw [if_pos hlt, mem_singleton] at h
        subst h
        exact ⟨le_refl _, le_of_lt ha, rfl, fun _ => hlt, .inl (le_refl _)⟩
      · rw [if_neg hlt] at h
        exact nomatch h
    · by_cases hlt : b < s.stop
      · rw [if_pos hlt, mem_singleton] at h
        subst h
        exact ⟨le_of_lt hb, le_refl _, rfl, fun _ => hlt, .inr (le_refl _)⟩
      · rw [if_neg hlt] at h
        exact nomatch h

theorem cut_ordered (h : a < b) (s : Span α τ) : (s.cut a b).Pairwise Before := by
  unfold Span.cut
  split
  · split
    · split
      · exact .cons (fun t ht => by
          obtain rfl := mem_singleton.1 ht
          exact ⟨le_of_lt h, fun heq => absurd heq (ne_of_lt h)⟩) (pairwise_singleton ..)
      · exact pairwise_singleton ..
    · split
      · exact pairwise_singleton ..
      · exact .nil
  · exact pairwise_singleton ..

theorem before_of_mem_cut {s' t' : Span α τ} (h : Before s t) (hs : s' ∈ s.cut a b)
    (ht : t' ∈ t.cut a b) : Before s' t' := by
  obtain ⟨_, hstop, hstag, _⟩ := mem_cut hs
  obtain ⟨hstart, _, httag, _⟩ := mem_cut ht
  refine ⟨hstop.trans (h.1.trans hstart), ?_⟩
  intro heq
  rw [hstag, httag]
  have htouch : s.stop = t.start := le_antisymm h.1 (hstart.trans (heq ▸ hstop))
  exact h.2 htouch

theorem Tidy.subtract (h : Tidy l) (hab : a < b) : Tidy (subtract l a b) := by
  constructor
  · intro t ht
    obtain ⟨s, hs, hts⟩ := mem_flatMap.1 ht
    exact (mem_cut hts).2.2.2.1 (h.nonempty s hs)
  · rw [Spans.subtract, List.pairwise_flatMap]
    refine ⟨fun s _ => cut_ordered hab s, ?_⟩
    exact h.ordered.imp fun hst s' hs' t' ht' => before_of_mem_cut hst hs' ht'

theorem outside_of_mem_subtract (h : t ∈ subtract l a b) : t.stop ≤ a ∨ b ≤ t.start := by
  obtain ⟨s, _, hts⟩ := mem_flatMap.1 h
  exact (mem_cut hts).2.2.2.2

theorem holds_cut : Holds (s.cut a b) x tag ↔
    (s.start ≤ x ∧ x < s.stop ∧ s.tag = tag) ∧ ¬ (a ≤ x ∧ x < b) := by
  constructor
  · rintro ⟨t, ht, hlo, hhi, htag⟩
    obtain ⟨hstart, hstop, hst, _, hout⟩ := mem_cut ht
    refine ⟨⟨hstart.trans hlo, hhi.trans_le hstop, hst.symm.trans htag⟩, ?_⟩
    rintro ⟨hax, hxb⟩
    rcases hout with h | h
    · exact absurd (hhi.trans_le h) (not_lt_of_ge hax)
    · exact absurd (h.trans hlo) (not_le_of_gt hxb)
  · rintro ⟨⟨hlo, hhi, htag⟩, hout⟩
    unfold Span.cut
    cases ho : s.overlaps a b with
    | false => exact ⟨s, by simp, hlo, hhi, htag⟩
    | true =>
      -- The point is on one side of the interval, in the piece of that side.
      rw [if_pos rfl]
      by_cases hxa : x < a
      · exact ⟨⟨s.start, a, s.tag⟩, by simp [hlo.trans_lt hxa], hlo, hxa, htag⟩
      · have hbx : b ≤ x := le_of_not_gt fun hxb => hout ⟨le_of_not_gt hxa, hxb⟩
        exact ⟨⟨b, s.stop, s.tag⟩, by simp [hbx.trans_lt hhi], hbx, hhi, htag⟩

theorem holds_subtract : Holds (subtract l a b) x tag ↔ Holds l x tag ∧ ¬ (a ≤ x ∧ x < b) := by
  constructor
  · rintro ⟨t, ht, hpoint⟩
    obtain ⟨s, hs, hts⟩ := mem_flatMap.1 ht
    obtain ⟨hin, hout⟩ := holds_cut.1 ⟨t, hts, hpoint⟩
    exact ⟨⟨s, hs, hin⟩, hout⟩
  · rintro ⟨⟨s, hs, hin⟩, hout⟩
    obtain ⟨t, hts, hpoint⟩ := holds_cut.2 ⟨hin, hout⟩
    exact ⟨t, mem_flatMap.2 ⟨s, hs, hts⟩, hpoint⟩

theorem tagAt_subtract (h : Tidy l) (hab : a < b) [Decidable (a ≤ x ∧ x < b)] :
    tagAt (subtract l a b) x = if a ≤ x ∧ x < b then none else tagAt l x := by
  refine Option.ext fun tag => ?_
  rw [tagAt_eq_some (h.subtract hab), holds_subtract, ← tagAt_eq_some h]
  by_cases hin : a ≤ x ∧ x < b
  all_goals simp [hin]

theorem cut_of_not_overlaps (h : s.overlaps a b = false) : s.cut a b = [s] := by
  simp [Span.cut, h]

theorem length_cut_inside (hab : a < b) (hs : s.start < a ∧ b < s.stop) : (s.cut a b).length = 2 := by
  have hover : s.overlaps a b := by
    simp [Span.overlaps, hs.1.trans hab, hab.trans hs.2]
  simp [Span.cut, hover, hs.1, hs.2]

theorem length_cut_le (hs : ¬ (s.start < a ∧ b < s.stop)) : (s.cut a b).length ≤ 1 := by
  unfold Span.cut
  split
  · by_cases hstart : s.start < a
    · have hstop : ¬ b < s.stop := fun hb => hs ⟨hstart, hb⟩
      simp [hstart, hstop]
    · rw [if_neg hstart]
      split <;> simp
  · simp

theorem length_subtract_cons :
    (subtract (s :: l) a b).length = (s.cut a b).length + (subtract l a b).length := by
  simp [subtract]

theorem length_subtract_le (h : ∀ s ∈ l, ¬ (s.start < a ∧ b < s.stop)) :
    (subtract l a b).length ≤ l.length := by
  induction l with
  | nil => exact le_refl _
  | cons s rest ih =>
    have hcut := length_cut_le (h s mem_cons_self)
    have hrest := ih fun t ht => h t (mem_cons_of_mem _ ht)
    rw [length_subtract_cons, List.length_cons]
    omega

theorem subtract_of_not_overlaps (h : ∀ s ∈ l, s.overlaps a b = false) : subtract l a b = l := by
  induction l with
  | nil => rfl
  | cons s rest ih =>
    have hrest := ih fun t ht => h t (mem_cons_of_mem _ ht)
    have hcut := cut_of_not_overlaps (h s mem_cons_self)
    rw [subtract, List.flatMap_cons, hcut, List.singleton_append]
    exact congrArg _ hrest

theorem length_subtract_inside (h : Tidy l) (hab : a < b)
    (hs : ∃ s ∈ l, s.start < a ∧ b < s.stop) : (subtract l a b).length = l.length + 1 := by
  induction l with
  | nil => simp at hs
  | cons t rest ih =>
    have hbefore := (pairwise_cons.1 h.ordered).1
    obtain ⟨s, hmem, hin⟩ := hs
    rw [length_subtract_cons, List.length_cons]
    rcases mem_cons.1 hmem with rfl | hmem'
    · -- The others begin after this one ends.
      have hkeep : subtract rest a b = rest := subtract_of_not_overlaps fun r hr =>
        not_overlaps_iff.2 (.inl (hin.2.le.trans (hbefore r hr).1))
      rw [length_cut_inside hab hin, hkeep]
      omega
    · have hover : t.overlaps a b = false :=
        not_overlaps_iff.2 (.inr ((hbefore s hmem').1.trans hin.1.le))
      rw [cut_of_not_overlaps hover, ih h.tail ⟨s, hmem', hin⟩, List.length_singleton]
      omega

theorem overlaps_iff (hs : s.start < s.stop) (ht : t.start < t.stop) : s.overlaps t.start t.stop ↔
    ∃ x, (s.start ≤ x ∧ x < s.stop) ∧ t.start ≤ x ∧ x < t.stop := by
  simp only [Span.overlaps, Bool.and_eq_true, decide_eq_true_eq]
  constructor
  · rintro ⟨hst, hts⟩
    exact ⟨max s.start t.start, ⟨le_max_left .., max_lt hs hts⟩, le_max_right .., max_lt hst ht⟩
  · rintro ⟨x, ⟨hsx, hxs⟩, htx, hxt⟩
    exact ⟨hsx.trans_lt hxt, htx.trans_lt hxs⟩

/-! ## Sorting and merging -/

/-- The spans have no point in common. -/
def Apart (s t : Span α τ) : Prop := s.stop ≤ t.start ∨ t.stop ≤ s.start

/-- Non-empty, in order and apart, but not merged. -/
structure InOrder (l : List (Span α τ)) : Prop where
  nonempty : ∀ s ∈ l, s.start < s.stop
  ordered : l.Pairwise (·.stop ≤ ·.start)

theorem ordered_of_sorted (hne : ∀ s ∈ l, s.start < s.stop) (hsorted : l.Pairwise (·.start ≤ ·.start))
    (hapart : l.Pairwise Apart) : l.Pairwise (·.stop ≤ ·.start) := by
  induction l with
  | nil => exact .nil
  | cons s rest ih =>
    obtain ⟨hs, hsorted'⟩ := pairwise_cons.1 hsorted
    obtain ⟨hsa, hapart'⟩ := pairwise_cons.1 hapart
    refine .cons ?_ (ih (fun t ht => hne t (mem_cons_of_mem _ ht)) hsorted' hapart')
    intro t ht
    rcases hsa t ht with h | h
    · exact h
    · have hlt := hne t (mem_cons_of_mem _ ht)
      exact absurd (hs t ht) (not_le_of_gt (hlt.trans_le h))

theorem inOrder_sort (hne : ∀ s ∈ l, s.start < s.stop) (hapart : l.Pairwise Apart) :
    InOrder (l.insertionSort (·.start ≤ ·.start)) := by
  have hperm := List.perm_insertionSort (fun s t : Span α τ => s.start ≤ t.start) l
  have hne' : ∀ s ∈ l.insertionSort (·.start ≤ ·.start), s.start < s.stop :=
    fun s hs => hne s (hperm.mem_iff.1 hs)
  refine ⟨hne', ordered_of_sorted hne' ?_ ?_⟩
  · have : Std.Total fun s t : Span α τ => s.start ≤ t.start := ⟨fun s t => le_total s.start t.start⟩
    have : IsTrans (Span α τ) fun s t => s.start ≤ t.start := ⟨fun _ _ _ h h' => h.trans h'⟩
    exact List.pairwise_insertionSort ..
  · exact (hperm.pairwise_iff fun h => h.symm).2 hapart

section
variable {r : Span α τ} {rest : List (Span α τ)}

theorem InOrder.tail (h : InOrder (s :: rest)) : InOrder rest :=
  ⟨fun t ht => h.nonempty t (mem_cons_of_mem _ ht), (pairwise_cons.1 h.ordered).2⟩

theorem InOrder.le (h : InOrder (s :: r :: rest)) : s.stop ≤ r.start :=
  (pairwise_cons.1 h.ordered).1 r mem_cons_self

theorem InOrder.second (h : InOrder (s :: r :: rest)) : r.start < r.stop :=
  h.nonempty r (mem_cons_of_mem _ mem_cons_self)

theorem InOrder.merged (h : InOrder (s :: r :: rest)) :
    InOrder (({ s with stop := r.stop } : Span α τ) :: rest) := by
  constructor
  · intro t ht
    rcases mem_cons.1 ht with rfl | ht'
    · exact (h.nonempty s mem_cons_self).trans (h.le.trans_lt h.second)
    · exact h.tail.tail.nonempty t ht'
  · exact .cons (pairwise_cons.1 h.tail.ordered).1 h.tail.tail.ordered

variable [DecidableEq τ]

theorem mergeFrom_cons (h : InOrder (s :: r :: rest)) :
    mergeFrom s (r :: rest) = if r.tag = s.tag ∧ r.start ≤ s.stop then
      mergeFrom { s with stop := r.stop } rest else s :: mergeFrom r rest := by
  rw [mergeFrom, if_pos (h.le.trans_lt h.second)]

/-- The first merged span starts where the merging started, with its tag; the
others come after it. -/
theorem mem_mergeFrom (h : InOrder (s :: rest)) (ht : t ∈ mergeFrom s rest) :
    (t.start = s.start ∧ t.tag = s.tag) ∨ s.stop ≤ t.start := by
  induction rest generalizing s with
  | nil =>
    obtain rfl := mem_singleton.1 ht
    exact .inl ⟨rfl, rfl⟩
  | cons r rest ih =>
    rw [mergeFrom_cons h] at ht
    split at ht
    · rcases ih h.merged ht with hfirst | hlater
      · exact .inl hfirst
      · exact .inr ((h.le.trans h.second.le).trans hlater)
    · rcases mem_cons.1 ht with rfl | ht'
      · exact .inl ⟨rfl, rfl⟩
      · rcases ih h.tail ht' with ⟨hstart, _⟩ | hlater
        · exact .inr (hstart ▸ h.le)
        · exact .inr (h.le.trans (h.second.le.trans hlater))

theorem mergeFrom_tidy (h : InOrder (s :: rest)) : Tidy (mergeFrom s rest) := by
  induction rest generalizing s with
  | nil => exact ⟨h.nonempty, pairwise_singleton ..⟩
  | cons r rest ih =>
    rw [mergeFrom_cons h]
    split
    · exact ih h.merged
    · rename_i hskip
      obtain ⟨hnonempty, hordered⟩ := ih h.tail
      constructor
      · intro t ht
        rcases mem_cons.1 ht with rfl | ht'
        · exact h.nonempty _ mem_cons_self
        · exact hnonempty t ht'
      · refine .cons ?_ hordered
        intro t ht
        -- Only the first of what follows can touch, and it has `r`'s tag.
        rcases mem_mergeFrom h.tail ht with ⟨hstart, htag⟩ | hlater
        · refine ⟨hstart ▸ h.le, fun htouch heq => hskip ⟨?_, ?_⟩⟩
          · rw [heq, htag]
          · rw [htouch, hstart]
        · have hlt : s.stop < t.start := h.le.trans_lt (h.second.trans_le hlater)
          exact ⟨hlt.le, fun htouch => absurd htouch hlt.ne⟩

theorem holds_mergeFrom (h : InOrder (s :: rest)) :
    Holds (mergeFrom s rest) x tag ↔ Holds (s :: rest) x tag := by
  induction rest generalizing s with
  | nil => exact Iff.rfl
  | cons r rest ih =>
    rw [mergeFrom_cons h]
    split
    · rename_i hmerge
      rw [ih h.merged, holds_cons, holds_cons, holds_cons, ← or_assoc]
      refine or_congr ?_ Iff.rfl
      constructor
      · -- A point of the merged span is in one of the two.
        rintro ⟨hlo, hhi, htag⟩
        by_cases hlt : x < s.stop
        · exact .inl ⟨hlo, hlt, htag⟩
        · exact .inr ⟨hmerge.2.trans (le_of_not_gt hlt), hhi, hmerge.1.trans htag⟩
      · rintro (⟨hlo, hhi, htag⟩ | ⟨hlo, hhi, htag⟩)
        · exact ⟨hlo, hhi.trans (h.le.trans_lt h.second), htag⟩
        · exact ⟨(h.nonempty s mem_cons_self).le.trans (h.le.trans hlo), hhi,
            hmerge.1.symm.trans htag⟩
    · rw [holds_cons, ih h.tail, ← holds_cons]

theorem coalesce_tidy (hne : ∀ s ∈ l, s.start < s.stop) (hapart : l.Pairwise Apart) :
    Tidy (coalesce l) ∧ ∀ x tag, Holds (coalesce l) x tag ↔ Holds l x tag := by
  have hord := inOrder_sort hne hapart
  have hperm := List.perm_insertionSort (fun s t : Span α τ => s.start ≤ t.start) l
  have hsame : ∀ x tag, Holds (l.insertionSort (·.start ≤ ·.start)) x tag ↔ Holds l x tag := by
    intro x tag
    simp only [Holds, hperm.mem_iff]
  unfold coalesce
  cases hl : l.insertionSort (·.start ≤ ·.start) with
  | nil =>
    rw [hl] at hsame
    exact ⟨tidy_nil, hsame⟩
  | cons s rest =>
    rw [hl] at hord hsame
    exact ⟨mergeFrom_tidy hord, fun x tag => (holds_mergeFrom hord).trans (hsame x tag)⟩

theorem tidy_replace (h : Tidy l) (hab : a < b) (tag : τ) :
    Tidy (coalesce (subtract l a b ++ [⟨a, b, tag⟩])) ∧
    ∀ x tag', Holds (coalesce (subtract l a b ++ [⟨a, b, tag⟩])) x tag' ↔ (Holds l x tag' ∧ ¬ (a ≤ x ∧
    x < b)) ∨ (a ≤ x ∧ x < b ∧ tag = tag') := by
  have hsub := h.subtract hab
  have hne : ∀ s ∈ subtract l a b ++ [⟨a, b, tag⟩], s.start < s.stop := by
    intro s hs
    rcases List.mem_append.1 hs with hs' | hs'
    · exact hsub.nonempty s hs'
    · obtain rfl := mem_singleton.1 hs'
      exact hab
  have hapart : List.Pairwise Apart (subtract l a b ++ [⟨a, b, tag⟩]) := by
    refine List.pairwise_append.2 ⟨hsub.ordered.imp fun hst => .inl hst.1, pairwise_singleton .., ?_⟩
    intro s hs t ht
    obtain rfl := mem_singleton.1 ht
    exact outside_of_mem_subtract hs
  obtain ⟨htidy, hholds⟩ := coalesce_tidy hne hapart
  refine ⟨htidy, fun x tag' => (hholds x tag').trans ?_⟩
  rw [← holds_subtract]
  simp only [Holds, List.mem_append, mem_singleton, or_and_right, exists_or, exists_eq_left]

theorem tagAt_replace (h : Tidy l) (hab : a < b) (tag : τ) [Decidable (a ≤ x ∧ x < b)] :
    tagAt (coalesce (subtract l a b ++ [⟨a, b, tag⟩])) x =
      if a ≤ x ∧ x < b then some tag else tagAt l x := by
  obtain ⟨htidy, hholds⟩ := tidy_replace h hab tag
  refine Option.ext fun tag' => ?_
  rw [tagAt_eq_some htidy, hholds, ← tagAt_eq_some h]
  by_cases hin : a ≤ x ∧ x < b
  · simp [hin]
  · have hin' : ¬ (a ≤ x ∧ x < b ∧ tag = tag') := fun hall => hin ⟨hall.1, hall.2.1⟩
    simp [hin, hin']

end

end

end Spans
