/-
# `Bluestone.Library.Keys` — names written one after the other

A key is names with slashes between them, and a slash after the last one when the key
marks a directory.  Its `components` are those names.  A key whose components are not
empty (`Solid`) is read back from them: `stem_prefix_iff` says which keys lie below a
directory, `splitOn_trim` what is left when the slashes at both ends are dropped.
-/
import Bluestone.Library.Paths
import Mathlib.Data.List.DropRight

namespace Paths

open List (append_assoc cons_append mem_cons_self filter_eq_self splitOn_ne_nil intercalate_splitOn)

/-- The names a key is made of. -/
def components (text : List Char) : List Name := (text.splitOn '/').filter (· ≠ [])

/-- No component is empty, but for the end of a key that marks a directory. -/
def Solid (text : List Char) : Prop := ∀ c ∈ (text.splitOn '/').dropLast, c ≠ []

instance (text : List Char) : Decidable (Solid text) := by
  unfold Solid
  infer_instance

/-- What the keys below a directory begin with. -/
def stem (dir : List Name) : List Char := dir.flatMap (· ++ ['/'])

/-- The text without the slashes at its ends. -/
def trim (text : List Char) : List Char := (text.dropWhile (· == '/')).rdropWhile (· == '/')

variable {dir : List Name} {text : List Char}

/-! ## Keys below a directory -/

theorem stem_cons (n : Name) (dir : List Name) : stem (n :: dir) = n ++ '/' :: stem dir := by
  simp [stem]

theorem splitOn_stem_append (hdir : ∀ n ∈ dir, Plain n) (text : List Char) :
    (stem dir ++ text).splitOn '/' = dir ++ text.splitOn '/' := by
  induction dir with
  | nil => rfl
  | cons n dir ih =>
    rw [stem_cons, append_assoc, cons_append,
      List.splitOn_append_cons_self_of_not_mem (hdir n mem_cons_self).no_slash,
      ih fun m hm => hdir m (List.mem_cons_of_mem _ hm), cons_append]

theorem components_stem_append (hdir : ∀ n ∈ dir, Plain n) (text : List Char) :
    components (stem dir ++ text) = dir ++ components text := by
  rw [components, splitOn_stem_append hdir, List.filter_append, components]
  congr 1
  rw [filter_eq_self]
  intro n hn
  exact decide_eq_true (hdir n hn).ne_nil

theorem Solid.of_stem (hdir : ∀ n ∈ dir, Plain n) (h : Solid (stem dir ++ text)) : Solid text := by
  intro c hc
  refine h c ?_
  rw [splitOn_stem_append hdir, List.dropLast_append_of_ne_nil (splitOn_ne_nil _ _)]
  exact List.mem_append_right _ hc

theorem intercalate_append {names : List Name} (hne : names ≠ []) :
    ['/'].intercalate (dir ++ names) = stem dir ++ ['/'].intercalate names := by
  induction dir with
  | nil => rfl
  | cons n dir ih =>
    rw [cons_append, List.intercalate_cons_of_ne_nil (by simp [hne]), ih, stem_cons]
    simp

/-! ## Components -/

theorem Solid.splitOn_eq (h : Solid text) :
    text.splitOn '/' = components text ∨ text.splitOn '/' = components text ++ [[]] := by
  have hsplit := List.dropLast_append_getLast (splitOn_ne_nil '/' text)
  have hinit : (text.splitOn '/').dropLast.filter (· ≠ []) = (text.splitOn '/').dropLast := by
    rw [filter_eq_self]
    intro c hc
    exact decide_eq_true (h c hc)
  rw [components]
  generalize (text.splitOn '/').getLast (splitOn_ne_nil '/' text) = last at hsplit
  rw [← hsplit, List.filter_append, hinit]
  by_cases hlast : last = []
  · subst hlast
    exact .inr (by simp)
  · exact .inl (by simp [hlast])

theorem components_of_mem {c : Name} (hc : c ∈ components text) : components c = [c] := by
  obtain ⟨hsplit, hne⟩ := List.mem_filter.1 hc
  rw [components, List.splitOn_eq_singleton (not_mem_of_mem_splitOn hsplit), List.filter_singleton, hne]
  rfl

theorem foldl_push_filter {cs names : List Name} (h : ∀ c ∈ cs.filter (· ≠ []), Plain c) :
    cs.foldl push names = names ++ cs.filter (· ≠ []) := by
  induction cs generalizing names with
  | nil => simp
  | cons c cs ih =>
    by_cases hc : c = []
    · have hskip : (c :: cs).filter (· ≠ []) = cs.filter (· ≠ []) := by simp [hc]
      have hpush : push names c = names := by simp [push, hc]
      rw [hskip] at h ⊢
      rw [List.foldl_cons, hpush, ih h]
    · have hkeep : (c :: cs).filter (· ≠ []) = c :: cs.filter (· ≠ []) := by simp [hc]
      rw [hkeep] at h ⊢
      rw [List.foldl_cons, push_of_plain (h c mem_cons_self),
        ih fun c' hc' => h c' (List.mem_cons_of_mem _ hc'), append_assoc, List.singleton_append]

theorem clean_eq_components (h : ∀ c ∈ components text, Plain c) : clean text = components text := by
  rw [clean, foldl_push_filter h, List.nil_append, components]

theorem intercalate_slash (text : List Char) : ['/'].intercalate (text.splitOn '/') = text :=
  intercalate_splitOn '/'

theorem components_ne_nil (h : Solid text) (hne : text ≠ []) : components text ≠ [] := by
  intro hnil
  have hback := intercalate_slash text
  rcases h.splitOn_eq with hs | hs
  · exact splitOn_ne_nil '/' text (hs.trans hnil)
  · rw [hs, hnil] at hback
    exact hne hback.symm

theorem components_intercalate {path : List Name} (hpath : ∀ n ∈ path, Plain n) (hne : path ≠ []) :
    components (['/'].intercalate path) = path := by
  rw [components, List.splitOn_intercalate '/' (fun n hn => (hpath n hn).no_slash) hne, filter_eq_self]
  exact fun n hn => decide_eq_true (hpath n hn).ne_nil

theorem stem_prefix_iff (hdir : ∀ n ∈ dir, Plain n) (h : Solid text) {n : Name} :
    dir ++ [n] <+: components text ↔ ∃ rest, text = stem dir ++ rest ∧ rest ≠ [] ∧
    (components rest).head? = some n := by
  constructor
  · rintro ⟨more, hmore⟩
    have hn : n ≠ [] := by
      have hmem : n ∈ components text := by
        rw [← hmore]
        simp
      simpa using (List.mem_filter.1 hmem).2
    have hback := intercalate_slash text
    obtain ⟨tail, htail⟩ : ∃ tail, text.splitOn '/' = dir ++ n :: tail := by
      rcases h.splitOn_eq with hs | hs
      · exact ⟨more, by rw [hs, ← hmore]; simp⟩
      · exact ⟨more ++ [[]], by rw [hs, ← hmore]; simp⟩
    rw [htail, intercalate_append (by simp)] at hback
    refine ⟨_, hback.symm, ?_, ?_⟩
    · cases tail with
      | nil => simpa using hn
      | cons m tail => simp [List.intercalate_cons_cons, hn]
    · rw [← hback, components_stem_append hdir, append_assoc, List.append_cancel_left_eq] at hmore
      rw [← hmore]
      rfl
  · rintro ⟨rest, rfl, -, hhead⟩
    rw [components_stem_append hdir, List.prefix_append_right_inj]
    obtain ⟨tail, htail⟩ := List.head?_eq_some_iff.1 hhead
    exact ⟨tail, htail.symm⟩

theorem prefix_components_iff {path : List Name} (hpath : ∀ n ∈ path, Plain n) (hne : path ≠ [])
    (h : Solid text) : path <+: components text ↔ text = ['/'].intercalate path ∨ stem path <+: text := by
  constructor
  · rintro ⟨more, hmore⟩
    have hback := intercalate_slash text
    obtain ⟨tail, htail⟩ : ∃ tail, text.splitOn '/' = path ++ tail := by
      rcases h.splitOn_eq with hs | hs
      · exact ⟨more, hs.trans hmore.symm⟩
      · exact ⟨more ++ [[]], by rw [hs, ← hmore, append_assoc]⟩
    rw [htail] at hback
    cases tail with
    | nil =>
      rw [List.append_nil] at hback
      exact .inl hback.symm
    | cons c tail =>
      rw [intercalate_append (by simp)] at hback
      exact .inr ⟨_, hback⟩
  · rintro (rfl | ⟨rest, rfl⟩)
    · have heq := components_intercalate hpath hne
      exact heq.symm ▸ List.prefix_refl _
    · rw [components_stem_append hpath]
      exact List.prefix_append ..

/-! ## Trimmed keys -/

theorem Solid.head_ne (h : Solid text) : ¬ ['/'] <+: text := by
  rintro ⟨rest, rfl⟩
  refine h [] ?_ rfl
  have hs : (['/'] ++ rest).splitOn '/' = [] :: rest.splitOn '/' := List.splitOn_append_cons_self [] rest
  rw [hs, List.dropLast_cons_of_ne_nil (splitOn_ne_nil _ _)]
  exact mem_cons_self ..

theorem splitOn_concat (text : List Char) : (text ++ ['/']).splitOn '/' = text.splitOn '/' ++ [[]] :=
  List.splitOn_append_cons_self text []

theorem trim_of_not_suffix (hhead : ¬ ['/'] <+: text) (hlast : ¬ ['/'] <:+ text) : trim text = text := by
  have hd : text.dropWhile (· == '/') = text := by
    cases text with
    | nil => rfl
    | cons c text =>
      refine List.dropWhile_cons_of_neg fun hc => hhead ?_
      obtain rfl : c = '/' := by simpa using hc
      exact ⟨text, rfl⟩
  rw [trim, hd, List.rdropWhile_eq_self_iff]
  intro hne hc
  refine hlast ⟨text.dropLast, ?_⟩
  have hslash : text.getLast hne = '/' := by simpa using hc
  rw [← hslash]
  exact List.dropLast_append_getLast hne

theorem stem_concat (dir : List Name) (n : Name) : stem (dir ++ [n]) = stem dir ++ n ++ ['/'] := by
  simp [stem]

theorem Solid.splitOn_of_not_suffix (h : Solid text) (hne : text ≠ []) (hlast : ¬ ['/'] <:+ text) :
    text.splitOn '/' = components text := by
  rcases h.splitOn_eq with hs | hs
  · exact hs
  · have hback := intercalate_slash text
    obtain ⟨init, last, hcs⟩ := (components text).eq_nil_or_concat.resolve_left (components_ne_nil h hne)
    rw [hs, hcs, List.concat_eq_append, intercalate_append (by simp), stem_concat] at hback
    exact absurd ⟨stem init ++ last, by simpa using hback⟩ hlast

theorem Solid.splitOn_trim (h : Solid text) (hne : text ≠ []) : (trim text).splitOn '/' = components text := by
  by_cases hlast : ['/'] <:+ text
  · obtain ⟨init, rfl⟩ := hlast
    have hparts : ∀ c ∈ init.splitOn '/', c ≠ [] := by
      intro c hc
      refine h c ?_
      rwa [splitOn_concat, List.dropLast_concat]
    have hinit : ¬ ['/'] <:+ init := by
      rintro ⟨before, rfl⟩
      refine hparts [] ?_ rfl
      rw [splitOn_concat]
      exact List.mem_concat_self
    have hhead : ¬ ['/'] <+: init := fun hp => h.head_ne (hp.trans (List.prefix_append ..))
    have htrim : trim (init ++ ['/']) = trim init := by
      have hd : (init ++ ['/']).dropWhile (· == '/') = init.dropWhile (· == '/') ++ ['/'] := by
        cases init with
        | nil => exact absurd (List.prefix_refl ['/']) h.head_ne
        | cons c init =>
          have hc : ¬ (c == '/') := by
            intro hc
            obtain rfl : c = '/' := by simpa using hc
            exact hhead ⟨init, rfl⟩
          simp [hc]
      rw [trim, hd, List.rdropWhile_concat_pos _ _ _ (by simp), trim]
    rw [htrim, trim_of_not_suffix hhead hinit, components, splitOn_concat, List.filter_append]
    have hall : (init.splitOn '/').filter (· ≠ []) = init.splitOn '/' := by
      rw [filter_eq_self]
      intro c hc
      exact decide_eq_true (hparts c hc)
    rw [hall]
    simp
  · rw [trim_of_not_suffix h.head_ne hlast, h.splitOn_of_not_suffix hne hlast]

/-- A key is a single name when it has no second component and does not end in a
slash. -/
theorem Solid.eq_name_iff (h : Solid text) (hne : text ≠ []) {n : Name}
    (hn : (components text).head? = some n) :
    text = n ↔ (components text).length ≤ 1 ∧ ¬ ['/'] <:+ text := by
  obtain ⟨tail, htail⟩ := List.head?_eq_some_iff.1 hn
  constructor
  · rintro rfl
    have hslash : '/' ∉ text := by
      have hmem : text ∈ components text := by
        rw [htail]
        exact mem_cons_self ..
      exact not_mem_of_mem_splitOn (List.mem_filter.1 hmem).1
    refine ⟨?_, fun hsuf => hslash (hsuf.subset mem_cons_self)⟩
    rw [components, List.splitOn_eq_singleton hslash]
    exact List.length_filter_le ..
  · rintro ⟨hone, hlast⟩
    have hback := intercalate_slash text
    obtain rfl : tail = [] := by
      rw [htail, List.length_cons] at hone
      exact List.length_eq_zero_iff.1 (by omega)
    rw [h.splitOn_of_not_suffix hne hlast, htail] at hback
    simpa using hback.symm

theorem Solid.head_begins (h : Solid text) {n : Name} (hn : (components text).head? = some n) :
    n <+: text := by
  obtain ⟨tail, htail⟩ := List.head?_eq_some_iff.1 hn
  have hback := intercalate_slash text
  obtain ⟨more, hmore⟩ : ∃ more, text.splitOn '/' = n :: more := by
    rcases h.splitOn_eq with hs | hs
    · exact ⟨tail, hs.trans htail⟩
    · exact ⟨tail ++ [[]], by rw [hs, htail, cons_append]⟩
  rw [← hback, hmore]
  cases more with
  | nil => simp
  | cons m more =>
    rw [List.intercalate_cons_cons, append_assoc]
    exact List.prefix_append ..

end Paths
