/-
# `Bluestone.Library.Paths` — rooted paths and where a name leads

A rooted path is the list of its names.  Cleaning reads a text component by
component onto a stack: an empty component and `.` change nothing, `..` drops the
last name, anything else is added (`push`).

Reading components from a directory is described without the directory by an
`Offset`: how far they climb above it, and the names they add then
(`foldl_push`).  That is what decides whether they lead out of it
(`prefix_foldl_push_iff`).
-/
import Mathlib.Data.List.Basic

namespace Paths

/-- One component of a path. -/
abbrev Name := List Char

def dot : Name := ['.']

def dotdot : Name := ['.', '.']

/-- A component is read onto the names so far. -/
def push (names : List Name) (c : Name) : List Name :=
  if c = [] ∨ c = dot then names else if c = dotdot then names.dropLast else names ++ [c]

/-- The names of the rooted path that `/` and the text, cleaned, are. -/
def clean (text : List Char) : List Name := (text.splitOn '/').foldl push []

/-- The text of a rooted path. -/
def render (names : List Name) : List Char := '/' :: ['/'].intercalate names

/-- A text read from the rooted path `dir`. -/
def join (dir text : List Char) : List Char := render (clean (dir ++ '/' :: text))

/-- A component that names an entry of a directory. -/
structure Plain (c : Name) : Prop where
  ne_nil : c ≠ []
  ne_dot : c ≠ dot
  ne_dotdot : c ≠ dotdot
  no_slash : '/' ∉ c

/-! ## Cleaned paths -/

variable {c : Name} {names : List Name}

theorem not_mem_of_mem_splitOn {text : List Char} (h : c ∈ text.splitOn '/') : '/' ∉ c := by
  induction text generalizing c with
  | nil =>
    obtain rfl : c = [] := by simpa using h
    exact List.not_mem_nil
  | cons x rest ih =>
    rw [List.splitOn_cons_eq_if_modifyHead] at h
    split at h
    · rcases List.mem_cons.1 h with rfl | h
      · exact List.not_mem_nil
      · exact ih h
    · rename_i hx
      cases hsplit : rest.splitOn '/' with
      | nil => exact absurd hsplit (List.splitOn_ne_nil _ _)
      | cons first others =>
        rw [hsplit] at h ih
        rcases List.mem_cons.1 h with rfl | h
        · have hne : '/' ≠ x := fun he => hx (beq_iff_eq.2 he.symm)
          simp [hne, ih List.mem_cons_self]
        · exact ih (List.mem_cons_of_mem _ h)

theorem push_plain (h : ∀ n ∈ names, Plain n) (hc : '/' ∉ c) : ∀ n ∈ push names c, Plain n := by
  rw [push]
  split
  · exact h
  · rename_i hempty
    split
    · intro n hn
      exact h n (List.dropLast_subset _ hn)
    · rename_i hup
      intro n hn
      rcases List.mem_append.1 hn with hn | hn
      · exact h n hn
      · obtain rfl := List.mem_singleton.1 hn
        exact ⟨fun h0 => hempty (.inl h0), fun h1 => hempty (.inr h1), hup, hc⟩

theorem foldl_push_plain {cs : List Name} (h : ∀ n ∈ names, Plain n) (hcs : ∀ c ∈ cs, '/' ∉ c) :
    ∀ n ∈ cs.foldl push names, Plain n := by
  induction cs generalizing names with
  | nil => exact h
  | cons c cs ih =>
    exact ih (push_plain h (hcs c List.mem_cons_self)) fun c' hc' => hcs c' (List.mem_cons_of_mem _ hc')

theorem clean_plain (text : List Char) : ∀ n ∈ clean text, Plain n :=
  foldl_push_plain nofun fun _ h => not_mem_of_mem_splitOn h

theorem push_of_plain (h : Plain c) : push names c = names ++ [c] := by
  rw [push, if_neg, if_neg h.ne_dotdot]
  rintro (h0 | h1)
  · exact h.ne_nil h0
  · exact h.ne_dot h1

theorem foldl_push_of_plain {cs : List Name} (h : ∀ c ∈ cs, Plain c) :
    cs.foldl push names = names ++ cs := by
  induction cs generalizing names with
  | nil => simp
  | cons c cs ih =>
    rw [List.foldl_cons, push_of_plain (h c List.mem_cons_self),
      ih fun c' hc' => h c' (List.mem_cons_of_mem _ hc')]
    simp

theorem splitOn_render (names : List Name) :
    (render names).splitOn '/' = [] :: (['/'].intercalate names).splitOn '/' :=
  List.splitOn_append_cons_self [] (['/'].intercalate names)

theorem clean_render (h : ∀ n ∈ names, Plain n) : clean (render names) = names := by
  rw [clean, splitOn_render, List.foldl_cons]
  cases names with
  | nil => rfl
  | cons n ns =>
    rw [List.splitOn_intercalate '/' (fun c hc => (h c hc).no_slash) (by simp)]
    exact (foldl_push_of_plain h).trans (List.nil_append _)

theorem clean_render_append (h : ∀ n ∈ names, Plain n) (text : List Char) :
    clean (render names ++ '/' :: text) = (text.splitOn '/').foldl push names := by
  have hroot := clean_render h
  rw [clean] at hroot ⊢
  rw [List.splitOn_append_cons_self, List.foldl_append, hroot]

theorem join_render (h : ∀ n ∈ names, Plain n) (hc : '/' ∉ c) :
    join (render names) c = render (push names c) := by
  rw [join, clean_render_append h, List.splitOn_eq_singleton hc]
  rfl

/-! ## Where components lead -/

/-- How far components climb above where they are read from, and the names they add
then. -/
structure Offset where
  up : Nat
  names : List Name
  deriving DecidableEq, Repr

def Offset.push (o : Offset) (c : Name) : Offset :=
  if c = [] ∨ c = dot then o
  else if c = dotdot then
    if o.names = [] then { o with up := o.up + 1 } else { o with names := o.names.dropLast }
  else { o with names := o.names ++ [c] }

def offset (cs : List Name) : Offset := cs.foldl Offset.push ⟨0, []⟩

/-- The offset, taken from the directory `base`. -/
def Offset.at (o : Offset) (base : List Name) : List Name :=
  base.take (base.length - o.up) ++ o.names

theorem push_at (o : Offset) (base : List Name) (c : Name) :
    Paths.push (o.at base) c = (o.push c).at base := by
  rw [Paths.push, Offset.push]
  split
  · rfl
  · split
    · split
      · rename_i hnames
        rw [Offset.at, Offset.at, hnames, List.append_nil, List.append_nil, List.dropLast_eq_take,
          List.take_take, List.length_take]
        dsimp only
        congr 1
        omega
      · rename_i hnames
        exact List.dropLast_append_of_ne_nil hnames
    · exact List.append_assoc ..

theorem foldl_push (cs base : List Name) : cs.foldl push base = (offset cs).at base := by
  have hgen : ∀ o : Offset, cs.foldl push (o.at base) = (cs.foldl Offset.push o).at base := by
    induction cs with
    | nil => exact fun _ => rfl
    | cons c cs ih =>
      intro o
      rw [List.foldl_cons, push_at, ih, List.foldl_cons]
  have hzero : (⟨0, []⟩ : Offset).at base = base := by simp [Offset.at]
  have hcs := hgen ⟨0, []⟩
  rwa [hzero] at hcs

/-- Components read from `base` lead to it or below it exactly when the names they
come down by, after climbing, begin with the last ones of `base`. -/
theorem prefix_foldl_push_iff (cs base : List Name) : base <+: cs.foldl push base ↔
    base.drop (base.length - (offset cs).up) <+: (offset cs).names := by
  rw [foldl_push, Offset.at]
  nth_rewrite 1 [← List.take_append_drop (base.length - (offset cs).up) base]
  exact List.prefix_append_right_inj _

end Paths
