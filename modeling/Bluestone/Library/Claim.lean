/-
# `Bluestone.Library.Claim` — a claim kept as a bare flag

A claim is a flag that a thread sets to take it and clears to give it back.  The
flag does not say who set it, so clearing it early, while still going on as the
claimant, lets another thread in.

A thread is `outside`, or `seeking`, on its way to take the claim, or `holding`
with the flag set for it, or it has `parted` with the flag: it may have cleared it
and has not given the claim back yet.  By `Claim.Exclusive.step` there is one
claimant at most, as long as nobody starts for the claim while some thread has
parted, no claimant clears the flag while some thread seeks, and nobody clears it
under the claimant.
-/
import Bluestone.Library.Runs

namespace Runs

universe u

variable {T : Type u} [DecidableEq T]

/-- How a thread stands to the claim. -/
inductive Stand
  | outside
  | seeking
  | holding
  | parted
  deriving DecidableEq, Repr

/-- The thread has the claim, or goes on as if it had. -/
def Stand.claims : Stand → Prop
  | .outside | .seeking => False
  | .holding | .parted => True

/-- The flag, and how each thread stands to it. -/
structure Claim (T : Type u) where
  flag : Bool
  stand : T → Stand

namespace Claim

/-- Thread `t` moves to `st`. -/
def move (c : Claim T) (t : T) (st : Stand) : Claim T :=
  { c with stand := Function.update c.stand t st }

/-- The flag becomes `b`. -/
def set (c : Claim T) (b : Bool) : Claim T := { c with flag := b }

end Claim

/-- What can happen to a claim in one step. -/
inductive ClaimStep : Claim T → Claim T → Prop
  | quiet (c : Claim T) : ClaimStep c c
  /-- A thread starts for the claim. -/
  | seek {c : Claim T} (t : T) : ¬ (c.stand t).claims → (∀ i, c.stand i ≠ .parted) → ClaimStep c (c.move t .seeking)
  | leave {c : Claim T} (t : T) : ¬ (c.stand t).claims → ClaimStep c (c.move t .outside)
  | take {c : Claim T} (t : T) : c.flag = false → (c.stand t = .seeking ∨ ∀ i, c.stand i ≠ .parted) →
    ClaimStep c ((c.set true).move t .holding)
  /-- The claimant goes on towards giving the claim back. -/
  | part {c : Claim T} (t : T) : (c.stand t).claims → ClaimStep c (c.move t .parted)
  /-- The claimant clears the flag and goes on. -/
  | drop {c : Claim T} (t : T) : (c.stand t).claims → (∀ i, c.stand i ≠ .seeking) →
    ClaimStep c ((c.set false).move t .parted)
  | release {c : Claim T} (t : T) : (c.stand t).claims → ClaimStep c ((c.set false).move t .outside)
  /-- The flag is cleared while nobody claims. -/
  | clear {c : Claim T} : (∀ i, ¬ (c.stand i).claims) → ClaimStep c (c.set false)

/-- At most one thread is a claimant, while it holds the claim the flag is set, and
once it has parted with a cleared flag nobody seeks the claim. -/
structure Claim.Exclusive (c : Claim T) : Prop where
  held : ∀ t, c.stand t = .holding → c.flag = true
  one : ∀ t i, (c.stand t).claims → (c.stand i).claims → t = i
  alone : ∀ t i, c.stand t = .parted → c.flag = false → c.stand i ≠ .seeking

namespace Claim.Exclusive

variable {c c' : Claim T}

omit [DecidableEq T] in
theorem other (h : c.Exclusive) {t i : T} (ht : (c.stand t).claims) (hi : i ≠ t) : ¬ (c.stand i).claims :=
  fun hc => hi (h.one i t hc ht)

omit [DecidableEq T] in
theorem nobody (h : c.Exclusive) (hf : c.flag = false) (hp : ∀ i, c.stand i ≠ .parted) (i : T) :
    ¬ (c.stand i).claims := by
  intro hc
  cases hi : c.stand i with
  | outside | seeking => simp [hi, Stand.claims] at hc
  | holding => simp [h.held i hi] at hf
  | parted => exact hp i hi

theorem stand_move (c : Claim T) (b : Bool) (t : T) (st : Stand) (i : T) :
    ((c.set b).move t st).stand i = if i = t then st else c.stand i :=
  Function.update_apply ..

/-- The claimant moves on. -/
theorem move (h : c.Exclusive) {t : T} {b : Bool} {st : Stand} (ht : (c.stand t).claims)
    (hst : st = .outside ∨ st = .parted) (hb : st = .parted → b = false → ∀ i, c.stand i ≠ .seeking) :
    ((c.set b).move t st).Exclusive := by
  have hmoved : ∀ i, (((c.set b).move t st).stand i).claims → i = t := by
    intro i hi
    by_contra hne
    rw [stand_move, if_neg hne] at hi
    exact h.other ht hne hi
  refine ⟨?_, ?_, ?_⟩
  · intro i hi
    obtain rfl := hmoved i (hi ▸ trivial)
    rw [stand_move, if_pos rfl] at hi
    rcases hst with rfl | rfl <;> cases hi
  · intro i j hi hj
    rw [hmoved i hi, hmoved j hj]
  · intro i j hi hf
    obtain rfl := hmoved i (hi ▸ trivial)
    rw [stand_move, if_pos rfl] at hi
    rw [stand_move]
    split
    · exact hi ▸ nofun
    · exact hb hi hf j

/-- A thread without the claim moves. -/
theorem pass (h : c.Exclusive) {t : T} {st : Stand} (ht : ¬ (c.stand t).claims) (hst : ¬ st.claims)
    (hp : st = .seeking → ∀ i, c.stand i ≠ .parted) : (c.move t st).Exclusive := by
  have hold : ∀ i, ((c.move t st).stand i).claims → i ≠ t ∧ (c.move t st).stand i = c.stand i := by
    intro i hi
    have hne : i ≠ t := by
      rintro rfl
      exact hst (by simpa [Claim.move] using hi)
    exact ⟨hne, Function.update_of_ne hne ..⟩
  refine ⟨?_, ?_, ?_⟩
  · intro i hi
    exact h.held i ((hold i (hi ▸ trivial)).2.symm.trans hi)
  · intro i j hi hj
    exact h.one i j ((hold i hi).2 ▸ hi) ((hold j hj).2 ▸ hj)
  · intro i j hi hf
    have hparted := (hold i (hi ▸ trivial)).2.symm.trans hi
    by_cases hj : j = t
    · subst hj
      rw [show (c.move j st).stand j = st from Function.update_self ..]
      exact fun hseek => hp hseek i hparted
    · rw [show (c.move t st).stand j = c.stand j from Function.update_of_ne hj ..]
      exact h.alone i j hparted hf

theorem step (h : c.Exclusive) (hs : ClaimStep c c') : c'.Exclusive := by
  cases hs with
  | quiet => exact h
  | seek t ht hp => exact h.pass ht (fun hc => hc) fun _ => hp
  | leave t ht => exact h.pass ht (fun hc => hc) nofun
  | take t hf hp =>
    have hparted : ∀ i, c.stand i ≠ .parted := by
      rcases hp with hseek | hp
      · exact fun i hi => h.alone i t hi hf hseek
      · exact hp
    have hone : ∀ i, (((c.set true).move t .holding).stand i).claims → i = t := by
      intro i hi
      by_contra hne
      rw [stand_move, if_neg hne] at hi
      exact h.nobody hf hparted i hi
    refine ⟨fun _ _ => rfl, ?_, fun _ _ _ hf => nomatch hf⟩
    intro i j hi hj
    rw [hone i hi, hone j hj]
  | part t ht =>
    have hb : c.flag = false → ∀ i, c.stand i ≠ .seeking := by
      intro hf i
      cases hst : c.stand t with
      | outside | seeking => simp [hst, Stand.claims] at ht
      | holding => simp [h.held t hst] at hf
      | parted => exact h.alone t i hst hf
    exact h.move ht (.inr rfl) fun _ => hb
  | drop t ht hseek => exact h.move ht (.inr rfl) fun _ _ => hseek
  | release t ht => exact h.move ht (.inl rfl) nofun
  | clear hnone =>
    refine ⟨fun i hi => ?_, h.one, fun i _ hi => ?_⟩
    all_goals exact absurd (show (c.stand i).claims from hi ▸ trivial) (hnone i)

end Claim.Exclusive

end Runs
