/-
# `Bluestone.Library.Words` — sums of signed 64-bit integers

`wrap` is what a signed 64-bit integer holds of a number, and `Fits` says that it holds
the number itself.
-/
import Mathlib.Algebra.Group.Int.Defs
import Mathlib.Algebra.Group.Nat.Defs

namespace Words

def wrap (n : Int) : Int := n.bmod (2 ^ 64)

def Fits (n : Int) : Prop := -2 ^ 63 ≤ n ∧ n < 2 ^ 63

instance (n : Int) : Decidable (Fits n) := inferInstanceAs (Decidable (_ ∧ _))

theorem wrap_eq {n : Int} (h : Fits n) : wrap n = n := by
  obtain ⟨hlow, hhigh⟩ := h
  rw [wrap, Int.bmod_eq_of_le] <;> omega

theorem wrap_past {n : Int} (hlow : 2 ^ 63 ≤ n) (hhigh : n < 2 ^ 64) : wrap n = n - 2 ^ 64 := by
  rw [wrap, Int.bmod_def]
  omega

end Words
