/-
Texts cut at a separator (`splitN`, `splitN_append`), and the last `w` decimal digits of a number
(`digits`).
-/
import Mathlib.Data.List.TakeWhile
import Mathlib.Tactic

namespace OhecoBroker.Lib

variable {α : Type} [DecidableEq α]

/-- Cut at the first `n - 1` separators. -/
def splitN (sep : α) : ℕ → List α → List (List α)
  | 0, _ => []
  | 1, s => [s]
  | n + 2, s => match s.dropWhile (· ≠ sep) with
    | [] => [s]
    | _ :: rest => s.takeWhile (· ≠ sep) :: splitN sep (n + 1) rest

lemma splitN_append {sep : α} {a : List α} (ha : sep ∉ a) (n : ℕ) (b : List α) :
    splitN sep (n + 2) (a ++ sep :: b) = a :: splitN sep (n + 1) b := by
  have hall : ∀ x ∈ a, decide (x ≠ sep) = true := fun x hx =>
    decide_eq_true fun he => ha (he ▸ hx)
  have hdrop : (a ++ sep :: b).dropWhile (· ≠ sep) = sep :: b := by
    rw [List.dropWhile_append_of_pos hall, List.dropWhile_cons_of_neg (by simp)]
  have htake : (a ++ sep :: b).takeWhile (· ≠ sep) = a := by
    rw [List.takeWhile_append_of_pos hall, List.takeWhile_cons_of_neg (by simp), List.append_nil]
  rw [splitN, hdrop, htake]

/-- The last `w` decimal digits of `n`, leading zeros included. -/
def digits : ℕ → ℕ → List Char
  | 0, _ => []
  | w + 1, n => digits w (n / 10) ++ [Nat.digitChar (n % 10)]

@[simp] lemma length_digits (w n : ℕ) : (digits w n).length = w := by
  induction w generalizing n with
  | zero => rfl
  | succ w ih => rw [digits, List.length_append, ih, List.length_singleton]

end OhecoBroker.Lib
