/-
A sliding window over sequence numbers, with which a receiver takes each at most once.

* `ReplayWindow`, `ReplayWindow.advance`, `ReplayWindow.mark`: the highest number so far and the
  bits below it;
* `ReplayWindow.Closed`, `ReplayWindow.closed_mark`, `ReplayWindow.Closed.advance`: a number that
  was taken is closed, and stays so;
* `ReplayWindow.closed_of_advance`, `ReplayWindow.closed_of_mark`: of the numbers the window
  covers only those that were recorded are closed.
-/
import Mathlib.Tactic

namespace OhecoBroker.Lib

/-- The highest number seen; bit `i` records the number `i` below it. -/
structure ReplayWindow (w : ℕ) where
  high : ℕ := 0
  bits : BitVec w := 0
  deriving DecidableEq

namespace ReplayWindow

variable {w : ℕ} {r : ReplayWindow w} {m n : ℕ}

/-- Move the window up to a number above it. -/
def advance (r : ReplayWindow w) (n : ℕ) : ReplayWindow w :=
  if r.high < n then ⟨n, if w ≤ n - r.high then 0 else r.bits <<< (n - r.high)⟩ else r

/-- Record a number of the window. -/
def mark (r : ReplayWindow w) (n : ℕ) : ReplayWindow w :=
  { r with bits := r.bits ||| 1#w <<< (r.high - n) }

/-- The number is below the window or recorded in it. -/
def Closed (r : ReplayWindow w) (n : ℕ) : Prop :=
  w ≤ r.high - n ∨ r.bits.getLsbD (r.high - n) = true

instance (r : ReplayWindow w) (n : ℕ) : Decidable (r.Closed n) :=
  inferInstanceAs (Decidable (_ ∨ _))

lemma getLsbD_or_shiftLeft (b : BitVec w) {i j : ℕ} (hj : j < w) :
    (b ||| 1#w <<< i).getLsbD j = (b.getLsbD j || decide (i = j)) := by
  rw [BitVec.getLsbD_or, ← BitVec.twoPow_eq, BitVec.getLsbD_twoPow]
  by_cases h : i = j
  · simp [h, hj]
  · simp [h]

/-- The window only moves up. -/
@[simp] lemma high_advance (r : ReplayWindow w) (n : ℕ) : (r.advance n).high = max r.high n := by
  unfold advance
  split
  · next hlt => exact (max_eq_right hlt.le).symm
  · next hge => exact (max_eq_left (Nat.not_lt.mp hge)).symm

@[simp] lemma high_mark (r : ReplayWindow w) (n : ℕ) : (r.mark n).high = r.high := rfl

lemma getLsbD_mark {i : ℕ} (hi : i < w) : (r.mark n).bits.getLsbD i =
    (r.bits.getLsbD i || decide (r.high - n = i)) :=
  getLsbD_or_shiftLeft r.bits hi

lemma Closed.advance (h : r.Closed n) (hn : n ≤ r.high) (m : ℕ) : (r.advance m).Closed n := by
  unfold ReplayWindow.advance
  split
  · next hlt =>
    by_cases hfar : w ≤ m - n
    · exact .inl hfar
    refine .inr ?_
    have hbit : r.bits.getLsbD (r.high - n) = true := h.resolve_left (by omega)
    have hshift : m - n - (m - r.high) = r.high - n := by omega
    simp only [if_neg (show ¬ w ≤ m - r.high by omega), BitVec.getLsbD_shiftLeft, hshift, hbit,
      Bool.and_true, Bool.and_eq_true, decide_eq_true_eq, Bool.not_eq_true',
      decide_eq_false_iff_not]
    omega
  · exact h

lemma Closed.mark (h : r.Closed n) (m : ℕ) : (r.mark m).Closed n := by
  by_cases hfar : w ≤ r.high - n
  · exact .inl hfar
  · refine .inr ?_
    rw [high_mark, getLsbD_mark (by omega), h.resolve_left hfar, Bool.true_or]

/-- A recorded number is closed. -/
lemma closed_mark (r : ReplayWindow w) (n : ℕ) : (r.mark n).Closed n := by
  by_cases hfar : w ≤ r.high - n
  · exact .inl hfar
  · refine .inr ?_
    rw [high_mark, getLsbD_mark (by omega), decide_eq_true rfl, Bool.or_true]

lemma closed_of_advance (h : (r.advance m).Closed n) (hn : n ≤ (r.advance m).high)
    (hw : (r.advance m).high - n < w) : n ≤ r.high ∧ r.Closed n := by
  unfold ReplayWindow.advance at h hn hw
  split at h
  · next hlt =>
    simp only [if_pos hlt] at hw hn
    have hbit := h.resolve_left (Nat.not_le.mpr hw)
    split at hbit
    · simp at hbit
    simp only [BitVec.getLsbD_shiftLeft, Bool.and_eq_true, decide_eq_true_eq, Bool.not_eq_true',
      decide_eq_false_iff_not] at hbit
    have hshift : m - n - (m - r.high) = r.high - n := by omega
    exact ⟨by omega, .inr (hshift ▸ hbit.2)⟩
  · next hge =>
    rw [if_neg hge] at hn
    exact ⟨hn, h⟩

lemma closed_of_mark (h : (r.mark m).Closed n) (hm : m ≤ r.high) (hn : n ≤ r.high) :
    n = m ∨ r.Closed n := by
  by_cases hfar : w ≤ r.high - n
  · exact .inr (.inl hfar)
  have hbit : (r.mark m).bits.getLsbD (r.high - n) = true := h.resolve_left hfar
  rw [getLsbD_mark (by omega), Bool.or_eq_true, decide_eq_true_eq] at hbit
  rcases hbit with hbit | hbit
  · exact .inr (.inr hbit)
  · exact .inl (by omega)

end ReplayWindow

end OhecoBroker.Lib
