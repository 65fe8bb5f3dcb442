/-
A byte string cut into pieces of a fixed size, and a buffer that is filled piece by piece in any
order.

* `pieceSize`, `sum_pieceSize`: the sizes of the pieces;
* `filledSize`, `filledSize_eq_iff`: **the pieces that are there add up to the whole exactly when
  all of them are there**;
* `slice`, `overwrite`, `slice_overwrite`: reading and writing a piece of a buffer;
* `eq_of_slices`: two strings with the same pieces are the same.
-/
import Mathlib.Algebra.BigOperators.Group.Finset.Basic
import Mathlib.Algebra.Order.BigOperators.Group.Finset
import Mathlib.Tactic

namespace OhecoBroker.Lib

open List

/-! ### Sizes -/

/-- The size of the `i`th piece of `c` bytes in a string of `t` bytes. -/
def pieceSize (c t i : ℕ) : ℕ := min c (t - c * i)

lemma sum_pieceSize (c t n : ℕ) : ∑ i ∈ Finset.range n, pieceSize c t i = min (c * n) t := by
  induction n with
  | zero => simp
  | succ n ih =>
    rw [Finset.sum_range_succ, ih, pieceSize, Nat.mul_succ]
    omega

variable {c t n o : ℕ}

lemma pieceSize_pos {i : ℕ} (hc : 0 < c) : 0 < pieceSize c t i ↔ c * i < t := by
  unfold pieceSize
  omega

/-- The bytes of those of the first `n` pieces that are in `s`. -/
def filledSize (c t n : ℕ) (s : ℕ → Bool) : ℕ :=
  ∑ i ∈ Finset.range n, if s i then pieceSize c t i else 0

lemma filledSize_empty (c t n : ℕ) : filledSize c t n (fun _ => false) = 0 := by
  simp [filledSize]

/-- A new piece adds its size. -/
lemma filledSize_insert {i : ℕ} {s s' : ℕ → Bool} (hi : i < n) (hs : s i = false)
    (hs' : ∀ j < n, s' j = (s j || decide (i = j))) :
    filledSize c t n s' = filledSize c t n s + pieceSize c t i := by
  have hmem : i ∈ Finset.range n := Finset.mem_range.mpr hi
  unfold filledSize
  rw [← Finset.add_sum_erase _ _ hmem, ← Finset.add_sum_erase (Finset.range n) (fun j =>
    if s j then pieceSize c t j else 0) hmem]
  have hrest : ∑ j ∈ (Finset.range n).erase i, (if s' j then pieceSize c t j else 0) =
      ∑ j ∈ (Finset.range n).erase i, if s j then pieceSize c t j else 0 := by
    refine Finset.sum_congr rfl fun j hj => ?_
    obtain ⟨hne, hj⟩ := Finset.mem_erase.mp hj
    simp [hs' j (Finset.mem_range.mp hj), Ne.symm hne]
  simp only [hrest, hs' i hi, hs, decide_true, Bool.or_true, if_true]
  simp [add_comm]

theorem filledSize_eq_iff {s : ℕ → Bool} (hc : 0 < c) (ht : t ≤ c * n) :
    filledSize c t n s = t ↔ ∀ i < n, c * i < t → s i = true := by
  have hall : ∑ i ∈ Finset.range n, pieceSize c t i = t := by
    rw [sum_pieceSize, min_eq_right ht]
  have hle : ∀ i ∈ Finset.range n, (if s i then pieceSize c t i else 0) ≤ pieceSize c t i := by
    intro i _
    split
    · exact le_rfl
    · exact Nat.zero_le _
  have hiff := Finset.sum_eq_sum_iff_of_le hle
  rw [hall] at hiff
  rw [filledSize, hiff]
  refine ⟨fun h i hi hlt => ?_, fun h i hi => ?_⟩
  · have hi' := h i (Finset.mem_range.mpr hi)
    have hpos := (pieceSize_pos hc).mpr hlt
    by_contra hs
    rw [if_neg hs] at hi'
    omega
  by_cases hlt : c * i < t
  · rw [if_pos (h i (Finset.mem_range.mp hi) hlt)]
  have hzero : pieceSize c t i = 0 := by
    unfold pieceSize
    omega
  rw [hzero, ite_self]

/-! ### Contents -/

variable {α : Type*}

def slice (data : List α) (o n : ℕ) : List α := (data.drop o).take n

def overwrite (data : List α) (o : ℕ) (bs : List α) : List α :=
  data.take o ++ bs ++ data.drop (o + bs.length)

lemma length_slice {data : List α} (h : o + n ≤ data.length) : (slice data o n).length = n := by
  simp only [slice, length_take, length_drop]
  omega

/-- A buffer keeps its length. -/
lemma length_overwrite {data bs : List α} (h : o + bs.length ≤ data.length) :
    (overwrite data o bs).length = data.length := by
  simp only [overwrite, length_append, length_take, length_drop]
  omega

lemma getElem?_slice {data : List α} {j : ℕ} (h : j < n) : (slice data o n)[j]? = data[o + j]? := by
  rw [slice, List.getElem?_take_of_lt h, List.getElem?_drop]

/-- What was written is read back. -/
lemma slice_overwrite {data bs : List α} (h : o + bs.length ≤ data.length) :
    slice (overwrite data o bs) o bs.length = bs := by
  have ho : (data.take o).length = o := by
    rw [length_take]
    omega
  rw [slice, overwrite, append_assoc, drop_left' ho, take_left]

lemma slice_overwrite_of_disjoint {data bs : List α} {o' : ℕ}
    (h : o + bs.length ≤ data.length) (hd : o' + n ≤ o ∨ o + bs.length ≤ o') :
    slice (overwrite data o bs) o' n = slice data o' n := by
  refine ext_getElem? fun j => ?_
  by_cases hj : j < n
  · rw [getElem?_slice hj, getElem?_slice hj]
    have ho : (data.take o).length = o := by
      rw [length_take]
      omega
    rcases hd with hd | hd
    · rw [overwrite, append_assoc, List.getElem?_append_left (by omega),
        List.getElem?_take_of_lt (by omega)]
    rw [overwrite, List.getElem?_append_right (by simp only [length_append, ho]; omega),
      List.getElem?_drop]
    congr 1
    simp only [length_append, ho]
    omega
  · rw [slice, slice, List.getElem?_take_eq_none (by omega), List.getElem?_take_eq_none (by omega)]

lemma eq_of_slices {data d : List α} (hc : 0 < c) (hlen : data.length = d.length)
    (h : ∀ i, c * i < d.length →
      slice data (c * i) (pieceSize c d.length i) = slice d (c * i) (pieceSize c d.length i)) :
    data = d := by
  refine ext_getElem? fun j => ?_
  by_cases hj : j < d.length
  · have hdiv := Nat.div_add_mod j c
    have hmod := Nat.mod_lt j hc
    have hi : c * (j / c) < d.length := by omega
    have hsize : j % c < pieceSize c d.length (j / c) := by
      unfold pieceSize
      omega
    have hget := congrArg (·[j % c]?) (h (j / c) hi)
    simpa only [getElem?_slice hsize, hdiv] using hget
  · rw [List.getElem?_eq_none (by omega), List.getElem?_eq_none (by omega)]

end OhecoBroker.Lib
