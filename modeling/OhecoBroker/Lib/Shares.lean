/-
A shared total and the shares of finitely many parties: when one party moves and the total is
booked by the same amount, the total stays the sum.

* `sum_update_add`, `eq_sum_update`: parties under an index type;
* `sum_map_set`, `sum_map_eraseIdx`: parties in a list;
* `filter_map_set_sublist`, `filter_map_set_perm`: the names of chosen parties of a list.
-/
import Mathlib.Algebra.BigOperators.Group.Finset.Basic
import Mathlib.Tactic

namespace OhecoBroker.Lib

open List

variable {ι α M : Type*} [Fintype ι] [DecidableEq ι] [AddCommMonoid M]

lemma sum_update_add (m : α → M) (f : ι → α) (i : ι) (a : α) :
    ∑ j, m (Function.update f i a j) + m (f i) = ∑ j, m (f j) + m a := by
  have hrest : ∑ j ∈ Finset.univ.erase i, m (Function.update f i a j)
      = ∑ j ∈ Finset.univ.erase i, m (f j) :=
    Finset.sum_congr rfl fun j hj => by rw [Function.update_of_ne (Finset.ne_of_mem_erase hj)]
  rw [← Finset.add_sum_erase _ _ (Finset.mem_univ i), hrest, Function.update_self,
    ← Finset.add_sum_erase Finset.univ (fun j => m (f j)) (Finset.mem_univ i)]
  abel

theorem eq_sum_update [IsRightCancelAdd M] {m : α → M} {f : ι → α} {i : ι} {a : α}
    {total total' : M} (h : total = ∑ j, m (f j))
    (hstep : total' + m (f i) = total + m a) :
    total' = ∑ j, m (Function.update f i a j) := by
  refine add_right_cancel (b := m (f i)) ?_
  rw [hstep, h, sum_update_add]

variable {ls : List α} {i : ℕ} {a b : α}

lemma sum_map_set (m : α → M) (h : ls[i]? = some a) :
    ((ls.set i b).map m).sum + m a = (ls.map m).sum + m b := by
  induction ls generalizing i with
  | nil => simp at h
  | cons c ls ih =>
    cases i with
    | zero =>
      obtain rfl : c = a := by simpa using h
      simp only [set_cons_zero, map_cons, sum_cons]
      abel
    | succ i =>
      simp only [set_cons_succ, map_cons, sum_cons]
      rw [add_assoc, ih (by simpa using h), add_assoc]

/-- One party of a list leaves. -/
lemma sum_map_eraseIdx (m : α → M) (h : ls[i]? = some a) :
    ((ls.eraseIdx i).map m).sum + m a = (ls.map m).sum := by
  induction ls generalizing i with
  | nil => simp at h
  | cons c ls ih =>
    cases i with
    | zero =>
      obtain rfl : c = a := by simpa using h
      simp only [eraseIdx_cons_zero, map_cons, sum_cons]
      abel
    | succ i =>
      simp only [eraseIdx_cons_succ, map_cons, sum_cons]
      rw [add_assoc, ih (by simpa using h)]

variable {β : Type*} {p : α → Bool} {f : α → β}

lemma filter_map_set_sublist (h : ls[i]? = some a) (hp : p b = true → p a = true ∧ f b = f a) :
    List.Sublist (((ls.set i b).filter p).map f) ((ls.filter p).map f) := by
  induction ls generalizing i with
  | nil => simp at h
  | cons c ls ih =>
    cases i with
    | zero =>
      obtain rfl : c = a := by simpa using h
      rw [set_cons_zero, filter_cons, filter_cons]
      by_cases hb : p b = true
      · obtain ⟨hc, hname⟩ := hp hb
        rw [if_pos hb, if_pos hc, map_cons, map_cons, hname]
      rw [if_neg hb]
      split
      · exact sublist_cons_self _ _
      · exact List.Sublist.refl _
    | succ i =>
      have hrest := ih (i := i) (by simpa using h)
      rw [set_cons_succ, filter_cons, filter_cons]
      split
      · exact hrest.cons_cons _
      · exact hrest

lemma filter_map_set_perm (h : ls[i]? = some a) (ha : p a = false) (hb : p b = true) :
    List.Perm (((ls.set i b).filter p).map f) (f b :: (ls.filter p).map f) := by
  induction ls generalizing i with
  | nil => simp at h
  | cons c ls ih =>
    cases i with
    | zero =>
      obtain rfl : c = a := by simpa using h
      rw [set_cons_zero, filter_cons, filter_cons, if_pos hb,
        if_neg (by simp [ha]), map_cons]
    | succ i =>
      have hrest := ih (i := i) (by simpa using h)
      rw [set_cons_succ, filter_cons, filter_cons]
      split
      · exact (hrest.cons (f c)).trans (List.Perm.swap _ _ _)
      · exact hrest

end OhecoBroker.Lib
