/-
Meters of fixed windows: a counter that starts again in every window, against the log of what was
granted.

* `total`: what a log grants in a window;
* `Meter`, `Meter.Tracks`: the counter, and that it says what the log grants;
* `Meter.Tracks.later`, `Meter.Tracks.grant`: time passes, a grant is booked;
* `Meter.Tracks.total_grant_le`: **a limit checked against the meter holds in every window**.
-/
import Mathlib.Tactic

namespace OhecoBroker.Lib

/-- What a log of windows and amounts grants in window `w`. -/
def total (log : List (ℕ × ℕ)) (w : ℕ) : ℕ := ((log.filter fun g => g.1 = w).map Prod.snd).sum

/-- Grants of two logs add up. -/
lemma total_append (log log' : List (ℕ × ℕ)) (w : ℕ) :
    total (log ++ log') w = total log w + total log' w := by
  simp [total]

lemma total_grant (log : List (ℕ × ℕ)) (w n v : ℕ) :
    total (log ++ [(w, n)]) v = total log v + if w = v then n else 0 := by
  rw [total_append]
  by_cases h : w = v <;> simp [total, h]

lemma total_eq_zero {log : List (ℕ × ℕ)} {w : ℕ} (h : ∀ g ∈ log, g.1 ≠ w) : total log w = 0 := by
  rw [total, List.filter_eq_nil_iff.mpr fun g hg => by simpa using h g hg]
  rfl

/-- A counter and the window it counts in. -/
structure Meter where
  window : ℕ
  amount : ℕ

namespace Meter

variable {x : Meter} {log : List (ℕ × ℕ)} {w v n limit : ℕ}

/-- What the meter says was granted in window `w`. -/
def spent (x : Meter) (w : ℕ) : ℕ := if x.window = w then x.amount else 0

@[simp] lemma spent_self (w n : ℕ) : spent ⟨w, n⟩ w = n := if_pos rfl

/-- The meter says what the log grants in the current window `w`, and nothing is later. -/
structure Tracks (x : Meter) (log : List (ℕ × ℕ)) (w : ℕ) : Prop where
  window : x.window ≤ w
  past : ∀ g ∈ log, g.1 ≤ w
  spent : x.spent w = total log w

lemma Tracks.later (h : x.Tracks log w) (hw : w ≤ v) : x.Tracks log v := by
  refine ⟨h.window.trans hw, fun g hg => (h.past g hg).trans hw, ?_⟩
  rcases hw.eq_or_lt with rfl | hlt
  · exact h.spent
  · have hmeter : x.window ≠ v := (h.window.trans_lt hlt).ne
    rw [Meter.spent, if_neg hmeter, total_eq_zero fun g hg => ((h.past g hg).trans_lt hlt).ne]

lemma Tracks.roll (h : x.Tracks log w) : Tracks ⟨w, x.spent w⟩ log w :=
  ⟨le_rfl, h.past, by rw [spent_self, h.spent]⟩

lemma Tracks.grant (h : x.Tracks log w) (n : ℕ) :
    Tracks ⟨w, x.spent w + n⟩ (log ++ [(w, n)]) w where
  window := le_rfl
  past g hg := by
    rcases List.mem_append.mp hg with hg | hg
    · exact h.past g hg
    · rw [List.mem_singleton.mp hg]
  spent := by rw [spent_self, total_grant, if_pos rfl, h.spent]

lemma Tracks.fresh (hpast : ∀ g ∈ log, g.1 ≤ w) (hnone : total log w = 0) :
    Tracks ⟨0, 0⟩ log w where
  window := Nat.zero_le _
  past := hpast
  spent := by rw [hnone, Meter.spent, ite_self]

/-- **A checked limit holds.** -/
theorem Tracks.total_grant_le (h : x.Tracks log w) (hlimit : ∀ v, total log v ≤ limit)
    (hn : x.spent w + n ≤ limit) (v : ℕ) : total (log ++ [(w, n)]) v ≤ limit := by
  rw [total_grant]
  split
  · rename_i hv
    rw [← hv, ← h.spent]
    exact hn
  · exact hlimit v

end Meter

end OhecoBroker.Lib
