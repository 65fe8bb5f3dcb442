/-
Fixed-width big-endian integers on byte strings.

* `beBytes`, `beNat`: writing a number, and reading one;
* `beNat_beBytes`, `beNat_beBytes_of_lt`: a number is read back up to what does not fit;
* `beBytes_beNat`: a byte string is the encoding of the number it denotes.
-/
import Mathlib.Tactic

namespace OhecoBroker.Lib

/-- The `w` low bytes of `n`, most significant first. -/
def beBytes : ℕ → ℕ → List UInt8
  | 0, _ => []
  | w + 1, n => UInt8.ofNat (n / 256 ^ w) :: beBytes w n

/-- The number a big-endian byte string denotes. -/
def beNat (bs : List UInt8) : ℕ := bs.foldl (fun acc b => acc * 256 + b.toNat) 0

@[simp] lemma length_beBytes (w n : ℕ) : (beBytes w n).length = w := by
  induction w with
  | zero => rfl
  | succ w ih => simp [beBytes, ih]

lemma foldl_beBytes (w n acc : ℕ) :
    (beBytes w n).foldl (fun acc b => acc * 256 + b.toNat) acc
      = acc * 256 ^ w + n % 256 ^ w := by
  induction w generalizing acc with
  | zero => simp [beBytes, Nat.mod_one]
  | succ w ih =>
    have hmod : n % 256 ^ (w + 1) = 256 ^ w * (n / 256 ^ w % 256) + n % 256 ^ w := by
      rw [pow_succ, Nat.mod_mul]
      omega
    rw [beBytes, List.foldl_cons, ih, hmod, UInt8.toNat_ofNat']
    ring

theorem beNat_beBytes (w n : ℕ) : beNat (beBytes w n) = n % 256 ^ w := by
  rw [beNat, foldl_beBytes]
  simp

/-- A number that fits is read back. -/
lemma beNat_beBytes_of_lt {w n : ℕ} (h : n < 256 ^ w) : beNat (beBytes w n) = n := by
  rw [beNat_beBytes, Nat.mod_eq_of_lt h]

lemma foldl_eq_beNat (bs : List UInt8) (acc : ℕ) :
    bs.foldl (fun acc b => acc * 256 + b.toNat) acc = acc * 256 ^ bs.length + beNat bs := by
  induction bs generalizing acc with
  | nil => simp [beNat]
  | cons b bs ih =>
    have hcons : beNat (b :: bs) = b.toNat * 256 ^ bs.length + beNat bs := by
      rw [beNat, List.foldl_cons, ih]
      simp
    rw [List.foldl_cons, ih, hcons, List.length_cons, pow_succ]
    ring

lemma beNat_cons (b : UInt8) (bs : List UInt8) :
    beNat (b :: bs) = b.toNat * 256 ^ bs.length + beNat bs := by
  rw [beNat, List.foldl_cons, foldl_eq_beNat]
  simp

lemma foldl_lt (bs : List UInt8) (acc : ℕ) :
    bs.foldl (fun acc b => acc * 256 + b.toNat) acc < (acc + 1) * 256 ^ bs.length := by
  induction bs generalizing acc with
  | nil => simp
  | cons b bs ih =>
    have hb : b.toNat < 256 := b.toNat_lt
    calc (b :: bs).foldl (fun acc b => acc * 256 + b.toNat) acc
        < (acc * 256 + b.toNat + 1) * 256 ^ bs.length := ih _
      _ ≤ (acc + 1) * 256 * 256 ^ bs.length := Nat.mul_le_mul_right _ (by omega)
      _ = (acc + 1) * 256 ^ (b :: bs).length := by rw [List.length_cons, pow_succ]; ring

theorem beNat_lt (bs : List UInt8) : beNat bs < 256 ^ bs.length := by
  simpa [beNat] using foldl_lt bs 0

/-- What does not fit is not written. -/
lemma beBytes_mod (w n : ℕ) : beBytes w (n % 256 ^ w) = beBytes w n := by
  suffices h : ∀ k, beBytes w (n % 256 ^ (w + k)) = beBytes w n from h 0
  induction w with
  | zero => exact fun _ => rfl
  | succ w ih =>
    intro k
    have hdigit : n % 256 ^ (w + 1 + k) / 256 ^ w % 256 = n / 256 ^ w % 256 := by
      rw [show w + 1 + k = w + (1 + k) by omega, pow_add, Nat.mod_mul_right_div_self,
        Nat.mod_mod_of_dvd _ ⟨256 ^ k, by ring⟩]
    have hhead : UInt8.ofNat (n % 256 ^ (w + 1 + k) / 256 ^ w) = UInt8.ofNat (n / 256 ^ w) := by
      rw [← UInt8.toNat_inj, UInt8.toNat_ofNat', UInt8.toNat_ofNat']
      exact hdigit
    rw [beBytes, beBytes, hhead, show w + 1 + k = w + (k + 1) by omega, ih]

theorem beBytes_beNat (bs : List UInt8) : beBytes bs.length (beNat bs) = bs := by
  induction bs with
  | nil => rfl
  | cons b bs ih =>
    have hlt := beNat_lt bs
    have hpos : 0 < 256 ^ bs.length := by positivity
    have hdiv : (b.toNat * 256 ^ bs.length + beNat bs) / 256 ^ bs.length = b.toNat := by
      rw [Nat.mul_comm, Nat.mul_add_div hpos, Nat.div_eq_of_lt hlt, Nat.add_zero]
    have hmod : (b.toNat * 256 ^ bs.length + beNat bs) % 256 ^ bs.length = beNat bs := by
      rw [Nat.mul_comm, Nat.mul_add_mod, Nat.mod_eq_of_lt hlt]
    rw [List.length_cons, beBytes, beNat_cons, hdiv, UInt8.ofNat_toNat, ← beBytes_mod, hmod, ih]

end OhecoBroker.Lib
