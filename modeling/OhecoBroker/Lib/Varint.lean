/-
Variable-length integers whose first two bits give the length (the integers of QUIC).

* `IsVarint`: a byte string with its value;
* `isVarint_cons_iff`: what a reader computes from the first byte on.
-/
import OhecoBroker.Lib.BigEndian

namespace OhecoBroker.Lib

/-- The byte string is one variable-length integer, and its value is `v`. -/
def IsVarint (w : List UInt8) (v : ℕ) : Prop :=
  ∃ k < 4, w.length = 2 ^ k ∧ v < 2 ^ (8 * 2 ^ k - 2) ∧ beNat w = k * 2 ^ (8 * 2 ^ k - 2) + v

lemma not_isVarint_nil {v : ℕ} : ¬IsVarint [] v := by
  rintro ⟨k, -, hk, -⟩
  exact absurd hk.symm (by simp)

theorem isVarint_cons_iff {b : UInt8} {t : List UInt8} {v : ℕ} :
    IsVarint (b :: t) v ↔
      t.length + 1 = 2 ^ (b.toNat / 64) ∧
        v = t.foldl (fun acc b => acc * 256 + b.toNat) (b.toNat % 64) := by
  have hb := b.toNat_lt
  have hpow : ∀ k, t.length + 1 = 2 ^ k → 2 ^ (8 * 2 ^ k - 2) = 64 * 256 ^ t.length := by
    intro k hk
    rw [← hk, show 8 * (t.length + 1) - 2 = 6 + 8 * t.length by omega, pow_add, pow_mul]
    norm_num
  have ht := beNat_lt t
  have hvalue : beNat (b :: t) = b.toNat / 64 * (64 * 256 ^ t.length)
      + (b.toNat % 64 * 256 ^ t.length + beNat t) := by
    have : b.toNat = 64 * (b.toNat / 64) + b.toNat % 64 := (Nat.div_add_mod _ _).symm
    rw [beNat_cons]
    conv_lhs => rw [this]
    ring
  have hlow : b.toNat % 64 * 256 ^ t.length + beNat t < 64 * 256 ^ t.length := by
    calc b.toNat % 64 * 256 ^ t.length + beNat t
        < (b.toNat % 64 + 1) * 256 ^ t.length := by rw [Nat.add_mul, Nat.one_mul]; omega
      _ ≤ 64 * 256 ^ t.length := Nat.mul_le_mul_right _ (by omega)
  rw [foldl_eq_beNat]
  constructor
  · rintro ⟨k, hk, hlen, hv, hbe⟩
    rw [List.length_cons] at hlen
    rw [hpow k hlen] at hv hbe
    rw [hvalue] at hbe
    -- both sides are a quotient and a remainder by `64 * 256 ^ t.length`
    have hdiv := congrArg (· / (64 * 256 ^ t.length)) hbe
    have hmod := congrArg (· % (64 * 256 ^ t.length)) hbe
    simp only [Nat.mul_add_mod', Nat.mod_eq_of_lt hv, Nat.mod_eq_of_lt hlow] at hmod
    have hpos : 0 < 64 * 256 ^ t.length := by positivity
    simp only [Nat.add_comm (_ * (64 * 256 ^ t.length)), Nat.add_mul_div_right _ _ hpos,
      Nat.div_eq_of_lt hv, Nat.div_eq_of_lt hlow, Nat.zero_add] at hdiv
    exact ⟨hdiv ▸ hlen, hmod.symm⟩
  · rintro ⟨hlen, rfl⟩
    exact ⟨b.toNat / 64, by omega, hlen, by rwa [hpow _ hlen], by rw [hpow _ hlen, hvalue]⟩

end OhecoBroker.Lib
