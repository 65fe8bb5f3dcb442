/-
The check of a peer's QUIC transport parameters (`crypto.c`): is the connection unambiguously
encrypted?

* `quicVarint`, `nextParam`, `noCryptoOff`, `paramsLoop`: the code;
* `Parameters`, `EncryptionRequired`: what the input has to be;
* `nextParam_iff`, `paramsLoop_iff`: one parameter, and what the loop still has to find;
* `transport_params_exact`: **the input is accepted exactly when it is a sequence of parameters,
  and parameter `0x1000` (xquic's `no_crypto`) is absent or stands there once, as one integer that
  is 0**.
-/
import OhecoBroker.Lib.Varint

namespace OhecoBroker.TransportParams

open Lib List

/-! ### The code -/

/-- `quic_varint`: the bytes used and the value. -/
def quicVarint : List UInt8 → Option (ℕ × ℕ)
  | [] => none
  | b :: t =>
    let n := 1 <<< (b.toNat >>> 6)
    if t.length + 1 < n then none
    else some (n, (t.take (n - 1)).foldl (fun v b => v <<< 8 ||| b.toNat) (b.toNat &&& 63))

/-- The first parameter: its identifier, its value and the rest. -/
def nextParam (params : List UInt8) : Option (ℕ × List UInt8 × List UInt8) :=
  match quicVarint params with
  | none => none
  | some (used, id) =>
    match quicVarint (params.drop used) with
    | none => none
    | some (used', size) =>
      let params := (params.drop used).drop used'
      if params.length < size then none
      else some (id, params.take size, params.drop size)

/-- `no_crypto`, xquic's private extension. -/
def noCrypto : ℕ := 0x1000

/-- The value is one integer of its declared length, 0. -/
def noCryptoOff (value : List UInt8) : Bool :=
  match quicVarint value with
  | none => false
  | some (used, noCrypto) => !(used ≠ value.length || noCrypto ≠ 0)

variable {s value rest : List UInt8} {v : ℕ} {ps : List (ℕ × List UInt8)}

/-- A reader uses bytes it has. -/
lemma quicVarint_used_pos {used : ℕ} (h : quicVarint s = some (used, v)) :
    0 < used ∧ used ≤ s.length := by
  cases s with
  | nil => simp [quicVarint] at h
  | cons b t =>
    simp only [quicVarint] at h
    split at h
    · simp at h
    rename_i hn
    obtain ⟨rfl, -⟩ := Prod.mk.inj (Option.some.inj h)
    refine ⟨?_, by simpa using hn⟩
    rw [Nat.one_shiftLeft]
    positivity

lemma nextParam_shorter {id : ℕ}
    (h : nextParam s = some (id, value, rest)) : rest.length < s.length := by
  unfold nextParam at h
  split at h
  · simp at h
  rename_i used id' hid
  split at h
  · simp at h
  rename_i used' size hsize
  simp only at h
  split at h
  · simp at h
  obtain ⟨-, -, rfl⟩ : id' = id ∧ _ ∧ _ = rest := by simpa using h
  have := quicVarint_used_pos hid
  simp only [length_drop]
  omega

/-- `while (len)`, with `seen_no_crypto`. -/
def paramsLoop (seenNoCrypto : ℕ) (params : List UInt8) : Bool :=
  if params = [] then true
  else
    match _h : nextParam params with
    | none => false
    | some (id, value, rest) =>
      if id = noCrypto then
        if seenNoCrypto ≠ 0 then false
        else if noCryptoOff value then paramsLoop (seenNoCrypto + 1) rest
        else false
      else paramsLoop seenNoCrypto rest
termination_by params.length
decreasing_by all_goals exact nextParam_shorter ‹_›

/-- `ob_transport_params_encrypted`. -/
def transportParamsEncrypted (params : List UInt8) : Bool :=
  if params = [] then false else paramsLoop 0 params

/-! ### What the input has to be -/

/-- The parameters of a byte string, with integers of any width. -/
inductive Parameters : List UInt8 → List (ℕ × List UInt8) → Prop where
  | nil : Parameters [] []
  | cons {a b value s : List UInt8} {id : ℕ} {ps : List (ℕ × List UInt8)} :
      IsVarint a id → IsVarint b value.length → Parameters s ps →
        Parameters (a ++ b ++ value ++ s) ((id, value) :: ps)

/-- Parameter `0x1000` is absent, or stands there once with the value 0. -/
def EncryptionRequired (ps : List (ℕ × List UInt8)) : Prop :=
  (∀ p ∈ ps, p.1 ≠ noCrypto) ∨
    ∃ before value after, ps = before ++ (noCrypto, value) :: after ∧
      (∀ p ∈ before ++ after, p.1 ≠ noCrypto) ∧ IsVarint value 0

/-! ### One parameter -/

lemma foldl_shift (t : List UInt8) (v : ℕ) :
    t.foldl (fun v b => v <<< 8 ||| b.toNat) v = t.foldl (fun v b => v * 256 + b.toNat) v := by
  congr 1
  funext v b
  rw [← Nat.shiftLeft_add_eq_or_of_lt (by simpa using b.toNat_lt : b.toNat < 2 ^ 8),
    Nat.shiftLeft_eq]

lemma quicVarint_cons (b : UInt8) (t : List UInt8) :
    quicVarint (b :: t) = if t.length + 1 < 2 ^ (b.toNat / 64) then none
      else some (2 ^ (b.toNat / 64), (t.take (2 ^ (b.toNat / 64) - 1)).foldl
        (fun v b => v * 256 + b.toNat) (b.toNat % 64)) := by
  have hlow : b.toNat &&& 63 = b.toNat % 64 := Nat.and_two_pow_sub_one_eq_mod b.toNat 6
  simp only [quicVarint, foldl_shift, hlow, Nat.shiftRight_eq_div_pow, Nat.one_shiftLeft,
    Nat.reducePow]

theorem quicVarint_iff {used : ℕ} :
    quicVarint s = some (used, v) ↔ ∃ w r, s = w ++ r ∧ w.length = used ∧ IsVarint w v := by
  constructor
  · intro h
    cases s with
    | nil => simp [quicVarint] at h
    | cons b t =>
      rw [quicVarint_cons] at h
      split at h
      · simp at h
      rename_i hn
      cases h
      have hpos : 0 < 2 ^ (b.toNat / 64) := by positivity
      have hlen : (t.take (2 ^ (b.toNat / 64) - 1)).length + 1 = 2 ^ (b.toNat / 64) := by
        rw [length_take]
        omega
      refine ⟨b :: t.take (2 ^ (b.toNat / 64) - 1), t.drop (2 ^ (b.toNat / 64) - 1), ?_, hlen,
        isVarint_cons_iff.mpr ⟨hlen, rfl⟩⟩
      rw [cons_append, take_append_drop]
  rintro ⟨w, r, rfl, rfl, hw⟩
  cases w with
  | nil => exact absurd hw not_isVarint_nil
  | cons b t =>
    obtain ⟨hlen, rfl⟩ := isVarint_cons_iff.mp hw
    rw [cons_append, quicVarint_cons, ← hlen, length_append,
      if_neg (by omega), Nat.add_sub_cancel, take_left]
    rfl

lemma quicVarint_append {w r : List UInt8} (h : IsVarint w v) :
    quicVarint (w ++ r) = some (w.length, v) :=
  quicVarint_iff.mpr ⟨w, r, rfl, rfl, h⟩

theorem nextParam_iff {id : ℕ} : nextParam s = some (id, value, rest) ↔
      ∃ a b, IsVarint a id ∧ IsVarint b value.length ∧ s = a ++ b ++ value ++ rest := by
  constructor
  · intro h
    unfold nextParam at h
    split at h
    · simp at h
    rename_i used id' hid
    obtain ⟨a, r, rfl, rfl, ha⟩ := quicVarint_iff.mp hid
    rw [drop_left] at h
    split at h
    · simp at h
    rename_i used' size hsize
    obtain ⟨b, r, rfl, rfl, hb⟩ := quicVarint_iff.mp hsize
    simp only [drop_left] at h
    split at h
    · simp at h
    rename_i hlen
    obtain ⟨rfl, rfl, rfl⟩ : id' = id ∧ r.take size = value ∧ r.drop size = rest := by
      simpa using h
    refine ⟨a, b, ha, ?_, by simp⟩
    rwa [length_take, Nat.min_eq_left (by omega)]
  rintro ⟨a, b, ha, hb, rfl⟩
  rw [nextParam, append_assoc, append_assoc, quicVarint_append ha]
  simp only [drop_left, quicVarint_append hb]
  rw [if_neg (by simp), take_left]

lemma noCryptoOff_iff : noCryptoOff value = true ↔ IsVarint value 0 := by
  constructor
  · intro h
    unfold noCryptoOff at h
    split at h
    · simp at h
    rename_i used v hv
    obtain ⟨w, r, rfl, rfl, hw⟩ := quicVarint_iff.mp hv
    obtain ⟨hr, rfl⟩ : r = [] ∧ v = 0 := by simpa using h
    rwa [hr, append_nil]
  intro h
  have hv := quicVarint_append (r := []) h
  rw [append_nil] at hv
  simp [noCryptoOff, hv]

/-! ### The whole input -/

lemma parameters_iff_of_next {id : ℕ} (h : nextParam s = some (id, value, rest)) :
    Parameters s ps ↔ ∃ ps', ps = (id, value) :: ps' ∧ Parameters rest ps' := by
  constructor
  · rintro (_ | ⟨ha, hb, hps⟩)
    · simp [nextParam, quicVarint] at h
    · rw [nextParam_iff.mpr ⟨_, _, ha, hb, rfl⟩] at h
      obtain ⟨rfl, rfl, rfl⟩ := by simpa using h
      exact ⟨_, rfl, hps⟩
  · rintro ⟨ps', rfl, hps⟩
    obtain ⟨a, b, ha, hb, rfl⟩ := nextParam_iff.mp h
    exact .cons ha hb hps

lemma not_parameters_of_next (h : nextParam s = none) (hs : s ≠ []) : ¬Parameters s ps := by
  rintro (_ | ⟨ha, hb, -⟩)
  · exact hs rfl
  · rw [nextParam_iff.mpr ⟨_, _, ha, hb, rfl⟩] at h
    simp at h

/-- Another parameter does not count. -/
lemma encryptionRequired_cons_other {id : ℕ}
    (hid : id ≠ noCrypto) : EncryptionRequired ((id, value) :: ps) ↔ EncryptionRequired ps := by
  constructor
  · rintro (hnone | ⟨before, v, after, heq, hothers, hv⟩)
    · exact Or.inl fun p hp => hnone p (mem_cons_of_mem _ hp)
    · cases before with
      | nil => exact absurd (congrArg Prod.fst (List.cons.inj heq).1) hid
      | cons p before =>
        cases heq
        exact Or.inr ⟨before, v, after, rfl,
          fun p hp => hothers p (mem_cons_of_mem _ hp), hv⟩
  rintro (hnone | ⟨before, v, after, rfl, hothers, hv⟩)
  · refine Or.inl fun p hp => ?_
    rcases mem_cons.mp hp with rfl | hp
    · exact hid
    · exact hnone p hp
  · refine Or.inr ⟨(id, value) :: before, v, after, rfl, fun p hp => ?_, hv⟩
    rcases mem_cons.mp hp with rfl | hp
    · exact hid
    · exact hothers p hp

lemma encryptionRequired_cons_noCrypto : EncryptionRequired ((noCrypto, value) :: ps) ↔
      IsVarint value 0 ∧ ∀ p ∈ ps, p.1 ≠ noCrypto := by
  constructor
  · rintro (hnone | ⟨before, v, after, heq, hothers, hv⟩)
    · exact absurd rfl (hnone _ mem_cons_self)
    · cases before with
      | nil =>
        obtain ⟨hvalue, rfl⟩ := List.cons.inj heq
        obtain rfl := congrArg Prod.snd hvalue
        exact ⟨hv, hothers⟩
      | cons p before =>
        obtain ⟨rfl, -⟩ := List.cons.inj heq
        exact absurd rfl (hothers _ mem_cons_self)
  · rintro ⟨hv, hothers⟩
    exact Or.inr ⟨[], value, ps, rfl, hothers, hv⟩

/-- What the loop still has to find. -/
def Remaining (seen : ℕ) (ps : List (ℕ × List UInt8)) : Prop :=
  if seen = 0 then EncryptionRequired ps else ∀ p ∈ ps, p.1 ≠ noCrypto

lemma remaining_cons_other {seen id : ℕ}
    (hid : id ≠ noCrypto) : Remaining seen ((id, value) :: ps) ↔ Remaining seen ps := by
  unfold Remaining
  split
  · exact encryptionRequired_cons_other hid
  · simp [hid]

lemma remaining_cons_noCrypto {seen : ℕ} : Remaining seen ((noCrypto, value) :: ps) ↔
      seen = 0 ∧ IsVarint value 0 ∧ Remaining (seen + 1) ps := by
  unfold Remaining
  rw [if_neg (Nat.succ_ne_zero seen)]
  split
  · rename_i hseen
    simp [encryptionRequired_cons_noCrypto, hseen]
  · rename_i hseen
    simp [hseen]

lemma paramsLoop_iff (seen : ℕ) (s : List UInt8) :
    paramsLoop seen s = true ↔ ∃ ps, Parameters s ps ∧ Remaining seen ps := by
  fun_induction paramsLoop seen s with
  | case1 seen =>
    refine iff_of_true rfl ⟨[], .nil, ?_⟩
    unfold Remaining
    split
    · exact Or.inl (by simp)
    · simp
  | case2 seen s hs hnext =>
    refine iff_of_false (by simp) ?_
    rintro ⟨ps, hps, -⟩
    exact not_parameters_of_next hnext hs hps
  | case3 seen s hs value rest hseen hnext =>
    refine iff_of_false (by simp) ?_
    rintro ⟨ps, hps, hrem⟩
    obtain ⟨ps, rfl, -⟩ := (parameters_iff_of_next hnext).mp hps
    exact hseen (remaining_cons_noCrypto.mp hrem).1
  | case4 seen s hs value rest hseen hoff hnext ih =>
    have hv := noCryptoOff_iff.mp hoff
    simp only [ih, parameters_iff_of_next hnext]
    constructor
    · rintro ⟨ps, hps, hrem⟩
      exact ⟨_, ⟨ps, rfl, hps⟩, remaining_cons_noCrypto.mpr ⟨not_not.mp hseen, hv, hrem⟩⟩
    · rintro ⟨_, ⟨ps, rfl, hps⟩, hrem⟩
      exact ⟨ps, hps, (remaining_cons_noCrypto.mp hrem).2.2⟩
  | case5 seen s hs value rest hseen hoff hnext =>
    refine iff_of_false (by simp) ?_
    rintro ⟨ps, hps, hrem⟩
    obtain ⟨ps, rfl, -⟩ := (parameters_iff_of_next hnext).mp hps
    exact hoff (noCryptoOff_iff.mpr (remaining_cons_noCrypto.mp hrem).2.1)
  | case6 seen s hs id value rest hnext hid ih =>
    simp only [ih, parameters_iff_of_next hnext]
    constructor
    · rintro ⟨ps, hps, hrem⟩
      exact ⟨_, ⟨ps, rfl, hps⟩, (remaining_cons_other hid).mpr hrem⟩
    · rintro ⟨_, ⟨ps, rfl, hps⟩, hrem⟩
      exact ⟨ps, hps, (remaining_cons_other hid).mp hrem⟩

/-- **Transport parameters are accepted only when encryption is required**: the input is a
sequence of parameters among which `0x1000` is absent, or stands once as one integer that is 0. -/
theorem transport_params_exact (s : List UInt8) (hs : s ≠ []) :
    transportParamsEncrypted s = true ↔ ∃ ps, Parameters s ps ∧ EncryptionRequired ps := by
  rw [transportParamsEncrypted, if_neg hs]
  exact paramsLoop_iff 0 s

/-- A `no_crypto` of one byte, 0, after another parameter. -/
theorem transport_params_exact_sample :
    [1, 1, 7, 0x50, 0, 1, 0] ≠ ([] : List UInt8) ∧
      (transportParamsEncrypted [1, 1, 7, 0x50, 0, 1, 0] = true ↔
        ∃ ps, Parameters [1, 1, 7, 0x50, 0, 1, 0] ps ∧ EncryptionRequired ps) :=
  ⟨by simp, transport_params_exact _ (by simp)⟩

end OhecoBroker.TransportParams
