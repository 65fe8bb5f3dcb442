/-
UTF-8 on lists of bytes.

* `encode`, `decodeChar`, `decode`: writing a text, and reading one;
* `Width`, `width_of_lead`, `decodeChar_iff`: one scalar value, by the width of its encoding;
* `decode_iff`: **a byte string is read as a text exactly when it is its encoding**;
* `repair`, `replaceZeros`, `repair_isText`, `replaceZeros_isText`: repairing a byte string.
-/
import Mathlib.Tactic

namespace OhecoBroker.Lib.Utf8

open List

def encode (cs : List Char) : List UInt8 := cs.flatMap String.utf8EncodeChar

@[simp] lemma encode_nil : encode [] = [] := rfl

@[simp] lemma encode_cons (c : Char) (cs : List Char) :
    encode (c :: cs) = String.utf8EncodeChar c ++ encode cs := flatMap_cons

/-! ### Continuation bytes -/

/-- Continuation bytes that carry the low `6 * n` bits. -/
def contBytes : ℕ → ℕ → List UInt8
  | 0, _ => []
  | n + 1, v => UInt8.ofNat (v / 64 ^ n % 64 + 0x80) :: contBytes n v

/-- Reads `n` continuation bytes onto the value read so far. -/
def continuation : ℕ → ℕ → List UInt8 → Option (ℕ × List UInt8)
  | 0, v, s => some (v, s)
  | _ + 1, _, [] => none
  | n + 1, v, b :: s =>
    if 0x80 ≤ b.toNat ∧ b.toNat < 0xc0 then continuation n (v * 64 + b.toNat % 64) s else none

lemma toNat_contByte (d : ℕ) : (UInt8.ofNat (d % 64 + 0x80)).toNat = d % 64 + 0x80 := by
  rw [UInt8.toNat_ofNat']
  omega

lemma contBytes_add (n v t : ℕ) : contBytes n (v * 64 ^ n + t) = contBytes n t := by
  suffices h : ∀ k v, contBytes n (v * 64 ^ (n + k) + t) = contBytes n t from h 0 v
  induction n with
  | zero => exact fun _ _ => rfl
  | succ n ih =>
    intro k v
    have hpos : 0 < 64 ^ n := by positivity
    have hpow : v * 64 ^ (n + 1 + k) = v * 64 ^ k * 64 * 64 ^ n := by ring
    have hdigit : (v * 64 ^ (n + 1 + k) + t) / 64 ^ n % 64 = t / 64 ^ n % 64 := by
      rw [hpow, Nat.add_comm, Nat.add_mul_div_right _ _ hpos]
      omega
    have hrest : v * 64 ^ (n + 1 + k) = v * 64 ^ (n + (k + 1)) := by
      rw [Nat.add_right_comm n 1 k, Nat.add_assoc n k 1]
    simp only [contBytes, hdigit]
    rw [hrest, ih (k + 1) v]

/-- Continuation bytes are read back. -/
lemma continuation_contBytes (n v t : ℕ) (s : List UInt8) :
    continuation n v (contBytes n t ++ s) = some (v * 64 ^ n + t % 64 ^ n, s) := by
  induction n generalizing v with
  | zero => simp [continuation, contBytes, Nat.mod_one]
  | succ n ih =>
    have hb : (UInt8.ofNat (t / 64 ^ n % 64 + 0x80)).toNat = t / 64 ^ n % 64 + 0x80 :=
      toNat_contByte _
    have hd : (t / 64 ^ n % 64 + 0x80) % 64 = t / 64 ^ n % 64 := by omega
    have hmod : t % 64 ^ (n + 1) = 64 ^ n * (t / 64 ^ n % 64) + t % 64 ^ n := by
      rw [pow_succ, Nat.mod_mul]
      omega
    rw [contBytes, cons_append, continuation, if_pos (by rw [hb]; omega), ih, hb, hd, hmod]
    congr 2
    ring

variable {n v least : ℕ} {s s' : List UInt8} {c : Char} {b : UInt8}

lemma continuation_eq_some {w : ℕ} (h : continuation n v s = some (w, s')) :
    ∃ t < 64 ^ n, w = v * 64 ^ n + t ∧ s = contBytes n t ++ s' := by
  induction n generalizing v s with
  | zero =>
    obtain ⟨rfl, rfl⟩ : v = w ∧ s = s' := by simpa [continuation] using h
    exact ⟨0, by simp, by simp, rfl⟩
  | succ n ih =>
    cases s with
    | nil => simp [continuation] at h
    | cons b s =>
      rw [continuation] at h
      split at h
      · rename_i hb
        obtain ⟨t, ht, rfl, rfl⟩ := ih h
        have hlt : b.toNat % 64 * 64 ^ n + t < 64 ^ (n + 1) := by
          calc b.toNat % 64 * 64 ^ n + t < (b.toNat % 64 + 1) * 64 ^ n := by
                rw [Nat.add_mul, Nat.one_mul]; omega
            _ ≤ 64 * 64 ^ n := Nat.mul_le_mul_right _ (by omega)
            _ = 64 ^ (n + 1) := by rw [pow_succ, Nat.mul_comm]
        have hdigit : (b.toNat % 64 * 64 ^ n + t) / 64 ^ n = b.toNat % 64 := by
          rw [Nat.add_comm, Nat.add_mul_div_right _ _ (by positivity), Nat.div_eq_of_lt ht]
          omega
        refine ⟨b.toNat % 64 * 64 ^ n + t, hlt, by ring, ?_⟩
        rw [contBytes, hdigit, contBytes_add, cons_append]
        congr 1
        apply UInt8.toNat_inj.mp
        rw [UInt8.toNat_ofNat']
        omega
      · simp at h

/-! ### One scalar value -/

/-- The bits, the continuation bytes and the least value. -/
def lead (b : UInt8) : Option (ℕ × ℕ × ℕ) :=
  if b.toNat < 0x80 then some (b.toNat, 0, 0)
  else if b.toNat < 0xc0 then none
  else if b.toNat < 0xe0 then some (b.toNat - 0xc0, 1, 0x80)
  else if b.toNat < 0xf0 then some (b.toNat - 0xe0, 2, 0x800)
  else if b.toNat < 0xf8 then some (b.toNat - 0xf0, 3, 0x10000)
  else none

/-- The first scalar value, and the rest. -/
def decodeChar : List UInt8 → Option (Char × List UInt8)
  | [] => none
  | b :: s =>
    match lead b with
    | none => none
    | some (v, n, least) =>
      match continuation n v s with
      | none => none
      | some (v, s) => if least ≤ v ∧ v.isValidChar then some (Char.ofNat v, s) else none

/-- What the first byte adds, the continuation bytes, the values. -/
inductive Width : ℕ → ℕ → ℕ → ℕ → Prop where
  | one : Width 0 0 0 0x80
  | two : Width 0xc0 1 0x80 0x800
  | three : Width 0xe0 2 0x800 0x10000
  | four : Width 0xf0 3 0x10000 0x110000

/-- Every value has a width. -/
lemma exists_width (hv : v < 0x110000) :
    ∃ base n least most, Width base n least most ∧ least ≤ v ∧ v < most := by
  by_cases h1 : v < 0x80
  · exact ⟨_, _, _, _, .one, by omega, h1⟩
  by_cases h2 : v < 0x800
  · exact ⟨_, _, _, _, .two, by omega, h2⟩
  by_cases h3 : v < 0x10000
  · exact ⟨_, _, _, _, .three, by omega, h3⟩
  · exact ⟨_, _, _, _, .four, by omega, hv⟩

/-- Scalar values end at U+10FFFF. -/
lemma toNat_lt (c : Char) : c.toNat < 0x110000 := by
  rcases c.valid with h | h
  · exact h.trans (by decide)
  · exact h.2

lemma Width.encodeChar {base most : ℕ} (hw : Width base n least most)
    (hl : least ≤ c.toNat) (hm : c.toNat < most) :
    String.utf8EncodeChar c = UInt8.ofNat (base + c.toNat / 64 ^ n) :: contBytes n c.toNat := by
  have hv : c.val.toNat = c.toNat := rfl
  cases hw with
  | one => simp [String.utf8EncodeChar, contBytes, hv, show c.toNat ≤ 127 by omega]
  | two =>
    have h : c.toNat / 64 % 32 + 192 = 192 + c.toNat / 64 := by omega
    simp [String.utf8EncodeChar, contBytes, hv, h, show ¬c.toNat ≤ 127 by omega,
      show c.toNat ≤ 2047 by omega]
  | three =>
    have h : c.toNat / 4096 % 16 + 224 = 224 + c.toNat / 4096 := by omega
    simp [String.utf8EncodeChar, contBytes, hv, h, show ¬c.toNat ≤ 127 by omega,
      show ¬c.toNat ≤ 2047 by omega, show c.toNat ≤ 65535 by omega]
  | four =>
    have h : c.toNat / 262144 % 8 + 240 = 240 + c.toNat / 262144 := by omega
    simp [String.utf8EncodeChar, contBytes, hv, h, show ¬c.toNat ≤ 127 by omega,
      show ¬c.toNat ≤ 2047 by omega, show ¬c.toNat ≤ 65535 by omega]

lemma Width.lead {base most : ℕ} (hw : Width base n least most) (hm : v < most) :
    lead (UInt8.ofNat (base + v / 64 ^ n)) = some (v / 64 ^ n, n, least) := by
  cases hw <;> simp only [Utf8.lead, UInt8.toNat_ofNat', Nat.reducePow] <;>
    norm_num <;> grind

lemma width_of_lead (h : lead b = some (v, n, least)) :
    ∃ base most, Width base n least most ∧ b.toNat = base + v ∧
      ∀ t < 64 ^ n, v * 64 ^ n + t < 0x110000 → v * 64 ^ n + t < most := by
  unfold lead at h
  split at h
  · obtain ⟨rfl, rfl, rfl⟩ : b.toNat = v ∧ 0 = n ∧ 0 = least := by simpa using h
    exact ⟨_, _, .one, by omega, fun t ht _ => by omega⟩
  split at h
  · simp at h
  split at h
  · obtain ⟨rfl, rfl, rfl⟩ : b.toNat - 0xc0 = v ∧ 1 = n ∧ 0x80 = least := by simpa using h
    exact ⟨_, _, .two, by omega, fun t ht _ => by omega⟩
  split at h
  · obtain ⟨rfl, rfl, rfl⟩ : b.toNat - 0xe0 = v ∧ 2 = n ∧ 0x800 = least := by simpa using h
    exact ⟨_, _, .three, by omega, fun t ht _ => by omega⟩
  split at h
  · obtain ⟨rfl, rfl, rfl⟩ : b.toNat - 0xf0 = v ∧ 3 = n ∧ 0x10000 = least := by simpa using h
    exact ⟨_, _, .four, by omega, fun t _ ht => ht⟩
  · simp at h

lemma toNat_ofNat (h : v.isValidChar) : (Char.ofNat v).toNat = v := by
  rw [Char.ofNat, dif_pos h]
  rfl

lemma ofNat_toNat (c : Char) : Char.ofNat c.toNat = c := Char.ofNat_toNat c

lemma decodeChar_cons_iff : decodeChar (b :: s) = some (c, s') ↔
      ∃ v n least, lead b = some (v, n, least) ∧ continuation n v s = some (c.toNat, s') ∧
        least ≤ c.toNat := by
  rw [decodeChar]
  constructor
  · intro h
    split at h
    · simp at h
    rename_i v n least hv
    split at h
    · simp at h
    rename_i w s₁ hw
    split at h
    · rename_i hc
      obtain ⟨rfl, rfl⟩ : Char.ofNat w = c ∧ s₁ = s' := by simpa using h
      refine ⟨v, n, least, hv, ?_, ?_⟩ <;> rw [toNat_ofNat hc.2]
      · exact hw
      · exact hc.1
    · simp at h
  · rintro ⟨v, n, least, hv, hs, hl⟩
    simp only [hv, hs]
    rw [if_pos ⟨hl, c.valid⟩, ofNat_toNat]

theorem decodeChar_iff : decodeChar s = some (c, s') ↔ s = String.utf8EncodeChar c ++ s' := by
  constructor
  · intro h
    cases s with
    | nil => simp [decodeChar] at h
    | cons b s =>
      obtain ⟨v, n, least, hv, hs, hl⟩ := decodeChar_cons_iff.mp h
      obtain ⟨base, most, hwidth, hbase, hmost⟩ := width_of_lead hv
      obtain ⟨t, ht, hc, rfl⟩ := continuation_eq_some hs
      have hmost := hmost t ht (hc ▸ toNat_lt c)
      have hdiv : (v * 64 ^ n + t) / 64 ^ n = v := by
        rw [Nat.add_comm, Nat.add_mul_div_right _ _ (by positivity), Nat.div_eq_of_lt ht]
        omega
      rw [hwidth.encodeChar (by omega) (by omega), hc, contBytes_add, hdiv, ← hbase,
        UInt8.ofNat_toNat, cons_append]
  rintro rfl
  obtain ⟨base, n, least, most, hwidth, hl, hm⟩ := exists_width (toNat_lt c)
  have hvalue : c.toNat / 64 ^ n * 64 ^ n + c.toNat % 64 ^ n = c.toNat := by
    rw [Nat.mul_comm]
    exact Nat.div_add_mod _ _
  rw [hwidth.encodeChar hl hm, cons_append]
  refine decodeChar_cons_iff.mpr ⟨_, _, _, hwidth.lead hm, ?_, hl⟩
  rw [continuation_contBytes, hvalue]

/-! ### Texts -/

lemma decodeChar_shorter (h : decodeChar s = some (c, s')) : s'.length < s.length := by
  rw [decodeChar_iff.mp h, length_append, String.length_utf8EncodeChar]
  have := c.utf8Size_pos
  omega

def decode (s : List UInt8) : Option (List Char) :=
  if s = [] then some []
  else
    match _h : decodeChar s with
    | none => none
    | some (c, s') => (decode s').map (c :: ·)
termination_by s.length
decreasing_by exact decodeChar_shorter ‹_›

lemma decode_of_decodeChar (h : decodeChar s = some (c, s')) :
    decode s = (decode s').map (c :: ·) := by
  rw [decode, if_neg (by rintro rfl; simp [decodeChar] at h)]
  split
  · simp_all
  · rename_i c' s₁ h'
    obtain ⟨rfl, rfl⟩ : c' = c ∧ s₁ = s' := by simpa [h] using h'.symm
    rfl

theorem decode_iff {cs : List Char} : decode s = some cs ↔ s = encode cs := by
  constructor
  · intro h
    induction cs generalizing s with
    | nil =>
      rw [decode] at h
      split at h
      · assumption
      · split at h <;> simp at h
    | cons c cs ih =>
      rw [decode] at h
      split at h
      · simp at h
      split at h
      · simp at h
      rename_i c' s' hc
      obtain ⟨ds, hds, rfl, rfl⟩ : ∃ ds, decode s' = some ds ∧ c' = c ∧ ds = cs := by
        simpa using h
      rw [decodeChar_iff.mp hc, ih hds, encode_cons]
  rintro rfl
  induction cs with
  | nil => rw [encode_nil, decode, if_pos rfl]
  | cons c cs ih =>
    rw [encode_cons, decode_of_decodeChar (decodeChar_iff.mpr rfl), ih, Option.map_some]

/-- No continuation byte is zero. -/
lemma contBytes_ne_zero (h : b ∈ contBytes n v) : b ≠ 0 := by
  induction n with
  | zero => simp [contBytes] at h
  | succ n ih =>
    rcases mem_cons.mp h with rfl | h
    · intro h0
      have := congrArg UInt8.toNat h0
      rw [toNat_contByte] at this
      simp at this
    · exact ih h

lemma zero_mem_encodeChar : 0 ∈ String.utf8EncodeChar c ↔ c = '\x00' := by
  constructor
  · intro h
    obtain ⟨base, n, least, most, hw, hl, hm⟩ := exists_width (toNat_lt c)
    rw [hw.encodeChar hl hm, mem_cons] at h
    rcases h with h | h
    · have h0 := congrArg UInt8.toNat h
      rw [UInt8.toNat_ofNat'] at h0
      have hzero : c.toNat = 0 := by
        cases hw <;> norm_num at h0 hl hm <;> omega
      rw [← ofNat_toNat c, hzero]
    · exact absurd rfl (contBytes_ne_zero h)
  · rintro rfl
    decide

lemma zero_mem_encode {cs : List Char} : 0 ∈ encode cs ↔ '\x00' ∈ cs := by
  rw [encode, mem_flatMap]
  constructor
  · rintro ⟨c, hc, h⟩
    rwa [zero_mem_encodeChar.mp h] at hc
  · exact fun h => ⟨_, h, zero_mem_encodeChar.mpr rfl⟩

/-! ### Repairing a byte string -/

def replacement : List UInt8 := [0xef, 0xbf, 0xbd]

/-- `U+FFFD` for each run of bytes that are no UTF-8. -/
def repair (invalid : Bool) (s : List UInt8) : List UInt8 :=
  match s with
  | [] => []
  | b :: rest =>
    match _h : decodeChar (b :: rest) with
    | some (c, s') => String.utf8EncodeChar c ++ repair false s'
    | none => (if invalid then [] else replacement) ++ repair true rest
termination_by s.length
decreasing_by
  · exact decodeChar_shorter ‹_›
  · exact Nat.lt_succ_self _

lemma replacement_eq : replacement = encode ['\uFFFD'] := by decide

lemma replacement_or_nil (invalid : Bool) :
    ∃ cs : List Char, (∀ c ∈ cs, c = '\uFFFD') ∧
      (if invalid then [] else replacement) = encode cs := by
  cases invalid with
  | true => exact ⟨[], by simp, rfl⟩
  | false => exact ⟨['\uFFFD'], by simp, replacement_eq⟩

/-- A repaired string is a text. -/
theorem repair_isText (invalid : Bool) (s : List UInt8) : ∃ cs, repair invalid s = encode cs := by
  fun_induction repair invalid s with
  | case1 => exact ⟨[], rfl⟩
  | case2 invalid b rest c s' h ih =>
    obtain ⟨cs, hcs⟩ := ih
    exact ⟨c :: cs, by rw [hcs, encode_cons]⟩
  | case3 invalid b rest h ih =>
    obtain ⟨cs, hcs⟩ := ih
    obtain ⟨ds, -, hds⟩ := replacement_or_nil invalid
    refine ⟨ds ++ cs, ?_⟩
    rw [hcs]
    simp only [encode, flatMap_append]
    exact congrArg (· ++ _) hds

/-- A repair brings no zero byte. -/
lemma zero_notMem_repair (hs : 0 ∉ s) (invalid : Bool) : 0 ∉ repair invalid s := by
  fun_induction repair invalid s with
  | case1 => simp
  | case2 invalid b rest c s' h ih =>
    rw [decodeChar_iff.mp h, mem_append, not_or] at hs
    rw [mem_append, not_or]
    exact ⟨hs.1, ih hs.2⟩
  | case3 invalid b rest h ih =>
    rw [mem_append, not_or]
    refine ⟨?_, ih fun h0 => hs (mem_cons_of_mem b h0)⟩
    cases invalid <;> decide

lemma length_repair_le (invalid : Bool) (s : List UInt8) :
    (repair invalid s).length ≤ 3 * s.length := by
  fun_induction repair invalid s with
  | case1 => simp
  | case2 invalid b rest c s' h ih =>
    rw [decodeChar_iff.mp h, length_append, length_append]
    omega
  | case3 invalid b rest h ih =>
    rw [length_append, length_cons]
    have : (if invalid then [] else replacement).length ≤ 3 := by cases invalid <;> decide
    omega

def replaceZeros (s : List UInt8) : List UInt8 :=
  s.flatMap fun b => if b = 0 then replacement else [b]

lemma replaceZeros_of_notMem (h : 0 ∉ s) : replaceZeros s = s := by
  induction s with
  | nil => rfl
  | cons b s ih =>
    rw [mem_cons, not_or] at h
    rw [replaceZeros, flatMap_cons, if_neg (Ne.symm h.1)]
    exact congrArg (b :: ·) (ih h.2)

lemma replaceZeros_isText (hs : ∃ cs, s = encode cs) : ∃ cs, replaceZeros s = encode cs := by
  obtain ⟨cs, rfl⟩ := hs
  induction cs with
  | nil => exact ⟨[], rfl⟩
  | cons c cs ih =>
    obtain ⟨ds, hds⟩ := ih
    have happend : replaceZeros (encode (c :: cs))
        = replaceZeros (String.utf8EncodeChar c) ++ encode ds := by
      rw [← hds, encode_cons, replaceZeros, flatMap_append]
      rfl
    rw [happend]
    by_cases hc : c = '\x00'
    · subst hc
      exact ⟨'\uFFFD' :: ds, rfl⟩
    · rw [replaceZeros_of_notMem fun h0 => hc (zero_mem_encodeChar.mp h0)]
      exact ⟨c :: ds, (encode_cons c ds).symm⟩

/-- No zero byte is left. -/
lemma zero_notMem_replaceZeros (s : List UInt8) : 0 ∉ replaceZeros s := by
  rw [replaceZeros, mem_flatMap]
  rintro ⟨b, -, hb⟩
  split at hb
  · exact absurd hb (by decide)
  · rename_i hne
    exact hne (mem_singleton.mp hb).symm

end OhecoBroker.Lib.Utf8
