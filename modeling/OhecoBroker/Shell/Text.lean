/-
The two UTF-8 validators of the C clients: `utf8` of the shell client (`oheco_broker.c`) and
`utf8` of the signalling client (`ob_ws.c`).  The loops are the same; each validator is the common
loop over its own test of the first byte.

* `nextScalar`, `utf8Loop`, `lead`, `utf8`: the code;
* `lead_eq`, `nextScalar_iff`: the two tests decide the same; one character;
* `utf8_exact`: **both accept exactly the encodings of texts without `U+0000`**.
-/
import OhecoBroker.Lib.Utf8

namespace OhecoBroker.Shell

open Lib

/-- The string is refused, the byte is a character, or `more` bytes follow. -/
inductive Lead where
  | refuse
  | single
  | multi (more c minimum : ℕ)
  deriving DecidableEq

/-- `while (more--)`. -/
def continueScalar : ℕ → ℕ → List UInt8 → Option (ℕ × List UInt8)
  | 0, c, s => some (c, s)
  | _ + 1, _, [] => none
  | more + 1, c, b :: s =>
    if b &&& 0xc0 ≠ 0x80 then none
    else continueScalar more (c <<< 6 ||| (b &&& 0x3f).toNat) s

/-- One turn: the rest, or `none` where the validator returns 0. -/
def nextScalar (lead : UInt8 → Lead) : List UInt8 → Option (List UInt8)
  | [] => none
  | b :: s =>
    match lead b with
    | .refuse => none
    | .single => some s
    | .multi more c minimum =>
      if s.length < more then none
      else
        match continueScalar more c s with
        | none => none
        | some (c, s) =>
          if c < minimum ∨ 0x10ffff < c ∨ (0xd800 ≤ c ∧ c ≤ 0xdfff) then none else some s

variable {s s' : List UInt8}

lemma continueScalar_shorter {more c d : ℕ}
    (h : continueScalar more c s = some (d, s')) : s'.length ≤ s.length := by
  induction more generalizing c s with
  | zero =>
    obtain ⟨-, rfl⟩ : c = d ∧ s = s' := by simpa [continueScalar] using h
    exact le_rfl
  | succ more ih =>
    cases s with
    | nil => simp [continueScalar] at h
    | cons b s =>
      rw [continueScalar] at h
      split at h
      · simp at h
      · exact (ih h).trans (Nat.le_succ _)

lemma nextScalar_shorter {lead : UInt8 → Lead}
    (h : nextScalar lead s = some s') : s'.length < s.length := by
  cases s with
  | nil => simp [nextScalar] at h
  | cons b s =>
    rw [nextScalar] at h
    split at h
    · simp at h
    · obtain rfl : s = s' := by simpa using h
      exact Nat.lt_succ_self _
    split at h
    · simp at h
    split at h
    · simp at h
    rename_i hs
    split at h
    · simp at h
    · cases h
      exact Nat.lt_succ_of_le (continueScalar_shorter hs)

/-- `while (i < n)`. -/
def utf8Loop (lead : UInt8 → Lead) (s : List UInt8) : Bool :=
  if s = [] then true
  else
    match _h : nextScalar lead s with
    | none => false
    | some s' => utf8Loop lead s'
termination_by s.length
decreasing_by exact nextScalar_shorter ‹_›

/-- The first-byte tests in `oheco_broker.c`. -/
def lead (b : UInt8) : Lead :=
  let c := b.toNat
  if c = 0 then .refuse
  else if c < 0x80 then .single
  else if 0xc2 ≤ c ∧ c ≤ 0xdf then .multi 1 (c &&& 0x1f) 0x80
  else if 0xe0 ≤ c ∧ c ≤ 0xef then .multi 2 (c &&& 0x0f) 0x800
  else if 0xf0 ≤ c ∧ c ≤ 0xf4 then .multi 3 (c &&& 7) 0x10000
  else .refuse

/-- `utf8` of `oheco_broker.c`. -/
def utf8 (s : List UInt8) : Bool := utf8Loop lead s

namespace Ws

/-- The first-byte tests in `ob_ws.c`. -/
def lead (b : UInt8) : Lead :=
  let c := b.toNat
  if c < 128 then if c = 0 then .refuse else .single
  else if 0xc2 ≤ c ∧ c ≤ 0xdf then .multi 1 (c &&& 31) 128
  else if 0xe0 ≤ c ∧ c ≤ 0xef then .multi 2 (c &&& 15) 2048
  else if 0xf0 ≤ c ∧ c ≤ 0xf4 then .multi 3 (c &&& 7) 65536
  else .refuse

/-- `utf8` of `ob_ws.c`. -/
def utf8 (s : List UInt8) : Bool := utf8Loop lead s

lemma lead_eq : lead = Shell.lead := by
  funext b
  simp only [lead, Shell.lead]
  split_ifs <;> first | rfl | omega

lemma utf8_eq : utf8 = Shell.utf8 := by
  funext s
  rw [utf8, lead_eq, Shell.utf8]

end Ws

/-! ### One character -/

/-- The mask of a continuation byte. -/
lemma continuation_bits (b : UInt8) :
    b &&& 0xc0 = 0x80 ↔ 0x80 ≤ b.toNat ∧ b.toNat < 0xc0 := by
  have h : ∀ n < 256, (n &&& 0xc0 = 0x80 ↔ 0x80 ≤ n ∧ n < 0xc0) := by decide +kernel
  rw [← UInt8.toNat_inj, UInt8.toNat_and]
  exact h b.toNat b.toNat_lt

/-- A continuation byte adds six bits. -/
lemma shift_or (c : ℕ) (b : UInt8) : c <<< 6 ||| (b &&& 0x3f).toNat = c * 64 + b.toNat % 64 := by
  have hlow : (b &&& 0x3f).toNat = b.toNat % 64 := by
    rw [UInt8.toNat_and]
    exact Nat.and_two_pow_sub_one_eq_mod b.toNat 6
  rw [hlow, ← Nat.shiftLeft_add_eq_or_of_lt (by omega : b.toNat % 64 < 2 ^ 6), Nat.shiftLeft_eq]

lemma continueScalar_eq (more c : ℕ) (s : List UInt8) :
    continueScalar more c s = Utf8.continuation more c s := by
  induction more generalizing c s with
  | zero => rfl
  | succ more ih =>
    cases s with
    | nil => rfl
    | cons b s =>
      rw [continueScalar, Utf8.continuation, ih, shift_or]
      by_cases hb : b &&& 0xc0 = 0x80
      · rw [if_neg (not_not_intro hb), if_pos ((continuation_bits b).mp hb)]
      · rw [if_pos hb, if_neg (mt (continuation_bits b).mpr hb)]

lemma length_of_continuation {n v w : ℕ}
    (h : Utf8.continuation n v s = some (w, s')) : n ≤ s.length := by
  induction n generalizing v s with
  | zero => exact Nat.zero_le _
  | succ n ih =>
    cases s with
    | nil => simp [Utf8.continuation] at h
    | cons b s =>
      rw [Utf8.continuation] at h
      split at h
      · exact Nat.succ_le_succ (ih h)
      · simp at h

lemma lead_spec (b : UInt8) :
    match lead b with
    | .refuse => Utf8.lead b = some (0, 0, 0) ∨
        ∀ v n least, Utf8.lead b = some (v, n, least) →
          ∀ t < 64 ^ n, v * 64 ^ n + t < least ∨ 0x10ffff < v * 64 ^ n + t
    | .single => 0 < b.toNat ∧ b.toNat < 0x80
    | .multi more c minimum => Utf8.lead b = some (c, more, minimum) ∧ 0x80 ≤ minimum := by
  have hb := b.toNat_lt
  have h5 : b.toNat &&& 0x1f = b.toNat % 32 := Nat.and_two_pow_sub_one_eq_mod b.toNat 5
  have h4 : b.toNat &&& 0x0f = b.toNat % 16 := Nat.and_two_pow_sub_one_eq_mod b.toNat 4
  have h3 : b.toNat &&& 7 = b.toNat % 8 := Nat.and_two_pow_sub_one_eq_mod b.toNat 3
  simp only [lead, h5, h4, h3]
  by_cases hzero : b.toNat = 0
  · simp [hzero, Utf8.lead]
  by_cases hone : b.toNat < 0x80
  · simp only [hzero, hone, if_true, if_false]
    exact ⟨Nat.pos_of_ne_zero hzero, trivial⟩
  by_cases htwo : 0xc2 ≤ b.toNat ∧ b.toNat ≤ 0xdf
  · have : b.toNat - 0xc0 = b.toNat % 32 := by omega
    simp [hzero, hone, htwo, Utf8.lead, show ¬b.toNat < 0xc0 by omega,
      show b.toNat < 0xe0 by omega, this]
  by_cases hthree : 0xe0 ≤ b.toNat ∧ b.toNat ≤ 0xef
  · have : b.toNat - 0xe0 = b.toNat % 16 := by omega
    simp [hzero, hone, htwo, hthree, Utf8.lead, show ¬b.toNat < 0xc0 by omega,
      show ¬b.toNat < 0xe0 by omega, show b.toNat < 0xf0 by omega, this]
  by_cases hfour : 0xf0 ≤ b.toNat ∧ b.toNat ≤ 0xf4
  · have : b.toNat - 0xf0 = b.toNat % 8 := by omega
    simp [hzero, hone, htwo, hthree, hfour, Utf8.lead, show ¬b.toNat < 0xc0 by omega,
      show ¬b.toNat < 0xe0 by omega, show ¬b.toNat < 0xf0 by omega,
      show b.toNat < 0xf8 by omega, this]
  -- a first byte that is left is a continuation byte, `c0`, `c1` or above `f4`
  simp only [hzero, hone, htwo, hthree, hfour, if_false]
  refine Or.inr fun v n least hv t ht => ?_
  obtain ⟨base, most, hw, hbase, hmost⟩ := Utf8.width_of_lead hv
  have hmost := hmost t ht
  cases hw <;> omega

theorem nextScalar_iff : nextScalar lead s = some s' ↔
      ∃ c : Char, c.toNat ≠ 0 ∧ s = String.utf8EncodeChar c ++ s' := by
  simp only [← Utf8.decodeChar_iff]
  cases s with
  | nil => simp [nextScalar, Utf8.decodeChar]
  | cons b s =>
    have hspec := lead_spec b
    cases hlead : lead b with
    | refuse =>
      simp only [hlead] at hspec
      simp only [nextScalar, hlead, reduceCtorEq, false_iff, not_exists, not_and]
      intro c hc hdec
      obtain ⟨v, n, least, hv, hs, hl⟩ := Utf8.decodeChar_cons_iff.mp hdec
      obtain ⟨t, ht, hct, -⟩ := Utf8.continuation_eq_some hs
      rcases hspec with hzero | hnone
      · obtain ⟨rfl, rfl, rfl⟩ : 0 = v ∧ 0 = n ∧ 0 = least := by simpa [hzero] using hv
        omega
      · have := Utf8.toNat_lt c
        have := hnone v n least hv t ht
        omega
    | single =>
      simp only [hlead] at hspec
      have hl : Utf8.lead b = some (b.toNat, 0, 0) := by simp [Utf8.lead, hspec.2]
      simp only [nextScalar, hlead, Option.some.injEq, Utf8.decodeChar_cons_iff, hl]
      constructor
      · rintro rfl
        have hb : (Char.ofNat b.toNat).toNat = b.toNat :=
          Utf8.toNat_ofNat (Or.inl (by omega))
        exact ⟨Char.ofNat b.toNat, by omega, _, _, _, rfl, by rw [hb]; rfl, by omega⟩
      · rintro ⟨c, -, v, n, least, h, hs, -⟩
        obtain ⟨rfl, rfl, rfl⟩ : b.toNat = v ∧ 0 = n ∧ 0 = least := by simpa using h
        exact (by simpa [Utf8.continuation] using hs : b.toNat = c.toNat ∧ s = s').2
    | multi more c minimum =>
      simp only [hlead] at hspec
      simp only [nextScalar, hlead, Utf8.decodeChar_cons_iff, hspec.1, continueScalar_eq]
      constructor
      · intro h
        split at h
        · simp at h
        split at h
        · simp at h
        rename_i w s₁ hs
        split at h
        · simp at h
        rename_i hw
        obtain rfl : s₁ = s' := by simpa using h
        have hvalue : (Char.ofNat w).toNat = w := by
          refine Utf8.toNat_ofNat ?_
          simp only [Nat.isValidChar]
          omega
        refine ⟨Char.ofNat w, by omega, _, _, _, rfl, by rw [hvalue]; exact hs, by omega⟩
      rintro ⟨d, -, v, n, least, h, hs, hl⟩
      obtain ⟨rfl, rfl, rfl⟩ : c = v ∧ more = n ∧ minimum = least := by simpa using h
      have hvalid : d.toNat.isValidChar := d.valid
      simp only [Nat.isValidChar] at hvalid
      rw [if_neg (Nat.not_lt.mpr (length_of_continuation hs)), hs]
      exact if_neg (by omega)

/-! ### Whole strings -/

lemma utf8_of_nextScalar (h : nextScalar lead s = some s') : utf8 s = utf8 s' := by
  rw [utf8, utf8Loop, if_neg (by rintro rfl; simp [nextScalar] at h)]
  split
  · simp_all
  · rename_i s₁ h'
    obtain rfl : s₁ = s' := by simpa [h] using h'.symm
    rfl

theorem utf8_iff :
    utf8 s = true ↔ ∃ cs : List Char, (∀ c ∈ cs, c ≠ '\x00') ∧ s = Utf8.encode cs := by
  constructor
  · intro h
    induction hn : s.length using Nat.strong_induction_on generalizing s with
    | _ n ih =>
      by_cases hs : s = []
      · exact ⟨[], by simp, hs⟩
      cases hnext : nextScalar lead s with
      | none =>
        rw [utf8, utf8Loop, if_neg hs] at h
        split at h <;> simp_all
      | some s' =>
        obtain ⟨cs, hcs, hs'⟩ :=
          ih s'.length (hn ▸ nextScalar_shorter hnext) (utf8_of_nextScalar hnext ▸ h) rfl
        obtain ⟨c, hc, rfl⟩ := nextScalar_iff.mp hnext
        refine ⟨c :: cs, ?_, by rw [hs', Utf8.encode_cons]⟩
        rintro d (_ | ⟨_, hd⟩)
        · exact fun h => hc (h ▸ rfl)
        · exact hcs d hd
  rintro ⟨cs, hcs, rfl⟩
  induction cs with
  | nil => rw [Utf8.encode_nil, utf8, utf8Loop, if_pos rfl]
  | cons c cs ih =>
    have hc : c.toNat ≠ 0 := fun h => hcs c (by simp) (by rw [← Utf8.ofNat_toNat c, h])
    rw [utf8_of_nextScalar (nextScalar_iff.mpr ⟨c, hc, Utf8.encode_cons c cs⟩)]
    exact ih fun d hd => hcs d (List.mem_cons_of_mem c hd)

/-- **The two UTF-8 validators are exact**: they accept the encodings of texts without `U+0000`.
-/
theorem utf8_exact (s : List UInt8) :
    (utf8 s = true ↔
      ∃ cs : List Char, (∀ c ∈ cs, c ≠ '\x00') ∧ s = cs.flatMap String.utf8EncodeChar) ∧
    (Ws.utf8 s = true ↔
      ∃ cs : List Char, (∀ c ∈ cs, c ≠ '\x00') ∧ s = cs.flatMap String.utf8EncodeChar) := by
  rw [Ws.utf8_eq]
  exact ⟨utf8_iff, utf8_iff⟩

end OhecoBroker.Shell
