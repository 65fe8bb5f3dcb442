/-
The three scans that refuse U+0000 before a JSON text is decoded: in `ob_peer_json_parse`
(`peer/control.c`), in `auth_json` (`ob_auth.c`) and in `enqueue` (`ob_ws.c`).  They follow the
quotation marks and the escapes, and know nothing else of JSON.

* `cStringScan`, `peerScan`, `authScan`, `frameScan`, `wsScan`: the loops;
* `Exact`, `exact_cStringScan`, `exact_frameScan`: at each item of a string the loops do what a
  scan that refuses U+0000 exactly does;
* `nul_scans_exact`: **on every JSON text each of them refuses exactly when a string literal has a
  unicode escape for U+0000**.
-/
import OhecoBroker.Lib.Json

namespace OhecoBroker.NulScan

open Lib.Json List

/-! ### The code -/

def zeros : List UInt8 := [ch '0', ch '0', ch '0', ch '0']

/-- The loop of `ob_peer_json_parse` and `auth_json`. -/
def cStringScan : Bool → List UInt8 → Bool
  | _, [] => false
  | false, c :: s => cStringScan (c = quote) s
  | true, c :: s =>
    if c = quote then cStringScan false s
    else if c = backslash then
      match s with
      | [] => true
      | d :: s => if d = ch 'u' ∧ s.take 4 = zeros then true else cStringScan true s
    else cStringScan true s

def peerScan (text : List UInt8) : Bool := cStringScan false text

def authScan (text : List UInt8) : Bool := cStringScan false text

/-- The loop of `enqueue`: a quotation mark turns `quoted` over. -/
def frameScan : Bool → List UInt8 → Bool
  | _, [] => false
  | quoted, c :: s =>
    if c = quote then frameScan (!quoted) s
    else if quoted = true ∧ c = backslash then
      match s with
      | [] => false
      | d :: s =>
        if 4 ≤ s.length ∧ d = ch 'u' ∧ s.take 4 = zeros then true else frameScan quoted s
    else frameScan quoted s

def wsScan (frame : List UInt8) : Bool := frameScan false frame

/-! ### What the scans do on a text -/

/-- A unicode escape that denotes U+0000. -/
def IsNul (i : Item) : Prop := i.unit = some 0

/-- A scan that refuses U+0000 exactly. -/
structure Exact (f : Bool → List UInt8 → Bool) : Prop where
  done : f false [] = false
  outside : ∀ b s, b ≠ quote → f false (b :: s) = f false s
  opens : ∀ s, f false (quote :: s) = f true s
  closes : ∀ s, f true (quote :: s) = f false s
  plain : ∀ b s, b ≠ quote → b ≠ backslash → f true (b :: s) = f true s
  escape : ∀ b s, b ≠ ch 'u' → f true (backslash :: b :: s) = f true s
  unicode : ∀ s, f true (backslash :: ch 'u' :: s) = if s.take 4 = zeros then true else f true s

lemma backslash_ne_quote : backslash ≠ quote := by decide

lemma exact_cStringScan : Exact cStringScan where
  done := rfl
  outside b s hb := by rw [cStringScan, decide_eq_false hb]
  opens s := by rw [cStringScan, decide_eq_true rfl]
  closes s := by rw [cStringScan.eq_def]; exact if_pos rfl
  plain b s hb hb' := by rw [cStringScan.eq_def]; simp only [hb, hb', if_false]
  escape b s hb := by
    rw [cStringScan.eq_def]
    simp only [backslash_ne_quote, if_false, if_true]
    exact if_neg fun h => hb h.1
  unicode s := by
    rw [cStringScan.eq_def]
    simp only [backslash_ne_quote, if_false, if_true, true_and]

lemma exact_frameScan : Exact frameScan where
  done := rfl
  outside b s hb := by rw [frameScan.eq_def]; simp [hb]
  opens s := by rw [frameScan.eq_def]; exact if_pos rfl
  closes s := by rw [frameScan.eq_def]; exact if_pos rfl
  plain b s hb hb' := by rw [frameScan.eq_def]; simp [hb, hb']
  escape b s hb := by
    rw [frameScan.eq_def]
    simp only [backslash_ne_quote, if_false, and_self, if_true]
    exact if_neg fun h => hb h.2.1
  unicode s := by
    have hlen : s.take 4 = zeros → 4 ≤ s.length := by
      intro h
      have := congrArg List.length h
      simp only [length_take, zeros, length_cons, length_nil] at this
      omega
    rw [frameScan.eq_def]
    simp only [backslash_ne_quote, if_false, and_self, if_true, true_and]
    by_cases h : s.take 4 = zeros
    · rw [if_pos ⟨hlen h, h⟩, if_pos h]
    · rw [if_neg fun h' => h h'.2, if_neg h]

instance (i : Item) : Decidable (IsNul i) := inferInstanceAs (Decidable (_ = _))

variable {b : UInt8}

lemma hexVal_eq_zero : hexVal b = some 0 ↔ b = ch '0' := by
  have h0 : (ch '0').toNat = 48 := rfl
  have h9 : (ch '9').toNat = 57 := rfl
  have ha : (ch 'a').toNat = 97 := rfl
  have hA : (ch 'A').toNat = 65 := rfl
  unfold hexVal
  simp only [UInt8.le_iff_toNat_le, ← UInt8.toNat_inj]
  split_ifs with h1 h2 h3
  · simp only [Option.some.injEq]
    omega
  · simp only [Option.some.injEq]
    omega
  · simp only [Option.some.injEq]
    omega
  · simp only [false_iff]
    omega

lemma hexVal_ne_mark (h : (hexVal b).isSome) : b ≠ quote ∧ b ≠ backslash := by
  constructor <;> rintro rfl <;> exact absurd h (by decide)

lemma isNul_unicode {a c d : UInt8} (h : Item.Ok (.unicode a b c d)) :
    IsNul (.unicode a b c d) ↔ [a, b, c, d] = zeros := by
  have hsome : ∀ x ∈ [a, b, c, d], (hexVal x).isSome := h
  simp only [mem_cons, not_mem_nil, or_false, forall_eq_or_imp, forall_eq] at hsome
  obtain ⟨⟨va, ha⟩, ⟨vb, hb⟩, ⟨vc, hc⟩, ⟨vd, hd⟩⟩ := And.intro (Option.isSome_iff_exists.mp hsome.1)
    (And.intro (Option.isSome_iff_exists.mp hsome.2.1) (And.intro
      (Option.isSome_iff_exists.mp hsome.2.2.1) (Option.isSome_iff_exists.mp hsome.2.2.2)))
  have hzero : ∀ {x : UInt8} {v : ℕ}, hexVal x = some v → (x = ch '0' ↔ v = 0) := by
    intro x v hx
    rw [← hexVal_eq_zero, hx, Option.some.injEq]
  simp only [IsNul, Item.unit, ha, hb, hc, hd, zeros, List.cons.injEq, and_true, hzero ha, hzero hb,
    hzero hc, hzero hd]
  simp
  omega

variable {f : Bool → List UInt8 → Bool}

lemma Exact.item (h : Exact f) {i : Item} (hi : i.Ok) (s : List UInt8) :
    f true (i.bytes ++ s) = (decide (IsNul i) || f true s) := by
  cases i with
  | plain b =>
    rw [decide_eq_false (by simp [IsNul, Item.unit]), Bool.false_or]
    exact h.plain b s hi.2.1 hi.2.2
  | escape b =>
    have hb : b ∈ escapes := hi
    rw [decide_eq_false (by simp [IsNul, Item.unit]), Bool.false_or]
    exact h.escape b s fun hu => absurd (hu ▸ hb) (by decide)
  | unicode a b c d =>
    have hmark : ∀ x ∈ [a, b, c, d], x ≠ quote ∧ x ≠ backslash := fun x hx =>
      hexVal_ne_mark (hi x hx)
    have htake : (a :: b :: c :: d :: s).take 4 = [a, b, c, d] := rfl
    rw [Item.bytes, cons_append, cons_append, h.unicode]
    simp only [cons_append, nil_append, htake]
    by_cases hnul : [a, b, c, d] = zeros
    · rw [if_pos hnul, decide_eq_true ((isNul_unicode hi).mpr hnul), Bool.true_or]
    rw [if_neg hnul, decide_eq_false (mt (isNul_unicode hi).mp hnul), Bool.false_or]
    simp only [mem_cons, not_mem_nil, or_false, forall_eq_or_imp, forall_eq] at hmark
    rw [h.plain a _ hmark.1.1 hmark.1.2, h.plain b _ hmark.2.1.1 hmark.2.1.2,
      h.plain c _ hmark.2.2.1.1 hmark.2.2.1.2, h.plain d _ hmark.2.2.2.1 hmark.2.2.2.2]

/-- A string, by induction on its items. -/
lemma Exact.body (h : Exact f) {items : List Item} (hitems : ∀ i ∈ items, i.Ok) (s : List UInt8) :
    f true (body items ++ s) = (items.any (IsNul ·) || f true s) := by
  induction items with
  | nil => simp
  | cons i items ih =>
    rw [body_cons, append_assoc, h.item (hitems i mem_cons_self),
      ih fun j hj => hitems j (mem_cons_of_mem i hj), any_cons, Bool.or_assoc]

theorem Exact.text (h : Exact f) {t : List UInt8} {ss : List (List Item)} (ht : Text t ss) :
    f false t = true ↔ ∃ items ∈ ss, ∃ i ∈ items, IsNul i := by
  have hpass := ht.pass (f := f false) (g := fun items r => items.any (IsNul ·) || r) h.outside
    fun items s hitems => by
      rw [literal, cons_append, h.opens, append_assoc, h.body hitems,
        singleton_append, h.closes]
  have hfold : ∀ r, ss.foldr (fun items r => items.any (IsNul ·) || r) r = true ↔
      (∃ items ∈ ss, ∃ i ∈ items, IsNul i) ∨ r = true := by
    intro r
    clear hpass ht
    induction ss with
    | nil => simp
    | cons items ss ih => simp [ih, or_assoc]
  rw [hpass, hfold, h.done]
  simp

/-- **The three U+0000 pre-scans are exact and agree.** -/
theorem nul_scans_exact {t : List UInt8} {ss : List (List Item)} (ht : Text t ss) :
    (peerScan t = true ↔ ∃ items ∈ ss, ∃ i ∈ items, IsNul i) ∧
    (authScan t = true ↔ ∃ items ∈ ss, ∃ i ∈ items, IsNul i) ∧
    (wsScan t = true ↔ ∃ items ∈ ss, ∃ i ∈ items, IsNul i) :=
  ⟨exact_cStringScan.text ht, exact_cStringScan.text ht, exact_frameScan.text ht⟩

def escapedSolidus : List Item :=
  [.escape backslash, .plain (ch 'u'), .plain (ch '0'), .plain (ch '0'), .plain (ch '0'),
    .plain (ch '0')]

/-- The text of that string alone passes all three. -/
theorem nul_scans_exact_escaped :
    Text (literal escapedSolidus) [escapedSolidus] ∧ peerScan (literal escapedSolidus) = false ∧
      authScan (literal escapedSolidus) = false ∧ wsScan (literal escapedSolidus) = false := by
  have hok : ∀ i ∈ escapedSolidus, i.Ok := by
    simp only [escapedSolidus, mem_cons, not_mem_nil, or_false, forall_eq_or_imp,
      forall_eq, Item.Ok]
    decide
  have ht : Text (literal escapedSolidus) [escapedSolidus] :=
    ⟨[], _, [], by simp [Ws], .string hok, by simp [Ws], by simp⟩
  have hnone : ¬∃ items ∈ [escapedSolidus], ∃ i ∈ items, IsNul i := by decide
  obtain ⟨hpeer, hauth, hws⟩ := nul_scans_exact ht
  exact ⟨ht, by simpa using mt hpeer.mp hnone, by simpa using mt hauth.mp hnone,
    by simpa using mt hws.mp hnone⟩

end OhecoBroker.NulScan
