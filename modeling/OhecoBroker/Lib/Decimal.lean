/-
Decimal numerals of a fixed width and their values.

* `digitsNat_digits`, `digits_digitsNat`: the numeral of a number denotes it, and a string of
  digits is the numeral of its value;
* `readIntW`, `Field`, `scanFields`: what `sscanf` reads by a format of `%wd` and literal
  characters;
* `readIntW_digits`, `scanFields_int`: it reads a numeral of the right width.
-/
import OhecoBroker.Lib.Scanf
import OhecoBroker.Lib.Split

namespace OhecoBroker.Lib

open List

/-- A string of decimal digits. -/
def Digits (ds : List Char) : Prop := ∀ c ∈ ds, c.isDigit = true

lemma isDigit_iff (c : Char) : c.isDigit = true ↔ 48 ≤ c.toNat ∧ c.toNat ≤ 57 := by
  simp only [Char.isDigit, Bool.and_eq_true, decide_eq_true_eq]
  exact Iff.rfl

/-- A digit is the character of its value. -/
lemma digitChar_toNat {c : Char} (h : c.isDigit = true) : Nat.digitChar (c.toNat - 48) = c := by
  have hc := (isDigit_iff c).mp h
  apply Char.toNat_inj.mp
  rw [Nat.toNat_digitChar_of_lt_ten (by omega)]
  omega

lemma isDigit_digitChar {n : ℕ} (h : n < 10) : (Nat.digitChar n).isDigit = true := by
  rw [isDigit_iff, Nat.toNat_digitChar_of_lt_ten h]
  omega

lemma digitsNat_append (ds es : List Char) :
    digitsNat (ds ++ es) = digitsNat ds * 10 ^ es.length + digitsNat es := by
  have hfrom : ∀ (es : List Char) (n : ℕ),
      es.foldl (fun n c => n * 10 + (c.toNat - '0'.toNat)) n
        = n * 10 ^ es.length + digitsNat es := by
    intro es
    induction es with
    | nil => simp [digitsNat]
    | cons c es ih =>
      intro n
      rw [digitsNat, foldl_cons, foldl_cons, ih, ih, length_cons, pow_succ]
      ring
  rw [digitsNat, foldl_append, hfrom]
  rfl

lemma digitsNat_singleton (c : Char) : digitsNat [c] = c.toNat - 48 := by
  simp [digitsNat]

/-- The first digit is the most significant one. -/
lemma digitsNat_cons (c : Char) (ds : List Char) :
    digitsNat (c :: ds) = (c.toNat - 48) * 10 ^ ds.length + digitsNat ds := by
  rw [← singleton_append, digitsNat_append, digitsNat_singleton]

variable {ds : List Char}

/-- Digits hold less than their number allows. -/
lemma digitsNat_lt (h : Digits ds) : digitsNat ds < 10 ^ ds.length := by
  induction ds with
  | nil => simp [digitsNat]
  | cons c ds ih =>
    have hc := (isDigit_iff c).mp (h c mem_cons_self)
    have hds := ih fun d hd => h d (mem_cons_of_mem c hd)
    rw [digitsNat_cons, length_cons, pow_succ]
    calc (c.toNat - 48) * 10 ^ ds.length + digitsNat ds
        < (c.toNat - 48 + 1) * 10 ^ ds.length := by rw [Nat.add_mul, Nat.one_mul]; omega
      _ ≤ 10 * 10 ^ ds.length := Nat.mul_le_mul_right _ (by omega)
      _ = 10 ^ ds.length * 10 := Nat.mul_comm _ _

lemma isDigit_digits (w n : ℕ) : Digits (digits w n) := by
  induction w generalizing n with
  | zero => exact fun c hc => absurd hc not_mem_nil
  | succ w ih =>
    intro c hc
    rcases mem_append.mp hc with hc | hc
    · exact ih _ c hc
    · obtain rfl := mem_singleton.mp hc
      exact isDigit_digitChar (Nat.mod_lt _ (by decide))

theorem digitsNat_digits (w n : ℕ) : digitsNat (digits w n) = n % 10 ^ w := by
  induction w generalizing n with
  | zero => simp [digits, digitsNat, Nat.mod_one]
  | succ w ih =>
    rw [digits, digitsNat_append, ih, digitsNat_singleton,
      Nat.toNat_digitChar_of_lt_ten (Nat.mod_lt _ (by decide)), pow_succ, Nat.mul_comm (10 ^ w) 10,
      Nat.mod_mul]
    simp
    omega

/-- A number that fits is read back. -/
lemma digitsNat_digits_of_lt {w n : ℕ} (h : n < 10 ^ w) : digitsNat (digits w n) = n := by
  rw [digitsNat_digits, Nat.mod_eq_of_lt h]

theorem digits_digitsNat (h : Digits ds) : digits ds.length (digitsNat ds) = ds := by
  induction ds using List.reverseRecOn with
  | nil => rfl
  | append_singleton ds c ih =>
    have hc := h c (by simp)
    have hds : Digits ds := fun d hd => h d (mem_append_left _ hd)
    have hlt := (isDigit_iff c).mp hc
    have hval : digitsNat (ds ++ [c]) = digitsNat ds * 10 + (c.toNat - 48) := by
      rw [digitsNat_append, digitsNat_singleton, length_singleton, pow_one]
    rw [length_append, length_singleton, digits, hval,
      show (digitsNat ds * 10 + (c.toNat - 48)) / 10 = digitsNat ds by omega,
      show (digitsNat ds * 10 + (c.toNat - 48)) % 10 = c.toNat - 48 by omega, ih hds,
      digitChar_toNat hc]

/-- `%wd`: at most `w` characters. -/
def readIntW (w : ℕ) (s : List Char) : Option (ℤ × List Char) :=
  let s := s.dropWhile isSpace
  (readInt (s.take w)).map fun r => (r.1, r.2 ++ s.drop w)

lemma readIntW_digits {s : List Char} (hne : ds ≠ []) (hds : Digits ds) :
    readIntW ds.length (ds ++ s) = some ((digitsNat ds : ℤ), s) := by
  have hw : Word ds := (Numeral.plain hne hds).word
  have hdrop : (ds ++ s).dropWhile isSpace = ds ++ s := by
    simpa using (span_append (p := isSpace) (w := []) (by simp) (hw.starts s)).2
  have hread := (readInt_digits (s := []) hne hds (by simp [Starts])).1
  rw [append_nil] at hread
  simp only [readIntW, hdrop, take_left, drop_left, hread]
  rfl

/-- `%wd` or a literal character. -/
inductive Field where
  | int (w : ℕ)
  | lit (c : Char)
  deriving DecidableEq

/-- The numbers read, and the rest if no directive fails. -/
def scanFields : List Field → List Char → List ℤ × Option (List Char)
  | [], s => ([], some s)
  | .int w :: fs, s =>
    match readIntW w s with
    | none => ([], none)
    | some (z, s) => (z :: (scanFields fs s).1, (scanFields fs s).2)
  | .lit _ :: _, [] => ([], none)
  | .lit c :: fs, x :: s => if x = c then scanFields fs s else ([], none)

@[simp] lemma scanFields_nil (s : List Char) : scanFields [] s = ([], some s) := rfl

@[simp] lemma scanFields_lit (c : Char) (fs : List Field) (s : List Char) :
    scanFields (.lit c :: fs) (c :: s) = scanFields fs s := if_pos rfl

lemma scanFields_int {w : ℕ} (fs : List Field) (s : List Char)
    (hlen : ds.length = w) (hne : ds ≠ []) (hds : Digits ds) :
    scanFields (.int w :: fs) (ds ++ s) =
      ((digitsNat ds : ℤ) :: (scanFields fs s).1, (scanFields fs s).2) := by
  subst hlen
  rw [scanFields, readIntW_digits hne hds]

end OhecoBroker.Lib
