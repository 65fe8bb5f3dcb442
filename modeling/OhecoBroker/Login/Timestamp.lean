/-
The native parser of the server's UTC times (`timestamp` of `ob_auth.c`) and the server's
formatting of them (`fromTimestamp` of `control.go`, written as RFC3339Nano).

* `timestamp`, `fraction`, `stampValue`: the parser;
* `Stamp`, `Stamp.text`, `Stamp.nanos`: a time, its spelling and the instant it denotes;
* `timestamp_text`, `text_of_timestamp`: the parser accepts the spellings of times, and nothing
  else;
* `timestamp_exact`: **the parser is exact, and reads back every time the server writes**.
-/
import Mathlib.Data.List.DropRight
import OhecoBroker.Lib.Calendar
import OhecoBroker.Lib.Decimal

namespace OhecoBroker.Login

open Lib List

/-! ### The code -/

def stampFormat : List Field :=
  [.int 4, .lit '-', .int 2, .lit '-', .int 2, .lit 'T', .int 2, .lit ':', .int 2, .lit ':', .int 2]

def isSeparator (i : ℕ) : Bool := i = 4 || i = 7 || i = 10 || i = 13 || i = 16

def monthDays : List ℤ := [31, 28, 31, 30, 31, 30, 31, 31, 30, 31, 30, 31]

/-- The milliseconds, the number of digits and the rest. -/
def fractionLoop (millis digits : ℕ) : List Char → ℕ × ℕ × List Char
  | [] => (millis, digits, [])
  | c :: p =>
    if c.isDigit then
      fractionLoop (if digits < 3 then millis * 10 + (c.toNat - '0'.toNat) else millis)
        (digits + 1) p
    else (millis, digits, c :: p)

/-- The optional fraction; `none` where the parser returns 0. -/
def fraction : List Char → Option (ℕ × List Char)
  | '.' :: p =>
    let (millis, digits, p) := fractionLoop 0 0 p
    if digits = 0 ∨ 9 < digits then none else some (millis * 10 ^ (3 - digits), p)
  | p => some (0, p)

/-- The civil-day formula. -/
def stampValue (y m d h min sec : ℤ) (millis : ℕ) : ℤ :=
  let adjusted := y - (if m ≤ 2 then 1 else 0)
  let era := adjusted.tdiv 400
  let yoe := adjusted - era * 400
  let shifted := m + (if 2 < m then -3 else 9)
  let doy := (153 * shifted + 2).tdiv 5 + d - 1
  let days := era * 146097 + yoe * 365 + yoe.tdiv 4 - yoe.tdiv 100 + doy - 719468
  ((days * 24 + h) * 60 + min) * 60000 + sec * 1000 + millis

/-- `timestamp`: milliseconds since 1970, 0 for a text it refuses. -/
def timestamp (s : List Char) : ℤ :=
  if s.length < 20 ∨ 30 < s.length then 0
  else
    let scanned := scanFields stampFormat s
    let n := scanned.2.elim 0 fun rest => s.length - rest.length
    match scanned.1 with
    | [y, m, d, h, min, sec] =>
      if n ≠ 19 ∨ s[4]? ≠ some '-' ∨ s[7]? ≠ some '-' ∨ s[10]? ≠ some 'T' ∨ s[13]? ≠ some ':'
          ∨ s[16]? ≠ some ':' ∨ y < 1970 ∨ 9999 < y ∨ m < 1 ∨ 12 < m ∨ d < 1 ∨ h < 0 ∨ 23 < h
          ∨ min < 0 ∨ 59 < min ∨ sec < 0 ∨ 59 < sec then 0
      else if (List.range 19).any fun i => !isSeparator i && !(s[i]?.any Char.isDigit) then 0
      else
        let leap := (y.tmod 4 = 0 ∧ y.tmod 100 ≠ 0) ∨ y.tmod 400 = 0
        if monthDays.getD (m - 1).toNat 0 + (if m = 2 ∧ leap then 1 else 0) < d then 0
        else
          match fraction (s.drop 19) with
          | none => 0
          | some (millis, p) => if p ≠ ['Z'] then 0 else stampValue y m d h min sec millis
    | _ => 0

/-! ### Well-formed times -/

/-- A day of 1970 to 9999, a time without leap seconds, up to nine digits of a second. -/
structure Stamp where
  date : Date
  hour : ℕ
  minute : ℕ
  second : ℕ
  fraction : List Char
  hyear : 1970 ≤ date.year ∧ date.year ≤ 9999
  hhour : hour ≤ 23
  hminute : minute ≤ 59
  hsecond : second ≤ 59
  hfraction : fraction.length ≤ 9 ∧ Digits fraction

def fractionText (ds : List Char) : List Char := if ds = [] then [] else '.' :: ds

def layout (year month day hour minute second rest : List Char) : List Char :=
  year ++ '-' ::
    (month ++ '-' :: (day ++ 'T' :: (hour ++ ':' :: (minute ++ ':' :: (second ++ rest)))))

def Stamp.text (t : Stamp) : List Char :=
  layout (digits 4 t.date.year) (digits 2 t.date.month) (digits 2 t.date.day) (digits 2 t.hour)
    (digits 2 t.minute) (digits 2 t.second) (fractionText t.fraction ++ ['Z'])

def fractionNanos (ds : List Char) : ℕ := digitsNat ds * 10 ^ (9 - ds.length)

/-- Nanoseconds since 1970-01-01T00:00:00Z. -/
def Stamp.nanos (t : Stamp) : ℕ :=
  (((t.date.dayNumber * 24 + t.hour) * 60 + t.minute) * 60 + t.second) * 10 ^ 9
    + fractionNanos t.fraction

/-! ### The fraction -/

variable {ds s : List Char}

lemma fractionLoop_digits {p : List Char} (hds : Digits ds) (hp : Starts (!Char.isDigit ·) p)
    (millis digits : ℕ) :
    fractionLoop millis digits (ds ++ p) =
      (millis * 10 ^ min ds.length (3 - digits) + digitsNat (ds.take (3 - digits)),
        digits + ds.length, p) := by
  induction ds generalizing millis digits with
  | nil =>
    cases p with
    | nil => simp [fractionLoop, digitsNat]
    | cons c p =>
      have hc : c.isDigit = false := by simpa using hp c rfl
      simp [fractionLoop, hc, digitsNat]
  | cons c ds ih =>
    have hc := hds c mem_cons_self
    rw [cons_append, fractionLoop, if_pos hc, ih fun d hd => hds d (mem_cons_of_mem c hd)]
    by_cases h : digits < 3
    · obtain ⟨k, hk⟩ : ∃ k, 3 - digits = k + 1 := ⟨2 - digits, by omega⟩
      have hk' : 3 - (digits + 1) = k := by omega
      rw [if_pos h, hk, hk', take_succ_cons, digitsNat_cons, length_take,
        length_cons, Nat.succ_min_succ, pow_succ, Nat.min_comm k]
      simp only [Prod.mk.injEq, and_true]
      constructor
      · have : '0'.toNat = 48 := rfl
        rw [this]
        ring
      · omega
    have h0 : 3 - digits = 0 := by omega
    have h1 : 3 - (digits + 1) = 0 := by omega
    rw [if_neg h, h0, h1]
    simp [digitsNat]
    omega

lemma millis_eq (hds : Digits ds) (hlen : ds.length ≤ 9) :
    digitsNat (ds.take 3) * 10 ^ (3 - ds.length) = fractionNanos ds / 10 ^ 6 := by
  rw [fractionNanos]
  by_cases h : ds.length ≤ 3
  · rw [take_of_length_le h, show 9 - ds.length = 3 - ds.length + 6 by omega, pow_add,
      ← Nat.mul_assoc, Nat.mul_div_cancel _ (by positivity)]
  -- the digits from the fourth on are less than one millisecond
  have hdrop : Digits (ds.drop 3) := fun c hc => hds c (mem_of_mem_drop hc)
  have hlt := digitsNat_lt hdrop
  rw [length_drop] at hlt
  have hval : digitsNat ds =
      digitsNat (ds.take 3) * 10 ^ (ds.length - 3) + digitsNat (ds.drop 3) := by
    rw [← length_drop, ← digitsNat_append, take_append_drop]
  have hpow : 10 ^ (ds.length - 3) * 10 ^ (9 - ds.length) = 10 ^ 6 := by
    rw [← pow_add]
    congr 1
    omega
  have hsmall : digitsNat (ds.drop 3) * 10 ^ (9 - ds.length) < 10 ^ 6 := by
    rw [← hpow]
    exact Nat.mul_lt_mul_of_pos_right hlt (by positivity)
  rw [hval, Nat.add_mul, Nat.mul_assoc, hpow, Nat.add_comm,
    Nat.add_mul_div_right _ _ (by positivity), Nat.div_eq_of_lt hsmall,
    show 3 - ds.length = 0 by omega]
  simp

lemma starts_Z : Starts (!Char.isDigit ·) ['Z'] := by
  intro c hc
  obtain rfl : 'Z' = c := by simpa using hc
  decide

lemma fraction_text (hds : Digits ds) (hlen : ds.length ≤ 9) :
    fraction (fractionText ds ++ ['Z']) = some (fractionNanos ds / 10 ^ 6, ['Z']) := by
  unfold fractionText
  split
  · rename_i h
    subst h
    rfl
  rename_i hne
  have hpos : ds.length ≠ 0 := fun h => hne (length_eq_zero_iff.mp h)
  rw [cons_append, fraction, fractionLoop_digits hds starts_Z]
  simp only [Nat.zero_mul, Nat.zero_add, Nat.sub_zero]
  rw [if_neg (by omega), millis_eq hds hlen]

lemma text_of_fraction {p : List Char} {millis : ℕ} (h : fraction p = some (millis, ['Z'])) :
    ∃ ds, Digits ds ∧ ds.length ≤ 9 ∧ p = fractionText ds ++ ['Z'] := by
  unfold fraction at h
  split at h
  · rename_i p
    -- the run of digits after the point
    have hsplit : p = p.takeWhile Char.isDigit ++ p.dropWhile Char.isDigit :=
      takeWhile_append_dropWhile.symm
    have hds : Digits (p.takeWhile Char.isDigit) := fun c hc => mem_takeWhile_imp hc
    rw [hsplit, fractionLoop_digits hds (starts_dropWhile _ _)] at h
    simp only at h
    split at h
    · simp at h
    rename_i hcount
    obtain ⟨-, hrest⟩ := Prod.mk.inj (Option.some.inj h)
    refine ⟨p.takeWhile Char.isDigit, hds, by omega, ?_⟩
    have hne : p.takeWhile Char.isDigit ≠ [] := fun hnil => hcount (by simp [hnil])
    rw [fractionText, if_neg hne, cons_append, ← hrest, ← hsplit]
  · obtain ⟨-, rfl⟩ := Prod.mk.inj (Option.some.inj h)
    exact ⟨[], fun c hc => absurd hc not_mem_nil, by simp, rfl⟩

/-! ### The fixed part -/

/-- Six strings of 4, 2, 2, 2, 2 and 2 digits. -/
structure FixedDigits (year month day hour minute second : List Char) : Prop where
  year : year.length = 4 ∧ Digits year
  month : month.length = 2 ∧ Digits month
  day : day.length = 2 ∧ Digits day
  hour : hour.length = 2 ∧ Digits hour
  minute : minute.length = 2 ∧ Digits minute
  second : second.length = 2 ∧ Digits second

/-- The format reads the six numbers. -/
lemma scanFields_layout {a b c e f g : List Char} (h : FixedDigits a b c e f g) (p : List Char) :
    scanFields stampFormat (layout a b c e f g p) =
      ([(digitsNat a : ℤ), digitsNat b, digitsNat c, digitsNat e, digitsNat f, digitsNat g],
        some p) := by
  have hne : ∀ {ds : List Char} {n : ℕ}, ds.length = n + 1 → ds ≠ [] := by
    rintro ds n hlen rfl
    simp at hlen
  simp only [stampFormat, layout]
  rw [scanFields_int _ _ h.year.1 (hne h.year.1) h.year.2, scanFields_lit,
    scanFields_int _ _ h.month.1 (hne h.month.1) h.month.2, scanFields_lit,
    scanFields_int _ _ h.day.1 (hne h.day.1) h.day.2, scanFields_lit,
    scanFields_int _ _ h.hour.1 (hne h.hour.1) h.hour.2, scanFields_lit,
    scanFields_int _ _ h.minute.1 (hne h.minute.1) h.minute.2, scanFields_lit,
    scanFields_int _ _ h.second.1 (hne h.second.1) h.second.2, scanFields_nil]

/-- A text cut at a character. -/
lemma drop_eq_cut {c : Char} (n k : ℕ) (h : s[n + k]? = some c) :
    s.drop n = (s.drop n).take k ++ c :: s.drop (n + k + 1) := by
  obtain ⟨hlt, hc⟩ := List.getElem?_eq_some_iff.mp h
  rw [← hc, ← drop_eq_getElem_cons hlt, ← drop_drop, take_append_drop]

lemma layout_of_checks (hlen : 20 ≤ s.length)
    (h4 : s[4]? = some '-') (h7 : s[7]? = some '-') (h10 : s[10]? = some 'T')
    (h13 : s[13]? = some ':') (h16 : s[16]? = some ':')
    (hdigits : ¬((List.range 19).any fun i => !isSeparator i && !(s[i]?.any Char.isDigit)) = true) :
    ∃ a b c e f g p, FixedDigits a b c e f g ∧ s = layout a b c e f g p := by
  have hslice : ∀ n k, n + k ≤ 19 → (∀ i, n ≤ i → i < n + k → isSeparator i = false) →
      ((s.drop n).take k).length = k ∧ Digits ((s.drop n).take k) := by
    intro n k hnk hsep
    refine ⟨by rw [length_take, length_drop]; omega, fun x hx => ?_⟩
    obtain ⟨i, hi, rfl⟩ := getElem_of_mem hx
    rw [length_take] at hi
    by_contra hdigit
    refine hdigits (any_eq_true.mpr ⟨n + i, mem_range.mpr (by omega), ?_⟩)
    rw [getElem_take, getElem_drop] at hdigit
    rw [hsep _ (by omega) (by omega), List.getElem?_eq_getElem (by omega)]
    simpa using hdigit
  refine ⟨(s.drop 0).take 4, (s.drop 5).take 2, (s.drop 8).take 2, (s.drop 11).take 2,
    (s.drop 14).take 2, (s.drop 17).take 2, s.drop 19, ?_, ?_⟩
  · constructor <;> exact hslice _ _ (by omega) (by decide)
  have hsecond : s.drop 17 = (s.drop 17).take 2 ++ s.drop 19 := by
    rw [← drop_drop (i := 2) (j := 17), take_append_drop]
  rw [layout, ← hsecond, ← drop_eq_cut 14 2 h16, ← drop_eq_cut 11 2 h13, ← drop_eq_cut 8 2 h10,
    ← drop_eq_cut 5 2 h7, ← drop_eq_cut 0 4 h4]
  rfl

lemma checks_layout {a b c e f g : List Char} (h : FixedDigits a b c e f g) (p : List Char) :
    let s := layout a b c e f g p
    s.length = 19 + p.length ∧ s[4]? = some '-' ∧ s[7]? = some '-' ∧ s[10]? = some 'T' ∧
      s[13]? = some ':' ∧ s[16]? = some ':' ∧ s.drop 19 = p ∧
      ((List.range 19).any fun i => !isSeparator i && !(s[i]?.any Char.isDigit)) = false := by
  obtain ⟨⟨ha, da⟩, ⟨hb, db⟩, ⟨hc, dc⟩, ⟨he, de⟩, ⟨hf, df⟩, ⟨hg, dg⟩⟩ := h
  obtain ⟨a0, a', rfl⟩ := exists_cons_of_length_eq_add_one ha
  obtain ⟨a1, a2, a3, rfl⟩ := length_eq_three.mp (Nat.succ.inj ha)
  obtain ⟨b0, b1, rfl⟩ := length_eq_two.mp hb
  obtain ⟨c0, c1, rfl⟩ := length_eq_two.mp hc
  obtain ⟨e0, e1, rfl⟩ := length_eq_two.mp he
  obtain ⟨f0, f1, rfl⟩ := length_eq_two.mp hf
  obtain ⟨g0, g1, rfl⟩ := length_eq_two.mp hg
  simp only [Digits, mem_cons, not_mem_nil, or_false, forall_eq_or_imp, forall_eq] at *
  refine ⟨?_, rfl, rfl, rfl, rfl, rfl, rfl, ?_⟩
  · simp only [layout, cons_append, nil_append, length_cons]
    omega
  · simp [layout, isSeparator, List.range, List.range.loop, *]

lemma monthDays_eq (y m : ℕ) (hm : 1 ≤ m ∧ m ≤ 12) :
    monthDays.getD ((m : ℤ) - 1).toNat 0 +
        (if (m : ℤ) = 2 ∧ (((y : ℤ).tmod 4 = 0 ∧ (y : ℤ).tmod 100 ≠ 0) ∨ (y : ℤ).tmod 400 = 0)
          then 1 else 0)
      = (monthLength y m : ℤ) := by
  have hleap : (((y : ℤ).tmod 4 = 0 ∧ (y : ℤ).tmod 100 ≠ 0) ∨ (y : ℤ).tmod 400 = 0) ↔ IsLeap y := by
    rw [Int.tmod_eq_emod_of_nonneg (by omega), Int.tmod_eq_emod_of_nonneg (by omega),
      Int.tmod_eq_emod_of_nonneg (by omega), IsLeap]
    omega
  obtain ⟨h1, h12⟩ := hm
  simp only [hleap]
  interval_cases m <;> simp [monthDays, monthLength]
  split <;> rfl

lemma stampValue_eq (d : Date) (hy : 1970 ≤ d.year) (h min sec millis : ℕ) :
    stampValue d.year d.month d.day h min sec millis =
      ((((d.dayNumber * 24 + h) * 60 + min) * 60 + sec) * 1000 + millis : ℕ) := by
  have hciv := dayNumber_eq_civil d hy
  have hm := d.hmonth
  have hd := d.hday
  simp only [stampValue]
  by_cases h2 : d.month ≤ 2
  · rw [if_pos h2, if_neg (by omega)] at hciv
    rw [if_pos (by omega), if_neg (by omega), Int.tdiv_eq_ediv_of_nonneg (by omega),
      Int.tdiv_eq_ediv_of_nonneg (by omega), Int.tdiv_eq_ediv_of_nonneg (by omega),
      Int.tdiv_eq_ediv_of_nonneg (by omega)]
    omega
  rw [if_neg h2, if_pos (by omega)] at hciv
  rw [if_neg (by omega), if_pos (by omega), Int.tdiv_eq_ediv_of_nonneg (by omega),
    Int.tdiv_eq_ediv_of_nonneg (by omega), Int.tdiv_eq_ediv_of_nonneg (by omega),
    Int.tdiv_eq_ediv_of_nonneg (by omega)]
  omega

/-! ### The whole parser -/

lemma Stamp.fixedDigits (t : Stamp) :
    FixedDigits (digits 4 t.date.year) (digits 2 t.date.month) (digits 2 t.date.day)
      (digits 2 t.hour) (digits 2 t.minute) (digits 2 t.second) := by
  constructor <;> exact ⟨length_digits _ _, isDigit_digits _ _⟩

lemma Stamp.day_lt (t : Stamp) : t.date.day < 10 ^ 2 := by
  have hm : monthLength t.date.year t.date.month ≤ 31 := by
    unfold monthLength
    split <;> first | omega | (split <;> omega)
  have := t.date.hday
  omega

lemma length_fractionText (ds : List Char) (h : ds.length ≤ 9) :
    1 ≤ (fractionText ds ++ ['Z']).length ∧ (fractionText ds ++ ['Z']).length ≤ 11 := by
  rw [length_append, fractionText]
  split
  · simp
  · simp only [length_cons, length_nil]
    omega

theorem timestamp_text (t : Stamp) : timestamp t.text = (t.nanos / 10 ^ 6 : ℕ) := by
  obtain ⟨hlen, h4, h7, h10, h13, h16, hdrop, hany⟩ :=
    checks_layout t.fixedDigits (fractionText t.fraction ++ ['Z'])
  have hfrac := length_fractionText t.fraction t.hfraction.1
  have hm := t.date.hmonth
  have hd := t.date.hday
  have hday := t.day_lt
  obtain ⟨hy, hh, hmin, hsec⟩ :=
    And.intro t.hyear (And.intro t.hhour (And.intro t.hminute t.hsecond))
  have hscan := scanFields_layout t.fixedDigits (fractionText t.fraction ++ ['Z'])
  rw [digitsNat_digits_of_lt (by omega), digitsNat_digits_of_lt (by omega),
    digitsNat_digits_of_lt hday, digitsNat_digits_of_lt (by omega),
    digitsNat_digits_of_lt (by omega), digitsNat_digits_of_lt (by omega)] at hscan
  rw [Stamp.text, timestamp, if_neg (by omega)]
  simp only [hscan, Option.elim_some, h4, h7, h10, h13, h16, hdrop, hany, ne_eq, not_true,
    false_or, Bool.false_eq_true, if_false, monthDays_eq _ _ hm]
  rw [if_neg (by omega), if_neg (by omega), fraction_text t.hfraction.2 t.hfraction.1]
  simp only [not_true, if_false]
  rw [stampValue_eq t.date hy.1, Stamp.nanos]
  congr 1
  omega

theorem text_of_timestamp (h : timestamp s ≠ 0) : ∃ t : Stamp, s = t.text := by
  unfold timestamp at h
  split at h
  · exact absurd rfl h
  rename_i hlen
  simp only at h
  split at h
  · rename_i y m d hour min sec hscan
    split at h
    · exact absurd rfl h
    rename_i hrange
    simp only [not_or, not_not, ne_eq] at hrange
    obtain ⟨-, h4, h7, h10, h13, h16, hrange⟩ := hrange
    split at h
    · exact absurd rfl h
    rename_i hdigits
    obtain ⟨a, b, c, e, f, g, p, hfixed, rfl⟩ :=
      layout_of_checks (by omega) h4 h7 h10 h13 h16 hdigits
    -- the numbers are those of the digits
    rw [scanFields_layout hfixed] at hscan
    simp only [List.cons.injEq, and_true] at hscan
    obtain ⟨rfl, rfl, rfl, rfl, rfl, rfl⟩ := hscan
    rw [monthDays_eq _ _ (by omega), (checks_layout hfixed p).2.2.2.2.2.2.1] at h
    split at h
    · exact absurd rfl h
    rename_i hday
    split at h
    · exact absurd rfl h
    rename_i millis rest hfraction
    split at h
    · exact absurd rfl h
    rename_i hZ
    obtain rfl := not_not.mp hZ
    obtain ⟨ds, hds, hlen9, rfl⟩ := text_of_fraction hfraction
    refine ⟨{ date := ⟨digitsNat a, digitsNat b, digitsNat c, by omega, by omega⟩,
              hour := digitsNat e, minute := digitsNat f, second := digitsNat g, fraction := ds,
              hyear := by constructor <;> simp only <;> omega, hhour := by omega,
              hminute := by omega, hsecond := by omega, hfraction := ⟨hlen9, hds⟩ }, ?_⟩
    have hnumeral : ∀ {ds : List Char} {w : ℕ}, ds.length = w ∧ Digits ds →
        digits w (digitsNat ds) = ds := by
      rintro ds w ⟨rfl, hds⟩
      exact digits_digitsNat hds
    simp only [Stamp.text, hnumeral hfixed.year, hnumeral hfixed.month, hnumeral hfixed.day,
      hnumeral hfixed.hour, hnumeral hfixed.minute, hnumeral hfixed.second]
  · exact absurd rfl h

/-! ### The server's times -/

structure Utc where
  date : Date
  hour : ℕ
  minute : ℕ
  second : ℕ
  nanosecond : ℕ

/-- `fromTimestamp`: `time.UnixMilli(n).UTC()`. -/
def fromTimestamp (n : ℕ) : Utc where
  date := Date.ofDayNumber (n / 86400000)
  hour := n / 3600000 % 24
  minute := n / 60000 % 60
  second := n / 1000 % 60
  nanosecond := n % 1000 * 10 ^ 6

def appendInt (w n : ℕ) : List Char := if n < 10 ^ w then digits w n else Nat.toDigits 10 n

/-- `Format(time.RFC3339Nano)`: trailing zeros are left out. -/
def formatRFC3339Nano (t : Utc) : List Char :=
  layout (appendInt 4 t.date.year) (appendInt 2 t.date.month) (appendInt 2 t.date.day)
    (appendInt 2 t.hour) (appendInt 2 t.minute) (appendInt 2 t.second)
    (fractionText ((digits 9 t.nanosecond).rdropWhile (· = '0')) ++ ['Z'])

/-- Trailing zeros count for nothing. -/
lemma fractionNanos_rdropWhile (ds : List Char) (h : ds.length ≤ 9) :
    fractionNanos (ds.rdropWhile (· = '0')) = fractionNanos ds := by
  induction ds using List.reverseRecOn with
  | nil => rfl
  | append_singleton ds c ih =>
    rw [length_append, length_singleton] at h
    by_cases hc : c = '0'
    · have hpow : 10 * 10 ^ (9 - (ds.length + 1)) = 10 ^ (9 - ds.length) := by
        rw [← pow_succ']
        congr 1
        omega
      rw [rdropWhile_concat_pos _ _ _ (by simp [hc]), ih (by omega), fractionNanos,
        fractionNanos, digitsNat_append, length_append, length_singleton, pow_one, hc,
        digitsNat_singleton, show '0'.toNat - 48 = 0 from rfl, Nat.add_zero, Nat.mul_assoc, hpow]
    · rw [rdropWhile_concat_neg _ _ _ (by simp [hc])]

/-- What the server writes for `n` milliseconds. -/
def serverStamp (n : ℕ) (hyear : (fromTimestamp n).date.year ≤ 9999) : Stamp where
  date := (fromTimestamp n).date
  hour := (fromTimestamp n).hour
  minute := (fromTimestamp n).minute
  second := (fromTimestamp n).second
  fraction := (digits 9 (fromTimestamp n).nanosecond).rdropWhile (· = '0')
  hyear := ⟨year_ofDayNumber _, hyear⟩
  hhour := by simp only [fromTimestamp]; omega
  hminute := by simp only [fromTimestamp]; omega
  hsecond := by simp only [fromTimestamp]; omega
  hfraction := by
    have hpre := rdropWhile_prefix (fun c => decide (c = '0'))
      (digits 9 (fromTimestamp n).nanosecond)
    refine ⟨?_, fun c hc => isDigit_digits _ _ c (hpre.subset hc)⟩
    simpa using hpre.length_le

lemma formatRFC3339Nano_eq (n : ℕ) (hyear : (fromTimestamp n).date.year ≤ 9999) :
    formatRFC3339Nano (fromTimestamp n) = (serverStamp n hyear).text := by
  have hm := (fromTimestamp n).date.hmonth
  have hd : (fromTimestamp n).date.day < 10 ^ 2 := (serverStamp n hyear).day_lt
  have happend : ∀ {w k : ℕ}, k < 10 ^ w → appendInt w k = digits w k := fun hk => if_pos hk
  rw [formatRFC3339Nano, Stamp.text, happend (by omega), happend (by omega), happend hd,
    happend (by simp only [fromTimestamp]; omega), happend (by simp only [fromTimestamp]; omega),
    happend (by simp only [fromTimestamp]; omega)]
  rfl

lemma nanos_serverStamp (n : ℕ) (hyear : (fromTimestamp n).date.year ≤ 9999) :
    (serverStamp n hyear).nanos = n * 10 ^ 6 := by
  have hfrac : fractionNanos (serverStamp n hyear).fraction = n % 1000 * 10 ^ 6 := by
    rw [serverStamp, fractionNanos_rdropWhile _ (by simp), fractionNanos, length_digits,
      digitsNat_digits_of_lt (by simp only [fromTimestamp]; omega)]
    simp [fromTimestamp]
  have hday : (serverStamp n hyear).date.dayNumber = n / 86400000 := dayNumber_ofDayNumber _
  rw [Stamp.nanos, hfrac, hday]
  simp only [serverStamp, fromTimestamp]
  omega

/-- **The native UTC timestamp parser is exact.** It accepts only the spellings of times of the
years 1970 to 9999 and reads each as its instant, cut to milliseconds; it is monotone and inverts
the server's formatting. -/
theorem timestamp_exact :
    (∀ s, timestamp s ≠ 0 → ∃ t : Stamp, s = t.text) ∧
    (∀ t : Stamp, timestamp t.text = (t.nanos / 10 ^ 6 : ℕ)) ∧
    (∀ t u : Stamp, t.nanos ≤ u.nanos → timestamp t.text ≤ timestamp u.text) ∧
    (∀ n, 0 < n → (fromTimestamp n).date.year ≤ 9999 →
      timestamp (formatRFC3339Nano (fromTimestamp n)) = n) := by
  refine ⟨fun s => text_of_timestamp, timestamp_text, fun t u h => ?_, fun n _ hyear => ?_⟩
  · rw [timestamp_text, timestamp_text]
    exact_mod_cast Nat.div_le_div_right h
  · rw [formatRFC3339Nano_eq n hyear, timestamp_text, nanos_serverStamp,
      Nat.mul_div_cancel _ (by positivity)]

/-- The leap day of 2000, at noon and a fraction. -/
theorem timestamp_exact_leap_day :
    (fromTimestamp 951825600500).date.year ≤ 9999 ∧
      timestamp (formatRFC3339Nano (fromTimestamp 951825600500)) = 951825600500 := by
  have hyear : (fromTimestamp 951825600500).date.year ≤ 9999 := by decide +kernel
  exact ⟨hyear, timestamp_exact.2.2.2 951825600500 (by decide) hyear⟩

end OhecoBroker.Login
