/-
Formatted input: what `sscanf` of the C library reads from a text, for formats of white space,
literal characters, `%Ns`, `%d` and `%u`.

* `Directive`, `readInt`, `sscanf`: the function, directive by directive;
* `Word`, `Numeral`, `Starts`, `Reads`: the layout of a text that a format reads;
* `read_str`, `str_of_read`, `Numeral.readInt`, `numeral_of_readInt`: a string field is a word,
  and a number is a numeral;
* `reads_cons`, `sscanf_append`, `reads_of_length`: **the function and the layout agree**, so what
  a format yields can be told from the text alone.
-/
import Mathlib.Data.List.TakeWhile
import Mathlib.Tactic

namespace OhecoBroker.Lib

open List

/-- White space of the C locale. -/
def isSpace (c : Char) : Bool :=
  c = ' ' || c = '\t' || c = '\n' || c = '\x0b' || c = '\x0c' || c = '\r'

/-- White space, a character, `%Ns`, `%d` and `%u`. -/
inductive Directive
  | space
  | lit (c : Char)
  | str (width : ℕ)
  | int
deriving DecidableEq

inductive Scanned
  | text (s : List Char)
  | number (z : ℤ)
deriving DecidableEq

def Directive.converts : Directive → Bool
  | .space | .lit _ => false
  | .str _ | .int => true

def digitsNat (ds : List Char) : ℕ := ds.foldl (fun n c => n * 10 + (c.toNat - '0'.toNat)) 0

/-- An optional sign, as a factor. -/
def splitSign : List Char → ℤ × List Char
  | '-' :: s => (-1, s)
  | '+' :: s => (1, s)
  | s => (1, s)

/-- An optional sign and digits. -/
def readInt (s : List Char) : Option (ℤ × List Char) :=
  let (sign, s) := splitSign s
  if s.takeWhile Char.isDigit = [] then none
  else some (sign * digitsNat (s.takeWhile Char.isDigit), s.dropWhile Char.isDigit)

/-- `none` when the directive fails. -/
def Directive.read : Directive → List Char → Option (List Scanned × List Char)
  | .space, s => some ([], s.dropWhile isSpace)
  | .lit _, [] => none
  | .lit c, x :: s => if x = c then some ([], s) else none
  | .str n, s =>
    let s := s.dropWhile isSpace
    let w := (s.takeWhile (!isSpace ·)).take n
    if w = [] then none else some ([.text w], s.drop w.length)
  | .int, s => (readInt (s.dropWhile isSpace)).map fun r => ([.number r.1], r.2)

/-- The conversions up to the first directive that fails. -/
def sscanf : List Directive → List Char → List Scanned
  | [], _ => []
  | d :: ds, s =>
    match d.read s with
    | none => []
    | some (vs, rest) => vs ++ sscanf ds rest

/-! ### The layout of a text -/

def Blank (s : List Char) : Prop := ∀ c ∈ s, isSpace c = true

def Starts (p : Char → Bool) (s : List Char) : Prop := ∀ c ∈ s.head?, p c = true

def Word (w : List Char) : Prop := w ≠ [] ∧ ∀ c ∈ w, isSpace c = false

inductive Numeral : List Char → ℤ → Prop
  | plain {ds : List Char} (hne : ds ≠ []) (hds : ∀ c ∈ ds, c.isDigit = true) :
      Numeral ds (digitsNat ds)
  | plus {ds : List Char} (hne : ds ≠ []) (hds : ∀ c ∈ ds, c.isDigit = true) :
      Numeral ('+' :: ds) (digitsNat ds)
  | minus {ds : List Char} (hne : ds ≠ []) (hds : ∀ c ∈ ds, c.isDigit = true) :
      Numeral ('-' :: ds) (-digitsNat ds)

/-- **The layout**: the pieces a whole format reads, one after the other, and a rest. -/
inductive Reads : List Directive → List Char → List Scanned → List Char → Prop
  | done (s : List Char) : Reads [] s [] s
  | space {ds b s vs rest} (hb : Blank b) (hs : Starts (!isSpace ·) s)
      (h : Reads ds s vs rest) : Reads (.space :: ds) (b ++ s) vs rest
  | lit {ds c s vs rest} (h : Reads ds s vs rest) : Reads (.lit c :: ds) (c :: s) vs rest
  | str {ds n b w s vs rest} (hb : Blank b) (hw : Word w) (hn : w.length ≤ n)
      (hs : w.length = n ∨ Starts isSpace s) (h : Reads ds s vs rest) :
      Reads (.str n :: ds) (b ++ (w ++ s)) (.text w :: vs) rest
  | int {ds b w z s vs rest} (hb : Blank b) (hw : Numeral w z)
      (hs : Starts (!Char.isDigit ·) s) (h : Reads ds s vs rest) :
      Reads (.int :: ds) (b ++ (w ++ s)) (.number z :: vs) rest

/-! ### The function reads the layout -/

variable {w s rest : List Char} {vs : List Scanned} {z : ℤ} {ds : List Directive}

lemma span_append {p : Char → Bool} (hw : ∀ c ∈ w, p c = true)
    (hs : Starts (!p ·) s) : (w ++ s).takeWhile p = w ∧ (w ++ s).dropWhile p = s := by
  rw [takeWhile_append_of_pos hw, dropWhile_append_of_pos hw]
  cases s with
  | nil => simp
  | cons c s =>
    have hc : p c = false := by simpa using hs c rfl
    simp [hc]

lemma starts_dropWhile (p : Char → Bool) (s : List Char) : Starts (!p ·) (s.dropWhile p) := by
  intro c hc
  have := List.head?_dropWhile_not p s
  rw [Option.mem_def.mp hc] at this
  simpa using this

/-- A word starts without white space. -/
lemma Word.starts (hw : Word w) (s : List Char) : Starts (!isSpace ·) (w ++ s) := by
  obtain ⟨hne, hsp⟩ := hw
  cases w with
  | nil => exact absurd rfl hne
  | cons c w =>
    intro d hd
    obtain rfl : c = d := by simpa using hd
    simpa using hsp c (by simp)

lemma read_str {n : ℕ} {b : List Char} (hb : Blank b) (hw : Word w) (hn : w.length ≤ n)
    (hs : w.length = n ∨ Starts isSpace s) :
    (Directive.str n).read (b ++ (w ++ s)) = some ([.text w], s) := by
  have hsp : ∀ c ∈ w, (!isSpace c) = true := fun c hc => by simp [hw.2 c hc]
  have hdrop : (b ++ (w ++ s)).dropWhile isSpace = w ++ s := (span_append hb (hw.starts s)).2
  have htake : ((w ++ s).takeWhile (!isSpace ·)).take n = w := by
    rw [takeWhile_append_of_pos hsp]
    rcases hs with rfl | hs
    · rw [take_left]
    have hnil : s.takeWhile (!isSpace ·) = [] := by
      cases s with
      | nil => rfl
      | cons c s => simp [hs c rfl]
    rw [hnil, append_nil, take_of_length_le hn]
  simp only [Directive.read, hdrop, htake, if_neg hw.1, drop_left]

lemma str_of_read {n : ℕ} (h : (Directive.str n).read s = some (vs, rest)) :
    ∃ b w, s = b ++ (w ++ rest) ∧ vs = [.text w] ∧ Blank b ∧ Word w ∧ w.length ≤ n ∧
      (w.length = n ∨ Starts isSpace rest) := by
  simp only [Directive.read] at h
  split at h
  · simp at h
  next hne =>
  set t := s.dropWhile isSpace with ht
  set u := t.takeWhile (!isSpace ·) with hu
  obtain ⟨rfl, rfl⟩ : [Scanned.text (u.take n)] = vs ∧ t.drop (u.take n).length = rest := by
    simpa using h
  have hpre : u.take n <+: t := (List.take_prefix n u).trans (List.takeWhile_prefix _)
  obtain ⟨r, hr⟩ := hpre
  have hdrop : t.drop (u.take n).length = r := by rw [← hr, drop_left]
  rw [hdrop]
  refine ⟨s.takeWhile isSpace, u.take n, ?_, rfl, fun c hc => mem_takeWhile_imp hc,
    ⟨hne, fun c hc => ?_⟩, length_take_le n u, ?_⟩
  · rw [hr, ht, takeWhile_append_dropWhile]
  · simpa using mem_takeWhile_imp (mem_of_mem_take hc)
  -- either the width cut the word, or the word ended
  rcases Nat.lt_or_ge n u.length with hlt | hge
  · exact .inl (by rw [length_take]; omega)
  right
  rw [take_of_length_le hge] at hr
  have hdw : t.dropWhile (!isSpace ·) = r := by
    have := takeWhile_append_dropWhile (p := (!isSpace ·)) (l := t)
    rw [← hu, ← hr] at this
    rw [← hr]
    exact append_cancel_left this
  intro c hc
  have := starts_dropWhile (!isSpace ·) t c (hdw ▸ hc)
  simpa using this

lemma readInt_digits {ds : List Char} (hne : ds ≠ []) (hds : ∀ c ∈ ds, c.isDigit = true)
    (hs : Starts (!Char.isDigit ·) s) :
    readInt (ds ++ s) = some ((digitsNat ds : ℤ), s) ∧
      readInt ('+' :: (ds ++ s)) = some ((digitsNat ds : ℤ), s) ∧
      readInt ('-' :: (ds ++ s)) = some (-(digitsNat ds : ℤ), s) := by
  obtain ⟨htake, hdrop⟩ := span_append hds hs
  have hsign : splitSign (ds ++ s) = (1, ds ++ s) := by
    cases ds with
    | nil => exact absurd rfl hne
    | cons c ds =>
      have hc : c.isDigit = true := hds c (by simp)
      have hm : c ≠ '-' := by rintro rfl; exact absurd hc (by decide)
      have hp : c ≠ '+' := by rintro rfl; exact absurd hc (by decide)
      simp only [cons_append]
      unfold splitSign
      split <;> simp_all
  refine ⟨?_, ?_, ?_⟩
  · simp only [readInt, hsign, htake, hdrop, if_neg hne, one_mul]
  · simp only [readInt, splitSign, htake, hdrop, if_neg hne, one_mul]
  · simp only [readInt, splitSign, htake, hdrop, if_neg hne, neg_mul, one_mul]

/-- A numeral is read to its end. -/
lemma Numeral.readInt (hw : Numeral w z)
    (hs : Starts (!Char.isDigit ·) s) : Lib.readInt (w ++ s) = some (z, s) := by
  cases hw with
  | plain hne hds => exact (readInt_digits hne hds hs).1
  | plus hne hds => exact (readInt_digits hne hds hs).2.1
  | minus hne hds => exact (readInt_digits hne hds hs).2.2

/-- What was read as a number is a numeral. -/
lemma numeral_of_readInt (h : readInt s = some (z, rest)) :
    ∃ w, s = w ++ rest ∧ Numeral w z ∧ Starts (!Char.isDigit ·) rest := by
  have key : ∀ (sign : ℤ) (t : List Char), t.takeWhile Char.isDigit ≠ [] →
      sign * digitsNat (t.takeWhile Char.isDigit) = z → t.dropWhile Char.isDigit = rest →
      ∃ ds, t = ds ++ rest ∧ ds ≠ [] ∧ (∀ c ∈ ds, c.isDigit = true) ∧ sign * digitsNat ds = z ∧
        Starts (!Char.isDigit ·) rest := by
    rintro sign t hne rfl rfl
    exact ⟨t.takeWhile Char.isDigit, (takeWhile_append_dropWhile).symm, hne,
      fun c hc => mem_takeWhile_imp hc, rfl, starts_dropWhile _ _⟩
  simp only [readInt] at h
  split at h
  · simp at h
  next hne =>
  obtain ⟨hz, hrest⟩ : _ ∧ _ := by simpa using h
  obtain ⟨ds, ht, hne', hds, hval, hst⟩ := key _ _ hne hz hrest
  -- the sign of the text decides which kind of numeral it was
  revert ht hval
  unfold splitSign
  split
  · rintro ht hval
    exact ⟨'-' :: ds, by simp [← ht], by simpa [← hval] using Numeral.minus hne' hds, hst⟩
  · rintro ht hval
    exact ⟨'+' :: ds, by simp [← ht], by simpa [← hval] using Numeral.plus hne' hds, hst⟩
  · rintro ht hval
    exact ⟨ds, ht, by simpa [← hval] using Numeral.plain hne' hds, hst⟩

lemma Numeral.word (hw : Numeral w z) : Word w := by
  have hdigit : ∀ c : Char, c.isDigit = true → isSpace c = false := by
    intro c hc
    by_contra hsp
    simp only [isSpace, Bool.not_eq_false, Bool.or_eq_true, decide_eq_true_eq] at hsp
    rcases hsp with ((((rfl | rfl) | rfl) | rfl) | rfl) | rfl <;> exact absurd hc (by decide)
  cases hw with
  | plain hne hds => exact ⟨hne, fun c hc => hdigit c (hds c hc)⟩
  | plus hne hds | minus hne hds =>
    refine ⟨by simp, fun c hc => ?_⟩
    rcases mem_cons.mp hc with rfl | hc
    · decide
    · exact hdigit c (hds c hc)

theorem reads_cons {d : Directive} : Reads (d :: ds) s vs rest ↔
      ∃ v mid us, d.read s = some (v, mid) ∧ vs = v ++ us ∧ Reads ds mid us rest := by
  constructor
  · intro h
    cases h with
    | space hb hs h => exact ⟨[], _, _, by simp [Directive.read, (span_append hb hs).2], rfl, h⟩
    | lit h => exact ⟨[], _, _, by simp [Directive.read], rfl, h⟩
    | str hb hw hn hs h => exact ⟨[.text _], _, _, read_str hb hw hn hs, rfl, h⟩
    | int hb hw hs h =>
      refine ⟨[.number _], _, _, ?_, rfl, h⟩
      simp [Directive.read, (span_append hb (hw.word.starts _)).2, hw.readInt hs]
  rintro ⟨v, mid, us, hd, rfl, h⟩
  cases d with
  | space =>
    obtain ⟨rfl, rfl⟩ : [] = v ∧ s.dropWhile isSpace = mid := by simpa [Directive.read] using hd
    have := Reads.space (b := s.takeWhile isSpace) (fun c hc => mem_takeWhile_imp hc)
      (starts_dropWhile isSpace s) h
    rwa [takeWhile_append_dropWhile] at this
  | lit c =>
    cases s with
    | nil => simp [Directive.read] at hd
    | cons x s =>
      simp only [Directive.read] at hd
      split at hd
      next hx =>
        obtain ⟨rfl, rfl⟩ : [] = v ∧ s = mid := by simpa using hd
        subst hx
        exact Reads.lit h
      · simp at hd
  | str n =>
    obtain ⟨b, w, rfl, rfl, hb, hw, hn, hs⟩ := str_of_read hd
    exact Reads.str hb hw hn hs h
  | int =>
    simp only [Directive.read, Option.map_eq_some_iff] at hd
    obtain ⟨⟨z, r⟩, hr, heq⟩ := hd
    obtain ⟨rfl, rfl⟩ : [Scanned.number z] = v ∧ r = mid := by simpa using heq
    obtain ⟨w, hw, hnum, hst⟩ := numeral_of_readInt hr
    have := Reads.int (b := s.takeWhile isSpace) (fun c hc => mem_takeWhile_imp hc)
      hnum hst h
    rwa [← hw, takeWhile_append_dropWhile] at this

theorem sscanf_append
    (h : Reads ds s vs rest) (es : List Directive) :
    sscanf (ds ++ es) s = vs ++ sscanf es rest := by
  induction ds generalizing s vs with
  | nil => cases h; rfl
  | cons d ds ih =>
    obtain ⟨v, mid, us, hd, rfl, hrest⟩ := reads_cons.mp h
    simp only [cons_append, sscanf, hd, ih hrest, append_assoc]

lemma Reads.length (h : Reads ds s vs rest) : vs.length = ds.countP (·.converts) := by
  induction h with
  | done => rfl
  | space _ _ _ ih | lit _ ih => rw [ih, countP_cons_of_neg (by simp [Directive.converts])]
  | str _ _ _ _ _ ih | int _ _ _ _ ih =>
    rw [length_cons, ih, countP_cons_of_pos (by simp [Directive.converts])]

theorem reads_of_length (ds : List Directive) (d : Directive) (es : List Directive)
    (s : List Char) (hd : d.converts = true)
    (h : (ds ++ [d]).countP (·.converts) ≤ (sscanf (ds ++ d :: es) s).length) :
    ∃ vs rest, Reads (ds ++ [d]) s vs rest := by
  induction ds generalizing s with
  | nil =>
    cases hr : d.read s with
    | none => simp [sscanf, hr, hd] at h
    | some r => exact ⟨r.1 ++ [], r.2, reads_cons.mpr ⟨r.1, r.2, [], hr, rfl, .done _⟩⟩
  | cons e ds ih =>
    cases hr : e.read s with
    | none => simp [sscanf, hr, countP_cons, hd] at h
    | some r =>
      have hone : r.1.length = [e].countP (·.converts) := by
        have := (reads_cons.mpr ⟨r.1, r.2, [], hr, rfl, .done r.2⟩ : Reads [e] s _ _).length
        simpa using this
      simp only [cons_append, sscanf, hr, length_append, hone] at h
      rw [← singleton_append, countP_append] at h
      obtain ⟨vs, rest, hvs⟩ := ih r.2 (by omega)
      exact ⟨r.1 ++ vs, rest, reads_cons.mpr ⟨r.1, r.2, vs, hr, rfl, hvs⟩⟩

/-! ### Fields with their white space -/

lemma Blank.append {b : List Char} (hb : Blank b) (hs : Blank s) : Blank (b ++ s) := by
  intro c hc
  rcases mem_append.mp hc with hc | hc
  · exact hb c hc
  · exact hs c hc

lemma starts_isSpace_append {b : List Char} (hb : Blank b) (hw : Word w) :
    Starts isSpace (b ++ (w ++ s)) ↔ b ≠ [] := by
  cases b with
  | cons c b => exact ⟨fun _ => by simp, fun _ d hd => hb d (mem_of_mem_head? hd)⟩
  | nil =>
    refine ⟨fun h => ?_, fun h => absurd rfl h⟩
    obtain ⟨hne, hsp⟩ := hw
    cases w with
    | nil => exact absurd rfl hne
    | cons c w => exact absurd ((hsp c (by simp)).symm.trans (h c rfl)) (by simp)

lemma isDigit_of_isSpace {c : Char} (h : isSpace c = true) : c.isDigit = false := by
  simp only [isSpace, Bool.or_eq_true, decide_eq_true_eq] at h
  rcases h with ((((rfl | rfl) | rfl) | rfl) | rfl) | rfl <;> decide

lemma starts_not_isDigit_append {b : List Char} (hb : Blank b) (hw : Word w) :
    Starts (!Char.isDigit ·) (b ++ (w ++ s)) ↔ b ≠ [] ∨ Starts (!Char.isDigit ·) w := by
  cases b with
  | cons c b =>
    refine ⟨fun _ => .inl (by simp), fun _ d hd => ?_⟩
    simp [isDigit_of_isSpace (hb d (mem_of_mem_head? hd))]
  | nil =>
    obtain ⟨hne, -⟩ := hw
    cases w with
    | nil => exact absurd rfl hne
    | cons c w => simp [Starts]

lemma reads_space_str {n : ℕ} : Reads (.space :: .str n :: ds) s vs rest ↔
    ∃ b w t us, s = b ++ (w ++ t) ∧ vs = .text w :: us ∧ Blank b ∧ Word w ∧ w.length ≤ n ∧
      (w.length = n ∨ Starts isSpace t) ∧ Reads ds t us rest := by
  constructor
  · intro h
    cases h with
    | space hb _ h =>
      cases h with
      | str hb' hw hn hs h =>
        exact ⟨_, _, _, _, by rw [append_assoc], rfl, hb.append hb', hw, hn, hs, h⟩
  · rintro ⟨b, w, t, us, rfl, rfl, hb, hw, hn, hs, h⟩
    exact .space hb (hw.starts t) (Reads.str (b := []) (by simp [Blank]) hw hn hs h)

/-- A number, white space before it or not. -/
lemma reads_space_int : Reads (.space :: .int :: ds) s vs rest ↔
    ∃ b w z t us, s = b ++ (w ++ t) ∧ vs = .number z :: us ∧ Blank b ∧ Numeral w z ∧
      Starts (!Char.isDigit ·) t ∧ Reads ds t us rest := by
  constructor
  · intro h
    cases h with
    | space hb _ h =>
      cases h with
      | int hb' hw hs h =>
        exact ⟨_, _, _, _, _, by rw [append_assoc], rfl, hb.append hb', hw, hs, h⟩
  · rintro ⟨b, w, z, t, us, rfl, rfl, hb, hw, hs, h⟩
    exact .space hb (hw.word.starts t) (Reads.int (b := []) (by simp [Blank]) hw hs h)

lemma reads_append {es : List Directive} : Reads (ds ++ es) s vs rest ↔
    ∃ us mid xs, Reads ds s us mid ∧ Reads es mid xs rest ∧ vs = us ++ xs := by
  induction ds generalizing s vs with
  | nil =>
    refine ⟨fun h => ⟨[], s, vs, .done s, h, rfl⟩, ?_⟩
    rintro ⟨us, mid, xs, h, hes, rfl⟩
    cases h
    exact hes
  | cons d ds ih =>
    rw [cons_append, reads_cons]
    constructor
    · rintro ⟨v, mid, us, hd, rfl, h⟩
      obtain ⟨us, mid', xs, hds, hes, rfl⟩ := ih.mp h
      exact ⟨v ++ us, mid', xs, reads_cons.mpr ⟨v, mid, us, hd, rfl, hds⟩, hes,
        (append_assoc v us xs).symm⟩
    · rintro ⟨us, mid', xs, hds, hes, rfl⟩
      obtain ⟨v, mid, us, hd, rfl, hrest⟩ := reads_cons.mp hds
      exact ⟨v, mid, us ++ xs, hd, append_assoc v us xs,
        ih.mpr ⟨us, mid', xs, hrest, hes, rfl⟩⟩

/-- A numeral denotes one number. -/
lemma Numeral.unique {z z' : ℤ} (h : Numeral w z) (h' : Numeral w z') : z = z' := by
  have hread := h.readInt (s := []) (by simp [Starts])
  rw [h'.readInt (by simp [Starts])] at hread
  simpa using hread.symm

end OhecoBroker.Lib
