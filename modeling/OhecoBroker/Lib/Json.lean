/-
The grammar of JSON texts, on bytes.

* `Item`, `Item.Ok`, `body`, `literal`: string literals, step by step;
* `Cat`, `Spells`, `Text`: the grammar;
* `Spells.pass`, `Text.pass`: **a pass that treats the bytes outside string literals alike comes
  to what it makes of the string literals in order**.
-/
import Mathlib.Tactic

namespace OhecoBroker.Lib.Json

open List

/-- The byte of an ASCII character. -/
abbrev ch (c : Char) : UInt8 := UInt8.ofNat c.toNat

abbrev quote : UInt8 := 0x22

abbrev backslash : UInt8 := 0x5c

def isWs (b : UInt8) : Bool := b = 0x20 || b = 0x09 || b = 0x0a || b = 0x0d

def Ws (w : List UInt8) : Prop := ∀ b ∈ w, isWs b = true

def isDigit (b : UInt8) : Bool := ch '0' ≤ b && b ≤ ch '9'

/-- The value of a hexadecimal digit, of either case. -/
def hexVal (b : UInt8) : Option ℕ :=
  if ch '0' ≤ b ∧ b ≤ ch '9' then some (b.toNat - 48)
  else if ch 'a' ≤ b ∧ b ≤ ch 'f' then some (b.toNat - 87)
  else if ch 'A' ≤ b ∧ b ≤ ch 'F' then some (b.toNat - 55)
  else none

/-! ### Strings -/

/-- A byte, an escape of one character, or a unicode escape. -/
inductive Item where
  | plain (b : UInt8)
  | escape (b : UInt8)
  | unicode (h₁ h₂ h₃ h₄ : UInt8)
  deriving DecidableEq

def escapes : List UInt8 :=
  [quote, backslash, ch '/', ch 'b', ch 'f', ch 'n', ch 'r', ch 't']

/-- The step is one the grammar allows. -/
def Item.Ok : Item → Prop
  | .plain b => 0x20 ≤ b ∧ b ≠ quote ∧ b ≠ backslash
  | .escape b => b ∈ escapes
  | .unicode h₁ h₂ h₃ h₄ => ∀ h ∈ [h₁, h₂, h₃, h₄], (hexVal h).isSome

def Item.bytes : Item → List UInt8
  | .plain b => [b]
  | .escape b => [backslash, b]
  | .unicode h₁ h₂ h₃ h₄ => [backslash, ch 'u', h₁, h₂, h₃, h₄]

def Item.unit : Item → Option ℕ
  | .unicode h₁ h₂ h₃ h₄ => do
      return (((← hexVal h₁) * 16 + (← hexVal h₂)) * 16 + (← hexVal h₃)) * 16 + (← hexVal h₄)
  | _ => none

/-- The bytes of a string without its quotation marks. -/
def body (items : List Item) : List UInt8 := items.flatMap Item.bytes

def literal (items : List Item) : List UInt8 := quote :: (body items ++ [quote])

@[simp] lemma body_nil : body [] = [] := rfl

@[simp] lemma body_cons (i : Item) (items : List Item) :
    body (i :: items) = i.bytes ++ body items := flatMap_cons

/-! ### Numbers -/

def Digits (ds : List UInt8) : Prop := ds ≠ [] ∧ ∀ d ∈ ds, isDigit d = true

/-- An integer part: no leading zero. -/
def IsInt (w : List UInt8) : Prop := Digits w ∧ (w.length = 1 ∨ w.head? ≠ some (ch '0'))

/-- Sign, integer part, fraction and exponent. -/
def IsNumber (w : List UInt8) : Prop :=
  ∃ sign int frac exp, w = sign ++ int ++ frac ++ exp ∧
    (sign = [] ∨ sign = [ch '-']) ∧ IsInt int ∧
    (frac = [] ∨ ∃ ds, Digits ds ∧ frac = ch '.' :: ds) ∧
    (exp = [] ∨ ∃ e s ds, (e = ch 'e' ∨ e = ch 'E') ∧ (s = [] ∨ s = [ch '+'] ∨ s = [ch '-']) ∧
      Digits ds ∧ exp = e :: (s ++ ds))

/-! ### Values -/

def names : List (List UInt8) :=
  ["null".toList.map ch, "true".toList.map ch, "false".toList.map ch]

/-- What a byte string may spell. -/
inductive Cat where
  | value
  | elements
  | members
  deriving DecidableEq

/-- **The grammar**; the list holds the string literals in order. -/
inductive Spells : Cat → List UInt8 → List (List Item) → Prop where
  | name {w : List UInt8} : w ∈ names → Spells .value w []
  | number {w : List UInt8} : IsNumber w → Spells .value w []
  | string {items : List Item} : (∀ i ∈ items, i.Ok) → Spells .value (literal items) [items]
  | noElements {w : List UInt8} : Ws w → Spells .value (ch '[' :: (w ++ [ch ']'])) []
  | array {t : List UInt8} {ss : List (List Item)} :
      Spells .elements t ss → Spells .value (ch '[' :: (t ++ [ch ']'])) ss
  | noMembers {w : List UInt8} : Ws w → Spells .value (ch '{' :: (w ++ [ch '}'])) []
  | object {t : List UInt8} {ss : List (List Item)} :
      Spells .members t ss → Spells .value (ch '{' :: (t ++ [ch '}'])) ss
  | element {w v w' : List UInt8} {ss : List (List Item)} :
      Ws w → Spells .value v ss → Ws w' → Spells .elements (w ++ (v ++ w')) ss
  | moreElements {w v w' t : List UInt8} {ss ss' : List (List Item)} :
      Ws w → Spells .value v ss → Ws w' → Spells .elements t ss' →
        Spells .elements (w ++ (v ++ (w' ++ ch ',' :: t))) (ss ++ ss')
  | member {w₁ w₂ w₃ v w₄ : List UInt8} {key : List Item} {ss : List (List Item)} :
      Ws w₁ → (∀ i ∈ key, i.Ok) → Ws w₂ → Ws w₃ → Spells .value v ss → Ws w₄ →
        Spells .members (w₁ ++ (literal key ++ (w₂ ++ ch ':' :: (w₃ ++ (v ++ w₄))))) (key :: ss)
  | moreMembers {w₁ w₂ w₃ v w₄ t : List UInt8} {key : List Item} {ss ss' : List (List Item)} :
      Ws w₁ → (∀ i ∈ key, i.Ok) → Ws w₂ → Ws w₃ → Spells .value v ss → Ws w₄ →
        Spells .members t ss' →
        Spells .members
          (w₁ ++ (literal key ++ (w₂ ++ ch ':' :: (w₃ ++ (v ++ (w₄ ++ ch ',' :: t))))))
          (key :: (ss ++ ss'))

/-- A JSON text: a value with white space around it. -/
def Text (t : List UInt8) (ss : List (List Item)) : Prop :=
  ∃ w v w', Ws w ∧ Spells .value v ss ∧ Ws w' ∧ t = w ++ (v ++ w')

/-! ### Bytes outside string literals -/

/-- The bytes of numbers and literal names. -/
def isTokenByte (b : UInt8) : Bool :=
  isDigit b || b = ch '-' || b = ch '+' || b = ch '.' || (ch 'a' ≤ b && b ≤ ch 'z') || b = ch 'E'

/-- Digits are token bytes. -/
lemma Digits.tokenByte {ds : List UInt8} (h : Digits ds) : ∀ b ∈ ds, isTokenByte b = true := by
  intro b hb
  simp [isTokenByte, h.2 b hb]

lemma IsNumber.tokenByte {w : List UInt8} (h : IsNumber w) : ∀ b ∈ w, isTokenByte b = true := by
  obtain ⟨sign, int, frac, exp, rfl, hsign, hint, hfrac, hexp⟩ := h
  intro b hb
  simp only [mem_append] at hb
  rcases hb with ((hb | hb) | hb) | hb
  · rcases hsign with rfl | rfl
    · exact absurd hb not_mem_nil
    · obtain rfl := mem_singleton.mp hb
      decide
  · exact hint.1.tokenByte b hb
  · rcases hfrac with rfl | ⟨ds, hds, rfl⟩
    · exact absurd hb not_mem_nil
    · rcases mem_cons.mp hb with rfl | hb
      · decide
      · exact hds.tokenByte b hb
  · rcases hexp with rfl | ⟨e, s, ds, he, hs, hds, rfl⟩
    · exact absurd hb not_mem_nil
    · rcases mem_cons.mp hb with rfl | hb
      · rcases he with rfl | rfl <;> decide
      · rcases mem_append.mp hb with hb | hb
        · rcases hs with rfl | rfl | rfl
          · exact absurd hb not_mem_nil
          · obtain rfl := mem_singleton.mp hb
            decide
          · obtain rfl := mem_singleton.mp hb
            decide
        · exact hds.tokenByte b hb

lemma tokenByte_of_mem_names {w : List UInt8} (h : w ∈ names) : ∀ b ∈ w, isTokenByte b = true := by
  revert w
  decide +kernel

lemma ne_quote_of_tokenByte {b : UInt8} (h : isTokenByte b = true) : b ≠ quote := by
  rintro rfl
  exact absurd h (by decide)

/-- No white space is one either. -/
lemma ne_quote_of_isWs {b : UInt8} (h : isWs b = true) : b ≠ quote := by
  rintro rfl
  exact absurd h (by decide)

/-! ### Passes over a text -/

section Pass

variable {β : Type*} {f : List UInt8 → β} {g : List Item → β → β}

lemma pass_outside (hout : ∀ b s, b ≠ quote → f (b :: s) = f s) {w : List UInt8}
    (hw : ∀ b ∈ w, b ≠ quote) (s : List UInt8) : f (w ++ s) = f s := by
  induction w with
  | nil => rfl
  | cons b w ih =>
    rw [cons_append, hout b _ (hw b mem_cons_self)]
    exact ih fun c hc => hw c (mem_cons_of_mem b hc)

lemma pass_ws (hout : ∀ b s, b ≠ quote → f (b :: s) = f s) {w : List UInt8} (hw : Ws w)
    (s : List UInt8) : f (w ++ s) = f s :=
  pass_outside hout (fun b hb => ne_quote_of_isWs (hw b hb)) s

theorem Spells.pass (hout : ∀ b s, b ≠ quote → f (b :: s) = f s)
    (hstr : ∀ items s, (∀ i ∈ items, i.Ok) → f (literal items ++ s) = g items (f s))
    {cat : Cat} {t : List UInt8} {ss : List (List Item)} (h : Spells cat t ss) (s : List UInt8) :
    f (t ++ s) = ss.foldr g (f s) := by
  induction h generalizing s with
  | name hw =>
    exact pass_outside hout (fun b hb => ne_quote_of_tokenByte (tokenByte_of_mem_names hw b hb)) s
  | number hw => exact pass_outside hout (fun b hb => ne_quote_of_tokenByte (hw.tokenByte b hb)) s
  | string hitems => exact hstr _ s hitems
  | noElements hw | noMembers hw =>
    rw [cons_append, hout _ _ (by decide), append_assoc, pass_ws hout hw,
      singleton_append, hout _ _ (by decide)]
    rfl
  | array _ ih | object _ ih =>
    rw [cons_append, hout _ _ (by decide), append_assoc, ih, singleton_append,
      hout _ _ (by decide)]
  | element hw _ hw' ih =>
    rw [append_assoc, append_assoc, pass_ws hout hw, ih, pass_ws hout hw']
  | moreElements hw _ hw' _ ih ih' =>
    simp only [append_assoc, cons_append]
    rw [pass_ws hout hw, ih, pass_ws hout hw', hout _ _ (by decide), ih', foldr_append]
  | member hw₁ hkey hw₂ hw₃ _ hw₄ ih =>
    simp only [append_assoc, cons_append]
    rw [pass_ws hout hw₁, hstr _ _ hkey, pass_ws hout hw₂, hout _ _ (by decide), pass_ws hout hw₃,
      ih, pass_ws hout hw₄, foldr_cons]
  | moreMembers hw₁ hkey hw₂ hw₃ _ hw₄ _ ih ih' =>
    simp only [append_assoc, cons_append]
    rw [pass_ws hout hw₁, hstr _ _ hkey, pass_ws hout hw₂, hout _ _ (by decide), pass_ws hout hw₃,
      ih, pass_ws hout hw₄, hout _ _ (by decide), ih', foldr_cons, foldr_append]

/-- The rule for a whole text. -/
theorem Text.pass (hout : ∀ b s, b ≠ quote → f (b :: s) = f s)
    (hstr : ∀ items s, (∀ i ∈ items, i.Ok) → f (literal items ++ s) = g items (f s))
    {t : List UInt8} {ss : List (List Item)} (h : Text t ss) : f t = ss.foldr g (f []) := by
  obtain ⟨w, v, w', hw, hv, hw', rfl⟩ := h
  have hend := pass_ws hout hw' []
  rw [append_nil] at hend
  rw [pass_ws hout hw, hv.pass hout hstr, hend]

end Pass

end OhecoBroker.Lib.Json
