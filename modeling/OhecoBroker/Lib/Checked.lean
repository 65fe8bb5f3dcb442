/-
Computations that may stop with an error, and how a success is taken apart.

* `reject`, `found`: a check, and a lookup that has to succeed;
* `bind_eq_ok`, `reject_eq_ok`, `found_eq_ok`: a sequence succeeds exactly when each of its parts
  does.
-/
import Mathlib.Tactic

namespace OhecoBroker.Lib

variable {ε α β : Type}

/-- Stop with `e` when `c` holds. -/
def reject (c : Prop) [Decidable c] (e : ε) : Except ε Unit :=
  if c then .error e else .ok ()

/-- The value that was found, or the error `e`. -/
def found (o : Option α) (e : ε) : Except ε α :=
  match o with
  | some a => .ok a
  | none => .error e

/-- A sequence succeeds when both parts do. -/
lemma bind_eq_ok {x : Except ε α} {f : α → Except ε β} {b : β} :
    (x >>= f) = .ok b ↔ ∃ a, x = .ok a ∧ f a = .ok b := by
  cases x <;> simp [bind, Except.bind]

lemma exists_unit {P : Unit → Prop} : (∃ u, P u) ↔ P () :=
  ⟨fun ⟨_, h⟩ => h, fun h => ⟨(), h⟩⟩

@[simp] lemma pure_eq_ok {a b : α} : (pure a : Except ε α) = .ok b ↔ a = b :=
  ⟨fun h => Except.ok.inj h, fun h => congrArg _ h⟩

@[simp] lemma ok_bind (a : α) (f : α → Except ε β) : ((Except.ok a : Except ε α) >>= f) = f a :=
  rfl

@[simp] lemma error_bind (e : ε) (f : α → Except ε β) :
    ((Except.error e : Except ε α) >>= f) = .error e :=
  rfl

variable {c : Prop}

@[simp] lemma reject_eq_ok [Decidable c] {e : ε} {u : Unit} : reject c e = .ok u ↔ ¬c := by
  by_cases h : c <;> simp [reject, h]

lemma reject_pos [Decidable c] {e : ε} (h : c) : reject c e = .error e :=
  if_pos h

lemma reject_neg [Decidable c] {e : ε} (h : ¬c) : reject c e = .ok () :=
  if_neg h

/-- What comes after a check happens when it is passed. -/
lemma reject_bind [Decidable c] (e : ε) (f : Unit → Except ε β) :
    (reject c e >>= f) = if c then .error e else f () := by
  by_cases h : c
  · rw [reject_pos h, if_pos h, error_bind]
  · rw [reject_neg h, if_neg h, ok_bind]

@[simp] lemma found_eq_ok {o : Option α} {e : ε} {a : α} : found o e = .ok a ↔ o = some a := by
  cases o <;> simp [found]

lemma found_some (a : α) (e : ε) : found (some a) e = .ok a := rfl

lemma found_none (e : ε) : found (none : Option α) e = .error e := rfl

lemma isOk_eq_true {x : Except ε α} : x.isOk = true ↔ ∃ a, x = .ok a := by
  cases x <;> simp [Except.isOk, Except.toBool]

/-- A result that is only looked at for success. -/
lemma discard_eq_ok {x : Except ε α} {u : Unit} : discard x = .ok u ↔ ∃ a, x = .ok a := by
  cases x <;> simp [discard, Functor.mapConst, Except.map]

end OhecoBroker.Lib
