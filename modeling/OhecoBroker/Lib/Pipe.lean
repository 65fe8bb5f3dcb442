/-
A reliable one-way pipe, as its two ends see it.

* `Pipe`, `Pipe.Step`: the histories of the two ends, and what each end may do;
* `Pipe.Safe`, `Pipe.safe_of_reach`: **what comes out is the beginning of what went in, and the
  end is reported only when it is all of it**;
* `Pipe.reach_of_grows`: any growth between two safe states is a sequence of steps, so a system
  refines the pipe as soon as its histories only grow and stay safe.
-/
import Mathlib.Logic.Relation
import Mathlib.Tactic

namespace OhecoBroker.Lib

variable {β : Type*}

/-- The histories of the two ends of a pipe. -/
structure Pipe (β : Type*) where
  src : List β
  closed : Bool
  dst : List β
  shut : Bool

namespace Pipe

/-- Write, close, deliver what comes next, report the end. -/
inductive Step : Pipe β → Pipe β → Prop
  | push (p : Pipe β) (bs : List β) (hopen : p.closed = false) :
      Step p { p with src := p.src ++ bs }
  | close (p : Pipe β) : Step p { p with closed := true }
  | deliver (p : Pipe β) (bs : List β) (hnext : p.dst ++ bs <+: p.src) :
      Step p { p with dst := p.dst ++ bs }
  | shut (p : Pipe β) (hclosed : p.closed = true) (hall : p.dst = p.src) :
      Step p { p with shut := true }

/-- What came out is the beginning of what went in. -/
structure Safe (p : Pipe β) : Prop where
  copy : p.dst <+: p.src
  ended : p.shut = true → p.closed = true ∧ p.dst = p.src

theorem Step.safe {p q : Pipe β} (hstep : Step p q) (h : p.Safe) : q.Safe := by
  cases hstep with
  | push bs hopen =>
    refine ⟨h.copy.trans (List.prefix_append _ _), fun hs => ?_⟩
    cases hopen.symm.trans (h.ended hs).1
  | close => exact ⟨h.copy, fun hs => ⟨rfl, (h.ended hs).2⟩⟩
  | deliver bs hnext =>
    refine ⟨hnext, fun hs => ⟨(h.ended hs).1, ?_⟩⟩
    have hall := (h.ended hs).2
    rw [← hall] at hnext
    have hnil : bs = [] := by
      have := hnext.length_le
      rw [List.length_append] at this
      exact List.length_eq_zero_iff.mp (by omega)
    rw [hnil, List.append_nil]
    exact hall
  | shut hclosed hall => exact ⟨h.copy, fun _ => ⟨hclosed, hall⟩⟩

theorem safe_of_reach {p q : Pipe β} (hreach : Relation.ReflTransGen Step p q) (h : p.Safe) :
    q.Safe := by
  induction hreach with
  | refl => exact h
  | tail _ hstep ih => exact hstep.safe ih

/-- The histories of `q` continue those of `p`. -/
structure Grows (p q : Pipe β) : Prop where
  src : p.src <+: q.src
  closed : p.closed = true → q.closed = true ∧ q.src = p.src
  dst : p.dst <+: q.dst
  shut : p.shut = true → q.shut = true

/-- **Growth is a run.** -/
theorem reach_of_grows {p q : Pipe β} (hgrows : Grows p q) (hq : q.Safe) :
    Relation.ReflTransGen Step p q := by
  obtain ⟨src, closed, dst, shut⟩ := p
  obtain ⟨src', closed', dst', shut'⟩ := q
  obtain ⟨⟨new, hsrc⟩, hclosed, ⟨out, hdst⟩, hshut⟩ := hgrows
  obtain ⟨hcopy, hended⟩ := hq
  simp only at *
  subst hsrc hdst
  have hpush : Relation.ReflTransGen Step ⟨src, closed, dst, shut⟩
      (⟨src ++ new, closed, dst, shut⟩ : Pipe β) := by
    cases closed with
    | false => exact .single (.push _ new rfl)
    | true =>
      rw [(hclosed rfl).2]
  have hclose : Relation.ReflTransGen Step ⟨src ++ new, closed, dst, shut⟩
      (⟨src ++ new, closed', dst, shut⟩ : Pipe β) := by
    cases closed' with
    | true => exact .single (.close _)
    | false =>
      cases closed with
      | false => exact .refl
      | true => cases (hclosed rfl).1
  have hdeliver : Relation.ReflTransGen Step ⟨src ++ new, closed', dst, shut⟩
      (⟨src ++ new, closed', dst ++ out, shut⟩ : Pipe β) := .single (.deliver _ out hcopy)
  have hend : Relation.ReflTransGen Step ⟨src ++ new, closed', dst ++ out, shut⟩
      (⟨src ++ new, closed', dst ++ out, shut'⟩ : Pipe β) := by
    cases shut' with
    | true => exact .single (.shut _ (hended rfl).1 (hended rfl).2)
    | false =>
      cases shut with
      | false => exact .refl
      | true => cases hshut rfl
  exact hpush.trans (hclose.trans (hdeliver.trans hend))

end Pipe

end OhecoBroker.Lib
