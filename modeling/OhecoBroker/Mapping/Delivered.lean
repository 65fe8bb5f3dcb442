/-
Delivery is exactly once and in order, across any loss of the transport.

* `pipe`, `Copied.safe`, `Later.pipe`: one direction of a link, as a pipe;
* `Link.refines_pipe`: **a link refines a reliable pipe** in either direction;
* `mapped_delivery_exactly_once`: **what the sockets see, in every state of every run**.
-/
import OhecoBroker.Lib.Pipe
import OhecoBroker.Mapping.Attempts
import OhecoBroker.Mapping.History

namespace OhecoBroker.Mapping

open Lib

def pipe (f g : Flow) : Pipe UInt8 where
  src := f.sockRead
  closed := f.socketEof
  dst := g.sockWritten
  shut := g.sockShut

lemma Copied.safe {f g : Flow} (h : Copied f g) : (pipe f g).Safe :=
  ⟨(List.prefix_append _ _).trans h.copy, h.shut⟩

lemma Later.pipe {f f' g g' : Flow} (hf : Later f f') (hg : Later g g') :
    (Mapping.pipe f g).Grows (Mapping.pipe f' g') :=
  ⟨hf.read, hf.eof, hg.written, hg.shut⟩

lemma Link.step_later (l : Link) (a : LinkAct) :
    Later l.client.flow (l.step a).client.flow ∧ Later l.broker.flow (l.step a).broker.flow := by
  cases a with
  | client a => exact ⟨l.client.act_later a, .refl _⟩
  | broker a => exact ⟨.refl _, l.broker.act_later a⟩
  | toBroker n => exact ⟨.refl _, .refl _⟩
  | toClient n => exact ⟨.refl _, .refl _⟩
  | connect c d =>
    by_cases hc : canConnect l.client.peer ∧ canConnect l.broker.peer
    · rw [Link.step, if_pos hc]
      exact ⟨.refl _, .refl _⟩
    · rw [Link.step, if_neg hc]
      exact ⟨.refl _, .refl _⟩

lemma Link.pipe_step (l : Link) (a : LinkAct) (h : l.Ok) :
    Relation.ReflTransGen Pipe.Step (pipe l.client.flow l.broker.flow)
      (pipe (l.step a).client.flow (l.step a).broker.flow) ∧
    Relation.ReflTransGen Pipe.Step (pipe l.broker.flow l.client.flow)
      (pipe (l.step a).broker.flow (l.step a).client.flow) := by
  have hok : (l.step a).Ok := l.ok_step a h
  obtain ⟨hc, hb⟩ := l.step_later a
  exact ⟨Pipe.reach_of_grows (hc.pipe hb) (Copied.safe hok.forth.data),
    Pipe.reach_of_grows (hb.pipe hc) (Copied.safe hok.back.data)⟩

theorem Link.refines_pipe (c : Config) (as : List LinkAct) :
    Relation.ReflTransGen Pipe.Step
      (pipe (Link.initial c).client.flow (Link.initial c).broker.flow)
      (pipe (Link.after c as).client.flow (Link.after c as).broker.flow) ∧
    Relation.ReflTransGen Pipe.Step
      (pipe (Link.initial c).broker.flow (Link.initial c).client.flow)
      (pipe (Link.after c as).broker.flow (Link.after c as).client.flow) :=
  ⟨run_reflTransGen (fun l => pipe l.client.flow l.broker.flow) Link.ok_step
      (fun l a h => (l.pipe_step a h).1) as (Inv.initial c),
    run_reflTransGen (fun l => pipe l.broker.flow l.client.flow) Link.ok_step
      (fun l a h => (l.pipe_step a h).2) as (Inv.initial c)⟩

/-- **Exactly once, in order.** In every state and for each direction, the receiving socket
accepted the first bytes the sending socket gave, and was shut down only when they are all of
them. -/
theorem mapped_delivery_exactly_once (c : Config) (as : List LinkAct) :
    let l := Link.after c as
    (l.broker.flow.sockWritten <+: l.client.flow.sockRead ∧
      (l.broker.flow.sockShut = true → l.client.flow.socketEof = true ∧
        l.broker.flow.sockWritten = l.client.flow.sockRead)) ∧
    (l.client.flow.sockWritten <+: l.broker.flow.sockRead ∧
      (l.client.flow.sockShut = true → l.broker.flow.socketEof = true ∧
        l.client.flow.sockWritten = l.broker.flow.sockRead)) := by
  have hstart {f g : Flow} (hw : g.sockWritten = []) (hs : g.sockShut = false) :
      (pipe f g).Safe :=
    ⟨by simp [pipe, hw], fun h => (by cases hs.symm.trans h)⟩
  obtain ⟨hforth, hback⟩ := Link.refines_pipe c as
  have hf := Pipe.safe_of_reach hforth (hstart rfl rfl)
  have hb := Pipe.safe_of_reach hback (hstart rfl rfl)
  exact ⟨⟨hf.copy, hf.ended⟩, ⟨hb.copy, hb.ended⟩⟩

end OhecoBroker.Mapping
