/-
Retained flows and the grace of the outage that suspended them.

* `setReconnectPolicy`, `Event`, `Endpoint.event`: what happens at one end, the change of its
  policy included;
* `Endpoint.Restores`: the events that restore a flow;
* `Endpoint.event_step`, `Endpoint.Ok.run`: every event is a step of what decides how long a flow
  is retained, and a run that does not restore it;
* `grace_never_extended`: **over any such run a retained flow keeps a deadline that only comes
  nearer, past which no `RESUME` is accepted and the next tick aborts the flow**.
-/
import OhecoBroker.Mapping.Link
import OhecoBroker.Mapping.Restoring

namespace OhecoBroker.Mapping

open Lib

/-! ### Events -/

/-- The policy after a call that asks for `flowGraceMs`. -/
def setReconnectPolicy (p : Peer) (flowGraceMs : ℕ) : Peer :=
  let ms := if flowGraceMs = 0 then 120000 else flowGraceMs
  if 3600000 < ms then p else { p with flowGraceMs := ms }

/-- What happens at one end. -/
inductive Event where
  | own (a : Act)
  | recoveryTick (sampledUs : ℕ)
  | setPolicy (flowGraceMs : ℕ)
  | connect (context : Bool) (wireVersion : ℕ)
  | deliver (bytes : List UInt8)
  | stream (f : Flow)
  | unmap
  deriving DecidableEq

/-- One event; a tick reads the clock before it looks at the flows. -/
def Endpoint.event (e : Endpoint) : Event → Endpoint
  | .own a => e.act a
  | .recoveryTick sampledUs =>
    { Mapping.recoveryTick { e with peer := { e.peer with now := sampledUs } } with peer := e.peer }
  | .setPolicy ms => { e with peer := setReconnectPolicy e.peer ms }
  | .connect context wireVersion =>
    if canConnect e.peer then
      { e with peer := connected { e.peer with wireVersion } context }
    else e
  | .deliver bytes => { e with peer := { e.peer with inbox := e.peer.inbox ++ bytes } }
  | .stream f => { e with incoming := some f }
  | .unmap => { e with flow := { e.flow with map := none, closeRequested := true } }

/-- The event accepts the message or the frame that restores the flow. -/
def Endpoint.Restores (e : Endpoint) : Event → Prop
  | .own (.read rs flush) => streamRestores e.side rs flush = true
  | _ => False

def Endpoint.graceUntil (e : Endpoint) : ℕ := suspendDeadline e.peer e.peer.recoveryDeadlineUs

/-- What holds of every end. -/
structure Endpoint.Ok (e : Endpoint) : Prop where
  policy : 0 < e.peer.flowGraceMs
  flow : e.flow.retention.Ok

variable {e : Endpoint} {deadline : ℕ}

lemma Endpoint.Ok.graceUntil_pos (h : e.Ok) : 0 < e.graceUntil := by
  have := h.policy
  unfold Endpoint.graceUntil suspendDeadline
  split <;> omega

lemma Endpoint.onIncoming_step {g : Side → Side × Option Flow} {restores : Prop}
    (hg : ∀ s, s.peer = e.peer → ∀ o ∈ (g s).2,
      ∃ k ∈ [e.flow], Retention.Step s.peer.now deadline False k.retention o.retention) :
    Retention.Step e.peer.now deadline restores e.flow.retention
      (e.onIncoming g).flow.retention := by
  unfold Endpoint.onIncoming
  split
  · exact .same
  rename_i f hf
  cases hold : (g ⟨e.peer, f⟩).2 with
  | none =>
    simp only [hold, Option.getD_none]
    exact .same
  | some o =>
    simp only [hold, Option.getD_some]
    obtain ⟨k, hk, hstep⟩ := hg ⟨e.peer, f⟩ rfl o hold
    rw [List.mem_singleton.mp hk] at hstep
    exact hstep.mono (by rintro ⟨⟩)

lemma Endpoint.act_step (h : e.Ok) (a : Act) :
    Retention.Step e.peer.now e.graceUntil (e.Restores (.own a)) e.flow.retention
      (e.act a).flow.retention := by
  have hsame {s : Side} (hs : s.standing = e.side.standing) :
      Retention.Step e.peer.now e.graceUntil (e.Restores (.own a)) e.flow.retention
        s.flow.retention := by
    have hret : s.flow.retention = e.flow.retention := congrArg Prod.fst hs
    rw [hret]
    exact .same
  cases a with
  | tick env => exact hsame (mV2Tick_standing e.side env)
  | write rs => exact hsame (mV2WriteCalls_standing 2 e.side rs)
  | flush r => exact hsame (Side.standing_eq (mReplyFlush_kept e.side r))
  | read rs flush => exact mStreamRead_step (s := e.side) h.flow flush rs
  | incomingFlush r =>
    exact Endpoint.onIncoming_step fun _ _ o ho => absurd ho (Option.not_mem_none o)
  | incomingRead rs flush rc =>
    exact Endpoint.onIncoming_step fun s _ o ho => mStreamRead_old ho
  | create allocated =>
    show Retention.Step _ _ _ _ (mCreate e allocated).flow.retention
    unfold mCreate
    split_ifs <;> exact .same
  | ready created flush =>
    by_cases hc : e.peer.conn = true ∧ e.peer.detached = false
    · rw [Endpoint.act, if_pos hc]
      rcases markReady_standing e.side created flush with hs | ⟨hp, hs⟩
      · exact hsame hs
      have hret : (markReady e.side created flush).flow.retention = _ := congrArg Prod.fst hs
      show Retention.Step _ _ _ _ (markReady e.side created flush).flow.retention
      rw [hret]
      exact .opened hp
    · rw [Endpoint.act, if_neg hc]
      exact .same
  | recoveryTick =>
    show Retention.Step _ _ _ _ (recoveryFlow e.peer e.flow).retention
    unfold recoveryFlow
    split <;> exact .same
  | abort => exact .same
  | incomingAbort =>
    exact Endpoint.onIncoming_step fun _ _ o ho => absurd ho (Option.not_mem_none o)
  | callback c => exact hsame (Side.standing_eq (c.call_kept e.side))
  | incomingCallback c =>
    exact Endpoint.onIncoming_step fun _ _ o ho => absurd ho (Option.not_mem_none o)
  | transportFail => exact .same
  | fail => exact .same
  | detach =>
    show Retention.Step _ _ _ _ (transportDetach e).flow.retention
    unfold transportDetach
    split
    · exact .same
    · exact suspendFlow_step h.graceUntil_pos e.flow
  | attemptBegin =>
    show Retention.Step _ _ _ _ (Mapping.attemptBegin e).flow.retention
    unfold Mapping.attemptBegin
    split_ifs <;> exact .same
  | elapse us => exact .same

/-- **An event is a step.** -/
lemma Endpoint.event_step (h : e.Ok) (ev : Event) :
    Retention.Step e.peer.now e.graceUntil (e.Restores ev) e.flow.retention
      (e.event ev).flow.retention := by
  cases ev with
  | own a => exact Endpoint.act_step h a
  | recoveryTick sampledUs =>
    show Retention.Step _ _ _ _ (recoveryFlow { e.peer with now := sampledUs } e.flow).retention
    unfold recoveryFlow
    split <;> exact .same
  | connect context wireVersion =>
    rw [Endpoint.event]
    split <;> exact .same
  | setPolicy | deliver | stream | unmap => exact .same

/-! ### Policies -/

/-- No action changes the policy. -/
lemma Endpoint.act_flowGraceMs (e : Endpoint) (a : Act) :
    (e.act a).peer.flowGraceMs = e.peer.flowGraceMs := by
  have hincoming {g : Side → Side × Option Flow} (hg : ∀ s, (g s).1.peer.terms = s.peer.terms) :
      (e.onIncoming g).peer.flowGraceMs = e.peer.flowGraceMs := by
    unfold Endpoint.onIncoming
    split
    · rfl
    · exact congrArg Prod.snd (hg _)
  have hside {s : Side} (hs : s.standing = e.side.standing) :
      s.peer.flowGraceMs = e.peer.flowGraceMs := congrArg (·.2.2) hs
  have hkept {s t : Side} (hs : s.kept = t.kept) : s.peer.terms = t.peer.terms :=
    congrArg Prod.snd hs
  cases a with
  | tick env => exact hside (mV2Tick_standing e.side env)
  | write rs => exact hside (mV2WriteCalls_standing 2 e.side rs)
  | flush r => exact hside (Side.standing_eq (mReplyFlush_kept e.side r))
  | read rs flush => exact congrArg Prod.snd (mStreamRead_terms [] 0 flush e.side rs)
  | incomingFlush r => exact hincoming fun s => hkept (mReplyFlush_kept s r)
  | incomingRead rs flush rc => exact hincoming fun s => mStreamRead_terms [e.flow] rc flush s rs
  | create allocated =>
    show (mCreate e allocated).peer.flowGraceMs = e.peer.flowGraceMs
    unfold mCreate
    split_ifs <;> rfl
  | ready created flush =>
    by_cases hc : e.peer.conn = true ∧ e.peer.detached = false
    · rw [Endpoint.act, if_pos hc]
      rcases markReady_standing e.side created flush with hs | ⟨-, hs⟩
      · exact hside hs
      · exact congrArg (·.2.2) hs
    · rw [Endpoint.act, if_neg hc]
  | recoveryTick | abort | fail | elapse => rfl
  | incomingAbort => exact hincoming fun _ => rfl
  | callback c => exact hside (Side.standing_eq (c.call_kept e.side))
  | incomingCallback c => exact hincoming fun s => hkept (c.call_kept s)
  | transportFail => exact congrArg Prod.snd (peerTransportFail_terms e.peer)
  | detach =>
    show (transportDetach e).peer.flowGraceMs = e.peer.flowGraceMs
    unfold transportDetach
    split <;> rfl
  | attemptBegin =>
    show (Mapping.attemptBegin e).peer.flowGraceMs = e.peer.flowGraceMs
    unfold Mapping.attemptBegin
    split_ifs <;> rfl

lemma Endpoint.Ok.event (h : e.Ok) (ev : Event) : (e.event ev).Ok := by
  refine ⟨?_, (e.event_step h ev).ok h.flow⟩
  have hpos := h.policy
  cases ev with
  | own a =>
    rw [Endpoint.event, Endpoint.act_flowGraceMs]
    exact hpos
  | setPolicy ms =>
    simp only [Endpoint.event, setReconnectPolicy]
    split_ifs
    · exact hpos
    · simp
    · exact hpos
    · show 0 < ms
      omega
  | connect context wireVersion =>
    rw [Endpoint.event]
    split <;> exact hpos
  | recoveryTick | deliver | stream | unmap => exact hpos

/-! ### Runs -/

/-- Never suspended, or accepted during an outage and not opened yet. -/
structure Flow.New (f : Flow) : Prop where
  resuming : f.resuming = false
  suspended : f.suspended = true → f.pendingOpen = true
  pending : f.pendingOpen = true → f.isLocal = true

lemma Flow.New.ok {f : Flow} (h : f.New) : f.retention.Ok where
  grace := by
    rintro (⟨hs, hp⟩ | hres)
    · cases (h.suspended hs).symm.trans hp
    · cases h.resuming.symm.trans hres
  resuming hres := (by cases h.resuming.symm.trans hres)
  pending := h.pending

lemma Endpoint.Ok.run (h : e.Ok) (hret : e.flow.retention.Retained) {evs : List Event}
    (hev : Along Endpoint.event (fun e ev => ¬e.Restores ev) e evs) :
    (run Endpoint.event e evs).Ok ∧ (run Endpoint.event e evs).flow.retention.Retained ∧
      (run Endpoint.event e evs).flow.graceDeadlineUs ≤ e.flow.graceDeadlineUs := by
  refine along_invariant (I := fun d : Endpoint => d.Ok ∧ d.flow.retention.Retained ∧
    d.flow.graceDeadlineUs ≤ e.flow.graceDeadlineUs) ?_ ⟨h, hret, le_rfl⟩ hev
  rintro d ev ⟨hok, hr, hle⟩ hno
  obtain ⟨hr', hle'⟩ := (d.event_step hok ev).retained hok.flow hr hno
  exact ⟨hok.event ev, hr', hle'.trans hle⟩

lemma recoveryFlow_aborts {p : Peer} {f : Flow} (hret : f.retention.Retained)
    (hnow : f.graceDeadlineUs ≤ p.now) : (recoveryFlow p f).phase = .dead ∧
      (recoveryFlow p f).fd = false := by
  have hexp : ((f.suspended = true ∨ f.resuming = true) ∧ f.graceDeadlineUs ≤ p.now) ∨
      f.closeRequested = true :=
    .inl ⟨hret.imp_left And.left, hnow⟩
  rw [recoveryFlow, if_pos hexp]
  exact ⟨rfl, rfl⟩

/-- **Retained flows do not outlive the grace of their outage.** What suspends a flow grants it no
more time than the outage allows; until it is restored it stays retained and its deadline does not
move back; from the deadline on nothing binds it to a stream, and a tick aborts it. -/
theorem grace_never_extended (hp : 0 < e.peer.flowGraceMs) (hf : e.flow.New) (evs : List Event) :
    (∀ ev, ¬(run Endpoint.event e evs).flow.retention.Retained →
      ((run Endpoint.event e evs).event ev).flow.retention.Retained →
      ((run Endpoint.event e evs).event ev).flow.graceDeadlineUs ≤
        (run Endpoint.event e evs).graceUntil) ∧
    ((run Endpoint.event e evs).flow.retention.Retained →
      0 < (run Endpoint.event e evs).flow.graceDeadlineUs ∧
      (∀ more, Along Endpoint.event (fun e ev => ¬e.Restores ev) (run Endpoint.event e evs) more →
        (run Endpoint.event e (evs ++ more)).flow.retention.Retained ∧
        0 < (run Endpoint.event e (evs ++ more)).flow.graceDeadlineUs ∧
        (run Endpoint.event e (evs ++ more)).flow.graceDeadlineUs ≤
          (run Endpoint.event e evs).flow.graceDeadlineUs) ∧
      ((run Endpoint.event e evs).flow.graceDeadlineUs ≤ (run Endpoint.event e evs).peer.now →
        ∀ ev, ((run Endpoint.event e evs).event ev).flow.resuming = true →
          (run Endpoint.event e evs).flow.resuming = true) ∧
      ∀ now, (run Endpoint.event e evs).flow.graceDeadlineUs ≤ now →
        ((run Endpoint.event e evs).event (.recoveryTick now)).flow.phase = .dead ∧
        ((run Endpoint.event e evs).event (.recoveryTick now)).flow.fd = false) := by
  have hok : (run Endpoint.event e evs).Ok :=
    run_invariant (fun _ ev h => h.event ev) evs ⟨hp, hf.ok⟩
  simp only [run_append]
  generalize run Endpoint.event e evs = d at hok ⊢
  refine ⟨fun ev => (d.event_step hok ev).granted hok.flow, fun hret => ?_⟩
  refine ⟨hok.flow.grace hret, fun more hmore => ?_, fun hnow ev => ?_, fun now hnow => ?_⟩
  · obtain ⟨hok', hret', hle⟩ := hok.run hret hmore
    exact ⟨hret', hok'.flow.grace hret', hle⟩
  · exact (d.event_step hok ev).resuming hnow
  · exact recoveryFlow_aborts hret hnow

/-- A client end whose policy grants one second. -/
def graceEnd : Endpoint :=
  (Link.initial { id := 3, target := ⟨[97], 80⟩, clientGraceMs := 1000 }).client

/-- An outage, the detach, a longer policy, an attempt that fails. -/
def graceEvents : List Event :=
  [.own (.elapse 5), .own .transportFail, .own (.elapse 3), .own .detach, .setPolicy 60000,
   .own .attemptBegin, .connect true 2, .own (.ready true {}), .own .transportFail, .own .detach]

/-- The deadline stays one second after the outage, whatever the new policy grants. -/
theorem grace_never_extended_failed_attempt :
    (run Endpoint.event graceEnd graceEvents).flow.retention.Retained ∧
    (run Endpoint.event graceEnd graceEvents).flow.graceDeadlineUs = 1000005 ∧
    ((run Endpoint.event graceEnd graceEvents).event (.recoveryTick 1000005)).flow.phase =
      .dead := by
  have hret : (run Endpoint.event graceEnd graceEvents).flow.retention.Retained := by
    decide +kernel
  have hgrace : (run Endpoint.event graceEnd graceEvents).flow.graceDeadlineUs = 1000005 := by
    decide +kernel
  obtain ⟨-, h⟩ := grace_never_extended (e := graceEnd) (by decide)
    ⟨rfl, (by rintro ⟨⟩), (by rintro ⟨⟩)⟩ graceEvents
  obtain ⟨-, -, -, htick⟩ := h hret
  exact ⟨hret, hgrace, (htick 1000005 hgrace.le).1⟩

end OhecoBroker.Mapping
