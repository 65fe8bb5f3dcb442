/-
Moves of one end that leave the stream alone: changes of the flow record, of the peer record, and
the notifications of the transport.

* `Endpoint.bound_of_stream`, `Endpoint.rxAt_of_bound`: the flow that holds the stream;
* `Inv.moveFlow`, `Inv.abort`, `Inv.movePeer`, `Inv.fail`: changes of the flow and the peer;
* `Inv.unbind`, `Inv.notified`, `Inv.notifiedAll`: notifications.
-/
import OhecoBroker.Mapping.Invariant

namespace OhecoBroker.Mapping

open Lib

/-! ### The flow that holds the stream -/

variable {e x y : Endpoint} {f : Flow} {p : Peer} {ctl : Bool} {R : List Token} {Q : List Msg}

lemma Endpoint.bound_of_stream (h : EndOk e) (hs : e.flow.stream = true) :
    e.bound = some e.flow := by
  have hnone : e.incoming.filter (·.stream) = none := by
    cases hi : e.incoming with
    | none => rfl
    | some f => simp [Option.filter, h.exclusive hs f hi]
  simp [Endpoint.bound, hnone, hs]

lemma Endpoint.bound_of_not_stream (hs : e.flow.stream = false) :
    e.bound = e.incoming.filter (·.stream) := by
  unfold Endpoint.bound
  cases e.incoming.filter (·.stream) with
  | none => simp [hs]
  | some f => rfl

lemma EndOk.awaiting_of_bound (h : EndOk e) (hb : e.bound = some f) : e.peer.awaiting = false := by
  by_contra hne
  have := h.awaiting (by simpa using hne)
  simp [hb] at this

lemma Endpoint.txStatus_of_bound (h : EndOk e)
    (hb : e.bound = some f) : e.txStatus = f.txStatus e.peer.attemptStop := by
  simp [Endpoint.txStatus, h.awaiting_of_bound hb, hb]

lemma Endpoint.rxAt_of_bound (h : EndOk e) (hb : e.bound = some f) : e.rxAt = f.rxAt := by
  simp [Endpoint.rxAt, h.awaiting_of_bound hb, hb]

lemma Endpoint.bound_eq_none :
    e.bound = none ↔ e.incoming.filter (·.stream) = none ∧ e.flow.stream = false := by
  unfold Endpoint.bound
  cases e.incoming.filter (·.stream) <;> simp

lemma EndOk.change (h : EndOk e) (hok : FlowOk f)
    (hctl : ControlOk f) (hlocal : f.isLocal = e.flow.isLocal)
    (hstream : f.stream = e.flow.stream) (hphase : f.phase = .control → e.flow.phase = .control)
    (hrole : p.isServer = e.peer.isServer) (haw : p.awaiting = e.peer.awaiting)
    (hdet : p.detached = e.peer.detached)
    (hunready : p.conn = true → p.detached = false → p.ready = false → p.attemptStop = false →
      p.awaiting = true) : EndOk { e with peer := p, flow := f } := by
  have hnone : e.bound = none → Endpoint.bound { e with peer := p, flow := f } = none := by
    simp only [Endpoint.bound_eq_none, hstream, imp_self]
  exact
    { flow := hok, control := hctl, incoming := h.incoming
      role := by rw [hrole, hlocal]; exact h.role
      brokerOnly := by rw [hrole]; exact h.brokerOnly
      clientOnly := fun hp => hlocal ▸ h.clientOnly (hphase hp)
      awaiting := fun ha => hnone (h.awaiting (haw ▸ ha))
      exclusive := by rw [hstream]; exact h.exclusive
      detached := fun hd => by
        obtain ⟨h1, h2⟩ := h.detached (hdet ▸ hd)
        exact ⟨hnone h1, haw ▸ h2⟩
      unready := hunready }

/-- Where it reads is told by its flow. -/
lemma Endpoint.rxAt_change (h : EndOk e)
    (h' : EndOk { e with peer := p, flow := f }) (hstream : f.stream = e.flow.stream)
    (haw : p.awaiting = e.peer.awaiting)
    (hrx : e.flow.stream = true → f.rxAt = none ∨ f.rxAt = e.flow.rxAt) :
    Endpoint.rxAt { e with peer := p, flow := f } = none ∨
      Endpoint.rxAt { e with peer := p, flow := f } = e.rxAt := by
  by_cases hs : e.flow.stream = true
  · rw [Endpoint.rxAt_of_bound h (Endpoint.bound_of_stream h hs),
      Endpoint.rxAt_of_bound h' (Endpoint.bound_of_stream h' (hstream.trans hs))]
    exact hrx hs
  have hs : e.flow.stream = false := by simpa using hs
  right
  simp only [Endpoint.rxAt, haw, Endpoint.bound_of_not_stream hs,
    Endpoint.bound_of_not_stream (e := { e with peer := p, flow := f }) (hstream.trans hs)]

/-- What it owes is told by its flow. -/
lemma Endpoint.fits_change (h : EndOk e)
    (h' : EndOk { e with peer := p, flow := f }) (hstream : f.stream = e.flow.stream)
    (haw : p.awaiting = e.peer.awaiting) (hstop : p.attemptStop = e.peer.attemptStop)
    (htx : e.flow.stream = true → (e.flow.txStatus e.peer.attemptStop).Fits ctl R Q →
      (f.txStatus e.peer.attemptStop).Fits ctl R Q)
    (hfits : e.txStatus.Fits ctl R Q) :
    (Endpoint.txStatus { e with peer := p, flow := f }).Fits ctl R Q := by
  by_cases hs : e.flow.stream = true
  · rw [Endpoint.txStatus_of_bound h (Endpoint.bound_of_stream h hs)] at hfits
    rw [Endpoint.txStatus_of_bound h' (Endpoint.bound_of_stream h' (hstream.trans hs)), hstop]
    exact htx hs hfits
  have hs : e.flow.stream = false := by simpa using hs
  simpa only [Endpoint.txStatus, haw, hstop, Endpoint.bound_of_not_stream hs,
    Endpoint.bound_of_not_stream (e := { e with peer := p, flow := f }) (hstream.trans hs)]
    using hfits

/-! ### Changes of the flow -/

lemma Inv.moveFlow (h : Inv x y) (hok : FlowOk f)
    (hctl : ControlOk f) (hlocal : f.isLocal = x.flow.isLocal)
    (hstream : f.stream = x.flow.stream)
    (hphase : f.phase = .control → x.flow.phase = .control) (hg : Grows x.flow f)
    (hbase : f.fd = true → f.txBase ≤ y.flow.sockWritten.length) (hdata : Copied y.flow f)
    (htx : x.flow.stream = true → y.rxAt ≠ none → ∀ ctl R Q,
      (x.flow.txStatus x.peer.attemptStop).Fits ctl R Q →
        (f.txStatus x.peer.attemptStop).Fits ctl R Q)
    (hrx : x.flow.stream = true → f.rxAt = none ∨ f.rxAt = x.flow.rxAt) :
    Inv { x with flow := f } y := by
  have hend : EndOk { x with flow := f } :=
    h.left.change hok hctl hlocal hstream hphase rfl rfl rfl h.left.unready
  refine h.move hend rfl hg hbase hdata ?_ ?_
  · exact h.forth.wire.sender hg rfl rfl fun hy ctl R Q =>
      Endpoint.fits_change h.left hend hstream rfl rfl fun hs => htx hs hy ctl R Q
  · exact h.back.wire.receiver rfl (Endpoint.rxAt_change h.left hend hstream rfl hrx)

/-- **`m_abort`.** -/
lemma Inv.abort (h : Inv x y) : Inv (x.onFlow Side.abort) y := by
  have hok : FlowOk (mAbort x.flow) :=
    { alive := fun hp => absurd rfl hp, released := fun _ => ⟨rfl, rfl⟩
      tx := fun hfd => by simp [mAbort] at hfd
      final := fun hfd => by simp [mAbort] at hfd
      commit := fun hfd => by simp [mAbort] at hfd
      next := fun hfd => by simp [mAbort] at hfd
      sent := h.left.flow.sent, shut := h.left.flow.shut, out := h.left.flow.out
      quiet := fun hq => by
        refine h.left.flow.quiet (.inr (.inr ?_))
        simpa [mAbort] using hq
      idle := fun hq => h.left.flow.idle (.inr (by simpa [mAbort] using hq))
      setup := ⟨by simp [mAbort], by simp [mAbort]⟩
      pending := h.left.flow.pending }
  have hdead : (mAbort x.flow).phase ≠ .control := by simp [mAbort]
  show Inv { x with flow := mAbort x.flow } y
  refine h.moveFlow hok (fun hp => absurd hp hdead) rfl rfl (fun hp => absurd hp hdead)
    (.of_eq rfl rfl rfl rfl) (fun hfd => (by cases hfd)) ?_ ?_ ?_
  · exact h.back.data.target rfl (by simp [mAbort]) rfl rfl rfl
  · intro _ _ ctl R Q _
    simp [mAbort, Flow.txStatus, TxStatus.Fits]
  · exact fun _ => .inl (by simp [mAbort, Flow.rxAt])

lemma Inv.forget (h : Inv x y) {pos offset txPos high reply : ℕ} (hf : f = { x.flow with
      outPos := pos, outOffset := offset, txPos := txPos, txSentHigh := high
      replyPos := reply })
    (hover : x.flow.stream = true → y.rxAt ≠ none → f.txStatus x.peer.attemptStop = .over)
    (hout : x.flow.outKind = some .data → offset ≤ x.flow.outEnd) :
    Inv { x with flow := f } y := by
  subst hf
  have hok := h.left.flow
  refine h.moveFlow
    { hok with
      out := fun k hk => ⟨(hok.out k hk).1, fun hd => ⟨hout (hd ▸ hk), ((hok.out k hk).2 hd).2⟩⟩ }
    h.left.control rfl rfl id (.of_eq rfl rfl rfl rfl) h.forth.base ?_ ?_ fun _ => .inr rfl
  · exact h.back.data.target rfl List.prefix_rfl rfl rfl rfl
  · intro hs hy ctl R Q _
    rw [hover hs hy]
    trivial

/-! ### Changes of the peer -/

lemma Flow.fits_stop {a b : Bool} (hab : b = a ∨ b = true)
    (h : (f.txStatus a).Fits ctl R Q) : (f.txStatus b).Fits ctl R Q := by
  rcases hab with rfl | rfl
  · exact h
  unfold Flow.txStatus at *
  by_cases hdead : f.phase = .dead
  · simp [hdead, TxStatus.Fits]
  by_cases hsil : f.phase = .control ∧ f.isLocal = false
  · simpa [hdead, hsil] using h
  · by_cases hpos : f.replyPos < f.reply.length
    · simpa [hdead, hsil, hpos] using h
    · simp [hdead, hsil, hpos, TxStatus.Fits]

lemma Inv.movePeer (h : Inv x y)
    (hrole : p.isServer = x.peer.isServer) (hin : p.inbox = x.peer.inbox)
    (hout : p.outbox = x.peer.outbox) (haw : p.awaiting = x.peer.awaiting)
    (hdet : p.detached = x.peer.detached)
    (hstop : p.attemptStop = x.peer.attemptStop ∨ p.attemptStop = true)
    (hunready : p.conn = true → p.detached = false → p.ready = false → p.attemptStop = false →
      p.awaiting = true) : Inv { x with peer := p } y := by
  have hb : Endpoint.bound { x with peer := p } = x.bound := rfl
  have hend : EndOk { x with peer := p } :=
    h.left.change h.left.flow h.left.control rfl rfl id hrole haw hdet hunready
  refine h.move hend hrole (.of_eq rfl rfl rfl rfl) h.forth.base h.back.data ?_ ?_
  · refine h.forth.wire.sender (.of_eq rfl rfl rfl rfl) hout hrole fun _ ctl R Q => ?_
    simp only [Endpoint.txStatus, hb, haw]
    split
    · exact id
    · split
      · exact id
      · exact Flow.fits_stop hstop
  · refine h.back.wire.receiver hin (.inr ?_)
    simp only [Endpoint.rxAt, hb, haw]

lemma Inv.fail (h : Inv x y) : Inv (x.onFlow Side.fail) y :=
  h.movePeer rfl rfl rfl rfl rfl (.inr rfl) fun _ _ _ hs => by simp [Side.fail, peerFail] at hs

/-- **`m_fail`** with a transport error. -/
lemma Inv.transportFail (h : Inv x y) : Inv (x.onFlow Side.transportFail) y := by
  show Inv { x with peer := peerTransportFail x.peer } y
  unfold peerTransportFail
  split
  · exact h
  · split
    · exact h.fail
    · exact h.movePeer rfl rfl rfl rfl rfl (.inr rfl) fun _ _ _ hs => (by cases hs)

/-! ### Notifications -/

/-- The stream of the flow is gone. -/
lemma Inv.unbind (h : Inv x y) {c : Bool} (hs : x.flow.stream = true) :
    Inv { x with flow := { x.flow with stream := false, closeRequested := c } } y := by
  have hb := Endpoint.bound_of_stream h.left hs
  have haw := h.left.awaiting_of_bound hb
  have hnone : x.incoming.filter (·.stream) = none := by
    cases hi : x.incoming with
    | none => rfl
    | some f => simp [Option.filter, h.left.exclusive hs f hi]
  have hb' : Endpoint.bound { x with flow := { x.flow with stream := false, closeRequested := c } }
      = none := by
    rw [Endpoint.bound_of_not_stream rfl]
    exact hnone
  have hend : EndOk { x with flow := { x.flow with stream := false, closeRequested := c } } :=
    { flow := { h.left.flow with }, control := h.left.control, incoming := h.left.incoming
      role := h.left.role, brokerOnly := h.left.brokerOnly, clientOnly := h.left.clientOnly
      awaiting := fun _ => hb', exclusive := fun hs' => (by cases hs')
      detached := fun hd => ⟨hb', (h.left.detached hd).2⟩, unready := h.left.unready }
  refine h.move hend rfl (.of_eq rfl rfl rfl rfl) h.forth.base ?_ ?_ ?_
  · exact h.back.data.target rfl List.prefix_rfl rfl rfl rfl
  · refine h.forth.wire.sender (.of_eq rfl rfl rfl rfl) rfl rfl fun _ ctl R Q _ => ?_
    simp [Endpoint.txStatus, haw, hb', TxStatus.Fits]
  · exact h.back.wire.receiver rfl (.inl (by simp [Endpoint.rxAt, haw, hb']))

lemma Flow.fits_close {a : Bool} (h : (f.txStatus a).Fits ctl R Q) :
    (Flow.txStatus a { f with closeRequested := true }).Fits ctl R Q := by
  unfold Flow.txStatus at *
  by_cases hdead : f.phase = .dead
  · simp [hdead, TxStatus.Fits]
  by_cases hsil : f.phase = .control ∧ f.isLocal = false
  · simpa [hdead, hsil] using h
  by_cases hpos : f.replyPos < f.reply.length
  · simp [hdead, hsil, hpos, TxStatus.Fits]
  simp only [hdead, hsil, hpos, if_false] at h ⊢
  split at h
  · simp_all [TxStatus.Fits]
  · simp_all [TxStatus.Fits, unsent, unsentFrame]

/-- The flow is to be closed. -/
lemma Inv.closeRequested (h : Inv x y) :
    Inv { x with flow := { x.flow with closeRequested := true } } y := by
  have hok := h.left.flow
  refine h.moveFlow { hok with } h.left.control rfl rfl id (.of_eq rfl rfl rfl rfl) h.forth.base
    (h.back.data.target rfl List.prefix_rfl rfl rfl rfl) ?_ fun _ => .inr rfl
  exact fun _ _ ctl R Q hfits => Flow.fits_close hfits

lemma Inv.notified (h : Inv x y) (c : Callback) : Inv (x.onFlow fun s => c.call s) y := by
  cases c with
  | connClosing =>
    show Inv { x with peer := x.peer.connClosing } y
    unfold Peer.connClosing
    split
    · exact h.transportFail
    · exact h
  | connClose =>
    show Inv { x with peer := x.peer.connClose } y
    have hclosed : Inv { x with peer := { x.peer with conn := false } } y :=
      h.movePeer rfl rfl rfl rfl rfl (.inl rfl) fun hc => (by cases hc)
    unfold Peer.connClose
    split
    · exact h
    simp only
    split
    · exact hclosed.transportFail
    · exact hclosed
  | streamClose =>
    show Inv { x with peer := (mClose x.side).peer, flow := (mClose x.side).flow } y
    unfold mClose
    split
    · exact h
    rename_i hs
    have hs : x.flow.stream = true := by simpa [Endpoint.side] using hs
    simp only
    split
    · exact h.unbind hs
    · split
      · exact h.unbind hs
      · exact h.unbind hs
  | streamReset =>
    show Inv { x with peer := (mReset x.side).peer, flow := (mReset x.side).flow } y
    unfold mReset
    split
    · exact h
    · exact h.closeRequested

lemma Inv.notifiedAll (h : Inv x y) (cs : List Callback) :
    Inv (x.onFlow fun s => callbacks s cs) y := by
  induction cs generalizing x with
  | nil => exact h
  | cons c cs ih => exact ih (h.notified c)

/-- The fields of a flow that notifications look at. -/
structure SameNotified (f g : Flow) : Prop where
  stream : g.stream = f.stream
  protocol : g.protocol = f.protocol
  phase : g.phase = f.phase
  streamEof : g.streamEof = f.streamEof
  sentFin : g.sentFin = f.sentFin
  closeRequested : g.closeRequested = f.closeRequested

lemma call_frame (c : Callback) (p : Peer) (f : Flow) :
    ∃ q b r, (∀ g, SameNotified f g →
        c.call ⟨p, g⟩ = ⟨q, { g with stream := b, closeRequested := r }⟩) ∧
      (b = true → f.stream = true) := by
  have same : ∀ g, SameNotified f g →
      g = { g with stream := f.stream, closeRequested := f.closeRequested } := by
    intro g hg
    rw [← hg.stream, ← hg.closeRequested]
  cases c with
  | connClosing =>
    refine ⟨p.connClosing, f.stream, f.closeRequested, fun g hg => ?_, id⟩
    rw [← same g hg]
    rfl
  | connClose =>
    refine ⟨p.connClose, f.stream, f.closeRequested, fun g hg => ?_, id⟩
    rw [← same g hg]
    rfl
  | streamClose =>
    by_cases hs : f.stream = false
    · refine ⟨p, f.stream, f.closeRequested, fun g hg => ?_, id⟩
      rw [← same g hg]
      simp [Callback.call, mClose, hg.stream, hs]
    by_cases hkeep : p.attemptStop = true ∨ (f.protocol = protoTcp ∧ f.phase = .active ∧
        f.streamEof = true ∧ f.sentFin = true ∧ f.closeRequested = false ∧ p.stop = false)
    · refine ⟨p, false, f.closeRequested, fun g hg => ?_, (by rintro ⟨⟩)⟩
      obtain ⟨h1, h2, h3, h4, h5, h6⟩ := hg
      rw [← h2, ← h3, ← h4, ← h5, ← h6] at hkeep
      rw [← h1] at hs
      rcases hkeep with ha | hkeep
      · simp [Callback.call, mClose, hs, ha, ← h6]
      · simp [Callback.call, mClose, hs, hkeep, ← h6]
    refine ⟨p, false, true, fun g hg => ?_, (by rintro ⟨⟩)⟩
    obtain ⟨h1, h2, h3, h4, h5, h6⟩ := hg
    rw [← h2, ← h3, ← h4, ← h5, ← h6] at hkeep
    rw [← h1] at hs
    rw [not_or] at hkeep
    simp only [Callback.call, mClose]
    rw [if_neg hs, if_neg hkeep.1, if_neg hkeep.2]
  | streamReset =>
    by_cases hs : f.stream = false ∨ p.attemptStop = true
    · refine ⟨p, f.stream, f.closeRequested, fun g hg => ?_, id⟩
      rw [← same g hg]
      simp [Callback.call, mReset, hg.stream, hs]
    · refine ⟨p, f.stream, true, fun g hg => ?_, id⟩
      simp [Callback.call, mReset, hg.stream, hs]

lemma callbacks_frame (cs : List Callback) (p : Peer) (f : Flow) :
    ∃ q b r, (∀ g, SameNotified f g →
        callbacks ⟨p, g⟩ cs = ⟨q, { g with stream := b, closeRequested := r }⟩) ∧
      (b = true → f.stream = true) := by
  induction cs generalizing p f with
  | nil =>
    refine ⟨p, f.stream, f.closeRequested, fun g hg => ?_, id⟩
    rw [← hg.stream, ← hg.closeRequested]
    rfl
  | cons c cs ih =>
    obtain ⟨q, b, r, hcall, hb⟩ := call_frame c p f
    obtain ⟨q', b', r', hrest, hb'⟩ := ih q { f with stream := b, closeRequested := r }
    refine ⟨q', b', r', fun g hg => ?_, fun h => hb (hb' h)⟩
    have hstep : callbacks ⟨p, g⟩ (c :: cs)
        = callbacks ⟨q, { g with stream := b, closeRequested := r }⟩ cs := by
      rw [← hcall g hg]
      rfl
    rw [hstep, hrest { g with stream := b, closeRequested := r }
      ⟨rfl, hg.protocol, hg.phase, hg.streamEof, hg.sentFin, rfl⟩]

end OhecoBroker.Mapping
