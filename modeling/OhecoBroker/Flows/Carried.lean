/-
What the data functions can do to the place of a flow among the flows of its peer: it stays where
it is, answers, or dies.

* `Carried`, `Steady`, `SideCarried`: the flow is the same one, gets no socket, and a dead one
  stays dead; the peer keeps its role and does not become ready;
* `Carried.of_place`, `Carried.die`, `Carried.advance`: the three ways to be carried;
* `mV2WriteCalls_carried`, `mV2Read_carried`, `mV2Tick_carried`: version 2;
* `mStreamReadPlain_carried`, `mTcpTickPlain_carried`: version 1.
-/
import OhecoBroker.Flows.Steps
import OhecoBroker.Mapping.Kept

namespace OhecoBroker.Flows

open Lib
open Mapping

/-- The peer keeps its role and its limit, and does not become ready. -/
structure Steady (p q : Peer) : Prop where
  isServer : q.isServer = p.isServer
  maxFlows : q.maxFlows = p.maxFlows
  ready : q.ready = true → p.ready = true

lemma Steady.refl (p : Peer) : Steady p p := ⟨rfl, rfl, fun h => h⟩

lemma Steady.trans {p q u : Peer} (h : Steady p q) (h' : Steady q u) : Steady p u :=
  ⟨h'.isServer.trans h.isServer, h'.maxFlows.trans h.maxFlows, fun hr => h.ready (h'.ready hr)⟩

/-- The flow gets no socket and stays one that is read from; if it dies it gives its socket back.
-/
structure Carried (f g : Flow) : Prop where
  id : f.transient = false → g.id = f.id
  isLocal : g.isLocal = f.isLocal
  transient : g.transient = f.transient
  pendingOpen : g.pendingOpen = true → f.pendingOpen = true
  phase : g.phase = f.phase ∨ (g.phase ≠ .control ∧ g.phase ≠ .resolving)
  control : g.phase = .control → f.control <+: g.control
  need : g.phase = .control → g.controlNeed = f.controlNeed
  dead : f.phase = .dead → g.phase = .dead ∨ f.fd = true
  fd : g.fd = true → f.fd = true
  closed : g.phase = .dead → g.fd = true → f.phase = .dead ∨ f.transient = true

def Flow.place (f : Flow) : UInt64 × Bool × Bool × Bool × Phase × Bool × List UInt8 × ℕ :=
  (f.id, f.isLocal, f.transient, f.pendingOpen, f.phase, f.fd, f.control, f.controlNeed)

variable {f g : Flow} {u s : Side}

lemma Carried.of_place (h : Flow.place g = Flow.place f) : Carried f g := by
  simp only [Flow.place, Prod.mk.injEq] at h
  obtain ⟨hid, hlocal, htransient, hpending, hphase, hfd, hcontrol, hneed⟩ := h
  exact
    { id := fun _ => hid
      isLocal := hlocal
      transient := htransient
      pendingOpen := fun hp => hpending ▸ hp
      phase := .inl hphase
      control := fun _ => hcontrol ▸ List.prefix_rfl
      need := fun _ => hneed
      dead := fun hd => .inl (hphase.trans hd)
      fd := fun hf => hfd ▸ hf
      closed := fun hd _ => .inl (hphase ▸ hd) }

lemma Carried.refl (f : Flow) : Carried f f := .of_place rfl

lemma Carried.trans {u : Flow} (h : Carried f g) (h' : Carried g u) : Carried f u where
  id ht := (h'.id (h.transient.trans ht)).trans (h.id ht)
  isLocal := h'.isLocal.trans h.isLocal
  transient := h'.transient.trans h.transient
  pendingOpen hp := h.pendingOpen (h'.pendingOpen hp)
  phase := by
    rcases h'.phase with hu | hu
    · rw [hu]
      exact h.phase
    · exact .inr hu
  control hc := by
    have hg : g.phase = .control := (h'.phase.resolve_right fun hn => hn.1 hc).symm.trans hc
    exact (h.control hg).trans (h'.control hc)
  need hc := by
    have hg : g.phase = .control := (h'.phase.resolve_right fun hn => hn.1 hc).symm.trans hc
    exact (h'.need hc).trans (h.need hg)
  dead hd := by
    rcases h.dead hd with hg | hfd
    · exact (h'.dead hg).imp_right h.fd
    · exact .inr hfd
  fd hf := h.fd (h'.fd hf)
  closed hd hf := by
    rcases h'.closed hd hf with hg | ht
    · exact h.closed hg (h'.fd hf)
    · exact .inr (h.transient ▸ ht)

/-- A flow that dies and loses its socket. -/
lemma Carried.die (hid : g.id = f.id) (hl : g.isLocal = f.isLocal)
    (ht : g.transient = f.transient) (hp : g.pendingOpen = f.pendingOpen) (hd : g.phase = .dead)
    (hfd : g.fd = false) : Carried f g where
  id _ := hid
  isLocal := hl
  transient := ht
  pendingOpen h := hp ▸ h
  phase := .inr (by simp [hd])
  control h := by simp [hd] at h
  need h := by simp [hd] at h
  dead _ := .inl hd
  fd h := by simp [hfd] at h
  closed _ h := by simp [hfd] at h

/-- A flow that answers, connects or becomes active. -/
lemma Carried.advance (hid : g.id = f.id) (hl : g.isLocal = f.isLocal)
    (ht : g.transient = f.transient) (hp : g.pendingOpen = true → f.pendingOpen = true)
    (hphase : g.phase = .reply ∨ g.phase = .active ∨ g.phase = .connecting)
    (hfd : g.fd = true → f.fd = true) (hlive : f.phase ≠ .dead ∨ f.fd = true) : Carried f g where
  id _ := hid
  isLocal := hl
  transient := ht
  pendingOpen := hp
  phase := .inr (by rcases hphase with h | h | h <;> simp [h])
  control h := by rcases hphase with h' | h' | h' <;> simp [h'] at h
  need h := by rcases hphase with h' | h' | h' <;> simp [h'] at h
  dead h := .inr (hlive.resolve_left fun hn => hn h)
  fd := hfd
  closed h := by rcases hphase with h' | h' | h' <;> simp [h'] at h

lemma mAbort_carried (f : Flow) : Carried f (mAbort f) := .die rfl rfl rfl rfl rfl rfl

structure SideCarried (s u : Side) : Prop where
  peer : Steady s.peer u.peer
  flow : Carried s.flow u.flow

lemma SideCarried.refl (s : Side) : SideCarried s s := ⟨.refl _, .refl _⟩

lemma SideCarried.trans {v : Side} (h : SideCarried s u) (h' : SideCarried u v) : SideCarried s v :=
  ⟨h.peer.trans h'.peer, h.flow.trans h'.flow⟩

lemma SideCarried.composes : Composes SideCarried := ⟨.refl, .trans⟩

/-- A change of the data of a flow. -/
lemma SideCarried.data (h : SideCarried s u)
    (hg : Flow.place g = Flow.place u.flow) : SideCarried s { u with flow := g } :=
  ⟨h.peer, h.flow.trans (.of_place hg)⟩

lemma SideCarried.place (s : Side) (h : Flow.place g = Flow.place s.flow) :
    SideCarried s { s with flow := g } := (SideCarried.refl s).data h

lemma SideCarried.abort (h : SideCarried s u) : SideCarried s u.abort :=
  ⟨h.peer, h.flow.trans (mAbort_carried _)⟩

lemma peerFail_steady (p : Peer) : Steady p (peerFail p) := ⟨rfl, rfl, fun h => h⟩

/-- A transport that fails only stops the attempt. -/
lemma peerTransportFail_steady (p : Peer) : Steady p (peerTransportFail p) := by
  unfold peerTransportFail
  split
  · exact .refl p
  · split
    · exact peerFail_steady p
    · exact ⟨rfl, rfl, fun h => absurd h Bool.false_ne_true⟩

lemma SideCarried.fail (h : SideCarried s u) : SideCarried s u.fail :=
  ⟨h.peer.trans (peerFail_steady _), h.flow⟩

lemma SideCarried.transportFail (h : SideCarried s u) : SideCarried s u.transportFail :=
  ⟨h.peer.trans (peerTransportFail_steady _), h.flow⟩

/-! ### Notifications and sends -/

lemma Callback_call_carried (c : Callback) (s : Side) : SideCarried s (c.call s) := by
  cases c with
  | connClosing =>
    simp only [Callback.call, Peer.connClosing]
    split
    · exact (SideCarried.refl s).transportFail
    · exact .refl s
  | connClose =>
    simp only [Callback.call, Peer.connClose]
    split
    · exact .refl s
    have hclosed : Steady s.peer { s.peer with conn := false } := ⟨rfl, rfl, fun h => h⟩
    split
    · exact ⟨hclosed.trans (peerTransportFail_steady _), .refl _⟩
    · exact ⟨hclosed, .refl _⟩
  | streamClose =>
    simp only [Callback.call, mClose]
    split_ifs <;> exact ⟨.refl _, .of_place rfl⟩
  | streamReset =>
    simp only [Callback.call, mReset]
    split_ifs <;> exact ⟨.refl _, .of_place rfl⟩

lemma callbacks_carried (s : Side) (cs : List Callback) : SideCarried s (callbacks s cs) := by
  induction cs generalizing s with
  | nil => exact .refl s
  | cons c cs ih => exact (Callback_call_carried c s).trans (ih (c.call s))

/-- A send with the notifications that run inside it. -/
lemma xqcStreamSend_carried {bs : List UInt8} {r : SendResult} {ret : SendRet}
    (h : xqcStreamSend s bs r = (u, ret)) : SideCarried s u := by
  unfold xqcStreamSend at h
  split at h
  · obtain ⟨rfl, -⟩ := Prod.mk.inj h
    have hsent : SideCarried s { s with peer := { s.peer with
        outbox := s.peer.outbox ++ bs.take ‹ℕ› } } := ⟨⟨rfl, rfl, fun h => h⟩, .refl _⟩
    exact hsent.trans (callbacks_carried _ _)
  · obtain ⟨rfl, -⟩ := Prod.mk.inj h
    exact callbacks_carried _ _

lemma mReplySend_carried (s : Side) (r : SendResult) : SideCarried s (mReplySend s r).1 := by
  unfold mReplySend
  split
  · exact xqcStreamSend_carried ‹_›
  · rename_i u hu
    have hc := xqcStreamSend_carried hu
    split
    · exact hc.transportFail
    · exact hc.abort
  rename_i u n hu
  have hc := xqcStreamSend_carried hu
  split
  · exact hc
  · exact hc.data rfl

lemma mReplyFlush_carried (s : Side) (r : SendResult) : SideCarried s (mReplyFlush s r) := by
  refine SideCarried.composes.replyFlush (fun s => (SideCarried.refl s).abort) mReplySend_carried
    (fun s hreply => ⟨.refl _, ?_⟩) s r
  exact .advance rfl rfl rfl (fun h => h) (.inr (.inl rfl)) (fun h => h) (.inl (by simp [hreply]))

/-! ### Version 2 -/

lemma mV2WriteHeader_carried (s : Side) (r : SendResult) :
    SideCarried s (mV2WriteHeader s r).1 := by
  unfold mV2WriteHeader
  split
  · exact xqcStreamSend_carried ‹_›
  · exact (xqcStreamSend_carried ‹_›).transportFail
  rename_i u n hu
  have hc := xqcStreamSend_carried hu
  split
  · exact hc
  · exact hc.data rfl

lemma mV2WritePayload_carried (s : Side) (r : SendResult) :
    SideCarried s (mV2WritePayload s r).1 := by
  unfold mV2WritePayload
  simp only
  split
  · exact (SideCarried.refl s).fail
  split
  · exact xqcStreamSend_carried ‹_›
  · exact (xqcStreamSend_carried ‹_›).transportFail
  rename_i u n hu
  have hc := xqcStreamSend_carried hu
  split
  · exact hc.data rfl
  · exact hc.data rfl

lemma mV2Next_place (f : Flow) : Flow.place (mV2Next f) = Flow.place f := by
  unfold mV2Next
  split_ifs <;> rfl

lemma mV2WriteCalls_carried (n : ℕ) (s : Side) (rs : List FrameSends) :
    SideCarried s (mV2WriteCalls n s rs) :=
  SideCarried.composes.writeCalls (fun s => .place s (mV2Next_place s.flow))
    (SideCarried.composes.writeFrame mV2WriteHeader_carried mV2WritePayload_carried
      fun s => .place s rfl) n s rs

lemma confirmResume_place (f : Flow) : Flow.place (confirmResume f) = Flow.place f := by
  unfold confirmResume
  split <;> rfl

/-- An acknowledgement only moves the send window. -/
lemma mV2Ack_place {offset flags : ℕ} (h : mV2Ack f offset flags = some g) :
    Flow.place g = Flow.place f := by
  obtain ⟨tx, pos, base, acked, rfl⟩ := mV2Ack_eq h
  rfl

/-- A frame header only moves the read position. -/
lemma mV2Header_place (h : mV2Header f = some g) : Flow.place g = Flow.place f := by
  obtain ⟨_, _, _, _, _, _, _, _, _, _, rfl⟩ := mV2Header_eq h
  exact confirmResume_place _

lemma afterReceive_steady (p : Peer) (n want : ℕ) : Steady p (afterReceive p n want) :=
  ⟨rfl, rfl, fun h => h⟩

lemma mV2ReadHeader_carried (s : Side) (r : RecvResult) : SideCarried s (mV2ReadHeader s r).1 := by
  unfold mV2ReadHeader
  split
  · exact .refl s
  · exact (SideCarried.refl s).abort
  rename_i n fin
  simp only
  have hread : SideCarried s
      { s with peer := afterReceive s.peer n (frameHeader - s.flow.inFrame.length) } :=
    ⟨afterReceive_steady _ _ _, .refl _⟩
  split
  · exact hread.abort
  split
  · exact hread.data rfl
  split
  · refine SideCarried.abort (SideCarried.fail ?_)
    exact hread.data rfl
  rename_i g hg
  have hplace := mV2Header_place hg
  split
  · exact hread.data hplace
  · exact hread.data hplace

lemma mV2Compact_place (f : Flow) : Flow.place (mV2Compact f) = Flow.place f := by
  unfold mV2Compact
  split <;> rfl

lemma mV2Advance_place (f : Flow) (n : ℕ) : Flow.place (mV2Advance f n) = Flow.place f := by
  unfold mV2Advance
  simp only
  split <;> rfl

/-- A payload that does not fit aborts the flow. -/
lemma mV2ReadPayload_carried (s : Side) (r : RecvResult) :
    SideCarried s (mV2ReadPayload s r).1 := by
  unfold mV2ReadPayload
  simp only
  split
  · exact (SideCarried.refl s).fail.abort
  have hc : SideCarried s (if s.flow.inOffset + s.flow.inPos = s.flow.rxNext then
      { s with flow := mV2Compact s.flow } else s) := by
    split
    · exact (SideCarried.refl s).data (mV2Compact_place _)
    · exact .refl s
  generalize (if s.flow.inOffset + s.flow.inPos = s.flow.rxNext then
      { s with flow := mV2Compact s.flow } else s) = u at *
  split
  · exact hc
  split
  · exact hc
  · exact hc.abort
  rename_i n fin
  have hread : SideCarried s { u with peer := afterReceive u.peer n (mV2Want u.flow) } :=
    ⟨hc.peer.trans (afterReceive_steady _ _ _), hc.flow⟩
  split
  · exact hread.abort
  split
  · exact hread
  split
  · exact hread.data (mV2Advance_place _ _)
  · split
    · exact hread.fail.abort
    · exact hread.data (mV2Advance_place _ _)

lemma mV2Read_carried (s : Side) (rs : List RecvResult) : SideCarried s (mV2Read s rs) :=
  SideCarried.composes.read mV2ReadHeader_carried mV2ReadPayload_carried s rs

lemma drained_place (f : Flow) : Flow.place (drained f) = Flow.place f := by
  unfold drained
  split <;> rfl

lemma mV2TickSend_place {env : TickEnv} (h : mV2TickSend f env = some g) :
    Flow.place g = Flow.place f := by
  unfold mV2TickSend at h
  split at h
  · split at h
    · cases h
    · cases h
      exact drained_place f
    · cases h
      exact drained_place f
    · cases h
      exact drained_place _
  · cases h
    rfl

lemma mV2TickShut_place {env : TickEnv} (h : mV2TickShut f env = some g) :
    Flow.place g = Flow.place f := by
  unfold mV2TickShut at h
  split_ifs at h <;>
    (obtain rfl := Option.some.inj h; rfl)

lemma mV2TickRecv_carried (s : Side) (env : TickEnv) : SideCarried s (mV2TickRecv s env).1 := by
  unfold mV2TickRecv
  simp only
  split
  · split
    · exact (SideCarried.refl s).abort
    · exact .refl s
    · split
      · exact (SideCarried.refl s).data rfl
      · split
        · refine SideCarried.abort (SideCarried.fail ?_)
          exact (SideCarried.refl s).data rfl
        · exact (SideCarried.refl s).data rfl
  · exact .refl s

lemma mV2Tick_carried (s : Side) (env : TickEnv) : SideCarried s (mV2Tick s env) :=
  SideCarried.composes.tick (fun s => (SideCarried.refl s).abort)
    (fun h => .place _ (mV2TickSend_place h)) (fun h => .place _ (mV2TickShut_place h))
    (mV2TickRecv_carried · env) (mV2WriteCalls_carried 2 · env.writes) s

/-! ### Version 1 -/

lemma mStreamReadPlain_carried (proof : Bool) (s : Side) (r : StreamRecv) :
    SideCarried s (mStreamReadPlain proof s r) := by
  have hcompact : Flow.place (if s.flow.rxPos = s.flow.rx.length then
      { s.flow with rx := [], rxPos := 0 } else mV2Compact s.flow) = Flow.place s.flow := by
    split
    · rfl
    · exact mV2Compact_place _
  unfold mStreamReadPlain
  dsimp only
  generalize (if s.flow.rxPos = s.flow.rx.length then { s.flow with rx := [], rxPos := 0 }
    else mV2Compact s.flow) = f at hcompact ⊢
  have hc : SideCarried s { s with flow := f } := (SideCarried.refl s).data hcompact
  split
  · exact .refl s
  split
  · split
    · exact .refl s
    · have hread : SideCarried s { s with flow := { s.flow with streamEof := ‹Bool› } } :=
        (SideCarried.refl s).data rfl
      split
      · exact hread.abort
      · exact hread
    · split
      · exact (SideCarried.refl s).fail.abort
      · exact (SideCarried.refl s).abort
  split
  · exact hc
  split
  · exact hc
  · exact hc.abort
  · exact hc.data rfl

lemma mTcpWriteData_carried (s : Side) (r : SendResult) : SideCarried s (mTcpWriteData s r).1 := by
  unfold mTcpWriteData
  split
  · exact xqcStreamSend_carried ‹_›
  · exact (xqcStreamSend_carried ‹_›).abort
  rename_i u n hu
  have hc := xqcStreamSend_carried hu
  split
  · exact hc
  · exact hc.data rfl

lemma mTcpWriteFin_carried (s : Side) (r : SendResult) : SideCarried s (mTcpWriteFin s r) := by
  have hfin : SideCarried s { s with flow := { s.flow with sentFin := true } } :=
    (SideCarried.refl s).data rfl
  unfold mTcpWriteFin
  split
  · exact (hfin.trans (xqcStreamSend_carried ‹_›)).data rfl
  · refine SideCarried.abort ?_
    exact (hfin.trans (xqcStreamSend_carried ‹_›)).data rfl
  · exact hfin.trans (xqcStreamSend_carried ‹_›)

/-- The payload first, then the end of the stream. -/
lemma mTcpWritePlain_carried (s : Side) (data fin : SendResult) :
    SideCarried s (mTcpWritePlain s data fin) := by
  obtain ⟨u, go, hu, hc⟩ : ∃ u go,
      (if s.flow.txPos < s.flow.tx.length then mTcpWriteData s data else (s, true)) = (u, go) ∧
      SideCarried s u := by
    split
    · exact ⟨_, _, rfl, mTcpWriteData_carried s data⟩
    · exact ⟨_, _, rfl, .refl s⟩
  unfold mTcpWritePlain
  split
  · exact .refl s
  simp only [hu]
  split
  · exact hc
  have hempty : SideCarried s { u with flow := { u.flow with tx := [], txPos := 0 } } :=
    hc.data rfl
  split
  · exact hempty.trans (mTcpWriteFin_carried _ fin)
  · exact hempty

lemma mTcpTickSend_place {env : PlainEnv} (h : mTcpTickSend f env = some g) :
    Flow.place g = Flow.place f := by
  unfold mTcpTickSend at h
  split at h
  · split at h
    · cases h
    · cases h
      rfl
    · cases h
      exact drained_place _
  · cases h
    rfl

lemma mTcpTickShut_place (f : Flow) : Flow.place (mTcpTickShut f) = Flow.place f := by
  unfold mTcpTickShut
  split <;> rfl

lemma mTcpTickRecv_place {env : PlainEnv} (h : mTcpTickRecv f env = some g) :
    Flow.place g = Flow.place f := by
  have hroom : Flow.place (if f.txPos = f.tx.length then { f with tx := [], txPos := 0 }
      else if 0 < f.txPos ∧ f.tx.length = streamBuffer then
        { f with tx := f.tx.drop f.txPos, txPos := 0 } else f) = Flow.place f := by
    split_ifs <;> rfl
  unfold mTcpTickRecv at h
  simp only at h
  generalize (if f.txPos = f.tx.length then { f with tx := [], txPos := 0 }
      else if 0 < f.txPos ∧ f.tx.length = streamBuffer then
        { f with tx := f.tx.drop f.txPos, txPos := 0 } else f) = u at h hroom
  split at h
  · split at h
    · cases h
      exact hroom
    · split at h
      · cases h
      · cases h
        exact hroom
      · cases h
        exact hroom
      · cases h
        exact hroom
  · cases h
    rfl

lemma mTcpTickPlain_carried (s : Side) (env : PlainEnv) : SideCarried s (mTcpTickPlain s env) := by
  unfold mTcpTickPlain
  split
  · exact .refl s
  split
  · exact (SideCarried.refl s).abort
  split
  · exact (SideCarried.refl s).abort
  rename_i f hf
  have hshut := ((SideCarried.refl s).data (mTcpTickSend_place hf)).data (mTcpTickShut_place f)
  split
  · exact hshut.abort
  rename_i g hg
  have hwrite := (hshut.data (mTcpTickRecv_place hg)).trans
    (mTcpWritePlain_carried _ env.data env.fin)
  simp only
  split
  · refine ⟨hwrite.peer, hwrite.flow.trans ?_⟩
    exact
      { Carried.refl (mTcpWritePlain { s with flow := g } env.data env.fin).flow with
        fd := fun h => absurd h Bool.false_ne_true
        closed := fun _ h => absurd h Bool.false_ne_true }
  · exact hwrite

end OhecoBroker.Flows
