/-
Control messages of the incoming flow: the broker reads `RESUME`, and refuses it or binds its
stream to the retained flow.

* `Wire.answer`, `FlowOk.snapOk`: the first message of an end, and the snapshot in it;
* `Inv.incomingPart`, `Inv.incomingDie`: a part of the message is read;
* `Inv.refuse`, `Inv.rebind`, `Inv.incomingFinish`: the two answers of the broker;
* `Inv.incomingRead`: **`m_stream_read` on the incoming flow keeps the invariant**.
-/
import OhecoBroker.Mapping.Control
import OhecoBroker.Mapping.Incoming

namespace OhecoBroker.Mapping

open Lib List

/-! ### The first message of an end -/

lemma Endpoint.left_of_ctl {e : Endpoint} {pos : RxPos} (h : e.rxAt = some pos)
    (hctl : pos.ctl = true) : pos.left = 0 := by
  unfold Endpoint.rxAt at h
  split at h
  · cases h
    rfl
  obtain ⟨f, -, hf⟩ := Option.bind_eq_some_iff.mp h
  unfold Flow.rxAt at hf
  split_ifs at hf
  · cases hf
    rfl
  · cases hf
    rfl
  · cases hf
    cases hctl

variable {x y : Endpoint} {f g : Flow} {p : Peer}

lemma Wire.answer {x' : Endpoint} (h : Wire x y)
    (hbox : x'.peer.outbox = x.peer.outbox) (hsilent : x.txStatus = .silent)
    {m : Msg} (hm : m.IsCtl) (hok : m.Ok x'.peer.isServer x'.flow)
    (hfits : x'.txStatus.Fits true m.enc [m]) : Wire x' y := by
  intro pos hpos
  obtain ⟨T, R, bs, Q, hf⟩ := h pos hpos
  have hsil := hf.fits
  rw [hsilent] at hsil
  obtain ⟨rfl, hctl⟩ := hsil
  obtain rfl : bs = [] :=
    length_eq_zero_iff.mp (hf.left.trans (Endpoint.left_of_ctl hpos hctl))
  have hnil := hf.framed
  simp only [located_nil, encAll_nil, append_nil, append_eq_nil_iff] at hnil
  obtain ⟨hpre, rfl, rfl⟩ := hnil
  refine ⟨[], m.enc, [], [m], hbox ▸ hf.bytes, (by intros; contradiction), hf.left, ?_, ?_, ?_,
    hctl ▸ hfits⟩
  · rw [hpre]
    simp
  · exact ⟨by simp [hm, hctl], (by intros; contradiction)⟩
  · intro q hq
    rw [mem_singleton.mp hq]
    exact hok

/-! ### Reading a `RESUME` -/

lemma Inv.moveIncomingRead (h : Inv x y)
    (hi : x.incoming = some f) (hs : f.stream = true) (hok : IncomingOk g)
    (hgs : g.stream = true) {box : List UInt8}
    (htx : ∀ ctl R Q, (f.txStatus x.peer.attemptStop).Fits ctl R Q →
      (g.txStatus x.peer.attemptStop).Fits ctl R Q)
    (hwire : ∀ pos, g.rxAt = some pos → ∃ T R bs Q, Framing y
      { x with peer := { x.peer with inbox := box }, incoming := some g } pos T R bs Q) :
    Inv { x with peer := { x.peer with inbox := box }, incoming := some g } y := by
  have hend : EndOk { x with peer := { x.peer with inbox := box }, incoming := some g } :=
    h.left.changeIncoming hi (by rintro k ⟨⟩; exact hok) fun _ _ _ => hs
  refine h.move hend rfl (.of_eq rfl rfl rfl rfl) h.forth.base h.back.data ?_ ?_
  · refine h.forth.wire.sender (.of_eq rfl rfl rfl rfl) rfl rfl fun _ ctl R Q hfits => ?_
    rw [Endpoint.txStatus_of_bound h.left (Endpoint.bound_incoming hi hs)] at hfits
    rw [Endpoint.txStatus_of_bound hend (Endpoint.bound_incoming rfl hgs)]
    exact htx ctl R Q hfits
  · intro pos hpos
    rw [Endpoint.rxAt_of_bound hend (Endpoint.bound_incoming rfl hgs)] at hpos
    exact hwire pos hpos

lemma Inv.incomingFraming (h : Inv x y) (hi : x.incoming = some f)
    (hs : f.stream = true) (hp : f.phase = .control) :
    ∃ T R bs Q, Framing y x { pre := f.control, ctl := true } T R bs Q :=
  h.back.wire _
    (by rw [Endpoint.rxAt_of_bound h.left (Endpoint.bound_incoming hi hs), Flow.rxAt_control hp])

lemma mHeaderCheck_incoming {fs : List Flow} (hl : f.isLocal = false)
    (h : mHeaderCheck p fs f = some g) : ∃ t i pr w, g = { f with
      transient := t, id := i, protocol := pr, wireVersion := w
      controlNeed := controlHeader + field f.control 6 2 } := by
  have hl : ¬ f.isLocal = true := by simp [hl]
  unfold mHeaderCheck at h
  simp only at h
  rw [if_neg hl] at h
  split_ifs at h <;> exact ⟨_, _, _, _, (Option.some.inj h).symm⟩

lemma mHeaderCheck_incoming_due {fs : List Flow} (hl : f.isLocal = false)
    (h : (if f.control.length = controlHeader ∧ f.controlNeed = controlHeader then
      mHeaderCheck p fs f else some f) = some g) :
    ∃ t i pr w need, g = { f with
        transient := t, id := i, protocol := pr, wireVersion := w, controlNeed := need } ∧
      if f.control.length = controlHeader ∧ f.controlNeed = controlHeader then
        need = controlHeader + field f.control 6 2 else need = f.controlNeed := by
  split at h
  · rename_i hdue
    obtain ⟨t, i, pr, w, hg⟩ := mHeaderCheck_incoming hl h
    exact ⟨t, i, pr, w, _, hg, by rw [if_pos hdue]⟩
  · rename_i hdue
    exact ⟨f.transient, f.id, f.protocol, f.wireVersion, f.controlNeed,
      (Option.some.inj h).symm, by rw [if_neg hdue]⟩

/-- A part of the message is read. -/
lemma Inv.incomingPart (h : Inv x y) (hi : x.incoming = some f)
    (hs : f.stream = true) (hp : f.phase = .control) {m need : ℕ} (t : Bool) (i : UInt64)
    (pr w : ℕ)
    (hlen : f.control.length + (x.peer.inbox.take m).length ≤ f.controlNeed ∨
      x.peer.inbox.take m = [])
    (hneed : if (f.control ++ x.peer.inbox.take m).length = controlHeader ∧
        f.controlNeed = controlHeader then
      need = controlHeader + field (f.control ++ x.peer.inbox.take m) 6 2
      else need = f.controlNeed) :
    Inv { x with
      peer := { x.peer with inbox := x.peer.inbox.drop m }
      incoming := some { f with
        control := f.control ++ x.peer.inbox.take m, transient := t, id := i, protocol := pr
        wireVersion := w, controlNeed := need } } y := by
  have hok := h.left.incoming f hi
  refine h.moveIncomingRead hi hs (g := { f with
      control := f.control ++ x.peer.inbox.take m, transient := t, id := i, protocol := pr
      wireVersion := w, controlNeed := need })
    { hok with control := fun _ => hok.control.extend hp hlen hneed } hs ?_ ?_
  · intro ctl R Q hfits
    simp only [Flow.txStatus, hp, hok.notLocal] at hfits ⊢
    exact hfits
  intro pos hpos
  obtain rfl := Option.some.inj ((Flow.rxAt_control (by exact hp)).symm.trans hpos)
  obtain ⟨T, R, bs, Q, hf⟩ := h.incomingFraming hi hs hp
  obtain ⟨T', hf'⟩ := hf.controlExtend (z := { x with
      peer := { x.peer with inbox := x.peer.inbox.drop m }
      incoming := some { f with
        control := f.control ++ x.peer.inbox.take m, transient := t, id := i, protocol := pr
        wireVersion := w, controlNeed := need } })
    (hok.control.want hp hlen) rfl
  exact ⟨T', R, [], Q, hf'⟩

lemma Inv.incomingDie (h : Inv x y) (hi : x.incoming = some f)
    (hs : f.stream = true) (m : ℕ) (control : List UInt8) :
    Inv { x with
      peer := { x.peer with inbox := x.peer.inbox.drop m }
      incoming := some (mAbort { f with control := control }) } y := by
  have hok := h.left.incoming f hi
  have hdead : Inv { x with incoming := some (mAbort { f with control := control }) } y := by
    refine h.moveIncoming hi ?_ ?_ ?_ ?_
    · rintro k ⟨⟩
      exact { hok with fd := rfl, control := fun hp => (by cases hp), phase := .inr (.inr rfl) }
    · rintro k ⟨⟩ _
      exact hs
    · rintro k ⟨⟩ _ ctl R Q _
      simp [mAbort, Flow.txStatus, TxStatus.Fits]
    · rintro k ⟨⟩ _
      exact .inl (by simp [mAbort, Flow.rxAt])
  refine hdead.discard ?_ m
  rw [Endpoint.rxAt_of_bound hdead.left (Endpoint.bound_incoming rfl hs)]
  simp [mAbort, Flow.rxAt]

/-! ### The answer of the broker -/

lemma Inv.incomingSilent (h : Inv x y) (hi : x.incoming = some f)
    (hs : f.stream = true) (hp : f.phase = .control) : x.txStatus = .silent := by
  rw [Endpoint.txStatus_of_bound h.left (Endpoint.bound_incoming hi hs)]
  simp [Flow.txStatus, hp, (h.left.incoming f hi).notLocal]

/-- Only the broker has an incoming flow. -/
lemma EndOk.isServer {e : Endpoint} (h : EndOk e) (hi : e.incoming = some f) :
    e.peer.isServer = true := by
  by_contra hne
  have := h.brokerOnly (by simpa using hne)
  simp [hi] at this

/-- **The broker refuses.** -/
lemma Inv.refuse (h : Inv x y) (hi : x.incoming = some f)
    (hs : f.stream = true) (hc : f.closeRequested = false) (hp : f.phase = .control)
    (hlen : controlHeader ≤ f.control.length)
    (hfull : f.control.length = controlHeader + field f.control 6 2) {code : ℤ}
    (hcode : code.natAbs % 2 ^ 32 ≠ 0) (b : Bool) :
    Inv { x with incoming := some { rejectResume f code with streamEof := b } } y := by
  have hok := h.left.incoming f hi
  obtain ⟨g, hg⟩ : ∃ g, g = { rejectResume f code with streamEof := b } := ⟨_, rfl⟩
  have hgs : g.stream = true := by rw [hg]; exact hs
  have hend : EndOk { x with incoming := some g } := by
    refine h.left.changeIncoming hi (by
      rintro k ⟨⟩
      rw [hg]
      exact { hok with
        control := fun hp => (by cases hp), phase := .inr (.inl ⟨rfl, rfl⟩) }) fun _ _ _ => hs
  obtain ⟨T, R, bs, Q, hf⟩ := h.incomingFraming hi hs hp
  obtain ⟨-, -, -, Q', -, -, -, hfr⟩ :=
    hf.controlDone hlen hfull (z := { x with incoming := some g }) rfl
  rw [← hg]
  refine h.move hend rfl (.of_eq rfl rfl rfl rfl) h.forth.base h.back.data ?_ ?_
  · refine h.forth.wire.answer rfl (h.incomingSilent hi hs hp)
      (m := .ctl .resumeAck f.id (Snapshot.mk code.natAbs 0 0 0 0 0).bytes) trivial ?_ ?_
    · refine .inr ⟨by simp [h.left.isServer hi], Snapshot.length_bytes _, fun hstatus => ?_⟩
      rw [Snapshot.read_bytes_mod] at hstatus
      exact absurd hstatus hcode
    · rw [Endpoint.txStatus_of_bound hend (Endpoint.bound_incoming rfl hgs), hg]
      simp only [Flow.txStatus, rejectResume, hc, length_append, length_mHeader,
        Snapshot.length_bytes, controlHeader, resumeSize]
      refine ⟨?_, by simp, by simp, by simp⟩
      simp [Msg.enc, unsent, unsentFrame, hok.out, resumeSize]
  intro pos hpos
  rw [Endpoint.rxAt_of_bound hend (Endpoint.bound_incoming rfl hgs)] at hpos
  have hat : g.rxAt = some { pre := [], ctl := false } := by
    rw [hg]
    simp [Flow.rxAt, rejectResume, hok.frame, frameHeader]
  obtain rfl := Option.some.inj (hat.symm.trans hpos)
  exact ⟨T, R, [], Q', hfr⟩

/-- The snapshot of a flow is true of it. -/
lemma FlowOk.snapOk (h : FlowOk f) (hfd : f.fd = true) :
    SnapOk f (Snapshot.read (mResumeSnapshot f 0)) := by
  rw [mResumeSnapshot, Snapshot.read_bytes_mod]
  intro _
  refine ⟨(Nat.mod_le _ _).trans (h.commit hfd).le, fun heof => ?_⟩
  have hsock : f.socketEof = true := by
    by_contra hne
    cases hfin : f.rxFinApplied <;> simp [Snapshot.eof, snapshot, hne, hfin] at heof
  refine ⟨hsock, ?_⟩
  have hmax := (h.tx hfd).2.2
  simp only [uint64Max] at hmax
  simp only [snapshot, h.final hfd, hsock, if_true]
  exact Nat.mod_eq_of_lt (by omega)

lemma Inv.rebind (h : Inv x y) (hi : x.incoming = some f)
    (hs : f.stream = true) (hp : f.phase = .control)
    (hlen : controlHeader ≤ f.control.length)
    (hfull : f.control.length = controlHeader + field f.control 6 2)
    (hkind : field f.control 4 1 = ControlKind.resume.code ∨
      field f.control 4 1 = ControlKind.resumeAck.code)
    (hres : resumable x.peer x.flow)
    (happ : mResumeApply x.flow (f.control.drop controlHeader) = (g, true)) (b : Bool) :
    Inv { x with
      flow := Mapping.rebind x.peer g
      incoming := some { f with
        stream := false, phase := .dead, closeRequested := true, streamEof := b } } y := by
  have hokf := h.left.incoming f hi
  have hok := h.left.flow
  have hfd : x.flow.fd = true := hres.2.2.2.2.1
  have hb := Endpoint.bound_incoming hi hs
  obtain ⟨base, fin, rfl, hstatus, hle, hnext, hor⟩ := mResumeApply_true happ
  obtain ⟨T, R, bs, Q, hf⟩ := h.incomingFraming hi hs hp
  obtain ⟨kind, id, body, Q', hcontrol, hmsg, -, hfr⟩ :=
    hf.controlDone hlen hfull (z := { x with
      flow := Mapping.rebind x.peer
        (resumed x.flow (Snapshot.read (f.control.drop controlHeader)) base fin)
      incoming := some { f with
        stream := false, phase := .dead, closeRequested := true, streamEof := b } }) rfl
  have hbody : f.control.drop controlHeader = body := by
    rw [hcontrol, drop_append_of_le_length (by simp), drop_eq_nil_of_le (by simp),
      nil_append]
  rw [hcontrol] at hkind
  have hsnap : SnapOk y.flow (Snapshot.read (f.control.drop controlHeader)) :=
    hbody ▸ hmsg.snap hkind
  have hokr : FlowOk (resumed x.flow (Snapshot.read (f.control.drop controlHeader)) base fin) :=
    hok.resumed hfd fin hle hnext
  have hcopy : Copied y.flow
      (resumed x.flow (Snapshot.read (f.control.drop controlHeader)) base fin) :=
    h.back.data.resumed fin hstatus hsnap
  have hend : EndOk { x with
      flow := Mapping.rebind x.peer
        (resumed x.flow (Snapshot.read (f.control.drop controlHeader)) base fin)
      incoming := some { f with
        stream := false, phase := .dead, closeRequested := true, streamEof := b } } :=
    { flow := { hokr with
        alive := fun _ => hfd, quiet := fun _ => rfl, idle := fun _ => rfl
        setup := ⟨by simp [Mapping.rebind], by simp [Mapping.rebind]⟩ }
      control := fun hp => (by cases hp)
      incoming := by
        rintro k ⟨⟩
        exact { hokf with control := fun hp => (by cases hp), phase := .inr (.inr rfl) }
      role := h.left.role
      brokerOnly := fun hr => by simp [h.left.isServer hi] at hr
      clientOnly := fun hp => (by cases hp)
      awaiting := fun ha => by simp [h.left.awaiting_of_bound hb] at ha
      exclusive := by rintro - k ⟨⟩; rfl
      detached := fun hd => (by cases hb.symm.trans (h.left.detached hd).1)
      unready := h.left.unready }
  have hbound := Endpoint.bound_of_stream hend rfl
  refine h.move hend rfl (.of_eq rfl rfl rfl rfl)
    (fun _ => hsnap.base_le hstatus (h.forth.base hfd) hor) { hcopy with } ?_ ?_
  · refine h.forth.wire.answer rfl (h.incomingSilent hi hs hp)
      (m := .ctl .resumeAck x.flow.id (mResumeSnapshot
        (resumed x.flow (Snapshot.read (f.control.drop controlHeader)) base fin) 0)) trivial ?_ ?_
    · exact .inr ⟨by simp [h.left.isServer hi], Snapshot.length_bytes _, hokr.snapOk hfd⟩
    · rw [Endpoint.txStatus_of_bound hend hbound]
      simp only [Flow.txStatus, Mapping.rebind, length_append, length_mHeader,
        mResumeSnapshot, Snapshot.length_bytes, controlHeader, resumeSize]
      refine ⟨?_, by simp, by simp, by simp⟩
      simp [Msg.enc, unsent, unsentFrame, resumed, resumeSize]
  intro pos hpos
  rw [Endpoint.rxAt_of_bound hend hbound] at hpos
  obtain rfl := Option.some.inj
    ((show _ = some { pre := [], ctl := false } from rfl : Flow.rxAt _ = _).symm.trans hpos)
  exact ⟨T, R, [], Q', hfr⟩

/-! ### The whole read -/

lemma mControlDone_incoming {flow : Flow} {rc : ℤ} {old : Option Flow} (hl : f.isLocal = false)
    (hkind : field f.control 4 1 = ControlKind.resume.code ∨
      field f.control 4 1 = ControlKind.resumeAck.code)
    (h : mControlDone p [flow] f rc = some (g, old)) :
    (∃ code : ℤ, code.natAbs % 2 ^ 32 ≠ 0 ∧ g = rejectResume f code ∧
      (old = none ∨ ∃ pos, old = some { flow with txPos := pos })) ∨
    (∃ flow', resumable p flow ∧
      mResumeApply flow (f.control.drop controlHeader) = (flow', true) ∧
      g = { f with stream := false, phase := .dead, closeRequested := true } ∧
      old = some (rebind p flow')) := by
  have hl : ¬ f.isLocal = true := by simp [hl]
  have hclosed : eClosed.natAbs % 2 ^ 32 ≠ 0 := by decide
  unfold mControlDone at h
  rw [if_pos hkind] at h
  unfold mV2ControlDone at h
  rw [if_neg hl] at h
  split at h
  · cases h
    exact .inl ⟨_, hclosed, rfl, .inl rfl⟩
  rename_i old' hfind
  obtain rfl : old' = flow := mem_singleton.mp (mem_of_find?_eq_some hfind)
  split at h
  · cases h
    exact .inl ⟨_, hclosed, rfl, .inl rfl⟩
  rename_i hres
  split at h
  · rename_i g' happ
    cases h
    obtain ⟨pos, rfl⟩ := mResumeApply_false happ
    exact .inl ⟨_, by decide, rfl, .inr ⟨pos, rfl⟩⟩
  · rename_i g' happ
    cases h
    exact .inr ⟨g', not_not.mp hres, happ, rfl, rfl⟩

/-- A client sends `RESUME` first. -/
lemma Inv.incomingKind (h : Inv x y) (hi : x.incoming = some f)
    (hs : f.stream = true) (hp : f.phase = .control) (hlen : controlHeader ≤ f.control.length)
    (hfull : f.control.length = controlHeader + field f.control 6 2) :
    field f.control 4 1 = ControlKind.resume.code := by
  obtain ⟨T, R, bs, Q, hf⟩ := h.incomingFraming hi hs hp
  obtain ⟨kind, id, body, -, hcontrol, hmsg, -, -⟩ := hf.controlDone hlen hfull (z := x) rfl
  have hclient : y.peer.isServer = false := by
    have := h.roles
    rw [h.left.isServer hi] at this
    simpa using this.symm
  rw [hclient] at hmsg
  rcases hmsg with ⟨hf, -⟩ | ⟨hkind, -⟩
  · cases hf
  · rw [hcontrol, field_append_left (by simp [controlHeader]),
      (field_mHeader kind protoTcp body.length id).1, hkind]
    rfl

lemma Inv.txPos (h : Inv x y) (pos : ℕ) :
    Inv { x with flow := { x.flow with txPos := pos } } y := by
  have hok := h.left.flow
  exact h.moveData { hok with } h.left.control
    ⟨rfl, rfl, rfl, rfl, rfl, rfl, rfl, rfl, rfl, rfl, rfl, rfl⟩ (.of_eq rfl rfl rfl rfl)
    h.forth.base (h.back.data.target rfl prefix_rfl rfl rfl rfl) rfl

def Endpoint.withBoth (e : Endpoint) (s : Side) (old : Option Flow) : Endpoint :=
  { peer := s.peer, flow := old.getD e.flow, incoming := some s.flow }

lemma Inv.incomingFinish (h : Inv x y) (hi : x.incoming = some f)
    (hs : f.stream = true) (hc : f.closeRequested = false) (hp : f.phase = .control)
    (hlen : controlHeader ≤ f.control.length)
    (hfull : f.control.length = controlHeader + field f.control 6 2) (rc : ℤ)
    (flush : SendResult) (fin : Bool) :
    Inv (x.withBoth (mControlFinish [x.flow] rc flush fin ⟨x.peer, f⟩).1
      (mControlFinish [x.flow] rc flush fin ⟨x.peer, f⟩).2) y := by
  have hkind := h.incomingKind hi hs hp hlen hfull
  unfold mControlFinish
  split
  · exact h.incomingAbort hi
  rename_i g old hg
  -- the state before the answer is flushed
  have hdone : Inv (x.withBoth ⟨x.peer, { g with streamEof := g.streamEof || fin }⟩ old) y := by
    rcases mControlDone_incoming (h.left.incoming f hi).notLocal (.inl hkind) hg with
      ⟨code, hcode, rfl, rfl | ⟨pos, rfl⟩⟩ | ⟨flow', hres, happ, rfl, rfl⟩
    · exact h.refuse hi hs hc hp hlen hfull hcode _
    · exact (h.txPos pos).refuse hi hs hc hp hlen hfull hcode _
    · exact h.rebind hi hs hp hlen hfull (.inl hkind) hres happ _
  simp only
  split
  · exact hdone.incomingAbort rfl
  · exact hdone.incomingFlush rfl flush

lemma Inv.incomingControl (h : Inv x y) (hi : x.incoming = some f)
    (hs : f.stream = true) (hc : f.closeRequested = false) (hp : f.phase = .control) (rc : ℤ)
    (flush : SendResult) (n : ℕ) (rs : List RecvResult) :
    Inv (x.withBoth (mControlRead [x.flow] rc flush n ⟨x.peer, f⟩ rs).1
      (mControlRead [x.flow] rc flush n ⟨x.peer, f⟩ rs).2.1) y := by
  induction n generalizing x f rs with
  | zero =>
    show Inv (x.withIncoming ⟨x.peer, f⟩) y
    rwa [Endpoint.withIncoming_self hi]
  | succ n ih =>
    rw [mControlRead]
    split
    · show Inv (x.withIncoming ⟨x.peer, f⟩) y
      rwa [Endpoint.withIncoming_self hi]
    · exact h.incomingAbort hi
    rename_i k fin _
    have hlen := received_le x.peer k f.control f.controlNeed
    simp only
    split
    · exact h.incomingDie hi hs _ _
    rename_i g hg
    obtain ⟨t, i, pr, w, need, rfl, hneed⟩ := mHeaderCheck_incoming_due (f := { f with
        control := f.control ++ received x.peer k (f.controlNeed - f.control.length) })
      (h.left.incoming f hi).notLocal hg
    have hpart := h.incomingPart hi hs hp t i pr w hlen hneed
    split
    · rename_i hfull
      obtain ⟨h1, h2⟩ := (hpart.left.incoming _ rfl).control.complete hp hfull
      exact hpart.incomingFinish rfl hs hc hp h1 h2 rc flush fin
    split
    · exact hpart.incomingAbort rfl
    · split
      · exact hpart
      · exact ih hpart rfl hs hc hp rs.tail

theorem Inv.incomingRead (h : Inv x y) (hi : x.incoming = some f)
    (rc : ℤ) (flush : SendResult) (rs : List RecvResult) :
    Inv (x.withBoth (mStreamRead [x.flow] rc flush ⟨x.peer, f⟩ rs).1
      (mStreamRead [x.flow] rc flush ⟨x.peer, f⟩ rs).2) y := by
  have hself : Inv (x.withBoth ⟨x.peer, f⟩ none) y := by
    show Inv (x.withIncoming ⟨x.peer, f⟩) y
    rwa [Endpoint.withIncoming_self hi]
  unfold mStreamRead
  split
  · exact hself
  rename_i hguard
  simp only [not_or, Bool.not_eq_false, Bool.not_eq_true] at hguard
  obtain ⟨s, old, rs', hread, hinv⟩ : ∃ s old rs',
      (if f.phase = .control then mControlRead [x.flow] rc flush 2 ⟨x.peer, f⟩ rs
        else ((⟨x.peer, f⟩ : Side), none, rs)) = (s, old, rs') ∧ Inv (x.withBoth s old) y := by
    by_cases hp : f.phase = .control
    · rw [if_pos hp]
      exact ⟨_, _, _, rfl, h.incomingControl hi hguard.1 hguard.2.2 hp rc flush 2 rs⟩
    · rw [if_neg hp]
      exact ⟨_, _, _, rfl, hself⟩
  simp only [hread]
  split
  · -- an incoming flow is never established
    rename_i hact
    rcases (hinv.left.incoming s.flow rfl).phase with ⟨hk, -⟩ | ⟨hk, -⟩ | hk <;>
      cases hk.symm.trans hact.1
  · exact hinv

end OhecoBroker.Mapping
