/-
Reads of delivery frames keep the invariant.

* `SameSend`, `Inv.moveRead`: an end that reads owes what it owed;
* `Framing.header`, `Framing.enter`, `Framing.payload`: the stream as it is read;
* `mV2Ack_some`, `mV2Header_some`: what is accepted, and what it does;
* `Reading`, `ReadOk`, `Inv.readHeader`, `Inv.readPayload`: the two halves of a pass;
* `Inv.read`: **`m_v2_read` keeps the invariant**.
-/
import OhecoBroker.Mapping.Sending

namespace OhecoBroker.Mapping

open Lib List

/-! ### The sender side of a reading end -/

/-- The fields of a flow that decide what it still has to send. -/
structure SameSend (f g : Flow) : Prop where
  stream : g.stream = f.stream
  phase : g.phase = f.phase
  isLocal : g.isLocal = f.isLocal
  closeRequested : g.closeRequested = f.closeRequested
  reply : g.reply = f.reply
  replyPos : g.replyPos = f.replyPos
  outKind : g.outKind = f.outKind
  outFrame : g.outFrame = f.outFrame
  outPos : g.outPos = f.outPos
  outOffset : g.outOffset = f.outOffset
  outEnd : g.outEnd = f.outEnd
  sockRead : g.sockRead = f.sockRead

variable {f g : Flow} {ctl : Bool} {R T : List Token} {Q : List Msg} {x y z : Endpoint}
  {bs pre : List UInt8} {m offset : ℕ}

lemma SameSend.unsent (h : SameSend f g) : Mapping.unsent g = Mapping.unsent f := by
  simp only [Mapping.unsent, unsentFrame, h.reply, h.replyPos, h.outKind, h.outFrame, h.outPos,
    h.outOffset, h.outEnd, h.sockRead]

lemma SameSend.fits (h : SameSend f g) {a : Bool}
    (hfits : (f.txStatus a).Fits ctl R Q) : (g.txStatus a).Fits ctl R Q := by
  unfold Flow.txStatus at *
  simp only [h.phase, h.isLocal, h.reply, h.replyPos, h.closeRequested]
  split_ifs at hfits ⊢ <;>
    first
    | exact hfits
    | (simpa only [TxStatus.Fits, h.unsent, h.phase, h.reply, h.replyPos] using hfits)

lemma Inv.moveData (h : Inv x y) (hok : FlowOk f)
    (hctl : ControlOk f) (hsame : SameSend x.flow f) (hg : Grows x.flow f)
    (hbase : f.fd = true → f.txBase ≤ y.flow.sockWritten.length) (hdata : Copied y.flow f)
    (hrx : f.rxAt = x.flow.rxAt) : Inv { x with flow := f } y :=
  h.moveFlow hok hctl hsame.isLocal hsame.stream (fun hp => hsame.phase ▸ hp) hg hbase hdata
    (fun _ _ _ _ _ => hsame.fits) fun _ => .inr hrx

lemma Inv.moveStream (h : Inv x y) {box : List UInt8}
    (hs : x.flow.stream = true) (hok : FlowOk f) (hctl : ControlOk f)
    (hlocal : f.isLocal = x.flow.isLocal) (hstream : f.stream = x.flow.stream)
    (hphase : f.phase = .control → x.flow.phase = .control) (hg : Grows x.flow f)
    (hbase : f.fd = true → f.txBase ≤ y.flow.sockWritten.length) (hdata : Copied y.flow f)
    (htx : y.rxAt ≠ none → ∀ ctl R Q, (x.flow.txStatus x.peer.attemptStop).Fits ctl R Q →
      (f.txStatus x.peer.attemptStop).Fits ctl R Q)
    (hwire : ∀ pos, f.rxAt = some pos → ∃ T R bs Q,
      Framing y { x with peer := { x.peer with inbox := box }, flow := f } pos T R bs Q) :
    Inv { x with peer := { x.peer with inbox := box }, flow := f } y := by
  have hend : EndOk { x with peer := { x.peer with inbox := box }, flow := f } :=
    h.left.change hok hctl hlocal hstream hphase rfl rfl rfl h.left.unready
  refine h.move hend rfl hg hbase hdata ?_ ?_
  · exact h.forth.wire.sender hg rfl rfl fun hy ctl R Q =>
      Endpoint.fits_change h.left hend hstream rfl rfl fun _ => htx hy ctl R Q
  · intro pos hpos
    rw [Endpoint.rxAt_of_bound hend (Endpoint.bound_of_stream hend (hstream.trans hs))] at hpos
    exact hwire pos hpos

lemma Inv.moveRead (h : Inv x y) {box : List UInt8}
    (hs : x.flow.stream = true) (hok : FlowOk f) (hctl : ControlOk f)
    (hsame : SameSend x.flow f) (hg : Grows x.flow f)
    (hbase : f.fd = true → f.txBase ≤ y.flow.sockWritten.length) (hdata : Copied y.flow f)
    (hwire : ∀ pos, f.rxAt = some pos → ∃ T R bs Q,
      Framing y { x with peer := { x.peer with inbox := box }, flow := f } pos T R bs Q) :
    Inv { x with peer := { x.peer with inbox := box }, flow := f } y :=
  h.moveStream hs hok hctl hsame.isLocal hsame.stream (fun hp => hsame.phase ▸ hp) hg hbase hdata
    (fun _ _ _ _ => hsame.fits) hwire

/-! ### The stream -/

lemma Framing.take {pos : RxPos} (hf : Framing y x pos T R bs Q) (m : ℕ) :
    ∃ T₁ T₂, T = T₁ ++ T₂ ∧ T₁.map Prod.fst = x.peer.inbox.take m ∧
      T₂.map Prod.fst = x.peer.inbox.drop m ++ y.peer.outbox := by
  refine ⟨T.take (x.peer.inbox.take m).length, T.drop (x.peer.inbox.take m).length,
    (take_append_drop ..).symm, ?_, ?_⟩
  · rw [map_take, hf.bytes, take_append_of_le_length (by simp)]
    simp
  rw [map_drop, hf.bytes, drop_append_of_le_length (by simp)]
  congr 1
  rw [drop_eq_drop_iff]
  simp only [length_take]
  omega

lemma Shape.tail {m : Msg} (h : Shape ctl (m :: Q)) : Shape false Q := by
  have hnot := h.2
  rcases Q with _ | ⟨q, Q⟩
  · trivial
  · exact ⟨by simpa using hnot q mem_cons_self,
      fun q' hq' => hnot q' (mem_cons_of_mem q hq')⟩

lemma TxStatus.Fits.fits_tail {t : TxStatus} {m : Msg}
    (h : t.Fits ctl R (m :: Q)) : t.Fits false R Q := by
  match t, h with
  | .silent, h => exact absurd h.1 (by simp)
  | .sending f, h =>
    exact ⟨h.1, (by rintro ⟨⟩), fun hp q hq => h.2.2.1 hp q (mem_cons_of_mem m hq), h.2.2.2⟩
  | .over, _ => trivial

lemma Framing.header {T₁ T₂ : List Token}
    (hf : Framing y x { pre := pre, ctl := false } (T₁ ++ T₂) R bs Q)
    (hlen : pre.length + T₁.length ≤ frameHeader) :
    plain (pre ++ T₁.map Prod.fst) ++ (T₂ ++ R) = encAll Q ∧
      (pre.length + T₁.length = frameHeader → ∃ kind flags id offset payload Q',
        Q = .frame kind flags id offset payload :: Q' ∧
        pre ++ T₁.map Prod.fst = v2HeaderBytes kind flags payload.length id offset ∧
        T₂ ++ R = located offset payload ++ encAll Q') := by
  have hnil : bs = [] := length_eq_zero_iff.mp hf.left
  have hframed : (plain pre ++ T₁) ++ (T₂ ++ R) = encAll Q := by
    simpa [hnil, append_assoc] using hf.framed
  rcases Q with _ | ⟨m, Q⟩
  · simp only [encAll_nil, append_eq_nil_iff] at hframed
    obtain ⟨⟨hpre, rfl⟩, rfl, rfl⟩ := hframed
    have hpre : pre = [] := by simpa [plain] using hpre
    subst hpre
    exact ⟨rfl, fun h => absurd h (by simp [frameHeader])⟩
  cases m with
  | ctl kind id body => exact absurd (hf.shape.1.mp trivial) (by simp)
  | frame kind flags id offset payload =>
    have henc : encAll (.frame kind flags id offset payload :: Q) =
        plain (v2HeaderBytes kind flags payload.length id offset) ++
          (located offset payload ++ encAll Q) := by
      rw [encAll_cons, Msg.enc, append_assoc]
    rw [henc] at hframed
    obtain ⟨h1, h2⟩ := split_plain hframed (by simpa using hlen)
    have hpre : pre ++ T₁.map Prod.fst =
        (v2HeaderBytes kind flags payload.length id offset).take (plain pre ++ T₁).length := by
      have := congrArg (List.map Prod.fst) h1
      simpa using this
    refine ⟨?_, fun heq => ⟨kind, flags, id, offset, payload, Q, rfl, ?_, ?_⟩⟩
    · rw [hpre, ← h1, henc, ← hframed]
    · rw [hpre, take_of_length_le]
      simp [heq]
    · rw [h2, drop_eq_nil_of_le (by simp [heq]), plain_nil, nil_append]

/-- More of a header is read. -/
lemma Framing.extend (hf : Framing y x { pre := pre, ctl := false } T R bs Q)
    (hlen : pre.length + (x.peer.inbox.take m).length ≤ frameHeader)
    (hin : z.peer.inbox = x.peer.inbox.drop m) :
    ∃ T', Framing y z { pre := pre ++ x.peer.inbox.take m, ctl := false } T' R [] Q := by
  obtain ⟨T₁, T₂, rfl, h1, h2⟩ := hf.take m
  have hlen₁ : T₁.length = (x.peer.inbox.take m).length := by rw [← h1, length_map]
  obtain ⟨hplain, -⟩ := hf.header (hlen₁ ▸ hlen)
  exact ⟨T₂,
    { bytes := by rw [h2, hin]
      backed := fun t ht => hf.backed t (mem_append_right _ ht)
      left := rfl
      framed := by simpa only [h1, located_nil, nil_append] using hplain
      shape := hf.shape, ok := hf.ok, fits := hf.fits }⟩

lemma Framing.enter (hf : Framing y x { pre := pre, ctl := false } T R bs Q)
    (hlen : pre.length + (x.peer.inbox.take m).length = frameHeader)
    (hin : z.peer.inbox = x.peer.inbox.drop m) :
    ∃ kind flags id offset payload T' Q',
      pre ++ x.peer.inbox.take m = v2HeaderBytes kind flags payload.length id offset ∧
      (Msg.frame kind flags id offset payload).Ok y.peer.isServer y.flow ∧
      Framing y z { pre := [], off := offset, left := payload.length, ctl := false }
        T' R payload Q' := by
  obtain ⟨T₁, T₂, rfl, h1, h2⟩ := hf.take m
  have hlen₁ : T₁.length = (x.peer.inbox.take m).length := by rw [← h1, length_map]
  obtain ⟨-, hfull⟩ := hf.header (hlen₁ ▸ hlen.le)
  obtain ⟨kind, flags, id, offset, payload, Q', rfl, hhead, hrest⟩ := hfull (hlen₁ ▸ hlen)
  exact ⟨kind, flags, id, offset, payload, T₂, Q', h1 ▸ hhead, hf.ok _ mem_cons_self,
    { bytes := by rw [h2, hin]
      backed := fun t ht => hf.backed t (mem_append_right _ ht)
      left := rfl
      framed := hrest
      shape := hf.shape.tail
      ok := fun q hq => hf.ok q (mem_cons_of_mem _ hq)
      fits := hf.fits.fits_tail }⟩

/-! ### Frame headers -/

/-- The first frame confirms the stream. -/
lemma confirmResume_eq (f : Flow) :
    ∃ b d, confirmResume f = { f with resuming := b, graceDeadlineUs := d } := by
  unfold confirmResume
  split
  · exact ⟨false, 0, rfl⟩
  · exact ⟨f.resuming, f.graceDeadlineUs, rfl⟩

lemma mV2Ack_some {flags : ℕ} (h : mV2Ack f offset flags = some g) : ∃ base pos fin, g = { f with
        tx := f.tx.drop (base - f.txBase), txPos := pos, txBase := base, txFinAcked := fin } ∧
      f.txBase ≤ base ∧ base ≤ mTxNext f ∧ (base = f.txBase ∨ base = offset) := by
  unfold mV2Ack at h
  split at h
  · cases h
  rename_i hbound
  split at h
  · cases h
  simp only at h
  split at h
  · rename_i hlt
    split at h
    · cases h
    · refine ⟨offset, _, _, (Option.some.inj h).symm, hlt.le, ?_, .inr rfl⟩
      omega
  · refine ⟨f.txBase, f.txPos, f.txFinAcked || flags != 0, ?_, le_rfl, ?_, .inl rfl⟩
    · rw [← Option.some.inj h, Nat.sub_self, drop_zero]
    · simp [mTxNext]

lemma mV2Header_some {f' : Flow} {kind : FrameKind} {flags length : ℕ} {id : UInt64}
    (hin : f.inFrame = v2HeaderBytes kind flags length id offset) (h : mV2Header f = some f') :
    match kind with
    | .data => ∃ i b d, f' = { f with
        inKind := .data, inFlags := i, inSize := length % 65536, inOffset := offset % 2 ^ 64
        inPos := 0, resuming := b, graceDeadlineUs := d }
    | .ack => ∃ base pos fin i n o b d, f' = { f with
          inKind := .ack, inFlags := i, inSize := n, inOffset := o, inPos := 0
          tx := f.tx.drop (base - f.txBase), txPos := pos, txBase := base, txFinAcked := fin
          resuming := b, graceDeadlineUs := d } ∧
        f.txBase ≤ base ∧ base ≤ mTxNext f ∧ (base = f.txBase ∨ base = offset % 2 ^ 64)
    | .fin => ∃ i n o b d, f' = { f with
        inKind := .fin, inFlags := i, inSize := n, inOffset := o, inPos := 0
        rxFin := true, rxFinal := offset % 2 ^ 64, resuming := b, graceDeadlineUs := d } := by
  obtain ⟨h1, h2, h3, h4⟩ := field_v2HeaderBytes kind flags length id offset
  rw [← hin] at h1 h2 h3 h4
  simp only [mV2Header, h1, h2, h3, h4, FrameKind.ofCode_code] at h
  split at h
  · cases h
  cases kind with
  | data =>
    simp only at h ⊢
    split at h
    · cases h
    · obtain ⟨b, d, hc⟩ := confirmResume_eq _
      exact ⟨_, b, d, (Option.some.inj h).symm.trans hc⟩
  | ack =>
    simp only at h ⊢
    obtain ⟨g, hg, rfl⟩ := Option.map_eq_some_iff.mp h
    obtain ⟨base, pos, fin, rfl, hle, hnext, hor⟩ := mV2Ack_some hg
    obtain ⟨b, d, hc⟩ := confirmResume_eq _
    exact ⟨base, pos, fin, _, _, _, b, d, hc, hle, hnext, hor⟩
  | fin =>
    simp only at h ⊢
    split at h
    · cases h
    · obtain ⟨b, d, hc⟩ := confirmResume_eq _
      exact ⟨_, _, _, b, d, (Option.some.inj h).symm.trans hc⟩

/-! ### A flow that dies while it reads -/

/-- What nobody reads may be dropped. -/
lemma Inv.discard (h : Inv x y) (hr : x.rxAt = none) (m : ℕ) :
    Inv { x with peer := { x.peer with inbox := x.peer.inbox.drop m } } y := by
  have hend : EndOk { x with peer := { x.peer with inbox := x.peer.inbox.drop m } } :=
    h.left.change h.left.flow h.left.control rfl rfl id rfl rfl rfl h.left.unready
  refine h.move hend rfl (.of_eq rfl rfl rfl rfl) h.forth.base h.back.data ?_ ?_
  · exact h.forth.wire.sender (.of_eq rfl rfl rfl rfl) rfl rfl fun _ ctl R Q => id
  intro pos hpos
  have : Endpoint.rxAt { x with peer := { x.peer with inbox := x.peer.inbox.drop m } }
      = x.rxAt := rfl
  simp [this, hr] at hpos

lemma Inv.dieReading (h : Inv x y) (hs : x.flow.stream = true) (m : ℕ)
    {control : List UInt8} {need : ℕ}
    (hf : f = { x.flow with inFrame := pre, control := control, controlNeed := need })
    (hpre : x.flow.suspended = true → pre = []) :
    Inv { x with
      peer := { x.peer with inbox := x.peer.inbox.drop m }, flow := mAbort f } y := by
  subst hf
  have hdead : Inv { x with flow := mAbort { x.flow with
      inFrame := pre, control := control, controlNeed := need } } y := by
    have ha := h.abort
    have hok : FlowOk (mAbort x.flow) := ha.left.flow
    refine ha.moveFlow (f := mAbort { x.flow with
        inFrame := pre, control := control, controlNeed := need })
      { hok with idle := fun hq => hpre (by simpa [mAbort] using hq) }
      (fun hp => (by cases hp)) rfl rfl (fun hp => (by cases hp)) (.of_eq rfl rfl rfl rfl)
      (fun hfd => (by cases hfd)) ?_ ?_ ?_
    · exact ha.back.data.target rfl prefix_rfl rfl rfl rfl
    · intro _ _ ctl R Q _
      simp [mAbort, Flow.txStatus, TxStatus.Fits]
    · exact fun _ => .inl (by simp [mAbort, Flow.rxAt])
  refine hdead.discard ?_ m
  rw [Endpoint.rxAt_of_bound hdead.left (Endpoint.bound_of_stream hdead.left hs)]
  simp [mAbort, Flow.rxAt]

/-! ### The first half of a pass -/

/-- The retained flow of an end reads delivery frames. -/
structure Reading (f : Flow) : Prop where
  stream : f.stream = true
  active : f.phase = .active
  running : f.suspended = false

lemma Reading.not_idle (h : Reading f) : ¬ (f.phase = .control ∨ f.suspended = true) := by
  simp [h.active, h.running]

lemma Inv.readAbort (h : Inv x y) (hr : Reading x.flow) (m : ℕ) (pre : List UInt8) : Inv { x with
      peer := { x.peer with inbox := x.peer.inbox.drop m }
      flow := mAbort { x.flow with inFrame := pre } } y :=
  h.dieReading hr.stream m rfl fun hsus => absurd (.inr hsus) hr.not_idle

lemma Reading.rxAt_header (h : Reading f) (hlen : f.inFrame.length < frameHeader) :
    f.rxAt = some { pre := f.inFrame, ctl := false } := by
  simp [Flow.rxAt, h.active, hlen]

lemma Reading.rxAt_payload (h : Reading f) (hlen : frameHeader ≤ f.inFrame.length) : f.rxAt = some
      { pre := [], off := f.inOffset + f.inPos, left := f.inSize - f.inPos, ctl := false } := by
  simp [Flow.rxAt, h.active, hlen.not_gt]

/-- The stream of a flow that reads. -/
lemma Inv.framing (h : Inv x y) (hr : Reading x.flow) {pos : RxPos}
    (hpos : x.flow.rxAt = some pos) : ∃ T R bs Q, Framing y x pos T R bs Q :=
  h.back.wire pos
    (by rw [Endpoint.rxAt_of_bound h.left (Endpoint.bound_of_stream h.left hr.stream), hpos])

/-- A part of a header is read. -/
lemma Inv.readPart (h : Inv x y) (hr : Reading x.flow) (m : ℕ)
    (hlen : (x.flow.inFrame ++ x.peer.inbox.take m).length < frameHeader) :
    Inv { x with
      peer := { x.peer with inbox := x.peer.inbox.drop m }
      flow := { x.flow with inFrame := x.flow.inFrame ++ x.peer.inbox.take m } } y := by
  have hok := h.left.flow
  have hctl : x.flow.phase ≠ .control := by simp [hr.active]
  rw [length_append] at hlen
  refine h.moveRead hr.stream { hok with idle := fun hq => absurd hq hr.not_idle }
    (fun hp => absurd hp hctl) ⟨rfl, rfl, rfl, rfl, rfl, rfl, rfl, rfl, rfl, rfl, rfl, rfl⟩
    (.of_eq rfl rfl rfl rfl) h.forth.base
    (h.back.data.target rfl prefix_rfl rfl rfl rfl) ?_
  intro pos hpos
  obtain ⟨T, R, bs, Q, hf⟩ := h.framing hr (hr.rxAt_header (by omega))
  have hr' : Reading { x.flow with inFrame := x.flow.inFrame ++ x.peer.inbox.take m } :=
    ⟨hr.stream, hr.active, hr.running⟩
  rw [hr'.rxAt_header (by simpa using hlen)] at hpos
  cases hpos
  obtain ⟨T', hf'⟩ := hf.extend (m := m) hlen.le (z := { x with
    peer := { x.peer with inbox := x.peer.inbox.drop m }
    flow := { x.flow with inFrame := x.flow.inFrame ++ x.peer.inbox.take m } }) rfl
  exact ⟨T', R, [], Q, hf'⟩

lemma Inv.readEntered (h : Inv x y) (hr : Reading x.flow) (m : ℕ)
    (hok : FlowOk f) (hsame : SameSend x.flow f) (hrun : f.suspended = x.flow.suspended)
    (hg : Grows x.flow f) (hbase : f.fd = true → f.txBase ≤ y.flow.sockWritten.length)
    (hdata : Copied y.flow f) {payload : List UInt8}
    (hfr : Framing y { x with peer := { x.peer with inbox := x.peer.inbox.drop m } }
      { pre := [], off := offset, left := payload.length, ctl := false } T R payload Q)
    (hpos : (f.inFrame = [] ∧ payload = []) ∨ (frameHeader ≤ f.inFrame.length ∧
      f.inOffset + f.inPos = offset ∧ f.inSize - f.inPos = payload.length)) :
    Inv { x with peer := { x.peer with inbox := x.peer.inbox.drop m }, flow := f } y := by
  have hr' : Reading f :=
    ⟨hsame.stream.trans hr.stream, hsame.phase.trans hr.active, hrun.trans hr.running⟩
  refine h.moveRead hr.stream hok (fun hp => absurd hp (by simp [hr'.active])) hsame hg hbase
    hdata ?_
  intro pos hat
  rcases hpos with ⟨hnil, rfl⟩ | ⟨hlen, hoff, hleft⟩
  · rw [hr'.rxAt_header (by simp [hnil, frameHeader]), hnil] at hat
    cases hat
    exact ⟨T, R, [], Q, { hfr with }⟩
  · rw [hr'.rxAt_payload hlen, hoff, hleft] at hat
    cases hat
    exact ⟨T, R, payload, Q, { hfr with }⟩

lemma Inv.readEnter (h : Inv x y) (hr : Reading x.flow) (m : ℕ)
    (hshort : x.flow.inFrame.length < frameHeader)
    (hlen : (x.flow.inFrame ++ x.peer.inbox.take m).length = frameHeader)
    (hf : mV2Header { x.flow with inFrame := x.flow.inFrame ++ x.peer.inbox.take m } = some f) :
    (Reading f ∧ f.inFrame.length = frameHeader) ∧ Inv { x with
      peer := { x.peer with inbox := x.peer.inbox.drop m }
      flow := if f.inKind ≠ .data then { f with inFrame := [] } else f } y := by
  have hok := h.left.flow
  have hfd : x.flow.fd = true := hok.alive (by simp [hr.active])
  obtain ⟨T, R, bs, Q, hfr⟩ := h.framing hr (hr.rxAt_header hshort)
  obtain ⟨kind, flags, id, offset, payload, T', Q', hhead, hmsg, hfr'⟩ :=
    hfr.enter (m := m) (z := { x with peer := { x.peer with inbox := x.peer.inbox.drop m } })
      (by simpa using hlen) rfl
  have hacc := mV2Header_some hhead hf
  cases kind with
  | data =>
    obtain ⟨i, b, d, rfl⟩ := hacc
    obtain ⟨-, -, hsize, hmax⟩ := hmsg
    refine ⟨⟨⟨hr.stream, hr.active, hr.running⟩, hlen⟩, ?_⟩
    refine h.readEntered hr m (f := { x.flow with
        inFrame := x.flow.inFrame ++ x.peer.inbox.take m
        inKind := .data, inFlags := i, inSize := payload.length % 65536
        inOffset := offset % 2 ^ 64, inPos := 0, resuming := b, graceDeadlineUs := d })
      { hok with idle := fun hq => absurd hq hr.not_idle }
      ⟨rfl, rfl, rfl, rfl, rfl, rfl, rfl, rfl, rfl, rfl, rfl, rfl⟩ rfl
      (.of_eq rfl rfl rfl rfl) h.forth.base
      (h.back.data.target rfl prefix_rfl rfl rfl rfl) hfr' (.inr ⟨hlen.ge, ?_, ?_⟩)
    · simp only [uint64Max] at hmax ⊢
      omega
    · simp only [ioBudget] at hsize ⊢
      omega
  | ack =>
    obtain ⟨base, pos, fin, i, n, o, b, d, rfl, hle, hnext, hor⟩ := hacc
    obtain ⟨rfl, -, hack⟩ := hmsg
    obtain ⟨htx, hbase, hmax⟩ := hok.tx hfd
    refine ⟨⟨⟨hr.stream, hr.active, hr.running⟩, hlen⟩, ?_⟩
    refine h.readEntered hr m (f := { x.flow with
        inFrame := []
        inKind := .ack, inFlags := i, inSize := n, inOffset := o, inPos := 0
        tx := x.flow.tx.drop (base - x.flow.txBase), txPos := pos, txBase := base
        txFinAcked := fin, resuming := b, graceDeadlineUs := d })
      { hok with
        released := fun hfd' => (by cases hfd.symm.trans hfd'), tx := fun _ => ?_
        idle := fun hq => absurd hq hr.not_idle }
      ⟨rfl, rfl, rfl, rfl, rfl, rfl, rfl, rfl, rfl, rfl, rfl, rfl⟩ rfl
      (.of_eq rfl rfl rfl rfl) (fun _ => ?_)
      (h.back.data.target rfl prefix_rfl rfl rfl rfl) hfr' (.inl ⟨rfl, rfl⟩)
    · have hlen : base ≤ x.flow.sockRead.length := hok.txNext hfd ▸ hnext
      refine ⟨?_, hlen, hmax⟩
      have hsum : x.flow.txBase + (base - x.flow.txBase) = base := Nat.add_sub_cancel' hle
      rw [htx, drop_drop, hsum]
    rcases hor with hbase' | hbase'
    · rw [hbase']
      exact h.forth.base hfd
    · rw [hbase']
      exact (Nat.mod_le _ _).trans hack
  | fin =>
    obtain ⟨i, n, o, b, d, rfl⟩ := hacc
    obtain ⟨rfl, -, hmax, heof, hoff⟩ := hmsg
    have hfinal : offset % 2 ^ 64 = y.flow.sockRead.length := by
      rw [← hoff]
      exact Nat.mod_eq_of_lt (by simp only [uint64Max] at hmax; omega)
    refine ⟨⟨⟨hr.stream, hr.active, hr.running⟩, hlen⟩, ?_⟩
    exact h.readEntered hr m (f := { x.flow with
        inFrame := []
        inKind := .fin, inFlags := i, inSize := n, inOffset := o, inPos := 0
        rxFin := true, rxFinal := offset % 2 ^ 64, resuming := b, graceDeadlineUs := d })
      { hok with idle := fun hq => absurd hq hr.not_idle }
      ⟨rfl, rfl, rfl, rfl, rfl, rfl, rfl, rfl, rfl, rfl, rfl, rfl⟩ rfl
      (.of_eq rfl rfl rfl rfl) h.forth.base
      { h.back.data with fin := fun _ => ⟨heof, hfinal⟩ } hfr' (.inl ⟨rfl, rfl⟩)

/-- What half a pass leaves. -/
structure ReadOk (x y : Endpoint) (r : Side × ReadNext) : Prop where
  inv : Inv (x.withSide r.1) y
  reading : r.2 ≠ .done → Reading r.1.flow
  payload : r.2 = .payload → frameHeader ≤ r.1.flow.inFrame.length

lemma ReadOk.done {s : Side} (h : Inv (x.withSide s) y) : ReadOk x y (s, .done) :=
  ⟨h, fun hne => absurd rfl hne, (by rintro ⟨⟩)⟩

lemma Inv.readHeader (h : Inv x y) (hr : Reading x.flow)
    (hshort : x.flow.inFrame.length < frameHeader) (r : RecvResult) :
    ReadOk x y (mV2ReadHeader x.side r) := by
  cases r with
  | again => exact .done h
  | error => exact .done h.abort
  | data n fin =>
    -- the length that decides whether the header is complete
    have hle : (x.flow.inFrame ++
        x.peer.inbox.take (min n (frameHeader - x.flow.inFrame.length))).length ≤
        frameHeader := by
      simp only [length_append, length_take]
      omega
    simp only [mV2ReadHeader, Endpoint.side_peer, Endpoint.side_flow, received, afterReceive]
    cases fin with
    | true => exact .done (h.readAbort hr _ x.flow.inFrame)
    | false =>
      by_cases hlen : (x.flow.inFrame ++
          x.peer.inbox.take (min n (frameHeader - x.flow.inFrame.length))).length <
          frameHeader
      · simp only [hlen, Bool.false_eq_true, if_true, if_false]
        exact .done (h.readPart hr _ hlen)
      simp only [hlen, Bool.false_eq_true, if_false]
      split
      · exact .done (h.readAbort hr _ _).fail
      rename_i f hf
      obtain ⟨⟨hrf, hlenf⟩, hinv⟩ :=
        h.readEnter hr _ hshort (hle.antisymm (not_lt.mp hlen)) hf
      by_cases hk : f.inKind = .data
      · simp only [hk, ne_eq, not_true_eq_false, if_false] at hinv ⊢
        exact ⟨hinv, fun _ => hrf, fun _ => hlenf.ge⟩
      · simp only [hk, ne_eq, not_false_eq_true, if_true] at hinv ⊢
        exact ⟨hinv, fun _ => ⟨hrf.stream, hrf.active, hrf.running⟩, (by rintro ⟨⟩)⟩

/-! ### The second half of a pass -/

lemma Framing.payload {off left : ℕ}
    (hf : Framing y x { pre := [], off := off, left := left, ctl := false } T R bs Q)
    (hm : m ≤ left) (hin : z.peer.inbox = x.peer.inbox.drop m) :
    x.peer.inbox.take m <+: y.flow.sockRead.drop off ∧
      (x.peer.inbox.take m ≠ [] → off + (x.peer.inbox.take m).length ≤ y.flow.sentMax) ∧
      ∃ T' bs', Framing y z
        { pre := [], off := off + (x.peer.inbox.take m).length
          left := left - (x.peer.inbox.take m).length, ctl := false } T' R bs' Q := by
  obtain ⟨T₁, T₂, rfl, h1, h2⟩ := hf.take m
  have hlen₁ : T₁.length = (x.peer.inbox.take m).length := by rw [← h1, length_map]
  have hle : T₁.length ≤ bs.length := by
    have := hf.left
    simp only [hlen₁, length_take] at this ⊢
    omega
  have hframed : T₁ ++ (T₂ ++ R) = located off bs ++ encAll Q := by
    simpa [append_assoc] using hf.framed
  obtain ⟨hhead, hrest⟩ := split_located hframed hle
  have hbytes : x.peer.inbox.take m = bs.take T₁.length := by
    rw [← h1]
    conv_lhs => rw [hhead]
    rw [map_fst_located]
  have hbacked : ∀ t ∈ located off (x.peer.inbox.take m),
      Backed y.flow.sockRead y.flow.sentMax t := by
    rw [hbytes, ← hhead]
    exact fun t ht => hf.backed t (mem_append_left _ ht)
  obtain ⟨hpre, hsent⟩ := backed_located.mp hbacked
  refine ⟨hpre, hsent, T₂, bs.drop T₁.length, ?_⟩
  rw [← hlen₁]
  exact
    { bytes := by rw [h2, hin]
      backed := fun t ht => hf.backed t (mem_append_right _ ht)
      left := by
        have := hf.left
        simp only [length_drop] at this ⊢
        omega
      framed := hrest
      shape := hf.shape, ok := hf.ok, fits := hf.fits }

/-- Room is made in the buffer. -/
lemma Inv.compact (h : Inv x y) (hr : Reading x.flow) :
    Inv { x with flow := mV2Compact x.flow } y := by
  have hok := h.left.flow
  unfold mV2Compact
  split
  · have hfd : x.flow.fd = true := hok.alive (by simp [hr.active])
    refine h.moveData
      { hok with
        released := fun hfd' => (by cases hfd.symm.trans hfd')
        next := fun _ => ⟨Nat.zero_le _, ?_⟩ }
      h.left.control ⟨rfl, rfl, rfl, rfl, rfl, rfl, rfl, rfl, rfl, rfl, rfl, rfl⟩
      (.of_eq rfl rfl rfl rfl) h.forth.base
      (h.back.data.target rfl prefix_rfl rfl rfl rfl) rfl
    rw [length_drop, Nat.sub_zero]
    exact (hok.next hfd).2
  · exact h

lemma mV2Compact_eq (f : Flow) : ∃ rx n, mV2Compact f = { f with rx := rx, rxPos := n } := by
  unfold mV2Compact
  split
  · exact ⟨_, _, rfl⟩
  · exact ⟨f.rx, f.rxPos, rfl⟩

/-- The bytes of a pass are counted. -/
lemma Inv.readAdvance (h : Inv x y) (hr : Reading x.flow)
    (hlen : frameHeader ≤ x.flow.inFrame.length) {rx : List UInt8}
    {next : ℕ} {dirty : Bool}
    (hf : f = { x.flow with rx := rx, rxNext := next, ackDirty := dirty }) (hok : FlowOk f)
    (hdata : Copied y.flow f)
    (hfr : Framing y { x with peer := { x.peer with inbox := x.peer.inbox.drop m } }
      { pre := [], off := x.flow.inOffset + x.flow.inPos + (x.peer.inbox.take m).length
        left := x.flow.inSize - x.flow.inPos - (x.peer.inbox.take m).length
        ctl := false } T R bs Q) :
    ReadOk x y (⟨{ x.peer with inbox := x.peer.inbox.drop m },
      mV2Advance f (x.peer.inbox.take m).length⟩, .loop) := by
  have hleft : x.flow.inSize - x.flow.inPos - (x.peer.inbox.take m).length = bs.length :=
    hfr.left.symm
  rw [hleft] at hfr
  subst hf
  unfold mV2Advance
  simp only
  split
  · rename_i hend
    refine ⟨?_, fun _ => ⟨hr.stream, hr.active, hr.running⟩, (by rintro ⟨⟩)⟩
    refine h.readEntered hr m { hok with idle := fun hq => absurd hq hr.not_idle }
      ⟨rfl, rfl, rfl, rfl, rfl, rfl, rfl, rfl, rfl, rfl, rfl, rfl⟩ rfl
      (.of_eq rfl rfl rfl rfl) h.forth.base { hdata with } hfr (.inl ⟨rfl, ?_⟩)
    exact length_eq_zero_iff.mp (by omega)
  refine ⟨?_, fun _ => ⟨hr.stream, hr.active, hr.running⟩, (by rintro ⟨⟩)⟩
  refine h.readEntered hr m { hok with idle := fun hq => absurd hq hr.not_idle }
    ⟨rfl, rfl, rfl, rfl, rfl, rfl, rfl, rfl, rfl, rfl, rfl, rfl⟩ rfl
    (.of_eq rfl rfl rfl rfl) h.forth.base { hdata with } hfr (.inr ⟨hlen, ?_, ?_⟩)
  · exact (Nat.add_assoc _ _ _).symm
  · exact (Nat.sub_add_eq _ _ _).trans hleft

/-- New bytes go into the buffer. -/
lemma Inv.readFresh (h : Inv x y) (hr : Reading x.flow) (hlen : frameHeader ≤ x.flow.inFrame.length)
    (hpos : x.flow.inOffset + x.flow.inPos = x.flow.rxNext)
    (hm : m ≤ x.flow.inSize - x.flow.inPos) (hne : x.peer.inbox.take m ≠ []) :
    ReadOk x y (⟨{ x.peer with inbox := x.peer.inbox.drop m },
      mV2Advance { x.flow with
        rx := x.flow.rx ++ x.peer.inbox.take m
        rxNext := x.flow.rxNext + (x.peer.inbox.take m).length }
        (x.peer.inbox.take m).length⟩, .loop) := by
  have hok := h.left.flow
  have hfd : x.flow.fd = true := hok.alive (by simp [hr.active])
  obtain ⟨T, R, bs, Q, hfr⟩ := h.framing hr (hr.rxAt_payload hlen)
  obtain ⟨hpre, hsent, T', bs', hfr'⟩ := hfr.payload hm
    (z := { x with peer := { x.peer with inbox := x.peer.inbox.drop m } }) rfl
  obtain ⟨hle, hnext⟩ := hok.next hfd
  have hcommit := hok.commit hfd
  have hbuf : (x.flow.sockWritten ++ x.flow.rx.drop x.flow.rxPos).length = x.flow.rxNext := by
    rw [length_append, length_drop, hnext, hcommit]
  have hdrop : (x.flow.rx ++ x.peer.inbox.take m).drop x.flow.rxPos =
      x.flow.rx.drop x.flow.rxPos ++ x.peer.inbox.take m :=
    drop_append_of_le_length hle
  refine h.readAdvance hr hlen rfl ?_ ?_ hfr'
  · exact
      { hok with
        released := fun hfd' => (by cases hfd.symm.trans hfd')
        next := fun _ => by
          simp only [length_append]
          omega }
  refine { h.back.data with copy := ?_, sent := ?_ }
  · simp only [hdrop, ← append_assoc]
    refine append_isPrefix_of_drop h.back.data.copy ?_
    rw [hbuf, ← hpos]
    exact hpre
  · simp only [hdrop, ← append_assoc]
    rw [length_append, hbuf, ← hpos]
    exact hsent hne

lemma Inv.readNone (h : Inv x y) (hnil : x.peer.inbox.take m = []) :
    Inv { x with peer := { x.peer with inbox := x.peer.inbox.drop m } } y := by
  have hdrop : x.peer.inbox.drop m = x.peer.inbox := by
    simpa [hnil] using take_append_drop m x.peer.inbox
  rw [hdrop]
  exact h

lemma Inv.readNew (h : Inv x y) (hr : Reading x.flow) (hlen : frameHeader ≤ x.flow.inFrame.length)
    (hpos : x.flow.inOffset + x.flow.inPos = x.flow.rxNext) (r : RecvResult) :
    ReadOk x y (mV2ReadPayload x.side r) := by
  obtain ⟨rx, n, hc⟩ := mV2Compact_eq x.flow
  have hinv := h.compact hr
  have hr' : Reading (mV2Compact x.flow) := by
    rw [hc]
    exact ⟨hr.stream, hr.active, hr.running⟩
  have hlen' : frameHeader ≤ (mV2Compact x.flow).inFrame.length := by rwa [hc]
  have hpos' : (mV2Compact x.flow).inOffset + (mV2Compact x.flow).inPos =
      (mV2Compact x.flow).rxNext := by rwa [hc]
  simp only [mV2ReadPayload, Endpoint.side_flow, Endpoint.side_peer, hpos, lt_irrefl, if_false,
    if_true, true_and]
  generalize mV2Compact x.flow = g at *
  by_cases hroom : g.rx.length = streamBuffer
  · simp only [hroom, if_true]
    exact .done hinv
  simp only [hroom, if_false]
  cases r with
  | again => exact .done hinv
  | error => exact .done hinv.abort
  | data n fin =>
    cases fin with
    | true => exact .done (hinv.readAbort hr' _ g.inFrame)
    | false =>
      simp only [received, afterReceive, Bool.false_eq_true, if_false]
      by_cases hnil : x.peer.inbox.take (min n (mV2Want g)) = []
      · simp only [hnil, if_true]
        exact .done (hinv.readNone hnil)
      simp only [hnil, if_false]
      have hwant : min n (mV2Want g) ≤ g.inSize - g.inPos := by
        simp only [mV2Want, hpos', if_true]
        omega
      obtain ⟨h1, h2, h3⟩ := hinv.readFresh hr' hlen' hpos' hwant hnil
      exact ⟨h1, h2, h3⟩

lemma Inv.readOld (h : Inv x y) (hr : Reading x.flow) (hlen : frameHeader ≤ x.flow.inFrame.length)
    (hpos : x.flow.inOffset + x.flow.inPos < x.flow.rxNext) (r : RecvResult) :
    ReadOk x y (mV2ReadPayload x.side r) := by
  simp only [mV2ReadPayload, Endpoint.side_flow, Endpoint.side_peer, hpos.not_gt, hpos.ne,
    false_and, if_false]
  cases r with
  | again => exact .done h
  | error => exact .done h.abort
  | data n fin =>
    cases fin with
    | true => exact .done (h.readAbort hr _ x.flow.inFrame)
    | false =>
      simp only [Bool.false_eq_true, if_false]
      have hwant : min n (mV2Want x.flow) ≤ x.flow.inSize - x.flow.inPos := by
        simp only [mV2Want, hpos.ne, if_false]
        omega
      split
      · rename_i hnil
        exact .done (h.readNone hnil)
      split
      · exact .done (h.readAbort hr _ x.flow.inFrame).fail
      obtain ⟨T, R, bs, Q, hfr⟩ := h.framing hr (hr.rxAt_payload hlen)
      obtain ⟨-, -, T', bs', hfr'⟩ := hfr.payload hwant (z := { x with
        peer := { x.peer with
          inbox := x.peer.inbox.drop (min n (mV2Want x.flow)) } }) rfl
      have hok := h.left.flow
      exact h.readAdvance hr hlen rfl { hok with }
        (h.back.data.target rfl prefix_rfl rfl rfl rfl) hfr'

lemma Inv.readPayload (h : Inv x y) (hr : Reading x.flow)
    (hlen : frameHeader ≤ x.flow.inFrame.length) (r : RecvResult) :
    ReadOk x y (mV2ReadPayload x.side r) := by
  rcases lt_trichotomy (x.flow.inOffset + x.flow.inPos) x.flow.rxNext with hlt | heq | hgt
  · exact h.readOld hr hlen hlt r
  · exact h.readNew hr hlen heq r
  · simp only [mV2ReadPayload, Endpoint.side_flow, hgt, if_true]
    exact .done h.fail.abort

/-! ### The loop -/

theorem Inv.readLoop (h : Inv x y) (hr : Reading x.flow) (n : ℕ)
    (rs : List RecvResult) : Inv (x.onFlow (mV2ReadLoop n · rs)) y := by
  induction n generalizing x rs with
  | zero => exact h
  | succ n ih =>
    -- the invariant and the reading flow go from each half of a pass to the next
    have hnext {e : Endpoint} {r : Side × ReadNext} (hok : ReadOk e y r) (rs : List RecvResult)
        (hloop : r.2 = .loop) : Inv (e.withSide (mV2ReadLoop n r.1 rs)) y :=
      ih hok.inv (hok.reading (by simp [hloop])) rs
    have hpay {e : Endpoint} (he : Inv e y) (hre : Reading e.flow)
        (hlen : frameHeader ≤ e.flow.inFrame.length) (rs : List RecvResult) {r : Side × ReadNext}
        (hs : mV2ReadPayload e.side (rs.headD .again) = r) :
        (r.2 = .loop → Inv (e.withSide (mV2ReadLoop n r.1 rs.tail)) y) ∧
          Inv (e.withSide r.1) y := by
      have hok : ReadOk e y r := hs ▸ he.readPayload hre hlen (rs.headD .again)
      exact ⟨hnext hok rs.tail, hok.inv⟩
    show Inv (x.withSide (mV2ReadLoop (n + 1) x.side rs)) y
    rw [mV2ReadLoop]
    split
    · rename_i hshort
      have hok := h.readHeader hr hshort (rs.headD .again)
      split
      · rename_i s hs
        exact (hs ▸ hok : ReadOk x y (s, .done)).inv
      · rename_i s hs
        exact hnext (hs ▸ hok) rs.tail rfl
      rename_i s hs
      have hok' : ReadOk x y (s, .payload) := hs ▸ hok
      have hpay' {r} := hpay hok'.inv (hok'.reading (by simp)) (hok'.payload rfl) rs.tail (r := r)
      split
      · rename_i hs'
        exact (hpay' hs').1 rfl
      · rename_i hs'
        exact (hpay' hs').2
    rename_i hlong
    split
    · rename_i hs
      exact (hpay h hr (not_lt.mp hlong) rs hs).1 rfl
    · rename_i hs
      exact (hpay h hr (not_lt.mp hlong) rs hs).2

/-- **`m_v2_read`.** -/
theorem Inv.read (h : Inv x y) (hact : x.flow.phase = .active)
    (rs : List RecvResult) : Inv (x.onFlow (mV2Read · rs)) y := by
  show Inv (x.withSide (mV2Read x.side rs)) y
  rw [mV2Read]
  split
  · exact h
  · rename_i hgo
    simp only [not_or, Bool.not_eq_false] at hgo
    exact h.readLoop ⟨hgo.1, hact, by simpa using hgo.2.1⟩ 32 rs

end OhecoBroker.Mapping
