/-
Control messages of the retained flow: the client reads `ACK` or `RESUME_ACK`.

* `Framing.controlHead`, `Framing.controlExtend`, `Framing.controlDone`: a control message on the
  stream, part by part;
* `resumed`, `mResumeApply_true`: a flow that accepts the snapshot of the other end;
* `Inv.controlPart`, `Inv.controlFinish`, `Inv.clientActive`: a part of the message, its end, and
  what the client does on it;
* `Inv.streamRead`: **`m_stream_read` on the retained flow keeps the invariant**.
-/
import OhecoBroker.Mapping.Receiving

namespace OhecoBroker.Mapping

open Lib List

/-! ### Control messages on the stream -/

variable {x y : Endpoint} {pre bs : List UInt8} {T R : List Token} {Q : List Msg} {f g : Flow}
  {s : Snapshot} {base : ℕ} {p : Peer} {fs : List Flow}

lemma Framing.controlHead (hf : Framing y x { pre := pre, ctl := true } T R bs Q) :
    (pre = [] ∧ T = [] ∧ R = [] ∧ Q = []) ∨ ∃ kind id body Q',
      Q = .ctl kind id body :: Q' ∧ body.length < 65536 ∧
      plain pre ++ (T ++ R) =
        plain (mHeader kind protoTcp body.length id ++ body) ++ encAll Q' := by
  have hnil : bs = [] := length_eq_zero_iff.mp hf.left
  have hframed : plain pre ++ (T ++ R) = encAll Q := by simpa [hnil] using hf.framed
  rcases Q with _ | ⟨m, Q⟩
  · simp only [encAll_nil, append_eq_nil_iff] at hframed
    obtain ⟨hpre, rfl, rfl⟩ := hframed
    exact .inl ⟨by simpa [plain] using hpre, rfl, rfl, rfl⟩
  cases m with
  | frame kind flags id offset payload => exact absurd (hf.shape.1.mpr rfl) (by simp [Msg.IsCtl])
  | ctl kind id body =>
    refine .inr ⟨kind, id, body, Q, rfl, ?_, by rw [hframed, encAll_cons, Msg.enc]⟩
    rcases hf.ok _ mem_cons_self with ⟨-, -, hl⟩ | ⟨-, hl, -⟩
    · omega
    · simp only [resumeSize] at hl
      omega

lemma size_of_plain {body : List UInt8} {kind : ControlKind} {id : UInt64}
    {rest tail : List Token} (hbody : body.length < 65536)
    (h : plain pre ++ rest = plain (mHeader kind protoTcp body.length id ++ body) ++ tail)
    (hlen : controlHeader ≤ pre.length) : field pre 6 2 = body.length := by
  have hhead : pre.take controlHeader = mHeader kind protoTcp body.length id := by
    have := congrArg (fun ts => (ts.map Prod.fst).take controlHeader) h
    simp only [map_append, map_fst_plain, append_assoc] at this
    rw [take_append_of_le_length hlen, take_append_of_le_length (by simp)] at this
    rw [this, take_of_length_le (by simp)]
  have hfield : field pre 6 2 = field (pre.take controlHeader) 6 2 := by
    conv_lhs => rw [← take_append_drop controlHeader pre]
    exact field_append_left (by simp only [length_take, controlHeader] at *; omega)
  rw [hfield, hhead, (field_mHeader kind protoTcp body.length id).2, Nat.mod_eq_of_lt hbody]

/-- More of the message is read. -/
lemma Framing.controlExtend {z : Endpoint}
    (hf : Framing y x { pre := pre, ctl := true } T R bs Q) {m : ℕ}
    (hlen : pre.length + (x.peer.inbox.take m).length ≤ controlHeader ∨
      (controlHeader ≤ pre.length ∧
        pre.length + (x.peer.inbox.take m).length ≤ controlHeader + field pre 6 2))
    (hin : z.peer.inbox = x.peer.inbox.drop m) :
    ∃ T', Framing y z { pre := pre ++ x.peer.inbox.take m, ctl := true } T' R [] Q := by
  obtain ⟨T₁, T₂, rfl, h1, h2⟩ := hf.take m
  have hlen₁ : T₁.length = (x.peer.inbox.take m).length := by rw [← h1, length_map]
  refine ⟨T₂,
    { bytes := by rw [h2, hin]
      backed := fun t ht => hf.backed t (mem_append_right _ ht)
      left := rfl
      framed := ?_
      shape := hf.shape, ok := hf.ok, fits := hf.fits }⟩
  have hnil : bs = [] := length_eq_zero_iff.mp hf.left
  have hframed : plain pre ++ (T₁ ++ T₂ ++ R) = encAll Q := by simpa [hnil] using hf.framed
  -- the bytes read are plain, so they may be moved in front
  suffices hplain : T₁ = plain (x.peer.inbox.take m) by
    rw [located_nil, nil_append, ← hframed, plain_append, ← hplain]
    simp only [append_assoc]
  rcases hf.controlHead with ⟨-, hT, -, -⟩ | ⟨kind, id, body, Q', -, hbody, hmsg⟩
  · obtain ⟨rfl, rfl⟩ := append_eq_nil_iff.mp hT
    rw [← h1]
    rfl
  have hle : pre.length + T₁.length ≤ (mHeader kind protoTcp body.length id ++ body).length := by
    rw [hlen₁, length_append, length_mHeader]
    rcases hlen with hlen | ⟨hhead, hlen⟩
    · omega
    · rwa [size_of_plain hbody hmsg hhead] at hlen
  have hmsg' : (plain pre ++ T₁) ++ (T₂ ++ R) =
      plain (mHeader kind protoTcp body.length id ++ body) ++ encAll Q' := by
    rw [← hmsg]
    simp only [append_assoc]
  obtain ⟨hcut, -⟩ := split_plain hmsg' (by simpa using hle)
  have hbytes := congrArg (List.map Prod.fst) hcut
  rw [map_fst_plain, map_append, map_fst_plain, h1] at hbytes
  rw [← hbytes, plain_append] at hcut
  exact append_cancel_left hcut

lemma Framing.controlDone {z : Endpoint} (hf : Framing y x { pre := pre, ctl := true } T R bs Q)
    (hlen : controlHeader ≤ pre.length) (hfull : pre.length = controlHeader + field pre 6 2)
    (hin : z.peer.inbox = x.peer.inbox) :
    ∃ kind id body Q', pre = mHeader kind protoTcp body.length id ++ body ∧
      (Msg.ctl kind id body).Ok y.peer.isServer y.flow ∧ Q = .ctl kind id body :: Q' ∧
      Framing y z { pre := [], ctl := false } T R [] Q' := by
  rcases hf.controlHead with ⟨rfl, -⟩ | ⟨kind, id, body, Q', rfl, hbody, hmsg⟩
  · simp [controlHeader] at hlen
  have hsize := size_of_plain hbody hmsg hlen
  obtain ⟨hpre, hrest⟩ := append_inj hmsg (by
    rw [length_plain, length_plain, length_append, length_mHeader, hfull, hsize])
  exact ⟨kind, id, body, Q', plain_injective hpre, hf.ok _ mem_cons_self, rfl,
    { bytes := by rw [hf.bytes, hin]
      backed := hf.backed
      left := rfl
      framed := by simpa using hrest
      shape := hf.shape.tail
      ok := fun q hq => hf.ok q (mem_cons_of_mem _ hq)
      fits := hf.fits.fits_tail }⟩

/-! ### Accepted snapshots -/

/-- The flow after it accepted the snapshot `s` of the other end. -/
def resumed (f : Flow) (s : Snapshot) (base : ℕ) (fin : Bool) : Flow :=
  { f with
    tx := f.tx.drop (base - f.txBase), txBase := base, txFinAcked := fin
    txPos := 0, inFrame := [], inSize := 0, inPos := 0, outPos := 0, outKind := none
    rxNext := f.rxCommit, rx := [], rxPos := 0
    rxFin := f.rxFin || decide s.eof, rxFinal := if s.eof then s.final else f.rxFinal
    sentFin := fin, ackDirty := true }

/-- What an accepted snapshot does to a flow. -/
lemma mResumeApply_true {body : List UInt8} (h : mResumeApply f body = (g, true)) :
    ∃ base fin, g = resumed f (Snapshot.read body) base fin ∧ (Snapshot.read body).status = 0 ∧
      f.txBase ≤ base ∧ base ≤ mTxNext f ∧
      (base = f.txBase ∨ base = (Snapshot.read body).delivered) := by
  unfold mResumeApply at h
  simp only at h
  split at h
  · simp at h
  rename_i hvalid
  have hstatus : (Snapshot.read body).status = 0 := by
    by_contra hne
    exact hvalid (.inl hne)
  split at h
  · simp at h
  rename_i g' hack
  obtain ⟨base, pos, fin, rfl, hle, hnext, hor⟩ := mV2Ack_some hack
  obtain ⟨hg, -⟩ := Prod.mk.inj h
  exact ⟨base, fin, hg.symm, hstatus, hle, hnext, hor⟩

lemma mResumeApply_false {body : List UInt8} (h : mResumeApply f body = (g, false)) :
    ∃ pos, g = { f with txPos := pos } := by
  unfold mResumeApply at h
  simp only at h
  split at h
  · obtain ⟨rfl, -⟩ := Prod.mk.inj h
    exact ⟨f.txPos, rfl⟩
  split at h
  · obtain ⟨rfl, -⟩ := Prod.mk.inj h
    exact ⟨_, rfl⟩
  · simp at h

lemma FlowOk.resumed (h : FlowOk f) (hfd : f.fd = true)
    (fin : Bool) (hle : f.txBase ≤ base) (hnext : base ≤ mTxNext f) :
    FlowOk (Mapping.resumed f s base fin) := by
  obtain ⟨htx, -, hmax⟩ := h.tx hfd
  exact
    { h with
      released := fun hfd' => (by cases hfd.symm.trans hfd')
      tx := fun _ => ⟨by
        have hsum : f.txBase + (base - f.txBase) = base := Nat.add_sub_cancel' hle
        simp only [Mapping.resumed, htx, drop_drop, hsum], h.txNext hfd ▸ hnext, hmax⟩
      next := fun _ => ⟨le_rfl, rfl⟩
      out := fun k hk => (by cases hk)
      quiet := fun _ => rfl
      idle := fun _ => rfl }

/-- A snapshot says what the other end has. -/
lemma Copied.resumed (h : Copied f g) (fin : Bool)
    (hstatus : s.status = 0) (hs : SnapOk f s) : Copied f (Mapping.resumed g s base fin) where
  copy := by
    simp only [Mapping.resumed, drop_nil, append_nil]
    exact (prefix_append _ _).trans h.copy
  sent := by
    simp only [Mapping.resumed, drop_nil, append_nil]
    exact (prefix_append _ _).length_le.trans h.sent
  fin hfin := by
    simp only [Mapping.resumed, Bool.or_eq_true, decide_eq_true_eq] at hfin ⊢
    by_cases heof : s.eof
    · rw [if_pos heof]
      exact (hs hstatus).2 heof
    · rw [if_neg heof]
      exact h.fin (hfin.resolve_right heof)
  shut := h.shut

lemma SnapOk.base_le (hs : SnapOk f s)
    (hstatus : s.status = 0) (hbase : g.txBase ≤ f.sockWritten.length)
    (hor : base = g.txBase ∨ base = s.delivered) : base ≤ f.sockWritten.length := by
  rcases hor with rfl | rfl
  · exact hbase
  · exact (hs hstatus).1

/-! ### Reading a control message -/

lemma Flow.rxAt_control (hp : f.phase = .control) :
    f.rxAt = some { pre := f.control, ctl := true } := by
  simp [Flow.rxAt, hp]

lemma mHeaderCheck_local (hl : f.isLocal = true) (h : mHeaderCheck p fs f = some g) :
    g = { f with controlNeed := controlHeader + field f.control 6 2 } := by
  unfold mHeaderCheck at h
  simp only at h
  rw [if_pos hl] at h
  split_ifs at h <;> exact (Option.some.inj h).symm

lemma ControlOk.want (h : ControlOk f) (hp : f.phase = .control)
    (hlen : f.control.length + bs.length ≤ f.controlNeed ∨ bs = []) :
    f.control.length + bs.length ≤ controlHeader ∨ (controlHeader ≤ f.control.length ∧
      f.control.length + bs.length ≤ controlHeader + field f.control 6 2) := by
  rcases h hp with ⟨hlt, hneed⟩ | ⟨hle, hle', hneed⟩
  · rcases hlen with hlen | rfl
    · exact .inl (hneed ▸ hlen)
    · exact .inl (by simpa using hlt.le)
  · rcases hlen with hlen | rfl
    · exact .inr ⟨hle, hneed ▸ hlen⟩
    · exact .inr ⟨hle, by simpa using hneed ▸ hle'⟩

lemma ControlOk.extend (h : ControlOk f) (hp : f.phase = .control)
    {need : ℕ} (hlen : f.control.length + bs.length ≤ f.controlNeed ∨ bs = [])
    (hneed : if (f.control ++ bs).length = controlHeader ∧ f.controlNeed = controlHeader then
      need = controlHeader + field (f.control ++ bs) 6 2 else need = f.controlNeed) :
    ((f.control ++ bs).length < controlHeader ∧ need = controlHeader) ∨
      (controlHeader ≤ (f.control ++ bs).length ∧ (f.control ++ bs).length ≤ need ∧
        need = controlHeader + field (f.control ++ bs) 6 2) := by
  have hbs : f.control.length + bs.length ≤ f.controlNeed ∨ bs.length = 0 :=
    hlen.imp_right fun h => by rw [h]; rfl
  rw [length_append] at *
  split at hneed
  · rename_i hhead
    exact .inr ⟨hhead.1.ge, by omega, hneed⟩
  rename_i hhead
  rcases h hp with ⟨hlt, hneed'⟩ | ⟨hle, hle', hneed'⟩
  · left
    omega
  have hfield : field (f.control ++ bs) 6 2 = field f.control 6 2 :=
    field_append_left (by simp only [controlHeader] at hle; omega)
  right
  rw [hfield]
  omega

/-- A part of the message is read. -/
lemma Inv.controlPart (h : Inv x y) (hs : x.flow.stream = true)
    (hp : x.flow.phase = .control) {m need : ℕ}
    (hlen : x.flow.control.length + (x.peer.inbox.take m).length ≤ x.flow.controlNeed ∨
      x.peer.inbox.take m = [])
    (hneed : if (x.flow.control ++ x.peer.inbox.take m).length = controlHeader ∧
        x.flow.controlNeed = controlHeader then
      need = controlHeader + field (x.flow.control ++ x.peer.inbox.take m) 6 2
      else need = x.flow.controlNeed) :
    Inv { x with
      peer := { x.peer with inbox := x.peer.inbox.drop m }
      flow := { x.flow with
        control := x.flow.control ++ x.peer.inbox.take m, controlNeed := need } } y := by
  have hok := h.left.flow
  refine h.moveRead hs { hok with } (fun _ => h.left.control.extend hp hlen hneed)
    ⟨rfl, rfl, rfl, rfl, rfl, rfl, rfl, rfl, rfl, rfl, rfl, rfl⟩ (.of_eq rfl rfl rfl rfl)
    h.forth.base (h.back.data.target rfl prefix_rfl rfl rfl rfl) ?_
  intro pos hpos
  obtain rfl := Option.some.inj ((Flow.rxAt_control (by exact hp)).symm.trans hpos)
  obtain ⟨T, R, bs, Q, hf⟩ := h.back.wire _
    (by rw [Endpoint.rxAt_of_bound h.left (Endpoint.bound_of_stream h.left hs),
      Flow.rxAt_control hp])
  obtain ⟨T', hf'⟩ := hf.controlExtend (z := { x with
      peer := { x.peer with inbox := x.peer.inbox.drop m }
      flow := { x.flow with
        control := x.flow.control ++ x.peer.inbox.take m, controlNeed := need } })
    (h.left.control.want hp hlen) rfl
  exact ⟨T', R, [], Q, hf'⟩

/-! ### The answer to the client -/

lemma EndOk.silent_of_ctl {e : Endpoint} (h : EndOk e) (hserver : e.peer.isServer = true)
    {pos : RxPos} (hpos : e.rxAt = some pos) (hctl : pos.ctl = true) : e.txStatus = .silent := by
  by_cases haw : e.peer.awaiting = true
  · simp [Endpoint.txStatus, haw]
  have hnotLocal : ∀ f, e.bound = some f → f.isLocal = false := by
    intro f hb
    unfold Endpoint.bound at hb
    split at hb
    · rename_i g hg
      obtain rfl := Option.some.inj hb
      exact (h.incoming g (Option.filter_eq_some_iff.mp hg).1).notLocal
    split at hb
    · cases hb
      rw [h.role, hserver]
      rfl
    · cases hb
  rw [Endpoint.rxAt, if_neg haw] at hpos
  rw [Endpoint.txStatus, if_neg haw]
  cases hb : e.bound with
  | none => simp [hb] at hpos
  | some f =>
    simp only [hb, Option.bind_some] at hpos
    unfold Flow.rxAt at hpos
    split_ifs at hpos with hdead hcontrol hframe
    · simp [Flow.txStatus, hcontrol, hnotLocal f hb]
    · cases hpos
      cases hctl
    · cases hpos
      cases hctl

lemma Inv.requestSent (h : Inv x y) (hs : x.flow.stream = true)
    (hp : x.flow.phase = .control) (hsilent : y.txStatus ≠ .silent) (hy : y.rxAt ≠ none) :
    x.flow.txStatus x.peer.attemptStop = .over ∨ x.flow.reply.length ≤ x.flow.replyPos := by
  have hlocal := h.left.clientOnly hp
  have hserver : y.peer.isServer = true := by
    have hr := h.left.role
    have hroles := h.roles
    rw [hlocal] at hr
    rw [hroles] at hr
    simpa using hr.symm
  obtain ⟨pos, hpos⟩ := Option.ne_none_iff_exists'.mp hy
  have hctl : pos.ctl = false := by
    by_contra hne
    exact hsilent (h.right.silent_of_ctl hserver hpos (by simpa using hne))
  obtain ⟨T, R, bs, Q, hf⟩ := h.forth.wire pos hpos
  have hfits := hf.fits
  rw [Endpoint.txStatus_of_bound h.left (Endpoint.bound_of_stream h.left hs)] at hfits
  by_cases hsent : x.flow.reply.length ≤ x.flow.replyPos
  · exact .inr hsent
  left
  have hlt := Nat.not_le.mp hsent
  simp only [Flow.txStatus, hp, hlocal, hlt, if_true] at hfits ⊢
  cases hc : x.flow.closeRequested with
  | true => simp
  | false =>
    -- the request is not out, yet nothing but control messages was begun
    simp only [hc] at hfits
    obtain ⟨hR, -, hall, -⟩ := hfits
    have hQ : Q = [] := by
      have hshape := hf.shape
      rcases Q with _ | ⟨q, Q⟩
      · rfl
      · have := hshape.1.mp (hall hp q mem_cons_self)
        simp [hctl] at this
    have hne : x.flow.reply.drop x.flow.replyPos ≠ [] := by simpa using hlt
    obtain ⟨b, rest, hb⟩ := exists_cons_of_ne_nil hne
    have hmem : (b, none) ∈ located pos.off bs := by
      have hframed := hf.framed
      rw [hQ, encAll_nil, append_nil] at hframed
      rw [← hframed, hR, unsent, hb]
      simp [plain]
    exact absurd rfl (snd_ne_none_of_mem_located hmem)

lemma Inv.turnActive (h : Inv x y) (hs : x.flow.stream = true)
    (hp : x.flow.phase = .control) (hsilent : y.txStatus ≠ .silent) (hok : FlowOk g)
    (hact : g.phase = .active) (hlocal : g.isLocal = x.flow.isLocal)
    (hstream : g.stream = x.flow.stream) (hreply : g.reply = x.flow.reply)
    (hreplyPos : g.replyPos = x.flow.replyPos) (hclose : g.closeRequested = x.flow.closeRequested)
    (hout : g.outKind = none) (hin : g.inFrame = []) (hg : Grows x.flow g)
    (hbase : g.fd = true → g.txBase ≤ y.flow.sockWritten.length) (hdata : Copied y.flow g)
    (hfr : Framing y { x with flow := g } { pre := [], ctl := false } T R [] Q) :
    Inv { x with flow := g } y := by
  have hnc : g.phase ≠ .control := by simp [hact]
  refine h.moveStream hs hok (fun hc => absurd hc hnc) hlocal hstream (fun hc => absurd hc hnc) hg
    hbase hdata (fun hy ctl R Q hfits => ?_) fun pos hpos => ⟨T, R, [], Q, ?_⟩
  · have hunsent : unsent g = unsent x.flow := by
      simp [unsent, unsentFrame, hreply, hreplyPos, hout, h.left.flow.quiet (.inl hp)]
    have hloc := h.left.clientOnly hp
    by_cases hsent : x.flow.reply.length ≤ x.flow.replyPos
    · have hlt := Nat.not_lt.mpr hsent
      simp only [Flow.txStatus, hact, hp, hloc, hreply, hreplyPos, hlt, if_false] at hfits ⊢
      cases hstop : x.peer.attemptStop with
      | true => trivial
      | false =>
        simp only [hstop] at hfits
        refine ⟨hunsent ▸ hfits.1, hfits.2.1, fun hc => absurd hc hnc, fun _ => ?_⟩
        rwa [hreply, hreplyPos]
    have hover := (h.requestSent hs hp hsilent hy).resolve_right hsent
    have hlt := Nat.not_le.mp hsent
    have hc : x.flow.closeRequested = true := by
      by_contra hne
      simp [Flow.txStatus, hp, hloc, hlt, hne] at hover
    simp [Flow.txStatus, hact, hreply, hreplyPos, hlt, hclose, hc, TxStatus.Fits]
  have hat : g.rxAt = some { pre := [], ctl := false } := by
    simp [Flow.rxAt, hact, hin, frameHeader]
  obtain rfl := Option.some.inj (hat.symm.trans hpos)
  exact hfr

lemma mControlDone_local {rc : ℤ} {old : Option Flow}
    (hl : f.isLocal = true) (h : mControlDone p fs f rc = some (g, old)) :
    (∃ f', (field f.control 4 1 = ControlKind.resume.code ∨
        field f.control 4 1 = ControlKind.resumeAck.code) ∧
      mResumeApply f (f.control.drop controlHeader) = (f', true) ∧ g = { f' with
        waitingResume := false, suspended := false, graceDeadlineUs := 0
        acked := true, phase := .active }) ∨
    g = { f with acked := true, phase := .active } := by
  unfold mControlDone mV2ControlDone at h
  simp only at h
  rw [if_pos hl, if_pos hl] at h
  split at h
  · rename_i hkind
    split at h
    · cases h
    · rename_i f' happ
      obtain ⟨rfl, -⟩ := Prod.mk.inj (Option.some.inj h)
      exact .inl ⟨f', hkind, happ, rfl⟩
  split at h
  · cases h
  · obtain ⟨rfl, -⟩ := Prod.mk.inj (Option.some.inj h)
    exact .inr rfl

lemma Msg.Ok.snap {server : Bool} {kind : ControlKind} {id : UInt64}
    {body : List UInt8} (h : (Msg.ctl kind id body).Ok server f)
    (hkind : field (mHeader kind protoTcp body.length id ++ body) 4 1 = ControlKind.resume.code ∨
      field (mHeader kind protoTcp body.length id ++ body) 4 1 = ControlKind.resumeAck.code) :
    SnapOk f (Snapshot.read body) := by
  rw [field_append_left (by simp [controlHeader]),
    (field_mHeader kind protoTcp body.length id).1] at hkind
  rcases h with ⟨-, rfl, -⟩ | ⟨-, -, hsnap⟩
  · simp [ControlKind.code] at hkind
  · exact hsnap

/-- **The client acts on the answer.** -/
lemma Inv.clientActive (h : Inv x y) (hs : x.flow.stream = true)
    (hp : x.flow.phase = .control) (hlen : controlHeader ≤ x.flow.control.length)
    (hfull : x.flow.control.length = controlHeader + field x.flow.control 6 2) {rc : ℤ}
    {old : Option Flow} (hg : mControlDone x.peer [] x.flow rc = some (g, old)) (b : Bool) :
    Inv { x with flow := { g with streamEof := b } } y := by
  have hok := h.left.flow
  have hfd : x.flow.fd = true := hok.alive (by simp [hp])
  have hlocal := h.left.clientOnly hp
  obtain ⟨T, R, bs, Q, hf⟩ := h.back.wire _
    (by rw [Endpoint.rxAt_of_bound h.left (Endpoint.bound_of_stream h.left hs),
      Flow.rxAt_control hp])
  obtain ⟨kind, id, body, Q', hcontrol, hmsg, hQ, hfr⟩ :=
    hf.controlDone hlen hfull (z := { x with flow := { g with streamEof := b } }) rfl
  have hsilent : y.txStatus ≠ .silent := by
    intro hsil
    have hfits := hf.fits
    rw [hsil, hQ] at hfits
    cases hfits.1
  have hbody : x.flow.control.drop controlHeader = body := by
    rw [hcontrol, drop_append_of_le_length (by simp), drop_eq_nil_of_le (by simp),
      nil_append]
  rcases mControlDone_local hlocal hg with ⟨f', hkind, happ, rfl⟩ | rfl
  · rw [hbody] at happ
    obtain ⟨base, fin, rfl, hstatus, hle, hnext, hor⟩ := mResumeApply_true happ
    rw [hcontrol] at hkind
    have hsnap : SnapOk y.flow (Snapshot.read body) := hmsg.snap hkind
    have hokr : FlowOk (resumed x.flow (Snapshot.read body) base fin) :=
      hok.resumed hfd fin hle hnext
    have hcopy : Copied y.flow (resumed x.flow (Snapshot.read body) base fin) :=
      h.back.data.resumed fin hstatus hsnap
    refine h.turnActive hs hp hsilent ?_ rfl rfl rfl rfl rfl rfl rfl rfl
      (.of_eq rfl rfl rfl rfl) (fun _ => hsnap.base_le hstatus (h.forth.base hfd) hor)
      { hcopy with } hfr
    exact
      { hokr with
        alive := fun _ => hfd, quiet := fun _ => rfl, idle := fun _ => rfl
        setup := ⟨by simp, by simp⟩ }
  refine h.turnActive hs hp hsilent ?_ rfl rfl rfl rfl rfl rfl (hok.quiet (.inl hp))
    (hok.idle (.inl hp)) (.of_eq rfl rfl rfl rfl) h.forth.base
    (h.back.data.target rfl prefix_rfl rfl rfl rfl) hfr
  exact
    { hok with
      alive := fun _ => hfd, quiet := fun _ => hok.quiet (.inl hp)
      idle := fun _ => hok.idle (.inl hp), setup := ⟨by simp, by simp⟩ }

/-! ### The whole read -/

lemma Inv.controlFinish (h : Inv x y) (hs : x.flow.stream = true)
    (hp : x.flow.phase = .control) (hlen : controlHeader ≤ x.flow.control.length)
    (hfull : x.flow.control.length = controlHeader + field x.flow.control 6 2) (rc : ℤ)
    (flush : SendResult) (fin : Bool) :
    Inv (x.withSide (mControlFinish [] rc flush fin x.side).1) y := by
  unfold mControlFinish
  split
  · exact h.abort
  rename_i g old hg
  have hact := h.clientActive hs hp hlen hfull hg (g.streamEof || fin)
  simp only
  split
  · exact hact.abort
  · exact hact.replyFlush flush

lemma received_le (p : Peer) (k : ℕ) (control : List UInt8) (need : ℕ) :
    control.length + (received p k (need - control.length)).length ≤ need ∨
      received p k (need - control.length) = [] := by
  by_cases hle : control.length ≤ need
  · left
    rw [received, length_take]
    omega
  · right
    rw [received, Nat.sub_eq_zero_of_le (not_le.mp hle).le, Nat.min_zero, take_zero]

lemma mHeaderCheck_due (hl : f.isLocal = true)
    (h : (if f.control.length = controlHeader ∧ f.controlNeed = controlHeader then
      mHeaderCheck p fs f else some f) = some g) :
    ∃ need, g = { f with controlNeed := need } ∧
      if f.control.length = controlHeader ∧ f.controlNeed = controlHeader then
        need = controlHeader + field f.control 6 2 else need = f.controlNeed := by
  split at h
  · rename_i hdue
    exact ⟨_, mHeaderCheck_local hl h, by rw [if_pos hdue]⟩
  · rename_i hdue
    exact ⟨f.controlNeed, (Option.some.inj h).symm, by rw [if_neg hdue]⟩

lemma ControlOk.complete (h : ControlOk f) (hp : f.phase = .control)
    (hfull : f.control.length = f.controlNeed) :
    controlHeader ≤ f.control.length ∧
      f.control.length = controlHeader + field f.control 6 2 := by
  rcases h hp with ⟨hlt, hneed⟩ | ⟨hle, -, hneed⟩
  · omega
  · exact ⟨hle, hfull.trans hneed⟩

lemma Inv.controlRead (h : Inv x y) (hs : x.flow.stream = true)
    (hp : x.flow.phase = .control) (rc : ℤ) (flush : SendResult) (n : ℕ)
    (rs : List RecvResult) :
    Inv (x.withSide (mControlRead [] rc flush n x.side rs).1) y := by
  induction n generalizing x rs with
  | zero => exact h
  | succ n ih =>
    have hok := h.left.flow
    rw [mControlRead]
    split
    · exact h
    · exact h.abort
    rename_i k fin _
    have hlen := received_le x.peer k x.flow.control x.flow.controlNeed
    simp only
    split
    · exact h.dieReading hs _ rfl fun hsus => hok.idle (.inr hsus)
    rename_i g hg
    obtain ⟨need, rfl, hneed⟩ := mHeaderCheck_due (f := { x.flow with
        control := x.flow.control ++
          received x.peer k (x.flow.controlNeed - x.flow.control.length) })
      (h.left.clientOnly hp) hg
    have hpart := h.controlPart hs hp hlen hneed
    split
    · rename_i hfull
      obtain ⟨h1, h2⟩ := hpart.left.control.complete hp hfull
      exact hpart.controlFinish hs hp h1 h2 rc flush fin
    split
    · exact hpart.abort
    · split
      · exact hpart
      · exact ih hpart hs hp rs.tail

/-- **`m_stream_read`** on the retained flow. -/
theorem Inv.streamRead (h : Inv x y) (rc : ℤ) (flush : SendResult)
    (rs : List RecvResult) : Inv (x.withSide (mStreamRead [] rc flush x.side rs).1) y := by
  unfold mStreamRead
  split
  · exact h
  rename_i hguard
  simp only [not_or, Bool.not_eq_false] at hguard
  obtain ⟨s, old, rs', hread, hinv⟩ : ∃ s old rs',
      (if x.side.flow.phase = .control then mControlRead [] rc flush 2 x.side rs
        else (x.side, none, rs)) = (s, old, rs') ∧ Inv (x.withSide s) y := by
    by_cases hp : x.side.flow.phase = .control
    · rw [if_pos hp]
      exact ⟨_, _, _, rfl, h.controlRead hguard.1 hp rc flush 2 rs⟩
    · rw [if_neg hp]
      exact ⟨_, _, _, rfl, h⟩
  simp only [hread]
  split
  · rename_i hact
    exact hinv.read hact.1 rs'
  · exact hinv

end OhecoBroker.Mapping
