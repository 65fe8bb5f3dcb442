/-
What holds between the two ends of a flow in every state of a link.  The bytes on a stream are
those of a list of messages, cut at both ends: the receiver is somewhere inside the first message,
the sender somewhere inside the last.  Payload bytes remember the offset they were read from.

* `Msg`, `Msg.enc`, `Msg.Ok`: messages, and what an honest end writes into them;
* `RxPos`, `TxStatus`, `Framing`, `Wire`: the receiver, the sender and the stream between;
* `FlowOk`, `ControlOk`, `IncomingOk`, `EndOk`: facts about one end;
* `Copied`, `Dir`, `Inv`: one direction, and **the invariant**;
* `Grows`, `Wire.sender`, `Wire.receiver`, `Inv.move`: one end moves.
-/
import OhecoBroker.Lib.Located
import OhecoBroker.Mapping.Link

namespace OhecoBroker.Mapping

open Lib

/-- A byte on a stream; payload has the offset it was read from. -/
abbrev Token := UInt8 × Option ℕ

/-! ### Messages -/

/-- A control message or a delivery frame. -/
inductive Msg where
  | ctl (kind : ControlKind) (id : UInt64) (body : List UInt8)
  | frame (kind : FrameKind) (flags : ℕ) (id : UInt64) (offset : ℕ) (payload : List UInt8)

def Msg.enc : Msg → List Token
  | .ctl kind id body => plain (mHeader kind protoTcp body.length id ++ body)
  | .frame kind flags id offset payload =>
    plain (v2HeaderBytes kind flags payload.length id offset) ++ located offset payload

def encAll (Q : List Msg) : List Token := Q.flatMap Msg.enc

@[simp] lemma encAll_nil : encAll [] = [] := rfl

@[simp] lemma encAll_cons (m : Msg) (Q : List Msg) : encAll (m :: Q) = m.enc ++ encAll Q :=
  List.flatMap_cons

lemma encAll_append (P Q : List Msg) : encAll (P ++ Q) = encAll P ++ encAll Q :=
  List.flatMap_append

def Msg.IsCtl : Msg → Prop
  | .ctl .. => True
  | .frame .. => False

/-- What an accepted snapshot says is true of its flow, then and later. -/
def SnapOk (f : Flow) (s : Snapshot) : Prop :=
  s.status = 0 → s.delivered ≤ f.sockWritten.length ∧
    (s.eof → f.socketEof = true ∧ s.final = f.sockRead.length)

/-- What an honest end with flow `f` writes into a message. -/
def Msg.Ok (server : Bool) (f : Flow) : Msg → Prop
  | .ctl kind _ body =>
    (server = true ∧ kind = .ack ∧ body.length = 4) ∨
      (kind = (if server then .resumeAck else .resume) ∧ body.length = resumeSize ∧
        SnapOk f (Snapshot.read body))
  | .frame .data flags _ offset payload =>
    flags = 0 ∧ payload ≠ [] ∧ payload.length ≤ ioBudget ∧ offset + payload.length ≤ uint64Max
  | .frame .ack flags _ offset payload =>
    payload = [] ∧ flags ≤ 1 ∧ offset ≤ f.sockWritten.length
  | .frame .fin flags _ offset payload =>
    payload = [] ∧ flags = 0 ∧ offset ≤ uint64Max ∧ f.socketEof = true ∧
      offset = f.sockRead.length

/-! ### The receiver and the sender of a stream -/

/-- Where a receiver is: inside a header, or inside a payload of which `left` bytes from `off` on
are to come. -/
structure RxPos where
  pre : List UInt8
  off : ℕ := 0
  left : ℕ := 0
  ctl : Bool

def Flow.rxAt (f : Flow) : Option RxPos :=
  if f.phase = .dead then none
  else if f.phase = .control then some { pre := f.control, ctl := true }
  else if f.inFrame.length < frameHeader then some { pre := f.inFrame, ctl := false }
  else some
    { pre := [], off := f.inOffset + f.inPos, left := f.inSize - f.inPos, ctl := false }

def Endpoint.bound (e : Endpoint) : Option Flow :=
  match e.incoming.filter (·.stream) with
  | some f => some f
  | none => if e.flow.stream then some e.flow else none

def Endpoint.rxAt (e : Endpoint) : Option RxPos :=
  if e.peer.awaiting then some { pre := [], ctl := true } else e.bound.bind Flow.rxAt

/-- What is left of the frame a flow has begun. -/
def unsentFrame (f : Flow) : List Token :=
  match f.outKind with
  | none => []
  | some .data =>
    plain (f.outFrame.drop f.outPos) ++
      located f.outOffset ((f.sockRead.drop f.outOffset).take (f.outEnd - f.outOffset))
  | some _ => plain (f.outFrame.drop f.outPos)

/-- What is left of all a flow has begun. -/
def unsent (f : Flow) : List Token := plain (f.reply.drop f.replyPos) ++ unsentFrame f

/-- Nothing was sent on this connection, a flow goes on sending, or nothing more is sent. -/
inductive TxStatus where
  | silent
  | sending (f : Flow)
  | over

/-- After the end of an attempt a flow only completes a control message. -/
def Flow.txStatus (attemptStop : Bool) (f : Flow) : TxStatus :=
  if f.phase = .dead then .over
  else if f.phase = .control ∧ f.isLocal = false then .silent
  else if (if f.replyPos < f.reply.length then f.closeRequested else attemptStop) then .over
  else .sending f

def Endpoint.txStatus (e : Endpoint) : TxStatus :=
  if e.peer.awaiting then .silent
  else match e.bound with
    | none => .over
    | some f => f.txStatus e.peer.attemptStop

/-- How the bytes to come and the messages on a stream fit its sender. -/
def TxStatus.Fits (ctl : Bool) (R : List Token) (Q : List Msg) : TxStatus → Prop
  | .silent => Q = [] ∧ ctl = true
  | .sending f => R = unsent f ∧ (ctl = true → Q ≠ []) ∧
      (f.phase = .control → ∀ m ∈ Q, m.IsCtl) ∧
      (f.phase = .active → f.reply.length ≤ f.replyPos)
  | .over => True

/-- At most one control message, and only where the receiver expects it. -/
def Shape (ctl : Bool) : List Msg → Prop
  | [] => True
  | m :: Q => (m.IsCtl ↔ ctl = true) ∧ ∀ m ∈ Q, ¬ m.IsCtl

/-- The stream from `x` to `y`: the bytes `T` in transit, the bytes `R` the sender owes, the rest
`bs` of the payload being read, the messages `Q` after it. -/
structure Framing (x y : Endpoint) (pos : RxPos) (T R : List Token) (bs : List UInt8)
    (Q : List Msg) : Prop where
  bytes : T.map Prod.fst = y.peer.inbox ++ x.peer.outbox
  backed : ∀ t ∈ T, Backed x.flow.sockRead x.flow.sentMax t
  left : bs.length = pos.left
  framed : plain pos.pre ++ (T ++ R) = located pos.off bs ++ encAll Q
  shape : Shape pos.ctl Q
  ok : ∀ m ∈ Q, m.Ok x.peer.isServer x.flow
  fits : x.txStatus.Fits pos.ctl R Q

/-- The stream from `x` to `y`, as long as `y` reads it. -/
def Wire (x y : Endpoint) : Prop :=
  ∀ pos, y.rxAt = some pos → ∃ T R bs Q, Framing x y pos T R bs Q

/-! ### Facts about one end -/

/-- What the functions of a retained flow keep. -/
structure FlowOk (f : Flow) : Prop where
  alive : f.phase ≠ .dead → f.fd = true
  released : f.fd = false → f.tx = [] ∧ f.rx = []
  tx : f.fd = true → f.tx = f.sockRead.drop f.txBase ∧ f.txBase ≤ f.sockRead.length ∧
    f.sockRead.length ≤ uint64Max
  final : f.fd = true → f.txFinal = if f.socketEof then f.sockRead.length else 0
  commit : f.fd = true → f.rxCommit = f.sockWritten.length
  next : f.fd = true → f.rxPos ≤ f.rx.length ∧ f.rxNext = f.rxCommit + (f.rx.length - f.rxPos)
  sent : f.sentMax ≤ f.sockRead.length ∧ f.sentMax ≤ uint64Max
  shut : f.sockShut = f.rxFinApplied
  out : ∀ k, f.outKind = some k → f.outFrame.length = frameHeader ∧
    (k = .data → f.outOffset ≤ f.outEnd ∧ f.outEnd ≤ f.sockRead.length)
  quiet : f.phase = .control ∨ f.phase = .reply ∨ f.suspended = true → f.outKind = none
  idle : f.phase = .control ∨ f.suspended = true → f.inFrame = []
  setup : f.phase ≠ .resolving ∧ f.phase ≠ .connecting
  pending : f.pendingOpen = false

variable {f f' : Flow} {x y : Endpoint}

lemma FlowOk.txNext (h : FlowOk f) (hfd : f.fd = true) : mTxNext f = f.sockRead.length := by
  obtain ⟨htx, hbase, -⟩ := h.tx hfd
  rw [mTxNext, htx, List.length_drop]
  omega

/-- Where a flow is in the control message it reads. -/
def ControlOk (f : Flow) : Prop :=
  f.phase = .control → (f.control.length < controlHeader ∧ f.controlNeed = controlHeader) ∨
    (controlHeader ≤ f.control.length ∧ f.control.length ≤ f.controlNeed ∧
      f.controlNeed = controlHeader + field f.control 6 2)

/-- An incoming flow reads a `RESUME` or refuses it. -/
structure IncomingOk (f : Flow) : Prop where
  fd : f.fd = false
  notLocal : f.isLocal = false
  out : f.outKind = none
  frame : f.inFrame = []
  control : ControlOk f
  phase : f.phase = .control ∧ f.reply = [] ∨
    f.phase = .reply ∧ f.rejectAfterReply = true ∨ f.phase = .dead

structure EndOk (e : Endpoint) : Prop where
  flow : FlowOk e.flow
  control : ControlOk e.flow
  incoming : ∀ f ∈ e.incoming, IncomingOk f
  role : e.flow.isLocal = !e.peer.isServer
  brokerOnly : e.peer.isServer = false → e.incoming = none
  clientOnly : e.flow.phase = .control → e.flow.isLocal = true
  awaiting : e.peer.awaiting = true → e.bound = none
  exclusive : e.flow.stream = true → ∀ f ∈ e.incoming, f.stream = false
  detached : e.peer.detached = true → e.bound = none ∧ e.peer.awaiting = false
  unready : e.peer.conn = true → e.peer.detached = false → e.peer.ready = false →
    e.peer.attemptStop = false → e.peer.awaiting = true

/-! ### One direction, both directions -/

/-- What `g` delivered or buffered is a copy of what `f` read and sent. -/
structure Copied (f g : Flow) : Prop where
  copy : g.sockWritten ++ g.rx.drop g.rxPos <+: f.sockRead
  sent : (g.sockWritten ++ g.rx.drop g.rxPos).length ≤ f.sentMax
  fin : g.rxFin = true → f.socketEof = true ∧ g.rxFinal = f.sockRead.length
  shut : g.sockShut = true → f.socketEof = true ∧ g.sockWritten = f.sockRead

/-- The direction from `x` to `y`. -/
structure Dir (x y : Endpoint) : Prop where
  base : x.flow.fd = true → x.flow.txBase ≤ y.flow.sockWritten.length
  data : Copied x.flow y.flow
  wire : Wire x y

/-- **The invariant** of a link, stated for its ends in either order. -/
structure Inv (x y : Endpoint) : Prop where
  left : EndOk x
  right : EndOk y
  forth : Dir x y
  back : Dir y x
  roles : x.peer.isServer = !y.peer.isServer

/-- The invariant is the same from either end. -/
lemma Inv.symm (h : Inv x y) : Inv y x :=
  ⟨h.right, h.left, h.back, h.forth, by rw [h.roles, Bool.not_not]⟩

/-! ### Histories grow -/

/-- The histories of `f'` continue those of `f`. -/
structure Grows (f f' : Flow) : Prop where
  read : f.sockRead <+: f'.sockRead
  eof : f.socketEof = true → f'.socketEof = true ∧ f'.sockRead = f.sockRead
  written : f.sockWritten.length ≤ f'.sockWritten.length
  sent : f.sentMax ≤ f'.sentMax

lemma Grows.of_eq (hread : f'.sockRead = f.sockRead)
    (heof : f'.socketEof = f.socketEof) (hwritten : f'.sockWritten = f.sockWritten)
    (hsent : f'.sentMax = f.sentMax) : Grows f f' :=
  ⟨hread ▸ List.prefix_rfl, fun h => ⟨heof ▸ h, hread⟩, hwritten ▸ le_rfl, hsent ▸ le_rfl⟩

/-- A snapshot stays true when histories grow. -/
lemma SnapOk.grows {s : Snapshot} (hg : Grows f f') (h : SnapOk f s) : SnapOk f' s := by
  intro hs
  obtain ⟨hd, he⟩ := h hs
  refine ⟨hd.trans hg.written, fun heof => ?_⟩
  obtain ⟨h1, h2⟩ := he heof
  obtain ⟨h3, h4⟩ := hg.eof h1
  exact ⟨h3, h4 ▸ h2⟩

/-- A message stays true when histories grow. -/
lemma Msg.Ok.grows {server : Bool} {m : Msg} (hg : Grows f f')
    (h : m.Ok server f) : m.Ok server f' := by
  match m, h with
  | .ctl .., .inl h => exact .inl h
  | .ctl .., .inr ⟨hk, hl, hs⟩ => exact .inr ⟨hk, hl, hs.grows hg⟩
  | .frame .data .., h => exact h
  | .frame .ack .., ⟨hp, hf, ho⟩ => exact ⟨hp, hf, ho.trans hg.written⟩
  | .frame .fin .., ⟨hp, hf, hm, he, ho⟩ =>
    obtain ⟨h1, h2⟩ := hg.eof he
    exact ⟨hp, hf, hm, h1, h2 ▸ ho⟩

lemma Wire.sender {x' : Endpoint} (h : Wire x y) (hg : Grows x.flow x'.flow)
    (hbox : x'.peer.outbox = x.peer.outbox) (hrole : x'.peer.isServer = x.peer.isServer)
    (hfits : y.rxAt ≠ none → ∀ ctl R Q, x.txStatus.Fits ctl R Q → x'.txStatus.Fits ctl R Q) :
    Wire x' y := by
  intro pos hpos
  obtain ⟨T, R, bs, Q, hf⟩ := h pos hpos
  exact ⟨T, R, bs, Q, hbox ▸ hf.bytes, fun t ht => (hf.backed t ht).mono hg.read hg.sent,
    hf.left, hf.framed, hf.shape, fun m hm => hrole ▸ (hf.ok m hm).grows hg,
    hfits (by simp [hpos]) _ _ _ hf.fits⟩

lemma Wire.receiver {y' : Endpoint} (h : Wire x y) (hbox : y'.peer.inbox = y.peer.inbox)
    (hpos : y'.rxAt = none ∨ y'.rxAt = y.rxAt) : Wire x y' := by
  intro pos hpos'
  rcases hpos with hnone | hsame
  · simp [hnone] at hpos'
  · obtain ⟨T, R, bs, Q, hf⟩ := h pos (hsame ▸ hpos')
    exact ⟨T, R, bs, Q, hbox ▸ hf.bytes, hf.backed, hf.left, hf.framed, hf.shape, hf.ok, hf.fits⟩

lemma Copied.source {g : Flow} (h : Copied f g) (hg : Grows f f') : Copied f' g where
  copy := h.copy.trans hg.read
  sent := h.sent.trans hg.sent
  fin hfin := by
    obtain ⟨he, hf⟩ := h.fin hfin
    obtain ⟨he', hr⟩ := hg.eof he
    exact ⟨he', hr ▸ hf⟩
  shut hshut := by
    obtain ⟨he, hf⟩ := h.shut hshut
    obtain ⟨he', hr⟩ := hg.eof he
    exact ⟨he', hr ▸ hf⟩

lemma Copied.target {g g' : Flow} (h : Copied f g) (hw : g'.sockWritten = g.sockWritten)
    (hrx : g'.rx.drop g'.rxPos <+: g.rx.drop g.rxPos) (hf : g'.rxFin = g.rxFin)
    (hff : g'.rxFinal = g.rxFinal) (hs : g'.sockShut = g.sockShut) : Copied f g' where
  copy := by
    rw [hw]
    exact ((List.prefix_append_right_inj _).mpr hrx).trans h.copy
  sent := by
    have := hrx.length_le
    have := h.sent
    simp only [hw, List.length_append] at *
    omega
  fin := by simpa only [hf, hff] using h.fin
  shut := by simpa only [hs, hw] using h.shut

lemma Inv.move {x' : Endpoint} (h : Inv x y) (hend : EndOk x')
    (hrole : x'.peer.isServer = x.peer.isServer) (hg : Grows x.flow x'.flow)
    (hbase : x'.flow.fd = true → x'.flow.txBase ≤ y.flow.sockWritten.length)
    (hdata : Copied y.flow x'.flow) (hout : Wire x' y) (hin : Wire y x') : Inv x' y where
  left := hend
  right := h.right
  forth := ⟨hbase, h.forth.data.source hg, hout⟩
  back := ⟨fun hfd => (h.back.base hfd).trans hg.written, hdata, hin⟩
  roles := hrole ▸ h.roles

end OhecoBroker.Mapping
