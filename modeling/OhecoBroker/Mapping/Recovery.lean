/-
Control messages and recovery: how a flow leaves one stream and is bound to the next.

* `mReplyFlush`, `mAck`: control messages out;
* `mFind`, `mHeaderCheck`, `mControlDone`, `mControlRead`, `mStreamRead`: and in;
* `resumable`, `rejectResume`, `rebind`, `mV2ControlDone`: `RESUME` and `RESUME_ACK`;
* `suspendFlow`, `readyFlow`, `markReady`: the end of an attempt, and the next one;
* `recoveryFlow`: expired grace and requested closes.
-/
import OhecoBroker.Mapping.Delivery

namespace OhecoBroker.Mapping

open Lib

/-! ### Control messages out -/

/-- The rest of `reply`; the flag says whether all of it is out. -/
def mReplySend (s : Side) (r : SendResult) : Side × Bool :=
  match xqcStreamSend s (s.flow.reply.drop s.flow.replyPos) r with
  | (s, .again) => (s, false)
  | (s, .error) =>
    if s.flow.wireVersion = 2 ∧ s.flow.protocol = protoTcp then (s.transportFail, false)
    else (s.abort, false)
  | (s, .sent n) =>
    if s.flow.stream = false ∨ s.flow.closeRequested = true then (s, false)
    else
      let f := { s.flow with replyPos := s.flow.replyPos + n }
      ({ s with flow := f }, decide (f.reply.length ≤ f.replyPos))

/-- `m_reply_flush`, but for the proof stream. -/
def mReplyFlush (s : Side) (r : SendResult) : Side :=
  if s.flow.stream = false ∨ s.flow.closeRequested = true ∨ s.flow.phase = .dead ∨
      s.flow.reply = [] then s
  else
    let (s, flushed) :=
      if s.flow.replyPos < s.flow.reply.length then mReplySend s r else (s, true)
    if flushed = true ∧ s.flow.phase = .reply then
      if s.flow.rejectAfterReply then s.abort
      else { s with flow := { s.flow with acked := true, phase := .active } }
    else s

/-- `m_ack`: the answer to `OPEN`. -/
def mAck (f : Flow) (code : ℤ) : Flow :=
  { f with
    reply := mHeader .ack f.protocol 4 f.id ++ beBytes 4 code.natAbs
    replyPos := 0, phase := .reply, rejectAfterReply := code ≠ 0 }

/-! ### Control messages in -/

/-- `m_find` among the flows of a peer. -/
def mFind (fs : List Flow) (id : ℕ) : Option Flow :=
  fs.find? fun f => f.transient = false ∧ f.phase ≠ .dead ∧ f.id.toNat = id

def mDataFlowCount (fs : List Flow) : ℕ :=
  fs.countP fun f => f.transient = false ∧ f.phase ≠ .dead

def mLimit (configured default hard : ℕ) : ℕ :=
  if configured = 0 then default else min configured hard

/-- `m_header_check`, but for the proof stream; `fs` are the other flows. -/
def mHeaderCheck (p : Peer) (fs : List Flow) (f : Flow) : Option Flow :=
  let v := f.control
  let size := field v 6 2
  let kind := field v 4 1
  let protocol := field v 5 1
  let id := field v 8 8
  if v.take 4 ≠ magic1 ∨ maxHost + 2 < size then none
  else if f.isLocal then
    let expected := if f.waitingResume then ControlKind.resumeAck else .ack
    let length := if f.waitingResume then resumeSize else 4
    if kind ≠ expected.code ∨ protocol ≠ f.protocol ∨ size ≠ length ∨ id ≠ f.id.toNat then none
    else some { f with controlNeed := controlHeader + size }
  else if p.ready = false ∨ p.proofReady = false ∨
      (kind ≠ ControlKind.open.code ∧ kind ≠ ControlKind.resume.code) ∨
      (protocol ≠ protoTcp ∧ protocol ≠ protoUdp) ∨ size < 3 then none
  else if id = 0 ∨ id % 2 ≠ (if p.isServer then 1 else 0) then none
  else if kind = ControlKind.resume.code then
    if p.wireVersion ≠ 2 ∨ protocol ≠ protoTcp ∨ size ≠ resumeSize then none
    else some { f with
      id := UInt64.ofNat id, protocol := protocol, wireVersion := p.wireVersion
      controlNeed := controlHeader + size }
  else if (mFind fs id).isSome = true ∨ mLimit p.maxFlows 128 512 ≤ mDataFlowCount fs then none
  else some { f with
    transient := false, id := UInt64.ofNat id, protocol := protocol
    wireVersion := p.wireVersion, controlNeed := controlHeader + size }

/-- The answer that refuses a `RESUME`. -/
def rejectResume (f : Flow) (result : ℤ) : Flow :=
  { f with
    reply := mHeader .resumeAck protoTcp resumeSize f.id ++
      (Snapshot.mk result.natAbs 0 0 0 0 0).bytes
    replyPos := 0, rejectAfterReply := true, phase := .reply }

/-- The condition on which a retained flow takes a `RESUME`. -/
def resumable (p : Peer) (old : Flow) : Prop :=
  old.isLocal = false ∧ old.suspended = true ∧ old.wireVersion = 2 ∧
    old.protocol = protoTcp ∧ old.fd = true ∧ p.now < old.graceDeadlineUs

instance (p : Peer) (old : Flow) : Decidable (resumable p old) :=
  inferInstanceAs (Decidable (_ ∧ _))

/-- Bind the incoming stream to the retained flow, which answers with its snapshot. -/
def rebind (p : Peer) (old : Flow) : Flow :=
  { old with
    stream := true, suspended := false, waitingResume := false, resuming := true
    closeRequested := false, closeSent := false, acked := false, created := p.now
    control := [], controlNeed := controlHeader
    reply := mHeader .resumeAck protoTcp resumeSize old.id ++ mResumeSnapshot old 0
    replyPos := 0, phase := .reply }

/-- `m_v2_control_done`: a `RESUME_ACK` on a local flow, a `RESUME` on an incoming one. The second
component is the retained flow, if it changed. -/
def mV2ControlDone (p : Peer) (fs : List Flow) (f : Flow) : Option (Flow × Option Flow) :=
  let body := f.control.drop controlHeader
  if f.isLocal then
    match mResumeApply f body with
    | (_, false) => none
    | (f, true) => some ({ f with
        waitingResume := false, suspended := false, graceDeadlineUs := 0
        acked := true, phase := .active }, none)
  else
    match mFind fs f.id.toNat with
    | none => some (rejectResume f eClosed, none)
    | some old =>
      if ¬ resumable p old then some (rejectResume f eClosed, none)
      else match mResumeApply old body with
        | (old, false) => some (rejectResume f eProtocol, some old)
        | (old, true) =>
          some ({ f with stream := false, phase := .dead, closeRequested := true },
            some (rebind p old))

def mHostValid (host : List UInt8) : Prop :=
  host ≠ [] ∧ host.length ≤ maxHost ∧ ∀ c ∈ host.map UInt8.toNat,
    (97 ≤ c ∧ c ≤ 122) ∨ (65 ≤ c ∧ c ≤ 90) ∨ (48 ≤ c ∧ c ≤ 57) ∨
      c ∈ [46, 45, 58, 95, 37]

instance (host : List UInt8) : Decidable (mHostValid host) :=
  inferInstanceAs (Decidable (_ ∧ _))

/-- `m_control_done`, but for the proof stream; `rc` is what `m_resolve_start` returns. -/
def mControlDone (p : Peer) (fs : List Flow) (f : Flow) (rc : ℤ) :
    Option (Flow × Option Flow) :=
  let kind := field f.control 4 1
  let body := f.control.drop controlHeader
  if kind = ControlKind.resume.code ∨ kind = ControlKind.resumeAck.code then
    mV2ControlDone p fs f
  else if f.isLocal then
    if body.take 4 ≠ [0, 0, 0, 0] then none
    else some ({ f with acked := true, phase := .active }, none)
  else if field body 0 2 = 0 ∨ ¬ mHostValid (body.drop 2) then none
  else some (if rc = 0 then { f with phase := .resolving } else mAck f rc, none)

/-- Act on a control message, then flush the answer. A stream that ends with the message stays
usable only after a successful answer to a local flow. -/
def mControlFinish (fs : List Flow) (rc : ℤ) (flush : SendResult) (fin : Bool) (s : Side) :
    Side × Option Flow :=
  match mControlDone s.peer fs s.flow rc with
  | none => (s.abort, none)
  | some (f, old) =>
    let s : Side := { s with flow := { f with streamEof := f.streamEof || fin } }
    if fin = true ∧ ¬ (f.isLocal = true ∧ f.protocol = protoTcp ∧ f.acked = true) then
      (s.abort, old)
    else (mReplyFlush s flush, old)

/-- The control loop of `m_stream_read`, with the receives that are left. -/
def mControlRead (fs : List Flow) (rc : ℤ) (flush : SendResult) :
    ℕ → Side → List RecvResult → Side × Option Flow × List RecvResult
  | 0, s, rs => (s, none, rs)
  | n + 1, s, rs =>
    match rs.headD .again with
    | .again => (s, none, rs.tail)
    | .error => (s.abort, none, rs.tail)
    | .data k fin =>
      let want := s.flow.controlNeed - s.flow.control.length
      let bytes := received s.peer k want
      let f := { s.flow with control := s.flow.control ++ bytes }
      let s : Side := ⟨afterReceive s.peer k want, f⟩
      let checked :=
        if f.control.length = controlHeader ∧ f.controlNeed = controlHeader then
          mHeaderCheck s.peer fs f
        else some f
      match checked with
      | none => (s.abort, none, rs.tail)
      | some f =>
        let s := { s with flow := f }
        if f.control.length = f.controlNeed then
          let (s, old) := mControlFinish fs rc flush fin s
          (s, old, rs.tail)
        else if fin then (s.abort, none, rs.tail)
        else if bytes = [] then (s, none, rs.tail)
        else mControlRead fs rc flush n s rs.tail

/-- `m_stream_read` on a version 2 TCP flow: two passes over a control message, then frames. -/
def mStreamRead (fs : List Flow) (rc : ℤ) (flush : SendResult) (s : Side)
    (rs : List RecvResult) : Side × Option Flow :=
  if s.flow.stream = false ∨ s.flow.phase = .dead ∨ s.flow.closeRequested = true then (s, none)
  else
    let (s, old, rs) :=
      if s.flow.phase = .control then mControlRead fs rc flush 2 s rs else (s, none, rs)
    if s.flow.phase = .active ∧ s.flow.protocol = protoTcp ∧ s.flow.wireVersion = 2 then
      (mV2Read s rs, old)
    else (s, old)

/-! ### The two ends of an attempt -/

/-- What `ob_mapping_transport_suspend` retains. -/
def keeps (preserveTcp : Bool) (f : Flow) : Prop :=
  f.transient = false ∧ f.protocol = protoTcp ∧ f.fd = true ∧
    (f.isLocal = false ∨ f.map.isSome = true) ∧ f.rejectAfterReply = false ∧
    (f.pendingOpen = true ∨ (preserveTcp = true ∧ f.wireVersion = 2 ∧
      (f.isLocal = true ∨ f.acked = true ∨ f.phase = .reply ∨ f.suspended = true ∨
        f.resuming = true)))

instance (preserveTcp : Bool) (f : Flow) : Decidable (keeps preserveTcp f) :=
  inferInstanceAs (Decidable (_ ∧ _))

/-- One flow of `ob_mapping_transport_suspend`. -/
def suspendFlow (preserveTcp : Bool) (deadlineUs : ℕ) (f : Flow) : Flow :=
  let f := { f with stream := false }
  if ¬ keeps preserveTcp f then
    { f with phase := .dead, closeRequested := true, fd := false, tx := [], rx := [] }
  else { f with
    suspended := true, waitingResume := false, resuming := false
    closeRequested := false, closeSent := false, phase := .active
    graceDeadlineUs :=
      if f.graceDeadlineUs = 0 ∨ deadlineUs < f.graceDeadlineUs then deadlineUs
      else f.graceDeadlineUs
    rx := [], rxPos := 0, rxNext := f.rxCommit
    inFrame := [], inSize := 0, inPos := 0, outPos := 0, outKind := none
    txPos := 0, sentFin := f.txFinAcked
    control := [], controlNeed := controlHeader, reply := [], replyPos := 0 }

def suspendDeadline (p : Peer) (deadlineUs : ℕ) : ℕ :=
  if deadlineUs = 0 then p.now + p.flowGraceMs * 1000 else deadlineUs

/-- `m_stream_open`; `created` says whether the transport creates the stream. -/
def mStreamOpen (s : Side) (created : Bool) : Option Side :=
  if s.peer.conn = false ∨ s.peer.stop = true ∨ s.peer.attemptStop = true ∨ created = false then
    none
  else some ⟨{ s.peer with awaiting := false }, { s.flow with stream := true }⟩

/-- The `RESUME` that `m_resume_open` sends. -/
def resumeRequest (p : Peer) (f : Flow) : Flow :=
  { f with
    waitingResume := true, phase := .control, created := p.now
    control := [], controlNeed := controlHeader, replyPos := 0
    acked := false, closeSent := false
    reply := mHeader .resume protoTcp resumeSize f.id ++ mResumeSnapshot f 0 }

/-- `m_resume_open`; the second component is whether it returns `0`. -/
def mResumeOpen (s : Side) (created : Bool) (flush : SendResult) : Side × Bool :=
  let s := { s with flow := resumeRequest s.peer s.flow }
  match mStreamOpen s created with
  | none => (s, false)
  | some s => (mReplyFlush s flush, true)

/-- The `OPEN` that `m_pending_open` sends. -/
def openRequest (p : Peer) (target : Target) (f : Flow) : Flow :=
  { f with
    wireVersion := p.wireVersion, pendingOpen := false, suspended := false
    graceDeadlineUs := 0, phase := .control, created := p.now
    control := [], controlNeed := controlHeader, replyPos := 0
    reply := mHeader .open f.protocol (target.host.length + 2) f.id ++
      beBytes 2 target.port ++ target.host }

/-- `m_pending_open`; the second component is whether it returns `0`. -/
def mPendingOpen (s : Side) (created : Bool) (flush : SendResult) : Side × Bool :=
  match s.flow.map with
  | none => (s, false)
  | some target =>
    let s := { s with flow := openRequest s.peer target s.flow }
    match mStreamOpen s created with
    | none => (s, false)
    | some s => (mReplyFlush s flush, true)

/-- One flow of `ob_mapping_transport_ready`. -/
def readyFlow (s : Side) (created : Bool) (flush : SendResult) : Side :=
  let failUnless (r : Side × Bool) : Side := if r.2 then r.1 else r.1.transportFail
  if s.flow.suspended = false ∨ s.flow.phase = .dead then s
  else if s.flow.graceDeadlineUs ≤ s.peer.now ∨
      (s.flow.isLocal = true ∧ s.flow.map = none) then s.abort
  else if s.flow.pendingOpen then failUnless (mPendingOpen s created flush)
  else if s.peer.wireVersion ≠ 2 ∨ s.peer.resumeContextAvailable = false then s.abort
  else if s.flow.isLocal then failUnless (mResumeOpen s created flush)
  else s

/-- `ob_peer_mark_ready`. -/
def markReady (s : Side) (created : Bool) (flush : SendResult) : Side :=
  if s.peer.ready = true ∨ s.peer.stop = true ∨ s.peer.attemptStop = true then s
  else
    let s := readyFlow { s with peer := { s.peer with ready := true, proofReady := true } }
      created flush
    if s.peer.stop = true ∨ s.peer.attemptStop = true then s
    else { s with peer := { s.peer with everReady := true, recoveryDeadlineUs := 0 } }

/-- One flow of `ob_mapping_recovery_tick`. -/
def recoveryFlow (p : Peer) (f : Flow) : Flow :=
  if ((f.suspended = true ∨ f.resuming = true) ∧ f.graceDeadlineUs ≤ p.now) ∨
      f.closeRequested = true then mAbort f
  else f

end OhecoBroker.Mapping
