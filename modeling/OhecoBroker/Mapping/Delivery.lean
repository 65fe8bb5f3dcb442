/-
The delivery functions of `mapping_v2.inc`, on a flow and its peer.  The loops and the tail call
are recursions on a count the source fixes; the outcome of every call to the transport or the
socket is an argument.

* `mV2Frame`, `mV2Next`, `mV2WriteFrame`, `mV2Write`: frames go out;
* `mV2Header`, `mV2ReadHeader`, `mV2ReadPayload`, `mV2ReadLoop`, `mV2Read`: frames come in;
* `mV2Tick`: socket writes, half-close, socket reads.
-/
import OhecoBroker.Mapping.Peer

namespace OhecoBroker.Mapping

open Lib

/-! ### Sending: `m_v2_write` -/

/-- `m_v2_frame`: begin a frame. -/
def mV2Frame (f : Flow) (kind : FrameKind) (flags length offset : ℕ) : Flow :=
  { f with
    outFrame := v2HeaderBytes kind flags length f.id offset
    outKind := some kind, outFlags := flags, outPos := 0
    outOffset := offset, outEnd := offset + length }

/-- The guard of `m_v2_write`. -/
def canWrite (s : Side) : Prop :=
  s.flow.stream = true ∧ s.flow.phase = .active ∧ s.flow.acked = true ∧
    s.flow.suspended = false ∧ s.flow.closeRequested = false ∧ s.peer.attemptStop = false

instance (s : Side) : Decidable (canWrite s) := inferInstanceAs (Decidable (_ ∧ _))

/-- Choose the next frame: an acknowledgement before data, data before the final offset. -/
def mV2Next (f : Flow) : Flow :=
  if f.outKind.isSome then f
  else if f.ackDirty then mV2Frame f .ack (if f.rxFinApplied then 1 else 0) 0 f.rxCommit
  else if f.txPos < f.tx.length then
    mV2Frame f .data 0 (min (f.tx.length - f.txPos) ioBudget) (f.txBase + f.txPos)
  else if f.socketEof = true ∧ f.sentFin = false then mV2Frame f .fin 0 0 f.txFinal
  else f

/-- The rest of the frame header; the flag says whether the header is out. -/
def mV2WriteHeader (s : Side) (r : SendResult) : Side × Bool :=
  match xqcStreamSend s (s.flow.outFrame.drop s.flow.outPos) r with
  | (s, .again) => (s, false)
  | (s, .error) => (s.transportFail, false)
  | (s, .sent n) =>
    if s.flow.stream = false ∨ s.peer.attemptStop = true then (s, false)
    else
      let f := { s.flow with outPos := s.flow.outPos + n }
      ({ s with flow := f }, decide (frameHeader ≤ f.outPos))

/-- The rest of the payload. When the attempt ends inside the call nothing is counted. -/
def mV2WritePayload (s : Side) (r : SendResult) : Side × Bool :=
  let f := s.flow
  if f.outOffset < f.txBase ∨ mTxNext f < f.outEnd then (s.fail, false)
  else
    let payload := (f.tx.drop (f.outOffset - f.txBase)).take (f.outEnd - f.outOffset)
    match xqcStreamSend s payload r with
    | (s, .again) => (s, false)
    | (s, .error) => (s.transportFail, false)
    | (s, .sent n) =>
      let s := { s with flow :=
        { s.flow with sentMax := max s.flow.sentMax (s.flow.outOffset + n) } }
      if s.flow.stream = false ∨ s.peer.attemptStop = true then (s, false)
      else
        let f := s.flow
        let sent := f.outOffset + n
        let f := { f with
          outOffset := sent, txPos := sent - f.txBase, txSentHigh := max f.txSentHigh sent }
        ({ s with flow := f }, decide (f.outEnd ≤ f.outOffset))

/-- The end of a frame; the flag says whether payload follows an acknowledgement. -/
def mV2Complete (f : Flow) : Flow × Bool :=
  let current := f.outOffset = f.rxCommit ∧ f.outFlags = (if f.rxFinApplied then 1 else 0)
  let dirty := if f.outKind = some .ack ∧ current then false else f.ackDirty
  ({ f with
      ackDirty := dirty, sentFin := f.sentFin || f.outKind == some .fin
      outKind := none, outPos := 0 },
    f.outKind = some .ack ∧ dirty = false ∧ f.txPos < f.tx.length)

/-- The results of the sends of one frame. -/
structure FrameSends where
  header : SendResult := {}
  payload : SendResult := {}
  deriving DecidableEq

/-- One pass of `m_v2_write` after its guard. -/
def mV2WriteFrame (s : Side) (r : FrameSends) : Side × Bool :=
  let (s, go) :=
    if s.flow.outPos < frameHeader then mV2WriteHeader s r.header else (s, true)
  if go = false then (s, false)
  else
    let (s, go) :=
      if s.flow.outKind = some .data ∧ s.flow.outOffset < s.flow.outEnd then
        mV2WritePayload s r.payload
      else (s, true)
    if go = false then (s, false)
    else
      let (f, more) := mV2Complete s.flow
      ({ s with flow := f }, more)

/-- `m_v2_write` with at most `n` nested calls. -/
def mV2WriteCalls : ℕ → Side → List FrameSends → Side
  | 0, s, _ => s
  | n + 1, s, rs =>
    if ¬ canWrite s then s
    else
      let s := { s with flow := mV2Next s.flow }
      if s.flow.outKind = none then s
      else
        let (s, more) := mV2WriteFrame s (rs.headD {})
        if more then mV2WriteCalls n s rs.tail else s

/-- `m_v2_write`: at most one nested call, from an acknowledgement to data. -/
def mV2Write (s : Side) (rs : List FrameSends) : Side := mV2WriteCalls 2 s rs

/-! ### Receiving: `m_v2_header` and `m_v2_read` -/

/-- The first frame after a `RESUME` confirms the new stream. -/
def confirmResume (f : Flow) : Flow :=
  if f.resuming then { f with resuming := false, graceDeadlineUs := 0 } else f

/-- `m_v2_header`: check and enter the frame header; `none` is the return value `-1`. -/
def mV2Header (f : Flow) : Option Flow :=
  let h := f.inFrame
  let flags := field h 5 1
  let size := field h 6 2
  let offset := field h 16 8
  match FrameKind.ofCode (field h 4 1) with
  | none => none
  | some kind =>
    if h.take 4 ≠ magic2 ∨ field h 8 8 ≠ f.id.toNat ∨
        (kind = .data ∧ (size = 0 ∨ ioBudget < size ∨ flags ≠ 0 ∨ uint64Max - size < offset)) ∨
        (kind ≠ .data ∧ size ≠ 0) ∨ (kind = .fin ∧ flags ≠ 0) ∨ (kind = .ack ∧ 1 < flags) then
      none
    else
      let f := { f with
        inKind := kind, inFlags := flags, inSize := size, inOffset := offset, inPos := 0 }
      match kind with
      | .ack => (mV2Ack f offset flags).map confirmResume
      | .fin =>
        if offset ≠ f.rxNext ∨ (f.rxFin = true ∧ offset ≠ f.rxFinal) then none
        else some (confirmResume { f with rxFin := true, rxFinal := offset })
      | .data =>
        if f.rxNext < offset ∨ (f.rxFin = true ∧ f.rxFinal < offset + size) then none
        else some (confirmResume f)

/-- How half a pass ends: return, next pass, or the payload is next. -/
inductive ReadNext where
  | done | loop | payload
  deriving DecidableEq

/-- The first half of a pass: complete the frame header. -/
def mV2ReadHeader (s : Side) : RecvResult → Side × ReadNext
  | .again => (s, .done)
  | .error => (s.abort, .done)
  | .data n fin =>
    let want := frameHeader - s.flow.inFrame.length
    let bytes := received s.peer n want
    let s := { s with peer := afterReceive s.peer n want }
    if fin then (s.abort, .done)
    else
      let f := { s.flow with inFrame := s.flow.inFrame ++ bytes }
      if f.inFrame.length < frameHeader then ({ s with flow := f }, .done)
      else match mV2Header f with
        | none => ({ s with flow := f }.fail.abort, .done)
        | some f =>
          if f.inKind ≠ .data then ({ s with flow := { f with inFrame := [] } }, .loop)
          else ({ s with flow := f }, .payload)

/-- Make room at the end of a full receive buffer. -/
def mV2Compact (f : Flow) : Flow :=
  if 0 < f.rxPos ∧ f.rx.length = streamBuffer then { f with rx := f.rx.drop f.rxPos, rxPos := 0 }
  else f

/-- How many payload bytes half a pass asks for. -/
def mV2Want (f : Flow) : ℕ :=
  let pos := f.inOffset + f.inPos
  let remaining := f.inSize - f.inPos
  if pos = f.rxNext then min remaining (streamBuffer - f.rx.length)
  else
    let boundary := if pos < f.rxCommit then f.rxCommit else f.rxNext
    min (min remaining 512) (boundary - pos)

/-- The end of a pass: count the bytes, close the frame. -/
def mV2Advance (f : Flow) (n : ℕ) : Flow :=
  let f := { f with inPos := f.inPos + n }
  if f.inPos = f.inSize then { f with inFrame := [], inSize := 0, inPos := 0 } else f

/-- The second half of a pass: new bytes are kept, old ones compared or dropped. -/
def mV2ReadPayload (s : Side) (r : RecvResult) : Side × ReadNext :=
  let pos := s.flow.inOffset + s.flow.inPos
  if s.flow.rxNext < pos then (s.fail.abort, .done)
  else
    let fresh := pos = s.flow.rxNext
    let s := if fresh then { s with flow := mV2Compact s.flow } else s
    if fresh ∧ s.flow.rx.length = streamBuffer then (s, .done)
    else match r with
      | .again => (s, .done)
      | .error => (s.abort, .done)
      | .data n fin =>
        let bytes := received s.peer n (mV2Want s.flow)
        let s := { s with peer := afterReceive s.peer n (mV2Want s.flow) }
        let f := s.flow
        if fin then (s.abort, .done)
        else if bytes = [] then (s, .done)
        else if fresh then
          let f := { f with rx := f.rx ++ bytes, rxNext := f.rxNext + bytes.length }
          ({ s with flow := mV2Advance f bytes.length }, .loop)
        else if f.rxCommit ≤ pos ∧
            bytes ≠ (f.rx.drop (f.rxPos + (pos - f.rxCommit))).take bytes.length then
          (s.fail.abort, .done)
        else ({ s with flow := mV2Advance { f with ackDirty := true } bytes.length }, .loop)

/-- The loop of `m_v2_read`, at most `n` passes. -/
def mV2ReadLoop : ℕ → Side → List RecvResult → Side
  | 0, s, _ => s
  | n + 1, s, rs =>
    if s.flow.inFrame.length < frameHeader then
      match mV2ReadHeader s (rs.headD .again) with
      | (s, .done) => s
      | (s, .loop) => mV2ReadLoop n s rs.tail
      | (s, .payload) =>
        match mV2ReadPayload s (rs.tail.headD .again) with
        | (s, .loop) => mV2ReadLoop n s rs.tail.tail
        | (s, _) => s
    else
      match mV2ReadPayload s (rs.headD .again) with
      | (s, .loop) => mV2ReadLoop n s rs.tail
      | (s, _) => s

/-- `m_v2_read`: at most 32 passes. -/
def mV2Read (s : Side) (rs : List RecvResult) : Side :=
  if s.flow.stream = false ∨ s.flow.suspended = true ∨ s.peer.attemptStop = true then s
  else mV2ReadLoop 32 s rs

/-! ### The socket: `m_v2_tick` -/

/-- What `send` on the socket returns. -/
inductive SockSend where
  | again | error | sent (n : ℕ)
  deriving DecidableEq

/-- What `recv` on the socket returns; no bytes are the end of the stream. -/
inductive SockRecv where
  | again | error | data (bytes : List UInt8)
  deriving DecidableEq

/-- The outcomes of the calls of one `m_v2_tick`. -/
structure TickEnv where
  pollError : Bool := false
  pollOut : Bool := false
  pollIn : Bool := false
  send : SockSend := .again
  shutdownFails : Bool := false
  recv : SockRecv := .again
  writes : List FrameSends := []
  deriving DecidableEq

/-- The guard of `m_v2_tick`. -/
def canTick (s : Side) : Prop :=
  s.flow.phase = .active ∧ s.flow.acked = true ∧ s.flow.fd = true ∧
    s.flow.suspended = false ∧ s.peer.ready = true ∧ s.peer.proofReady = true ∧
    s.peer.attemptStop = false

instance (s : Side) : Decidable (canTick s) := inferInstanceAs (Decidable (_ ∧ _))

/-- A receive buffer that is all written is emptied. -/
def drained (f : Flow) : Flow :=
  if f.rxPos = f.rx.length then { f with rx := [], rxPos := 0 } else f

/-- The socket write: `none` when it fails. -/
def mV2TickSend (f : Flow) (env : TickEnv) : Option Flow :=
  if env.pollOut = true ∧ f.rxPos < f.rx.length then
    let count := min (f.rx.length - f.rxPos) ioBudget
    match env.send with
    | .error => none
    | .again => some (drained f)
    | .sent 0 => some (drained f)
    | .sent n =>
      let accepted := (f.rx.drop f.rxPos).take (min n count)
      some (drained { f with
        rxPos := f.rxPos + accepted.length, rxCommit := f.rxCommit + accepted.length,
        ackDirty := true, sockWritten := f.sockWritten ++ accepted })
  else some f

/-- The half-close once all is delivered. -/
def mV2TickShut (f : Flow) (env : TickEnv) : Option Flow :=
  if f.rxFin = true ∧ f.rxCommit = f.rxFinal ∧ f.rxFinApplied = false then
    if env.shutdownFails then none
    else some { f with
      rxFinApplied := true, socketShutdown := true, ackDirty := true, sockShut := true }
  else some f

/-- The socket read, and whether the function goes on. -/
def mV2TickRecv (s : Side) (env : TickEnv) : Side × Bool :=
  let f := s.flow
  let room := min (streamBuffer - f.tx.length) ioBudget
  if env.pollIn = true ∧ f.socketEof = false ∧ room ≠ 0 then
    match env.recv with
    | .error => (s.abort, false)
    | .again => (s, true)
    | .data bytes =>
      let bytes := bytes.take room
      let f := { f with sockRead := f.sockRead ++ bytes }
      if bytes = [] then
        ({ s with flow := { f with socketEof := true, txFinal := mTxNext f } }, true)
      else if uint64Max - bytes.length < mTxNext f then ({ s with flow := f }.fail.abort, false)
      else ({ s with flow := { f with tx := f.tx ++ bytes } }, true)
  else (s, true)

/-- Both directions ended and everything was acknowledged. -/
def finished (f : Flow) : Prop :=
  f.socketEof = true ∧ f.rxFinApplied = true ∧ f.txFinAcked = true ∧ f.tx = [] ∧
    f.ackDirty = false ∧ f.outKind = none

instance (f : Flow) : Decidable (finished f) := inferInstanceAs (Decidable (_ ∧ _))

def mV2Tick (s : Side) (env : TickEnv) : Side :=
  if ¬ canTick s then s
  else if env.pollError then s.abort
  else match mV2TickSend s.flow env with
    | none => s.abort
    | some f =>
      match mV2TickShut f env with
      | none => { s with flow := f }.abort
      | some f =>
        match mV2TickRecv { s with flow := f } env with
        | (s, false) => s
        | (s, true) =>
          let s := mV2Write s env.writes
          if finished s.flow then s.abort else s

end OhecoBroker.Mapping
