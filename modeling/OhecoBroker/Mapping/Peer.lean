/-
What a flow shares with its peer: the attempt flags of `ob_remote_peer`, the QUIC stream of the
current attempt and the callbacks the transport may run.

* `Peer`, `Side`: the peer, and a flow with its peer;
* `peerFail`, `peerTransportFail`, `mAbort`: how a handle, an attempt and a flow end;
* `Callback`, `callbacks`: the notifications;
* `xqcStreamSend`, `received`: the stream calls, their results chosen by the environment.
-/
import OhecoBroker.Mapping.Flow

namespace OhecoBroker.Mapping

open Lib

/-- What the mapping code reads of `ob_remote_peer`; `inbox` and `outbox` are the two directions
of the flow stream of the attempt, `awaiting` says that this end has not bound it yet. -/
structure Peer where
  isServer : Bool
  managed : Bool := true
  stop : Bool := false
  attemptStop : Bool := false
  ready : Bool := false
  proofReady : Bool := false
  everReady : Bool := false
  conn : Bool := false
  detached : Bool := true
  awaiting : Bool := false
  resumeContextAvailable : Bool := false
  wireVersion : ℕ := 2
  maxFlows : ℕ := 0
  flowGraceMs : ℕ := 0
  recoveryDeadlineUs : ℕ := 0
  now : ℕ := 0
  inbox : List UInt8 := []
  outbox : List UInt8 := []
  deriving DecidableEq

/-- A flow with its peer. -/
structure Side where
  peer : Peer
  flow : Flow
  deriving DecidableEq

/-- `ob_peer_fail_locked`: the handle ends. -/
def peerFail (p : Peer) : Peer := { p with stop := true, attemptStop := true }

/-- `ob_peer_transport_fail_locked`: the attempt ends. -/
def peerTransportFail (p : Peer) : Peer :=
  if p.stop then p
  else if p.managed = false then peerFail p
  else { p with
    ready := false, proofReady := false, attemptStop := true,
    recoveryDeadlineUs :=
      if p.everReady = true ∧ p.recoveryDeadlineUs = 0 then p.now + p.flowGraceMs * 1000
      else p.recoveryDeadlineUs }

/-- `m_abort`: the flow dies and gives back its socket and buffers. -/
def mAbort (f : Flow) : Flow :=
  { f with phase := .dead, fd := false, tx := [], rx := [],
           closeSent := f.closeSent || f.stream }

def Side.abort (s : Side) : Side := { s with flow := mAbort s.flow }

/-- `m_fail` with a protocol or limit error. -/
def Side.fail (s : Side) : Side := { s with peer := peerFail s.peer }

/-- `m_fail` with a transport error. -/
def Side.transportFail (s : Side) : Side := { s with peer := peerTransportFail s.peer }

/-! ### Callbacks of the transport -/

/-- `conn_closing`, `conn_close`, `m_close` and `m_reset`. -/
inductive Callback where
  | connClosing | connClose | streamClose | streamReset
  deriving DecidableEq

/-- `m_close`: the flow is to be closed unless the attempt or the stream ended before. -/
def mClose (s : Side) : Side :=
  if s.flow.stream = false then s
  else
    let f := { s.flow with stream := false }
    if s.peer.attemptStop = true then { s with flow := f }
    else if f.protocol = protoTcp ∧ f.phase = .active ∧ f.streamEof = true ∧
        f.sentFin = true ∧ f.closeRequested = false ∧ s.peer.stop = false then
      { s with flow := f }
    else { s with flow := { f with closeRequested := true } }

/-- `m_reset`: the peer reset the stream. -/
def mReset (s : Side) : Side :=
  if s.flow.stream = false ∨ s.peer.attemptStop = true then s
  else { s with flow := { s.flow with closeRequested := true } }

def Peer.connClosing (p : Peer) : Peer :=
  if p.conn = true ∧ p.stop = false then peerTransportFail p else p

def Peer.connClose (p : Peer) : Peer :=
  if p.conn = false then p
  else
    let p := { p with conn := false }
    if p.stop = false then peerTransportFail p else p

def Callback.call (s : Side) : Callback → Side
  | .connClosing => { s with peer := s.peer.connClosing }
  | .connClose => { s with peer := s.peer.connClose }
  | .streamClose => mClose s
  | .streamReset => mReset s

def callbacks (s : Side) (cs : List Callback) : Side := cs.foldl Callback.call s

/-! ### Stream calls -/

/-- What `xqc_stream_send` returns. -/
inductive SendRet where
  | again | error | sent (n : ℕ)
  deriving DecidableEq

/-- The value returned, and the notifications run inside the call. -/
structure SendResult where
  ret : SendRet := .again
  callbacks : List Callback := []
  deriving DecidableEq

/-- What `xqc_stream_recv` returns, and whether the stream ended there. -/
inductive RecvResult where
  | again | error | data (n : ℕ) (fin : Bool)
  deriving DecidableEq

/-- `xqc_stream_send` of `bytes`; the notifications run before it returns. -/
def xqcStreamSend (s : Side) (bytes : List UInt8) (r : SendResult) : Side × SendRet :=
  match r.ret with
  | .sent n =>
    let accepted := bytes.take n
    let s := { s with peer := { s.peer with outbox := s.peer.outbox ++ accepted } }
    (callbacks s r.callbacks, .sent accepted.length)
  | ret => (callbacks s r.callbacks, ret)

def received (p : Peer) (n want : ℕ) : List UInt8 := p.inbox.take (min n want)

def afterReceive (p : Peer) (n want : ℕ) : Peer :=
  { p with inbox := p.inbox.drop (min n want) }

end OhecoBroker.Mapping
