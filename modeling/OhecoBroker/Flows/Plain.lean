/-
The data functions of a flow that does not deliver by frames: version 1 TCP, and the streams that
carry no payload.

* `mStreamReadPlain`: `m_stream_read` on an active flow;
* `mTcpWritePlain`: `m_tcp_write`, the payload and then the end of the stream;
* `mTcpTickPlain`: `m_tcp_tick`, with the socket calls of `mTcpTickSend`, `mTcpTickShut` and
  `mTcpTickRecv`.
-/
import OhecoBroker.Mapping.Recovery

namespace OhecoBroker.Flows

open Lib
open Mapping

/-- What `xqc_stream_recv` returns. -/
inductive StreamRecv where
  | again | error | data (bytes : List UInt8) (fin : Bool)
  deriving DecidableEq

/-- `m_stream_read`, but for version 2 TCP. -/
def mStreamReadPlain (proof : Bool) (s : Side) (r : StreamRecv) : Side :=
  let f := s.flow
  if f.stream = false ∨ f.phase ≠ .active ∨ f.closeRequested = true ∨ f.streamEof = true ∨
      (proof = false ∧ f.protocol = protoTcp ∧ f.wireVersion = 2) then s
  else if proof = true ∨ f.protocol = protoUdp then
    match r with
    | .again => s
    | .data [] fin =>
      let s := { s with flow := { f with streamEof := fin } }
      if fin = true ∧ proof = false then s.abort else s
    | _ => if proof then s.fail.abort else s.abort
  else
    let f :=
      if f.rxPos = f.rx.length then { f with rx := [], rxPos := 0 }
      else mV2Compact f
    let room := min (streamBuffer - f.rx.length) ioBudget
    if room = 0 then { s with flow := f }
    else match r with
      | .again => { s with flow := f }
      | .error => { s with flow := f }.abort
      | .data bytes fin =>
        { s with flow := { f with rx := f.rx ++ bytes.take room, streamEof := fin } }

/-- The outcomes of the calls of one version 1 `m_tcp_tick`. -/
structure PlainEnv where
  pollError : Bool := false
  pollOut : Bool := false
  pollIn : Bool := false
  send : SockSend := .again
  recv : SockRecv := .again
  data : SendResult := {}
  fin : SendResult := {}
  deriving DecidableEq

/-- The send of payload; the flag says whether `m_tcp_write` goes on. -/
def mTcpWriteData (s : Side) (r : SendResult) : Side × Bool :=
  match xqcStreamSend s ((s.flow.tx.drop s.flow.txPos).take ioBudget) r with
  | (s, .again) => (s, false)
  | (s, .error) => (s.abort, false)
  | (s, .sent n) =>
    if s.flow.stream = false ∨ s.flow.closeRequested = true then (s, false)
    else ({ s with flow := { s.flow with txPos := s.flow.txPos + n } }, true)

/-- The end of the stream. -/
def mTcpWriteFin (s : Side) (r : SendResult) : Side :=
  match xqcStreamSend { s with flow := { s.flow with sentFin := true } } [] r with
  | (s, .again) => { s with flow := { s.flow with sentFin := false } }
  | (s, .error) => { s with flow := { s.flow with sentFin := false } }.abort
  | (s, .sent _) => s

/-- `m_tcp_write` of version 1. -/
def mTcpWritePlain (s : Side) (data fin : SendResult) : Side :=
  if s.flow.stream = false ∨ s.flow.closeRequested = true ∨ s.flow.phase ≠ .active ∨
      s.flow.acked = false then s
  else
    let (s, go) :=
      if s.flow.txPos < s.flow.tx.length then mTcpWriteData s data else (s, true)
    if go = false ∨ s.flow.txPos ≠ s.flow.tx.length then s
    else
      let sent : Side := { s with flow := { s.flow with tx := [], txPos := 0 } }
      if s.flow.socketEof = true ∧ s.flow.sentFin = false ∧ s.flow.stream = true then
        mTcpWriteFin sent fin
      else sent

/-- The socket write: `none` when it fails. -/
def mTcpTickSend (f : Flow) (env : PlainEnv) : Option Flow :=
  if env.pollOut = true ∧ f.rxPos < f.rx.length then
    match env.send with
    | .error => none
    | .again => some f
    | .sent n =>
      let count := min n (min (f.rx.length - f.rxPos) ioBudget)
      some (drained { f with
        rxPos := f.rxPos + count
        sockWritten := f.sockWritten ++ (f.rx.drop f.rxPos).take count })
  else some f

/-- The socket read: `none` when it fails. -/
def mTcpTickRecv (f : Flow) (env : PlainEnv) : Option Flow :=
  if env.pollIn = true ∧ f.socketEof = false then
    let f :=
      if f.txPos = f.tx.length then { f with tx := [], txPos := 0 }
      else if 0 < f.txPos ∧ f.tx.length = streamBuffer then
        { f with tx := f.tx.drop f.txPos, txPos := 0 }
      else f
    let room := min (streamBuffer - f.tx.length) ioBudget
    if room = 0 then some f
    else match env.recv with
      | .error => none
      | .again => some f
      | .data [] => some { f with socketEof := true }
      | .data bytes => some { f with
          tx := f.tx ++ bytes.take room, sockRead := f.sockRead ++ bytes.take room }
  else some f

/-- The half-close. -/
def mTcpTickShut (f : Flow) : Flow :=
  if f.streamEof = true ∧ f.rxPos = f.rx.length ∧ f.socketShutdown = false then
    { f with socketShutdown := true, sockShut := true }
  else f

/-- `m_tcp_tick` of version 1. -/
def mTcpTickPlain (s : Side) (env : PlainEnv) : Side :=
  if s.flow.phase ≠ .active ∨ s.flow.acked = false ∨ s.flow.fd = false then s
  else if env.pollError then s.abort
  else match mTcpTickSend s.flow env with
    | none => s.abort
    | some f => match mTcpTickRecv (mTcpTickShut f) env with
      | none => { s with flow := mTcpTickShut f }.abort
      | some f =>
        let s := mTcpWritePlain { s with flow := f } env.data env.fin
        let f := s.flow
        if f.streamEof = true ∧ f.socketEof = true ∧ f.sentFin = true ∧
            f.rxPos = f.rx.length ∧ f.fd = true then
          { s with flow := { f with fd := false } }
        else s

end OhecoBroker.Flows
