/-
The control messages of a peer's flows, the two ends of an attempt, and every step a peer can
take.  `ob_mapping_tick` is a sequence of such steps, one or a few for each flow.

* `transportReady`, `markReady`: the connection is ready, and retained flows go on;
* `proofDone`, `proofFlush`: the proof stream;
* `headerCheck`, `controlDone`, `controlRead`: control messages, on the table;
* `transportDetach`, `stopIo`, `cleanup`: what ends all flows;
* `Event`, `Table.step`: one step, with the outcomes of its calls.
-/
import OhecoBroker.Flows.Plain
import OhecoBroker.Flows.Table

namespace OhecoBroker.Flows

open Lib
open Mapping

namespace Table

/-! ### The connection is ready -/

/-- Whether a stream is created, and the send of its control message. -/
abbrev Reopen := Bool × SendResult

/-- `ob_mapping_transport_ready` from flow `k` on. -/
def transportReady (z : Sizes) : ℕ → ℕ → Table → List Reopen → Table
  | 0, _, t, _ => t
  | n + 1, k, t, os =>
    match t.flows[k]? with
    | none => t
    | some r =>
      let o := os.headD (true, {})
      let t := if r.proof then t else t.onFlow z k (readyFlow · o.1 o.2)
      if t.peer.stop = true ∨ t.peer.attemptStop = true then t
      else transportReady z n (k + 1) t os.tail

/-- `ob_peer_mark_ready`. -/
def markReady (z : Sizes) (t : Table) (os : List Reopen) : Table :=
  if t.peer.ready = true ∨ t.peer.stop = true ∨ t.peer.attemptStop = true then t
  else
    let t := { t with peer := { t.peer with ready := true, proofReady := true } }
    let t := transportReady z t.flows.length 0 t os
    if t.peer.stop = true ∨ t.peer.attemptStop = true then t
    else { t with peer := { t.peer with everReady := true, recoveryDeadlineUs := 0 } }

/-! ### The proof stream -/

/-- Before the peer is ready, the end of the proof stream ends the handle. -/
def proofEnds (replyReady : Bool) (p : Peer) : Callback → Bool
  | .streamClose => !p.ready && !replyReady && !p.stop
  | .streamReset => !p.ready
  | _ => false

def proofNotify (replyReady : Bool) (s : Side) (c : Callback) : Side :=
  if proofEnds replyReady s.peer c = true ∧ s.flow.stream = true ∧ s.peer.attemptStop = false then
    (c.call s).fail
  else c.call s

def proofSend (replyReady : Bool) (s : Side) (bytes : List UInt8) (r : SendResult) :
    Side × SendRet :=
  let (s, ret) := xqcStreamSend s bytes { r with callbacks := [] }
  (r.callbacks.foldl (proofNotify replyReady) s, ret)

/-- The outcomes of the calls of one control message. -/
structure ControlEnv where
  expected : Option (List UInt8) := none
  answer : Option (List UInt8) := none
  threads : Bool := true
  calloc : Bool := true
  flush : SendResult := {}
  fin : SendResult := {}
  ready : List Reopen := []
  deriving DecidableEq

def proofHeader (f : Flow) : Option Flow :=
  let v := f.control
  if v.take 4 ≠ magic1 ∨ field v 4 1 ≠ ControlKind.proof.code ∨ field v 5 1 ≠ 0 ∨
      field v 6 2 ≠ 32 ∨ field v 8 8 ≠ 0 then none
  else some { f with controlNeed := controlHeader + 32 }

/-- `m_control_done` on the proof stream; `expected` and `answer` are channel proofs. -/
def proofDone (z : Sizes) (t : Table) (k : ℕ) (r : Entry) (env : ControlEnv) : Option Table :=
  if env.expected ≠ some (r.flow.control.drop controlHeader) then none
  else if t.peer.isServer then
    match env.answer with
    | none => none
    | some bytes => some { t.put k t.store { r with
        proofReplyReady := true
        flow := { r.flow with
          reply := mHeader .proof 0 32 0 ++ bytes, replyPos := 0, phase := .reply } } with
        verified := true }
  else
    let t := t.put k t.store { r with
      proofReplyReady := true, flow := { r.flow with phase := .active } }
    some (markReady z { t with verified := true } env.ready)

/-- The message of the proof stream; an error aborts it. -/
def proofReply (r : Entry) (p : Peer) (send : SendResult) : Side × Bool :=
  let s : Side := ⟨p, r.flow⟩
  if r.flow.reply.length ≤ r.flow.replyPos then (s, true)
  else match proofSend r.proofReplyReady s (r.flow.reply.drop r.flow.replyPos) send with
    | (s, .again) => (s, false)
    | (s, .error) => (s.abort, false)
    | (s, .sent n) =>
      if s.flow.stream = false ∨ s.flow.closeRequested = true then (s, false)
      else
        let f := { s.flow with replyPos := s.flow.replyPos + n }
        ({ s with flow := f }, decide (f.reply.length ≤ f.replyPos))

/-- The end of the proof stream. -/
def proofFin (r : Entry) (s : Side) (send : SendResult) : Side × Bool :=
  if s.flow.sentFin then (s, true)
  else match proofSend r.proofReplyReady s [] send with
    | (s, .again) => (s, false)
    | (s, .error) => (s.transportFail.abort, false)
    | (s, .sent _) => ({ s with flow := { s.flow with sentFin := true } }, true)

def proofOut (r : Entry) (p : Peer) (env : ControlEnv) : Side × Bool :=
  match proofReply r p env.flush with
  | (s, false) => (s, false)
  | (s, true) => proofFin r s env.fin

/-- `m_reply_flush` on the proof stream; then a server is ready. -/
def proofFlush (z : Sizes) (t : Table) (k : ℕ) (env : ControlEnv) : Table :=
  match t.flows[k]? with
  | none => t
  | some r =>
    if r.flow.stream = false ∨ r.flow.closeRequested = true ∨ r.flow.phase = .dead ∨
        r.flow.reply = [] then t
    else
      let (s, done) := proofOut r t.peer env
      let u : Table := { t with peer := s.peer }
      let q : Entry := { r with flow := s.flow }
      if s.flow.phase = .dead then u.release z k q
      else if done = true ∧ r.proofReplyReady = true ∧ s.peer.isServer = true then
        markReady z (u.put k u.store { q with flow := { q.flow with phase := .active } }) env.ready
      else u.put k u.store q

/-! ### Control messages -/

/-- `m_header_check`. -/
def headerCheck (t : Table) (k : ℕ) (r : Entry) : Option Table :=
  if r.proof then (proofHeader r.flow).map fun f => t.put k t.store { r with flow := f }
  else match mHeaderCheck t.peer t.data r.flow with
    | none => none
    | some f =>
      let kind := field r.flow.control 4 1
      let t' := t.put k t.store { r with flow := f }
      if r.flow.isLocal then some t'
      else if kind = ControlKind.open.code then
        some { t' with
          opens := t.opens ++ [(r.key, t.peer.ready && t.peer.proofReady && t.verified)] }
      else some { t' with resumes := t.resumes ++ [r.key] }

def findIndex (t : Table) (id : ℕ) : ℕ :=
  t.flows.findIdx fun r => !r.proof && !r.flow.transient && r.flow.phase != .dead &&
    r.flow.id.toNat == id

/-- `m_v2_control_done`. -/
def resumeDone (t : Table) (k : ℕ) (r : Entry) : Option Table :=
  match mV2ControlDone t.peer t.data r.flow with
  | none => none
  | some (f, none) => some (t.put k t.store { r with flow := f })
  | some (f, some g) =>
    let o := t.findIndex r.flow.id.toNat
    match t.flows[o]? with
    | none => none
    | some q =>
      let t' := (t.put o t.store { q with flow := g }).put k t.store { r with flow := f }
      if g.suspended then some t'
      else some { t' with attached := t.attached ++ [(q.flow, t.peer.now)] }

/-- `m_control_done`. -/
def controlDone (z : Sizes) (t : Table) (k : ℕ) (r : Entry) (env : ControlEnv) : Option Table :=
  let kind := field r.flow.control 4 1
  let body := r.flow.control.drop controlHeader
  if r.proof then t.proofDone z k r env
  else if kind = ControlKind.resume.code ∨ kind = ControlKind.resumeAck.code then t.resumeDone k r
  else if r.flow.isLocal then
    if body.take 4 ≠ [0, 0, 0, 0] then none
    else some (t.put k t.store { r with flow := { r.flow with acked := true, phase := .active } })
  else if field body 0 2 = 0 ∨ ¬ mHostValid (body.drop 2) then none
  else
    let (t, rc) := t.mResolveStart z k r (body.drop 2) (field body 0 2) env.threads env.calloc
    if rc = 0 then some t
    else some (t.put k t.store { r with flow := mAck r.flow rc })

/-- `m_reply_flush`. -/
def replyFlush (z : Sizes) (t : Table) (k : ℕ) (env : ControlEnv) : Table :=
  match t.flows[k]? with
  | none => t
  | some r => if r.proof then t.proofFlush z k env else t.onFlow z k (mReplyFlush · env.flush)

/-- A refused message aborts the flow; on the proof stream it ends the handle. -/
def refuse (z : Sizes) (t : Table) (k : ℕ) (r : Entry) : Table :=
  let t := if r.proof then { t with peer := peerFail t.peer } else t
  t.abort z k r

/-- A complete control message. -/
def controlFinish (z : Sizes) (t : Table) (k : ℕ) (r : Entry) (env : ControlEnv) (fin : Bool) :
    Table :=
  match t.controlDone z k r env with
  | none => t.refuse z k r
  | some t =>
    match t.flows[k]? with
    | none => t
    | some r =>
      let r := { r with flow := { r.flow with streamEof := r.flow.streamEof || fin } }
      let t := t.put k t.store r
      if fin = true ∧ r.proof = false ∧
          ¬ (r.flow.isLocal = true ∧ r.flow.protocol = protoTcp ∧ r.flow.acked = true) then
        t.abort z k r
      else t.replyFlush z k env

/-- The control loop of `m_stream_read`. -/
def controlLoop (z : Sizes) (k : ℕ) (env : ControlEnv) : ℕ → Table → List StreamRecv → Table
  | 0, t, _ => t
  | n + 1, t, rs =>
    match t.flows[k]? with
    | none => t
    | some r =>
      match rs.headD .again with
      | .again => t
      | .error => t.abort z k r
      | .data bytes fin =>
        let bytes := bytes.take (r.flow.controlNeed - r.flow.control.length)
        let r := { r with flow := { r.flow with control := r.flow.control ++ bytes } }
        let t := t.put k t.store r
        let checked :=
          if r.flow.control.length = controlHeader ∧ r.flow.controlNeed = controlHeader then
            t.headerCheck k r
          else some t
        match checked with
        | none => t.refuse z k r
        | some t =>
          match t.flows[k]? with
          | none => t
          | some r =>
            if r.flow.control.length = r.flow.controlNeed then t.controlFinish z k r env fin
            else if fin then t.abort z k r
            else if bytes = [] then t
            else controlLoop z k env n t rs.tail

/-- The control part of `m_stream_read`: at most two passes. -/
def controlRead (z : Sizes) (t : Table) (k : ℕ) (env : ControlEnv) (rs : List StreamRecv) : Table :=
  match t.flows[k]? with
  | none => t
  | some r =>
    if r.flow.stream = false ∨ r.flow.phase ≠ .control ∨ r.flow.closeRequested = true then t
    else controlLoop z k env 2 t rs

/-! ### What ends all flows -/

/-- A function on every flow in turn. -/
def forAll (t : Table) (g : Table → ℕ → Table) : Table := (List.range t.flows.length).foldl g t

def suspendAt (z : Sizes) (preserveTcp : Bool) (deadlineUs : ℕ) (t : Table) (k : ℕ) : Table :=
  match t.flows[k]? with
  | none => t
  | some r =>
    let f := suspendFlow preserveTcp deadlineUs r.flow
    if r.proof = true ∨ ¬ keeps preserveTcp r.flow then
      t.release z k { r with
        flow := { r.flow with stream := false, phase := .dead, closeRequested := true } }
    else
      let (s, r) := mDropUdp z t.store { r with flow := f }
      t.put k s r

def transportDetach (z : Sizes) (t : Table) : Table :=
  let p := t.peer
  if p.detached then t
  else
    let deadline := suspendDeadline p p.recoveryDeadlineUs
    let preserve := decide (p.wireVersion = 2 ∧ p.now < deadline)
    let t := { t with proofStarted := false }.forAll (suspendAt z preserve deadline)
    { t with
      verified := false
      peer := { p with conn := false, ready := false, proofReady := false, detached := true } }

def stopAt (z : Sizes) (t : Table) (k : ℕ) : Table :=
  match t.flows[k]? with
  | none => t
  | some r =>
    t.release z k { r with flow := { r.flow with closeRequested := true, phase := .dead } }

/-- `m_stop_io`. -/
def stopIo (z : Sizes) (t : Table) : Table := t.forAll (stopAt z)

/-- The flows `ob_mapping_cleanup` frees. -/
def freeAll (z : Sizes) (s : Store) : List Entry → Store
  | [] => s
  | r :: rs =>
    let (s, r) := mReleaseIo z s r
    freeAll z (mFree s (some r.record) z.flow) rs

def freeJobs (z : Sizes) (s : Store) : List Job → Store
  | [] => s
  | j :: js => freeJobs z (mFree s (some j.block) z.job) js

/-- `ob_mapping_cleanup`. -/
def cleanup (z : Sizes) (t : Table) : Table :=
  let s := freeAll z t.store t.flows
  { t with flows := [], store := { freeJobs z s s.jobs with jobs := [] } }

/-! ### Steps -/

def notify (t : Table) (k : ℕ) (c : Callback) : Table :=
  match t.flows[k]? with
  | none => t
  | some r =>
    let s := if r.proof then proofNotify r.proofReplyReady ⟨t.peer, r.flow⟩ c
      else c.call ⟨t.peer, r.flow⟩
    { t.put k t.store { r with flow := s.flow } with peer := s.peer }

end Table

open Table

/-- What can happen to a peer, with the outcomes of its calls. -/
inductive Event where
  | create (bidi first tls calloc : Bool)
  | localFlow (env : LocalEnv)
  | handshake (proof : Option (List UInt8)) (calloc created first : Bool)
  | control (k : ℕ) (env : ControlEnv) (rs : List StreamRecv)
  | flush (k : ℕ) (env : ControlEnv)
  | resolveTick (k : ℕ) (env : ResolveEnv)
  | connecting (k : ℕ) (failed : Bool)
  | resolverTake (owner : ℕ)
  | resolverDone (owner : ℕ) (result : ℤ) (family : Bool)
  | reap
  | read (k : ℕ) (bytes : List UInt8) (rs : List RecvResult)
  | tick (k : ℕ) (env : TickEnv)
  | readPlain (k : ℕ) (r : StreamRecv)
  | tickPlain (k : ℕ) (env : PlainEnv)
  | udpEnqueue (k len : ℕ) (calloc : Bool)
  | udpPop (k : ℕ)
  | assemblyNew (k slot total : ℕ) (calloc : Bool)
  | assemblyDrop (k slot : ℕ)
  | closeRequest (k : ℕ) (mapClosed : Bool)
  | notify (k : ℕ) (c : Callback)
  | abort (k : ℕ)
  | free (k : ℕ)
  | detach
  | stopIo
  | cleanup
  | connect (context : Bool) (version : ℕ)
  | attemptBegin
  | transportFail
  | fail
  | elapse (us : ℕ)
  deriving DecidableEq

/-- A flow is freed when it has no stream and is dead or without a socket. -/
def Table.step (z : Sizes) (t : Table) : Event → Table
  | .create bidi first tls calloc => t.mCreate z bidi first tls calloc
  | .localFlow env => t.mLocalFlow z env
  | .handshake proof calloc created first => t.handshake z proof calloc created first
  | .control k env rs => t.controlRead z k env rs
  | .flush k env => t.replyFlush z k env
  | .resolveTick k env => t.mResolveTick z k env
  | .connecting k failed => t.connecting k failed
  | .resolverTake owner => t.resolverTake owner
  | .resolverDone owner result family => t.resolverDone owner result family
  | .reap => t.mResolveReap z
  | .read k bytes rs =>
    t.onFlow z k fun s =>
      if s.flow.phase = .active ∧ s.flow.protocol = protoTcp ∧ s.flow.wireVersion = 2 then
        mV2Read { s with peer := { s.peer with inbox := bytes } } rs
      else s
  | .tick k env =>
    t.onFlow z k fun s => if s.flow.wireVersion = 2 then mV2Tick s env else s
  | .readPlain k r =>
    match t.flows[k]? with
    | none => t
    | some e => t.onFlow z k (mStreamReadPlain e.proof · r)
  | .tickPlain k env =>
    t.onFlow z k fun s => if s.flow.wireVersion = 2 then s else mTcpTickPlain s env
  | .udpEnqueue k len calloc => t.mUdpEnqueue z k len calloc
  | .udpPop k => t.mUdpPop z k
  | .assemblyNew k slot total calloc => t.mAssemblyNew z k slot total calloc
  | .assemblyDrop k slot => t.mAssemblyDrop k slot
  | .closeRequest k mapClosed =>
    t.onFlow z k fun s => { s with flow := { s.flow with
      closeRequested := true, map := if mapClosed then none else s.flow.map } }
  | .notify k c => t.notify k c
  | .abort k =>
    match t.flows[k]? with
    | none => t
    | some r => t.abort z k r
  | .free k =>
    match t.flows[k]? with
    | none => t
    | some r =>
      if r.flow.stream = false ∧ (r.flow.phase = .dead ∨ r.flow.fd = false) then t.mFlowFree z k
      else t
  | .detach => t.transportDetach z
  | .stopIo => t.stopIo z
  | .cleanup => t.cleanup z
  | .connect context version =>
    if canConnect t.peer then
      { t with peer := { connected t.peer context with wireVersion := version } }
    else t
  | .attemptBegin =>
    if t.peer.detached = true ∧ t.peer.stop = false then
      { t with peer := { t.peer with attemptStop := false, ready := false, proofReady := false } }
    else t
  | .transportFail => { t with peer := peerTransportFail t.peer }
  | .fail => { t with peer := peerFail t.peer }
  | .elapse us => { t with peer := { t.peer with now := t.peer.now + us } }

end OhecoBroker.Flows
