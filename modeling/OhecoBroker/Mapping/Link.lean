/-
Two ends of one mapped TCP flow and the transport between them.  One QUIC stream exists per
connection; whatever is not carried across, or not read, before an end detaches is lost, so the
stream may be cut after any number of bytes in either direction.

* `Endpoint`: a peer with its retained flow and at most one incoming flow;
* `transportDetach`, `attemptBegin`, `mCreate`, `recoveryTick`: attempts and streams;
* `Act`, `Endpoint.act`: what one end may do, with the outcomes of its calls;
* `Link`, `carry`, `Link.step`, `Link.after`: both ends, the bytes between them, and every state
  from `Link.initial`, where the target is connected and its `ACK` on the way.
-/
import OhecoBroker.Lib.Run
import OhecoBroker.Mapping.Recovery

namespace OhecoBroker.Mapping

open Lib

/-! ### One end -/

/-- A peer with one retained flow and at most one incoming flow. -/
structure Endpoint where
  peer : Peer
  flow : Flow
  incoming : Option Flow := none
  deriving DecidableEq

def Endpoint.side (e : Endpoint) : Side := ⟨e.peer, e.flow⟩

@[simp] lemma Endpoint.side_peer (e : Endpoint) : e.side.peer = e.peer := rfl

@[simp] lemma Endpoint.side_flow (e : Endpoint) : e.side.flow = e.flow := rfl

def Endpoint.withSide (e : Endpoint) (s : Side) : Endpoint :=
  { e with peer := s.peer, flow := s.flow }

@[simp] lemma Endpoint.withSide_peer (e : Endpoint) (s : Side) :
    (e.withSide s).peer = s.peer := rfl

@[simp] lemma Endpoint.withSide_flow (e : Endpoint) (s : Side) :
    (e.withSide s).flow = s.flow := rfl

def Endpoint.onFlow (g : Side → Side) (e : Endpoint) : Endpoint := e.withSide (g e.side)

/-- A function on the incoming flow, which may change the retained one. -/
def Endpoint.onIncoming (g : Side → Side × Option Flow) (e : Endpoint) : Endpoint :=
  match e.incoming with
  | none => e
  | some f =>
    let r := g ⟨e.peer, f⟩
    { peer := r.1.peer, flow := r.2.getD e.flow, incoming := some r.1.flow }

/-- `transport_detach`: suspend every flow and give up the connection. -/
def transportDetach (e : Endpoint) : Endpoint :=
  if e.peer.detached then e
  else
    let deadline := suspendDeadline e.peer e.peer.recoveryDeadlineUs
    let preserve := decide (e.peer.wireVersion = 2 ∧ e.peer.now < deadline)
    { peer := { e.peer with
        conn := false, ready := false, proofReady := false, detached := true
        awaiting := false }
      flow := suspendFlow preserve deadline e.flow
      incoming := e.incoming.map (suspendFlow preserve deadline) }

/-- The coordinator starts the next attempt. -/
def attemptBegin (e : Endpoint) : Endpoint :=
  if e.peer.detached = true ∧ e.peer.stop = false then
    { e with peer := { e.peer with attemptStop := false, ready := false, proofReady := false } }
  else e

/-- `m_create` for a stream the other end opened; one that arrives before the channel proof fails
the peer. -/
def mCreate (e : Endpoint) (allocated : Bool) : Endpoint :=
  if e.peer.isServer = false ∨ e.peer.awaiting = false ∨ e.peer.inbox = [] then e
  else if e.peer.stop = true ∨ e.peer.attemptStop = true then e
  else if e.peer.ready = false then { e with peer := peerFail e.peer }
  else if allocated = false then e
  else { e with
    peer := { e.peer with awaiting := false }
    incoming := some { transient := true, stream := true, created := e.peer.now } }

/-- `ob_mapping_recovery_tick` on both flows. -/
def recoveryTick (e : Endpoint) : Endpoint :=
  { e with
    flow := recoveryFlow e.peer e.flow
    incoming := (e.incoming.map (recoveryFlow e.peer)).filter
      fun f => ¬ (f.phase = .dead ∧ f.stream = false) }

/-- What one end may do, with the outcomes of its calls. -/
inductive Act where
  | tick (env : TickEnv)
  | write (rs : List FrameSends)
  | flush (r : SendResult)
  | read (rs : List RecvResult) (flush : SendResult)
  | incomingFlush (r : SendResult)
  | incomingRead (rs : List RecvResult) (flush : SendResult) (rc : ℤ)
  | create (allocated : Bool)
  | ready (created : Bool) (flush : SendResult)
  | recoveryTick
  | abort
  | incomingAbort
  | callback (c : Callback)
  | incomingCallback (c : Callback)
  | transportFail
  | fail
  | detach
  | attemptBegin
  | elapse (us : ℕ)
  deriving DecidableEq

/-- One action; the peer becomes ready only on a connection. -/
def Endpoint.act (e : Endpoint) : Act → Endpoint
  | .tick env => e.onFlow (mV2Tick · env)
  | .write rs => e.onFlow (mV2Write · rs)
  | .flush r => e.onFlow (mReplyFlush · r)
  | .read rs flush => e.onFlow fun s => (mStreamRead [] 0 flush s rs).1
  | .incomingFlush r => e.onIncoming fun s => (mReplyFlush s r, none)
  | .incomingRead rs flush rc => e.onIncoming fun s => mStreamRead [e.flow] rc flush s rs
  | .create allocated => mCreate e allocated
  | .ready created flush =>
    if e.peer.conn = true ∧ e.peer.detached = false then e.onFlow (markReady · created flush)
    else e
  | .recoveryTick => Mapping.recoveryTick e
  | .abort => e.onFlow Side.abort
  | .incomingAbort => e.onIncoming fun s => (s.abort, none)
  | .callback c => e.onFlow fun s => c.call s
  | .incomingCallback c => e.onIncoming fun s => (c.call s, none)
  | .transportFail => e.onFlow Side.transportFail
  | .fail => e.onFlow Side.fail
  | .detach => transportDetach e
  | .attemptBegin => Mapping.attemptBegin e
  | .elapse us => { e with peer := { e.peer with now := e.peer.now + us } }

/-! ### Both ends -/

/-- The client end (`local = 1`) and the broker end (`local = 0`). -/
structure Link where
  client : Endpoint
  broker : Endpoint
  deriving DecidableEq

/-- The transport carries `n` accepted bytes from `x` to `y`. -/
def carry (x y : Endpoint) (n : ℕ) : Endpoint × Endpoint :=
  ({ x with peer := { x.peer with outbox := x.peer.outbox.drop n } },
    { y with peer := { y.peer with inbox := y.peer.inbox ++ x.peer.outbox.take n } })

/-- The end has detached and begun an attempt. -/
def canConnect (p : Peer) : Prop :=
  p.detached = true ∧ p.attemptStop = false ∧ p.stop = false

instance (p : Peer) : Decidable (canConnect p) := inferInstanceAs (Decidable (_ ∧ _))

/-- The peer at the start of a connection. -/
def connected (p : Peer) (context : Bool) : Peer :=
  { p with
    conn := true, detached := false, awaiting := true, ready := false, proofReady := false
    resumeContextAvailable := context, inbox := [], outbox := [] }

/-- One step of the two-ended system. -/
inductive LinkAct where
  | client (a : Act)
  | broker (a : Act)
  | toBroker (n : ℕ)
  | toClient (n : ℕ)
  | connect (clientContext brokerContext : Bool)
  deriving DecidableEq

/-- One step of both ends. -/
def Link.step (l : Link) : LinkAct → Link
  | .client a => { l with client := l.client.act a }
  | .broker a => { l with broker := l.broker.act a }
  | .toBroker n => ⟨(carry l.client l.broker n).1, (carry l.client l.broker n).2⟩
  | .toClient n => ⟨(carry l.broker l.client n).2, (carry l.broker l.client n).1⟩
  | .connect cc bc =>
    if canConnect l.client.peer ∧ canConnect l.broker.peer then
      { client := { l.client with peer := connected l.client.peer cc }
        broker := { l.broker with peer := connected l.broker.peer bc } }
    else l

/-- What the start of a link leaves open. -/
structure Config where
  id : UInt64
  target : Target
  clientNow : ℕ := 0
  brokerNow : ℕ := 0
  clientGraceMs : ℕ := 0
  brokerGraceMs : ℕ := 0
  clientMaxFlows : ℕ := 0
  brokerMaxFlows : ℕ := 0
  deriving DecidableEq

def readyPeer (isServer : Bool) (now graceMs maxFlows : ℕ) : Peer where
  isServer := isServer
  ready := true
  proofReady := true
  everReady := true
  conn := true
  detached := false
  resumeContextAvailable := false
  maxFlows := maxFlows
  flowGraceMs := graceMs
  now := now

/-- A client flow that waits for the answer to its `OPEN`. -/
def clientFlow (c : Config) : Flow :=
  let reply := mHeader .open protoTcp (c.target.host.length + 2) c.id ++
    beBytes 2 c.target.port ++ c.target.host
  { id := c.id, isLocal := true, map := some c.target, protocol := protoTcp
    fd := true, stream := true, wireVersion := 2, created := c.clientNow
    reply := reply, replyPos := reply.length }

/-- A broker flow whose `ACK` is to be sent. -/
def brokerFlow (c : Config) : Flow :=
  mAck { id := c.id, protocol := protoTcp, fd := true, stream := true, wireVersion := 2
         created := c.brokerNow } 0

/-- The stream is open and empty, nothing was read from either socket. -/
def Link.initial (c : Config) : Link where
  client := ⟨readyPeer false c.clientNow c.clientGraceMs c.clientMaxFlows, clientFlow c, none⟩
  broker := ⟨readyPeer true c.brokerNow c.brokerGraceMs c.brokerMaxFlows, brokerFlow c, none⟩

/-- The states of a link. -/
def Link.after (c : Config) (as : List LinkAct) : Link := run Link.step (Link.initial c) as

end OhecoBroker.Mapping
