/-
The WebSocket hub of the control server (`internal/control/websocket.go`): its shared budgets, and
for every socket the three goroutines that serve it, as programs whose steps interleave.  A step
that its goroutine cannot make leaves the state as it is.

* `Owner`, `Reader`, `Writer`, `Hub`, `Peer`: the state;
* `Peer.run`, `Peer.readerStep`, `Peer.writerStep`: the owner, the reader and the writer;
* `System`, `Event`, `System.step`: one step of any goroutine, a commit of `sendMessage` and its
  `notifyWSSession`, and the closing of the hub.
-/
import OhecoBroker.Lib.Run

namespace OhecoBroker.WebSocket

def wsMaxFrame : ℕ := 262144
def wsMaxConnections : ℕ := 1024
def wsMaxTenantConnections : ℕ := 128
def wsMaxScopeConnections : ℕ := 4
def wsMaxQueueFrames : ℕ := 32
def wsMaxQueueBytes : ℕ := 262144
def wsMaxGlobalQueueBytes : ℕ := 32 * 2 ^ 20
def wsMessageWindow : ℕ := 4

/-- `readSlots`, `writeSlots`, `marshalSlots` and `p.in`. -/
def readSlotsCap : ℕ := 128
def writeSlotsCap : ℕ := 128
def marshalSlotsCap : ℕ := 32
def inCap : ℕ := 8

inductive Side
  | broker
  | client
deriving DecidableEq

def oppositeSide : Side → Side
  | .broker => .client
  | .client => .broker

structure Packet where
  data : List UInt8
  sequence : ℕ
  terminal : Bool
  result : Bool
  closeCode : ℕ
deriving DecidableEq

/-- An ACK or a request. -/
inductive Input
  | ack (sequence : ℕ)
  | rpc
deriving DecidableEq

/-- A call of `enqueue`, by what the caller goes on with. -/
inductive Call
  | snapshot (encoded : List UInt8)
  | message (sequence : ℕ)
  | result (recheck : Bool)
  | revoked (closeCode : ℕ)
deriving DecidableEq

def Call.packet : Call → List UInt8 → Packet
  | .snapshot _, data => ⟨data, 0, false, false, 0⟩
  | .message sequence, data => ⟨data, sequence, false, false, 0⟩
  | .result _, data => ⟨data, 0, false, true, 0⟩
  | .revoked closeCode, data => ⟨data, 0, true, false, closeCode⟩

/-- Where the owner is, in `websocketConnect`, `run`, `catchup` and `enqueue`. -/
inductive Owner
  | connecting
  | registering
  | refused
  | upgrading
  | catchup (initial : Bool)
  | snapshot (initial : Bool)
  | window
  | enqueue (call : Call)
  | marshal (call : Call)
  | overflow (call : Call)
  | enqueued (call : Call) (ok : Bool)
  | back (call : Call) (ok : Bool)
  | idle
  | input (input : Input)
  | ack (sequence : ℕ)
  | rpc
  | recheck
  | revoke (closeCode : ℕ)
  | waiting
  | stopping
  | joining
  | draining
  | drained
  | leaving
  | ended
deriving DecidableEq

inductive Reader
  | off
  | next
  | slot
  | reading
  | parsed (input : Input)
  | check
  | exited
deriving DecidableEq

/-- Where the writer is, with the packet it has taken. -/
inductive Writer
  | off
  | select
  | taken (packet : Packet)
  | drop (packet : Packet)
  | waiting (packet : Packet)
  | slotted (packet : Packet)
  | ready (packet : Packet)
  | writing (packet : Packet)
  | wrote (packet : Packet) (ok : Bool)
  | exited (unsent : Option Packet)
deriving DecidableEq

/-- Slots count the occupied places. -/
structure Hub where
  closed : Bool := false
  queuedBytes : ℤ := 0
  readSlots : ℕ := 0
  writeSlots : ℕ := 0
  marshalSlots : ℕ := 0
deriving DecidableEq

/-- `wsPeer`. The last three fields are history: the sequences written, and the packets not
started when `terminating` was stored or started after that. -/
structure Peer where
  tenant : String
  hash : String
  target : String
  side : Side
  brokerWatch : Bool
  after : ℕ
  done : Bool := false
  terminating : Bool := false
  wake : Bool := false
  inputs : List Input := []
  out : List Packet := []
  queueBytes : ℤ := 0
  sent : ℕ := after
  acked : ℕ := after
  queued : ℕ := after
  lastSnapshot : List UInt8 := []
  owner : Owner := .connecting
  reader : Reader := .off
  writer : Writer := .off
  pushed : List ℕ := []
  backlog : List Packet := []
  late : List Packet := []
deriving DecidableEq

def Peer.registered (p : Peer) : Bool :=
  match p.owner with
  | .connecting | .registering | .refused | .ended => false
  | _ => true

def Writer.held : Writer → List Packet
  | .taken packet | .drop packet | .waiting packet | .slotted packet | .ready packet => [packet]
  | _ => []

/-! ### The owner -/

/-- Which branch is taken, whether a call fails, what is read. -/
inductive Pick
  | go
  | fail (status : ℕ)
  | done
  | slot
  | tick
  | wake
  | input
  | bytes (data : List UInt8)
  | status (status : ℕ)
deriving DecidableEq

def closeCode (status : ℕ) : ℕ := if 500 ≤ status then 1011 else 1008

/-- The section of `enqueue` under `hub.mu`. -/
def enqueueLocked (h : Hub) (p : Peer) (call : Call) (packet : Packet) : Hub × Peer :=
  if p.done then (h, { p with owner := .enqueued call false })
  else if (wsMaxQueueBytes : ℤ) < p.queueBytes + packet.data.length
      ∨ (wsMaxGlobalQueueBytes : ℤ) < h.queuedBytes + packet.data.length then
    (h, { p with owner := .overflow call })
  else if p.out.length < wsMaxQueueFrames then
    ({ h with queuedBytes := h.queuedBytes + packet.data.length },
      { p with out := p.out ++ [packet], queueBytes := p.queueBytes + packet.data.length,
               owner := .enqueued call true })
  else (h, { p with owner := .overflow call })

def returned (h : Hub) (p : Peer) : Call → Bool → Hub × Peer
  | .snapshot encoded, true =>
    (h, { p with lastSnapshot := encoded, owner := if p.brokerWatch then .idle else .window })
  | .snapshot _, false => (h, { p with owner := .idle })
  | .message sequence, true => (h, { p with queued := sequence, owner := .window })
  | .message _, false => (h, { p with owner := .idle })
  | .result recheck, _ =>
    ({ h with readSlots := h.readSlots - 1 },
      { p with owner := if recheck then .recheck else .idle })
  | .revoked _, _ => (h, { p with owner := .waiting })

def rechecks (status : ℕ) : Bool :=
  status = 401 || status = 403 || status = 404 || status = 410

def Writer.locksSent : Writer → Bool
  | .writing packet => packet.sequence ≠ 0
  | _ => false

/-- `highest` is the highest stored sequence, `admitted` the verdict of `register`. -/
def Peer.run (highest : ℕ) (admitted : Bool) (h : Hub) (p : Peer) (pick : Pick) : Hub × Peer :=
  match p.owner, pick with
  -- websocketConnect
  | .connecting, .go =>
    if p.brokerWatch || p.after ≤ highest then (h, { p with owner := .registering })
    else (h, { p with owner := .refused })
  | .registering, .go =>
    (h, { p with owner := if admitted then .upgrading else .refused })
  | .upgrading, .fail _ => (h, { p with owner := .leaving })
  | .upgrading, .go =>
    if p.done then (h, { p with owner := .leaving })
    else (h, { p with owner := .catchup true, reader := .next, writer := .select })
  -- catchup
  | .catchup _, .fail status => (h, { p with owner := .revoke (closeCode status) })
  | .catchup initial, .go => (h, { p with owner := .snapshot initial })
  | .snapshot _, .fail status => (h, { p with owner := .revoke (closeCode status) })
  | .snapshot initial, .bytes encoded =>
    if initial || encoded ≠ p.lastSnapshot then
      (h, { p with owner := .enqueue (.snapshot encoded) })
    else (h, { p with owner := if p.brokerWatch then .idle else .window })
  | .window, .fail status =>
    if p.queued < p.acked + wsMessageWindow then
      (h, { p with owner := .revoke (closeCode status) })
    else (h, p)
  | .window, .go =>
    -- stored sequences have no gap, so the next row is the next sequence
    if p.queued < p.acked + wsMessageWindow ∧ p.queued < highest then
      (h, { p with owner := .enqueue (.message (p.queued + 1)) })
    else (h, { p with owner := .idle })
  -- enqueue
  | .enqueue call, .done => if p.done then (h, { p with owner := .back call false }) else (h, p)
  | .enqueue call, .slot =>
    if h.marshalSlots < marshalSlotsCap then
      ({ h with marshalSlots := h.marshalSlots + 1 }, { p with owner := .marshal call })
    else (h, p)
  | .marshal call, .fail _ => (h, { p with owner := .overflow call })
  | .marshal call, .bytes data =>
    if wsMaxFrame < data.length then (h, { p with owner := .overflow call })
    else enqueueLocked h p call (call.packet data)
  | .overflow call, .go => (h, { p with done := true, owner := .enqueued call false })
  | .enqueued call ok, .go =>
    ({ h with marshalSlots := h.marshalSlots - 1 }, { p with owner := .back call ok })
  | .back call ok, .go => returned h p call ok
  -- run
  | .idle, .done => if p.done then (h, { p with owner := .stopping }) else (h, p)
  | .idle, .tick => (h, { p with owner := .recheck })
  | .idle, .wake =>
    if p.wake then (h, { p with wake := false, owner := .catchup false }) else (h, p)
  | .idle, .input =>
    match p.inputs with
    | [] => (h, p)
    | input :: inputs => (h, { p with inputs := inputs, owner := .input input })
  | .input _, .fail status =>
    ({ h with readSlots := h.readSlots - 1 },
      { p with owner := .revoke (closeCode status) })
  | .input (.ack sequence), .go => (h, { p with owner := .ack sequence })
  | .input .rpc, .go => (h, { p with owner := .rpc })
  | .ack sequence, .go =>
    if p.writer.locksSent then (h, p)
    else if sequence ≤ p.sent then
      ({ h with readSlots := h.readSlots - 1 },
        { p with acked := max p.acked sequence, owner := .catchup false })
    else
      ({ h with readSlots := h.readSlots - 1 }, { p with owner := .revoke (closeCode 400) })
  | .rpc, .status status =>
    (h, { p with owner := .enqueue (.result (rechecks status)) })
  | .recheck, .go => (h, { p with owner := .idle })
  | .recheck, .fail status => (h, { p with owner := .revoke (closeCode status) })
  -- revoked
  | .revoke code, .go =>
    (h, { p with terminating := true, backlog := p.writer.held ++ p.out,
                 owner := .enqueue (.revoked code) })
  | .waiting, .done => if p.done then (h, { p with owner := .stopping }) else (h, p)
  -- websocketConnect, after run
  | .stopping, .go => (h, { p with done := true, owner := .joining })
  | .joining, .go =>
    match p.reader, p.writer with
    | .exited, .exited _ => (h, { p with owner := .draining })
    | _, _ => (h, p)
  | .draining, .go =>
    match p.inputs with
    | [] => (h, { p with owner := .leaving })
    | _ :: inputs => (h, { p with inputs := inputs, owner := .drained })
  | .drained, .go =>
    ({ h with readSlots := h.readSlots - 1 }, { p with owner := .draining })
  | .leaving, .go =>
    ({ h with queuedBytes := h.queuedBytes - p.queueBytes },
      { p with done := true, queueBytes := 0, owner := .ended })
  | _, _ => (h, p)

/-! ### The reader -/

inductive ReaderPick
  | go
  | fail
  | done
  | slot
  | frame (input : Input)
deriving DecidableEq

/-- The reader returns; its deferred call stops the peer. -/
def Peer.exitReader (p : Peer) : Peer := { p with done := true, reader := .exited }

/-- One step of the reader. -/
def Peer.readerStep (h : Hub) (p : Peer) (pick : ReaderPick) : Hub × Peer :=
  match p.reader, pick with
  | .next, .fail => (h, p.exitReader)
  | .next, .go => (h, { p with reader := .slot })
  | .slot, .done => if p.done then (h, p.exitReader) else (h, p)
  | .slot, .slot =>
    if h.readSlots < readSlotsCap then
      ({ h with readSlots := h.readSlots + 1 }, { p with reader := .reading })
    else (h, p)
  | .reading, .fail => ({ h with readSlots := h.readSlots - 1 }, p.exitReader)
  | .reading, .frame input => (h, { p with reader := .parsed input })
  | .parsed input, .go =>
    if p.inputs.length < inCap then
      (h, { p with inputs := p.inputs ++ [input], reader := .check })
    else if p.done then (h, p)
    else ({ h with readSlots := h.readSlots - 1 }, p.exitReader)
  | .parsed _, .done =>
    if p.done then ({ h with readSlots := h.readSlots - 1 }, p.exitReader) else (h, p)
  | .check, .go => (h, if p.done then p.exitReader else { p with reader := .next })
  | _, _ => (h, p)

/-! ### The writer -/

inductive WriterPick
  | go
  | done
  | ping (ok : Bool)
  | receive
  | slot
  | result (ok : Bool)
deriving DecidableEq

def Peer.exitWriter (p : Peer) (unsent : Option Packet) : Peer :=
  { p with done := true, writer := .exited unsent }

def uncharge (h : Hub) (p : Peer) (packet : Packet) (next : Writer) : Hub × Peer :=
  ({ h with queuedBytes := h.queuedBytes - packet.data.length },
    { p with queueBytes := p.queueBytes - packet.data.length, writer := next })

def Peer.start (p : Peer) (packet : Packet) : Peer :=
  { p with
    writer := .writing packet
    pushed := if packet.sequence = 0 then p.pushed else p.pushed ++ [packet.sequence]
    late := if p.terminating then p.late ++ [packet] else p.late }

/-- One step of the writer. -/
def Peer.writerStep (h : Hub) (p : Peer) (pick : WriterPick) : Hub × Peer :=
  match p.writer, pick with
  | .select, .done => if p.done then (h, p.exitWriter none) else (h, p)
  | .select, .ping ok => (h, if ok then p else p.exitWriter none)
  | .select, .receive =>
    match p.out with
    | [] => (h, p)
    | packet :: out => (h, { p with out := out, writer := .taken packet })
  | .taken packet, .go =>
    (h, { p with writer :=
      if p.terminating && !packet.result && !packet.terminal then .drop packet
      else .waiting packet })
  | .drop packet, .go => uncharge h p packet .select
  | .waiting packet, .done => if p.done then (h, p.exitWriter (some packet)) else (h, p)
  | .waiting packet, .slot =>
    if h.writeSlots < writeSlotsCap then
      ({ h with writeSlots := h.writeSlots + 1 }, { p with writer := .slotted packet })
    else (h, p)
  | .slotted packet, .go => uncharge h p packet (.ready packet)
  | .ready packet, .go => (h, p.start packet)
  | .writing packet, .result ok =>
    (h, { p with
      writer := .wrote packet ok
      sent := if packet.sequence ≠ 0 ∧ ok = true then packet.sequence else p.sent })
  | .wrote packet ok, .go =>
    ({ h with writeSlots := h.writeSlots - 1 },
      if !ok || packet.terminal then p.exitWriter none else { p with writer := .select })
  | _, _ => (h, p)

/-! ### All sockets -/

/-- The hub, its sockets, the stored messages, and the sessions still to be notified. -/
structure System (ι : Type*) where
  hub : Hub
  peers : ι → Peer
  stored : String → Side → ℕ
  pending : List String

inductive Event (ι : Type*)
  | run (i : ι) (pick : Pick)
  | reader (i : ι) (pick : ReaderPick)
  | writer (i : ι) (pick : WriterPick)
  | commit (session : String) (side : Side)
  | notify (session : String)
  | wake (i : ι)
  | close
  | stop (i : ι)

variable {ι : Type*} [Fintype ι] [DecidableEq ι]

def System.admits (s : System ι) (i : ι) : Bool :=
  let p := s.peers i
  let count (f : Peer → Bool) :=
    (Finset.univ.filter fun j => (s.peers j).registered ∧ f (s.peers j)).card
  !s.hub.closed && count (fun _ => true) < wsMaxConnections
    && count (fun q => q.tenant = p.tenant) < wsMaxTenantConnections
    && count (fun q => q.hash = p.hash && q.target = p.target && q.brokerWatch = p.brokerWatch)
      < wsMaxScopeConnections

def System.put (s : System ι) (i : ι) (r : Hub × Peer) : System ι :=
  { s with hub := r.1, peers := Function.update s.peers i r.2 }

omit [Fintype ι] in
@[simp] lemma System.put_self (s : System ι) (i : ι) (r : Hub × Peer) :
    (s.put i r).peers i = r.2 :=
  Function.update_self ..

omit [Fintype ι] in
lemma System.put_of_ne (s : System ι) {i j : ι} (hj : j ≠ i) (r : Hub × Peer) :
    (s.put i r).peers j = s.peers j :=
  Function.update_of_ne hj ..

/-- `wake`: the channel holds one signal. -/
def Peer.woken (p : Peer) : Peer := if p.registered then { p with wake := true } else p

/-- `stop` stands for the calls of `p.stop` that `close` makes one by one. -/
def System.step (s : System ι) : Event ι → System ι
  | .run i pick =>
    let p := s.peers i
    s.put i (p.run (s.stored p.target (oppositeSide p.side)) (s.admits i) s.hub pick)
  | .reader i pick => s.put i ((s.peers i).readerStep s.hub pick)
  | .writer i pick => s.put i ((s.peers i).writerStep s.hub pick)
  | .commit session side =>
    { s with
      stored := fun t sd => if t = session ∧ sd = side then s.stored t sd + 1 else s.stored t sd
      pending := session :: s.pending }
  | .notify session =>
    if session ∈ s.pending then
      { s with
        pending := s.pending.erase session
        peers := fun i =>
          let p := s.peers i
          if !p.brokerWatch && p.target = session then p.woken else p }
    else s
  | .wake i => s.put i (s.hub, (s.peers i).woken)
  | .close => { s with hub := { s.hub with closed := true } }
  | .stop i =>
    if s.hub.closed && (s.peers i).registered then
      s.put i (s.hub, { s.peers i with done := true })
    else s

/-- Who asks, for what, from which cursor. -/
structure Connect where
  tenant : String
  hash : String
  target : String
  side : Side
  brokerWatch : Bool
  after : ℕ

def Connect.peer (c : Connect) : Peer :=
  { tenant := c.tenant, hash := c.hash, target := c.target, side := c.side,
    brokerWatch := c.brokerWatch, after := c.after }

def System.start (connects : ι → Connect) (stored : String → Side → ℕ) : System ι :=
  ⟨{}, fun i => (connects i).peer, stored, []⟩

end OhecoBroker.WebSocket
