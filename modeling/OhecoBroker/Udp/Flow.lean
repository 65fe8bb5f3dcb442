/-
The datagram half of `mapping.c`: how a UDP payload is cut into QUIC datagrams and put together
again.

* `Packet`, `Assembly`, `Flow`: the records of a UDP flow;
* `mUdpEnqueue`, `datagram`, `mUdpFlush`: sending;
* `Fragment`, `parse`, `sweep`, `scan`, `Flow.place`, `Flow.read`, `mUdpRead`: receiving;
* `Peer.act`, `Pair.step`: what may happen to the flows of one peer, and two peers.

A queue or a buffer is a list, so that its count is its length.  `receive_high` and `delivered`
are one window, the two words of `bits` one vector.  Two fields are only recorded: `enqueued` has
what `m_udp_enqueue` accepted under which packet id, `handed` what `m_udp_read` gave to the
socket.
-/
import OhecoBroker.Lib.Pieces
import OhecoBroker.Lib.ReplayWindow
import OhecoBroker.Lib.Run
import OhecoBroker.Mapping.Flow

namespace OhecoBroker.Udp

open Lib
open Mapping (Phase field protoUdp udpMax uint64Max)

/-! ### Constants of `mapping.c` -/

/-- `M_DHEADER`. -/
def dataHeader : ℕ := 28
/-- `M_FRAGMENT`. -/
def fragmentSize : ℕ := 512
/-- `M_UDP_QUEUE`. -/
def udpQueue : ℕ := 4
/-- `M_REASSEMBLY`. -/
def reassembly : ℕ := 4
/-- `M_PACKET_US`. -/
def packetUs : ℕ := 2000000
/-- `M_PACKET_TTL_US`. -/
def packetTtlUs : ℕ := 1000000
/-- `OBD1`. -/
def magicData : List UInt8 := [0x4f, 0x42, 0x44, 0x31]

def mExpired (now timestamp limit : ℕ) : Prop := timestamp ≤ now ∧ limit < now - timestamp

instance (now timestamp limit : ℕ) : Decidable (mExpired now timestamp limit) :=
  inferInstanceAs (Decidable (_ ∧ _))

/-! ### Flows -/

/-- `struct m_udp_packet`. -/
structure Packet where
  id : ℕ
  created : ℕ
  data : List UInt8
  offset : ℕ := 0
  deriving DecidableEq

/-- `struct m_assembly` with its buffer. -/
structure Assembly where
  id : ℕ
  updated : ℕ := 0
  bits : BitVec 128 := 0
  data : List UInt8
  total : ℕ
  received : ℕ := 0
  deriving DecidableEq

/-- The UDP fields of `struct ob_flow`. -/
structure Flow where
  id : UInt64
  isLocal : Bool := false
  map : Bool := false
  proof : Bool := false
  transient : Bool := false
  protocol : ℕ := protoUdp
  phase : Phase := .control
  acked : Bool := false
  closeRequested : Bool := false
  stream : Bool := false
  nextPacket : ℕ := 0
  queue : List Packet := []
  window : ReplayWindow 64 := {}
  assembly : List (Option Assembly) := List.replicate reassembly none
  enqueued : List (ℕ × List UInt8) := []
  handed : List (ℕ × List UInt8) := []
  deriving DecidableEq

/-! ### Sending -/

/-- `m_udp_enqueue`. -/
def mUdpEnqueue (f : Flow) (data : List UInt8) (now : ℕ) (alloc : Bool) : Flow :=
  if udpMax < data.length ∨ udpQueue ≤ f.queue.length ∨ f.nextPacket = uint64Max ∨
      alloc = false then f
  else { f with
    nextPacket := f.nextPacket + 1
    queue := f.queue ++ [{ id := f.nextPacket + 1, created := now, data }]
    enqueued := f.enqueued ++ [(f.nextPacket + 1, data)] }

/-- The fragment at `offset`. -/
def datagram (flow : UInt64) (packet : ℕ) (data : List UInt8) (offset : ℕ) : List UInt8 :=
  let len := min (data.length - offset) fragmentSize
  magicData ++ beBytes 8 flow.toNat ++ beBytes 8 packet ++ beBytes 2 data.length ++
    beBytes 2 offset ++ beBytes 2 len ++ beBytes 2 0 ++ slice data offset len

/-- What `xqc_datagram_send` returns. -/
inductive DatagramRet where
  | sent | again | error
  deriving DecidableEq

/-- One pass: the clock, the datagram size, the send, and what its notifications leave. -/
structure FlushStep where
  now : ℕ
  mss : ℕ := 1200
  rc : DatagramRet := .sent
  stream : Bool := true
  closeRequested : Bool := false
  deriving DecidableEq

/-- The flow, the datagrams sent and the rest of the budget. -/
def mUdpFlushLoop : List FlushStep → ℕ → ℕ → Flow → Flow × List (List UInt8) × ℕ
  | [], budget, _, f => (f, [], budget)
  | e :: es, budget, perFlow, f =>
    match f.queue with
    | [] => (f, [], budget)
    | q :: rest =>
      if budget = 0 ∨ perFlow = 0 then (f, [], budget)
      else if mExpired e.now q.created packetTtlUs ∨ e.mss < dataHeader + fragmentSize then
        mUdpFlushLoop es budget perFlow { f with queue := rest }
      else
        let wire := datagram f.id q.id q.data q.offset
        let f := { f with stream := e.stream, closeRequested := e.closeRequested }
        if f.closeRequested = true ∨ f.stream = false ∨ e.rc = .again then (f, [wire], budget)
        else
          let offset := q.offset + min (q.data.length - q.offset) fragmentSize
          let queue :=
            if e.rc = .error ∨ offset = q.data.length then rest else { q with offset } :: rest
          let (f, sent, left) :=
            mUdpFlushLoop es (budget - 1) (perFlow - 1) { f with queue }
          (f, wire :: sent, left)

def mUdpFlush (ready : Bool) (f : Flow) (budget : ℕ) (es : List FlushStep) :
    Flow × List (List UInt8) × ℕ :=
  if f.phase ≠ .active ∨ f.closeRequested = true ∨ f.stream = false ∨ f.acked = false ∨
      ready = false then (f, [], budget)
  else mUdpFlushLoop es budget 8 f

/-! ### Receiving -/

/-- A datagram that passes the checks of `m_udp_read`. -/
structure Fragment where
  flow : ℕ
  packet : ℕ
  total : ℕ
  offset : ℕ
  bytes : List UInt8
  deriving DecidableEq

def parse (v : List UInt8) : Option Fragment :=
  if v.length < dataHeader ∨ v.take 4 ≠ magicData ∨ field v 26 2 ≠ 0 then none
  else
    let flow := field v 4 8
    let packet := field v 12 8
    let total := field v 20 2
    let offset := field v 22 2
    let size := field v 24 2
    if flow = 0 ∨ packet = 0 ∨ udpMax < total ∨ total < offset ∨ fragmentSize < size ∨
        size ≠ v.length - dataHeader ∨ offset % fragmentSize ≠ 0 ∨
        size ≠ (if fragmentSize < total - offset then fragmentSize else total - offset) ∨
        (total ≠ 0 ∧ offset = total) then none
    else some { flow, packet, total, offset, bytes := v.drop dataHeader }

/-- `m_find`: a place in the list. -/
def mFind (fs : List Flow) (id : ℕ) : ℕ :=
  fs.findIdx fun f => !f.proof && !f.transient && f.phase != .dead && f.id.toNat == id

def Flow.accepts (f : Flow) : Prop :=
  f.phase = .active ∧ f.acked = true ∧ f.closeRequested = false ∧ f.protocol = protoUdp ∧
    (f.isLocal = true → f.map = true)

instance (f : Flow) : Decidable f.accepts := inferInstanceAs (Decidable (_ ∧ _))

/-- What `send` and `sendto` return. -/
inductive SockSend where
  | sent | again | error
  deriving DecidableEq

/-- The outcomes of the calls of one `m_udp_read`. -/
structure ReadEnv where
  conn : Bool := true
  now : ℕ
  alloc : Bool := true
  send : SockSend := .sent
  deriving DecidableEq

def Assembly.Stale (now high : ℕ) (a : Assembly) : Prop :=
  mExpired now a.updated packetUs ∨ (a.id ≤ high ∧ 64 ≤ high - a.id)

instance (now high : ℕ) (a : Assembly) : Decidable (a.Stale now high) :=
  inferInstanceAs (Decidable (_ ∨ _))

/-- The slots after the drops of the loop in `m_udp_read`. -/
def sweep (now high : ℕ) (slots : List (Option Assembly)) : List (Option Assembly) :=
  slots.map (Option.filter fun a => ¬ a.Stale now high)

/-- The last slot of the packet, the first free slot. -/
def scan (packet : ℕ) : List (Option Assembly) → ℕ → Option (ℕ × Assembly) × Option ℕ →
    Option (ℕ × Assembly) × Option ℕ
  | [], _, found => found
  | none :: slots, i, (a, empty) => scan packet slots (i + 1) (a, empty <|> some i)
  | some b :: slots, i, (a, empty) =>
    scan packet slots (i + 1) (if b.id = packet then some (i, b) else a, empty)

/-- The packet is recorded as delivered. -/
def Flow.settle (f : Flow) (k packet : ℕ) : Flow :=
  { f with assembly := f.assembly.set k none, window := f.window.mark packet }

/-- `m_udp_read` with its assembly. -/
def Flow.place (env : ReadEnv) (f : Flow) (k : ℕ) (a : Assembly) (g : Fragment) : Flow :=
  if a.total ≠ g.total then f.settle k g.packet
  else if a.bits.getLsbD (g.offset / fragmentSize) then
    if g.bytes ≠ [] ∧ slice a.data g.offset g.bytes.length ≠ g.bytes then f.settle k g.packet
    else f
  else
    let a := { a with
      data := overwrite a.data g.offset g.bytes
      bits := a.bits ||| 1#128 <<< (g.offset / fragmentSize)
      received := a.received + g.bytes.length
      updated := env.now }
    if a.received ≠ g.total then { f with assembly := f.assembly.set k (some a) }
    else
      let f := { f with
        handed := f.handed ++ [(g.packet, a.data)]
        closeRequested :=
          f.closeRequested || decide (env.send = SockSend.error ∧ f.isLocal = false) }
      f.settle k g.packet

/-- `m_udp_read` with its flow. -/
def Flow.read (env : ReadEnv) (g : Fragment) (f : Flow) : Flow :=
  if ¬ f.accepts then f
  else
    let f := { f with window := f.window.advance g.packet }
    if f.window.Closed g.packet then f
    else
      let f := { f with assembly := sweep env.now f.window.high f.assembly }
      match scan g.packet f.assembly 0 (none, none) with
      | (some (k, a), _) => f.place env k a g
      | (none, none) => f
      | (none, some k) =>
        if env.alloc = false then f
        else f.place env k
          { id := g.packet, total := g.total, data := List.replicate g.total 0 } g

/-! ### Peers -/

/-- What `m_udp_flush` and `m_udp_read` look at, and a record of what was sent and arrived. -/
structure Peer where
  ready : Bool := false
  proofReady : Bool := false
  attemptStop : Bool := false
  transportDetaching : Bool := false
  flows : List Flow
  sent : List (List UInt8) := []
  arrived : List (List UInt8) := []
  deriving DecidableEq

def Peer.reads (p : Peer) (env : ReadEnv) : Prop :=
  env.conn = true ∧ p.ready = true ∧ p.proofReady = true ∧ p.attemptStop = false ∧
    p.transportDetaching = false

instance (p : Peer) (env : ReadEnv) : Decidable (p.reads env) :=
  inferInstanceAs (Decidable (_ ∧ _))

def mUdpRead (p : Peer) (env : ReadEnv) (v : List UInt8) : Peer :=
  let p' := { p with arrived := p.arrived ++ [v] }
  if ¬ p.reads env then p'
  else match parse v with
    | none => p'
    | some g => { p' with flows := p.flows.modify (mFind p.flows g.flow) (Flow.read env g) }

/-- What the rest of the mapping code sets. -/
structure Control where
  map : Bool
  transient : Bool
  phase : Phase
  acked : Bool
  closeRequested : Bool
  stream : Bool
  deriving DecidableEq

/-- A dead flow stays dead. -/
def Flow.control (c : Control) (f : Flow) : Flow :=
  if f.phase = .dead then f
  else { f with
    map := c.map, transient := c.transient, phase := c.phase, acked := c.acked
    closeRequested := c.closeRequested, stream := c.stream }

def Flow.expire (now : ℕ) (f : Flow) : Flow :=
  { f with assembly :=
      f.assembly.map (Option.filter fun a => ¬ mExpired now a.updated packetUs) }

/-- `m_drop_udp`. -/
def Flow.release (f : Flow) : Flow :=
  { f with phase := .dead, queue := [], assembly := List.replicate reassembly none }

/-- A flow is there from the start, and one that is freed stays, dead. -/
inductive Act where
  | enqueue (k : ℕ) (data : List UInt8) (now : ℕ) (alloc : Bool)
  | flush (k budget : ℕ) (es : List FlushStep)
  | read (env : ReadEnv) (v : List UInt8)
  | expire (k now : ℕ)
  | release (k : ℕ)
  | control (k : ℕ) (c : Control)
  | link (ready proofReady attemptStop transportDetaching : Bool)
  deriving DecidableEq

def Peer.act (p : Peer) : Act → Peer
  | .enqueue k data now alloc =>
    { p with flows := p.flows.modify k (mUdpEnqueue · data now alloc) }
  | .flush k budget es => { p with
      flows := p.flows.modify k fun f => (mUdpFlush p.ready f budget es).1
      sent := p.sent ++ (p.flows[k]?.elim [] fun f => (mUdpFlush p.ready f budget es).2.1) }
  | .read env v => mUdpRead p env v
  | .expire k now => { p with flows := p.flows.modify k (Flow.expire now) }
  | .release k => { p with flows := p.flows.modify k Flow.release }
  | .control k c => { p with flows := p.flows.modify k (Flow.control c) }
  | .link ready proofReady attemptStop transportDetaching =>
    { p with ready, proofReady, attemptStop, transportDetaching }

/-! ### Two peers -/

/-- The sender and the receiver. -/
structure Pair where
  sender : Peer
  receiver : Peer
  deriving DecidableEq

inductive PairAct where
  | sender (a : Act)
  | receiver (a : Act)
  deriving DecidableEq

def Pair.step (s : Pair) : PairAct → Pair
  | .sender a => { s with sender := s.sender.act a }
  | .receiver a => { s with receiver := s.receiver.act a }

end OhecoBroker.Udp
