/-
The flows of one peer: how they come and go, and how a target is resolved and connected.

* `Table`, `Table.onFlow`: a peer with its flows and their memory, and a function of the mapping
  code on one of them;
* `mFlowNew`, `mFlowFree`, `mCreate`, `mLocalFlow`, `handshake`: flows come and go;
* `mResolveStart`, `mResolveTick`, `connecting`, `mResolveReap`: targets;
* `mUdpEnqueue`, `mUdpPop`, `mAssemblyNew`, `mAssemblyDrop`: the blocks of a UDP flow.

Some fields are only recorded, as keys of flows: `opens` and `resumes` have those whose header was
accepted, `started`, `resolutions` and `connects` those whose target was looked up, resolved and
connected; `attached` has the flows a `RESUME` was bound to, as they were, with the time.
`verified` says that the proof of the other side matched on this connection.
-/
import OhecoBroker.Flows.Store
import OhecoBroker.Mapping.Link

namespace OhecoBroker.Flows

open Lib
open Mapping

/-- `OB_REMOTE_ENOMEM`, `OB_REMOTE_EIO` and `OB_REMOTE_ELIMIT`. -/
def eNomem : ℤ := -2
@[inherit_doc eNomem] def eIo : ℤ := -9
@[inherit_doc eNomem] def eLimit : ℤ := -11

/-- The flows of a peer, the newest first. -/
structure Table where
  peer : Peer
  flows : List Entry := []
  store : Store := {}
  proofStarted : Bool := false
  nextFlowId : ℕ := 0
  nextKey : ℕ := 0
  verified : Bool := false
  opens : List (ℕ × Bool) := []
  resumes : List ℕ := []
  started : List ℕ := []
  resolutions : List ℕ := []
  connects : List ℕ := []
  attached : List (Flow × ℕ) := []
  deriving DecidableEq

namespace Table

/-- All but the proof stream. -/
def data (t : Table) : List Flow := (t.flows.filter fun r => !r.proof).map Entry.flow

/-- `m_limit(p->max_flows, 128U, M_FLOWS)`. -/
def limit (t : Table) : ℕ := mLimit t.peer.maxFlows 128 512

def put (t : Table) (k : ℕ) (s : Store) (r : Entry) : Table :=
  { t with store := s, flows := t.flows.set k r }

/-- `m_release_io`. -/
def release (z : Sizes) (t : Table) (k : ℕ) (r : Entry) : Table :=
  let (s, r) := mReleaseIo z t.store r
  t.put k s r

/-- `m_abort`. -/
def abort (z : Sizes) (t : Table) (k : ℕ) (r : Entry) : Table :=
  t.release z k { r with flow := mAbort r.flow }

/-- A flow that dies in the function was aborted. -/
def onFlow (z : Sizes) (t : Table) (k : ℕ) (g : Side → Side) : Table :=
  match t.flows[k]? with
  | none => t
  | some r =>
    let s := g ⟨t.peer, r.flow⟩
    let t := { t with peer := s.peer }
    if r.flow.phase ≠ .dead ∧ s.flow.phase = .dead then t.release z k { r with flow := s.flow }
    else t.put k t.store { r with flow := s.flow }

/-! ### Flows come and go -/

def mFlowNew (z : Sizes) (t : Table) (calloc : Bool) : Option Table :=
  if 2 * t.limit + 2 ≤ t.flows.length then none
  else match mControlAlloc t.store z.flow calloc with
    | none => none
    | some s => some { t with
        store := s, nextKey := t.nextKey + 1
        flows := { key := t.nextKey, record := z.flow, flow := { created := t.peer.now } } ::
          t.flows }

/-- `m_flow_free`. -/
def mFlowFree (z : Sizes) (t : Table) (k : ℕ) : Table :=
  match t.flows[k]? with
  | none => t
  | some r =>
    let (s, r) := mReleaseIo z t.store r
    { t with flows := t.flows.eraseIdx k, store := mFree s (some r.record) z.flow }

/-- `m_create` for a stream the other side opened. -/
def mCreate (z : Sizes) (t : Table) (bidi first tls calloc : Bool) : Table :=
  let p := t.peer
  if p.stop = true ∨ p.attemptStop = true ∨ p.conn = false then t
  else
    let proof := !p.ready
    if bidi = false ∨ (proof = true ∧ (p.isServer = false ∨ tls = false ∨ first = false)) then
      if proof then { t with peer := peerFail p } else t
    else if proof = true ∧ t.proofStarted = true then t
    else match t.mFlowNew z calloc with
      | none => t
      | some t => match t.flows with
        | [] => t
        | r :: rs => { t with
            proofStarted := t.proofStarted || proof
            flows := { r with
              proof, flow := { r.flow with stream := true, transient := !proof } } :: rs }

structure LocalEnv where
  target : Target
  protocol : ℕ
  fd : Bool
  callocFlow : Bool := true
  callocTx : Bool := true
  callocRx : Bool := true
  created : Bool := true
  flush : SendResult := {}
  timeoutMs : ℕ := 0
  deriving DecidableEq

/-- The new flow sends its `OPEN` or waits for a connection. -/
def localOpen (z : Sizes) (t : Table) (r : Entry) (env : LocalEnv) : Table :=
  let p := t.peer
  if env.protocol = protoTcp ∧ (p.ready = false ∨ p.proofReady = false ∨
      p.attemptStop = true ∨ p.conn = false) then
    t.put 0 t.store { r with flow := { r.flow with
      pendingOpen := true, suspended := true, phase := .active, fd := env.fd
      graceDeadlineUs := p.now + env.timeoutMs * 1000 } }
  else if p.conn = false ∨ p.stop = true ∨ p.attemptStop = true ∨ env.created = false then
    t.mFlowFree z 0
  else
    let t := t.put 0 t.store { r with flow := { r.flow with
      reply := mHeader .open env.protocol (env.target.host.length + 2) r.flow.id ++
        beBytes 2 env.target.port ++ env.target.host
      stream := true, fd := env.fd } }
    t.onFlow z 0 (mReplyFlush · env.flush)

/-- `m_local_flow`, for a socket or a UDP source of a map. -/
def mLocalFlow (z : Sizes) (t : Table) (env : LocalEnv) : Table :=
  let p := t.peer
  if t.limit ≤ mDataFlowCount t.data then t
  else match t.mFlowNew z env.callocFlow with
    | none => t
    | some t => match t.flows with
      | [] => t
      | r :: rs =>
        let r := { r with flow := { r.flow with
          isLocal := true, protocol := env.protocol, map := some env.target
          wireVersion := p.wireVersion } }
        if 2 ^ 63 - 1 ≤ t.nextFlowId then { t with flows := r :: rs }.mFlowFree z 0
        else
          let id := (t.nextFlowId + 1) * 2 + (if p.isServer then 0 else 1)
          let r := { r with flow := { r.flow with id := UInt64.ofNat id } }
          let t := { t with nextFlowId := t.nextFlowId + 1, flows := r :: rs }
          if env.protocol = protoTcp then
            let (s, r, ok) := mTcpBuffers z p.maxFlows t.store r env.callocTx env.callocRx
            if ok = false then (t.put 0 s r).mFlowFree z 0 else (t.put 0 s r).localOpen z r env
          else t.localOpen z r env

/-- The start of the channel proof, on a client. -/
def handshake (z : Sizes) (t : Table) (proof : Option (List UInt8)) (calloc created first : Bool) :
    Table :=
  let p := t.peer
  if p.conn = false ∨ p.isServer = true ∨ t.proofStarted = true then t
  else match t.mFlowNew z calloc with
    | none => { t with peer := peerFail p }
    | some t => match t.flows with
      | [] => t
      | r :: rs =>
        let r := { r with proof := true, flow := { r.flow with isLocal := true } }
        let t := { t with proofStarted := true, flows := r :: rs }
        match proof with
        | none => { t with peer := peerFail p }.mFlowFree z 0
        | some bytes =>
          if p.stop = true ∨ p.attemptStop = true ∨ created = false then
            { t with peer := peerFail p }.mFlowFree z 0
          else
            let r := { r with flow := { r.flow with stream := true } }
            if first = false then { t with peer := peerFail p }.abort z 0 r
            else t.put 0 t.store { r with flow := { r.flow with
              reply := mHeader .proof 0 32 0 ++ bytes } }

/-! ### Resolution -/

/-- `m_resolve_start`, and what it returns. -/
def mResolveStart (z : Sizes) (t : Table) (k : ℕ) (r : Entry) (host : List UInt8) (port : ℕ)
    (threads calloc : Bool) : Table × ℤ :=
  if t.store.resolvers = false ∧ threads = false then (t, eIo)
  else
    let t := { t with store := { t.store with resolvers := true } }
    if 32 ≤ t.store.jobs.length then (t, eLimit)
    else match mAlloc z t.peer.maxFlows t.store z.job calloc with
      | none => (t, eNomem)
      | some s =>
        let job : Job := { owner := r.key, host, port, protocol := r.flow.protocol, block := z.job }
        ({ t.put k { s with jobs := job :: s.jobs }
            { r with resolve := true, flow := { r.flow with phase := .resolving } } with
            started := t.started ++ [r.key] }, 0)

inductive ConnectRet where
  | ok | inProgress | error
  deriving DecidableEq

structure ResolveEnv where
  callocTx : Bool := true
  callocRx : Bool := true
  socket : Bool := true
  connect : ConnectRet := .ok
  deriving DecidableEq

/-- The target socket is made and connected. -/
def connectSocket (t : Table) (k : ℕ) (r : Entry) (env : ResolveEnv) : Table :=
  if env.socket = false then t.put k t.store { r with flow := mAck { r.flow with fd := false } eIo }
  else
    let r := { r with flow := { r.flow with fd := true } }
    let t := { t with connects := t.connects ++ [r.key] }
    match env.connect with
    | .ok => t.put k t.store { r with flow := mAck r.flow 0 }
    | .inProgress =>
      if r.flow.protocol = protoTcp then
        t.put k t.store { r with flow := { r.flow with phase := .connecting } }
      else t.put k t.store { r with flow := mAck r.flow eIo }
    | .error => t.put k t.store { r with flow := mAck r.flow eIo }

def connectTarget (z : Sizes) (t : Table) (k : ℕ) (r : Entry) (env : ResolveEnv) : Table :=
  if r.flow.protocol = protoTcp then
    let (s, r, ok) := mTcpBuffers z t.peer.maxFlows t.store r env.callocTx env.callocRx
    let t := t.put k s r
    if ok = false then t.put k s { r with flow := mAck r.flow eNomem } else t.connectSocket k r env
  else t.connectSocket k r env

/-- `m_resolve_tick`. -/
def mResolveTick (z : Sizes) (t : Table) (k : ℕ) (env : ResolveEnv) : Table :=
  match t.flows[k]? with
  | none => t
  | some r =>
    if r.flow.phase ≠ .resolving then t
    else match t.store.jobs.find? fun j => r.resolve && j.owner == r.key with
      | none => t.abort z k r
      | some job =>
        if job.state ≠ .done then t
        else
          let (s, r) := mResolveDetach t.store r
          let t := t.put k s r
          if job.result ≠ 0 then t.put k s { r with flow := mAck r.flow job.result }
          else if job.family = false then t.put k s { r with flow := mAck r.flow eIo }
          else t.connectTarget z k r env

/-- The tick of a flow in `M_CONNECTING`; `failed` is what `getsockopt` says. -/
def connecting (t : Table) (k : ℕ) (failed : Bool) : Table :=
  match t.flows[k]? with
  | none => t
  | some r =>
    if r.flow.phase ≠ .connecting then t
    else t.put k t.store { r with flow := mAck r.flow (if failed then eIo else 0) }

def resolverTake (t : Table) (owner : ℕ) : Table :=
  if t.store.jobs.any fun j => j.owner == owner && j.state == .queued then
    { t with
      resolutions := t.resolutions ++ [owner]
      store := { t.store with jobs := t.store.jobs.map fun j =>
        if j.owner = owner then { j with state := .running } else j } }
  else t

def resolverDone (t : Table) (owner : ℕ) (result : ℤ) (family : Bool) : Table :=
  { t with store := { t.store with jobs := t.store.jobs.map fun j =>
      if j.owner = owner ∧ j.state = .running then
        { j with state := .done, result, family }
      else j } }

/-- What `m_resolve_reap` frees. -/
def reapBlocks (z : Sizes) (s : Store) : List Job → Store
  | [] => s
  | j :: js => reapBlocks z (if j.idle then mFree s (some j.block) z.job else s) js

lemma reapBlocks_jobs (z : Sizes) (s : Store) (js : List Job) :
    (reapBlocks z s js).jobs = s.jobs := by
  induction js generalizing s with
  | nil => rfl
  | cons j js ih =>
    rw [reapBlocks, ih]
    split <;> rfl

def mResolveReap (z : Sizes) (t : Table) : Table :=
  let s := reapBlocks z t.store t.store.jobs
  { t with store := { s with jobs := s.jobs.filter fun j => !j.idle } }

/-! ### The blocks of a UDP flow -/

/-- The allocation of `m_udp_enqueue`. -/
def mUdpEnqueue (z : Sizes) (t : Table) (k len : ℕ) (calloc : Bool) : Table :=
  match t.flows[k]? with
  | none => t
  | some r =>
    if udpMax < len ∨ 4 ≤ r.packets.length ∨ r.flow.phase = .dead then t
    else match mAlloc z t.peer.maxFlows t.store (z.packet + len) calloc with
      | none => t
      | some s => t.put k s { r with packets := r.packets ++ [⟨len, z.packet + len⟩] }

def mUdpPop (z : Sizes) (t : Table) (k : ℕ) : Table :=
  match t.flows[k]? with
  | none => t
  | some r => match r.packets with
    | [] => t
    | q :: qs => t.put k (mFree t.store (some q.block) (z.packet + q.len)) { r with packets := qs }

/-- The allocation of `m_udp_read`. -/
def mAssemblyNew (z : Sizes) (t : Table) (k slot total : ℕ) (calloc : Bool) : Table :=
  match t.flows[k]? with
  | none => t
  | some r =>
    if udpMax < total ∨ r.assembly[slot]? ≠ some none ∨ r.flow.phase ≠ .active then t
    else match mAlloc z t.peer.maxFlows t.store (assemblySize total) calloc with
      | none => t
      | some s => t.put k s { r with
          assembly := r.assembly.set slot (some ⟨total, assemblySize total⟩) }

def mAssemblyDrop (t : Table) (k slot : ℕ) : Table :=
  match t.flows[k]? with
  | none => t
  | some r => match r.assembly[slot]? with
    | some (some a) =>
      t.put k (mFree t.store (some a.block) (assemblySize a.total))
        { r with assembly := r.assembly.set slot none }
    | _ => t

end Table

end OhecoBroker.Flows
