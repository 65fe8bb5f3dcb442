/-
The tracked memory of a peer: what `mapping.c` allocates for its flows.  A block is owned by the
record that points to it; `freed` only records the calls of `m_free`.

* `Store`, `mControlAlloc`, `mAlloc`, `mFree`: the counter, and the two kinds of allocation, of
  which the second leaves a reserve;
* `Entry`, `Job`: a flow with its blocks, and a resolution;
* `mReleaseIo`, `mTcpBuffers`, `mReleaseIo_snd`, `mTcpBuffers_ok`: a flow gives back its blocks,
  and gets its buffers.
-/
import OhecoBroker.Mapping.Recovery

namespace OhecoBroker.Flows

open Lib
open Mapping

/-- `M_MEMORY`. -/
def memoryMax : ℕ := 16 * 1024 * 1024

/-- The sizes of `struct ob_flow`, `struct m_resolve` and `struct m_udp_packet`. -/
structure Sizes where
  flow : ℕ
  job : ℕ
  packet : ℕ
  fits : (512 + 2) * flow ≤ memoryMax

/-- `m_resolve.state`. -/
inductive JobState where
  | queued | running | done
  deriving DecidableEq

/-- `struct m_resolve`; `block` is the size it was allocated with. -/
structure Job where
  owner : ℕ
  host : List UInt8
  port : ℕ
  protocol : ℕ
  state : JobState := .queued
  detached : Bool := false
  result : ℤ := 0
  family : Bool := false
  block : ℕ
  deriving DecidableEq

/-- The job can be reaped: detached, and no thread is at work on it. -/
def Job.idle (j : Job) : Bool := j.detached && j.state != .running

/-- A call of `m_free`: the size allocated, the size passed, the counter before. -/
structure Freed where
  block : ℕ
  size : ℕ
  memory : ℕ
  deriving DecidableEq

/-- The allocation state of `struct m_state`. -/
structure Store where
  memory : ℕ := 0
  jobs : List Job := []
  resolvers : Bool := false
  freed : List Freed := []
  deriving DecidableEq

/-- `m_control_alloc`. -/
def mControlAlloc (s : Store) (n : ℕ) (calloc : Bool) : Option Store :=
  if memoryMax < n ∨ memoryMax - n < s.memory ∨ calloc = false then none
  else some { s with memory := s.memory + n }

/-- What `m_alloc` leaves for incoming flows. -/
def reserve (z : Sizes) (maxFlows : ℕ) : ℕ := (mLimit maxFlows 128 512 + 2) * z.flow

def mAlloc (z : Sizes) (maxFlows : ℕ) (s : Store) (n : ℕ) (calloc : Bool) : Option Store :=
  let limit := memoryMax - reserve z maxFlows
  if limit < n ∨ limit - n < s.memory then none else mControlAlloc s n calloc

/-- `m_free`; the counter is a `size_t`. -/
def mFree (s : Store) (block : Option ℕ) (n : ℕ) : Store :=
  match block with
  | none => s
  | some size =>
    { s with
      memory := (s.memory + (2 ^ 64 - n % 2 ^ 64)) % 2 ^ 64
      freed := s.freed ++ [⟨size, n, s.memory⟩] }

/-- A block from the whole memory. -/
lemma mControlAlloc_spec {s s' : Store} {n : ℕ} {calloc : Bool}
    (h : mControlAlloc s n calloc = some s') :
    s.memory + n ≤ memoryMax ∧ s' = { s with memory := s.memory + n } := by
  simp only [mControlAlloc, Option.ite_none_left_eq_some, Option.some.injEq] at h
  exact ⟨by omega, h.2.symm⟩

lemma mAlloc_spec {z : Sizes} {maxFlows : ℕ} {s s' : Store} {n : ℕ} {calloc : Bool}
    (h : mAlloc z maxFlows s n calloc = some s') :
    s.memory + n ≤ memoryMax - reserve z maxFlows ∧ s' = { s with memory := s.memory + n } := by
  simp only [mAlloc, Option.ite_none_left_eq_some] at h
  exact ⟨by omega, (mControlAlloc_spec h.2).2⟩

/-! ### Flows with their blocks -/

/-- A queued packet: its length and its block. -/
structure PacketBlock where
  len : ℕ
  block : ℕ
  deriving DecidableEq

/-- An assembly: its total and its block. -/
structure AssemblyBlock where
  total : ℕ
  block : ℕ
  deriving DecidableEq

def assemblySize (total : ℕ) : ℕ := if total = 0 then 1 else total

/-- A flow; `key` stands for its address, `record` is the size of its block. -/
structure Entry where
  key : ℕ
  record : ℕ
  proof : Bool := false
  proofReplyReady : Bool := false
  flow : Flow := {}
  tx : Option ℕ := none
  rx : Option ℕ := none
  packets : List PacketBlock := []
  assembly : List (Option AssemblyBlock) := List.replicate 4 none
  resolve : Bool := false
  deriving DecidableEq

def mResolveDetach (s : Store) (r : Entry) : Store × Entry :=
  if r.resolve = false then (s, r)
  else
    ({ s with jobs := s.jobs.map fun j =>
        if j.owner = r.key then { j with detached := true } else j },
      { r with resolve := false })

/-- The packets of `m_drop_udp`. -/
def dropPackets (z : Sizes) (s : Store) : List PacketBlock → Store
  | [] => s
  | q :: qs => dropPackets z (mFree s (some q.block) (z.packet + q.len)) qs

def dropAssemblies (s : Store) : List (Option AssemblyBlock) → Store
  | [] => s
  | a :: as =>
    dropAssemblies
      (mFree s (a.map AssemblyBlock.block) (assemblySize (a.elim 0 AssemblyBlock.total))) as

def mDropUdp (z : Sizes) (s : Store) (r : Entry) : Store × Entry :=
  (dropAssemblies (dropPackets z s r.packets) r.assembly,
    { r with packets := [], assembly := List.replicate 4 none })

def mReleaseIo (z : Sizes) (s : Store) (r : Entry) : Store × Entry :=
  let (s, r) := mResolveDetach s r
  let r := { r with flow := { r.flow with fd := false, tx := [], rx := [] } }
  let s := mFree s r.tx streamBuffer
  let s := mFree s r.rx streamBuffer
  mDropUdp z s { r with tx := none, rx := none }

lemma mReleaseIo_flow (z : Sizes) (s : Store) (r : Entry) (f : Flow) :
    (mReleaseIo z s { r with flow := f }).1 = (mReleaseIo z s r).1 := by
  simp only [mReleaseIo, mDropUdp, mResolveDetach]
  split <;> rfl

def allocBuffer (z : Sizes) (maxFlows : ℕ) (s : Store) (calloc : Bool) : Store × Option ℕ :=
  match mAlloc z maxFlows s streamBuffer calloc with
  | none => (s, none)
  | some s => (s, some streamBuffer)

/-- `m_tcp_buffers`, and whether it returns `0`. -/
def mTcpBuffers (z : Sizes) (maxFlows : ℕ) (s : Store) (r : Entry) (callocTx callocRx : Bool) :
    Store × Entry × Bool :=
  let (s, tx) := allocBuffer z maxFlows s callocTx
  let (s, rx) := allocBuffer z maxFlows s callocRx
  let r := { r with tx, rx }
  if tx = none ∨ rx = none then
    let (s, r) := mReleaseIo z s r
    (s, r, false)
  else (s, r, true)

/-! ### A flow without its blocks -/

/-- What `m_release_io` leaves of a flow. -/
def Entry.bare (r : Entry) : Entry :=
  { r with
    flow := { r.flow with fd := false, tx := [], rx := [] }, tx := none, rx := none
    packets := [], assembly := List.replicate 4 none, resolve := false }

lemma mResolveDetach_snd (s : Store) (r : Entry) :
    (mResolveDetach s r).2 = { r with resolve := false } := by
  unfold mResolveDetach
  split
  · rename_i h
    rw [← h]
  · rfl

lemma mReleaseIo_snd (z : Sizes) (s : Store) (r : Entry) : (mReleaseIo z s r).2 = r.bare := by
  simp only [mReleaseIo, mDropUdp, mResolveDetach_snd, Entry.bare]

lemma allocBuffer_jobs (z : Sizes) (maxFlows : ℕ) (s : Store) (calloc : Bool) :
    (allocBuffer z maxFlows s calloc).1.jobs = s.jobs := by
  unfold allocBuffer
  split
  · rfl
  · rename_i s' hs
    rw [(mAlloc_spec hs).2]

lemma mTcpBuffers_ok {z : Sizes} {maxFlows : ℕ} {s : Store} {r : Entry} {a b : Bool}
    (h : (mTcpBuffers z maxFlows s r a b).2.2 ≠ false) :
    (mTcpBuffers z maxFlows s r a b).1.jobs = s.jobs ∧
      ∃ tx rx, (mTcpBuffers z maxFlows s r a b).2.1 = { r with tx, rx } := by
  simp only [mTcpBuffers] at h ⊢
  split at h
  · exact absurd rfl h
  · rename_i hbuf
    simp only [if_neg hbuf, allocBuffer_jobs, true_and]
    exact ⟨_, _, rfl⟩

/-- Without memory the flow is bare. -/
lemma mTcpBuffers_flow (z : Sizes) (maxFlows : ℕ) (s : Store) (r : Entry) (a b : Bool) :
    (mTcpBuffers z maxFlows s r a b).2.1.flow = r.flow ∨
      (mTcpBuffers z maxFlows s r a b).2.1.flow = r.bare.flow := by
  simp only [mTcpBuffers]
  split
  · rw [mReleaseIo_snd]
    exact .inr rfl
  · exact .inl rfl

@[simp] lemma mTcpBuffers_isLocal (z : Sizes) (maxFlows : ℕ) (s : Store) (r : Entry) (a b : Bool) :
    (mTcpBuffers z maxFlows s r a b).2.1.flow.isLocal = r.flow.isLocal := by
  rcases mTcpBuffers_flow z maxFlows s r a b with h | h
  · rw [h]
  · rw [h]
    rfl

@[simp] lemma mTcpBuffers_phase (z : Sizes) (maxFlows : ℕ) (s : Store) (r : Entry) (a b : Bool) :
    (mTcpBuffers z maxFlows s r a b).2.1.flow.phase = r.flow.phase := by
  rcases mTcpBuffers_flow z maxFlows s r a b with h | h
  · rw [h]
  · rw [h]
    rfl

end OhecoBroker.Flows
