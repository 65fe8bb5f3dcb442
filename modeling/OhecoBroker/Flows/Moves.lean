/-
Everything a step can do to the flows of a peer, as a few kinds of moves.  The invariants of the
peer are proved once for each kind; that a step is a sequence of moves is proved here, function by
function.

* `Move`, `Moves`: one change, and a sequence of changes;
* `onFlow_moves`, `transportReady_moves`: data functions and a new connection;
* `mCreate_moves`, `mLocalFlow_moves`, `mResolveTick_moves`: flows and their targets;
* `mHeaderCheck_incoming`, `mV2ControlDone_spec`, `controlRead_moves`: control messages;
* `Table.step_moves`: **every step is a sequence of moves**.
-/
import OhecoBroker.Flows.Carried
import OhecoBroker.Mapping.Kept

namespace OhecoBroker.Flows

open Lib
open Mapping
open Relation

/-- A flow that `m_flow_new` made; one not opened by this side starts as a placeholder. -/
structure Entered (z : Sizes) (own : Prop) (t : Table) (r : Entry) : Prop where
  key : r.key = t.nextKey
  record : r.record = z.flow
  tx : r.tx = none
  rx : r.rx = none
  packets : r.packets = []
  assembly : r.assembly = List.replicate 4 none
  resolve : r.resolve = false
  replyReady : r.proofReplyReady = false
  fd : r.flow.fd = false
  phase : r.flow.phase = .control
  pendingOpen : r.flow.pendingOpen = false
  need : r.flow.controlNeed = controlHeader
  own : r.flow.isLocal = true → own
  incoming : r.proof = false → r.flow.isLocal = false → r.flow.transient = true
  admitted : r.proof = false → r.flow.transient = false → mDataFlowCount t.data < t.limit

/-- A flow that goes on another stream, or waits for one. -/
structure Reopened (f g : Flow) : Prop where
  own : f.isLocal = true ∨ f.pendingOpen = true
  isLocal : g.isLocal = f.isLocal
  transient : g.transient = f.transient
  live : f.phase ≠ .dead
  phase : g.phase ≠ .resolving
  closed : g.phase = .dead → g.fd = true → f.transient = true

/-- A flow whose target socket was connected, or not. -/
structure Connected (f g : Flow) : Prop where
  id : g.id = f.id
  isLocal : g.isLocal = f.isLocal
  transient : g.transient = f.transient
  pendingOpen : g.pendingOpen = f.pendingOpen
  phase : g.phase = .reply ∨ g.phase = .connecting

/-- A whole control message was read, for no flow of this side. -/
structure Complete (r : Entry) : Prop where
  proof : r.proof = false
  isLocal : r.flow.isLocal = false
  phase : r.flow.phase = .control
  need : r.flow.controlNeed ≠ controlHeader

/-- One change. -/
inductive Move (z : Sizes) (own : Prop) (t : Table) : Table → Prop
  | peer {p : Peer} (h : Steady t.peer p) : Move z own t { t with peer := p }
  | flowId (n : ℕ) : Move z own t { t with nextFlowId := n }
  | proofStarted (b : Bool) : Move z own t { t with proofStarted := b }
  | resolvers : Move z own t { t with store := { t.store with resolvers := true } }
  | flow {k : ℕ} {r : Entry} {f : Flow} (hk : t.flows[k]? = some r) (hf : Carried r.flow f) :
      Move z own t (t.put k t.store { r with flow := f })
  | reopen {k : ℕ} {r : Entry} {f : Flow} (hk : t.flows[k]? = some r) (hf : Reopened r.flow f) :
      Move z own t (t.put k t.store { r with flow := f })
  | need {k : ℕ} {r : Entry} (n : ℕ) (hk : t.flows[k]? = some r)
      (hp : r.proof = true ∨ r.flow.isLocal = true) :
      Move z own t (t.put k t.store { r with flow := { r.flow with controlNeed := n } })
  | enter {s : Store} {calloc b : Bool} {r : Entry} (hlen : t.flows.length < 2 * t.limit + 2)
      (hs : mControlAlloc t.store z.flow calloc = some s) (hr : Entered z own t r) :
      Move z own t
        { t with store := s, nextKey := t.nextKey + 1, proofStarted := b, flows := r :: t.flows }
  | release {k : ℕ} {r : Entry} (hk : t.flows[k]? = some r) : Move z own t (t.release z k r)
  | dropUdp {k : ℕ} {r : Entry} (hk : t.flows[k]? = some r) :
      Move z own t (t.put k (mDropUdp z t.store r).1 (mDropUdp z t.store r).2)
  | free (k : ℕ) : Move z own t (t.mFlowFree z k)
  | cleanup : Move z own t (t.cleanup z)
  | openHeader {k : ℕ} {r : Entry} {f : Flow} (hk : t.flows[k]? = some r) (hp : r.proof = false)
      (hl : r.flow.isLocal = false) (hc : r.flow.phase = .control)
      (hn : r.flow.control.length = controlHeader ∧ r.flow.controlNeed = controlHeader)
      (hkind : field r.flow.control 4 1 = ControlKind.open.code)
      (hf : mHeaderCheck t.peer t.data r.flow = some f) :
      Move z own t { t.put k t.store { r with flow := f } with
        opens := t.opens ++ [(r.key, t.peer.ready && t.peer.proofReady && t.verified)] }
  | resumeHeader {k : ℕ} {r : Entry} {f : Flow} (hk : t.flows[k]? = some r) (hp : r.proof = false)
      (hl : r.flow.isLocal = false) (hc : r.flow.phase = .control)
      (hn : r.flow.control.length = controlHeader ∧ r.flow.controlNeed = controlHeader)
      (hkind : field r.flow.control 4 1 = ControlKind.resume.code)
      (hf : mHeaderCheck t.peer t.data r.flow = some f) :
      Move z own t { t.put k t.store { r with flow := f } with resumes := t.resumes ++ [r.key] }
  | start {k : ℕ} {r : Entry} {s : Store} {calloc : Bool} {job : Job}
      (hk : t.flows[k]? = some r) (hr : Complete r)
      (hkind : field r.flow.control 4 1 ≠ ControlKind.resume.code)
      (hs : mAlloc z t.peer.maxFlows t.store z.job calloc = some s) (howner : job.owner = r.key)
      (hblock : job.block = z.job) (hstate : job.state = .queued) :
      Move z own t { t.put k { s with jobs := job :: s.jobs }
        { r with resolve := true, flow := { r.flow with phase := .resolving } } with
        started := t.started ++ [r.key] }
  | detachJob {k : ℕ} {r : Entry} (hk : t.flows[k]? = some r) :
      Move z own t (t.put k (mResolveDetach t.store r).1 (mResolveDetach t.store r).2)
  | buffers {k : ℕ} {r : Entry} {x : Store × Entry} (a b : Bool) (hk : t.flows[k]? = some r)
      (hr : (r.flow.phase = .resolving ∧ r.resolve = true) ∨
        (r.flow.isLocal = true ∧ r.flow.phase = .control ∧ r.tx = none ∧ r.rx = none))
      (hx : mResolveDetach t.store r = x) :
      Move z own t (t.put k (mTcpBuffers z t.peer.maxFlows x.1 x.2 a b).1
        (mTcpBuffers z t.peer.maxFlows x.1 x.2 a b).2.1)
  | connect {k : ℕ} {r : Entry} {f : Flow} {job : Job} (hk : t.flows[k]? = some r)
      (hr : r.flow.phase = .resolving) (hjob : job ∈ t.store.jobs) (howner : job.owner = r.key)
      (hdone : job.state = .done) (hf : Connected r.flow f) :
      Move z own t { t.put k t.store { r with flow := f } with connects := t.connects ++ [r.key] }
  | resolverTake (owner : ℕ) : Move z own t (t.resolverTake owner)
  | resolverDone (owner : ℕ) (result : ℤ) (family : Bool) :
      Move z own t (t.resolverDone owner result family)
  | reap : Move z own t (t.mResolveReap z)
  | udpEnqueue (k len : ℕ) (calloc : Bool) : Move z own t (t.mUdpEnqueue z k len calloc)
  | udpPop (k : ℕ) : Move z own t (t.mUdpPop z k)
  | assemblyNew (k slot total : ℕ) (calloc : Bool) :
      Move z own t (t.mAssemblyNew z k slot total calloc)
  | assemblyDrop (k slot : ℕ) : Move z own t (t.mAssemblyDrop k slot)
  | attach {k o : ℕ} {r q : Entry} {g : Flow} (hk : t.flows[k]? = some r) (hr : Complete r)
      (hkind : field r.flow.control 4 1 ≠ ControlKind.open.code)
      (ho : t.flows[o]? = some q) (hq : q.proof = false) (ht : q.flow.transient = false)
      (hres : resumable t.peer q.flow) (hg : Carried q.flow g) :
      Move z own t { (t.put o t.store { q with flow := g }).put k t.store { r with
          flow := { r.flow with stream := false, phase := .dead, closeRequested := true } } with
        attached := t.attached ++ [(q.flow, t.peer.now)] }
  | verify {k : ℕ} {r : Entry} {f : Flow} (hk : t.flows[k]? = some r) (hp : r.proof = true)
      (hf : Carried r.flow f) :
      Move z own t { t.put k t.store { r with proofReplyReady := true, flow := f } with
        verified := true }
  | ready {k : ℕ} {r : Entry} (hk : t.flows[k]? = some r) (hp : r.proof = true)
      (hr : r.proofReplyReady = true) (hlive : r.flow.phase ≠ .dead) :
      Move z own t { t with peer := { t.peer with ready := true, proofReady := true } }
  | detached {p : Peer} (h : Steady t.peer p) (hr : p.ready = false)
      (hd : ∀ r ∈ t.flows, r.proof = true → r.flow.phase = .dead) :
      Move z own t { t with verified := false, peer := p }

/-- A sequence of moves. -/
abbrev Moves (z : Sizes) (own : Prop) : Table → Table → Prop := ReflTransGen (Move z own)

variable {z : Sizes} {own : Prop} {t t' : Table} {k : ℕ} {r : Entry}

lemma Reopened.carried {f g u : Flow} (h : Reopened f g) (hp : g.phase = .control)
    (hc : Carried g u) : Reopened f u where
  __ := h
  isLocal := hc.isLocal.trans h.isLocal
  transient := hc.transient.trans h.transient
  phase := by
    rcases hc.phase with hu | hu
    · simp [hu, hp]
    · exact hu.2
  closed hd hf := by
    rcases hc.closed hd hf with hg | ht
    · simp [hp] at hg
    · exact h.transient ▸ ht

namespace Table

/-! ### Places of the table -/

variable {s : Store} {f g : Flow} {p : Peer} {fs : List Flow}

/-- A flow that is replaced is found at its place. -/
lemma put_get {r' : Entry} (hk : t.flows[k]? = some r) : (t.put k s r').flows[k]? = some r' := by
  obtain ⟨hlt, -⟩ := List.getElem?_eq_some_iff.mp hk
  simp [put, hlt]

@[simp] lemma put_put (t : Table) (k : ℕ) (s s' : Store) (r r' : Entry) :
    (t.put k s r).put k s' r' = t.put k s' r' := by
  simp [put]

@[simp] lemma put_store (t : Table) (k : ℕ) (s : Store) (r : Entry) : (t.put k s r).store = s := rfl

@[simp] lemma put_peer (t : Table) (k : ℕ) (s : Store) (r : Entry) : (t.put k s r).peer = t.peer :=
  rfl

@[simp] lemma put_release (t : Table) (k : ℕ) (r r' : Entry) :
    (t.put k t.store r).release z k r' = t.release z k r' := by
  simp [release]

lemma release_of_put {r' : Entry} (hk : t.flows[k]? = some r)
    (hput : Moves z own t (t.put k t.store r')) : Moves z own t (t.release z k r') := by
  refine hput.tail ?_
  rw [← put_release t k r' r']
  exact .release (put_get hk)

/-- A flow changes and gives back its blocks. -/
lemma release_moves (hk : t.flows[k]? = some r) (hf : Carried r.flow f) :
    Moves z own t (t.release z k { r with flow := f }) :=
  release_of_put hk (.single (.flow hk hf))

lemma abort_moves (hk : t.flows[k]? = some r) : Moves z own t (t.abort z k r) :=
  release_moves hk (mAbort_carried r.flow)

lemma onFlow_moves_of {g : Side → Side} (hg : ∀ s, Steady s.peer (g s).peer ∧
    (Carried s.flow (g s).flow ∨ Reopened s.flow (g s).flow)) : Moves z own t (t.onFlow z k g) := by
  unfold onFlow
  split
  · exact .refl
  rename_i r hk
  obtain ⟨hsteady, hflow⟩ := hg ⟨t.peer, r.flow⟩
  dsimp only
  generalize g ⟨t.peer, r.flow⟩ = s at hsteady hflow
  have hpeer : Moves z own t { t with peer := s.peer } := .single (.peer hsteady)
  have hput : Moves z own { t with peer := s.peer }
      ({ t with peer := s.peer }.put k t.store { r with flow := s.flow }) := by
    rcases hflow with hf | hf
    · exact .single (.flow (by exact hk) hf)
    · exact .single (.reopen (by exact hk) hf)
  split
  · exact hpeer.trans (release_of_put (by exact hk) hput)
  · exact hpeer.trans hput

lemma onFlow_moves {g : Side → Side} (hg : ∀ s, SideCarried s (g s)) :
    Moves z own t (t.onFlow z k g) :=
  onFlow_moves_of fun s => ⟨(hg s).peer, .inl (hg s).flow⟩

/-! ### Ready -/

lemma streamOpen_reopened {s : Side} (hf : Reopened f s.flow)
    (hp : s.flow.phase = .control) (created : Bool) (flush : SendResult) :
    Steady s.peer (match mStreamOpen s created with
      | none => (s, false)
      | some s => (mReplyFlush s flush, true)).1.peer ∧
    Reopened f (match mStreamOpen s created with
      | none => (s, false)
      | some s => (mReplyFlush s flush, true)).1.flow := by
  split
  · exact ⟨.refl _, hf⟩
  rename_i u hu
  simp only [mStreamOpen, Option.ite_none_left_eq_some, Option.some.injEq] at hu
  obtain ⟨-, rfl⟩ := hu
  have hc := mReplyFlush_carried ⟨{ s.peer with awaiting := false }, { s.flow with stream := true }⟩
    flush
  have hawait : Steady s.peer { s.peer with awaiting := false } := ⟨rfl, rfl, fun h => h⟩
  have hstream : Carried s.flow { s.flow with stream := true } := .of_place rfl
  exact ⟨hawait.trans hc.peer, hf.carried hp (hstream.trans hc.flow)⟩

lemma readyFlow_spec (s : Side) (created : Bool) (flush : SendResult) :
    Steady s.peer (readyFlow s created flush).peer ∧
      (Carried s.flow (readyFlow s created flush).flow ∨
        Reopened s.flow (readyFlow s created flush).flow) := by
  have hfail (x : Side × Bool) (hx : Steady s.peer x.1.peer ∧ Reopened s.flow x.1.flow) :
      Steady s.peer (if x.2 then x.1 else x.1.transportFail).peer ∧
        Reopened s.flow (if x.2 then x.1 else x.1.transportFail).flow := by
    split
    · exact hx
    · exact ⟨hx.1.trans (peerTransportFail_steady _), hx.2⟩
  unfold readyFlow
  split
  · exact ⟨.refl _, .inl (.refl _)⟩
  rename_i hlive
  simp only [not_or] at hlive
  split
  · exact ⟨.refl _, .inl (mAbort_carried _)⟩
  split
  · rename_i hpending
    unfold mPendingOpen
    split
    · exact ⟨peerTransportFail_steady _, .inl (.refl _)⟩
    rename_i target _
    have hopen : Reopened s.flow (openRequest s.peer target s.flow) :=
      ⟨.inr hpending, rfl, rfl, hlive.2, by simp [openRequest],
        fun h => by simp [openRequest] at h⟩
    have hspec := hfail _ (streamOpen_reopened
      (s := { s with flow := openRequest s.peer target s.flow }) hopen rfl created flush)
    exact ⟨hspec.1, .inr hspec.2⟩
  split
  · exact ⟨.refl _, .inl (mAbort_carried _)⟩
  split
  · rename_i hlocal
    have hopen : Reopened s.flow (resumeRequest s.peer s.flow) :=
      ⟨.inl hlocal, rfl, rfl, hlive.2, by simp [resumeRequest],
        fun h => by simp [resumeRequest] at h⟩
    unfold mResumeOpen
    have hspec := hfail _ (streamOpen_reopened
      (s := { s with flow := resumeRequest s.peer s.flow }) hopen rfl created flush)
    exact ⟨hspec.1, .inr hspec.2⟩
  · exact ⟨.refl _, .inl (.refl _)⟩

lemma transportReady_moves (n k : ℕ) (t : Table) (os : List Reopen) :
    Moves z own t (transportReady z n k t os) := by
  induction n generalizing k t os with
  | zero => exact .refl
  | succ n ih =>
    simp only [transportReady]
    split
    · exact .refl
    rename_i r hk
    have hflow : Moves z own t (if r.proof then t
        else t.onFlow z k (readyFlow · (os.headD (true, {})).1 (os.headD (true, {})).2)) := by
      split
      · exact .refl
      · exact onFlow_moves_of fun s => readyFlow_spec s _ _
    generalize (if r.proof then t
      else t.onFlow z k (readyFlow · (os.headD (true, {})).1 (os.headD (true, {})).2))
        = u at hflow ⊢
    split
    · exact hflow
    · exact hflow.trans (ih _ _ _)

lemma markReady_moves (hk : t.flows[k]? = some r) (hp : r.proof = true)
    (hr : r.proofReplyReady = true) (hlive : r.flow.phase ≠ .dead) (os : List Reopen) :
    Moves z own t (t.markReady z os) := by
  unfold markReady
  split
  · exact .refl
  have hready : Moves z own t
      { t with peer := { t.peer with ready := true, proofReady := true } } :=
    .single (.ready hk hp hr hlive)
  have hflows := hready.trans (transportReady_moves t.flows.length 0 _ os)
  dsimp only
  split
  · exact hflows
  · exact hflows.trans (.single (.peer ⟨rfl, rfl, fun h => h⟩))

/-! ### Flows come and go -/

/-- A new flow stands at the head, under a new key. -/
lemma mFlowNew_spec {calloc : Bool} (h : t.mFlowNew z calloc = some t') :
    t.flows.length < 2 * t.limit + 2 ∧ ∃ s, mControlAlloc t.store z.flow calloc = some s ∧
      t' = { t with
        store := s, nextKey := t.nextKey + 1
        flows := { key := t.nextKey, record := z.flow, flow := { created := t.peer.now } } ::
          t.flows } := by
  unfold mFlowNew at h
  split at h
  · cases h
  split at h
  · cases h
  · cases h
    exact ⟨by omega, _, ‹_›, rfl⟩

lemma mCreate_moves (bidi first tls calloc : Bool) :
    Moves z own t (t.mCreate z bidi first tls calloc) := by
  unfold mCreate
  dsimp only
  split
  · exact .refl
  split
  · split
    · exact .single (.peer (peerFail_steady _))
    · exact .refl
  split
  · exact .refl
  split
  · exact .refl
  rename_i t' hnew
  obtain ⟨hlen, s, hs, rfl⟩ := mFlowNew_spec hnew
  refine .single (.enter hlen hs ?_)
  exact
    { key := rfl, record := rfl, tx := rfl, rx := rfl, packets := rfl, assembly := rfl
      resolve := rfl, replyReady := rfl, fd := rfl, phase := rfl, pendingOpen := rfl
      need := rfl
      own := fun h => absurd h Bool.false_ne_true
      incoming := fun hp _ => by simpa using hp
      admitted := fun hp ht => by simp_all }

lemma handshake_moves (proof : Option (List UInt8)) (calloc created first : Bool) :
    Moves z True t (t.handshake z proof calloc created first) := by
  unfold handshake
  dsimp only
  split
  · exact .refl
  split
  · exact .single (.peer (peerFail_steady _))
  rename_i t' hnew
  obtain ⟨hlen, s, hs, rfl⟩ := mFlowNew_spec hnew
  dsimp only
  let r : Entry := { key := t.nextKey, record := z.flow, proof := true
                     flow := { created := t.peer.now, isLocal := true } }
  have hent : Entered z True t r :=
    { key := rfl, record := rfl, tx := rfl, rx := rfl, packets := rfl, assembly := rfl
      resolve := rfl, replyReady := rfl, fd := rfl, phase := rfl, pendingOpen := rfl
      need := rfl
      own := fun _ => trivial
      incoming := fun hp => absurd hp.symm Bool.false_ne_true
      admitted := fun hp => absurd hp.symm Bool.false_ne_true }
  have henter := ReflTransGen.single (Move.enter (b := true) hlen hs hent)
  have hfail := henter.tail (Move.peer (peerFail_steady _))
  split
  · exact hfail.tail (.free 0)
  split
  · exact hfail.tail (.free 0)
  split
  · have hstream : Carried r.flow { r.flow with stream := true } := .of_place rfl
    have habort := hstream.trans (mAbort_carried _)
    exact hfail.trans (release_moves (r := r) rfl habort)
  · exact henter.tail (.flow (r := r) rfl (.of_place rfl))

lemma localOpen_moves (hk : t.flows[0]? = some r) (hl : r.flow.isLocal = true)
    (hc : r.flow.phase = .control) (env : LocalEnv) : Moves z own t (t.localOpen z r env) := by
  have hopened {f : Flow} (hfl : f.isLocal = r.flow.isLocal) (hft : f.transient = r.flow.transient)
      (hfp : f.phase = .active ∨ f.phase = .control) : Reopened r.flow f :=
    ⟨.inl hl, hfl, hft, by simp [hc], by rcases hfp with h | h <;> simp [h],
      fun h => by rcases hfp with h' | h' <;> simp [h'] at h⟩
  unfold localOpen
  dsimp only
  split
  · exact .single (.reopen hk (hopened rfl rfl (.inl rfl)))
  split
  · exact .single (.free 0)
  refine .trans (.single (.reopen hk (hopened ?_ ?_ (.inr ?_))))
    (onFlow_moves fun s => mReplyFlush_carried s env.flush)
  · rfl
  · rfl
  · exact hc

/-- A flow of the own side. -/
lemma mLocalFlow_moves (env : LocalEnv) : Moves z True t (t.mLocalFlow z env) := by
  unfold mLocalFlow
  split
  · exact .refl
  rename_i hroom
  split
  · exact .refl
  rename_i t' hnew
  obtain ⟨hlen, s, hs, rfl⟩ := mFlowNew_spec hnew
  dsimp only
  have hent (id : UInt64) : Entered z True t
      { key := t.nextKey, record := z.flow
        flow := { created := t.peer.now, isLocal := true, protocol := env.protocol
                  map := some env.target, wireVersion := t.peer.wireVersion, id } } :=
    { key := rfl, record := rfl, tx := rfl, rx := rfl, packets := rfl, assembly := rfl
      resolve := rfl, replyReady := rfl, fd := rfl, phase := rfl, pendingOpen := rfl
      need := rfl
      own := fun _ => trivial
      incoming := fun _ hl => absurd hl.symm Bool.false_ne_true
      admitted := fun _ _ => Nat.lt_of_not_le hroom }
  have henter (id : UInt64) := ReflTransGen.single
    (Move.enter (b := t.proofStarted) hlen hs (hent id))
  split
  · exact (henter 0).tail (.free 0)
  generalize UInt64.ofNat ((t.nextFlowId + 1) * 2 +
    (if t.peer.isServer = true then 0 else 1)) = id
  have hid := (henter id).tail (.flowId (t.nextFlowId + 1))
  split
  · have hbuf := hid.tail (.buffers (k := 0) env.callocTx env.callocRx (by rfl)
      (.inr ⟨by rfl, by rfl, by rfl, by rfl⟩) (by rfl))
    split
    · exact hbuf.tail (.free 0)
    · refine hbuf.trans (localOpen_moves rfl ?_ ?_ env)
      · exact mTcpBuffers_isLocal _ _ _ _ _ _
      · exact mTcpBuffers_phase _ _ _ _ _ _
  · exact hid.trans (localOpen_moves rfl rfl rfl env)

/-! ### Resolution -/

lemma mAck_carried (hlive : f.phase ≠ .dead) (code : ℤ) : Carried f (mAck f code) :=
  .advance rfl rfl rfl (fun h => h) (.inl rfl) (fun h => h) (.inl hlive)

/-- A resolved flow gets its socket, connected or not. -/
lemma connectSocket_moves (hk : t.flows[k]? = some r) (hr : r.flow.phase = .resolving) {job : Job}
    (hjob : job ∈ t.store.jobs) (howner : job.owner = r.key) (hdone : job.state = .done)
    (env : ResolveEnv) : Moves z own t (t.connectSocket k r env) := by
  have hlive : r.flow.phase ≠ .dead := by simp [hr]
  have hconnect {f : Flow} (hf : Connected r.flow f) : Moves z own t
      { t.put k t.store { r with flow := f } with connects := t.connects ++ [r.key] } :=
    .single (.connect hk hr hjob howner hdone hf)
  unfold connectSocket
  split
  · have hclosed : Carried r.flow { r.flow with fd := false } :=
      { Carried.refl r.flow with
        fd := fun h => absurd h Bool.false_ne_true
        closed := fun _ h => absurd h Bool.false_ne_true }
    exact .single (.flow hk (hclosed.trans (mAck_carried (by exact hlive) eIo)))
  dsimp only
  split
  · exact hconnect ⟨rfl, rfl, rfl, rfl, .inl rfl⟩
  · split
    · exact hconnect ⟨rfl, rfl, rfl, rfl, .inr rfl⟩
    · exact hconnect ⟨rfl, rfl, rfl, rfl, .inl rfl⟩
  · exact hconnect ⟨rfl, rfl, rfl, rfl, .inl rfl⟩

lemma connectTarget_moves (hk : t.flows[k]? = some r) (hr : r.flow.phase = .resolving)
    (hres : r.resolve = true) {job : Job} (hjob : job ∈ t.store.jobs) (howner : job.owner = r.key)
    (hdone : job.state = .done) {q : Entry} (hx : mResolveDetach t.store r = (s, q))
    (env : ResolveEnv) : Moves z own t ((t.put k s q).connectTarget z k q env) := by
  have hq : q = { r with resolve := false } := by
    rw [← mResolveDetach_snd t.store r, hx]
  have hphase : q.flow.phase = .resolving := by
    rw [hq]
    exact hr
  obtain ⟨job', hjobs, hkey, hdone'⟩ : ∃ j ∈ s.jobs, j.owner = q.key ∧ j.state = .done := by
    simp only [mResolveDetach, hres, Bool.true_eq_false, if_false, Prod.mk.injEq] at hx
    refine ⟨{ job with detached := true }, ?_, by rw [hq]; exact howner, hdone⟩
    rw [← hx.1]
    exact List.mem_map.mpr ⟨job, hjob, by simp [howner]⟩
  unfold connectTarget
  split
  · have hbuf : Moves z own t _ :=
      .single (.buffers env.callocTx env.callocRx hk (.inl ⟨hr, hres⟩) hx)
    have hphase' := (mTcpBuffers_phase z t.peer.maxFlows s q env.callocTx env.callocRx).trans hphase
    simp only [put_put, put_peer, put_store]
    split
    · have hack := hbuf.tail
        (.flow (put_get hk) (mAck_carried (by rw [hphase']; rintro ⟨⟩) eNomem))
      rwa [put_put, put_store] at hack
    rename_i hok
    obtain ⟨hsame, tx, rx, hentry⟩ := mTcpBuffers_ok hok
    refine hbuf.trans (connectSocket_moves (put_get hk) hphase' ?_ ?_ hdone' env)
    · rw [put_store, hsame]
      exact hjobs
    · rw [hentry]
      exact hkey
  · have hdetach : Moves z own t _ := .single (.detachJob hk)
    rw [hx] at hdetach
    exact hdetach.trans (connectSocket_moves (put_get hk) hphase hjobs hkey hdone' env)

/-- A flow looks for the answer of its resolver. -/
lemma mResolveTick_moves (env : ResolveEnv) : Moves z own t (t.mResolveTick z k env) := by
  unfold mResolveTick
  split
  · exact .refl
  rename_i r hk
  split
  · exact .refl
  rename_i hr
  rw [not_not] at hr
  split
  · exact abort_moves hk
  rename_i job hfind
  have hjob := List.mem_of_find?_eq_some hfind
  have howner := List.find?_some hfind
  simp only [Bool.and_eq_true, beq_iff_eq] at howner
  split
  · exact .refl
  rename_i hdone
  rw [not_not] at hdone
  have hdetach : Moves z own t _ := .single (.detachJob hk)
  dsimp only
  have hlive : (mResolveDetach t.store r).2.flow.phase ≠ .dead := by
    rw [mResolveDetach_snd]
    simp [hr]
  split
  · exact hdetach.tail (.flow (put_get hk) (mAck_carried hlive job.result))
  · split
    · exact hdetach.tail (.flow (put_get hk) (mAck_carried hlive eIo))
    · exact connectTarget_moves hk hr howner.1 hjob howner.2 hdone rfl env

lemma connecting_moves (failed : Bool) : Moves z own t (t.connecting k failed) := by
  unfold connecting
  split
  · exact .refl
  rename_i r hk
  split
  · exact .refl
  · rename_i hr
    rw [not_not] at hr
    exact .single (.flow hk (mAck_carried (by simp [hr]) _))

/-! ### The proof stream -/

lemma proofNotify_carried (replyReady : Bool) (s : Side) (c : Callback) :
    SideCarried s (proofNotify replyReady s c) := by
  unfold proofNotify
  split
  · exact (Callback_call_carried c s).fail
  · exact Callback_call_carried c s

lemma proofSend_carried {replyReady : Bool} {s u : Side} {bs : List UInt8} {r : SendResult}
    {ret : SendRet} (h : proofSend replyReady s bs r = (u, ret)) : SideCarried s u := by
  have hfold (cs : List Callback) (v : Side) :
      SideCarried v (cs.foldl (proofNotify replyReady) v) := by
    induction cs generalizing v with
    | nil => exact .refl v
    | cons c cs ih => exact (proofNotify_carried replyReady v c).trans (ih _)
  obtain ⟨rfl, -⟩ := Prod.mk.inj h
  exact (xqcStreamSend_carried rfl).trans (hfold _ _)

lemma proofReply_carried (r : Entry) (p : Peer) (send : SendResult) :
    SideCarried ⟨p, r.flow⟩ (proofReply r p send).1 := by
  unfold proofReply
  dsimp only
  split
  · exact .refl _
  split
  · exact proofSend_carried ‹_›
  · exact (proofSend_carried ‹_›).abort
  rename_i u n hu
  have hc := proofSend_carried hu
  split
  · exact hc
  · exact hc.data rfl

lemma proofFin_carried (r : Entry) (s : Side) (send : SendResult) :
    SideCarried s (proofFin r s send).1 := by
  unfold proofFin
  split
  · exact .refl _
  split
  · exact proofSend_carried ‹_›
  · exact (proofSend_carried ‹_›).transportFail.abort
  · exact (proofSend_carried ‹_›).data rfl

lemma proofOut_carried (r : Entry) (p : Peer) (env : ControlEnv) :
    SideCarried ⟨p, r.flow⟩ (proofOut r p env).1 := by
  have hreply := proofReply_carried r p env.flush
  unfold proofOut
  split
  · rename_i s hs
    rw [hs] at hreply
    exact hreply
  · rename_i s hs
    rw [hs] at hreply
    exact hreply.trans (proofFin_carried r s env.fin)

lemma proofFlush_moves (hk : t.flows[k]? = some r) (hp : r.proof = true) (env : ControlEnv) :
    Moves z own t (t.proofFlush z k env) := by
  have hc := proofOut_carried r t.peer env
  simp only [proofFlush, hk]
  generalize proofOut r t.peer env = out at hc ⊢
  obtain ⟨s, done⟩ := out
  have hpeer : Moves z own t { t with peer := s.peer } := .single (.peer hc.peer)
  split
  · exact .refl
  split
  · exact hpeer.trans (release_moves (by exact hk) hc.flow)
  rename_i hlive
  split
  · rename_i hready
    have hactive : Carried s.flow { s.flow with phase := .active } :=
      .advance rfl rfl rfl (fun h => h) (.inr (.inl rfl)) (fun h => h) (.inl hlive)
    refine (hpeer.tail (.flow (by exact hk) (hc.flow.trans hactive))).trans ?_
    refine markReady_moves (put_get (by exact hk)) ?_ ?_ ?_ env.ready
    · exact hp
    · exact hready.2.1
    · rintro ⟨⟩
  · exact hpeer.tail (.flow (by exact hk) hc.flow)

lemma replyFlush_moves (env : ControlEnv) : Moves z own t (t.replyFlush z k env) := by
  unfold replyFlush
  split
  · exact .refl
  rename_i r hk
  split
  · rename_i hp
    exact proofFlush_moves hk hp env
  · exact onFlow_moves fun s => mReplyFlush_carried s env.flush

/-- The proof of the other side is checked. -/
lemma proofDone_moves (hk : t.flows[k]? = some r) (hp : r.proof = true)
    (hlive : r.flow.phase ≠ .dead) {env : ControlEnv} (h : t.proofDone z k r env = some t') :
    Moves z own t t' := by
  unfold proofDone at h
  split at h
  · cases h
  split at h
  · split at h
    · cases h
    · cases h
      exact .single (.verify hk hp
        (.advance rfl rfl rfl (fun h => h) (.inl rfl) (fun h => h) (.inl hlive)))
  cases h
  have hverify : Moves z own t _ := .single (.verify hk hp (f := { r.flow with phase := .active })
    (.advance rfl rfl rfl (fun h => h) (.inr (.inl rfl)) (fun h => h) (.inl hlive)))
  refine hverify.trans (markReady_moves (by exact put_get (s := t.store) hk) ?_ rfl ?_ env.ready)
  · exact hp
  · rintro ⟨⟩

/-! ### Control messages -/

lemma mHeaderCheck_local (hl : f.isLocal = true)
    (h : mHeaderCheck p fs f = some g) : ∃ n, g = { f with controlNeed := n } := by
  simp only [mHeaderCheck, Option.ite_none_left_eq_some] at h
  obtain ⟨-, h⟩ := h
  rw [if_pos hl] at h
  simp only [Option.ite_none_left_eq_some, Option.some.injEq] at h
  obtain ⟨-, rfl⟩ := h
  exact ⟨_, rfl⟩

lemma mHeaderCheck_incoming (hl : f.isLocal = false) (h : mHeaderCheck p fs f = some g) :
    p.ready = true ∧ p.proofReady = true ∧ controlHeader < g.controlNeed ∧
      g.id.toNat % 2 = (if p.isServer then 1 else 0) ∧
      ((field f.control 4 1 = ControlKind.resume.code ∧
          g = { f with id := g.id, protocol := g.protocol, wireVersion := g.wireVersion,
                       controlNeed := g.controlNeed }) ∨
        (field f.control 4 1 = ControlKind.open.code ∧ mFind fs g.id.toNat = none ∧
          mDataFlowCount fs < mLimit p.maxFlows 128 512 ∧
          g = { f with transient := false, id := g.id, protocol := g.protocol,
                       wireVersion := g.wireVersion, controlNeed := g.controlNeed })) := by
  have hid : (UInt64.ofNat (field f.control 8 8)).toNat = field f.control 8 8 := by
    have hmax := field_le_max f.control 8
    simp only [uint64Max] at hmax
    exact UInt64.toNat_ofNat_of_lt' (by simp only [UInt64.size]; omega)
  simp only [mHeaderCheck, Option.ite_none_left_eq_some] at h
  obtain ⟨-, h⟩ := h
  rw [if_neg (by simp [hl])] at h
  simp only [Option.ite_none_left_eq_some] at h
  obtain ⟨hready, hodd, h⟩ := h
  simp only [not_or, Bool.not_eq_false, not_and, not_not] at hready hodd
  have hneed : controlHeader < controlHeader + field f.control 6 2 := by omega
  refine ⟨hready.1, hready.2.1, ?_⟩
  split at h
  · rename_i hkind
    simp only [Option.ite_none_left_eq_some, Option.some.injEq] at h
    obtain ⟨-, rfl⟩ := h
    exact ⟨hneed, (congrArg (· % 2) hid).trans hodd.2, .inl ⟨hkind, rfl⟩⟩
  rename_i hkind
  simp only [Option.ite_none_left_eq_some, Option.some.injEq, not_or, Bool.not_eq_true,
    Option.isSome_eq_false_iff, Option.isNone_iff_eq_none, not_le] at h
  obtain ⟨hfree, rfl⟩ := h
  have hopen : field f.control 4 1 = ControlKind.open.code :=
    of_not_not fun hne => hkind (hready.2.2.1 hne)
  refine ⟨hneed, (congrArg (· % 2) hid).trans hodd.2, .inr ⟨hopen, ?_, hfree.2, rfl⟩⟩
  rw [hid]
  exact hfree.1

lemma headerCheck_moves (hk : t.flows[k]? = some r) (hc : r.flow.phase = .control)
    (hn : r.flow.control.length = controlHeader ∧ r.flow.controlNeed = controlHeader)
    (h : t.headerCheck k r = some t') :
    Moves z own t t' ∧ ∃ f, t'.flows[k]? = some { r with flow := f } ∧ f.phase = .control ∧
      (r.proof = false → f.isLocal = false → f.controlNeed ≠ controlHeader) := by
  unfold headerCheck at h
  split at h
  · rename_i hp
    simp only [proofHeader, Option.map_eq_some_iff, Option.ite_none_left_eq_some,
      Option.some.injEq] at h
    obtain ⟨f, ⟨-, rfl⟩, rfl⟩ := h
    exact ⟨.single (.need _ hk (.inl hp)), _, put_get hk, hc, fun h => by simp [hp] at h⟩
  rename_i hp
  split at h
  · cases h
  rename_i f hf
  dsimp only at h
  split at h
  · rename_i hl
    cases h
    obtain ⟨n, rfl⟩ := mHeaderCheck_local hl hf
    refine ⟨.single (.need n hk (.inr hl)), _, put_get hk, hc, fun _ hfl => ?_⟩
    exact absurd (hl.symm.trans hfl) (by rintro ⟨⟩)
  rename_i hl
  rw [Bool.not_eq_true] at hp hl
  obtain ⟨-, -, hneed, -, hkind⟩ := mHeaderCheck_incoming hl hf
  have hphase : f.phase = .control := by
    rcases hkind with ⟨-, hg⟩ | ⟨-, -, -, hg⟩ <;> rw [hg] <;> exact hc
  split at h
  · rename_i hopen
    cases h
    exact ⟨.single (.openHeader hk hp hl hc hn hopen hf), f, put_get (s := t.store) hk, hphase,
      fun _ _ => hneed.ne'⟩
  rename_i hopen
  cases h
  have hresume := (hkind.resolve_right fun h => hopen h.1).1
  exact ⟨.single (.resumeHeader hk hp hl hc hn hresume hf), f, put_get (s := t.store) hk, hphase,
    fun _ _ => hneed.ne'⟩

/-- A snapshot leaves the place of a flow alone. -/
lemma mResumeApply_place (f : Flow) (body : List UInt8) :
    Flow.place (mResumeApply f body).1 = Flow.place f := by
  unfold mResumeApply
  simp only
  split
  · rfl
  split
  · rfl
  · rename_i g hg
    have hplace := mV2Ack_place hg
    exact hplace

lemma mResumeApply_suspended (f : Flow) (body : List UInt8) :
    (mResumeApply f body).1.suspended = f.suspended :=
  congrArg (·.2.suspended) (mResumeApply_kept f body)

lemma find_spec {id : ℕ} {old : Flow} (h : mFind t.data id = some old) :
    ∃ q, t.flows[t.findIndex id]? = some q ∧ q.flow = old ∧ q.proof = false ∧
      old.transient = false ∧ old.phase ≠ .dead ∧ old.id.toNat = id := by
  have hold := List.find?_some h
  simp only [decide_eq_true_eq] at hold
  simp only [mFind, data, List.find?_map, List.find?_filter] at h
  obtain ⟨q, hq, rfl⟩ := Option.map_eq_some_iff.mp h
  have hproof := List.find?_some hq
  refine ⟨q, ?_, rfl, by simpa using (by simpa using hproof : _ ∧ _).1, hold⟩
  rw [findIndex, ← List.find?_eq_getElem?_findIdx, ← hq]
  congr 1
  funext e
  simp [Bool.and_assoc, bne, beq_eq_decide]

lemma mV2ControlDone_spec {old : Option Flow}
    (hc : f.phase = .control) (h : mV2ControlDone p fs f = some (g, old)) :
    (old = none ∧ Carried f g) ∨
      f.isLocal = false ∧ ∃ u, mFind fs f.id.toNat = some u ∧ resumable p u ∧
        ((∃ v, old = some v ∧ v.suspended = true ∧ Carried u v ∧ Carried f g) ∨
          (∃ v, old = some v ∧ v.suspended = false ∧ Carried u v ∧
            g = { f with stream := false, phase := .dead, closeRequested := true })) := by
  have hreject (code : ℤ) : Carried f (rejectResume f code) :=
    .advance rfl rfl rfl (fun h => h) (.inl rfl) (fun h => h) (.inl (by simp [hc]))
  unfold mV2ControlDone at h
  dsimp only at h
  split at h
  · have hplace := mResumeApply_place f (f.control.drop controlHeader)
    split at h
    · cases h
    rename_i u hu
    cases h
    rw [hu] at hplace
    have hphase : u.phase ≠ .dead := by
      rw [show u.phase = f.phase from congrArg (·.2.2.2.2.1) hplace]
      simp [hc]
    exact .inl ⟨rfl, (Carried.of_place hplace).trans
      (.advance rfl rfl rfl (fun h => h) (.inr (.inl rfl)) (fun h => h) (.inl hphase))⟩
  rename_i hl
  rw [Bool.not_eq_true] at hl
  split at h
  · cases h
    exact .inl ⟨rfl, hreject _⟩
  rename_i u hu
  split at h
  · cases h
    exact .inl ⟨rfl, hreject _⟩
  rename_i hres
  rw [not_not] at hres
  have hplace := mResumeApply_place u (f.control.drop controlHeader)
  have hsusp := mResumeApply_suspended u (f.control.drop controlHeader)
  refine .inr ⟨hl, u, hu, hres, ?_⟩
  split at h
  · rename_i v hv
    cases h
    rw [hv] at hplace hsusp
    exact .inl ⟨v, rfl, hsusp.trans hres.2.1, .of_place hplace, hreject _⟩
  rename_i v hv
  cases h
  rw [hv] at hplace
  have hfd : v.fd = true := by
    rw [show v.fd = u.fd from congrArg (·.2.2.2.2.2.1) hplace]
    exact hres.2.2.2.2.1
  exact .inr ⟨rebind p v, rfl, rfl, (Carried.of_place hplace).trans
    (.advance rfl rfl rfl (fun h => h) (.inl rfl) (fun h => h) (.inr hfd)), rfl⟩

lemma put_get_of_ne {o : ℕ} {q : Entry} (hk : t.flows[k]? = some r) (ho : o ≠ k) :
    (t.put o s q).flows[k]? = some r := by
  simp [put, ho, hk]

lemma resumeDone_moves (hk : t.flows[k]? = some r) (hc : r.flow.phase = .control)
    (hp : r.proof = false)
    (hn : r.proof = false → r.flow.isLocal = false → r.flow.controlNeed ≠ controlHeader)
    (hkind : field r.flow.control 4 1 ≠ ControlKind.open.code)
    (h : t.resumeDone k r = some t') : Moves z own t t' := by
  unfold resumeDone at h
  split at h
  · cases h
  · rename_i f hf
    cases h
    rcases mV2ControlDone_spec hc hf with ⟨-, hcarried⟩ | ⟨-, u, -, -, ⟨v, hv, -⟩ | ⟨v, hv, -⟩⟩
    · exact .single (.flow hk hcarried)
    · cases hv
    · cases hv
  rename_i f g hf
  rcases mV2ControlDone_spec hc hf with ⟨hv, -⟩ | ⟨hl, u, hu, hres, hold⟩
  · cases hv
  obtain ⟨q, ho, rfl, hq, ht, -, -⟩ := find_spec hu
  simp only [ho] at h
  rcases hold with ⟨v, hv, hs, hcu, hcf⟩ | ⟨v, hv, hs, hcu, rfl⟩
  · cases hv
    rw [if_pos hs] at h
    cases h
    rcases eq_or_ne (t.findIndex r.flow.id.toNat) k with hok | hok
    · rw [hok, put_put]
      exact .single (.flow hk hcf)
    · have hold : Moves z own t _ := .single (.flow ho hcu)
      exact hold.tail (.flow (put_get_of_ne hk hok) hcf)
  cases hv
  rw [if_neg (by simp [hs])] at h
  cases h
  exact .single (.attach hk ⟨hp, hl, hc, hn hp hl⟩ hkind ho hq ht hres hcu)

variable (own) in
/-- A resolution is started, or the flow is as it was. -/
lemma mResolveStart_moves (hk : t.flows[k]? = some r) (hr : Complete r)
    (hkind : field r.flow.control 4 1 ≠ ControlKind.resume.code) (host : List UInt8) (port : ℕ)
    (threads calloc : Bool) :
    Moves z own t (t.mResolveStart z k r host port threads calloc).1 ∧
      ((t.mResolveStart z k r host port threads calloc).2 ≠ 0 →
        (t.mResolveStart z k r host port threads calloc).1.flows[k]? = some r) := by
  unfold mResolveStart
  split
  · exact ⟨.refl, fun _ => hk⟩
  dsimp only
  have hresolvers : Moves z own t { t with store := { t.store with resolvers := true } } :=
    .single .resolvers
  split
  · exact ⟨hresolvers, fun _ => hk⟩
  split
  · exact ⟨hresolvers, fun _ => hk⟩
  · rename_i s hs
    exact ⟨hresolvers.tail (.start (by exact hk) hr hkind hs rfl rfl rfl), fun h => absurd rfl h⟩

lemma controlDone_moves (hk : t.flows[k]? = some r) (hc : r.flow.phase = .control)
    (hn : r.proof = false → r.flow.isLocal = false → r.flow.controlNeed ≠ controlHeader)
    {env : ControlEnv} (h : t.controlDone z k r env = some t') : Moves z own t t' := by
  have hlive : r.flow.phase ≠ .dead := by simp [hc]
  unfold controlDone at h
  dsimp only at h
  split at h
  · rename_i hp
    exact proofDone_moves hk hp hlive h
  rename_i hp
  rw [Bool.not_eq_true] at hp
  split at h
  · rename_i hkind
    refine resumeDone_moves hk hc hp hn ?_ h
    rcases hkind with hkind | hkind <;> rw [hkind] <;> decide
  rename_i hkind
  split at h
  · simp only [Option.ite_none_left_eq_some, Option.some.injEq] at h
    obtain ⟨-, rfl⟩ := h
    exact .single (.flow hk
      (.advance rfl rfl rfl (fun h => h) (.inr (.inl rfl)) (fun h => h) (.inl hlive)))
  rename_i hl
  rw [Bool.not_eq_true] at hl
  simp only [Option.ite_none_left_eq_some] at h
  obtain ⟨-, h⟩ := h
  obtain ⟨hmoves, hsame⟩ := mResolveStart_moves own (z := z) hk
    ⟨hp, hl, hc, hn hp hl⟩ (fun h => hkind (.inl h))
    ((r.flow.control.drop controlHeader).drop 2) (field (r.flow.control.drop controlHeader) 0 2)
    env.threads env.calloc
  split at h
  · cases h
    exact hmoves
  · rename_i hrc
    cases h
    exact hmoves.tail (.flow (hsame hrc) (mAck_carried hlive _))

lemma refuse_moves (hk : t.flows[k]? = some r) : Moves z own t (t.refuse z k r) := by
  unfold refuse
  split
  · have hfail : Moves z own t { t with peer := peerFail t.peer } :=
      .single (.peer (peerFail_steady _))
    exact hfail.trans (abort_moves hk)
  · exact abort_moves hk

lemma controlFinish_moves (hk : t.flows[k]? = some r) (hc : r.flow.phase = .control)
    (hn : r.proof = false → r.flow.isLocal = false → r.flow.controlNeed ≠ controlHeader)
    (env : ControlEnv) (fin : Bool) : Moves z own t (t.controlFinish z k r env fin) := by
  unfold controlFinish
  split
  · exact refuse_moves hk
  rename_i u hu
  have hdone : Moves z own t u := controlDone_moves hk hc hn hu
  split
  · exact hdone
  rename_i q hq
  dsimp only
  have heof := hdone.tail
    (.flow hq (f := { q.flow with streamEof := q.flow.streamEof || fin }) (.of_place rfl))
  split
  · exact heof.trans (abort_moves (put_get hq))
  · exact heof.trans (replyFlush_moves env)

lemma controlLoop_moves (env : ControlEnv) (n : ℕ) (rs : List StreamRecv)
    (hk : t.flows[k]? = some r) (hc : r.flow.phase = .control) :
    Moves z own t (controlLoop z k env n t rs) := by
  induction n generalizing t r rs with
  | zero => exact .refl
  | succ n ih =>
    simp only [controlLoop, hk]
    split
    · exact .refl
    · exact abort_moves hk
    rename_i bytes fin _
    generalize hbytes : bytes.take (r.flow.controlNeed - r.flow.control.length) = bs
    have hread : Moves z own t (t.put k t.store
        { r with flow := { r.flow with control := r.flow.control ++ bs } }) :=
      .single (.flow hk
        { Carried.refl r.flow with control := fun _ => List.prefix_append _ _ })
    generalize hr' : ({ r with flow := { r.flow with control := r.flow.control ++ bs } } : Entry)
      = r' at hread ⊢
    have hk' : (t.put k t.store r').flows[k]? = some r' := put_get hk
    have hc' : r'.flow.phase = .control := by rw [← hr']; exact hc
    have hctl : r.flow.control ++ bs = r'.flow.control := by rw [← hr']
    have hneed : r.flow.controlNeed = r'.flow.controlNeed := by rw [← hr']
    generalize t.put k t.store r' = u at hread hk' ⊢
    -- What follows the header check, on the flow as it left it.
    have hrest {v : Table} {q : Entry} (hv : v.flows[k]? = some q) (hcv : q.flow.phase = .control)
        (hn : q.proof = false → q.flow.isLocal = false →
          q.flow.control.length = q.flow.controlNeed → q.flow.controlNeed ≠ controlHeader) :
        Moves z own v (if q.flow.control.length = q.flow.controlNeed then
            v.controlFinish z k q env fin
          else if fin = true then v.abort z k q
          else if bs = [] then v else controlLoop z k env n v rs.tail) := by
      split
      · rename_i hlen
        exact controlFinish_moves hv hcv (fun hp hl => hn hp hl hlen) env fin
      split
      · exact abort_moves hv
      · split
        · exact .refl
        · exact ih rs.tail hv hcv
    refine hread.trans ?_
    rw [hctl, hneed]
    by_cases hn : r'.flow.control.length = controlHeader ∧ r'.flow.controlNeed = controlHeader
    · rw [if_pos hn]
      split
      · exact refuse_moves hk'
      rename_i v hv
      obtain ⟨hmoves, f, hkv, hcv, hnv⟩ := headerCheck_moves hk' hc' hn hv
      simp only [hkv]
      exact hmoves.trans (hrest hkv hcv fun hp hl _ => hnv hp hl)
    rw [if_neg hn]
    simp only [hk']
    refine hrest hk' hc' fun _ _ hlen hneed => hn ⟨?_, hneed⟩
    rw [hlen, hneed]

lemma controlRead_moves (env : ControlEnv) (rs : List StreamRecv) :
    Moves z own t (t.controlRead z k env rs) := by
  unfold controlRead
  split
  · exact .refl
  rename_i r hk
  split
  · exact .refl
  · rename_i hphase
    simp only [not_or, not_not] at hphase
    exact controlLoop_moves env 2 rs hk hphase.2.1

/-! ### What ends all flows -/

/-- A function on every flow in turn. -/
lemma forAll_moves {g : Table → ℕ → Table} (hg : ∀ t k, Moves z own t (g t k)) :
    Moves z own t (t.forAll g) := by
  unfold forAll
  generalize List.range t.flows.length = ks
  induction ks generalizing t with
  | nil => exact .refl
  | cons k ks ih => exact (hg t k).trans ih

/-- A flow dies and gives back its blocks. -/
lemma die_moves (hk : t.flows[k]? = some r) (hid : f.id = r.flow.id)
    (hl : f.isLocal = r.flow.isLocal) (ht : f.transient = r.flow.transient)
    (hp : f.pendingOpen = r.flow.pendingOpen) (hd : f.phase = .dead) :
    Moves z own t (t.release z k { r with flow := f }) := by
  have hrelease : Moves z own t (t.release z k r) := .single (.release hk)
  have hdie := hrelease.tail (.flow (f := { f with fd := false, tx := [], rx := [] })
    (by simp only [release]; exact put_get hk) (.die ?_ ?_ ?_ ?_ hd rfl))
  · simp only [release, put_put, put_store, mReleaseIo_flow, mReleaseIo_snd] at hdie ⊢
    exact hdie
  all_goals rw [mReleaseIo_snd]; assumption

/-- The end of an attempt retains a flow or ends it. -/
lemma suspendAt_moves (preserve : Bool) (deadline : ℕ) :
    Moves z own t (suspendAt z preserve deadline t k) := by
  unfold suspendAt
  split
  · exact .refl
  rename_i r hk
  split
  · exact die_moves hk rfl rfl rfl rfl rfl
  rename_i hkeep
  simp only [not_or, Bool.not_eq_true, not_not] at hkeep
  have hkeeps : keeps preserve { r.flow with stream := false } := hkeep.2
  have hcarried : Carried r.flow (suspendFlow preserve deadline r.flow) := by
    simp only [suspendFlow, hkeeps, not_true_eq_false, if_false]
    exact .advance rfl rfl rfl (fun h => h) (.inr (.inl rfl)) (fun h => h) (.inr hkeep.2.2.2.1)
  have hflow : Moves z own t _ := .single (.flow hk hcarried)
  have hdrop := hflow.tail (.dropUdp (put_get hk))
  rwa [put_put, put_store] at hdrop

/-- The proof stream at `j` is dead. -/
def ProofDead (t : Table) (j : ℕ) : Prop :=
  ∀ r, t.flows[j]? = some r → r.proof = true → r.flow.phase = .dead

lemma suspendAt_proofDead (preserve : Bool) (deadline : ℕ) (j : ℕ) (h : j = k ∨ t.ProofDead j) :
    (suspendAt z preserve deadline t k).ProofDead j := by
  unfold suspendAt
  split
  · rename_i hk
    rcases h with rfl | h
    · intro r hr
      rw [hk] at hr
      cases hr
    · exact h
  rename_i r hk
  have hput {s : Store} {q : Entry} (hq : q.proof = true → q.flow.phase = .dead) :
      (t.put k s q).ProofDead j := by
    intro u hu hproof
    rcases eq_or_ne j k with rfl | hjk
    · rw [put_get hk] at hu
      cases hu
      exact hq hproof
    · simp only [put, List.getElem?_set_ne hjk.symm] at hu
      exact h.resolve_left hjk u hu hproof
  split
  · simp only [release, mReleaseIo_snd]
    exact hput fun _ => rfl
  · rename_i hkeep
    simp only [not_or, Bool.not_eq_true] at hkeep
    exact hput fun hproof => absurd (hproof.symm.trans hkeep.1) (by rintro ⟨⟩)

lemma suspendAll_peer (preserve : Bool) (deadline : ℕ) :
    (t.forAll (suspendAt z preserve deadline)).peer = t.peer := by
  unfold forAll
  generalize List.range t.flows.length = ks
  induction ks generalizing t with
  | nil => rfl
  | cons k ks ih =>
    refine ih.trans ?_
    unfold suspendAt
    split
    · rfl
    · dsimp only
      split <;> rfl

lemma length_suspendAt (preserve : Bool) (deadline : ℕ) :
    (suspendAt z preserve deadline t k).flows.length = t.flows.length := by
  unfold suspendAt
  split
  · rfl
  · dsimp only
    split <;> simp [release, put]

/-- No proof stream outlives its attempt. -/
lemma suspendAll_proofDead (preserve : Bool) (deadline : ℕ) :
    ∀ r ∈ (t.forAll (suspendAt z preserve deadline)).flows,
      r.proof = true → r.flow.phase = .dead := by
  have hfold (ks : List ℕ) (u : Table) :
      (ks.foldl (suspendAt z preserve deadline) u).flows.length = u.flows.length ∧
        ∀ j, j ∈ ks ∨ u.ProofDead j → (ks.foldl (suspendAt z preserve deadline) u).ProofDead j := by
    induction ks generalizing u with
    | nil => exact ⟨rfl, fun j hj => hj.resolve_left List.not_mem_nil⟩
    | cons k ks ih =>
      obtain ⟨hlen, hdead⟩ := ih (suspendAt z preserve deadline u k)
      refine ⟨hlen.trans (length_suspendAt _ _), fun j hj => hdead j ?_⟩
      rw [List.mem_cons, or_assoc] at hj
      rcases hj with hj | hj | hj
      · exact .inr (suspendAt_proofDead _ _ j (.inl hj))
      · exact .inl hj
      · exact .inr (suspendAt_proofDead _ _ j (.inr hj))
  obtain ⟨hlen, hdead⟩ := hfold (List.range t.flows.length) t
  intro r hr
  obtain ⟨j, hj, hget⟩ := List.mem_iff_getElem.mp hr
  refine hdead j (.inl (List.mem_range.mpr (hlen ▸ hj))) r ?_
  rw [← hget]
  exact List.getElem?_eq_getElem hj

lemma transportDetach_moves : Moves z own t (t.transportDetach z) := by
  unfold transportDetach
  dsimp only
  split
  · exact .refl
  generalize suspendDeadline t.peer t.peer.recoveryDeadlineUs = deadline
  generalize decide (t.peer.wireVersion = 2 ∧ t.peer.now < deadline) = preserve
  have hall : Moves z own t
      ({ t with proofStarted := false }.forAll (suspendAt z preserve deadline)) :=
    .trans (.single (.proofStarted false)) (forAll_moves fun _ _ => suspendAt_moves _ _)
  refine hall.tail (.detached ?_ rfl (suspendAll_proofDead preserve deadline))
  rw [suspendAll_peer]
  exact ⟨rfl, rfl, fun h => absurd h Bool.false_ne_true⟩

lemma stopAt_moves : Moves z own t (stopAt z t k) := by
  unfold stopAt
  split
  · exact .refl
  · exact die_moves ‹_› rfl rfl rfl rfl rfl

lemma notify_moves (c : Callback) : Moves z own t (t.notify k c) := by
  unfold notify
  split
  · exact .refl
  rename_i r hk
  have hc : SideCarried ⟨t.peer, r.flow⟩ (if r.proof then
      proofNotify r.proofReplyReady ⟨t.peer, r.flow⟩ c else c.call ⟨t.peer, r.flow⟩) := by
    split
    · exact proofNotify_carried _ _ _
    · exact Callback_call_carried _ _
  generalize (if r.proof then proofNotify r.proofReplyReady ⟨t.peer, r.flow⟩ c
    else c.call ⟨t.peer, r.flow⟩) = s at hc ⊢
  have hpeer : Moves z own t { t with peer := s.peer } := .single (.peer hc.peer)
  exact hpeer.tail (.flow (by exact hk) hc.flow)

end Table

/-! ### Steps -/

def Event.opens : Event → Prop
  | .localFlow _ | .handshake _ _ _ _ => True
  | _ => False

/-- **Every step is a sequence of moves.** -/
theorem Table.step_moves (z : Sizes) (t : Table) (e : Event) : Moves z e.opens t (t.step z e) := by
  have hsteady {p : Peer} (h : Steady t.peer p) : Moves z e.opens t { t with peer := p } :=
    .single (.peer h)
  cases e with
  | create bidi first tls calloc => exact mCreate_moves ..
  | localFlow env => exact mLocalFlow_moves env
  | handshake proof calloc created first => exact handshake_moves ..
  | control k env rs => exact controlRead_moves env rs
  | flush k env => exact replyFlush_moves env
  | resolveTick k env => exact mResolveTick_moves env
  | connecting k failed => exact connecting_moves failed
  | resolverTake owner => exact .single (.resolverTake owner)
  | resolverDone owner result family => exact .single (.resolverDone owner result family)
  | reap => exact .single .reap
  | read k bytes rs =>
    simp only [Table.step]
    refine onFlow_moves fun s => ?_
    split
    · have hinbox : SideCarried s { s with peer := { s.peer with inbox := bytes } } :=
        ⟨⟨rfl, rfl, fun h => h⟩, .refl _⟩
      exact hinbox.trans (mV2Read_carried _ rs)
    · exact .refl s
  | tick k env =>
    simp only [Table.step]
    refine onFlow_moves fun s => ?_
    split
    · exact mV2Tick_carried s env
    · exact .refl s
  | readPlain k r =>
    simp only [Table.step]
    split
    · exact .refl
    · exact onFlow_moves fun s => mStreamReadPlain_carried _ s r
  | tickPlain k env =>
    simp only [Table.step]
    refine onFlow_moves fun s => ?_
    split
    · exact .refl s
    · exact mTcpTickPlain_carried s env
  | udpEnqueue k len calloc => exact .single (.udpEnqueue k len calloc)
  | udpPop k => exact .single (.udpPop k)
  | assemblyNew k slot total calloc => exact .single (.assemblyNew k slot total calloc)
  | assemblyDrop k slot => exact .single (.assemblyDrop k slot)
  | closeRequest k mapClosed =>
    simp only [Table.step]
    exact onFlow_moves fun s => ⟨.refl _, .of_place rfl⟩
  | notify k c => exact notify_moves c
  | abort k =>
    simp only [Table.step]
    split
    · exact .refl
    · exact abort_moves ‹_›
  | free k =>
    simp only [Table.step]
    split
    · exact .refl
    · split
      · exact .single (.free k)
      · exact .refl
  | detach => exact transportDetach_moves
  | stopIo => exact forAll_moves fun _ _ => stopAt_moves
  | cleanup => exact .single .cleanup
  | connect context version =>
    simp only [Table.step]
    split
    · exact hsteady ⟨rfl, rfl, fun h => absurd h Bool.false_ne_true⟩
    · exact .refl
  | attemptBegin =>
    simp only [Table.step]
    split
    · exact hsteady ⟨rfl, rfl, fun h => absurd h Bool.false_ne_true⟩
    · exact .refl
  | transportFail => exact hsteady (peerTransportFail_steady _)
  | fail => exact hsteady (peerFail_steady _)
  | elapse us => exact hsteady ⟨rfl, rfl, fun h => h⟩

end OhecoBroker.Flows
