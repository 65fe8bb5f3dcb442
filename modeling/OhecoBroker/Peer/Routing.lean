/-
Routing of session snapshots to peers at the broker (`sdk/c/remote/peer/ws_server.inc`:
`server_snapshot` and the reaping loop of `ob_server_worker`; `sdk/c/remote/peer/coordinator.c`:
`server_session`).

* `Item`, `Worker`, `Server.serverSnapshot`: a snapshot, and how the worker goes through it;
* `BrokerPeer.attempt`, `Event`, `Server.step`: the other threads;
* `Moved`, `Server.serverSnapshot_moved`: the outcomes of a step of the worker;
* `Server.Inv`, `Server.Inv.step`: the invariant, and that every step keeps it;
* `snapshot_routing`: **in every state of every run** a connection has at most one live peer, the
  generations of a peer's attempts increase, a session is handed over once while it stays in the
  snapshots, and the peers stay within their limit.
-/
import Mathlib.Data.Rat.Defs
import OhecoBroker.Lib.Run
import OhecoBroker.Peer.ResumeKey

namespace OhecoBroker.Routing

open Lib List
open ResumeKey (obValidId)

/-! ### The snapshot -/

/-- An item of a snapshot; `none` where there is no string or number. -/
structure Item where
  sessionId : Option String
  relayMode : Option String
  connectionId : Option String
  generation : Option ℚ
deriving DecidableEq

/-- Session and generation of an item; 0 without a connection. -/
def Item.parse (item : Item) : Option (String × ℕ) :=
  match item.sessionId with
  | none => none
  | some sid =>
    if !obValidId sid then none
    else
      match item.connectionId, item.generation with
      | none, _ => some (sid, 0)
      | some _, none => none
      | some connection, some epoch =>
        if !obValidId connection || epoch < 1 || 2147483647 < epoch || epoch.den ≠ 1 then none
        else some (sid, epoch.num.toNat)

inductive RelayMode
  | auto
  | force
  | never
deriving DecidableEq

def relayModeOf (mode : Option String) : RelayMode :=
  if mode = some "force" then .force else if mode = some "never" then .never else .auto

/-- A peer; `attempts` has the generations its coordinator started. -/
structure BrokerPeer where
  id : ℕ
  connectionId : Option String
  relayMode : RelayMode
  stop : Bool
  sessionId : String
  controlGeneration : ℕ
  pendingSessionId : Option String
  pendingControlGeneration : ℕ
  first : Bool
  attempts : List ℕ
deriving DecidableEq

/-- Where the worker is in `server_snapshot`. -/
inductive Worker
  | idle
  | scanning (sessions todo : List Item)
  | routing (sessions todo : List Item) (item : Item) (sid : String) (generation : ℕ)
      (logical : Option ℕ) (count : ℕ)
  | pruning (sessions : List Item) (kept todo : List String)
deriving DecidableEq

/-- `handed` records the sessions given to a peer since they were last missing. -/
structure Server where
  maxPeers : ℕ
  callerClose : Bool := false
  stop : Bool := false
  peers : List BrokerPeer := []
  seenSessions : List String := []
  worker : Worker := .idle
  nextId : ℕ := 0
  handed : List String := []
deriving DecidableEq

/-- What memory and threads the step gets. -/
structure Gets where
  seen : Bool
  pending : Bool
  peer : Bool
deriving DecidableEq

def Server.goTo (s : Server) (w : Worker) : Server := { s with worker := w }

/-- `server_fail`, as far as the routing sees it. -/
def Server.serverFail (s : Server) : Server :=
  if s.callerClose then { s with worker := .idle } else { s with stop := true, worker := .idle }

def Server.updatePeer (s : Server) (id : ℕ) (f : BrokerPeer → BrokerPeer) : Server :=
  { s with peers := s.peers.map fun p => if p.id = id then f p else p }

def Server.seen (s : Server) (sessions todo : List Item) (sid : String) : Server :=
  { s with seenSessions := sid :: s.seenSessions, worker := .scanning sessions todo }

/-- A newer session takes the place of a pending one. -/
def BrokerPeer.newer (p : BrokerPeer) (generation : ℕ) : Bool :=
  p.controlGeneration < generation && p.pendingControlGeneration < generation

def BrokerPeer.offer (p : BrokerPeer) (sid : String) (generation : ℕ) : BrokerPeer :=
  { p with pendingSessionId := some sid, pendingControlGeneration := generation }

def newPeer (id : ℕ) (item : Item) (sid : String) (generation : ℕ) : BrokerPeer :=
  { id := id, connectionId := item.connectionId, relayMode := relayModeOf item.relayMode,
    stop := false, sessionId := sid,
    controlGeneration := if item.connectionId.isSome then generation else 0,
    pendingSessionId := none, pendingControlGeneration := 0, first := true, attempts := [] }

/-- The live peer of a connection: the last one wins. -/
def Server.logical (s : Server) (connection : Option String) : Option ℕ :=
  let live := s.peers.filter fun p =>
    connection.isSome && p.connectionId = connection && !p.stop
  live.getLast?.map BrokerPeer.id

/-- One step of `server_snapshot`. -/
def Server.serverSnapshot (s : Server) (gets : Gets) : Server :=
  match s.worker with
  | .idle => s
  | .scanning sessions [] => s.goTo (.pruning sessions [] s.seenSessions)
  | .scanning sessions (item :: todo) =>
    match item.parse with
    | none => s.serverFail
    | some (sid, generation) =>
      if sid ∈ s.seenSessions then s.goTo (.scanning sessions todo)
      else
        s.goTo (.routing sessions todo item sid generation
          (s.logical item.connectionId) s.peers.length)
  | .routing sessions todo item sid generation logical count =>
    if !gets.seen || 4096 ≤ s.seenSessions.length then s.serverFail
    else
      match logical with
      | some id =>
        if !gets.pending then s.goTo (.scanning sessions todo)
        else if s.peers.any fun p => p.id = id && p.newer generation then
          let t := (s.updatePeer id fun p => p.offer sid generation).seen sessions todo sid
          { t with handed := sid :: t.handed }
        else s.seen sessions todo sid
      | none =>
        if s.maxPeers ≤ count || !gets.peer then s.goTo (.scanning sessions todo)
        else
          let t := s.seen sessions todo sid
          { t with
            peers := newPeer t.nextId item sid generation :: t.peers
            nextId := t.nextId + 1
            handed := sid :: t.handed }
  | .pruning _ kept [] => { s with seenSessions := kept, worker := .idle }
  | .pruning sessions kept (x :: todo) =>
    let present := sessions.any fun item => item.sessionId = some x
    let active := s.peers.any fun p => p.sessionId = x
    s.goTo (.pruning sessions (if !present && !active then kept else kept ++ [x]) todo)

/-! ### The other threads -/

/-- The first attempt runs with the peer's session, `server_session` waits for a newer one. -/
def BrokerPeer.attempt (p : BrokerPeer) : BrokerPeer :=
  if p.stop then p
  else if p.first then { p with first := false, attempts := p.controlGeneration :: p.attempts }
  else
    match p.pendingSessionId with
    | none => p
    | some sid =>
      { p with sessionId := sid, pendingSessionId := none,
               controlGeneration := p.pendingControlGeneration,
               attempts := p.pendingControlGeneration :: p.attempts }

inductive Event
  | snapshot (sessions : List Item)
  | malformed
  | worker (gets : Gets)
  | close
  | shut
  | stop (id : ℕ)
  | attempt (id : ℕ)
  | reap (id : ℕ)
deriving DecidableEq

/-- One step of the worker or of another thread. -/
def Server.step (s : Server) : Event → Server
  | .snapshot sessions =>
    if s.worker = .idle ∧ s.stop = false then
      { s with
        worker := .scanning sessions sessions
        handed := s.handed.filter fun x => sessions.any fun item => item.sessionId = some x }
    else s
  | .malformed => if s.worker = .idle ∧ s.stop = false then s.serverFail else s
  | .worker gets => s.serverSnapshot gets
  | .close => { s with callerClose := true }
  | .shut => { s with stop := true }
  | .stop id => s.updatePeer id fun p => { p with stop := true }
  | .attempt id => s.updatePeer id BrokerPeer.attempt
  | .reap id =>
    if s.worker = .idle then { s with peers := s.peers.filter fun p => !(p.id = id && p.stop) }
    else s

/-! ### What a step of the routing does -/

/-- A session stands in a snapshot. -/
def Listed (sessions : List Item) (x : String) : Prop :=
  ∃ item ∈ sessions, item.sessionId = some x

lemma any_listed (sessions : List Item) (x : String) :
    (sessions.any fun item => item.sessionId = some x) = true ↔ Listed sessions x := by
  simp [Listed]

variable {sid : String} {s : Server} {p : BrokerPeer} {sessions todo : List Item}

lemma Item.sessionId_of_parse {item : Item} {generation : ℕ}
    (h : item.parse = some (sid, generation)) : item.sessionId = some sid := by
  unfold Item.parse at h
  split at h
  · exact absurd h (by simp)
  rename_i sid' hsid
  rw [hsid]
  split at h
  · exact absurd h (by simp)
  split at h
  · cases h; rfl
  · exact absurd h (by simp)
  · split at h
    · exact absurd h (by simp)
    · cases h; rfl

lemma Server.stop_of_logical {connection : Option String}
    (h : s.logical connection = none) (hc : connection.isSome) (hp : p ∈ s.peers)
    (hpc : p.connectionId = connection) : p.stop = true := by
  simp only [Server.logical, Option.map_eq_none_iff, List.getLast?_eq_none_iff,
    filter_eq_nil_iff] at h
  simpa [hc, hpc] using h p hp

/-- The seen sessions, also in the middle of a pruning. -/
def Server.seenNow (s : Server) : List String :=
  match s.worker with
  | .pruning _ kept todo => kept ++ todo
  | _ => s.seenSessions

/-- The outcomes of a step of `server_snapshot`. -/
inductive Moved (s : Server) : Server → Prop
  | idle (h : s.worker = .idle) : Moved s s
  | failed (h : s.seenNow = s.seenSessions) : Moved s s.serverFail
  | scanned {sessions : List Item} (h : s.worker = .scanning sessions []) :
      Moved s (s.goTo (.pruning sessions [] s.seenSessions))
  | skipped {sessions todo : List Item} {item : Item}
      (h : s.worker = .scanning sessions (item :: todo)) :
      Moved s (s.goTo (.scanning sessions todo))
  | found {sessions todo : List Item} {item : Item} {sid : String} {generation : ℕ}
      (h : s.worker = .scanning sessions (item :: todo))
      (parsed : item.parse = some (sid, generation)) (fresh : sid ∉ s.seenSessions) :
      Moved s (s.goTo (.routing sessions todo item sid generation
        (s.logical item.connectionId) s.peers.length))
  | passed {sessions todo : List Item} {item : Item} {sid : String} {generation : ℕ}
      {logical : Option ℕ} {count : ℕ}
      (h : s.worker = .routing sessions todo item sid generation logical count) :
      Moved s (s.goTo (.scanning sessions todo))
  | offered {sessions todo : List Item} {item : Item} {sid : String} {generation : ℕ} {id : ℕ}
      {count : ℕ} {p : BrokerPeer}
      (h : s.worker = .routing sessions todo item sid generation (some id) count)
      (mem : p ∈ s.peers) (hid : p.id = id) (newer : p.newer generation = true) :
      Moved s { (s.updatePeer id fun p => p.offer sid generation) with
        seenSessions := sid :: s.seenSessions, worker := .scanning sessions todo,
        handed := sid :: s.handed }
  | stale {sessions todo : List Item} {item : Item} {sid : String} {generation : ℕ}
      {logical : Option ℕ} {count : ℕ}
      (h : s.worker = .routing sessions todo item sid generation logical count) :
      Moved s (s.seen sessions todo sid)
  | made {sessions todo : List Item} {item : Item} {sid : String} {generation count : ℕ}
      (h : s.worker = .routing sessions todo item sid generation none count)
      (room : count < s.maxPeers) :
      Moved s { s with
        seenSessions := sid :: s.seenSessions, worker := .scanning sessions todo,
        peers := newPeer s.nextId item sid generation :: s.peers,
        nextId := s.nextId + 1, handed := sid :: s.handed }
  | pruned {sessions : List Item} {kept : List String} (h : s.worker = .pruning sessions kept []) :
      Moved s { s with seenSessions := kept, worker := .idle }
  | kept {sessions : List Item} {kept todo : List String} {x : String}
      (h : s.worker = .pruning sessions kept (x :: todo)) :
      Moved s (s.goTo (.pruning sessions (kept ++ [x]) todo))
  | dropped {sessions : List Item} {kept todo : List String} {x : String}
      (h : s.worker = .pruning sessions kept (x :: todo)) (absent : ¬ Listed sessions x) :
      Moved s (s.goTo (.pruning sessions kept todo))

lemma Server.serverSnapshot_moved (s : Server) (gets : Gets) : Moved s (s.serverSnapshot gets) := by
  unfold Server.serverSnapshot
  split
  next h => exact .idle h
  next sessions h => exact .scanned h
  next sessions item todo h =>
    split
    · exact .failed (by simp only [Server.seenNow, h])
    next sid generation parsed =>
      split
      · exact .skipped h
      next fresh => exact .found h parsed fresh
  next sessions todo item sid generation logical count h =>
    split
    · exact .failed (by simp only [Server.seenNow, h])
    cases logical with
    | some id =>
      dsimp only
      split
      · exact .passed h
      split
      next hany =>
        obtain ⟨p, hp, hnew⟩ := any_eq_true.mp hany
        simp only [Bool.and_eq_true, decide_eq_true_eq] at hnew
        exact .offered h hp hnew.1 hnew.2
      · exact .stale h
    | none =>
      dsimp only
      split
      · exact .passed h
      next hroom =>
        simp only [Bool.or_eq_true, decide_eq_true_eq, not_or, not_le] at hroom
        exact .made h hroom.1
  next sessions kept h => exact .pruned h
  next sessions kept x todo h =>
    dsimp only
    split
    next hdrop =>
      refine .dropped h fun hx => ?_
      rw [(any_listed sessions x).mpr hx] at hdrop
      simp at hdrop
    · exact .kept h

/-! ### The invariant -/

/-- Attempts run with increasing generations, and a pending session is newer. -/
structure BrokerPeer.Ordered (p : BrokerPeer) : Prop where
  increasing : p.attempts.Pairwise (· > ·)
  bounded : ∀ g ∈ p.attempts, g ≤ p.controlGeneration
  unstarted : p.first = true → p.attempts = []
  pending : p.pendingSessionId.isSome → p.controlGeneration < p.pendingControlGeneration

/-- A new peer has made no attempt. -/
lemma newPeer_ordered (id : ℕ) (item : Item) (sid : String) (generation : ℕ) :
    (newPeer id item sid generation).Ordered :=
  ⟨.nil, by simp [newPeer], fun _ => rfl, by simp [newPeer]⟩

/-- A newer session waits for the next attempt. -/
lemma BrokerPeer.Ordered.offer (h : p.Ordered) {generation : ℕ}
    (newer : p.newer generation = true) : (p.offer sid generation).Ordered := by
  simp only [BrokerPeer.newer, Bool.and_eq_true, decide_eq_true_eq] at newer
  exact ⟨h.increasing, h.bounded, h.unstarted, fun _ => newer.1⟩

lemma BrokerPeer.Ordered.stop (h : p.Ordered) : BrokerPeer.Ordered { p with stop := true } :=
  ⟨h.increasing, h.bounded, h.unstarted, h.pending⟩

lemma BrokerPeer.Ordered.attempt (h : p.Ordered) : p.attempt.Ordered := by
  unfold BrokerPeer.attempt
  split
  · exact h
  split
  next hfirst =>
    rw [h.unstarted hfirst]
    exact ⟨by simp, by simp, fun hf => by simp at hf, h.pending⟩
  rename_i hfirst
  split
  · exact h
  rename_i sid hp
  have newer := h.pending (by simp [hp])
  have older : ∀ g ∈ p.attempts, g < p.pendingControlGeneration :=
    fun g hg => lt_of_le_of_lt (h.bounded g hg) newer
  refine ⟨pairwise_cons.mpr ⟨older, h.increasing⟩, ?_, fun hf => absurd hf hfirst, ?_⟩
  · intro g hg
    rcases mem_cons.mp hg with rfl | hg
    · exact le_rfl
    · exact (older g hg).le
  · intro hs
    exact absurd hs (by simp)

/-- Not live peers of one connection. -/
def Apart (p q : BrokerPeer) : Prop :=
  p.connectionId.isSome → p.connectionId = q.connectionId → p.stop = true ∨ q.stop = true

/-- What the worker knows where it is. -/
def Server.Knows (s : Server) : Prop :=
  match s.worker with
  | .idle => True
  | .scanning sessions todo => (∀ x ∈ s.handed, Listed sessions x) ∧ ∀ item ∈ todo, item ∈ sessions
  | .routing sessions todo item sid _ logical count =>
    (∀ x ∈ s.handed, Listed sessions x) ∧ (∀ item ∈ todo, item ∈ sessions) ∧
      Listed sessions sid ∧ sid ∉ s.seenSessions ∧ count = s.peers.length ∧
      (logical = none → item.connectionId.isSome →
        ∀ p ∈ s.peers, p.connectionId = item.connectionId → p.stop = true)
  | .pruning sessions _ _ => ∀ x ∈ s.handed, Listed sessions x

/-- What holds in every state. -/
structure Server.Inv (s : Server) : Prop where
  ids : ∀ p ∈ s.peers, p.id < s.nextId
  distinct : (s.peers.map BrokerPeer.id).Nodup
  apart : s.peers.Pairwise Apart
  ordered : ∀ p ∈ s.peers, p.Ordered
  room : s.peers.length ≤ s.maxPeers
  once : s.handed.Nodup
  handedSeen : ∀ x ∈ s.handed, x ∈ s.seenNow
  knows : s.Knows

/-- A server has no peers at first. -/
lemma inv_start (maxPeers : ℕ) : Server.Inv { maxPeers := maxPeers } :=
  ⟨by simp, .nil, .nil, by simp, Nat.zero_le _, .nil, by simp, trivial⟩

lemma Server.Inv.updatePeer (h : s.Inv) (id : ℕ) {f : BrokerPeer → BrokerPeer}
    (hid : ∀ p, (f p).id = p.id) (hc : ∀ p, (f p).connectionId = p.connectionId)
    (hstop : ∀ p, p.stop = true → (f p).stop = true)
    (hf : ∀ p ∈ s.peers, p.id = id → p.Ordered → (f p).Ordered) : (s.updatePeer id f).Inv := by
  let g : BrokerPeer → BrokerPeer := fun p => if p.id = id then f p else p
  have gid : ∀ p, (g p).id = p.id := fun p => by by_cases hp : p.id = id <;> simp [g, hp, hid]
  have gc : ∀ p, (g p).connectionId = p.connectionId :=
    fun p => by by_cases hp : p.id = id <;> simp [g, hp, hc]
  have gstop : ∀ p, p.stop = true → (g p).stop = true := by
    intro p hs
    by_cases hp : p.id = id
    · simpa [g, hp] using hstop p hs
    · simpa [g, hp] using hs
  have hpeers : (s.updatePeer id f).peers = s.peers.map g := rfl
  refine ⟨?_, ?_, ?_, ?_, ?_, h.once, h.handedSeen, ?_⟩
  · intro q hq
    obtain ⟨p, hp, rfl⟩ := mem_map.mp hq
    rw [gid]
    exact h.ids p hp
  · have same : BrokerPeer.id ∘ g = BrokerPeer.id := funext gid
    rw [hpeers, map_map, same]
    exact h.distinct
  · rw [hpeers, pairwise_map]
    refine h.apart.imp fun {p q} hpq hsome heq => ?_
    rw [gc] at hsome
    rw [gc, gc] at heq
    exact (hpq hsome heq).imp (gstop p) (gstop q)
  · intro q hq
    obtain ⟨p, hp, rfl⟩ := mem_map.mp hq
    by_cases hpid : p.id = id
    · simpa [g, hpid] using hf p hp hpid (h.ordered p hp)
    · simpa [g, hpid] using h.ordered p hp
  · rw [hpeers, length_map]
    exact h.room
  · have knows := h.knows
    unfold Server.Knows at knows ⊢
    split at knows
    next hw => simp only [Server.updatePeer, hw]
    next hw => simpa only [Server.updatePeer, hw] using knows
    next hw =>
      obtain ⟨hh, ht, hl, hs, hcount, hnone⟩ := knows
      simp only [Server.updatePeer, hw]
      refine ⟨hh, ht, hl, hs, by rw [length_map]; exact hcount, fun hlog hsome q hq hqc => ?_⟩
      obtain ⟨p, hp, rfl⟩ := mem_map.mp hq
      exact gstop p (hnone hlog hsome p hp ((gc p).symm.trans hqc))
    next hw => simpa only [Server.updatePeer, hw] using knows

lemma Server.Inv.goTo (h : s.Inv) {w : Worker}
    (seen : ∀ x ∈ s.handed, x ∈ (s.goTo w).seenNow) (knows : (s.goTo w).Knows) : (s.goTo w).Inv :=
  ⟨h.ids, h.distinct, h.apart, h.ordered, h.room, h.once, seen, knows⟩

lemma Server.Inv.serverFail (h : s.Inv) (hseen : s.seenNow = s.seenSessions) :
    s.serverFail.Inv := by
  have seen : ∀ x ∈ s.handed, x ∈ s.seenSessions := hseen ▸ h.handedSeen
  unfold Server.serverFail
  split
  · exact ⟨h.ids, h.distinct, h.apart, h.ordered, h.room, h.once, seen, trivial⟩
  · exact ⟨h.ids, h.distinct, h.apart, h.ordered, h.room, h.once, seen, trivial⟩

lemma Server.Inv.once_cons (h : s.Inv) {item : Item}
    {generation : ℕ} {logical : Option ℕ} {count : ℕ}
    (hw : s.worker = .routing sessions todo item sid generation logical count) :
    (sid :: s.handed).Nodup ∧ (∀ x ∈ sid :: s.handed, x ∈ sid :: s.seenSessions) ∧
      (∀ x ∈ sid :: s.handed, Listed sessions x) ∧ ∀ item ∈ todo, item ∈ sessions := by
  have knows := h.knows
  have seen := h.handedSeen
  simp only [Server.Knows, hw] at knows
  simp only [Server.seenNow, hw] at seen
  obtain ⟨hh, ht, hl, hs, -, -⟩ := knows
  refine ⟨nodup_cons.mpr ⟨fun hsid => hs (seen sid hsid), h.once⟩, ?_, ?_, ht⟩
  · intro x hx
    exact (mem_cons.mp hx).elim (fun e => e ▸ mem_cons_self)
      fun hx => mem_cons_of_mem _ (seen x hx)
  · intro x hx
    exact (mem_cons.mp hx).elim (fun e => e ▸ hl) (hh x)

lemma Server.Inv.offered (h : s.Inv) {item : Item} {generation id count : ℕ}
    (hw : s.worker = .routing sessions todo item sid generation (some id) count)
    (mem : p ∈ s.peers) (hid : p.id = id) (newer : p.newer generation = true) :
    Server.Inv { (s.updatePeer id fun p => p.offer sid generation) with
      seenSessions := sid :: s.seenSessions, worker := .scanning sessions todo,
      handed := sid :: s.handed } := by
  obtain ⟨once, seen, listed, rest⟩ := h.once_cons hw
  -- no other peer has the identity of the one that was compared
  have only : ∀ q ∈ s.peers, q.id = id → q = p := fun q hq hqid =>
    inj_on_of_nodup_map h.distinct hq mem (hqid.trans hid.symm)
  have hu := h.updatePeer id (f := fun p => p.offer sid generation) (fun _ => rfl) (fun _ => rfl)
    (fun _ hs => hs) fun q hq hqid hord => hord.offer (only q hq hqid ▸ newer)
  exact ⟨hu.ids, hu.distinct, hu.apart, hu.ordered, hu.room, once, seen, listed, rest⟩

/-- The session is handed to a new peer. -/
lemma Server.Inv.made (h : s.Inv) {item : Item} {generation count : ℕ}
    (hw : s.worker = .routing sessions todo item sid generation none count)
    (room : count < s.maxPeers) :
    Server.Inv { s with
      seenSessions := sid :: s.seenSessions, worker := .scanning sessions todo,
      peers := newPeer s.nextId item sid generation :: s.peers,
      nextId := s.nextId + 1, handed := sid :: s.handed } := by
  obtain ⟨once, seen, listed, rest⟩ := h.once_cons hw
  have knows := h.knows
  simp only [Server.Knows, hw] at knows
  obtain ⟨-, -, -, -, hcount, stopped⟩ := knows
  refine ⟨?_, ?_, ?_, ?_, ?_, once, seen, listed, rest⟩
  · intro p hp
    rcases mem_cons.mp hp with rfl | hp
    · exact Nat.lt_succ_self _
    · exact (h.ids p hp).trans (Nat.lt_succ_self _)
  · refine nodup_cons.mpr ⟨fun hmem => ?_, h.distinct⟩
    obtain ⟨p, hp, hpid⟩ := mem_map.mp hmem
    exact (h.ids p hp).ne hpid
  · refine pairwise_cons.mpr ⟨fun p hp hsome heq => ?_, h.apart⟩
    exact .inr (stopped trivial hsome p hp heq.symm)
  · intro p hp
    rcases mem_cons.mp hp with rfl | hp
    · exact newPeer_ordered _ _ _ _
    · exact h.ordered p hp
  · rw [length_cons, ← hcount]
    exact room

lemma Server.Inv.moved {s' : Server} (h : s.Inv) (hm : Moved s s') : s'.Inv := by
  have seen := h.handedSeen
  have knows := h.knows
  cases hm with
  | idle => exact h
  | failed hseen => exact h.serverFail hseen
  | scanned hw =>
    simp only [Server.Knows, hw] at knows
    simp only [Server.seenNow, hw] at seen
    exact h.goTo (by simpa [Server.goTo, Server.seenNow] using seen) knows.1
  | skipped hw =>
    simp only [Server.Knows, hw] at knows
    simp only [Server.seenNow, hw] at seen
    exact h.goTo seen ⟨knows.1, fun i hi => knows.2 i (mem_cons_of_mem _ hi)⟩
  | @found _ _ item _ _ hw parsed fresh =>
    simp only [Server.Knows, hw] at knows
    simp only [Server.seenNow, hw] at seen
    refine h.goTo seen ⟨knows.1, fun i hi => knows.2 i (mem_cons_of_mem _ hi),
      ⟨item, knows.2 item mem_cons_self, Item.sessionId_of_parse parsed⟩, fresh, rfl, ?_⟩
    exact fun hnone hsome p hp hpc => Server.stop_of_logical hnone hsome hp hpc
  | passed hw =>
    simp only [Server.Knows, hw] at knows
    simp only [Server.seenNow, hw] at seen
    exact h.goTo seen ⟨knows.1, knows.2.1⟩
  | offered hw mem hid newer => exact h.offered hw mem hid newer
  | stale hw =>
    simp only [Server.Knows, hw] at knows
    simp only [Server.seenNow, hw] at seen
    exact ⟨h.ids, h.distinct, h.apart, h.ordered, h.room, h.once,
      fun x hx => mem_cons_of_mem _ (seen x hx), knows.1, knows.2.1⟩
  | made hw room => exact h.made hw room
  | pruned hw =>
    simp only [Server.seenNow, hw, append_nil] at seen
    exact ⟨h.ids, h.distinct, h.apart, h.ordered, h.room, h.once, seen, trivial⟩
  | kept hw =>
    simp only [Server.Knows, hw] at knows
    simp only [Server.seenNow, hw] at seen
    exact h.goTo (by simpa [Server.goTo, Server.seenNow] using seen) knows
  | @dropped _ _ _ x hw absent =>
    simp only [Server.Knows, hw] at knows
    simp only [Server.seenNow, hw] at seen
    refine h.goTo (fun y hy => ?_) knows
    have hne : y ≠ x := fun e => absent (e ▸ knows y hy)
    simpa [Server.goTo, Server.seenNow, hne] using seen y hy

lemma Server.Inv.step (h : s.Inv) (e : Event) : (s.step e).Inv := by
  have seen := h.handedSeen
  cases e with
  | snapshot sessions =>
    simp only [Server.step]
    split
    next hw =>
      simp only [Server.seenNow, hw.1] at seen
      refine ⟨h.ids, h.distinct, h.apart, h.ordered, h.room, h.once.filter _, ?_, ?_, ?_⟩
      · exact fun x hx => seen x (mem_filter.mp hx).1
      · exact fun x hx => (any_listed sessions x).mp (mem_filter.mp hx).2
      · exact fun item hi => hi
    · exact h
  | malformed =>
    simp only [Server.step]
    split
    next hw => exact h.serverFail (by simp only [Server.seenNow, hw.1])
    · exact h
  | worker gets => exact h.moved (s.serverSnapshot_moved gets)
  | close => exact ⟨h.ids, h.distinct, h.apart, h.ordered, h.room, h.once, seen, h.knows⟩
  | shut => exact ⟨h.ids, h.distinct, h.apart, h.ordered, h.room, h.once, seen, h.knows⟩
  | stop id =>
    exact h.updatePeer id (fun _ => rfl) (fun _ => rfl) (fun _ _ => rfl)
      fun _ _ _ hord => hord.stop
  | attempt id =>
    refine h.updatePeer id (fun p => ?_) (fun p => ?_) (fun p hp => ?_)
      fun _ _ _ hord => hord.attempt
    · unfold BrokerPeer.attempt; split_ifs <;> [rfl; rfl; (split <;> rfl)]
    · unfold BrokerPeer.attempt; split_ifs <;> [rfl; rfl; (split <;> rfl)]
    · rw [BrokerPeer.attempt, if_pos hp, hp]
  | reap id =>
    simp only [Server.step]
    split
    next hw =>
      refine ⟨fun p hp => h.ids p (mem_filter.mp hp).1, ?_, h.apart.filter _,
        fun p hp => h.ordered p (mem_filter.mp hp).1,
        (length_filter_le _ _).trans h.room, h.once, seen, ?_⟩
      · exact h.distinct.sublist (filter_sublist.map _)
      · simp only [Server.Knows, hw]
    · exact h

lemma run_inv (maxPeers : ℕ) (events : List Event) :
    (run Server.step { maxPeers := maxPeers } events).Inv :=
  run_invariant (fun _ e h => h.step e) events (inv_start maxPeers)

lemma Server.step_maxPeers (s : Server) (e : Event) : (s.step e).maxPeers = s.maxPeers := by
  have fail : s.serverFail.maxPeers = s.maxPeers := by
    unfold Server.serverFail
    split <;> rfl
  cases e with
  | snapshot sessions => simp only [Server.step]; split <;> rfl
  | malformed =>
    simp only [Server.step]
    split
    · exact fail
    · rfl
  | worker gets =>
    have moved := s.serverSnapshot_moved gets
    change (s.serverSnapshot gets).maxPeers = s.maxPeers
    generalize s.serverSnapshot gets = t at moved
    cases moved with
    | failed => exact fail
    | _ => rfl
  | reap id => simp only [Server.step]; split <;> rfl
  | close => rfl
  | shut => rfl
  | stop id => rfl
  | attempt id => rfl

lemma live_le_one {peers : List BrokerPeer} (h : peers.Pairwise Apart) (connection : String) :
    (peers.filter fun p => p.connectionId = some connection && !p.stop).length ≤ 1 := by
  induction peers with
  | nil => simp
  | cons p peers ih =>
    obtain ⟨hp, hps⟩ := pairwise_cons.mp h
    rw [filter_cons]
    split
    next hlive =>
      simp only [Bool.and_eq_true, decide_eq_true_eq, Bool.not_eq_true'] at hlive
      have none : (peers.filter fun p => p.connectionId = some connection && !p.stop) = [] := by
        refine filter_eq_nil_iff.mpr fun q hq hqlive => ?_
        simp only [Bool.and_eq_true, decide_eq_true_eq, Bool.not_eq_true'] at hqlive
        rcases hp q hq (by simp [hlive.1]) (hlive.1.trans hqlive.1.symm) with hs | hs
        · simp [hlive.2] at hs
        · simp [hqlive.2] at hs
      rw [none]
      simp
    · exact ih hps

/-- **Snapshots are routed to at most one live peer per connection.** The control generations of a
peer's attempts increase, a session is handed over at most once while it stays in the snapshots,
and the peers stay within their limit. -/
theorem snapshot_routing (maxPeers : ℕ) (events : List Event) :
    let s := run Server.step { maxPeers := maxPeers } events
    (∀ connection : String,
      (s.peers.filter fun p => p.connectionId = some connection && !p.stop).length ≤ 1) ∧
    (∀ p ∈ s.peers, p.attempts.Pairwise (· > ·)) ∧
    s.handed.Nodup ∧
    s.peers.length ≤ maxPeers := by
  intro s
  have inv : s.Inv := run_inv maxPeers events
  have limit : s.maxPeers = maxPeers :=
    run_invariant (I := fun t : Server => t.maxPeers = maxPeers)
      (fun t e h => (t.step_maxPeers e).trans h) events rfl
  exact ⟨live_le_one inv.apart, fun p hp => (inv.ordered p hp).increasing, inv.once,
    limit ▸ inv.room⟩

end OhecoBroker.Routing
