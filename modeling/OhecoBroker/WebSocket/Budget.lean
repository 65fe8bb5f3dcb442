/-
The budgets of the WebSocket hub balance.

* `Writer.charged`, `Owner.processes`, `Peer.heldInputs`: the share of a socket;
* `Peer.Accounts`, `Balanced`: a socket's own books, and a step that books its share;
* `Ran.balanced`, `Wrote.balanced`, `Read.balanced`: the steps of the three goroutines;
* `System.Balance`, `System.Balance.step`: all sockets;
* `budgets_balance`: **in every state of every run** the shared counters are the sums of the
  shares, within their limits, and nothing is left once every socket has unregistered;
* `charged_after_stop`: a writer that stops while it waits for a slot leaves its packet charged
  until the socket unregisters.
-/
import OhecoBroker.Lib.Shares
import OhecoBroker.WebSocket.Steps

namespace OhecoBroker.WebSocket

open Lib

/-! ### The share of a socket -/

def bytes (ps : List Packet) : ℤ := (ps.map fun packet => (packet.data.length : ℤ)).sum

@[simp] lemma bytes_nil : bytes [] = 0 := rfl

@[simp] lemma bytes_cons (packet : Packet) (ps : List Packet) :
    bytes (packet :: ps) = packet.data.length + bytes ps := by
  simp [bytes]

@[simp] lemma bytes_append (ps qs : List Packet) : bytes (ps ++ qs) = bytes ps + bytes qs := by
  simp [bytes]

lemma bytes_nonneg (ps : List Packet) : 0 ≤ bytes ps := by
  induction ps with
  | nil => simp
  | cons packet ps ih => rw [bytes_cons]; omega

/-- The packet taken and not uncharged. -/
def Writer.charged : Writer → List Packet
  | .taken packet | .drop packet | .waiting packet | .slotted packet => [packet]
  | .exited unsent => unsent.toList
  | _ => []

/-- A result is queued while its input still counts. -/
def Call.processes : Call → ℕ
  | .result _ => 1
  | _ => 0

def Owner.processes : Owner → ℕ
  | .input _ | .ack _ | .rpc | .drained => 1
  | .enqueue c | .marshal c | .overflow c | .enqueued c _ | .back c _ => c.processes
  | _ => 0

def Writer.slots : Writer → ℕ
  | .slotted _ | .ready _ | .writing _ | .wrote _ _ => 1
  | _ => 0

def Owner.marshals : Owner → ℕ
  | .marshal _ | .overflow _ | .enqueued _ _ => 1
  | _ => 0

/-- Inputs being read, queued and being processed. -/
def Peer.heldInputs (p : Peer) : ℕ := p.reader.reads + p.inputs.length + p.owner.processes

def Owner.early : Owner → Bool
  | .connecting | .registering | .refused | .upgrading => true
  | _ => false

def Owner.joined : Owner → Bool
  | .draining | .drained | .leaving | .ended => true
  | _ => false

/-- **A socket's own books.** -/
structure Peer.Accounts (p : Peer) : Prop where
  charge : p.owner ≠ .ended → p.queueBytes = bytes p.out + bytes p.writer.charged
  released : p.owner = .ended → p.queueBytes = 0
  limit : p.queueBytes ≤ wsMaxQueueBytes
  early : p.owner.early = true → p.reader = .off ∧ p.writer = .off ∧ p.inputs = [] ∧ p.out = []
  joined : p.owner.joined = true →
    (p.reader = .off ∨ p.reader = .exited) ∧ (p.writer = .off ∨ ∃ u, p.writer = .exited u)
  drained : p.owner = .leaving ∨ p.owner = .ended → p.inputs = []

variable {p : Peer}

lemma Peer.Accounts.nonneg (hp : p.Accounts) : 0 ≤ p.queueBytes := by
  by_cases ho : p.owner = .ended
  · rw [hp.released ho]
  have := hp.charge ho
  have := bytes_nonneg p.out
  have := bytes_nonneg p.writer.charged
  omega

/-- A step of a socket books its share. -/
structure Balanced (h : Hub) (p : Peer) (r : Hub × Peer) : Prop where
  queued : r.1.queuedBytes + p.queueBytes = h.queuedBytes + r.2.queueBytes
  read : r.1.readSlots + p.heldInputs = h.readSlots + r.2.heldInputs
  write : r.1.writeSlots + p.writer.slots = h.writeSlots + r.2.writer.slots
  marshal : r.1.marshalSlots + p.owner.marshals = h.marshalSlots + r.2.owner.marshals
  limit : r.1.queuedBytes ≤ wsMaxGlobalQueueBytes

/-- The hub covers a socket's share, within its limit. -/
structure Covers (h : Hub) (p : Peer) : Prop where
  read : p.heldInputs ≤ h.readSlots
  write : p.writer.slots ≤ h.writeSlots
  marshal : p.owner.marshals ≤ h.marshalSlots
  limit : h.queuedBytes ≤ wsMaxGlobalQueueBytes

section Steps

variable {highest : ℕ} {admitted : Bool} {h : Hub} {p : Peer} {r : Hub × Peer}

/-! ### The owner's steps -/

variable {o o' : Owner}

/-- A jump holds the same inputs. -/
lemma Jump.processes (hj : Jump highest admitted p o o') : o'.processes = o.processes := by
  cases hj <;> rfl

lemma Jump.marshals (hj : Jump highest admitted p o o') : o'.marshals = o.marshals := by
  cases hj <;> rfl

lemma Jump.of_early (hj : Jump highest admitted p o o') (h : o'.early = true) : o.early = true := by
  cases hj with
  | registering | unknown | upgrading | refused => rfl
  | _ => cases h

lemma balanced_of_owner {k : Hub} {q : Peer} (hq : k.queuedBytes = h.queuedBytes)
    (hw : k.writeSlots = h.writeSlots) (hqb : q.queueBytes = p.queueBytes)
    (hrd : q.reader = p.reader) (hwr : q.writer = p.writer)
    (hl : h.queuedBytes ≤ wsMaxGlobalQueueBytes)
    (hr : k.readSlots + p.inputs.length + p.owner.processes
      = h.readSlots + q.inputs.length + q.owner.processes)
    (hm : k.marshalSlots + p.owner.marshals = h.marshalSlots + q.owner.marshals) :
    Balanced h p (k, q) := by
  refine ⟨by rw [hq, hqb], ?_, by rw [hw, hwr], hm, hq ▸ hl⟩
  simp only [Peer.heldInputs, hrd]
  omega

/-- Every step of the owner books its share. -/
lemma Ran.balanced (hr : Ran highest admitted h p r) (hp : p.Accounts) (hc : Covers h p) :
    Balanced h p r := by
  have hread : p.owner.processes ≤ h.readSlots := (Nat.le_add_left _ _).trans hc.read
  have hmarshal := hc.marshal
  cases hr with
  | stay => exact ⟨rfl, rfl, rfl, rfl, hc.limit⟩
  | jump hj =>
    exact ⟨rfl, by simp [Peer.heldInputs, hj.processes], rfl, by simp [hj.marshals], hc.limit⟩
  | start ho hd =>
    obtain ⟨hrd, hwr, -, -⟩ := hp.early (by rw [ho]; rfl)
    constructor <;> simp [Peer.heldInputs, ho, hrd, hwr, Reader.reads, Writer.slots,
      Owner.processes, Owner.marshals, hc.limit]
  | accepted ho hd hq hh hlen =>
    refine ⟨?_, ?_, rfl, ?_, hh⟩
    · simp only []
      ring
    · simp [Peer.heldInputs, ho, Owner.processes]
    · simp [ho, Owner.marshals]
  | leave ho =>
    refine ⟨by simp, ?_, rfl, ?_, ?_⟩
    · simp [Peer.heldInputs, ho, Owner.processes]
    · simp [ho, Owner.marshals]
    have := hp.nonneg
    have := hc.limit
    simp only
    omega
  | snapshot ho =>
    refine ⟨rfl, ?_, rfl, ?_, hc.limit⟩ <;>
      cases p.brokerWatch <;>
        simp [Peer.heldInputs, ho, Owner.processes, Owner.marshals, Call.processes]
  | message ho | overflow ho | wake ho _ | revoke ho | stopping ho =>
    refine balanced_of_owner rfl rfl rfl rfl rfl hc.limit ?_ ?_
    · simp [ho, Owner.processes, Call.processes]
    · simp [ho, Owner.marshals]
  | marshal ho =>
    refine balanced_of_owner rfl rfl rfl rfl rfl hc.limit ?_ ?_
    · simp [ho, Owner.processes]
    · simp [ho, Owner.marshals]
  | marshalled ho =>
    simp only [ho, Owner.marshals] at hmarshal
    refine balanced_of_owner rfl rfl rfl rfl rfl hc.limit ?_ ?_
    · simp [ho, Owner.processes]
    · simp only [ho, Owner.marshals]
      omega
  | take ho hi | drain ho hi =>
    refine balanced_of_owner rfl rfl rfl rfl rfl hc.limit ?_ ?_
    · simp only [ho, hi, Owner.processes, List.length_cons]
      omega
    · simp [ho, Owner.marshals]
  | @replied b ok ho =>
    simp only [ho, Owner.processes, Call.processes] at hread
    refine balanced_of_owner rfl rfl rfl rfl rfl hc.limit ?_ ?_
    · cases b <;> simp only [ho, Owner.processes, Call.processes] <;> simp <;> omega
    · cases b <;> simp [ho, Owner.marshals]
  | inputFailed ho | acked ho _ | ackRefused ho _ | drained ho =>
    simp only [ho, Owner.processes] at hread
    refine balanced_of_owner rfl rfl rfl rfl rfl hc.limit ?_ ?_
    · simp only [ho, Owner.processes]
      omega
    · simp [ho, Owner.marshals]

lemma Jump.of_joined (hj : Jump highest admitted p o o') (h : o'.joined = true) :
    o.early = true ∨ (p.reader = .exited ∧ ∃ u, p.writer = .exited u) ∨ o.joined = true := by
  cases hj with
  | abandoned => exact .inl rfl
  | joined hr hw => exact .inr (.inl ⟨hr, _, hw⟩)
  | empty => exact .inr (.inr rfl)
  | _ => cases h

lemma Jump.of_leaving (hj : Jump highest admitted p o o')
    (h : o' = .leaving ∨ o' = .ended) : o.early = true ∨ p.inputs = [] := by
  cases hj with
  | abandoned => exact .inl rfl
  | empty hi => exact .inr hi
  | _ => simp at h

lemma Jump.not_ended (hj : Jump highest admitted p o o') : o ≠ .ended ∧ o' ≠ .ended := by
  cases hj <;> simp

lemma Jump.accounts (hj : Jump highest admitted p p.owner o) (hp : p.Accounts) :
    { p with owner := o : Peer }.Accounts where
  charge _ := hp.charge hj.not_ended.1
  released h := absurd h hj.not_ended.2
  limit := hp.limit
  early h := hp.early (hj.of_early h)
  joined h := by
    rcases hj.of_joined h with he | ⟨hr, hw⟩ | ho
    · exact ⟨.inl (hp.early he).1, .inl (hp.early he).2.1⟩
    · exact ⟨.inr hr, .inr hw⟩
    · exact hp.joined ho
  drained h := by
    rcases hj.of_leaving h with he | hi
    · exact (hp.early he).2.2.1
    · exact hi

/-- The books while the socket is served. -/
lemma Peer.Accounts.of_served {q : Peer} (hq : q.queueBytes = bytes q.out + bytes q.writer.charged)
    (hl : q.queueBytes ≤ wsMaxQueueBytes) (he : q.owner.early = false)
    (hj : q.owner.joined = false) : q.Accounts where
  charge _ := hq
  released h := by rw [h] at hj; cases hj
  limit := hl
  early h := by rw [he] at h; cases h
  joined h := by rw [hj] at h; cases h
  drained h := by rcases h with h | h <;> rw [h] at hj <;> cases hj

lemma Ran.accounts (hr : Ran highest admitted h p r) (hp : p.Accounts) : r.2.Accounts := by
  cases hr with
  | stay => exact hp
  | jump hj => exact hj.accounts hp
  | start ho hd =>
    obtain ⟨-, hwr, -, hout⟩ := hp.early (by rw [ho]; rfl)
    have hq := hp.charge (by rw [ho]; simp)
    refine .of_served ?_ hp.limit rfl rfl
    simpa [hwr, hout, Writer.charged] using hq
  | @accepted c data ho hd hq hh hlen =>
    have hb := hp.charge (by rw [ho]; simp)
    refine .of_served ?_ hq rfl rfl
    simp only [bytes_append, bytes_cons, bytes_nil, c.length_packet, hb]
    ring
  | leave ho =>
    refine ⟨fun h => absurd rfl h, fun _ => rfl, by simp, (fun h => (by cases h)),
      fun _ => hp.joined (by rw [ho]; rfl), fun _ => hp.drained (.inl ho)⟩
  | drain ho hi =>
    have hj := hp.joined (by rw [ho]; rfl)
    exact ⟨fun _ => hp.charge (by rw [ho]; simp), (fun h => (by cases h)), hp.limit,
      (fun h => (by cases h)), fun _ => hj, fun h => by simp at h⟩
  | drained ho =>
    have hj := hp.joined (by rw [ho]; rfl)
    exact ⟨fun _ => hp.charge (by rw [ho]; simp), (fun h => (by cases h)), hp.limit,
      (fun h => (by cases h)), fun _ => hj, fun h => by simp at h⟩
  | snapshot ho =>
    refine .of_served (hp.charge (by rw [ho]; simp)) hp.limit ?_ ?_ <;>
      cases p.brokerWatch <;> rfl
  | @replied b ok ho =>
    refine .of_served (hp.charge (by rw [ho]; simp)) hp.limit ?_ ?_ <;> cases b <;> rfl
  | message ho | overflow ho | wake ho _ | revoke ho | stopping ho | marshal ho | marshalled ho
  | take ho hi | inputFailed ho | acked ho _ | ackRefused ho _ =>
    exact .of_served (hp.charge (by rw [ho]; simp)) hp.limit rfl rfl

/-! ### The writer's and the reader's steps -/

lemma Wrote.balanced (hr : Wrote h p r) (hc : Covers h p) : Balanced h p r := by
  have hwrite := hc.write
  have hlim := hc.limit
  cases hr with
  | stay => exact ⟨rfl, rfl, rfl, rfl, hc.limit⟩
  | exit hw | receive hw _ | dropped hw | tested hw _ | giveUp hw _ | start hw | wrote hw
  | slot hw =>
    refine ⟨rfl, rfl, ?_, rfl, hc.limit⟩
    simp [hw, Writer.slots, Peer.exitWriter, Peer.start]
  | ended hw | next hw _ =>
    rw [hw] at hwrite
    simp only [Writer.slots] at hwrite
    refine ⟨rfl, rfl, ?_, rfl, hc.limit⟩
    simp only [hw, Writer.slots, Peer.exitWriter]
    omega
  | drop hw | uncharged hw =>
    refine ⟨?_, rfl, ?_, rfl, ?_⟩
    · simp only [uncharge]
      ring
    · simp [hw, Writer.slots, uncharge]
    · simp only [uncharge]
      omega

lemma Peer.Accounts.served (hp : p.Accounts)
    (hrun : (p.writer ≠ .off ∧ ∀ u, p.writer ≠ .exited u) ∨
      (p.reader ≠ .off ∧ p.reader ≠ .exited)) :
    p.owner ≠ .ended ∧ p.owner.early = false ∧ p.owner.joined = false := by
  have he : p.owner.early = false := by
    by_contra he
    obtain ⟨hr, hw, -, -⟩ := hp.early (by simpa using he)
    rcases hrun with hrun | hrun
    · exact hrun.1 hw
    · exact hrun.1 hr
  have hj : p.owner.joined = false := by
    by_contra hj
    obtain ⟨hr, hw⟩ := hp.joined (by simpa using hj)
    rcases hrun with hrun | hrun
    · rcases hw with hw | ⟨u, hw⟩
      · exact hrun.1 hw
      · exact hrun.2 u hw
    · rcases hr with hr | hr
      · exact hrun.1 hr
      · exact hrun.2 hr
  refine ⟨fun h => ?_, he, hj⟩
  rw [h] at hj
  cases hj

lemma Wrote.accounts (hr : Wrote h p r) (hp : p.Accounts) : r.2.Accounts := by
  cases hr with
  | stay => exact hp
  | exit hw | receive hw ho | dropped hw | tested hw _ | giveUp hw _ | slot hw | start hw | wrote hw
  | ended hw | next hw _ =>
    obtain ⟨hne, he, hj⟩ := hp.served (.inl (by simp [hw]))
    refine .of_served ?_ hp.limit he hj
    have hq := hp.charge hne
    simp_all [Writer.charged, Peer.exitWriter, Peer.start, add_comm]
  | drop hw | uncharged hw =>
    obtain ⟨hne, he, hj⟩ := hp.served (.inl (by simp [hw]))
    have hq := hp.charge hne
    have hl := hp.limit
    simp only [hw, Writer.charged, bytes_cons, bytes_nil] at hq
    refine .of_served ?_ ?_ he hj
    · simp only [uncharge, Writer.charged, bytes_nil]
      omega
    · simp only [uncharge]
      omega

lemma Read.balanced (hr : Read h p r) (hc : Covers h p) : Balanced h p r := by
  have hread := hc.read
  unfold Peer.heldInputs at hread
  cases hr with
  | stay => exact ⟨rfl, rfl, rfl, rfl, hc.limit⟩
  | exit hz _ =>
    refine ⟨rfl, ?_, rfl, rfl, hc.limit⟩
    simp only [Peer.heldInputs, Peer.exitReader, hz]
    rfl
  | frame hr | parsed hr | next hr =>
    refine ⟨rfl, ?_, rfl, rfl, hc.limit⟩
    simp [Peer.heldInputs, hr, Reader.reads]
  | slot hr =>
    refine ⟨rfl, ?_, rfl, rfl, hc.limit⟩
    simp only [Peer.heldInputs, hr, Reader.reads]
    omega
  | queued hr =>
    refine ⟨rfl, ?_, rfl, rfl, hc.limit⟩
    simp only [Peer.heldInputs, hr, Reader.reads, List.length_append, List.length_singleton]
    omega
  | failed hz =>
    refine ⟨rfl, ?_, rfl, rfl, hc.limit⟩
    rw [hz] at hread
    have hx : Reader.reads .exited = 0 := rfl
    simp only [Peer.heldInputs, Peer.exitReader, hz, hx]
    omega

lemma Read.accounts (hr : Read h p r) (hp : p.Accounts) : r.2.Accounts := by
  cases hr with
  | stay => exact hp
  | exit _ hn =>
    obtain ⟨hne, he, hj⟩ := hp.served (.inr hn)
    exact .of_served (hp.charge hne) hp.limit he hj
  | frame hr | slot hr | parsed hr | next hr | queued hr =>
    obtain ⟨hne, he, hj⟩ := hp.served (.inr (by simp [hr]))
    exact .of_served (hp.charge hne) hp.limit he hj
  | failed hz =>
    obtain ⟨hne, he, hj⟩ := hp.served (.inr ⟨fun h => by simp [h, Reader.reads] at hz,
      fun h => by simp [h, Reader.reads] at hz⟩)
    exact .of_served (hp.charge hne) hp.limit he hj

end Steps

/-! ### All sockets -/

variable {ι : Type*} [Fintype ι] [DecidableEq ι]

/-- **The books of the hub**: every counter is the sum of the shares. -/
structure System.Balance (s : System ι) : Prop where
  accounts : ∀ i, (s.peers i).Accounts
  queued : s.hub.queuedBytes = ∑ i, (s.peers i).queueBytes
  read : s.hub.readSlots = ∑ i, (s.peers i).heldInputs
  write : s.hub.writeSlots = ∑ i, (s.peers i).writer.slots
  marshal : s.hub.marshalSlots = ∑ i, (s.peers i).owner.marshals
  limit : s.hub.queuedBytes ≤ wsMaxGlobalQueueBytes

omit [DecidableEq ι] in
/-- The hub covers the share of each socket. -/
lemma System.Balance.covers {s : System ι} (hs : s.Balance) (i : ι) : Covers s.hub (s.peers i) where
  read := hs.read ▸ Finset.single_le_sum (f := fun i => (s.peers i).heldInputs)
    (fun _ _ => Nat.zero_le _) (Finset.mem_univ i)
  write := hs.write ▸ Finset.single_le_sum (f := fun i => (s.peers i).writer.slots)
    (fun _ _ => Nat.zero_le _) (Finset.mem_univ i)
  marshal := hs.marshal ▸ Finset.single_le_sum (f := fun i => (s.peers i).owner.marshals)
    (fun _ _ => Nat.zero_le _) (Finset.mem_univ i)
  limit := hs.limit

lemma System.Balance.put {s : System ι} (hs : s.Balance) {i : ι} {r : Hub × Peer}
    (hb : Balanced s.hub (s.peers i) r) (ha : r.2.Accounts) : (s.put i r).Balance where
  accounts j := by
    by_cases hj : j = i
    · rw [hj, System.put_self]
      exact ha
    · rw [System.put_of_ne s hj]
      exact hs.accounts j
  queued := eq_sum_update hs.queued hb.queued
  read := eq_sum_update hs.read hb.read
  write := eq_sum_update (m := fun p : Peer => p.writer.slots) hs.write hb.write
  marshal := eq_sum_update (m := fun p : Peer => p.owner.marshals) hs.marshal hb.marshal
  limit := hb.limit

structure Peer.SameShare (p q : Peer) : Prop where
  owner : q.owner = p.owner
  reader : q.reader = p.reader
  writer : q.writer = p.writer
  inputs : q.inputs = p.inputs
  out : q.out = p.out
  queueBytes : q.queueBytes = p.queueBytes

lemma Peer.SameShare.refl (p : Peer) : p.SameShare p := ⟨rfl, rfl, rfl, rfl, rfl, rfl⟩

lemma Peer.sameShare_woken (p : Peer) : p.SameShare p.woken := by
  unfold Peer.woken
  split
  · exact ⟨rfl, rfl, rfl, rfl, rfl, rfl⟩
  · exact .refl p

lemma Peer.Accounts.congr {q : Peer} (hp : p.Accounts) (h : p.SameShare q) : q.Accounts := by
  obtain ⟨ho, hr, hw, hi, hout, hq⟩ := h
  refine ⟨?_, ?_, ?_, ?_, ?_, ?_⟩
  · rw [ho, hq, hout, hw]; exact hp.charge
  · rw [ho, hq]; exact hp.released
  · rw [hq]; exact hp.limit
  · rw [ho, hr, hw, hi, hout]; exact hp.early
  · rw [ho, hr, hw]; exact hp.joined
  · rw [ho, hi]; exact hp.drained

omit [DecidableEq ι] in
lemma System.Balance.congr {s t : System ι} (hs : s.Balance) (hh : t.hub = s.hub)
    (hp : ∀ i, (s.peers i).SameShare (t.peers i)) : t.Balance where
  accounts i := (hs.accounts i).congr (hp i)
  queued := by
    rw [hh, hs.queued]
    exact Finset.sum_congr rfl fun i _ => (hp i).queueBytes.symm
  read := by
    rw [hh, hs.read]
    refine Finset.sum_congr rfl fun i _ => ?_
    rw [Peer.heldInputs, Peer.heldInputs, (hp i).reader, (hp i).inputs, (hp i).owner]
  write := by
    rw [hh, hs.write]
    exact Finset.sum_congr rfl fun i _ => by rw [(hp i).writer]
  marshal := by
    rw [hh, hs.marshal]
    exact Finset.sum_congr rfl fun i _ => by rw [(hp i).owner]
  limit := hh ▸ hs.limit

omit [Fintype ι] in
lemma System.put_sameShare {s : System ι} {i : ι} {h : Hub} {q : Peer}
    (hq : (s.peers i).SameShare q) (j : ι) : (s.peers j).SameShare ((s.put i (h, q)).peers j) := by
  by_cases hj : j = i
  · rw [hj, System.put_self]
    exact hq
  · rw [System.put_of_ne s hj]
    exact .refl _

/-- **A step keeps the books.** -/
lemma System.Balance.step {s : System ι} (hs : s.Balance) (e : Event ι) : (s.step e).Balance := by
  cases e with
  | run i pick =>
    have hran := run_ran (s.stored (s.peers i).target (oppositeSide (s.peers i).side))
      (s.admits i) s.hub (s.peers i) pick
    exact hs.put (hran.balanced (hs.accounts i) (hs.covers i)) (hran.accounts (hs.accounts i))
  | reader i pick =>
    have hread := readerStep_read s.hub (s.peers i) pick
    exact hs.put (hread.balanced (hs.covers i)) (hread.accounts (hs.accounts i))
  | writer i pick =>
    have hwrote := writerStep_wrote s.hub (s.peers i) pick
    exact hs.put (hwrote.balanced (hs.covers i)) (hwrote.accounts (hs.accounts i))
  | commit session side => exact ⟨hs.accounts, hs.queued, hs.read, hs.write, hs.marshal, hs.limit⟩
  | notify session =>
    rw [System.step]
    split
    · refine hs.congr rfl fun i => ?_
      simp only
      split
      · exact (s.peers i).sameShare_woken
      · exact .refl _
    · exact hs
  | wake i => exact hs.congr rfl (System.put_sameShare (s.peers i).sameShare_woken)
  | close => exact ⟨hs.accounts, hs.queued, hs.read, hs.write, hs.marshal, hs.limit⟩
  | stop i =>
    rw [System.step]
    split
    · exact hs.congr rfl (System.put_sameShare ⟨rfl, rfl, rfl, rfl, rfl, rfl⟩)
    · exact hs

omit [DecidableEq ι] in
/-- At the start nothing is held. -/
lemma System.balance_start (connects : ι → Connect) (stored : String → Side → ℕ) :
    (System.start connects stored).Balance := by
  refine ⟨fun i => ?_, ?_, ?_, ?_, ?_, ?_⟩
  · exact ⟨fun _ => rfl, fun _ => rfl, by simp [System.start, Connect.peer],
      fun _ => ⟨rfl, rfl, rfl, rfl⟩, fun h => (by cases h), fun _ => rfl⟩
  all_goals simp [System.start, Connect.peer, Peer.heldInputs, Reader.reads, Owner.processes,
    Owner.marshals, Writer.slots]

lemma Peer.Accounts.free (hp : p.Accounts) (hn : p.registered = false) :
    p.queueBytes = 0 ∧ p.heldInputs = 0 ∧ p.writer.slots = 0 ∧ p.owner.marshals = 0 := by
  have hcases : p.owner = .ended ∨ (p.owner.early = true ∧ p.owner.processes = 0 ∧
      p.owner.marshals = 0 ∧ p.owner ≠ .ended) := by
    unfold Peer.registered at hn
    cases ho : p.owner <;> simp_all [Owner.early, Owner.processes, Owner.marshals]
  rcases hcases with ho | ⟨he, hpr, hm, hne⟩
  · obtain ⟨hr, hw⟩ := hp.joined (by rw [ho]; rfl)
    have hi := hp.drained (.inr ho)
    refine ⟨hp.released ho, ?_, ?_, by rw [ho]; rfl⟩
    · rw [Peer.heldInputs, ho, hi]
      rcases hr with hr | hr <;> rw [hr] <;> rfl
    · rcases hw with hw | ⟨u, hw⟩ <;> rw [hw] <;> rfl
  obtain ⟨hr, hw, hi, hout⟩ := hp.early he
  refine ⟨?_, ?_, by rw [hw]; rfl, hm⟩
  · rw [hp.charge hne, hout, hw]
    rfl
  · rw [Peer.heldInputs, hr, hi, hpr]
    rfl

/-- **The budgets balance.** The queued bytes of the hub are those of its peers; a peer is charged
for the packets in `out` and the one its writer has taken and not uncharged; the read slots are
the inputs being read, queued or processed; and nothing is left once every peer has unregistered.
-/
theorem budgets_balance (connects : ι → Connect) (stored : String → Side → ℕ)
    (es : List (Event ι)) :
    let s := run System.step (System.start connects stored) es
    (s.hub.queuedBytes = ∑ i with (s.peers i).registered, (s.peers i).queueBytes) ∧
    (∀ i, (s.peers i).registered →
      (s.peers i).queueBytes = bytes (s.peers i).out + bytes (s.peers i).writer.charged) ∧
    (∀ i, 0 ≤ (s.peers i).queueBytes ∧ (s.peers i).queueBytes ≤ 262144) ∧
    (0 ≤ s.hub.queuedBytes ∧ s.hub.queuedBytes ≤ 32 * 2 ^ 20) ∧
    (s.hub.readSlots = ∑ i, ((s.peers i).reader.reads + (s.peers i).inputs.length
      + (s.peers i).owner.processes)) ∧
    ((∀ i, (s.peers i).registered = false) →
      s.hub.queuedBytes = 0 ∧ s.hub.readSlots = 0 ∧ s.hub.writeSlots = 0 ∧
        s.hub.marshalSlots = 0) := by
  intro s
  have hs : s.Balance :=
    run_invariant (fun _ e h => h.step e) es (System.balance_start connects stored)
  refine ⟨?_, fun i hi => ?_, fun i => ⟨(hs.accounts i).nonneg, ?_⟩, ⟨?_, ?_⟩, hs.read,
    fun hn => ?_⟩
  · rw [hs.queued, Finset.sum_filter]
    refine Finset.sum_congr rfl fun i _ => ?_
    split
    · rfl
    next hi => exact ((hs.accounts i).free (by simpa using hi)).1
  · refine (hs.accounts i).charge fun ho => ?_
    simp [Peer.registered, ho] at hi
  · exact (hs.accounts i).limit
  · rw [hs.queued]
    exact Finset.sum_nonneg fun i _ => (hs.accounts i).nonneg
  · exact hs.limit
  · have hfree := fun i => (hs.accounts i).free (hn i)
    refine ⟨?_, ?_, ?_, ?_⟩
    · rw [hs.queued, Finset.sum_eq_zero fun i _ => (hfree i).1]
    · rw [hs.read, Finset.sum_eq_zero fun i _ => (hfree i).2.1]
    · rw [hs.write, Finset.sum_eq_zero fun i _ => (hfree i).2.2.1]
    · rw [hs.marshal, Finset.sum_eq_zero fun i _ => (hfree i).2.2.2]

def Writer.beforeSlot : Writer → List Packet
  | .taken packet | .drop packet | .waiting packet => [packet]
  | _ => []

/-- A writer that stops while it waits for a slot leaves its packet charged until the peer
unregisters. -/
theorem charged_after_stop :
    let s := run System.step (System.start
        (fun _ : Fin 1 => ⟨"tenant", "hash", "session", .client, false, 0⟩) fun _ _ => 0)
      [.run 0 .go, .run 0 .go, .run 0 .go, .run 0 .go, .run 0 (.bytes [1]), .run 0 .slot,
        .run 0 (.bytes [1]), .writer 0 .receive, .writer 0 .go, .close, .stop 0, .writer 0 .done]
    (s.peers 0).registered = true ∧ (s.peers 0).queueBytes = 1 ∧
      bytes (s.peers 0).out + bytes (s.peers 0).writer.beforeSlot = 0 := by
  decide +kernel

end OhecoBroker.WebSocket
