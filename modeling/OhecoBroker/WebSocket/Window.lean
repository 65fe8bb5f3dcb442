/-
The ACK-gated push window of a session socket.

* `Peer.Window`: the sequences that are queued, taken and written, and the cursors `acked`, `sent`
  and `queued`;
* `Peer.Window.accepted`, `Peer.Window.pushed_prefix`: the owner queues a message, the writer
  writes in order;
* `Ran.window`, `Wrote.window`, `Read.window`: **every step keeps the window**.
-/
import OhecoBroker.WebSocket.Budget
import OhecoBroker.WebSocket.Revoked

namespace OhecoBroker.WebSocket

open Lib List

/-- A message is in `out`, `queued` not stored yet. -/
def Owner.storing : Owner → Bool
  | .enqueued (.message _) ok | .back (.message _) ok => ok
  | _ => false

/-- The highest sequence put into `out`. -/
def Peer.top (p : Peer) : ℕ := if p.owner.storing then p.queued + 1 else p.queued

def Owner.message : Owner → Option ℕ
  | .enqueue (.message n) | .marshal (.message n) | .overflow (.message n)
  | .enqueued (.message n) _ | .back (.message n) _ => some n
  | _ => none

/-- The sequences of the messages among packets. -/
def sequences (ps : List Packet) : List ℕ := (ps.map (·.sequence)).filter (· ≠ 0)

@[simp] lemma sequences_nil : sequences [] = [] := rfl

@[simp] lemma sequences_append (ps qs : List Packet) :
    sequences (ps ++ qs) = sequences ps ++ sequences qs := by
  simp [sequences]

lemma sequences_zero {packet : Packet} (h : packet.sequence = 0) : sequences [packet] = [] := by
  simp [sequences, h]

lemma sequences_pos {packet : Packet} (h : packet.sequence ≠ 0) :
    sequences [packet] = [packet.sequence] := by
  simp [sequences, h]

/-- **The window.** -/
structure Peer.Window (p : Peer) : Prop where
  acked : p.after ≤ p.acked ∧ p.acked ≤ p.sent ∧ p.acked ≤ p.queued ∧
    p.queued ≤ p.acked + wsMessageWindow
  message : ∀ n, p.owner.message = some n → n = p.queued + 1 ∧ n ≤ p.acked + wsMessageWindow
  sent : p.sent ≤ p.after + p.pushed.length
  kinds : ∀ packet ∈ p.writer.held ++ p.out,
    packet.result = true ∨ packet.terminal = true → packet.sequence = 0
  dropping : ∀ packet, p.writer = .drop packet →
    p.terminating = true ∧ packet.terminal = false
  running : p.terminating = true → p.owner.closing = true
  /-- While the socket serves, what was started, is held and is queued follows
  the cursor. -/
  chain : p.terminating = false → (∀ u, p.writer ≠ .exited u) →
    p.pushed ++ sequences (p.writer.held ++ p.out) = List.range' (p.after + 1) (p.top - p.after)
  started : p.pushed ++ sequences p.writer.tested
    <+: List.range' (p.after + 1) (p.top - p.after)
  writing : ∀ packet, p.writer = .writing packet → packet.sequence ≠ 0 →
    packet.sequence = p.after + p.pushed.length

section Steps

variable {highest : ℕ} {admitted : Bool} {h : Hub} {p : Peer} {r : Hub × Peer}

lemma Peer.Window.after_le (hp : p.Window) : p.after ≤ p.top := by
  obtain ⟨h1, -, h2, -⟩ := hp.acked
  unfold Peer.top
  split <;> omega

lemma Peer.Window.length_pushed (hp : p.Window) :
    p.after + p.pushed.length + (sequences p.writer.tested).length ≤ p.top := by
  have hlen := hp.started.length_le
  have := hp.after_le
  rw [length_append, length_range'] at hlen
  omega

/-! ### The owner's steps -/

variable {o : Owner} {n : ℕ}

lemma Jump.storing {o' : Owner} (hj : Jump highest admitted p o o') : o'.storing = o.storing := by
  cases hj with
  | @aborted c _ | @tooLarge c | @late c _ => cases c <;> rfl
  | _ => rfl

lemma Jump.of_message {o' : Owner} (hj : Jump highest admitted p o o') (h : o'.message = some n) :
    o.message = some n ∨
      (n = p.queued + 1 ∧ p.queued < p.acked + wsMessageWindow ∧ p.queued < highest) := by
  cases hj with
  | message hw hn => exact .inr ⟨(Option.some.inj h).symm, hw, hn⟩
  | @aborted c _ | @tooLarge c | @late c _ => cases c <;> exact .inl h
  | _ => cases h

/-- A step of the owner that queues nothing. -/
lemma Peer.Window.of_owner {q : Peer} (hp : p.Window)
    (hq : q = { p with owner := o, done := q.done, wake := q.wake, inputs := q.inputs,
                       lastSnapshot := q.lastSnapshot, queueBytes := q.queueBytes,
                       reader := q.reader })
    (hs : o.storing = p.owner.storing)
    (hm : ∀ n, o.message = some n → n = p.queued + 1 ∧ n ≤ p.acked + wsMessageWindow)
    (hc : p.owner.closing = true → o.closing = true) : q.Window := by
  have htop : q.top = p.top := by
    rw [hq, Peer.top, Peer.top]
    simp only [hs]
  obtain ⟨hacked, -, hsent, hkinds, hdrop, hrun, hchain, hstarted, hwriting⟩ := hp
  rw [← htop] at hchain hstarted
  rw [hq] at hchain hstarted ⊢
  exact ⟨hacked, hm, hsent, hkinds, hdrop, fun ht => hc (hrun ht), hchain, hstarted, hwriting⟩

/-- One more number at the end. -/
lemma range'_succ_top {a : ℕ} (h : a ≤ n) :
    List.range' (a + 1) (n + 1 - a) = List.range' (a + 1) (n - a) ++ [n + 1] := by
  rw [Nat.succ_sub h, List.range'_concat]
  congr 2
  omega

lemma Call.sequence_packet {c : Call} (data : List UInt8) (hc : (Owner.marshal c).message = none) :
    (c.packet data).sequence = 0 := by
  cases c with
  | message n => cases hc
  | _ => rfl

lemma Call.kind_packet (c : Call) (data : List UInt8)
    (h : (c.packet data).result = true ∨ (c.packet data).terminal = true) :
    (c.packet data).sequence = 0 := by
  cases c with
  | message n => rcases h with h | h <;> cases h
  | _ => rfl

/-- A packet is put into `out`. -/
lemma Peer.Window.accepted {c : Call} {data : List UInt8} {b : ℤ} (hp : p.Window)
    (ho : p.owner = .marshal c) :
    { p with out := p.out ++ [c.packet data], queueBytes := b,
             owner := .enqueued c true : Peer }.Window := by
  have htop : p.top = p.queued := by rw [Peer.top, ho]; rfl
  have hle := hp.after_le
  refine ⟨hp.acked, fun n hn => ?_, hp.sent, fun packet hmem => ?_, hp.dropping, fun ht => ?_,
    fun ht hw => ?_, ?_, hp.writing⟩
  · refine hp.message n ?_
    rw [ho]
    cases c <;> exact hn
  · rw [← append_assoc, mem_append] at hmem
    rcases hmem with hmem | hmem
    · exact hp.kinds packet hmem
    · rw [mem_singleton.mp hmem]
      exact c.kind_packet data
  · have hc := hp.running ht
    rw [ho] at hc
    cases c <;> first | rfl | cases hc
  · have hchain := hp.chain ht hw
    rw [← append_assoc, sequences_append, ← append_assoc, hchain, htop]
    cases hm : (Owner.marshal c).message with
    | none =>
      have hst : (Owner.enqueued c true).storing = false := by
        cases c <;> first | rfl | cases hm
      rw [sequences_zero (c.sequence_packet data hm), append_nil, Peer.top, hst]
      rfl
    | some n =>
      obtain ⟨e, rfl⟩ : ∃ m, c = .message m := by
        cases c with
        | message m => exact ⟨m, rfl⟩
        | _ => cases hm
      obtain ⟨hn, -⟩ := hp.message e (by rw [ho]; rfl)
      rw [sequences_pos (by simp [Call.packet, hn])]
      simp only [Call.packet, Peer.top, Owner.storing, if_true, hn]
      rw [range'_succ_top (by omega)]
  · refine hp.started.trans ?_
    rw [htop, Peer.top]
    split
    · change List.range' (p.after + 1) (p.queued - p.after)
        <+: List.range' (p.after + 1) (p.queued + 1 - p.after)
      rw [range'_succ_top (by omega)]
      exact prefix_append ..
    · exact prefix_rfl

lemma Ran.window (hr : Ran highest admitted h p r) (hp : p.Window) (hacc : p.Accounts) :
    r.2.Window := by
  cases hr with
  | stay => exact hp
  | jump hj =>
    refine hp.of_owner rfl hj.storing (fun n hn => ?_) hj.closing
    rcases hj.of_message hn with hm | ⟨rfl, hlt, -⟩
    · exact hp.message n hm
    · exact ⟨rfl, hlt⟩
  | start ho _ =>
    obtain ⟨-, hw, -, -⟩ := hacc.early (by rw [ho]; rfl)
    have htop : p.top = p.queued := by rw [Peer.top, ho]; rfl
    have hchain := hp.chain
    have hstarted := hp.started
    rw [htop, hw] at hchain hstarted
    refine ⟨hp.acked, fun n hn => (by cases hn), hp.sent, fun packet hmem => ?_,
      fun packet h => (by cases h), fun ht => ?_, fun ht _ => hchain ht (by simp), hstarted,
      fun packet h => (by cases h)⟩
    · exact hp.kinds packet (by rw [hw]; exact hmem)
    · have hc := hp.running ht
      rw [ho] at hc
      cases hc
  | accepted ho _ _ _ _ => exact hp.accepted ho
  | @message n ho =>
    obtain ⟨rfl, hle⟩ := hp.message n (by rw [ho]; rfl)
    have htop : p.top = p.queued + 1 := by rw [Peer.top, ho]; rfl
    have hacked := hp.acked
    have hchain := hp.chain
    have hstarted := hp.started
    rw [htop] at hchain hstarted
    refine ⟨⟨hacked.1, hacked.2.1, ?_, hle⟩, fun n hn => (by cases hn), hp.sent, hp.kinds,
      hp.dropping, fun ht => ?_, hchain, hstarted, hp.writing⟩
    · simp only
      omega
    · have hc := hp.running ht
      rw [ho] at hc
      cases hc
  | @acked n ho hs =>
    have htop : p.top = p.queued := by rw [Peer.top, ho]; rfl
    have hlen := hp.length_pushed
    have hacked := hp.acked
    have hsent := hp.sent
    have hchain := hp.chain
    have hstarted := hp.started
    rw [htop] at hchain hstarted
    refine ⟨?_, fun n hn => (by cases hn), hp.sent, hp.kinds, hp.dropping, fun ht => ?_, hchain,
      hstarted, hp.writing⟩
    · simp only
      omega
    · have hc := hp.running ht
      rw [ho] at hc
      cases hc
  | revoke ho =>
    have htop : p.top = p.queued := by rw [Peer.top, ho]; rfl
    have hstarted := hp.started
    rw [htop] at hstarted
    exact ⟨hp.acked, fun n hn => (by cases hn), hp.sent, hp.kinds,
      fun packet hw => ⟨rfl, (hp.dropping packet hw).2⟩, fun _ => rfl,
      fun ht => (by cases ht), hstarted, hp.writing⟩
  | @marshal c ho | @overflow c ho | @marshalled c ok ho =>
    refine hp.of_owner (o := _) rfl ?_ (fun n hn => hp.message n ?_) fun hc => ?_
    · rw [ho]
      cases c <;> rfl
    · rw [ho]
      cases c <;> exact hn
    · rw [ho] at hc
      cases c <;> first | rfl | cases hc
  | snapshot ho =>
    refine hp.of_owner (o := _) rfl ?_ (fun n hn => ?_) fun hc => ?_
    · rw [ho]
      cases p.brokerWatch <;> rfl
    · cases hb : p.brokerWatch <;> simp [hb, Owner.message] at hn
    · rw [ho] at hc
      cases hc
  | @replied b ok ho =>
    refine hp.of_owner (o := _) rfl ?_ (fun n hn => ?_) fun hc => ?_
    · rw [ho]
      cases b <;> rfl
    · cases b <;> cases hn
    · rw [ho] at hc
      cases hc
  | wake ho _ | take ho _ | inputFailed ho | ackRefused ho _ =>
    refine hp.of_owner (o := _) rfl (by rw [ho]; rfl) (fun n hn => (by cases hn)) fun hc => ?_
    rw [ho] at hc
    cases hc
  | stopping ho | drain ho _ | drained ho | leave ho =>
    exact hp.of_owner (o := _) rfl (by rw [ho]; rfl) (fun n hn => (by cases hn)) fun _ => rfl

/-! ### The writer's and the reader's steps -/

lemma Peer.Window.of_writer {w : Writer} {q : Peer} (hp : p.Window)
    (hq : q = { p with writer := w, done := q.done, queueBytes := q.queueBytes })
    (hheld : ∀ packet ∈ w.held ++ p.out, packet ∈ p.writer.held ++ p.out)
    (hdrop : ∀ packet, w = .drop packet → p.terminating = true ∧ packet.terminal = false)
    (hchain : p.terminating = false → (∀ u, w ≠ .exited u) →
      p.pushed ++ sequences (w.held ++ p.out) = List.range' (p.after + 1) (p.top - p.after))
    (hstarted : p.pushed ++ sequences w.tested <+: List.range' (p.after + 1) (p.top - p.after))
    (hwriting : ∀ packet, w ≠ .writing packet) : q.Window := by
  have htop : q.top = p.top := by rw [hq]; rfl
  rw [← htop] at hchain hstarted
  rw [hq] at hchain hstarted ⊢
  exact ⟨hp.acked, hp.message, hp.sent, fun packet hm => hp.kinds packet (hheld packet hm), hdrop,
    hp.running, hchain, hstarted, fun packet h => absurd h (hwriting packet)⟩

lemma Peer.Window.pushed_prefix (hp : p.Window) :
    p.pushed <+: List.range' (p.after + 1) (p.top - p.after) :=
  (prefix_append ..).trans hp.started

lemma sequence_of_prefix {a : ℕ} {pushed : List ℕ} {m : ℕ}
    (h : pushed ++ [m] <+: List.range' (a + 1) n) : m = a + (pushed ++ [m]).length := by
  have hlt : pushed.length < n := by
    have := h.length_le
    rw [length_append, length_range', length_singleton] at this
    omega
  have hget := prefix_iff_getElem?.mp h pushed.length (by simp)
  rw [List.getElem?_range' hlt] at hget
  simp at hget
  simp only [length_append, length_singleton]
  omega

/-- Every step of the writer keeps it. -/
lemma Wrote.window (hr : Wrote h p r) (hp : p.Window) : r.2.Window := by
  cases hr with
  | stay => exact hp
  | exit hw | giveUp hw _ | ended hw =>
    refine hp.of_writer (w := _) rfl ?_ (by simp) (fun _ h => absurd rfl (h _)) ?_ (by simp)
    · simp +contextual [Writer.held]
    · simpa [Writer.tested] using hp.pushed_prefix
  | @receive packet out hw ho =>
    have hchain := hp.chain
    have hkinds := hp.kinds
    rw [hw, ho] at hchain hkinds
    have hstarted := hp.started
    rw [hw] at hstarted
    exact ⟨hp.acked, hp.message, hp.sent, hkinds, by simp, hp.running,
      fun ht _ => hchain ht (by simp), hstarted, by simp⟩
  | @dropped packet hw ht _ hk =>
    refine hp.of_writer (w := .drop packet) rfl (by simp [hw, Writer.held])
      (fun x hx => ⟨ht, Writer.drop.inj hx ▸ hk⟩)
      (fun h => absurd (ht.symm.trans h) (by simp)) ?_ (by simp)
    simpa [Writer.tested] using hp.pushed_prefix
  | @tested packet hw htest =>
    have hchain := hp.chain
    rw [hw] at hchain
    refine hp.of_writer (w := _) rfl (by simp [hw, Writer.held]) (by simp)
      (fun ht _ => hchain ht (by simp)) ?_ (by simp)
    cases ht : p.terminating with
    | false =>
      rw [← hchain ht (by simp), sequences_append, ← append_assoc]
      exact prefix_append ..
    | true =>
      have hz := hp.kinds packet (by simp [hw, Writer.held]) (htest ht)
      simpa [Writer.tested, sequences_zero hz] using hp.pushed_prefix
  | @drop packet hw =>
    have ht := (hp.dropping packet hw).1
    refine hp.of_writer (w := _) rfl (by simp +contextual [Writer.held]) (by simp)
      (fun h => absurd (ht.symm.trans h) (by simp)) ?_ (by simp)
    simpa [Writer.tested] using hp.pushed_prefix
  | slot hw | uncharged hw =>
    have hchain := hp.chain
    have hstarted := hp.started
    rw [hw] at hchain hstarted
    exact hp.of_writer (w := _) rfl (by simp [hw, Writer.held]) (by simp)
      (fun ht _ => hchain ht (by simp)) hstarted (by simp)
  | @start packet hw =>
    have hpush : (p.start packet).pushed = p.pushed ++ sequences [packet] := by
      by_cases hz : packet.sequence = 0
      · simp [Peer.start, hz, sequences_zero hz]
      · simp [Peer.start, hz, sequences_pos hz]
    have hchain := hp.chain
    have hstarted := hp.started
    have hkinds := hp.kinds
    rw [hw] at hchain hstarted hkinds
    refine ⟨hp.acked, hp.message, ?_, fun x hx => hkinds x (mem_cons_of_mem _ hx),
      fun x hx => (by cases hx), hp.running, fun ht _ => ?_, ?_, fun x hx hz => ?_⟩
    · calc p.sent ≤ p.after + p.pushed.length := hp.sent
        _ ≤ p.after + (p.start packet).pushed.length := by
            rw [hpush, length_append]
            omega
    · change (p.start packet).pushed ++ sequences p.out = List.range' (p.after + 1) _
      rw [hpush, append_assoc, ← sequences_append]
      exact hchain ht (by simp)
    · change (p.start packet).pushed ++ sequences [] <+: List.range' (p.after + 1) _
      rw [hpush, sequences_nil, append_nil]
      exact hstarted
    · obtain rfl : packet = x := by simpa [Peer.start] using hx
      rw [hpush, sequences_pos hz]
      rw [Writer.tested, sequences_pos hz] at hstarted
      exact sequence_of_prefix hstarted
  | @wrote packet ok hw =>
    have hchain := hp.chain
    have hstarted := hp.started
    have hkinds := hp.kinds
    have hacked := hp.acked
    have hsent := hp.sent
    have hwriting := hp.writing packet hw
    rw [hw] at hchain hstarted hkinds
    have hcursor : p.sent ≤ (if packet.sequence ≠ 0 ∧ ok = true then packet.sequence else p.sent)
        ∧ (if packet.sequence ≠ 0 ∧ ok = true then packet.sequence else p.sent)
          ≤ p.after + p.pushed.length := by
      split
      next hc =>
        have := hwriting hc.1
        omega
      next => exact ⟨le_rfl, hsent⟩
    exact ⟨⟨hacked.1, hacked.2.1.trans hcursor.1, hacked.2.2⟩, hp.message, hcursor.2, hkinds,
      fun x hx => (by cases hx), hp.running, fun ht _ => hchain ht (by simp), hstarted,
      fun x hx => (by cases hx)⟩
  | @next packet hw hk =>
    have hchain := hp.chain
    rw [hw] at hchain
    refine hp.of_writer (w := _) rfl (by simp [hw, Writer.held]) (by simp)
      (fun ht _ => hchain ht (by simp)) ?_ (by simp)
    simpa [Writer.tested] using hp.pushed_prefix

/-- Every step of the reader keeps it. -/
lemma Read.window (hr : Read h p r) (hp : p.Window) : r.2.Window := by
  cases hr with
  | stay => exact hp
  | _ => exact hp.of_owner (o := p.owner) rfl rfl hp.message id

end Steps

end OhecoBroker.WebSocket
