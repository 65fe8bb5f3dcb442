/-
What one step of a socket's goroutines can do.

* `Jump`, `Ran`, `run_ran`: the owner, with the steps that only change where it is;
* `Wrote`, `writerStep_wrote`: the writer;
* `Read`, `readerStep_read`: the reader.
-/
import OhecoBroker.WebSocket.Hub

namespace OhecoBroker.WebSocket

variable {highest : ℕ} {admitted : Bool} {h : Hub} {p : Peer}

def Reader.reads : Reader → ℕ
  | .reading | .parsed _ => 1
  | _ => 0

/-- The owner only moves on. -/
inductive Jump (highest : ℕ) (admitted : Bool) (p : Peer) : Owner → Owner → Prop
  | registering (ha : p.brokerWatch = true ∨ p.after ≤ highest) :
      Jump highest admitted p .connecting .registering
  | unknown : Jump highest admitted p .connecting .refused
  | upgrading (ha : admitted = true) : Jump highest admitted p .registering .upgrading
  | refused (ha : admitted = false) : Jump highest admitted p .registering .refused
  | abandoned : Jump highest admitted p .upgrading .leaving
  | catchupFailed {b n} : Jump highest admitted p (.catchup b) (.revoke n)
  | validated {b} : Jump highest admitted p (.catchup b) (.snapshot b)
  | snapshotFailed {b n} : Jump highest admitted p (.snapshot b) (.revoke n)
  | snapshot {b e} : Jump highest admitted p (.snapshot b) (.enqueue (.snapshot e))
  | unchangedList {b} (hb : p.brokerWatch = true) : Jump highest admitted p (.snapshot b) .idle
  | unchanged {b} (hb : p.brokerWatch = false) : Jump highest admitted p (.snapshot b) .window
  | windowFailed {n} : Jump highest admitted p .window (.revoke n)
  | message (hw : p.queued < p.acked + wsMessageWindow) (hn : p.queued < highest) :
      Jump highest admitted p .window (.enqueue (.message (p.queued + 1)))
  | caughtUp (hw : ¬ (p.queued < p.acked + wsMessageWindow ∧ p.queued < highest)) :
      Jump highest admitted p .window .idle
  | aborted {c} (hd : p.done = true) : Jump highest admitted p (.enqueue c) (.back c false)
  | tooLarge {c} : Jump highest admitted p (.marshal c) (.overflow c)
  | late {c} (hd : p.done = true) : Jump highest admitted p (.marshal c) (.enqueued c false)
  | snapshotLost {e} : Jump highest admitted p (.back (.snapshot e) false) .idle
  | messageLost {n} : Jump highest admitted p (.back (.message n) false) .idle
  | revoked {n ok} : Jump highest admitted p (.back (.revoked n) ok) .waiting
  | stopped (hd : p.done = true) : Jump highest admitted p .idle .stopping
  | tick : Jump highest admitted p .idle .recheck
  | ack {n} : Jump highest admitted p (.input (.ack n)) (.ack n)
  | rpc : Jump highest admitted p (.input .rpc) .rpc
  | result {b} : Jump highest admitted p .rpc (.enqueue (.result b))
  | rechecked : Jump highest admitted p .recheck .idle
  | recheckFailed {n} : Jump highest admitted p .recheck (.revoke n)
  | waited (hd : p.done = true) : Jump highest admitted p .waiting .stopping
  | joined {u} (hr : p.reader = .exited) (hw : p.writer = .exited u) :
      Jump highest admitted p .joining .draining
  | empty (hi : p.inputs = []) : Jump highest admitted p .draining .leaving

/-- **The steps of the owner.** -/
inductive Ran (highest : ℕ) (admitted : Bool) (h : Hub) (p : Peer) : Hub × Peer → Prop
  | stay : Ran highest admitted h p (h, p)
  | jump {o : Owner} (hj : Jump highest admitted p p.owner o) :
      Ran highest admitted h p (h, { p with owner := o })
  | start (ho : p.owner = .upgrading) (hd : p.done = false) :
      Ran highest admitted h p
        (h, { p with owner := .catchup true, reader := .next, writer := .select })
  | snapshot {e} (ho : p.owner = .back (.snapshot e) true) :
      Ran highest admitted h p
        (h, { p with lastSnapshot := e, owner := if p.brokerWatch then .idle else .window })
  | message {n} (ho : p.owner = .back (.message n) true) :
      Ran highest admitted h p (h, { p with queued := n, owner := .window })
  | marshal {c} (ho : p.owner = .enqueue c) :
      Ran highest admitted h p
        ({ h with marshalSlots := h.marshalSlots + 1 }, { p with owner := .marshal c })
  | accepted {c data} (ho : p.owner = .marshal c) (hd : p.done = false)
      (hq : p.queueBytes + (data.length : ℕ) ≤ wsMaxQueueBytes)
      (hh : h.queuedBytes + (data.length : ℕ) ≤ wsMaxGlobalQueueBytes)
      (hlen : p.out.length < wsMaxQueueFrames) :
      Ran highest admitted h p
        ({ h with queuedBytes := h.queuedBytes + (data.length : ℕ) },
          { p with out := p.out ++ [c.packet data], queueBytes := p.queueBytes + (data.length : ℕ),
                   owner := .enqueued c true })
  | overflow {c} (ho : p.owner = .overflow c) :
      Ran highest admitted h p (h, { p with done := true, owner := .enqueued c false })
  | marshalled {c ok} (ho : p.owner = .enqueued c ok) :
      Ran highest admitted h p
        ({ h with marshalSlots := h.marshalSlots - 1 }, { p with owner := .back c ok })
  | replied {b ok} (ho : p.owner = .back (.result b) ok) :
      Ran highest admitted h p
        ({ h with readSlots := h.readSlots - 1 }, { p with owner := if b then .recheck else .idle })
  | wake (ho : p.owner = .idle) (hw : p.wake = true) :
      Ran highest admitted h p (h, { p with wake := false, owner := .catchup false })
  | take {i is} (ho : p.owner = .idle) (hi : p.inputs = i :: is) :
      Ran highest admitted h p (h, { p with inputs := is, owner := .input i })
  | inputFailed {i n} (ho : p.owner = .input i) :
      Ran highest admitted h p
        ({ h with readSlots := h.readSlots - 1 }, { p with owner := .revoke n })
  | acked {n} (ho : p.owner = .ack n) (hs : n ≤ p.sent) :
      Ran highest admitted h p
        ({ h with readSlots := h.readSlots - 1 },
          { p with acked := max p.acked n, owner := .catchup false })
  | ackRefused {n m} (ho : p.owner = .ack n) (hs : p.sent < n) :
      Ran highest admitted h p
        ({ h with readSlots := h.readSlots - 1 }, { p with owner := .revoke m })
  | revoke {n} (ho : p.owner = .revoke n) :
      Ran highest admitted h p
        (h, { p with terminating := true, backlog := p.writer.held ++ p.out,
                     owner := .enqueue (.revoked n) })
  | stopping (ho : p.owner = .stopping) :
      Ran highest admitted h p (h, { p with done := true, owner := .joining })
  | drain {i is} (ho : p.owner = .draining) (hi : p.inputs = i :: is) :
      Ran highest admitted h p (h, { p with inputs := is, owner := .drained })
  | drained (ho : p.owner = .drained) :
      Ran highest admitted h p
        ({ h with readSlots := h.readSlots - 1 }, { p with owner := .draining })
  | leave (ho : p.owner = .leaving) :
      Ran highest admitted h p
        ({ h with queuedBytes := h.queuedBytes - p.queueBytes },
          { p with done := true, queueBytes := 0, owner := .ended })

lemma Call.length_packet (c : Call) (data : List UInt8) :
    (c.packet data).data.length = data.length := by
  cases c <;> rfl

lemma enqueueLocked_ran {c : Call} {data : List UInt8} (ho : p.owner = .marshal c) :
    Ran highest admitted h p (enqueueLocked h p c (c.packet data)) := by
  unfold enqueueLocked
  rw [c.length_packet]
  split
  next hd => exact .jump (ho ▸ .late hd)
  rename_i hd
  split
  next => exact .jump (ho ▸ .tooLarge)
  next hb =>
    rw [not_or, not_lt, not_lt] at hb
    split
    next hlen => exact .accepted ho (by simpa using hd) hb.1 hb.2 hlen
    next => exact .jump (ho ▸ .tooLarge)

lemma returned_ran {c : Call} {ok : Bool} (ho : p.owner = .back c ok) :
    Ran highest admitted h p (returned h p c ok) := by
  cases c with
  | snapshot e =>
    cases ok with
    | true => exact .snapshot ho
    | false => exact .jump (ho ▸ .snapshotLost)
  | message n =>
    cases ok with
    | true => exact .message ho
    | false => exact .jump (ho ▸ .messageLost)
  | result b => exact .replied ho
  | revoked n => exact .jump (ho ▸ .revoked)

/-- The owner makes no other steps. -/
theorem run_ran (highest : ℕ) (admitted : Bool) (h : Hub) (p : Peer) (pick : Pick) :
    Ran highest admitted h p (p.run highest admitted h pick) := by
  unfold Peer.run
  split
  -- websocketConnect
  next ho =>
    split
    next hc => exact .jump (ho ▸ .registering (by simpa using hc))
    next => exact .jump (ho ▸ .unknown)
  next ho =>
    cases admitted with
    | true => exact .jump (ho ▸ .upgrading rfl)
    | false => exact .jump (ho ▸ .refused rfl)
  next ho => exact .jump (ho ▸ .abandoned)
  next ho =>
    split
    next => exact .jump (ho ▸ .abandoned)
    next hd => exact .start ho (by simpa using hd)
  -- catchup
  next ho => exact .jump (ho ▸ .catchupFailed)
  next ho => exact .jump (ho ▸ .validated)
  next ho => exact .jump (ho ▸ .snapshotFailed)
  next ho =>
    split
    next => exact .jump (ho ▸ .snapshot)
    next =>
      by_cases hb : p.brokerWatch = true
      · rw [if_pos hb]
        exact .jump (ho ▸ .unchangedList hb)
      · rw [if_neg hb]
        exact .jump (ho ▸ .unchanged (by simpa using hb))
  next ho =>
    split
    next => exact .jump (ho ▸ .windowFailed)
    next => exact .stay
  next ho =>
    split
    next hw => exact .jump (ho ▸ .message hw.1 hw.2)
    next hw => exact .jump (ho ▸ .caughtUp hw)
  -- enqueue
  next ho =>
    split
    next hd => exact .jump (ho ▸ .aborted hd)
    next => exact .stay
  next ho =>
    split
    next => exact .marshal ho
    next => exact .stay
  next ho => exact .jump (ho ▸ .tooLarge)
  next ho =>
    split
    next => exact .jump (ho ▸ .tooLarge)
    next => exact enqueueLocked_ran ho
  next ho => exact .overflow ho
  next ho => exact .marshalled ho
  next ho => exact returned_ran ho
  -- run
  next ho =>
    split
    next hd => exact .jump (ho ▸ .stopped hd)
    next => exact .stay
  next ho => exact .jump (ho ▸ .tick)
  next ho =>
    split
    next hw => exact .wake ho hw
    next => exact .stay
  next ho =>
    split
    next => exact .stay
    next hi => exact .take ho hi
  next ho => exact .inputFailed ho
  next ho => exact .jump (ho ▸ .ack)
  next ho => exact .jump (ho ▸ .rpc)
  next ho =>
    split
    next => exact .stay
    next =>
      split
      next hs => exact .acked ho hs
      next hs => exact .ackRefused ho (by omega)
  next ho => exact .jump (ho ▸ .result)
  next ho => exact .jump (ho ▸ .rechecked)
  next ho => exact .jump (ho ▸ .recheckFailed)
  -- revoked
  next ho => exact .revoke ho
  next ho =>
    split
    next hd => exact .jump (ho ▸ .waited hd)
    next => exact .stay
  -- websocketConnect, after run
  next ho => exact .stopping ho
  next ho =>
    split
    next hr hw => exact .jump (ho ▸ .joined hr hw)
    next => exact .stay
  next ho =>
    split
    next hi => exact .jump (ho ▸ .empty hi)
    next hi => exact .drain ho hi
  next ho => exact .drained ho
  next ho => exact .leave ho
  next => exact .stay

/-- **The steps of the writer.** -/
inductive Wrote (h : Hub) (p : Peer) : Hub × Peer → Prop
  | stay : Wrote h p (h, p)
  | exit (hw : p.writer = .select) : Wrote h p (h, p.exitWriter none)
  | receive {packet out} (hw : p.writer = .select) (ho : p.out = packet :: out) :
      Wrote h p (h, { p with out := out, writer := .taken packet })
  | dropped {packet} (hw : p.writer = .taken packet) (ht : p.terminating = true)
      (hr : packet.result = false) (hk : packet.terminal = false) :
      Wrote h p (h, { p with writer := .drop packet })
  | tested {packet} (hw : p.writer = .taken packet)
      (ht : p.terminating = true → packet.result = true ∨ packet.terminal = true) :
      Wrote h p (h, { p with writer := .waiting packet })
  | drop {packet} (hw : p.writer = .drop packet) : Wrote h p (uncharge h p packet .select)
  | giveUp {packet} (hw : p.writer = .waiting packet) (hd : p.done = true) :
      Wrote h p (h, p.exitWriter (some packet))
  | slot {packet} (hw : p.writer = .waiting packet) :
      Wrote h p ({ h with writeSlots := h.writeSlots + 1 }, { p with writer := .slotted packet })
  | uncharged {packet} (hw : p.writer = .slotted packet) :
      Wrote h p (uncharge h p packet (.ready packet))
  | start {packet} (hw : p.writer = .ready packet) : Wrote h p (h, p.start packet)
  | wrote {packet ok} (hw : p.writer = .writing packet) :
      Wrote h p (h, { p with
        writer := .wrote packet ok
        sent := if packet.sequence ≠ 0 ∧ ok = true then packet.sequence else p.sent })
  | ended {packet ok} (hw : p.writer = .wrote packet ok) :
      Wrote h p ({ h with writeSlots := h.writeSlots - 1 }, p.exitWriter none)
  | next {packet} (hw : p.writer = .wrote packet true) (hk : packet.terminal = false) :
      Wrote h p ({ h with writeSlots := h.writeSlots - 1 }, { p with writer := .select })

theorem writerStep_wrote (h : Hub) (p : Peer) (pick : WriterPick) :
    Wrote h p (p.writerStep h pick) := by
  unfold Peer.writerStep
  split
  next hw =>
    split
    next => exact .exit hw
    next => exact .stay
  next ok hw =>
    cases ok with
    | true => exact .stay
    | false => exact .exit hw
  next hw =>
    split
    next => exact .stay
    next ho => exact .receive hw ho
  next packet hw =>
    by_cases hc : (p.terminating && !packet.result && !packet.terminal) = true
    · rw [if_pos hc]
      simp only [Bool.and_eq_true, Bool.not_eq_true'] at hc
      exact .dropped hw hc.1.1 hc.1.2 hc.2
    rw [if_neg hc]
    refine .tested hw fun ht => ?_
    simp only [ht, Bool.true_and, Bool.and_eq_true, Bool.not_eq_true', not_and,
      Bool.not_eq_false] at hc
    cases hr : packet.result with
    | true => exact .inl rfl
    | false => exact .inr (hc hr)
  next hw => exact .drop hw
  next hw =>
    split
    next hd => exact .giveUp hw hd
    next => exact .stay
  next hw =>
    split
    next => exact .slot hw
    next => exact .stay
  next hw => exact .uncharged hw
  next hw => exact .start hw
  next hw => exact .wrote hw
  next packet ok hw =>
    split
    next => exact .ended hw
    next hc =>
      simp only [Bool.or_eq_true, Bool.not_eq_true', not_or, Bool.not_eq_false,
        Bool.not_eq_true] at hc
      exact .next (by rw [hw, hc.1]) hc.2
  next => exact .stay

/-- **The steps of the reader.** -/
inductive Read (h : Hub) (p : Peer) : Hub × Peer → Prop
  | stay : Read h p (h, p)
  | exit (hr : p.reader.reads = 0) (hn : p.reader ≠ .off ∧ p.reader ≠ .exited) :
      Read h p (h, p.exitReader)
  | frame (hr : p.reader = .next) : Read h p (h, { p with reader := .slot })
  | slot (hr : p.reader = .slot) :
      Read h p ({ h with readSlots := h.readSlots + 1 }, { p with reader := .reading })
  | parsed {input} (hr : p.reader = .reading) : Read h p (h, { p with reader := .parsed input })
  | queued {input} (hr : p.reader = .parsed input) :
      Read h p (h, { p with inputs := p.inputs ++ [input], reader := .check })
  | failed (hr : p.reader.reads = 1) :
      Read h p ({ h with readSlots := h.readSlots - 1 }, p.exitReader)
  | next (hr : p.reader = .check) : Read h p (h, { p with reader := .next })

theorem readerStep_read (h : Hub) (p : Peer) (pick : ReaderPick) :
    Read h p (p.readerStep h pick) := by
  unfold Peer.readerStep
  split
  next hr => exact .exit (by rw [hr]; rfl) (by rw [hr]; simp)
  next hr => exact .frame hr
  next hr =>
    split
    next => exact .exit (by rw [hr]; rfl) (by rw [hr]; simp)
    next => exact .stay
  next hr =>
    split
    next => exact .slot hr
    next => exact .stay
  next hr => exact .failed (by rw [hr]; rfl)
  next hr => exact .parsed hr
  next hr =>
    split
    next => exact .queued hr
    next =>
      split
      next => exact .stay
      next => exact .failed (by rw [hr]; rfl)
  next hr =>
    split
    next => exact .failed (by rw [hr]; rfl)
    next => exact .stay
  next hr =>
    split
    next => exact .exit (by rw [hr]; rfl) (by rw [hr]; simp)
    next => exact .next hr
  next => exact .stay

end OhecoBroker.WebSocket
