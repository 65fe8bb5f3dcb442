/-
What a socket still writes once its scope is revoked.

* `Peer.Quiet`: once `terminating` is stored, nothing stale is left but what the writer has
  tested;
* `Ran.quiet`, `Wrote.quiet`, `System.step_quiet`: every step leaves nothing stale;
* `no_stale_push_of_untested`: **no stale push follows** when `terminating` is never stored
  between the writer's test of a push and its write;
* `stale_push_written`: a run in which it is, and the push is written.
-/
import OhecoBroker.WebSocket.Steps

namespace OhecoBroker.WebSocket

open Lib

def Owner.closing : Owner → Bool
  | .enqueue (.revoked _) | .marshal (.revoked _) | .overflow (.revoked _)
  | .enqueued (.revoked _) _ | .back (.revoked _) _ => true
  | .waiting | .stopping | .joining | .draining | .drained | .leaving | .ended => true
  | _ => false

def Owner.revokes : Owner → Bool
  | .revoke _ => true
  | _ => false

/-- Tested and not written yet. -/
def Writer.tested : Writer → List Packet
  | .waiting packet | .slotted packet | .ready packet => [packet]
  | _ => []

/-- **Nothing stale is left**: after `terminating` only earlier results and the terminal frame are
written. -/
structure Peer.Quiet (p : Peer) : Prop where
  closing : p.terminating = true → p.owner.closing = true
  queued : p.terminating = true →
    ∀ packet ∈ p.writer.held ++ p.out, packet.result = true → packet ∈ p.backlog
  tested : p.terminating = true →
    ∀ packet ∈ p.writer.tested, packet.result = true ∨ packet.terminal = true
  fresh : p.terminating = false → p.late = []
  late : ∀ packet ∈ p.late,
    packet.terminal = true ∨ (packet.result = true ∧ packet ∈ p.backlog)

section Steps

variable {highest : ℕ} {admitted : Bool} {h : Hub} {p : Peer} {r : Hub × Peer}

lemma Jump.closing {o o' : Owner} (hj : Jump highest admitted p o o') (h : o.closing = true) :
    o'.closing = true := by
  cases hj with
  | @aborted c _ | @tooLarge c | @late c _ => cases c <;> first | rfl | cases h
  | revoked | waited | joined | empty => rfl
  | _ => cases h

variable {q : Peer}

lemma Peer.Quiet.of_owner (hp : p.Quiet) (ht : q.terminating = p.terminating)
    (hw : q.writer = p.writer) (hout : q.out = p.out) (hb : q.backlog = p.backlog)
    (hl : q.late = p.late) (ho : p.owner.closing = true → q.owner.closing = true) : q.Quiet where
  closing h := ho (hp.closing (ht ▸ h))
  queued h := by rw [hw, hout, hb]; exact hp.queued (ht ▸ h)
  tested h := by rw [hw]; exact hp.tested (ht ▸ h)
  fresh h := by rw [hl]; exact hp.fresh (ht ▸ h)
  late := by rw [hl, hb]; exact hp.late

lemma Peer.Quiet.running (hp : p.Quiet) (ho : p.owner.closing = false) : p.terminating = false := by
  by_contra ht
  have := hp.closing (by simpa using ht)
  rw [ho] at this
  cases this

lemma Peer.Quiet.of_running (ht : q.terminating = false) (hl : q.late = []) : q.Quiet where
  closing h := absurd (ht.symm.trans h) (by simp)
  queued h := absurd (ht.symm.trans h) (by simp)
  tested h := absurd (ht.symm.trans h) (by simp)
  fresh _ := hl
  late := by simp [hl]

/-- A closing owner queues no result. -/
lemma result_of_closing {c : Call} {data : List UInt8} (hc : (Owner.marshal c).closing = true) :
    (c.packet data).result = false := by
  cases c with
  | revoked n => rfl
  | _ => cases hc

lemma run_revoke {n : ℕ} {pick : Pick} (ho : p.owner = .revoke n) (hne : pick ≠ .go) :
    p.run highest admitted h pick = (h, p) := by
  unfold Peer.run
  rw [ho]
  cases pick <;> first | rfl | exact absurd rfl hne

lemma Ran.quiet (hr : Ran highest admitted h p r) (hp : p.Quiet)
    (hrevoke : ∀ n, p.owner = .revoke n →
      ∀ packet ∈ p.writer.tested, packet.result = true ∨ packet.terminal = true) : r.2.Quiet := by
  cases hr with
  | stay => exact hp
  | jump hj => exact hp.of_owner rfl rfl rfl rfl rfl hj.closing
  | start ho _ =>
    have ht := hp.running (by rw [ho]; rfl)
    exact .of_running ht (hp.fresh ht)
  | @accepted c data ho _ _ _ _ =>
    refine ⟨fun ht => ?_, fun ht packet hmem hres => ?_, hp.tested, hp.fresh, hp.late⟩
    · have hc := hp.closing ht
      rw [ho] at hc
      cases c <;> first | rfl | cases hc
    have hc := hp.closing ht
    rw [ho] at hc
    rw [← List.append_assoc, List.mem_append] at hmem
    rcases hmem with hmem | hmem
    · exact hp.queued ht packet hmem hres
    · rw [List.mem_singleton.mp hmem, result_of_closing hc] at hres
      cases hres
  | @revoke n ho =>
    have ht := hp.running (by rw [ho]; rfl)
    refine ⟨fun _ => rfl, fun _ packet hmem _ => hmem, fun _ => hrevoke n ho,
      fun _ => hp.fresh ht, ?_⟩
    simp [hp.fresh ht]
  | @marshal c ho | @overflow c ho | @marshalled c ok ho =>
    refine hp.of_owner rfl rfl rfl rfl rfl fun hc => ?_
    rw [ho] at hc
    cases c <;> first | rfl | cases hc
  | stopping | drain | drained | leave => exact hp.of_owner rfl rfl rfl rfl rfl fun _ => rfl
  | snapshot ho | message ho | replied ho | wake ho _ | take ho _ | inputFailed ho | acked ho _
  | ackRefused ho _ =>
    refine hp.of_owner rfl rfl rfl rfl rfl fun hc => ?_
    rw [ho] at hc
    cases hc

lemma Peer.Quiet.of_writer (hp : p.Quiet) (ht : q.terminating = p.terminating)
    (ho : q.owner = p.owner) (hb : q.backlog = p.backlog) (hl : q.late = p.late)
    (hq : ∀ packet ∈ q.writer.held ++ q.out, packet ∈ p.writer.held ++ p.out)
    (hw : ∀ packet ∈ q.writer.tested, packet ∈ p.writer.tested) : q.Quiet where
  closing h := by rw [ho]; exact hp.closing (ht ▸ h)
  queued h packet hmem := by rw [hb]; exact hp.queued (ht ▸ h) packet (hq packet hmem)
  tested h packet hmem := hp.tested (ht ▸ h) packet (hw packet hmem)
  fresh h := by rw [hl]; exact hp.fresh (ht ▸ h)
  late := by rw [hl, hb]; exact hp.late

lemma Wrote.quiet (hr : Wrote h p r) (hp : p.Quiet) : r.2.Quiet := by
  cases hr with
  | stay => exact hp
  | exit hw | giveUp hw _ | wrote hw | ended hw | next hw _ | drop hw | dropped hw _ _ _ | slot hw
  | uncharged hw =>
    refine hp.of_writer rfl rfl rfl rfl ?_ ?_ <;>
      simp +contextual [hw, Writer.held, Writer.tested, Peer.exitWriter, uncharge]
  | receive hw ho =>
    refine hp.of_writer rfl rfl rfl rfl ?_ ?_ <;> simp [hw, ho, Writer.held, Writer.tested]
  | @tested packet hw ht =>
    refine ⟨hp.closing, fun h => ?_, fun h x hx => ?_, hp.fresh, hp.late⟩
    · have := hp.queued h
      rwa [hw] at this
    · rw [List.mem_singleton.mp hx]
      exact ht h
  | @start packet hw =>
    refine ⟨hp.closing, fun h x hx => ?_, fun _ x hx => (by cases hx), fun h => ?_, ?_⟩
    · exact hp.queued h x (List.mem_append_right _ hx)
    · have h : p.terminating = false := h
      simp [Peer.start, h, hp.fresh h]
    intro x hx
    cases ht : p.terminating with
    | false => exact hp.late x (by simpa [Peer.start, ht] using hx)
    | true =>
      have hx : x ∈ p.late ∨ x = packet := by simpa [Peer.start, ht] using hx
      rcases hx with hx | rfl
      · exact hp.late x hx
      -- the packet passed the test, or was queued before `terminating`
      rcases hp.tested ht x (by simp [hw, Writer.tested]) with hres | hterm
      · exact .inr ⟨hres, hp.queued ht x (by simp [hw, Writer.held]) hres⟩
      · exact .inl hterm

lemma Read.quiet (hr : Read h p r) (hp : p.Quiet) : r.2.Quiet := by
  cases hr with
  | stay => exact hp
  | _ => exact hp.of_owner rfl rfl rfl rfl rfl id

end Steps

/-! ### All sockets -/

variable {ι : Type*} [Fintype ι] [DecidableEq ι]

/-- No tested push waits when `terminating` is stored. -/
def untested (s : System ι) : Event ι → Bool
  | .run i .go =>
    !(s.peers i).owner.revokes
      || (s.peers i).writer.tested.all fun packet => packet.result || packet.terminal
  | _ => true

omit [Fintype ι] in
lemma System.forall_put {P : Peer → Prop} {s : System ι} (hs : ∀ i, P (s.peers i)) {i : ι}
    {r : Hub × Peer} (hr : P r.2) (j : ι) : P ((s.put i r).peers j) := by
  by_cases hj : j = i
  · rw [hj, System.put_self]
    exact hr
  · rw [System.put_of_ne s hj]
    exact hs j

lemma Peer.Quiet.woken {p : Peer} (hp : p.Quiet) : p.woken.Quiet := by
  unfold Peer.woken
  split
  · exact hp.of_owner rfl rfl rfl rfl rfl id
  · exact hp

lemma System.step_quiet {s : System ι} (hs : ∀ i, (s.peers i).Quiet) (e : Event ι)
    (he : untested s e = true) (i : ι) : ((s.step e).peers i).Quiet := by
  cases e with
  | run j pick =>
    by_cases hidle : (∃ n, (s.peers j).owner = .revoke n) ∧ pick ≠ .go
    · obtain ⟨⟨n, ho⟩, hne⟩ := hidle
      refine System.forall_put hs ?_ i
      rw [run_revoke ho hne]
      exact hs j
    refine System.forall_put hs ((run_ran _ _ s.hub (s.peers j) pick).quiet (hs j) ?_) i
    intro n ho
    obtain rfl : pick = .go := by
      by_contra hne
      exact hidle ⟨⟨n, ho⟩, hne⟩
    simpa [untested, ho, Owner.revokes] using he
  | reader j pick =>
    exact System.forall_put hs ((readerStep_read s.hub (s.peers j) pick).quiet (hs j)) i
  | writer j pick =>
    exact System.forall_put hs ((writerStep_wrote s.hub (s.peers j) pick).quiet (hs j)) i
  | commit | close => exact hs i
  | notify session =>
    rw [System.step]
    split
    · simp only
      split
      · exact (hs i).woken
      · exact hs i
    · exact hs i
  | wake j => exact System.forall_put hs (hs j).woken i
  | stop j =>
    rw [System.step]
    split
    · exact System.forall_put hs ((hs j).of_owner rfl rfl rfl rfl rfl id) i
    · exact hs i

/-- **No stale push.** If `terminating` is never stored between the writer's test of a push and
its write, only the terminal frame and earlier results are written afterwards. -/
theorem no_stale_push_of_untested (connects : ι → Connect) (stored : String → Side → ℕ)
    (es : List (Event ι))
    (hes : Along System.step (fun s e => untested s e = true) (System.start connects stored) es)
    (i : ι) :
    let p := (run System.step (System.start connects stored) es).peers i
    ∀ packet ∈ p.late, packet.terminal = true ∨ (packet.result = true ∧ packet ∈ p.backlog) := by
  have hquiet : ∀ i, ((run System.step (System.start connects stored) es).peers i).Quiet :=
    along_invariant (I := fun s : System ι => ∀ i, (s.peers i).Quiet)
      (fun _ e hs he i => System.step_quiet hs e he i)
      (fun _ => .of_running rfl rfl) hes
  exact (hquiet i).late

/-- A push that its writer takes after `terminating` is dropped; the terminal frame follows. -/
theorem no_stale_push_of_untested_taken :
    let es : List (Event (Fin 1)) :=
      [.run 0 .go, .run 0 .go, .run 0 .go, .run 0 .go, .run 0 (.bytes [1]), .run 0 .slot,
        .run 0 (.bytes [1]), .run 0 .go, .run 0 .go, .run 0 .go, .run 0 .tick, .run 0 (.fail 401),
        .run 0 .go, .run 0 .slot, .run 0 (.bytes [2]), .writer 0 .receive, .writer 0 .go,
        .writer 0 .go, .writer 0 .receive, .writer 0 .go, .writer 0 .slot, .writer 0 .go,
        .writer 0 .go]
    let p := (run System.step (System.start
      (fun _ : Fin 1 => ⟨"tenant", "hash", "session", .client, false, 0⟩) fun _ _ => 0) es).peers 0
    p.late = [⟨[2], 0, true, false, 1008⟩] ∧
      ∀ packet ∈ p.late, packet.terminal = true ∨ (packet.result = true ∧ packet ∈ p.backlog) :=
  ⟨by decide +kernel, no_stale_push_of_untested _ _ _ (by decide +kernel) 0⟩

/-- A push that was tested before the scope is revoked is written after `terminating` was stored.
-/
theorem stale_push_written :
    let es : List (Event (Fin 1)) :=
      [.run 0 .go, .run 0 .go, .run 0 .go, .run 0 .go, .run 0 (.bytes [1]), .run 0 .slot,
        .run 0 (.bytes [1]), .run 0 .go, .run 0 .go, .run 0 .go, .writer 0 .receive, .writer 0 .go,
        .run 0 .tick, .run 0 (.fail 401), .run 0 .go, .writer 0 .slot, .writer 0 .go,
        .writer 0 .go]
    let p := (run System.step (System.start
      (fun _ : Fin 1 => ⟨"tenant", "hash", "session", .client, false, 0⟩) fun _ _ => 0) es).peers 0
    p.terminating = true ∧ p.late = [⟨[1], 0, false, false, 0⟩] := by
  decide +kernel

end OhecoBroker.WebSocket
