/-
The push window over whole runs.

* `Peer.Fresh`, `Ran.fresh`, `Wrote.fresh`: no wake-up is missed;
* `Peer.Ends`, `Ran.ends`, `Wrote.ends`: a revoked socket ends;
* `System.Pushes`, `System.Pushes.step`: what holds of every socket in every state;
* `run_ack_refused`: a refused ACK ends the socket;
* `push_window`: **the window is ordered, bounded and misses no wake-up** in every run;
* `sent_ahead_of_queued`: a run in which `sent` is stored before `queued`.
-/
import OhecoBroker.WebSocket.Window

namespace OhecoBroker.WebSocket

open Lib List

/-- The owner has looked at the stored messages. -/
def Owner.settled : Owner → Bool
  | .idle | .input _ | .ack _ | .rpc | .recheck => true
  | .enqueue (.result _) | .marshal (.result _) | .overflow (.result _)
  | .enqueued (.result _) _ | .back (.result _) _ => true
  | _ => false

/-- The cursor has been compared. -/
def Owner.known : Owner → Bool
  | .connecting | .refused => false
  | _ => true

/-- **No wake-up is missed.** -/
structure Peer.Fresh (highest : ℕ) (notify : Prop) (p : Peer) : Prop where
  first : p.owner = .connecting → p.queued = p.after
  lost : ∀ c, p.owner = .enqueued c false ∨ p.owner = .back c false → p.done = true
  bound : p.brokerWatch = false → p.owner.known = true → p.queued ≤ highest
  message : ∀ n, p.owner.message = some n → n ≤ highest
  behind : p.brokerWatch = false → p.done = false → p.owner.settled = true →
    p.queued < p.acked + wsMessageWindow → p.queued < highest → p.wake = true ∨ notify

def Writer.carries : Writer → List Packet
  | .writing packet | .wrote packet _ => [packet]
  | w => w.held

def Owner.announced : Owner → Bool
  | .enqueued (.revoked _) ok | .back (.revoked _) ok => ok
  | .waiting => true
  | _ => false

/-- **A revoked socket ends.** -/
def Peer.Ends (p : Peer) : Prop :=
  p.owner.announced = true →
    p.done = true ∨ ∃ packet ∈ p.writer.carries ++ p.out, packet.terminal = true

section Steps

variable {highest : ℕ} {admitted : Bool} {notify : Prop} {h : Hub} {p : Peer} {r : Hub × Peer}

lemma Peer.Fresh.mono {highest' : ℕ} {notify' : Prop} (hp : p.Fresh highest notify)
    (hh : highest ≤ highest') (hn : notify → notify') (hb : highest < highest' → notify') :
    p.Fresh highest' notify' where
  __ := hp
  bound hw ho := (hp.bound hw ho).trans hh
  message n hm := (hp.message n hm).trans hh
  behind hw hd hs h1 h2 := by
    by_cases hlt : highest < highest'
    · exact .inr (hb hlt)
    · exact (hp.behind hw hd hs h1 (by omega)).imp_right hn

/-! ### The owner's steps -/

variable {o o' : Owner}

lemma Jump.of_lost {c : Call} (hj : Jump highest admitted p o o')
    (h : o' = .enqueued c false ∨ o' = .back c false) : p.done = true := by
  cases hj with
  | aborted hd | late hd => exact hd
  | _ => simp at h

lemma Jump.of_known (hj : Jump highest admitted p o o') (h : o'.known = true) :
    o.known = true ∨ (o = .connecting ∧ (p.brokerWatch = true ∨ p.after ≤ highest)) := by
  cases hj with
  | registering ha => exact .inr ⟨rfl, ha⟩
  | unknown | refused => cases h
  | _ => exact .inl rfl

lemma Jump.of_settled (hj : Jump highest admitted p o o') (h : o'.settled = true) :
    o.settled = true ∨ (∃ c, o = .back c false) ∨ p.brokerWatch = true ∨
      ¬ (p.queued < p.acked + wsMessageWindow ∧ p.queued < highest) := by
  cases hj with
  | unchangedList hb => exact .inr (.inr (.inl hb))
  | caughtUp hw => exact .inr (.inr (.inr hw))
  | snapshotLost | messageLost => exact .inr (.inl ⟨_, rfl⟩)
  | @aborted c _ | @tooLarge c | @late c _ => cases c <;> first | exact .inl rfl | cases h
  | tick | ack | rpc | result | rechecked => exact .inl rfl
  | _ => cases h

lemma Jump.ne_connecting (hj : Jump highest admitted p o o') : o' ≠ .connecting := by
  cases hj <;> simp

/-- A jump misses no wake-up. -/
lemma Jump.fresh (hj : Jump highest admitted p p.owner o)
    (hp : p.Fresh highest notify) : { p with owner := o : Peer }.Fresh highest notify where
  first h := absurd h hj.ne_connecting
  lost _ h := hj.of_lost h
  bound hb h := by
    rcases hj.of_known h with hk | ⟨hc, ha | ha⟩
    · exact hp.bound hb hk
    · rw [hb] at ha
      cases ha
    · exact (hp.first hc).trans_le ha
  message n h := by
    rcases hj.of_message h with hm | ⟨rfl, -, hlt⟩
    · exact hp.message n hm
    · exact hlt
  behind hb hd h h1 h2 := by
    rcases hj.of_settled h with hs | ⟨c, ho⟩ | hw | hw
    · exact hp.behind hb hd hs h1 h2
    · have : p.done = true := hp.lost c (.inr ho)
      exact absurd (this.symm.trans hd) (by simp)
    · exact absurd (hw.symm.trans hb) (by simp)
    · exact absurd ⟨h1, h2⟩ hw

/-- A step of the owner that queues no message. -/
lemma Peer.Fresh.of_owner {q : Peer} (hp : p.Fresh highest notify)
    (hq : q.queued = p.queued ∧ q.brokerWatch = p.brokerWatch)
    (ho : p.owner.known = true) (hc : q.owner ≠ .connecting)
    (hl : ∀ c, q.owner = .enqueued c false ∨ q.owner = .back c false → q.done = true)
    (hm : ∀ n, q.owner.message = some n → p.owner.message = some n)
    (hs : q.brokerWatch = false → q.done = false → q.owner.settled = true →
      p.owner.settled = true ∧ q.acked = p.acked ∧ q.wake = p.wake ∧ p.done = false) :
    q.Fresh highest notify where
  first h := absurd h hc
  lost := hl
  bound hb _ := by
    rw [hq.1]
    exact hp.bound (hq.2 ▸ hb) ho
  message n h := hp.message n (hm n h)
  behind hb hd h h1 h2 := by
    obtain ⟨hset, hacked, hwake, hdone⟩ := hs hb hd h
    rw [hq.1] at h1 h2
    rw [hacked] at h1
    rw [hwake]
    exact hp.behind (hq.2 ▸ hb) hdone hset h1 h2

/-- No step of the owner misses one. -/
lemma Ran.fresh (hr : Ran highest admitted h p r) (hp : p.Fresh highest notify)
    (hwin : p.Window) : r.2.Fresh highest notify := by
  cases hr with
  | stay => exact hp
  | jump hj => exact hj.fresh hp
  | @message n ho =>
    obtain ⟨rfl, -⟩ := hwin.message n (by rw [ho]; rfl)
    have hn := hp.message _ (by rw [ho]; rfl)
    exact ⟨fun h => (by cases h), fun c h => by simp at h, fun _ _ => hn, fun n h => (by cases h),
      fun _ _ h => (by cases h)⟩
  | start ho _ =>
    refine hp.of_owner ⟨rfl, rfl⟩ (by rw [ho]; rfl) (by simp) (by simp) (fun n h => (by cases h))
      fun _ _ h => (by cases h)
  | snapshot ho =>
    refine hp.of_owner ⟨rfl, rfl⟩ (by rw [ho]; rfl) ?_ ?_ ?_ fun hb _ h => ?_
    · cases p.brokerWatch <;> simp
    · cases p.brokerWatch <;> simp
    · intro n h
      cases hb : p.brokerWatch <;> simp [hb, Owner.message] at h
    · have hb : p.brokerWatch = false := hb
      simp [hb, Owner.settled] at h
  | @marshal c ho =>
    refine hp.of_owner ⟨rfl, rfl⟩ (by rw [ho]; rfl) (by simp) (by simp) (fun n h => ?_)
      fun _ hd h => ?_
    · rw [ho]
      cases c <;> exact h
    · refine ⟨?_, rfl, rfl, hd⟩
      rw [ho]
      cases c <;> first | rfl | cases h
  | @marshalled c ok ho =>
    refine hp.of_owner ⟨rfl, rfl⟩ (by rw [ho]; rfl) (by simp) (fun c' h => ?_) (fun n h => ?_)
      fun _ hd h => ?_
    · obtain ⟨-, rfl⟩ : c = c' ∧ ok = false := by simpa using h
      exact hp.lost c (.inl ho)
    · rw [ho]
      cases c <;> exact h
    · refine ⟨?_, rfl, rfl, hd⟩
      rw [ho]
      cases c <;> first | rfl | cases h
  | @overflow c ho =>
    refine hp.of_owner ⟨rfl, rfl⟩ (by rw [ho]; rfl) (by simp) (fun _ _ => rfl) (fun n h => ?_)
      fun _ hd => (by cases hd)
    rw [ho]
    cases c <;> exact h
  | @accepted c data ho _ _ _ _ =>
    refine hp.of_owner ⟨rfl, rfl⟩ (by rw [ho]; rfl) (by simp) (by simp) (fun n h => ?_)
      fun _ hd h => ?_
    · rw [ho]
      cases c <;> exact h
    · refine ⟨?_, rfl, rfl, hd⟩
      rw [ho]
      cases c <;> first | rfl | cases h
  | @replied b ok ho =>
    refine hp.of_owner ⟨rfl, rfl⟩ (by rw [ho]; rfl) ?_ ?_ ?_
      fun _ hd _ => ⟨by rw [ho]; rfl, rfl, rfl, hd⟩
    · cases b <;> simp
    · cases b <;> simp
    · intro n h
      cases b <;> cases h
  | take ho _ =>
    exact hp.of_owner ⟨rfl, rfl⟩ (by rw [ho]; rfl) (by simp) (by simp) (fun n h => (by cases h))
      fun _ hd _ => ⟨by rw [ho]; rfl, rfl, rfl, hd⟩
  | wake ho _ | acked ho _ | inputFailed ho | ackRefused ho _ | revoke ho | stopping ho
  | drain ho _ | drained ho | leave ho =>
    exact hp.of_owner ⟨rfl, rfl⟩ (by rw [ho]; rfl) (by simp) (by simp) (fun n h => (by cases h))
      fun _ _ h => (by cases h)

lemma Peer.Fresh.congr {q : Peer} (hp : p.Fresh highest notify) (ho : q.owner = p.owner)
    (hq : q.queued = p.queued ∧ q.acked = p.acked ∧ q.after = p.after ∧
      q.brokerWatch = p.brokerWatch)
    (hd : p.done = true → q.done = true) (hw : p.wake = true → q.wake = true) :
    q.Fresh highest notify where
  first h := by
    rw [hq.1, hq.2.2.1]
    exact hp.first (ho ▸ h)
  lost c h := hd (hp.lost c (ho ▸ h))
  bound hb h := by
    rw [hq.1]
    exact hp.bound (hq.2.2.2 ▸ hb) (ho ▸ h)
  message n h := hp.message n (ho ▸ h)
  behind hb hnd h h1 h2 := by
    rw [hq.1] at h1 h2
    rw [hq.2.1] at h1
    have hnd' : p.done = false := by
      by_contra hdone
      exact absurd ((hd (by simpa using hdone)).symm.trans hnd) (by simp)
    exact (hp.behind (hq.2.2.2 ▸ hb) hnd' (ho ▸ h) h1 h2).imp_left hw

lemma Wrote.fresh (hr : Wrote h p r) (hp : p.Fresh highest notify) : r.2.Fresh highest notify := by
  cases hr with
  | stay => exact hp
  | exit | giveUp | ended => exact hp.congr rfl ⟨rfl, rfl, rfl, rfl⟩ (fun _ => rfl) id
  | _ => exact hp.congr rfl ⟨rfl, rfl, rfl, rfl⟩ id id

lemma Read.fresh (hr : Read h p r) (hp : p.Fresh highest notify) : r.2.Fresh highest notify := by
  cases hr with
  | stay => exact hp
  | exit | failed => exact hp.congr rfl ⟨rfl, rfl, rfl, rfl⟩ (fun _ => rfl) id
  | _ => exact hp.congr rfl ⟨rfl, rfl, rfl, rfl⟩ id id

/-! ### The end of a revoked socket -/

lemma Jump.of_announced (hj : Jump highest admitted p o o')
    (h : o'.announced = true) : o.announced = true ∨ ∃ c, o = .back c false := by
  cases hj with
  | @revoked n ok =>
    cases ok with
    | true => exact .inl rfl
    | false => exact .inr ⟨_, rfl⟩
  | @aborted c _ | @tooLarge c | @late c _ => cases c <;> cases h
  | _ => cases h

lemma Ran.ends (hr : Ran highest admitted h p r) (hp : p.Ends) (hf : p.Fresh highest notify) :
    r.2.Ends := by
  cases hr with
  | stay => exact hp
  | jump hj =>
    intro h
    rcases hj.of_announced h with ha | ⟨c, ho⟩
    · exact hp ha
    · exact .inl (hf.lost c (.inr ho))
  | @accepted c data ho _ _ _ _ =>
    intro h
    cases c with
    | revoked n => exact .inr ⟨_, by simp; exact .inr (.inr rfl), rfl⟩
    | _ => cases h
  | @marshalled c ok ho =>
    intro h
    refine hp ?_
    rw [ho]
    cases c <;> exact h
  | overflow => exact fun _ => .inl rfl
  | snapshot =>
    intro h
    cases hb : p.brokerWatch <;> simp [hb, Owner.announced] at h
  | @replied b =>
    intro h
    cases b <;> cases h
  | _ => exact fun h => (by cases h)

lemma Wrote.ends (hr : Wrote h p r) (hp : p.Ends) (hwin : p.Window) : r.2.Ends := by
  cases hr with
  | stay => exact hp
  | exit | giveUp | ended => exact fun _ => .inl rfl
  | receive hw ho =>
    intro h
    have := hp h
    rwa [hw, ho] at this
  | dropped hw | tested hw _ | slot hw | uncharged hw | start hw | wrote hw =>
    intro h
    have := hp h
    rwa [hw] at this
  | @drop packet hw =>
    intro h
    obtain hd | ⟨x, hx, hterm⟩ := hp h
    · exact .inl hd
    have hk := (hwin.dropping packet hw).2
    rw [hw] at hx
    refine .inr ⟨x, ?_, hterm⟩
    rcases mem_cons.mp hx with rfl | hx
    · exact absurd (hterm.symm.trans hk) (by simp)
    · exact hx
  | @next packet hw hk =>
    intro h
    obtain hd | ⟨x, hx, hterm⟩ := hp h
    · exact .inl hd
    rw [hw] at hx
    refine .inr ⟨x, ?_, hterm⟩
    rcases mem_cons.mp hx with rfl | hx
    · exact absurd (hterm.symm.trans hk) (by simp)
    · exact hx

lemma Read.ends (hr : Read h p r) (hp : p.Ends) : r.2.Ends := by
  cases hr with
  | stay => exact hp
  | exit | failed => exact fun _ => .inl rfl
  | _ => exact hp

end Steps

/-! ### Whole runs -/

variable {ι : Type*} [Fintype ι] [DecidableEq ι]

def System.highest (s : System ι) (i : ι) : ℕ :=
  s.stored (s.peers i).target (oppositeSide (s.peers i).side)

structure Peer.SameScope (p q : Peer) : Prop where
  target : q.target = p.target
  side : q.side = p.side
  after : q.after = p.after

variable {admitted : Bool} {h : Hub} {p : Peer} {r : Hub × Peer}

lemma Ran.sameScope {highest : ℕ} (hr : Ran highest admitted h p r) : p.SameScope r.2 := by
  cases hr <;> exact ⟨rfl, rfl, rfl⟩

lemma Wrote.sameScope (hr : Wrote h p r) : p.SameScope r.2 := by
  cases hr <;> exact ⟨rfl, rfl, rfl⟩

lemma Read.sameScope (hr : Read h p r) : p.SameScope r.2 := by
  cases hr <;> exact ⟨rfl, rfl, rfl⟩

/-- **What holds of every socket.** -/
structure System.Pushes (connects : ι → Connect) (s : System ι) : Prop where
  cursor : ∀ i, (s.peers i).after = (connects i).after
  accounts : ∀ i, (s.peers i).Accounts
  window : ∀ i, (s.peers i).Window
  fresh : ∀ i, (s.peers i).Fresh (s.highest i) ((s.peers i).target ∈ s.pending)
  ends : ∀ i, (s.peers i).Ends

variable {connects : ι → Connect}

omit [Fintype ι] in
lemma System.Pushes.put {s : System ι} (hs : s.Pushes connects) {i : ι}
    (hscope : (s.peers i).SameScope r.2) (ha : r.2.Accounts) (hw : r.2.Window)
    (hf : r.2.Fresh (s.highest i) ((s.peers i).target ∈ s.pending)) (he : r.2.Ends) :
    (s.put i r).Pushes connects where
  cursor j := by
    by_cases hj : j = i
    · rw [hj, System.put_self, hscope.after, hs.cursor]
    · rw [System.put_of_ne s hj, hs.cursor]
  accounts := System.forall_put hs.accounts ha
  window := System.forall_put hs.window hw
  fresh j := by
    by_cases hj : j = i
    · subst hj
      rw [System.highest, System.put_self, hscope.target, hscope.side]
      exact hf
    · rw [System.highest, System.put_of_ne s hj]
      exact hs.fresh j
  ends := System.forall_put hs.ends he

lemma Peer.Fresh.woken {highest : ℕ} {notify notify' : Prop}
    (hp : p.Fresh highest notify) : p.woken.Fresh highest notify' := by
  unfold Peer.woken
  split
  · exact ⟨hp.first, hp.lost, hp.bound, hp.message, fun _ _ _ _ _ => .inl rfl⟩
  next hreg =>
    refine ⟨hp.first, hp.lost, hp.bound, hp.message, fun _ _ hset => ?_⟩
    -- a socket that serves is registered
    unfold Peer.registered at hreg
    cases ho : p.owner <;> simp_all [Owner.settled]

lemma Peer.woken_cases (p : Peer) : p.woken = p ∨ p.woken = { p with wake := true } := by
  unfold Peer.woken
  split
  · exact .inr rfl
  · exact .inl rfl

lemma Peer.Window.woken (hp : p.Window) : p.woken.Window := by
  rcases p.woken_cases with h | h <;> rw [h]
  · exact hp
  · exact hp.of_owner (o := p.owner) rfl rfl hp.message id

lemma Peer.Ends.woken (hp : p.Ends) : p.woken.Ends := by
  rcases p.woken_cases with h | h <;> rw [h] <;> exact hp

lemma Peer.sameScope_woken (p : Peer) : p.SameScope p.woken := by
  rcases p.woken_cases with h | h <;> rw [h] <;> exact ⟨rfl, rfl, rfl⟩

def Peer.notified (session : String) (p : Peer) : Peer :=
  if !p.brokerWatch && p.target = session then p.woken else p

/-- A notify wakes the sockets of its session. -/
lemma Peer.notified_cases (session : String) (p : Peer) :
    p.notified session = p.woken ∨
      (p.notified session = p ∧ (p.brokerWatch = true ∨ p.target ≠ session)) := by
  unfold Peer.notified
  split
  · exact .inl rfl
  next h =>
    refine .inr ⟨rfl, ?_⟩
    cases hb : p.brokerWatch with
    | true => exact .inl rfl
    | false => exact .inr (by simpa [hb] using h)

/-- A notify settles what was to come. -/
lemma System.Pushes.notify {s : System ι} (hs : s.Pushes connects) (session : String) :
    (s.step (.notify session)).Pushes connects := by
  rw [System.step]
  split
  swap
  · exact hs
  have hpeer : ∀ i, (s.peers i).notified session = (s.peers i).woken ∨
      (s.peers i).notified session = s.peers i := fun i =>
    ((s.peers i).notified_cases session).imp_right And.left
  have hscope : ∀ i, (s.peers i).SameScope ((s.peers i).notified session) := fun i => by
    rcases hpeer i with h | h <;> rw [h]
    · exact (s.peers i).sameScope_woken
    · exact ⟨rfl, rfl, rfl⟩
  refine ⟨fun i => (hscope i).after.trans (hs.cursor i), fun i => ?_, fun i => ?_, fun i => ?_,
    fun i => ?_⟩
  · change ((s.peers i).notified session).Accounts
    rcases hpeer i with h | h <;> rw [h]
    · exact (hs.accounts i).congr (s.peers i).sameShare_woken
    · exact hs.accounts i
  · change ((s.peers i).notified session).Window
    rcases hpeer i with h | h <;> rw [h]
    · exact (hs.window i).woken
    · exact hs.window i
  · change ((s.peers i).notified session).Fresh
      (s.stored ((s.peers i).notified session).target
        (oppositeSide ((s.peers i).notified session).side))
      (((s.peers i).notified session).target ∈ s.pending.erase session)
    rw [(hscope i).target, (hscope i).side]
    rcases (s.peers i).notified_cases session with h | ⟨h, hno⟩ <;> rw [h]
    · exact (hs.fresh i).woken
    · -- the notify was for another session, or the socket watches a broker
      have hf := hs.fresh i
      refine ⟨hf.first, hf.lost, hf.bound, hf.message, fun hb hd hset h1 h2 => ?_⟩
      refine (hf.behind hb hd hset h1 h2).imp_right fun hmem => ?_
      rcases hno with hbw | hne
      · exact absurd (hbw.symm.trans hb) (by simp)
      · exact (mem_erase_of_ne hne).mpr hmem
  · change ((s.peers i).notified session).Ends
    rcases hpeer i with h | h <;> rw [h]
    · exact (hs.ends i).woken
    · exact hs.ends i

lemma System.Pushes.step {s : System ι} (hs : s.Pushes connects) (e : Event ι) :
    (s.step e).Pushes connects := by
  cases e with
  | run i pick =>
    have hr := run_ran (s.highest i) (s.admits i) s.hub (s.peers i) pick
    exact hs.put hr.sameScope (hr.accounts (hs.accounts i))
      (hr.window (hs.window i) (hs.accounts i))
      (hr.fresh (hs.fresh i) (hs.window i)) (hr.ends (hs.ends i) (hs.fresh i))
  | reader i pick =>
    have hr := readerStep_read s.hub (s.peers i) pick
    exact hs.put hr.sameScope (hr.accounts (hs.accounts i)) (hr.window (hs.window i))
      (hr.fresh (hs.fresh i)) (hr.ends (hs.ends i))
  | writer i pick =>
    have hr := writerStep_wrote s.hub (s.peers i) pick
    exact hs.put hr.sameScope (hr.accounts (hs.accounts i)) (hr.window (hs.window i))
      (hr.fresh (hs.fresh i)) (hr.ends (hs.ends i) (hs.window i))
  | commit session side =>
    refine ⟨hs.cursor, hs.accounts, hs.window, fun i => ?_, hs.ends⟩
    refine (hs.fresh i).mono ?_ (mem_cons_of_mem _) fun hlt => ?_
    · simp only [System.highest, System.step]
      split <;> omega
    simp only [System.highest, System.step] at hlt ⊢
    split at hlt
    next h => rw [h.1]; exact mem_cons_self ..
    next => omega
  | notify session => exact hs.notify session
  | wake i =>
    exact hs.put (s.peers i).sameScope_woken
      ((hs.accounts i).congr (s.peers i).sameShare_woken) (hs.window i).woken
      (hs.fresh i).woken (hs.ends i).woken
  | close => exact ⟨hs.cursor, hs.accounts, hs.window, hs.fresh, hs.ends⟩
  | stop i =>
    rw [System.step]
    split
    · exact hs.put ⟨rfl, rfl, rfl⟩ ((hs.accounts i).congr ⟨rfl, rfl, rfl, rfl, rfl, rfl⟩)
        ((hs.window i).of_owner (o := (s.peers i).owner) rfl rfl (hs.window i).message id)
        ((hs.fresh i).congr rfl ⟨rfl, rfl, rfl, rfl⟩ (fun _ => rfl) id) (fun _ => .inl rfl)
    · exact hs

omit [Fintype ι] [DecidableEq ι] in
lemma System.pushes_start (connects : ι → Connect) (stored : String → Side → ℕ) :
    (System.start connects stored).Pushes connects where
  cursor _ := rfl
  accounts i := ⟨fun _ => rfl, fun _ => rfl, by simp [System.start, Connect.peer],
    fun _ => ⟨rfl, rfl, rfl, rfl⟩, fun h => (by cases h), fun _ => rfl⟩
  window i := by
    have htop : (connects i).peer.top - (connects i).peer.after = 0 := Nat.sub_self _
    refine ⟨⟨le_rfl, le_rfl, le_rfl, Nat.le_add_right ..⟩, fun n h => (by cases h), le_rfl,
      fun packet h => (by cases h), fun packet h => (by cases h), fun h => (by cases h),
      fun _ _ => ?_, nil_prefix, fun packet h => (by cases h)⟩
    change [] = List.range' _ ((connects i).peer.top - (connects i).peer.after)
    rw [htop]
    rfl
  fresh i := ⟨fun _ => rfl, fun c h => by simp [System.start, Connect.peer] at h,
    fun _ h => (by cases h), fun n h => (by cases h), fun _ _ h => (by cases h)⟩
  ends i := fun h => (by cases h)

theorem System.pushes_run (connects : ι → Connect) (stored : String → Side → ℕ)
    (es : List (Event ι)) : (run System.step (System.start connects stored) es).Pushes connects :=
  run_invariant (fun _ e h => h.step e) es (System.pushes_start connects stored)

/-! ### A refused ACK -/

def Owner.ending (o : Owner) : Bool := o.revokes || o.closing

lemma Owner.ending_of_closing {o : Owner} (h : o.closing = true) : o.ending = true := by
  rw [Owner.ending, h, Bool.or_true]

/-- A socket that is ending goes on ending. -/
lemma Jump.ending {highest : ℕ} {o o' : Owner}
    (hj : Jump highest admitted p o o') (h : o.ending = true) : o'.ending = true := by
  have hc : o.closing = true := by
    cases hj <;> simpa [Owner.ending, Owner.revokes] using h
  exact Owner.ending_of_closing (hj.closing hc)

lemma Ran.ending {highest : ℕ}
    (hr : Ran highest admitted h p r) (hp : p.owner.ending = true) : r.2.owner.ending = true := by
  cases hr with
  | stay => exact hp
  | jump hj => exact hj.ending hp
  | @marshal c ho | @overflow c ho | @accepted c data ho | @marshalled c ok ho =>
    rw [ho] at hp
    cases c <;> first | rfl | cases hp
  | revoke | stopping | drain | drained | leave | inputFailed | ackRefused => rfl
  | start ho | snapshot ho | message ho | replied ho | wake ho | take ho | acked ho =>
    rw [ho] at hp
    cases hp

lemma Wrote.owner (hr : Wrote h p r) : r.2.owner = p.owner := by
  cases hr <;> rfl

lemma Read.owner (hr : Read h p r) : r.2.owner = p.owner := by
  cases hr <;> rfl

/-- **A socket that is ending stays so.** -/
lemma System.step_ending {s : System ι} {i : ι} (hs : (s.peers i).owner.ending = true)
    (e : Event ι) : ((s.step e).peers i).owner.ending = true := by
  have hput : ∀ (j : ι) (r : Hub × Peer), (j = i → r.2.owner.ending = true) →
      ((s.put j r).peers i).owner.ending = true := by
    intro j r hr
    by_cases hj : j = i
    · subst hj
      rw [System.put_self]
      exact hr rfl
    · rw [System.put_of_ne s (Ne.symm hj)]
      exact hs
  cases e with
  | run j pick =>
    refine hput j _ fun hj => ?_
    subst hj
    exact (run_ran _ _ s.hub (s.peers j) pick).ending hs
  | reader j pick =>
    refine hput j _ fun hj => ?_
    subst hj
    rw [(readerStep_read s.hub (s.peers j) pick).owner]
    exact hs
  | writer j pick =>
    refine hput j _ fun hj => ?_
    subst hj
    rw [(writerStep_wrote s.hub (s.peers j) pick).owner]
    exact hs
  | commit | close => exact hs
  | notify session =>
    rw [System.step]
    split
    · change ((s.peers i).notified session).owner.ending = true
      rcases (s.peers i).notified_cases session with h | ⟨h, -⟩ <;> rw [h]
      · rw [(s.peers i).sameShare_woken.owner]
        exact hs
      · exact hs
    · exact hs
  | wake j =>
    refine hput j _ fun hj => ?_
    subst hj
    rw [(s.peers j).sameShare_woken.owner]
    exact hs
  | stop j =>
    rw [System.step]
    split
    · exact hput j _ fun hj => hj ▸ hs
    · exact hs

lemma run_ack_refused {highest : ℕ} {n : ℕ}
    (ho : p.owner = .ack n) (hw : p.writer.locksSent = false) (hn : p.sent < n) :
    (p.run highest admitted h .go).2.owner = .revoke 1008 := by
  unfold Peer.run
  rw [ho]
  simp only [hw, Bool.false_eq_true, if_false]
  rw [if_neg (by omega)]
  rfl

lemma eq_range'_of_prefix {a n : ℕ} {l : List ℕ} (h : l <+: List.range' a n) :
    l = List.range' a l.length := by
  have hle : l.length ≤ n := by simpa using h.length_le
  have hr : List.range' a l.length <+: List.range' a n := by
    rw [← Nat.add_sub_cancel' hle, ← List.range'_append_1]
    exact prefix_append ..
  exact (prefix_of_prefix_length_le h hr (by simp)).eq_of_length (by simp)

/-- The order of the cursors of a window. -/
lemma Peer.Window.cursors (hw : p.Window) :
    p.acked ≤ p.sent ∧ p.sent ≤ p.top ∧ p.acked ≤ p.queued ∧ p.queued ≤ p.top ∧
      p.top ≤ p.acked + 4 ∧ (p.owner.storing = false → p.top = p.queued) := by
  have hlen := hw.length_pushed
  have hsent := hw.sent
  obtain ⟨-, h1, h2, h3⟩ := hw.acked
  unfold wsMessageWindow at h3
  cases hs : p.owner.storing with
  | false =>
    have htop : p.top = p.queued := by simp [Peer.top, hs]
    omega
  | true =>
    have htop : p.top = p.queued + 1 := by simp [Peer.top, hs]
    obtain ⟨n, hn⟩ : ∃ n, p.owner.message = some n := by
      unfold Owner.storing at hs
      split at hs
      next ho => exact ⟨_, by rw [ho]; rfl⟩
      next ho => exact ⟨_, by rw [ho]; rfl⟩
      next => cases hs
    obtain ⟨rfl, h4⟩ := hw.message n hn
    unfold wsMessageWindow at h4
    exact ⟨h1, by omega, h2, by omega, by omega, fun h => (by cases h)⟩

/-- **The push window.** The sequences pushed are consecutive from the cursor on; the cursors are
in order, where `sent` may be one ahead of `queued`; an ACK above `sent` makes the owner revoke
the socket; and an idle owner without a wake has queued all it may. -/
theorem push_window (connects : ι → Connect) (stored : String → Side → ℕ) (es : List (Event ι))
    (i : ι) :
    let s := run System.step (System.start connects stored) es
    let p := s.peers i
    p.pushed = List.range' ((connects i).after + 1) p.pushed.length ∧
    (p.acked ≤ p.sent ∧ p.sent ≤ p.top ∧ p.acked ≤ p.queued ∧ p.queued ≤ p.top ∧
      p.top ≤ p.acked + 4 ∧ (p.owner.storing = false → p.top = p.queued)) ∧
    (∀ n, p.owner = .ack n → p.writer.locksSent = false → p.sent < n →
      ∀ es', let q := (run System.step (s.step (.run i .go)) es').peers i
        q.owner.ending = true ∧
        (q.owner = .waiting →
          q.done = true ∨ ∃ packet ∈ q.writer.carries ++ q.out, packet.terminal = true)) ∧
    (p.brokerWatch = false → p.done = false → p.owner = .idle → p.wake = false →
      p.target ∉ s.pending → p.queued = min (s.highest i) (p.acked + 4)) := by
  intro s p
  have hs : s.Pushes connects := System.pushes_run connects stored es
  have hw := hs.window i
  refine ⟨?_, ?_, fun n ho hl hn es' => ⟨?_, ?_⟩, fun hb hd ho hwake hpend => ?_⟩
  · rw [← hs.cursor i]
    exact eq_range'_of_prefix hw.pushed_prefix
  · exact hw.cursors
  · refine run_invariant (I := fun s : System ι => (s.peers i).owner.ending = true)
      (fun _ e h => System.step_ending h e) es' ?_
    rw [System.step, System.put_self, run_ack_refused ho hl hn]
    rfl
  · intro hwait
    have hq : (run System.step (s.step (.run i .go)) es').Pushes connects :=
      run_invariant (fun _ e h => h.step e) es' (hs.step _)
    exact hq.ends i (by rw [hwait]; rfl)
  · have hf := hs.fresh i
    have hbound := hf.bound hb (by rw [ho]; rfl)
    have hle : p.queued ≤ p.acked + wsMessageWindow := hw.acked.2.2.2
    have hcaught : ¬ (p.queued < p.acked + wsMessageWindow ∧ p.queued < s.highest i) := by
      rintro ⟨h1, h2⟩
      rcases hf.behind hb hd (by rw [ho]; rfl) h1 h2 with hwk | hpd
      · exact absurd (hwk.symm.trans hwake) (by simp)
      · exact hpend hpd
    have hbound : p.queued ≤ s.highest i := hbound
    unfold wsMessageWindow at hle hcaught
    omega

/-- The writer stores `sent` before the owner has stored `queued`. -/
theorem sent_ahead_of_queued :
    let es : List (Event (Fin 1)) :=
      [.run 0 .go, .run 0 .go, .run 0 .go, .run 0 .go, .run 0 (.bytes [1]), .run 0 .slot,
        .run 0 (.bytes [1]), .run 0 .go, .run 0 .go, .run 0 .go, .run 0 .slot, .run 0 (.bytes [2]),
        .writer 0 .receive, .writer 0 .go, .writer 0 .slot, .writer 0 .go, .writer 0 .go,
        .writer 0 (.result true), .writer 0 .go, .writer 0 .receive, .writer 0 .go, .writer 0 .slot,
        .writer 0 .go, .writer 0 .go, .writer 0 (.result true)]
    let p := (run System.step (System.start
      (fun _ : Fin 1 => ⟨"tenant", "hash", "session", .client, false, 0⟩) fun _ _ => 1) es).peers 0
    p.done = false ∧ p.sent = 1 ∧ p.queued = 0 := by
  decide +kernel

end OhecoBroker.WebSocket
