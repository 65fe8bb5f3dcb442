/-
The ends of attempts and the starts of connections keep the invariant, so it holds in every state
of a link.

* `Inv.detach`, `Inv.attemptBegin`: an attempt ends, and the next one begins;
* `Inv.connect`, `Inv.request`, `Inv.readyFlow`, `Inv.ready`: a connection starts, and the
  retained flow asks to go on;
* `Inv.initial`: the flow as it became active;
* `Inv.act`, `Link.Ok`, `Link.ok_step`: **every step of the link keeps the invariant**.
-/
import OhecoBroker.Mapping.Rebind
import OhecoBroker.Mapping.Sockets

namespace OhecoBroker.Mapping

open Lib List

/-! ### The end of an attempt -/

variable {f : Flow} {x y e : Endpoint}

lemma FlowOk.suspend (h : FlowOk f) (preserve : Bool) (deadline : ℕ) :
    FlowOk (suspendFlow preserve deadline f) := by
  unfold suspendFlow
  simp only
  split
  · exact
      { h with
        alive := fun hp => absurd rfl hp, released := fun _ => ⟨rfl, rfl⟩
        tx := fun hfd => (by cases hfd), final := fun hfd => (by cases hfd)
        commit := fun hfd => (by cases hfd), next := fun hfd => (by cases hfd)
        quiet := fun hq => h.quiet (.inr (.inr (by simpa using hq)))
        idle := fun hq => h.idle (.inr (by simpa using hq))
        setup := ⟨by simp, by simp⟩ }
  rename_i hkeep
  have hfd : f.fd = true := (not_not.mp hkeep).2.2.1
  exact
    { h with
      alive := fun _ => hfd, released := fun hfd' => (by cases hfd.symm.trans hfd')
      next := fun _ => ⟨le_rfl, rfl⟩, out := fun k hk => (by cases hk), quiet := fun _ => rfl
      idle := fun _ => rfl, setup := ⟨by simp, by simp⟩ }

lemma suspendFlow_frame (preserve : Bool) (deadline : ℕ) (f : Flow) :
    let g := suspendFlow preserve deadline f
    g.stream = false ∧ g.phase ≠ .control ∧ g.isLocal = f.isLocal ∧ g.rx = [] ∧
      g.sockWritten = f.sockWritten ∧ g.rxFin = f.rxFin ∧ g.rxFinal = f.rxFinal ∧
      g.sockShut = f.sockShut ∧ Grows f g ∧ (g.fd = true → f.fd = true ∧ g.txBase = f.txBase) := by
  unfold suspendFlow
  simp only
  split
  · exact ⟨rfl, by simp, rfl, rfl, rfl, rfl, rfl, rfl, .of_eq rfl rfl rfl rfl, (by rintro ⟨⟩)⟩
  · exact ⟨rfl, by simp, rfl, rfl, rfl, rfl, rfl, rfl, .of_eq rfl rfl rfl rfl,
      fun hfd => ⟨hfd, rfl⟩⟩

lemma IncomingOk.suspend (h : IncomingOk f) (preserve : Bool) (deadline : ℕ) :
    IncomingOk (suspendFlow preserve deadline f) := by
  have hkeep : ¬ keeps preserve { f with stream := false } := fun hk => by
    simpa [h.fd] using hk.2.2.1
  unfold suspendFlow
  rw [if_pos hkeep]
  exact { h with fd := rfl, control := fun hp => (by cases hp), phase := .inr (.inr rfl) }

/-- **`transport_detach`.** -/
lemma Inv.detach (h : Inv x y) : Inv (transportDetach x) y := by
  unfold transportDetach
  split
  · exact h
  simp only
  generalize suspendDeadline x.peer x.peer.recoveryDeadlineUs = deadline
  generalize decide (x.peer.wireVersion = 2 ∧ x.peer.now < deadline) = preserve
  obtain ⟨hs, hp, hl, hrx, hw, hf, hff, hshut, hg, hbase⟩ :=
    suspendFlow_frame preserve deadline x.flow
  obtain ⟨e, he⟩ : ∃ e : Endpoint, e =
      { peer := { x.peer with
          conn := false, ready := false, proofReady := false, detached := true
          awaiting := false }
        flow := suspendFlow preserve deadline x.flow
        incoming := x.incoming.map (suspendFlow preserve deadline) } := ⟨_, rfl⟩
  have hfree : ∀ f ∈ e.incoming, f.stream = false := by
    intro f hf
    rw [he, Option.mem_map] at hf
    obtain ⟨g, -, rfl⟩ := hf
    exact (suspendFlow_frame preserve deadline g).1
  have hb : e.bound = none := by
    rw [Endpoint.bound_not_incoming hfree, he]
    simp [hs]
  have haw : e.peer.awaiting = false := by rw [he]
  have hend : EndOk e := by
    subst he
    exact
      { flow := h.left.flow.suspend preserve deadline
        control := fun hc => absurd hc hp
        incoming := fun f hf => by
          obtain ⟨g, hg, rfl⟩ := Option.mem_map.mp hf
          exact (h.left.incoming g hg).suspend preserve deadline
        role := hl.trans h.left.role
        brokerOnly := fun hr => by simp [h.left.brokerOnly hr]
        clientOnly := fun hc => absurd hc hp
        awaiting := fun _ => hb
        exclusive := fun _ => hfree
        detached := fun _ => ⟨hb, rfl⟩
        unready := fun hc => (by cases hc) }
  rw [← he]
  refine h.move hend (by rw [he]) (by rw [he]; exact hg) ?_ ?_ ?_ ?_
  · rw [he]
    intro hfd
    obtain ⟨hfd', heq⟩ := hbase hfd
    exact heq ▸ h.forth.base hfd'
  · rw [he]
    exact h.back.data.target hw (by simp [hrx]) hf hff hshut
  · refine h.forth.wire.sender (by rw [he]; exact hg) (by rw [he]) (by rw [he])
      fun _ ctl R Q _ => ?_
    simp [Endpoint.txStatus, haw, hb, TxStatus.Fits]
  · exact .of_none (by simp [Endpoint.rxAt, haw, hb])

lemma EndOk.off (h : EndOk e) (hd : e.peer.detached = true) :
    e.txStatus = .over ∧ e.rxAt = none := by
  obtain ⟨hb, haw⟩ := h.detached hd
  exact ⟨by simp [Endpoint.txStatus, haw, hb], by simp [Endpoint.rxAt, haw, hb]⟩

/-- The next attempt begins. -/
lemma Inv.attemptBegin (h : Inv x y) : Inv (Mapping.attemptBegin x) y := by
  unfold Mapping.attemptBegin
  split
  · rename_i hd
    have hend : EndOk { x with
        peer := { x.peer with attemptStop := false, ready := false, proofReady := false } } :=
      h.left.change h.left.flow h.left.control rfl rfl id rfl rfl rfl
        fun _ hd' => (by cases hd.1.symm.trans hd')
    obtain ⟨hover, hnone⟩ := hend.off hd.1
    refine h.move hend rfl (.of_eq rfl rfl rfl rfl) h.forth.base h.back.data ?_ (.of_none hnone)
    refine h.forth.wire.sender (.of_eq rfl rfl rfl rfl) rfl rfl fun _ ctl R Q _ => ?_
    rw [hover]
    trivial
  · exact h

/-! ### The start of a connection -/

lemma Endpoint.awaiting_status (haw : e.peer.awaiting = true) :
    e.txStatus = .silent ∧ e.rxAt = some { pre := [], ctl := true } := by
  simp [Endpoint.txStatus, Endpoint.rxAt, haw]

/-- **`m_create`.** -/
lemma Inv.create (h : Inv x y) (allocated : Bool) : Inv (mCreate x allocated) y := by
  unfold mCreate
  split
  · exact h
  rename_i hwait
  simp only [not_or, Bool.not_eq_false] at hwait
  obtain ⟨hserver, haw, -⟩ := hwait
  split
  · exact h
  split
  · exact h.fail
  rename_i hready
  have hready : x.peer.ready = true := by simpa using hready
  split
  · exact h
  have hb := h.left.awaiting haw
  obtain ⟨-, hflow⟩ := Endpoint.bound_eq_none.mp hb
  obtain ⟨hsil, hat⟩ := Endpoint.awaiting_status haw
  have hdet : x.peer.detached = false := by
    by_contra hne
    cases haw.symm.trans (h.left.detached (by simpa using hne)).2
  have hend : EndOk { x with
      peer := { x.peer with awaiting := false }
      incoming := some { transient := true, stream := true, created := x.peer.now } } :=
    { flow := h.left.flow, control := h.left.control
      incoming := by
        rintro k ⟨⟩
        exact ⟨rfl, rfl, rfl, rfl, fun _ => .inl ⟨by simp [controlHeader], rfl⟩, .inl ⟨rfl, rfl⟩⟩
      role := h.left.role
      brokerOnly := fun hr => (by cases hserver.symm.trans hr)
      clientOnly := h.left.clientOnly
      awaiting := fun ha => (by cases ha)
      exclusive := fun hs => (by cases hflow.symm.trans hs)
      detached := fun hd => (by cases hdet.symm.trans hd)
      unready := fun _ _ hr => (by cases hready.symm.trans hr) }
  have hbound : Endpoint.bound { x with
      peer := { x.peer with awaiting := false }
      incoming := some { transient := true, stream := true, created := x.peer.now } } =
      some { transient := true, stream := true, created := x.peer.now } :=
    Endpoint.bound_incoming rfl rfl
  refine h.move hend rfl (.of_eq rfl rfl rfl rfl) h.forth.base h.back.data ?_ ?_
  · refine h.forth.wire.sender (.of_eq rfl rfl rfl rfl) rfl rfl fun _ ctl R Q hfits => ?_
    rw [hsil] at hfits
    rw [Endpoint.txStatus_of_bound hend hbound]
    exact hfits
  · refine h.back.wire.receiver rfl (.inr ?_)
    rw [Endpoint.rxAt_of_bound hend hbound, hat]
    rfl

lemma FlowOk.request (h : FlowOk f) (hfd : f.fd = true) (hsus : f.suspended = true)
    (p : Peer) : FlowOk (resumeRequest p f) :=
  { h with
    alive := fun _ => hfd, quiet := fun _ => h.quiet (.inr (.inr hsus))
    idle := fun _ => h.idle (.inr hsus)
    setup := ⟨by simp [resumeRequest], by simp [resumeRequest]⟩ }

lemma Inv.request (h : Inv x y) (haw : x.peer.awaiting = true)
    (hlocal : x.flow.isLocal = true) (hsus : x.flow.suspended = true)
    (hfd : x.flow.fd = true) : Inv { x with flow := resumeRequest x.peer x.flow } y := by
  have hb := h.left.awaiting haw
  obtain ⟨hfilter, hflow⟩ := Endpoint.bound_eq_none.mp hb
  have hb' : Endpoint.bound { x with flow := resumeRequest x.peer x.flow } = none :=
    Endpoint.bound_eq_none.mpr ⟨hfilter, hflow⟩
  have hend : EndOk { x with flow := resumeRequest x.peer x.flow } :=
    { flow := h.left.flow.request hfd hsus x.peer
      control := fun _ => .inl ⟨by simp [resumeRequest, controlHeader], rfl⟩
      incoming := h.left.incoming, role := h.left.role, brokerOnly := h.left.brokerOnly
      clientOnly := fun _ => hlocal
      awaiting := fun _ => hb'
      exclusive := fun hs => (by cases hflow.symm.trans hs)
      detached := fun hd => ⟨hb', (h.left.detached hd).2⟩
      unready := h.left.unready }
  refine h.move hend rfl (.of_eq rfl rfl rfl rfl) h.forth.base
    (h.back.data.target rfl prefix_rfl rfl rfl rfl) ?_ ?_
  · refine h.forth.wire.sender (.of_eq rfl rfl rfl rfl) rfl rfl fun _ ctl R Q hfits => ?_
    rw [(Endpoint.awaiting_status haw).1] at hfits
    rwa [(Endpoint.awaiting_status (by exact haw)).1]
  · refine h.back.wire.receiver rfl (.inr ?_)
    rw [(Endpoint.awaiting_status haw).2, (Endpoint.awaiting_status (by exact haw)).2]

lemma Inv.opened (h : Inv x y) (haw : x.peer.awaiting = true)
    (hready : x.peer.ready = true) (hlocal : x.flow.isLocal = true)
    (hsus : x.flow.suspended = true) (hfd : x.flow.fd = true) :
    Inv { x with
      peer := { x.peer with awaiting := false }
      flow := { resumeRequest x.peer x.flow with stream := true } } y := by
  have hokr := h.left.flow.request hfd hsus x.peer
  have hclient : x.peer.isServer = false := by
    have := h.left.role
    rw [hlocal] at this
    simpa using this.symm
  have hnone := h.left.brokerOnly hclient
  have hdet : x.peer.detached = false := by
    by_contra hne
    cases haw.symm.trans (h.left.detached (by simpa using hne)).2
  have hend : EndOk { x with
      peer := { x.peer with awaiting := false }
      flow := { resumeRequest x.peer x.flow with stream := true } } :=
    { flow := { hokr with }
      control := fun _ => .inl ⟨by simp [resumeRequest, controlHeader], rfl⟩
      incoming := h.left.incoming, role := h.left.role, brokerOnly := h.left.brokerOnly
      clientOnly := fun _ => hlocal
      awaiting := fun ha => (by cases ha)
      exclusive := fun _ f hf => (by cases hnone.symm.trans hf)
      detached := fun hd => (by cases hdet.symm.trans hd)
      unready := fun _ _ hr => (by cases hready.symm.trans hr) }
  have hbound := Endpoint.bound_of_stream hend rfl
  obtain ⟨hsil, hat⟩ := Endpoint.awaiting_status haw
  refine h.move hend rfl (.of_eq rfl rfl rfl rfl) h.forth.base
    (h.back.data.target rfl prefix_rfl rfl rfl rfl) ?_ ?_
  · refine h.forth.wire.answer rfl hsil
      (m := .ctl .resume x.flow.id (mResumeSnapshot x.flow 0)) trivial ?_ ?_
    · exact .inr ⟨by simp [hclient], Snapshot.length_bytes _,
        h.left.flow.snapOk hfd⟩
    · rw [Endpoint.txStatus_of_bound hend hbound]
      simp only [Flow.txStatus, resumeRequest, hlocal, length_append, length_mHeader,
        mResumeSnapshot, Snapshot.length_bytes, controlHeader, resumeSize]
      cases x.flow.closeRequested with
      | true => simp [TxStatus.Fits]
      | false =>
        refine ⟨?_, by simp, by simp [Msg.IsCtl], by simp⟩
        simp [Msg.enc, unsent, unsentFrame, resumeSize, h.left.flow.quiet (.inr (.inr hsus))]
  · refine h.back.wire.receiver rfl (.inr ?_)
    rw [Endpoint.rxAt_of_bound hend hbound, hat]
    rfl

lemma mResumeOpen_cases (s : Side) (created : Bool) (flush : SendResult) :
    mResumeOpen s created flush = ({ s with flow := resumeRequest s.peer s.flow }, false) ∨
    mResumeOpen s created flush = (mReplyFlush
      ⟨{ s.peer with awaiting := false }, { resumeRequest s.peer s.flow with stream := true }⟩
      flush, true) := by
  by_cases hno : s.peer.conn = false ∨ s.peer.stop = true ∨ s.peer.attemptStop = true ∨
      created = false
  · left
    simp only [mResumeOpen, mStreamOpen, hno, if_true]
  · right
    simp only [mResumeOpen, mStreamOpen, hno, if_false]

lemma Inv.readyFlow (h : Inv x y) (haw : x.peer.awaiting = true)
    (hready : x.peer.ready = true) (created : Bool) (flush : SendResult) :
    Inv (x.withSide (Mapping.readyFlow x.side created flush)) y := by
  unfold Mapping.readyFlow
  split
  · exact h
  rename_i hsus
  simp only [not_or, Bool.not_eq_false] at hsus
  obtain ⟨hsus, hdead⟩ := hsus
  have hfd : x.flow.fd = true := h.left.flow.alive hdead
  split
  · exact h.abort
  split
  · rename_i hpend
    cases h.left.flow.pending.symm.trans hpend
  split
  · exact h.abort
  split
  · rename_i hlocal
    rcases mResumeOpen_cases x.side created flush with hopen | hopen
    · rw [hopen]
      exact (h.request haw hlocal hsus hfd).transportFail
    · rw [hopen]
      exact (h.opened haw hready hlocal hsus hfd).replyFlush flush
  · exact h

lemma Inv.ready (h : Inv x y) (hconn : x.peer.conn = true)
    (hdet : x.peer.detached = false) (created : Bool) (flush : SendResult) :
    Inv (x.withSide (markReady x.side created flush)) y := by
  unfold markReady
  split
  · exact h
  rename_i hgo
  simp only [not_or, Bool.not_eq_true] at hgo
  have haw : x.peer.awaiting = true := h.left.unready hconn hdet hgo.1 hgo.2.2
  have hset : Inv { x with peer := { x.peer with ready := true, proofReady := true } } y :=
    h.movePeer rfl rfl rfl rfl rfl (.inl rfl) fun _ _ hr => (by cases hr)
  have hflow := hset.readyFlow haw rfl created flush
  simp only
  split
  · exact hflow
  · exact hflow.movePeer rfl rfl rfl rfl rfl (.inl rfl) hflow.left.unready

lemma recoveryFlow_cases (p : Peer) (f : Flow) :
    recoveryFlow p f = mAbort f ∨ recoveryFlow p f = f := by
  unfold recoveryFlow
  split
  · exact .inl rfl
  · exact .inr rfl

/-- **`ob_mapping_recovery_tick`.** -/
lemma Inv.recoveryTick (h : Inv x y) : Inv (Mapping.recoveryTick x) y := by
  have hflow : Inv { x with flow := recoveryFlow x.peer x.flow } y := by
    rcases recoveryFlow_cases x.peer x.flow with heq | heq
    · rw [heq]
      exact h.abort
    · rw [heq]
      exact h
  unfold Mapping.recoveryTick
  cases hi : x.incoming with
  | none =>
    simp only [Option.map_none, Option.filter_none]
    rw [← hi]
    exact hflow
  | some f =>
    have hin : Inv { x with
        flow := recoveryFlow x.peer x.flow
        incoming := some (recoveryFlow x.peer f) } y := by
      rcases recoveryFlow_cases x.peer f with heq | heq
      · rw [heq]
        exact hflow.incomingAbort hi
      · rw [heq, ← hi]
        exact hflow
    have hmem : ∀ k ∈ Option.filter (fun f : Flow => ¬ (f.phase = .dead ∧ f.stream = false))
        (some (recoveryFlow x.peer f)), k = recoveryFlow x.peer f := fun k hk =>
      (Option.some.inj (Option.filter_eq_some_iff.mp hk).1).symm
    refine hin.moveIncoming rfl ?_ ?_ ?_ ?_
    · exact fun k hk => hmem k hk ▸ hin.left.incoming _ rfl
    · exact fun k hk hs => hmem k hk ▸ hs
    · intro k hk _ ctl R Q hfits
      rwa [hmem k hk]
    · exact fun k hk _ => .inr (by rw [hmem k hk])

/-! ### Both ends -/

/-- The transport carries bytes. -/
lemma Inv.carry (h : Inv x y) (n : ℕ) : Inv (Mapping.carry x y n).1 (Mapping.carry x y n).2 where
  left := h.left.change h.left.flow h.left.control rfl rfl id rfl rfl rfl h.left.unready
  right := h.right.change h.right.flow h.right.control rfl rfl id rfl rfl rfl h.right.unready
  forth := ⟨h.forth.base, h.forth.data, fun pos hpos => by
    obtain ⟨T, R, bs, Q, hf⟩ := h.forth.wire pos hpos
    refine ⟨T, R, bs, Q, { hf with bytes := ?_ }⟩
    rw [hf.bytes]
    simp only [Mapping.carry, append_assoc, take_append_drop]⟩
  back := ⟨h.back.base, h.back.data, fun pos hpos => by
    obtain ⟨T, R, bs, Q, hf⟩ := h.back.wire pos hpos
    exact ⟨T, R, bs, Q, { hf with }⟩⟩
  roles := h.roles

/-- An end on a new connection. -/
lemma EndOk.connected (h : EndOk e) (hd : e.peer.detached = true) (c : Bool) :
    EndOk { e with peer := Mapping.connected e.peer c } :=
  { flow := h.flow, control := h.control, incoming := h.incoming, role := h.role
    brokerOnly := h.brokerOnly, clientOnly := h.clientOnly
    awaiting := fun _ => (h.detached hd).1
    exclusive := h.exclusive
    detached := fun hd' => (by cases hd')
    unready := fun _ _ _ _ => rfl }

lemma Wire.connected {c d : Bool} : Wire { x with peer := Mapping.connected x.peer c }
      { y with peer := Mapping.connected y.peer d } := by
  intro pos hpos
  obtain rfl := Option.some.inj ((Endpoint.awaiting_status rfl).2.symm.trans hpos)
  exact ⟨[], [], [], [], rfl, (by intros; contradiction), rfl, rfl, trivial,
    (by intros; contradiction), rfl, rfl⟩

lemma Inv.connect (h : Inv x y) (hx : x.peer.detached = true)
    (hy : y.peer.detached = true) (c d : Bool) :
    Inv { x with peer := connected x.peer c } { y with peer := connected y.peer d } where
  left := h.left.connected hx c
  right := h.right.connected hy d
  forth := ⟨h.forth.base, h.forth.data, .connected⟩
  back := ⟨h.back.base, h.back.data, .connected⟩
  roles := h.roles

lemma FlowOk.client (c : Config) : FlowOk (clientFlow c) where
  alive _ := rfl
  released _ := ⟨rfl, rfl⟩
  tx _ := ⟨rfl, le_rfl, Nat.zero_le _⟩
  final _ := rfl
  commit _ := rfl
  next _ := ⟨le_rfl, rfl⟩
  sent := ⟨le_rfl, Nat.zero_le _⟩
  shut := rfl
  out _ hk := (by cases hk)
  quiet _ := rfl
  idle _ := rfl
  setup := ⟨(by rintro ⟨⟩), (by rintro ⟨⟩)⟩
  pending := rfl

lemma FlowOk.broker (c : Config) : FlowOk (brokerFlow c) where
  alive _ := rfl
  released _ := ⟨rfl, rfl⟩
  tx _ := ⟨rfl, le_rfl, Nat.zero_le _⟩
  final _ := rfl
  commit _ := rfl
  next _ := ⟨le_rfl, rfl⟩
  sent := ⟨le_rfl, Nat.zero_le _⟩
  shut := rfl
  out _ hk := (by cases hk)
  quiet _ := rfl
  idle _ := rfl
  setup := ⟨(by rintro ⟨⟩), (by rintro ⟨⟩)⟩
  pending := rfl

lemma Inv.initial (c : Config) : Inv (Link.initial c).client (Link.initial c).broker := by
  have hclient : EndOk (Link.initial c).client :=
    { flow := .client c
      control := fun _ => .inl ⟨by simp [Link.initial, clientFlow, controlHeader], rfl⟩
      incoming := fun f hf => by simp [Link.initial] at hf
      role := rfl, brokerOnly := fun _ => rfl, clientOnly := fun _ => rfl
      awaiting := fun ha => by simp [Link.initial, readyPeer] at ha
      exclusive := fun _ f hf => by simp [Link.initial] at hf
      detached := fun hd => by simp [Link.initial, readyPeer] at hd
      unready := fun _ _ hr => by simp [Link.initial, readyPeer] at hr }
  have hbroker : EndOk (Link.initial c).broker :=
    { flow := .broker c
      control := fun hp => by simp [Link.initial, brokerFlow, mAck] at hp
      incoming := fun f hf => by simp [Link.initial] at hf
      role := rfl, brokerOnly := fun _ => rfl
      clientOnly := fun hp => by simp [Link.initial, brokerFlow, mAck] at hp
      awaiting := fun ha => by simp [Link.initial, readyPeer] at ha
      exclusive := fun _ f hf => by simp [Link.initial] at hf
      detached := fun hd => by simp [Link.initial, readyPeer] at hd
      unready := fun _ _ hr => by simp [Link.initial, readyPeer] at hr }
  have hdata {f g : Flow} (hw : g.sockWritten = []) (hr : g.rx = []) (hfin : g.rxFin = false)
      (hshut : g.sockShut = false) : Copied f g :=
    ⟨by simp [hw, hr], by simp [hw, hr], by simp [hfin], by simp [hshut]⟩
  refine ⟨hclient, hbroker, ⟨fun _ => Nat.zero_le _, hdata rfl rfl rfl rfl, ?_⟩,
    ⟨fun _ => Nat.zero_le _, hdata rfl rfl rfl rfl, ?_⟩, rfl⟩
  · intro pos hpos
    obtain rfl : pos = { pre := [], ctl := false } := (Option.some.inj hpos).symm
    refine ⟨[], [], [], [], rfl, (by intros; contradiction), rfl, rfl, trivial,
      (by intros; contradiction), ?_⟩
    rw [Endpoint.txStatus_of_bound hclient (Endpoint.bound_of_stream hclient rfl)]
    have hstatus : (clientFlow c).txStatus false = .sending (clientFlow c) := by
      simp [Flow.txStatus, clientFlow]
    have hnil : unsent (clientFlow c) = [] := by
      simp only [unsent, unsentFrame, clientFlow, drop_length, plain_nil, append_nil]
    show TxStatus.Fits false [] [] ((clientFlow c).txStatus false)
    rw [hstatus]
    exact ⟨hnil.symm, (by rintro ⟨⟩), fun _ m hm => (by cases hm),
      fun hp => by simp [clientFlow] at hp⟩
  intro pos hpos
  obtain rfl : pos = { pre := [], ctl := true } := (Option.some.inj hpos).symm
  refine ⟨[], Msg.enc (.ctl .ack c.id (beBytes 4 0)), [], [.ctl .ack c.id (beBytes 4 0)], rfl,
    (by intros; contradiction), rfl, by simp,
    ⟨by simp [Msg.IsCtl], (by intros; contradiction)⟩, ?_, ?_⟩
  · rintro m hm
    rw [mem_singleton.mp hm]
    exact .inl ⟨rfl, rfl, by simp⟩
  · rw [Endpoint.txStatus_of_bound hbroker (Endpoint.bound_of_stream hbroker rfl)]
    simp [Link.initial, brokerFlow, mAck, Flow.txStatus, TxStatus.Fits, unsent,
      unsentFrame, Msg.enc]

/-! ### Steps and runs -/

lemma Inv.onIncoming (h : Inv x y) {g : Side → Side × Option Flow} (hg : ∀ f, x.incoming = some f →
      Inv (x.withBoth (g ⟨x.peer, f⟩).1 (g ⟨x.peer, f⟩).2) y) : Inv (x.onIncoming g) y := by
  unfold Endpoint.onIncoming
  split
  · exact h
  · rename_i f hi
    exact hg f hi

theorem Inv.act (h : Inv x y) (a : Act) : Inv (x.act a) y := by
  cases a with
  | tick env => exact h.tick env
  | write rs => exact h.writeCalls 2 rs
  | flush r => exact h.replyFlush r
  | read rs flush => exact h.streamRead 0 flush rs
  | incomingFlush r =>
    exact h.onIncoming (g := fun s => (mReplyFlush s r, none)) fun f hi => h.incomingFlush hi r
  | incomingRead rs flush rc =>
    exact h.onIncoming (g := fun s => mStreamRead [x.flow] rc flush s rs) fun f hi =>
      h.incomingRead hi rc flush rs
  | create allocated => exact h.create allocated
  | ready created flush =>
    by_cases hc : x.peer.conn = true ∧ x.peer.detached = false
    · rw [Endpoint.act, if_pos hc]
      exact h.ready hc.1 hc.2 created flush
    · rw [Endpoint.act, if_neg hc]
      exact h
  | recoveryTick => exact h.recoveryTick
  | abort => exact h.abort
  | incomingAbort =>
    exact h.onIncoming (g := fun s => (s.abort, none)) fun f hi => h.incomingAbort hi
  | callback c => exact h.notified c
  | incomingCallback c =>
    exact h.onIncoming (g := fun s => (c.call s, none)) fun f hi => h.incomingNotified hi c
  | transportFail => exact h.transportFail
  | fail => exact h.fail
  | detach => exact h.detach
  | attemptBegin => exact h.attemptBegin
  | elapse us => exact h.movePeer rfl rfl rfl rfl rfl (.inl rfl) h.left.unready

def Link.Ok (l : Link) : Prop := Inv l.client l.broker

theorem Link.ok_step (l : Link) (a : LinkAct) (h : l.Ok) : (l.step a).Ok := by
  cases a with
  | client a => exact Inv.act h a
  | broker a => exact (Inv.act h.symm a).symm
  | toBroker n => exact Inv.carry h n
  | toClient n => exact (Inv.carry h.symm n).symm
  | connect c d =>
    by_cases hc : canConnect l.client.peer ∧ canConnect l.broker.peer
    · rw [Link.step, if_pos hc]
      exact Inv.connect h hc.1.1 hc.2.1 c d
    · rw [Link.step, if_neg hc]
      exact h

end OhecoBroker.Mapping
