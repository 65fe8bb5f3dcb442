/-
Datagrams between two peers.

* `Peer.Receives.act`: the flows of a receiving peer stay sound;
* `Peer.Admits`, `Peer.track_act`: a packet in a receiving peer;
* `Pair.Ok`, `Pair.Ok.step`, `Pair.Ok.faithful`: two peers, in every run; what arrives are
  fragments of packets that were accepted;
* `NeverExpires`, `Pair.New.delivered`: complete packets;
* `datagrams_delivered`: **in every run** a packet id is given to the socket at most once and with
  no byte that did not arrive in a fragment of that packet; when the datagrams are those the other
  peer sent, with the payload accepted there; and a packet all of whose fragments arrive while
  they can be taken is given to the socket.
-/
import OhecoBroker.Udp.Progress

namespace OhecoBroker.Udp

open Lib List
open Mapping (Phase field protoUdp udpMax uint64Max)

/-! ### Receiving peers -/

def Peer.Receives (p : Peer) : Prop := ∀ f ∈ p.flows, f.Sound (fragments p.arrived)

/-- What `m_find` finds has the id, and lives. -/
lemma mFind_spec {fs : List Flow} {id : ℕ} (h : fs[mFind fs id]? = some f) :
    f.id.toNat = id ∧ f.phase ≠ .dead := by
  obtain ⟨hlt, rfl⟩ := List.getElem?_eq_some_iff.mp h
  have hfound := findIdx_getElem (w := hlt)
  simp only [Bool.and_eq_true, beq_iff_eq, bne_iff_ne] at hfound
  exact ⟨hfound.2, hfound.1.2⟩

def Flow.receiving (f : Flow) :
    UInt64 × ReplayWindow 64 × List (Option Assembly) × List (ℕ × List UInt8) :=
  (f.id, f.window, f.assembly, f.handed)

variable {gs : List Fragment} {s t : Pair} {as : List PairAct} {x : ℕ × List UInt8}
  {f f' : Flow} {p : Peer}

lemma Flow.Sound.congr (h : f.Sound gs) (heq : f'.receiving = f.receiving) : f'.Sound gs := by
  simp only [Flow.receiving, Prod.mk.injEq] at heq
  obtain ⟨hid, hwin, hasm, hhanded⟩ := heq
  exact h.shrink hid hhanded (fun _ _ hj => hasm ▸ hj) fun _ hn hc => by rw [hwin]; exact ⟨hn, hc⟩

/-- Sending leaves the receiving half alone. -/
lemma mUdpFlushLoop_receiving (es : List FlushStep) (budget perFlow : ℕ) (f : Flow) :
    (mUdpFlushLoop es budget perFlow f).1.receiving = f.receiving ∧
      (mUdpFlushLoop es budget perFlow f).1.phase = f.phase := by
  induction es generalizing f budget perFlow with
  | nil => exact ⟨rfl, rfl⟩
  | cons e es ih =>
    rw [mUdpFlushLoop]
    split
    · exact ⟨rfl, rfl⟩
    split
    · exact ⟨rfl, rfl⟩
    split
    · exact ih _ _ _
    simp only
    split
    · exact ⟨rfl, rfl⟩
    · exact ih _ _ _

lemma mUdpFlush_receiving (ready : Bool) (f : Flow) (budget : ℕ) (es : List FlushStep) :
    (mUdpFlush ready f budget es).1.receiving = f.receiving ∧
      (mUdpFlush ready f budget es).1.phase = f.phase := by
  unfold mUdpFlush
  split
  · exact ⟨rfl, rfl⟩
  · exact mUdpFlushLoop_receiving es budget 8 f

lemma mUdpEnqueue_receiving (f : Flow) (data : List UInt8) (now : ℕ) (alloc : Bool) :
    (mUdpEnqueue f data now alloc).receiving = f.receiving ∧
      (mUdpEnqueue f data now alloc).phase = f.phase := by
  unfold mUdpEnqueue
  split <;> exact ⟨rfl, rfl⟩

lemma Flow.control_receiving (c : Control) (f : Flow) :
    (f.control c).receiving = f.receiving ∧ ((f.control c).phase ≠ .dead → f.phase ≠ .dead) := by
  unfold Flow.control
  split
  · exact ⟨rfl, fun h => h⟩
  · next h => exact ⟨rfl, fun _ => h⟩

lemma Flow.Sound.expire (h : f.Sound gs) (now : ℕ) : (f.expire now).Sound gs :=
  h.shrink rfl rfl (fun _ _ hj => (holds_filter.mp hj).1) fun _ hn hc => ⟨hn, hc⟩

/-- A flow may give back everything. -/
lemma Flow.Sound.release (h : f.Sound gs) : f.release.Sound gs :=
  h.shrink rfl rfl (fun _ _ hj => absurd hj not_holds_replicate) fun _ hn hc => ⟨hn, hc⟩

lemma Peer.Receives.act (h : p.Receives) (a : Act) : (p.act a).Receives := by
  have hmod {k : ℕ} {g : Flow → Flow} (hg : ∀ f, f.Sound (fragments p.arrived) →
      (g f).Sound (fragments p.arrived)) :
      ∀ f ∈ p.flows.modify k g, f.Sound (fragments p.arrived) :=
    forall_mem_modify h (fun f _ hf => hg f hf) fun _ hf => hf
  cases a with
  | enqueue k data now alloc =>
    exact hmod fun f hf => hf.congr (mUdpEnqueue_receiving f data now alloc).1
  | flush k budget es => exact hmod fun f hf => hf.congr (mUdpFlush_receiving p.ready f budget es).1
  | read env v =>
    show (mUdpRead p env v).Receives
    have hsub : fragments p.arrived ⊆ fragments (p.arrived ++ [v]) := by
      rw [fragments, fragments, filterMap_append]
      exact subset_append_left _ _
    unfold mUdpRead
    simp only
    split
    · exact fun f hf => (h f hf).mono hsub
    split
    · exact fun f hf => (h f hf).mono hsub
    rename_i g hg
    have hmem : g ∈ fragments (p.arrived ++ [v]) := by
      rw [fragments, filterMap_append]
      exact mem_append_right _ (by simp [hg])
    refine forall_mem_modify h (fun f hf hs => ?_) fun f hs => hs.mono hsub
    exact (hs.mono hsub).read (parse_wf hg) hmem (mFind_spec hf).1.symm
  | expire k now => exact hmod fun f hf => hf.expire now
  | release k => exact hmod fun f hf => hf.release
  | control k c => exact hmod fun f hf => hf.congr (f.control_receiving c).1
  | link => exact h

/-! ### A packet in a receiving peer -/

variable {packet k : ℕ} {d : List UInt8} {S : ℕ → Prop}

lemma Flow.Track.congr (h : f.Track packet d S) (heq : f'.receiving = f.receiving)
    (hphase : f'.phase ≠ .dead → f.phase ≠ .dead) : f'.Track packet d S := by
  simp only [Flow.receiving, Prod.mk.injEq] at heq
  obtain ⟨-, hwin, hasm, hhanded⟩ := heq
  refine h.keep (fun hd => ?_) hphase (hwin ▸ le_rfl) (fun hle _ hc => hwin ▸ ⟨hle, hc⟩)
    fun _ hhas => ?_
  · rw [Flow.Delivered, hhanded]
    exact hd
  · rw [Flow.Has, hasm]
    exact hhas

lemma Flow.Track.expire (h : f.Track packet d S) {now : ℕ} (hnow : f.Unexpired packet now) :
    (f.expire now).Track packet d S := by
  refine h.keep (fun hd => hd) (fun hp => hp) le_rfl (fun hle _ hc => ⟨hle, hc⟩) fun _ hhas => ?_
  rcases hhas with hS | ⟨j, a, ha, hid, hbits⟩
  · exact .inl hS
  · refine .inr ⟨j, a, holds_filter.mpr ⟨ha, ?_⟩, hid, hbits⟩
    simpa using hnow j a ha hid

lemma Flow.Track.release (h : f.Track packet d S) : f.release.Track packet d S :=
  ⟨h.closed, h.going.imp_right fun hgo => ⟨hgo.1, fun hp => absurd rfl hp⟩⟩

/-- The action drops the assembly because it expired. -/
def Peer.Expires (p : Peer) (k packet : ℕ) : Act → Prop
  | .read env v => p.reads env ∧ ∃ g f, parse v = some g ∧ mFind p.flows g.flow = k ∧
      p.flows[k]? = some f ∧ ¬ f.Unexpired packet env.now
  | .expire j now => j = k ∧ ∃ f, p.flows[k]? = some f ∧ ¬ f.Unexpired packet now
  | _ => False

lemma getElem?_modify_some {α : Type*} {l : List α} {j : ℕ} {g : α → α} {x : α}
    (h : l[k]? = some x) : (l.modify j g)[k]? = some (if j = k then g x else x) := by
  simp [List.getElem?_modify, h]

lemma Peer.track_act (hk : p.flows[k]? = some f) (h : f.Track packet d S) {a : Act}
    (hread : ∀ env v, a ≠ .read env v) (hexp : ¬ p.Expires k packet a) :
    ∃ f', (p.act a).flows[k]? = some f' ∧ f'.Track packet d S := by
  have hmod {j : ℕ} {g : Flow → Flow} (hg : j = k → (g f).Track packet d S) :
      ∃ f', (p.flows.modify j g)[k]? = some f' ∧ f'.Track packet d S := by
    refine ⟨_, getElem?_modify_some hk, ?_⟩
    split
    · next hj => exact hg hj
    · exact h
  cases a with
  | enqueue j data now alloc =>
    obtain ⟨hrec, hphase⟩ := mUdpEnqueue_receiving f data now alloc
    exact hmod fun _ => h.congr hrec (hphase ▸ id)
  | flush j budget es =>
    obtain ⟨hrec, hphase⟩ := mUdpFlush_receiving p.ready f budget es
    exact hmod fun _ => h.congr hrec (hphase ▸ id)
  | read env v => exact absurd rfl (hread env v)
  | expire j now =>
    refine hmod fun hj => h.expire ?_
    by_contra hno
    exact hexp ⟨hj, f, hk, hno⟩
  | release j => exact hmod fun _ => h.release
  | control j c => exact hmod fun _ => h.congr (f.control_receiving c).1 (f.control_receiving c).2
  | link => exact ⟨f, hk, h⟩

/-- The datagram has a place in flow `k`. -/
def Peer.Admits (p : Peer) (k : ℕ) (env : ReadEnv) (flow packet : ℕ) : Prop :=
  p.reads env ∧ mFind p.flows flow = k ∧ ∃ f, p.flows[k]? = some f ∧ f.Admits env packet

lemma Peer.track_read {env : ReadEnv} {v : List UInt8} {g : Fragment}
    (hk : p.flows[k]? = some f) (h : f.Track packet d S) (hs : f.Sound gs)
    (hf : Faithful gs f.id.toNat packet d) (hg : parse v = some g) (hmem : g ∈ gs)
    (hexp : ¬ p.Expires k packet (.read env v)) :
    ∃ f', (mUdpRead p env v).flows[k]? = some f' ∧ f'.Track packet d S ∧
      (g.packet = packet → p.Admits k env g.flow packet →
        f'.Track packet d fun i => S i ∨ i = g.offset / fragmentSize) := by
  unfold mUdpRead
  simp only
  split
  · next hno => exact ⟨f, hk, h, fun _ hadm => absurd hadm.1 hno⟩
  rename_i hreads
  rw [hg]
  refine ⟨_, getElem?_modify_some hk, ?_⟩
  split
  · next hfind =>
    have hflow : g.flow = f.id.toNat := (mFind_spec (hfind ▸ hk)).1.symm
    have hnow : f.Unexpired packet env.now := by
      by_contra hno
      exact hexp ⟨not_not.mp hreads, g, f, hg, hfind, hk, hno⟩
    by_cases hp : g.packet = packet
    · obtain ⟨hkeep, hadd⟩ := h.own hs hf (parse_wf hg) hmem hflow hp hnow
      refine ⟨hkeep, fun _ hadm => hadd ?_⟩
      obtain ⟨-, -, f₁, hf₁, hadm⟩ := hadm
      obtain rfl := Option.some.inj (hk.symm.trans hf₁)
      exact hadm
    · exact ⟨h.other hnow hp, fun hp' => absurd hp' hp⟩
  · next hfind => exact ⟨h, fun _ hadm => absurd hadm.2.1 hfind⟩

/-! ### Two peers -/

structure Flow.New (f : Flow) : Prop where
  id : f.id ≠ 0
  nextPacket : f.nextPacket = 0
  queue : f.queue = []
  window : f.window = {}
  assembly : f.assembly = List.replicate reassembly none
  enqueued : f.enqueued = []
  handed : f.handed = []

structure Peer.New (p : Peer) : Prop where
  flows : ∀ f ∈ p.flows, f.New
  sent : p.sent = []
  arrived : p.arrived = []

/-- Two peers at the start; the ids of the sender's flows differ. -/
structure Pair.New (s : Pair) : Prop where
  sender : s.sender.New
  receiver : s.receiver.New
  ids : (s.sender.flows.map Flow.id).Nodup

lemma Flow.New.queued (h : f.New) : f.Queued :=
  ⟨by rw [h.nextPacket]; exact Nat.zero_le _, by rw [h.enqueued, h.nextPacket]; rfl,
    by rw [h.enqueued]; simp, by rw [h.queue]; simp⟩

/-- A new flow has received nothing. -/
lemma Flow.New.sound (h : f.New) (gs : List Fragment) : f.Sound gs where
  begun j a hj := absurd (h.assembly ▸ hj) not_holds_replicate
  distinct i j a b hi := absurd (h.assembly ▸ hi) not_holds_replicate
  handed := by rw [h.handed]; simp
  once := by rw [h.handed]; exact nodup_nil

/-- What arrives at the receiver was sent by the sender. -/
def Genuine (t : Pair) (a : PairAct) : Prop :=
  ∀ env v, a = .receiver (.read env v) → v ∈ t.sender.sent

/-- What holds of two peers in every run. -/
structure Pair.Ok (t : Pair) : Prop where
  sends : t.sender.Sends
  receives : t.receiver.Receives
  ids : (t.sender.flows.map Flow.id).Nodup
  nonzero : ∀ f ∈ t.sender.flows, f.id ≠ 0

lemma Pair.New.ok (h : s.New) : s.Ok where
  sends := ⟨fun f hf => (h.sender.flows f hf).queued, by rw [h.sender.sent]; simp⟩
  receives f hf := (h.receiver.flows f hf).sound _
  ids := h.ids
  nonzero f hf := (h.sender.flows f hf).id

/-- The flows keep their ids. -/
lemma Peer.act_ids (p : Peer) (a : Act) : (p.act a).flows.map Flow.id = p.flows.map Flow.id := by
  have hmod {k : ℕ} {g : Flow → Flow} (hg : ∀ f, (g f).id = f.id) :
      (p.flows.modify k g).map Flow.id = p.flows.map Flow.id := by
    refine ext_getElem? fun j => ?_
    rw [List.getElem?_map, List.getElem?_map, List.getElem?_modify]
    cases p.flows[j]? with
    | none => rfl
    | some f =>
      by_cases hj : k = j
      · simp [hj, hg]
      · simp [hj]
  cases a with
  | enqueue k data now alloc => exact hmod fun f => (mUdpEnqueue_grows f data now alloc).1
  | flush k budget es =>
    exact hmod fun f => congrArg Prod.fst (mUdpFlush_receiving p.ready f budget es).1
  | read env v =>
    show (mUdpRead p env v).flows.map Flow.id = p.flows.map Flow.id
    unfold mUdpRead
    simp only
    split
    · rfl
    · split
      · rfl
      · exact hmod fun f => congrArg Prod.fst (f.read_sending env _)
  | expire k now => exact hmod fun f => rfl
  | release k => exact hmod fun f => rfl
  | control k c => exact hmod fun f => congrArg Prod.fst (f.control_receiving c).1
  | link => rfl

/-- What holds of two peers is kept by a step. -/
lemma Pair.Ok.step (h : t.Ok) (a : PairAct) : (t.step a).Ok := by
  cases a with
  | sender a =>
    refine ⟨h.sends.act a, h.receives, ?_, fun f hf => ?_⟩
    · show ((t.sender.act a).flows.map Flow.id).Nodup
      rw [Peer.act_ids]
      exact h.ids
    have hid : f.id ∈ t.sender.flows.map Flow.id := by
      rw [← Peer.act_ids t.sender a]
      exact mem_map_of_mem hf
    obtain ⟨f₀, hf₀, heq⟩ := mem_map.mp hid
    rw [← heq]
    exact h.nonzero f₀ hf₀
  | receiver a => exact ⟨h.sends, h.receives.act a, h.ids, h.nonzero⟩

lemma Pair.Ok.run (h : s.Ok) (as : List PairAct) : (run Pair.step s as).Ok :=
  run_invariant (fun _ a h => h.step a) as h

lemma Peer.sent_act (p : Peer) (a : Act) : p.sent ⊆ (p.act a).sent := by
  cases a with
  | flush k budget es => exact subset_append_left _ _
  | read env v =>
    show p.sent ⊆ (mUdpRead p env v).sent
    unfold mUdpRead
    simp only
    split
    · exact List.Subset.refl _
    · split <;> exact List.Subset.refl _
  | enqueue | expire | release | control | link => exact List.Subset.refl _

lemma mUdpRead_arrived (p : Peer) (env : ReadEnv) (v : List UInt8) :
    (mUdpRead p env v).arrived = p.arrived ++ [v] := by
  unfold mUdpRead
  simp only
  split
  · rfl
  · split <;> rfl

lemma Peer.arrived_act (p : Peer) (a : Act) :
    (p.act a).arrived = p.arrived ∨
      ∃ env v, a = .read env v ∧ (p.act a).arrived = p.arrived ++ [v] := by
  cases a with
  | read env v => exact .inr ⟨env, v, rfl, mUdpRead_arrived p env v⟩
  | enqueue | flush | expire | release | control | link => exact .inl rfl

lemma Pair.arrived_step (t : Pair) (a : PairAct) :
    t.receiver.arrived ⊆ (t.step a).receiver.arrived := by
  cases a with
  | sender a => exact List.Subset.refl _
  | receiver a =>
    rcases t.receiver.arrived_act a with h | ⟨env, v, rfl, h⟩
    · exact h ▸ List.Subset.refl _
    · exact h ▸ subset_append_left _ _

lemma Pair.arrived_run (t : Pair) (as : List PairAct) :
    t.receiver.arrived ⊆ (run Pair.step t as).receiver.arrived :=
  run_invariant (I := fun u : Pair => t.receiver.arrived ⊆ u.receiver.arrived)
    (fun u a hu => List.Subset.trans hu (u.arrived_step a)) as (List.Subset.refl _)

lemma fragments_mono {vs ws : List (List UInt8)} (h : vs ⊆ ws) : fragments vs ⊆ fragments ws := by
  intro g hg
  obtain ⟨v, hv, hparse⟩ := mem_filterMap.mp hg
  exact mem_filterMap.mpr ⟨v, h hv, hparse⟩

lemma heard_of_genuine (h : s.receiver.arrived ⊆ s.sender.sent)
    (hg : Along Pair.step Genuine s as) :
    (run Pair.step s as).receiver.arrived ⊆ (run Pair.step s as).sender.sent := by
  refine along_invariant (I := fun t : Pair => t.receiver.arrived ⊆ t.sender.sent) ?_ h hg
  intro t a ht hgen
  cases a with
  | sender a => exact List.Subset.trans ht (t.sender.sent_act a)
  | receiver a =>
    rcases t.receiver.arrived_act a with heq | ⟨env, v, rfl, heq⟩
    · show (t.receiver.act a).arrived ⊆ t.sender.sent
      exact heq ▸ ht
    · show (t.receiver.act (.read env v)).arrived ⊆ t.sender.sent
      rw [heq]
      exact append_subset.mpr ⟨ht, cons_subset.mpr ⟨hgen env v rfl, nil_subset _⟩⟩

/-- A packet id is given once. -/
lemma Flow.Queued.unique (h : f.Queued) {y : ℕ × List UInt8} (hx : x ∈ f.enqueued)
    (hy : y ∈ f.enqueued) (hid : x.1 = y.1) : x = y := by
  have hnodup : (f.enqueued.map Prod.fst).Nodup := h.ids ▸ nodup_range'
  exact inj_on_of_nodup_map hnodup hx hy hid

/-- Packet ids are positive words. -/
lemma Flow.Queued.id_bounds (h : f.Queued) (hx : x ∈ f.enqueued) : 0 < x.1 ∧ x.1 < 2 ^ 64 := by
  have hmem : x.1 ∈ List.range' 1 f.nextPacket := h.ids ▸ mem_map_of_mem hx
  have hnext := h.next
  simp only [mem_range'_1, uint64Max] at hmem hnext
  omega

lemma Pair.Ok.parse_sent (h : t.Ok) {v : List UInt8} (hv : v ∈ t.sender.sent) :
    ∃ f ∈ t.sender.flows, ∃ x ∈ f.enqueued, ∃ o, FragmentAt x.2 o ∧
      parse v = some (fragmentOf f.id.toNat x.1 x.2 o) := by
  obtain ⟨f, hf, x, hx, o, ho, rfl⟩ := h.sends.sent v hv
  have hq := h.sends.queued f hf
  obtain ⟨hpos, hlt⟩ := hq.id_bounds hx
  exact ⟨f, hf, x, hx, o, ho, parse_datagram (h.nonzero f hf) hpos hlt (hq.max x hx) ho⟩

lemma Pair.Ok.faithful (h : t.Ok) (hheard : t.receiver.arrived ⊆ t.sender.sent)
    (hf : f ∈ t.sender.flows) (hx : x ∈ f.enqueued) :
    Faithful (fragments t.receiver.arrived) f.id.toNat x.1 x.2 := by
  intro g hg hflow hpacket
  obtain ⟨v, hv, hparse⟩ := mem_filterMap.mp hg
  obtain ⟨f₀, hf₀, y, hy, o, -, hsent⟩ := h.parse_sent (hheard hv)
  obtain rfl := Option.some.inj (hparse.symm.trans hsent)
  obtain rfl : f₀ = f :=
    inj_on_of_nodup_map h.ids hf₀ hf (UInt64.toNat_inj.mp hflow)
  obtain rfl : y = x := (h.sends.queued f₀ hf).unique hy hx hpacket
  rfl

lemma Pair.Ok.accepted (h : t.Ok) (hheard : t.receiver.arrived ⊆ t.sender.sent)
    (hf : f ∈ t.receiver.flows) (hx : x ∈ f.handed) :
    ∃ f₀ ∈ t.sender.flows, f₀.id = f.id ∧ x ∈ f₀.enqueued := by
  have hcame := ((h.receives f hf).handed x hx).2.2
  obtain ⟨g, hg, hflow, hpacket, -⟩ := hcame.announced
  obtain ⟨v, hv, hparse⟩ := mem_filterMap.mp hg
  obtain ⟨f₀, hf₀, y, hy, o, -, hsent⟩ := h.parse_sent (hheard hv)
  obtain rfl := Option.some.inj (hparse.symm.trans hsent)
  have hid : f₀.id = f.id := UInt64.toNat_inj.mp hflow
  have hfaith := h.faithful hheard hf₀ hy
  have hy1 : y.1 = x.1 := hpacket
  rw [hid, hy1] at hfaith
  have hpay : x.2 = y.2 := hcame.eq hfaith
  exact ⟨f₀, hf₀, hid, by rwa [show x = y from Prod.ext hy1.symm hpay]⟩

/-! ### Complete packets -/

/-- Fragment `i` arrives and is admitted. -/
def Arrives (s : Pair) (as : List PairAct) (k : ℕ) (flow : UInt64) (packet : ℕ) (d : List UInt8)
    (i : ℕ) : Prop :=
  ∃ pre env post,
    as = pre ++ .receiver (.read env (datagram flow packet d (fragmentSize * i))) :: post ∧
    (run Pair.step s pre).receiver.Admits k env flow.toNat packet

def NeverExpires (s : Pair) (as : List PairAct) (k packet : ℕ) : Prop :=
  Along Pair.step (fun t a => ∀ b, a = .receiver b → ¬ t.receiver.Expires k packet b) s as

lemma arrives_concat {a : PairAct} {flow : UInt64} {i : ℕ}
    (h : Arrives s (as ++ [a]) k flow packet d i) : Arrives s as k flow packet d i ∨
      ∃ env, a = .receiver (.read env (datagram flow packet d (fragmentSize * i))) ∧
        (run Pair.step s as).receiver.Admits k env flow.toNat packet := by
  obtain ⟨pre, env, post, heq, hadm⟩ := h
  rcases eq_nil_or_concat post with rfl | ⟨post, b, rfl⟩
  · obtain ⟨rfl, hb⟩ := append_inj' heq rfl
    exact .inr ⟨env, by simpa using hb, hadm⟩
  left
  rw [concat_eq_append, ← cons_append, ← append_assoc] at heq
  obtain ⟨rfl, -⟩ := append_inj' heq rfl
  exact ⟨pre, env, post, rfl, hadm⟩

lemma Pair.receiver_id (hk : (run Pair.step s as).receiver.flows[k]? = some f) :
    ∃ f₀, s.receiver.flows[k]? = some f₀ ∧ f₀.id = f.id := by
  have hids : (run Pair.step s as).receiver.flows.map Flow.id = s.receiver.flows.map Flow.id := by
    refine run_invariant (I := fun t : Pair => t.receiver.flows.map Flow.id =
      s.receiver.flows.map Flow.id) (fun t a ht => ?_) as rfl
    cases a with
    | sender a => exact ht
    | receiver a => exact (t.receiver.act_ids a).trans ht
  have hget := congrArg (·[k]?) hids
  simp only [List.getElem?_map, hk, Option.map_some] at hget
  cases h₀ : s.receiver.flows[k]? with
  | none => simp [h₀] at hget
  | some f₀ => exact ⟨f₀, rfl, by simpa [h₀] using hget.symm⟩

lemma Flow.New.track (h : f.New) (hpos : 0 < packet) (hS : ∀ i, ¬ S i) : f.Track packet d S where
  closed hle := by
    rw [h.window] at hle
    exact absurd hle (Nat.not_le.mpr hpos)
  going := by
    refine .inr ⟨⟨0, ⟨rfl, ?_⟩, hS 0⟩, fun _ _ => .inl hS⟩
    rw [Nat.mul_zero]
    omega

def Admitted (s : Pair) (as : List PairAct) (k : ℕ) (flow : UInt64) (x : ℕ × List UInt8)
    (i : ℕ) : Prop :=
  FragmentAt x.2 (fragmentSize * i) ∧ Arrives s as k flow x.1 x.2 i

lemma Pair.Ok.track_step (hok : t.Ok) {a : PairAct} (hga : Genuine t a)
    (hea : ∀ b, a = .receiver b → ¬ t.receiver.Expires k x.1 b)
    (hmem : ∀ env v g, a = .receiver (.read env v) → parse v = some g → g ∈ gs)
    (hf : t.receiver.flows[k]? = some f) (h : f.Track x.1 x.2 S) (hs : f.Sound gs)
    (hfaith : Faithful gs f.id.toNat x.1 x.2) :
    ∃ f', (t.step a).receiver.flows[k]? = some f' ∧ f'.Track x.1 x.2 S ∧
      ∀ env v g, a = .receiver (.read env v) → parse v = some g → g.packet = x.1 →
        t.receiver.Admits k env g.flow x.1 →
        f'.Track x.1 x.2 fun i => S i ∨ i = g.offset / fragmentSize := by
  cases a with
  | sender b => exact ⟨f, hf, h, (by simp)⟩
  | receiver b =>
    by_cases hread : ∃ env v, b = .read env v
    · obtain ⟨env, v, rfl⟩ := hread
      obtain ⟨f₁, -, y, -, o, -, hparse⟩ := hok.parse_sent (hga env v rfl)
      obtain ⟨f', hf', hkeep, hadd⟩ := Peer.track_read hf h hs hfaith hparse
        (hmem env v _ rfl hparse) (hea _ rfl)
      refine ⟨f', hf', hkeep, fun env' v' g heq hg hp hadm => ?_⟩
      simp only [PairAct.receiver.injEq, Act.read.injEq] at heq
      obtain ⟨rfl, rfl⟩ := heq
      obtain rfl := Option.some.inj (hparse.symm.trans hg)
      exact hadd hp hadm
    obtain ⟨f', hf', h'⟩ :=
      Peer.track_act hf h (fun env v heq => hread ⟨env, v, heq⟩) (hea b rfl)
    refine ⟨f', hf', h', fun env v g heq => absurd ⟨env, v, ?_⟩ hread⟩
    exact PairAct.receiver.inj heq

lemma Pair.New.track (hs : s.New) {rest : List PairAct} {f₀ : Flow}
    {flow : UInt64} (hgen : Along Pair.step Genuine s (as ++ rest))
    (hexp : NeverExpires s (as ++ rest) k x.1)
    (hbound : 0 < x.1 ∧ x.1 < 2 ^ 64) (hmax : x.2.length ≤ udpMax) (hflow : flow ≠ 0)
    (hfaith : Faithful (fragments (run Pair.step s (as ++ rest)).receiver.arrived) flow.toNat
      x.1 x.2) (hk : s.receiver.flows[k]? = some f₀) (hid : f₀.id = flow) :
    ∃ f, (run Pair.step s as).receiver.flows[k]? = some f ∧
      f.Track x.1 x.2 (Admitted s as k flow x) := by
  induction as using List.reverseRecOn generalizing rest with
  | nil =>
    have hnew := hs.receiver.flows f₀ (mem_of_getElem? hk)
    refine ⟨f₀, hk, hnew.track hbound.1 fun i => ?_⟩
    rintro ⟨-, pre, env, post, heq, -⟩
    simp at heq
  | append_singleton as a ih =>
    rw [append_assoc, singleton_append] at hgen hexp hfaith
    obtain ⟨f, hf, htrack⟩ := ih hgen hexp hfaith
    have hok := hs.ok.run as
    have hid' : f.id = flow := by
      obtain ⟨f₂, hf₂, hid₂⟩ := Pair.receiver_id hf
      obtain rfl := Option.some.inj (hk.symm.trans hf₂)
      exact hid₂.symm.trans hid
    rw [run_append, run_cons] at hfaith
    have hmono := Pair.arrived_run ((run Pair.step s as).step a) rest
    have hsound := (hok.receives f (mem_of_getElem? hf)).mono
      (fragments_mono (List.Subset.trans ((run Pair.step s as).arrived_step a) hmono))
    obtain ⟨f', hf', hkeep, hadd⟩ := hok.track_step (along_append.mp hgen).2.1
      (along_append.mp hexp).2.1 (fun env v g heq hg => by
        subst heq
        refine mem_filterMap.mpr ⟨v, hmono ?_, hg⟩
        show v ∈ (mUdpRead _ env v).arrived
        rw [mUdpRead_arrived]
        exact mem_append_right _ (mem_singleton_self v)) hf htrack hsound (hid' ▸ hfaith)
    refine ⟨f', by rw [run_append]; exact hf', ?_⟩
    by_cases hlast : ∃ env i, FragmentAt x.2 (fragmentSize * i) ∧
        a = .receiver (.read env (datagram flow x.1 x.2 (fragmentSize * i))) ∧
        (run Pair.step s as).receiver.Admits k env flow.toNat x.1
    · -- the step admits one fragment
      obtain ⟨env, i, hi, rfl, hadm⟩ := hlast
      have hparse := parse_datagram hflow hbound.1 hbound.2 hmax hi
      have hindex {j : ℕ} :
          (fragmentOf flow.toNat x.1 x.2 (fragmentSize * j)).offset / fragmentSize = j := by
        simp [fragmentOf, fragmentSize]
      refine (hadd env _ _ rfl hparse rfl hadm).anti ?_
      rintro j ⟨hj, harr⟩
      rcases arrives_concat harr with harr | ⟨env', heq, -⟩
      · exact .inl ⟨hj, harr⟩
      simp only [PairAct.receiver.injEq, Act.read.injEq] at heq
      have hsame := parse_datagram hflow hbound.1 hbound.2 hmax hj
      rw [← heq.2, hparse] at hsame
      right
      rw [Option.some.inj hsame, hindex]
    refine hkeep.anti ?_
    rintro j ⟨hj, harr⟩
    rcases arrives_concat harr with harr | ⟨env, heq, hadm⟩
    · exact ⟨hj, harr⟩
    · exact absurd ⟨env, j, hj, heq, hadm⟩ hlast

lemma Pair.New.delivered (hs : s.New) {f₀ : Flow} (hgen : Along Pair.step Genuine s as)
    (hf₀ : f₀ ∈ (run Pair.step s as).sender.flows) (hx : x ∈ f₀.enqueued)
    (harr : ∀ i, FragmentAt x.2 (fragmentSize * i) → Arrives s as k f₀.id x.1 x.2 i)
    (hexp : NeverExpires s as k x.1) :
    ∃ f, (run Pair.step s as).receiver.flows[k]? = some f ∧ f.id = f₀.id ∧ x ∈ f.handed := by
  have hok := hs.ok.run as
  have hqueued := hok.sends.queued f₀ hf₀
  have hheard := heard_of_genuine (by rw [hs.receiver.arrived]; simp) hgen
  have hfaith := hok.faithful hheard hf₀ hx
  -- the flow that takes the first fragment
  have hzero : FragmentAt x.2 (fragmentSize * 0) := ⟨rfl, by rw [Nat.mul_zero]; omega⟩
  obtain ⟨pre, env, post, -, -, hfind, f₁, hf₁, -⟩ := harr 0 hzero
  obtain ⟨f₂, hf₂, hid₂⟩ := Pair.receiver_id hf₁
  have hid : f₂.id = f₀.id := by
    rw [hid₂]
    exact UInt64.toNat_inj.mp (mFind_spec (hfind ▸ hf₁)).1
  rw [← append_nil as] at hgen hexp hfaith
  obtain ⟨f, hf, htrack⟩ := hs.track hgen hexp (hqueued.id_bounds hx) (hqueued.max x hx)
    (hok.nonzero f₀ hf₀) hfaith hf₂ hid
  have hfid : f.id = f₀.id := by
    obtain ⟨f₃, hf₃, hid₃⟩ := Pair.receiver_id hf
    obtain rfl := Option.some.inj (hf₂.symm.trans hf₃)
    exact hid₃.symm.trans hid
  refine ⟨f, hf, hfid, ?_⟩
  rcases htrack.going with hdel | ⟨⟨i, hi, hmissing⟩, -⟩
  · obtain ⟨y, hy, hyx⟩ := mem_map.mp hdel
    have hcame := ((hok.receives f (mem_of_getElem? hf)).handed y hy).2.2
    rw [append_nil, ← hfid, ← hyx] at hfaith
    rwa [show x = y from Prod.ext hyx.symm (hcame.eq hfaith).symm]
  · exact absurd ⟨hi, harr i hi⟩ hmissing

lemma Came.byte {flow : ℕ} {data : List UInt8} (h : Came gs flow packet data)
    {j : ℕ} {b : UInt8} (hb : data[j]? = some b) :
    ∃ g ∈ gs, g.flow = flow ∧ g.packet = packet ∧ g.offset ≤ j ∧
      g.bytes[j - g.offset]? = some b := by
  obtain ⟨hj, -⟩ := List.getElem?_eq_some_iff.mp hb
  have hdiv := Nat.div_add_mod j fragmentSize
  have hmod := Nat.mod_lt j (show 0 < fragmentSize by decide)
  obtain ⟨g, hg, hflow, hpacket, -, hoff, hbytes⟩ := h.pieces (j / fragmentSize) (by omega)
  refine ⟨g, hg, hflow, hpacket, by omega, ?_⟩
  rw [hbytes, hoff, getElem?_slice (by unfold pieceSize; omega), ← hb]
  congr 1
  omega

/-- **Datagrams are put together at most once and as they were.** Each packet id is given to the
socket at most once, every byte from its place in a fragment of that packet; when all that arrives
was sent by the other peer, the payload is the one accepted under that id; and then a packet all
of whose fragments are admitted is delivered, unless its assembly expires. -/
theorem datagrams_delivered {s : Pair} (hs : s.New) (as : List PairAct) :
    let t := run Pair.step s as
    (∀ f ∈ t.receiver.flows, (f.handed.map Prod.fst).Nodup ∧
      ∀ x ∈ f.handed, ∀ (j : ℕ) (b : UInt8), x.2[j]? = some b →
        ∃ v ∈ t.receiver.arrived, ∃ g, parse v = some g ∧ g.flow = f.id.toNat ∧
          g.packet = x.1 ∧ g.offset ≤ j ∧ g.bytes[j - g.offset]? = some b) ∧
    (Along Pair.step Genuine s as →
      (∀ f ∈ t.receiver.flows, ∀ x ∈ f.handed, ∃ f₀ ∈ t.sender.flows, f₀.id = f.id ∧
        x ∈ f₀.enqueued ∧ ∀ y ∈ f₀.enqueued, y.1 = x.1 → y = x) ∧
      ∀ f₀ ∈ t.sender.flows, ∀ x ∈ f₀.enqueued, ∀ k,
        (∀ i, FragmentAt x.2 (fragmentSize * i) → Arrives s as k f₀.id x.1 x.2 i) →
        NeverExpires s as k x.1 →
        ∃ f, t.receiver.flows[k]? = some f ∧ f.id = f₀.id ∧ x ∈ f.handed) := by
  intro t
  have hok : t.Ok := hs.ok.run as
  refine ⟨fun f hf => ⟨(hok.receives f hf).once, fun x hx j b hb => ?_⟩, fun hgen => ⟨?_, ?_⟩⟩
  · obtain ⟨g, hg, hrest⟩ := ((hok.receives f hf).handed x hx).2.2.byte hb
    obtain ⟨v, hv, hparse⟩ := mem_filterMap.mp hg
    exact ⟨v, hv, g, hparse, hrest⟩
  · intro f hf x hx
    have hheard := heard_of_genuine (by rw [hs.receiver.arrived]; simp) hgen
    obtain ⟨f₀, hf₀, hid, hacc⟩ := hok.accepted hheard hf hx
    exact ⟨f₀, hf₀, hid, hacc, fun y hy => (hok.sends.queued f₀ hf₀).unique hy hacc⟩
  · intro f₀ hf₀ x hx k harr hexp
    exact hs.delivered hgen hf₀ hx harr hexp

def udpPair : Pair :=
  let flow : Flow := { id := 2, phase := .active, acked := true, stream := true }
  let peer : Peer := { ready := true, proofReady := true, flows := [flow] }
  ⟨peer, peer⟩

/-- One fragment that arrives twice. -/
def udpTwice : List PairAct :=
  [.sender (.enqueue 0 [1, 2, 3] 5 true), .sender (.flush 0 128 [{ now := 6 }]),
   .receiver (.read { now := 7 } (datagram 2 1 [1, 2, 3] 0)),
   .receiver (.read { now := 8 } (datagram 2 1 [1, 2, 3] 0))]

/-- It is given to the socket once, as it was accepted. -/
theorem datagrams_delivered_twice :
    (run Pair.step udpPair udpTwice).receiver.flows.map Flow.handed = [[(1, [1, 2, 3])]] ∧
    (∀ f ∈ (run Pair.step udpPair udpTwice).receiver.flows, ∀ x ∈ f.handed,
      ∃ f₀ ∈ (run Pair.step udpPair udpTwice).sender.flows, f₀.id = f.id ∧ x ∈ f₀.enqueued ∧
        ∀ y ∈ f₀.enqueued, y.1 = x.1 → y = x) ∧
    ∃ f, (run Pair.step udpPair udpTwice).receiver.flows[0]? = some f ∧
      (1, [1, 2, 3]) ∈ f.handed := by
  have hnew : udpPair.New := by
    have hflow : ∀ f ∈ udpPair.sender.flows, f.New := by
      intro f hf
      obtain rfl := mem_singleton.mp hf
      exact ⟨by decide, rfl, rfl, rfl, rfl, rfl, rfl⟩
    exact ⟨⟨hflow, rfl, rfl⟩, ⟨hflow, rfl, rfl⟩, by decide⟩
  have hgen : Along Pair.step Genuine udpPair udpTwice := by
    refine ⟨(by intro _ _ h; cases h), (by intro _ _ h; cases h), ?_, ?_, trivial⟩
    all_goals
      intro env v heq
      simp only [PairAct.receiver.injEq, Act.read.injEq] at heq
      rw [← heq.2]
      decide +kernel
  -- both reads find no assembly
  have hexp : NeverExpires udpPair udpTwice 0 1 := by
    have hempty {p : Peer} (hp : p.flows[0]?.map Flow.assembly = some (List.replicate 4 none))
        (env v) : ∀ b, PairAct.receiver (.read env v) = .receiver b → ¬ p.Expires 0 1 b := by
      rintro _ ⟨⟩ ⟨-, g, f, -, -, hf, hno⟩
      refine hno fun j a ha => absurd ha ?_
      rw [hf] at hp
      rw [Option.some.inj hp]
      exact not_holds_replicate
    exact ⟨(by simp), (by simp), hempty (by decide +kernel) _ _, hempty (by decide +kernel) _ _,
      trivial⟩
  have harr : ∀ i, FragmentAt [1, 2, 3] (fragmentSize * i) →
      Arrives udpPair udpTwice 0 2 1 [1, 2, 3] i := by
    rintro i ⟨-, hi⟩
    obtain rfl : i = 0 := by
      simp only [fragmentSize, length_cons, length_nil] at hi
      omega
    refine ⟨udpTwice.take 2, { now := 7 }, udpTwice.drop 3, rfl, by decide +kernel,
      by decide +kernel, _, rfl, by decide +kernel, by decide +kernel,
      .inr ⟨rfl, 0, by decide +kernel⟩⟩
  obtain ⟨hpay, hdel⟩ := (datagrams_delivered hnew udpTwice).2 hgen
  obtain ⟨f, hf, -, hx⟩ := hdel _ mem_cons_self (1, [1, 2, 3]) mem_cons_self 0 harr hexp
  exact ⟨by decide +kernel, hpay, f, hf, hx⟩

end OhecoBroker.Udp
