/-
What `m_udp_flush` gives to the transport.

* `fragmentOf`, `parse_datagram`: **a fragment of a packet is read back as it was sent**;
* `Flow.Queued`, `Flushed`, `Flow.Queued.flush`: the queue, and a loop over it;
* `Peer.Sends.act`: **in every run all that is sent are fragments of accepted packets**.
-/
import OhecoBroker.Udp.Receive

namespace OhecoBroker.Udp

open Lib List
open Mapping (Phase field protoUdp udpMax uint64Max field_append_left field_append_right
  field_beBytes)

/-! ### Round trip -/

/-- A fragment of the payload begins at `o`. -/
def FragmentAt (data : List UInt8) (o : ℕ) : Prop :=
  o % fragmentSize = 0 ∧ (o < data.length ∨ (data.length = 0 ∧ o = 0))

def fragmentOf (flow packet : ℕ) (data : List UInt8) (o : ℕ) : Fragment :=
  { flow, packet, total := data.length, offset := o
    bytes := slice data o (min (data.length - o) fragmentSize) }

def headerBytes (flow : UInt64) (packet total offset size : ℕ) : List UInt8 :=
  magicData ++ beBytes 8 flow.toNat ++ beBytes 8 packet ++ beBytes 2 total ++
    beBytes 2 offset ++ beBytes 2 size ++ beBytes 2 0

@[simp] lemma length_magicData : magicData.length = 4 := by simp [magicData]

lemma length_headerBytes (flow : UInt64) (packet total offset size : ℕ) :
    (headerBytes flow packet total offset size).length = dataHeader := by
  simp [headerBytes, dataHeader]

/-- The fields of a datagram header. -/
lemma field_headerBytes (flow : UInt64) (packet total offset size : ℕ) :
    field (headerBytes flow packet total offset size) 4 8 = flow.toNat ∧
    field (headerBytes flow packet total offset size) 12 8 = packet % 2 ^ 64 ∧
    field (headerBytes flow packet total offset size) 20 2 = total % 65536 ∧
    field (headerBytes flow packet total offset size) 22 2 = offset % 65536 ∧
    field (headerBytes flow packet total offset size) 24 2 = size % 65536 ∧
    field (headerBytes flow packet total offset size) 26 2 = 0 := by
  refine ⟨?_, ?_, ?_, ?_, ?_, ?_⟩ <;>
    simp [headerBytes, field_append_left, field_append_right, field_beBytes]

theorem parse_datagram {flow : UInt64} {packet o : ℕ} {data : List UInt8} (hflow : flow ≠ 0)
    (hpos : 0 < packet) (hpacket : packet < 2 ^ 64) (hmax : data.length ≤ udpMax)
    (ho : FragmentAt data o) :
    parse (datagram flow packet data o) = some (fragmentOf flow.toNat packet data o) := by
  obtain ⟨hmod, hin⟩ := ho
  have hle : o ≤ data.length := by omega
  have hflow' : flow.toNat ≠ 0 := fun h => hflow (UInt64.toNat_inj.mp h)
  obtain ⟨h4, h12, h20, h22, h24, h26⟩ := field_headerBytes flow packet data.length o
    (min (data.length - o) fragmentSize)
  have hhead := length_headerBytes flow packet data.length o (min (data.length - o) fragmentSize)
  have hwire : datagram flow packet data o =
      headerBytes flow packet data.length o (min (data.length - o) fragmentSize) ++
        slice data o (min (data.length - o) fragmentSize) := rfl
  have hslice : (slice data o (min (data.length - o) fragmentSize)).length =
      min (data.length - o) fragmentSize := length_slice (by omega)
  rw [fragmentOf]
  generalize slice data o (min (data.length - o) fragmentSize) = body at hwire hslice ⊢
  have hfield {i w : ℕ} (h : i + w ≤ dataHeader) :
      field (datagram flow packet data o) i w = field (headerBytes flow packet data.length o
        (min (data.length - o) fragmentSize)) i w := by
    rw [hwire]
    exact field_append_left (hhead.symm ▸ h)
  have hlen : (datagram flow packet data o).length = dataHeader + body.length := by
    rw [hwire, length_append, hhead]
  have hmagic : (datagram flow packet data o).take 4 = magicData := by
    rw [datagram]
    simp
  have hdrop : (datagram flow packet data o).drop dataHeader = body := by
    rw [hwire, drop_left' hhead]
  simp only [dataHeader, fragmentSize, udpMax] at *
  have htotal : data.length % 65536 = data.length := Nat.mod_eq_of_lt (by omega)
  have hoff : o % 65536 = o := Nat.mod_eq_of_lt (by omega)
  have hsize : min (data.length - o) 512 % 65536 = min (data.length - o) 512 :=
    Nat.mod_eq_of_lt (by omega)
  rw [parse, if_neg, if_neg]
  · simp only [hfield (show 4 + 8 ≤ 28 by decide), hfield (show 12 + 8 ≤ 28 by decide),
      hfield (show 20 + 2 ≤ 28 by decide), hfield (show 22 + 2 ≤ 28 by decide), h4, h12, h20, h22,
      htotal, hoff, Nat.mod_eq_of_lt hpacket, dataHeader, hdrop]
  · simp only [hfield (show 4 + 8 ≤ 28 by decide), hfield (show 12 + 8 ≤ 28 by decide),
      hfield (show 20 + 2 ≤ 28 by decide), hfield (show 22 + 2 ≤ 28 by decide),
      hfield (show 24 + 2 ≤ 28 by decide), h4, h12, h20, h22, h24, htotal, hoff, hsize, hlen,
      Nat.mod_eq_of_lt hpacket, dataHeader, fragmentSize, udpMax]
    split <;> omega
  simp only [hfield (show 26 + 2 ≤ 28 by decide), h26, hmagic, hlen, dataHeader]
  rintro (h | h | h)
  · omega
  · exact h rfl
  · exact h rfl

/-! ### The queue -/

/-- The sending half of a flow. -/
structure Flow.Queued (f : Flow) : Prop where
  next : f.nextPacket ≤ uint64Max
  ids : f.enqueued.map Prod.fst = List.range' 1 f.nextPacket
  max : ∀ x ∈ f.enqueued, x.2.length ≤ udpMax
  queue : ∀ q ∈ f.queue, (q.id, q.data) ∈ f.enqueued ∧ FragmentAt q.data q.offset

/-- The datagram is a fragment of a packet that the flow accepted. -/
def Emitted (f : Flow) (v : List UInt8) : Prop :=
  ∃ x ∈ f.enqueued, ∃ o, FragmentAt x.2 o ∧ v = datagram f.id x.1 x.2 o

variable {f : Flow} {k : ℕ}

lemma Flow.Queued.enqueue (h : f.Queued) (data : List UInt8) (now : ℕ) (alloc : Bool) :
    (mUdpEnqueue f data now alloc).Queued := by
  unfold mUdpEnqueue
  split
  · exact h
  rename_i hok
  simp only [not_or, not_lt, not_le] at hok
  obtain ⟨hmax, -, hnext, -⟩ := hok
  have hle := h.next
  refine ⟨?_, ?_, fun x hx => ?_, fun q hq => ?_⟩
  · show f.nextPacket + 1 ≤ uint64Max
    omega
  · show (f.enqueued ++ [(f.nextPacket + 1, data)]).map Prod.fst = List.range' 1 (f.nextPacket + 1)
    rw [map_append, h.ids, List.range'_concat]
    simp [add_comm]
  · rcases mem_append.mp hx with hx | hx
    · exact h.max x hx
    · rw [mem_singleton.mp hx]
      exact hmax
  · rcases mem_append.mp hq with hq | hq
    · exact ⟨mem_append_left _ (h.queue q hq).1, (h.queue q hq).2⟩
    · rw [mem_singleton.mp hq]
      refine ⟨mem_append_right _ (mem_singleton_self _), rfl, ?_⟩
      show 0 < data.length ∨ data.length = 0 ∧ 0 = 0
      omega

lemma FragmentAt.next {data : List UInt8} {o : ℕ} (h : FragmentAt data o)
    (hne : o + min (data.length - o) fragmentSize ≠ data.length) :
    FragmentAt data (o + min (data.length - o) fragmentSize) := by
  obtain ⟨hmod, hin⟩ := h
  simp only [FragmentAt, fragmentSize] at *
  omega

/-- What a loop over the queue keeps and gives to the transport. -/
structure Flushed (f : Flow) (res : Flow × List (List UInt8) × ℕ) : Prop where
  queued : res.1.Queued
  id : res.1.id = f.id
  enqueued : res.1.enqueued = f.enqueued
  sent : ∀ v ∈ res.2.1, Emitted f v

lemma Flow.Queued.flushLoop (h : f.Queued) (es : List FlushStep) (budget perFlow : ℕ) :
    Flushed f (mUdpFlushLoop es budget perFlow f) := by
  induction es generalizing f budget perFlow with
  | nil => exact ⟨h, rfl, rfl, (by intros; contradiction)⟩
  | cons e es ih =>
    rw [mUdpFlushLoop]
    split
    · exact ⟨h, rfl, rfl, (by intros; contradiction)⟩
    rename_i q rest hq
    have hhead := h.queue q (hq ▸ mem_cons_self)
    have hrest : ∀ r ∈ rest, (r.id, r.data) ∈ f.enqueued ∧ FragmentAt r.data r.offset :=
      fun r hr => h.queue r (hq ▸ mem_cons_of_mem _ hr)
    have hwire : Emitted f (datagram f.id q.id q.data q.offset) :=
      ⟨_, hhead.1, q.offset, hhead.2, rfl⟩
    split
    · exact ⟨h, rfl, rfl, (by intros; contradiction)⟩
    split
    · have hf : ({ f with queue := rest } : Flow).Queued := { h with queue := hrest }
      obtain ⟨hqueued, hid, henq, hsent⟩ := ih hf budget perFlow
      exact ⟨hqueued, hid, henq, hsent⟩
    simp only
    split
    · refine ⟨{ h with }, rfl, rfl, fun v hv => ?_⟩
      rw [mem_singleton.mp hv]
      exact hwire
    have hf : ({ f with
        stream := e.stream, closeRequested := e.closeRequested
        queue := if e.rc = .error ∨ q.offset + min (q.data.length - q.offset) fragmentSize =
            q.data.length then rest
          else { q with offset :=
            q.offset + min (q.data.length - q.offset) fragmentSize } :: rest } :
        Flow).Queued := by
      refine { h with queue := ?_ }
      split
      · exact hrest
      next hmore =>
        refine forall_mem_cons.mpr ⟨⟨hhead.1, ?_⟩, hrest⟩
        exact hhead.2.next fun heq => hmore (.inr heq)
    obtain ⟨hqueued, hid, henq, hsent⟩ := ih hf (budget - 1) (perFlow - 1)
    refine ⟨hqueued, hid, henq, fun v hv => ?_⟩
    rcases mem_cons.mp hv with rfl | hv
    · exact hwire
    · exact hsent v hv

/-- `m_udp_flush` as the source calls it. -/
lemma Flow.Queued.flush (h : f.Queued) (ready : Bool) (budget : ℕ)
    (es : List FlushStep) : Flushed f (mUdpFlush ready f budget es) := by
  unfold mUdpFlush
  split
  · exact ⟨h, rfl, rfl, (by intros; contradiction)⟩
  · exact h.flushLoop es budget 8

/-! ### Peers -/

def Flow.sending (f : Flow) : UInt64 × ℕ × List Packet × List (ℕ × List UInt8) :=
  (f.id, f.nextPacket, f.queue, f.enqueued)

lemma Flow.Queued.congr {f' : Flow} (h : f.Queued) (heq : f'.sending = f.sending) : f'.Queued := by
  simp only [Flow.sending, Prod.mk.injEq] at heq
  obtain ⟨-, hnext, hqueue, henq⟩ := heq
  exact ⟨hnext ▸ h.next, by rw [henq, hnext, h.ids], henq ▸ h.max, hqueue ▸ henq ▸ h.queue⟩

/-- Receiving leaves the sending half alone. -/
lemma Flow.read_sending (env : ReadEnv) (g : Fragment) (f : Flow) :
    (f.read env g).sending = f.sending := by
  have hstep := f.read_step env g
  generalize f.read env g = f' at hstep
  cases hstep with
  | refused | closed | noRoom => rfl
  | placed k a _ _ _ hplace => cases hplace <;> rfl

lemma forall_mem_modify {α : Type*} {P Q : α → Prop} {l : List α} {g : α → α}
    (h : ∀ x ∈ l, P x) (hk : ∀ x, l[k]? = some x → P x → Q (g x)) (hPQ : ∀ x, P x → Q x) :
    ∀ x ∈ l.modify k g, Q x := by
  intro x hx
  obtain ⟨j, hj⟩ := mem_iff_getElem?.mp hx
  rw [List.getElem?_modify] at hj
  cases hl : l[j]? with
  | none => simp [hl] at hj
  | some y =>
    have hy := h y (mem_of_getElem? hl)
    by_cases hkj : k = j
    · subst hkj
      simp only [hl, if_true, Option.map_eq_map, Option.map_some, Option.some.injEq] at hj
      exact hj ▸ hk y hl hy
    · simp only [hl, hkj, if_false, Option.map_eq_map, Option.map_some,
        Option.some.injEq] at hj
      exact hj ▸ hPQ y hy

lemma exists_mem_modify {α : Type*} {R : α → Prop} {l : List α} {g : α → α}
    (h : ∃ x ∈ l, R x) (hg : ∀ x ∈ l, R x → R (g x)) : ∃ x ∈ l.modify k g, R x := by
  obtain ⟨x, hx, hR⟩ := h
  obtain ⟨j, hj⟩ := mem_iff_getElem?.mp hx
  by_cases hkj : k = j
  · refine ⟨g x, mem_of_getElem? (i := j) ?_, hg x hx hR⟩
    simp [hj, hkj]
  · refine ⟨x, mem_of_getElem? (i := j) ?_, hR⟩
    simp [hj, hkj]

/-- Every flow is queued as it should be, and all that was sent is emitted. -/
structure Peer.Sends (p : Peer) : Prop where
  queued : ∀ f ∈ p.flows, f.Queued
  sent : ∀ v ∈ p.sent, ∃ f ∈ p.flows, Emitted f v

lemma Emitted.congr {f' : Flow} {v : List UInt8} (h : Emitted f v) (hid : f'.id = f.id)
    (henq : f.enqueued ⊆ f'.enqueued) : Emitted f' v := by
  obtain ⟨x, hx, o, ho, rfl⟩ := h
  exact ⟨x, henq hx, o, ho, by rw [hid]⟩

/-- One flow changes, and nothing is sent. -/
lemma Peer.Sends.modify {p q : Peer} (h : p.Sends) {g : Flow → Flow}
    (hg : ∀ f, f.Queued → (g f).Queued ∧ (g f).id = f.id ∧ f.enqueued ⊆ (g f).enqueued)
    (hflows : q.flows = p.flows.modify k g) (hsent : q.sent = p.sent) : q.Sends where
  queued := hflows ▸ forall_mem_modify h.queued (fun f _ hf => (hg f hf).1) fun _ hf => hf
  sent v hv := hflows ▸ exists_mem_modify (h.sent v (hsent ▸ hv)) fun f hf hv =>
    hv.congr (hg f (h.queued f hf)).2.1 (hg f (h.queued f hf)).2.2

lemma mUdpEnqueue_grows (f : Flow) (data : List UInt8) (now : ℕ) (alloc : Bool) :
    (mUdpEnqueue f data now alloc).id = f.id ∧
      f.enqueued ⊆ (mUdpEnqueue f data now alloc).enqueued := by
  unfold mUdpEnqueue
  split
  · exact ⟨rfl, List.Subset.refl _⟩
  · exact ⟨rfl, subset_append_left _ _⟩

lemma Flow.Queued.release (h : f.Queued) : f.release.Queued :=
  { h with queue := (by intros; contradiction) }

lemma Peer.Sends.act {p : Peer} (h : p.Sends) (a : Act) : (p.act a).Sends := by
  have hsame {f f' : Flow} (hf : f.Queued) (heq : f'.sending = f.sending) :
      f'.Queued ∧ f'.id = f.id ∧ f.enqueued ⊆ f'.enqueued := by
    have henq : f'.enqueued = f.enqueued := congrArg (·.2.2.2) heq
    exact ⟨hf.congr heq, congrArg Prod.fst heq, henq ▸ List.Subset.refl _⟩
  cases a with
  | enqueue k data now alloc =>
    exact h.modify (fun f hf => ⟨hf.enqueue data now alloc, mUdpEnqueue_grows f data now alloc⟩)
      rfl rfl
  | flush k budget es =>
    have hmod : ({ p with flows := p.flows.modify k fun f =>
        (mUdpFlush p.ready f budget es).1 } : Peer).Sends := by
      refine h.modify (fun f hf => ?_) rfl rfl
      have hflush := hf.flush p.ready budget es
      exact ⟨hflush.queued, hflush.id, hflush.enqueued ▸ List.Subset.refl _⟩
    refine ⟨hmod.queued, fun v hv => ?_⟩
    rcases mem_append.mp hv with hv | hv
    · exact hmod.sent v hv
    -- the datagram comes from the flow that was flushed
    cases hk : p.flows[k]? with
    | none => simp [hk] at hv
    | some f =>
      have hf := mem_of_getElem? hk
      rw [hk] at hv
      have hemit := ((h.queued f hf).flush p.ready budget es).sent v hv
      refine exists_mem_modify ⟨f, hf, hemit⟩ fun f hf hv => ?_
      have hflush := (h.queued f hf).flush p.ready budget es
      exact hv.congr hflush.id (hflush.enqueued ▸ List.Subset.refl _)
  | read env v =>
    show (mUdpRead p env v).Sends
    unfold mUdpRead
    simp only
    split
    · exact ⟨h.queued, h.sent⟩
    · split
      · exact ⟨h.queued, h.sent⟩
      · exact h.modify (fun f hf => hsame hf (f.read_sending env _)) rfl rfl
  | expire k now => exact h.modify (g := Flow.expire now) (fun f hf => hsame hf rfl) rfl rfl
  | release k =>
    exact h.modify (fun f hf => ⟨hf.release, rfl, List.Subset.refl _⟩) rfl rfl
  | control k c =>
    refine h.modify (fun f hf => hsame hf ?_) rfl rfl
    unfold Flow.control
    split <;> rfl
  | link => exact ⟨h.queued, h.sent⟩

end OhecoBroker.Udp
