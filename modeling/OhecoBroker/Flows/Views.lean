/-
The table of flows and the smaller models of the same code.  `Mapping` follows one TCP flow and
takes the others as a list; `Udp` follows the bytes of the UDP flows and takes the outcome of
`m_alloc` as given.  Where two models have one function, they compute the same.

* `Table.mFind_data`, `Matched.mFind`: the three models of `m_find`;
* `Table.controlDone_flow`, `Table.controlDone_retained`: `m_control_done` on the table is
  `mControlDone` on its flow, and on the retained flow where it finds one;
* `Matched.enqueue`: what `m_udp_enqueue` does to the bytes of a flow, the step of the table does
  to its blocks, with `m_alloc` answering as the memory of the peer allows.
-/
import OhecoBroker.Flows.Moves
import OhecoBroker.Udp.Flow

namespace OhecoBroker.Flows

open Lib
open Mapping

variable {z : Sizes} {t t' : Table} {k : ℕ} {r : Entry}

/-! ### Finding a flow -/

namespace Table

theorem mFind_data (t : Table) (id : ℕ) :
    mFind t.data id = t.flows[t.findIndex id]?.map Entry.flow := by
  rw [findIndex, ← List.find?_eq_getElem?_findIdx]
  simp only [mFind, data, List.find?_map, List.find?_filter]
  congr 2
  funext e
  simp [Bool.and_assoc, bne, beq_eq_decide]

/-! ### A complete control message -/

def openResult (z : Sizes) (t : Table) (k : ℕ) (r : Entry) (env : ControlEnv) : ℤ :=
  let body := r.flow.control.drop controlHeader
  (t.mResolveStart z k r (body.drop 2) (field body 0 2) env.threads env.calloc).2

lemma mResolveStart_flow {host : List UInt8} {port : ℕ} {threads calloc : Bool} {rc : ℤ}
    (hk : t.flows[k]? = some r) (h : t.mResolveStart z k r host port threads calloc = (t', rc)) :
    (rc = 0 → t'.flows[k]?.map Entry.flow = some { r.flow with phase := .resolving }) ∧
      (rc ≠ 0 → t'.flows[k]? = some r) := by
  unfold mResolveStart at h
  split at h
  · cases h
    exact ⟨fun h => absurd h (by decide), fun _ => hk⟩
  dsimp only at h
  split at h
  · cases h
    exact ⟨fun h => absurd h (by decide), fun _ => hk⟩
  split at h
  · cases h
    exact ⟨fun h => absurd h (by decide), fun _ => hk⟩
  · cases h
    simp [put, (List.getElem?_eq_some_iff.mp hk).1]

lemma retained_get {f g : Flow} (hc : r.flow.phase = .control)
    (h : mV2ControlDone t.peer t.data r.flow = some (f, some g)) :
    ∃ q, t.flows[t.findIndex r.flow.id.toNat]? = some q := by
  rcases mV2ControlDone_spec hc h with ⟨hv, -⟩ | ⟨-, u, hu, -⟩
  · cases hv
  · obtain ⟨q, hq, -⟩ := find_spec hu
    exact ⟨q, hq⟩

lemma resumeDone_flow (hk : t.flows[k]? = some r) (hc : r.flow.phase = .control) :
    (t.resumeDone k r).map (fun t' => t'.flows[k]?.map Entry.flow) =
      (mV2ControlDone t.peer t.data r.flow).map fun x => some x.1 := by
  have hlt := (List.getElem?_eq_some_iff.mp hk).1
  unfold resumeDone
  split
  · rename_i hd
    simp [hd]
  · rename_i f hd
    simp [hd, put_get hk]
  · rename_i f g hd
    obtain ⟨q, hq⟩ := retained_get hc hd
    simp only [hq, hd, Option.map_some]
    split <;> simp [put, hlt]

theorem controlDone_flow (hk : t.flows[k]? = some r) (hp : r.proof = false)
    (hc : r.flow.phase = .control) (env : ControlEnv) :
    (t.controlDone z k r env).map (fun t' => t'.flows[k]?.map Entry.flow) =
      (mControlDone t.peer t.data r.flow (t.openResult z k r env)).map fun x => some x.1 := by
  unfold controlDone mControlDone
  simp only [hp, Bool.false_eq_true, if_false]
  split
  · exact resumeDone_flow hk hc
  split
  · split
    · rfl
    · simp [put_get hk]
  split
  · rfl
  · rcases hres : t.mResolveStart z k r ((r.flow.control.drop controlHeader).drop 2)
      (field (r.flow.control.drop controlHeader) 0 2) env.threads env.calloc with ⟨u, rc⟩
    obtain ⟨hok, hfailed⟩ := mResolveStart_flow hk hres
    simp only [openResult, hres]
    split_ifs with hrc
    · simp only [Option.map_some, hok hrc]
    · simp only [Option.map_some, put_get (hfailed hrc)]

theorem controlDone_retained {f g : Flow} {rc : ℤ} {env : ControlEnv} (hp : r.proof = false)
    (hc : r.flow.phase = .control) (ho : t.findIndex r.flow.id.toNat ≠ k)
    (hf : mControlDone t.peer t.data r.flow rc = some (f, some g))
    (h : t.controlDone z k r env = some t') :
    t'.flows[t.findIndex r.flow.id.toNat]?.map Entry.flow = some g := by
  unfold mControlDone at hf
  dsimp only at hf
  split at hf
  · rename_i hkind
    simp only [controlDone, hp, Bool.false_eq_true, if_false, if_pos hkind, resumeDone, hf] at h
    obtain ⟨q, hq⟩ := retained_get hc hf
    have hlt := (List.getElem?_eq_some_iff.mp hq).1
    simp only [hq] at h
    split at h <;> cases h <;> simp [put, ho.symm, hlt]
  · split at hf
    · split at hf <;> cases hf
    · split at hf <;> cases hf

end Table

/-! ### The datagram half -/

/-- What the table and the datagram half both know of a flow. -/
structure Outline where
  id : UInt64
  proof : Bool
  transient : Bool
  phase : Phase
  lens : List ℕ
  totals : List (Option ℕ)

def Entry.outline (r : Entry) : Outline where
  id := r.flow.id
  proof := r.proof
  transient := r.flow.transient
  phase := r.flow.phase
  lens := r.packets.map PacketBlock.len
  totals := r.assembly.map (Option.map AssemblyBlock.total)

def udpOutline (f : Udp.Flow) : Outline where
  id := f.id
  proof := f.proof
  transient := f.transient
  phase := f.phase
  lens := f.queue.map fun q => q.data.length
  totals := f.assembly.map (Option.map Udp.Assembly.total)

/-- Table and datagram half have the same flows. -/
def Matched (t : Table) (fs : List Udp.Flow) : Prop :=
  t.flows.map Entry.outline = fs.map udpOutline

section Matched

variable {fs : List Udp.Flow} {f : Udp.Flow}

lemma Matched.get (h : Matched t fs) (hf : fs[k]? = some f) :
    ∃ r, t.flows[k]? = some r ∧ r.outline = udpOutline f := by
  have hk : (t.flows.map Entry.outline)[k]? = some (udpOutline f) := by
    rw [show t.flows.map Entry.outline = fs.map udpOutline from h, List.getElem?_map, hf,
      Option.map_some]
  rw [List.getElem?_map] at hk
  exact Option.map_eq_some_iff.mp hk

/-- The same change on both sides. -/
lemma Matched.modify (h : Matched t fs) (hf : fs[k]? = some f) {s : Store} {r : Entry}
    {g : Udp.Flow → Udp.Flow} (hr : r.outline = udpOutline (g f)) :
    Matched (t.put k s r) (fs.modify k g) := by
  have hset : fs.modify k g = fs.set k (g f) := by
    rw [List.modify_eq_set_getElem?, hf]
    rfl
  show (t.flows.set k r).map Entry.outline = (fs.modify k g).map udpOutline
  rw [hset, List.map_set, List.map_set, hr]
  exact congrArg (fun l : List Outline => l.set k _) h

/-- A step that changes nothing either side can see. -/
lemma Matched.modify_self (h : Matched t fs) {g : Udp.Flow → Udp.Flow}
    (hg : ∀ f, fs[k]? = some f → udpOutline (g f) = udpOutline f) :
    Matched t (fs.modify k g) := by
  show t.flows.map Entry.outline = (fs.modify k g).map udpOutline
  rw [show t.flows.map Entry.outline = fs.map udpOutline from h]
  refine List.ext_getElem? fun i => ?_
  rw [List.getElem?_map, List.getElem?_map, List.getElem?_modify]
  by_cases hi : k = i
  · subst hi
    cases hf : fs[k]? with
    | none => rfl
    | some f => simp [hg f hf]
  · simp [hi]

/-- **The same flow is found.** -/
theorem Matched.mFind (h : Matched t fs) (id : ℕ) : t.findIndex id = Udp.mFind fs id := by
  let named (o : Outline) : Bool :=
    !o.proof && !o.transient && o.phase != .dead && o.id.toNat == id
  calc t.findIndex id = (t.flows.map Entry.outline).findIdx named := by
        rw [List.findIdx_map]
        rfl
    _ = (fs.map udpOutline).findIdx named := congrArg (List.findIdx named) h
    _ = Udp.mFind fs id := by
        rw [List.findIdx_map]
        rfl

theorem Matched.enqueue (h : Matched t fs) (hf : fs[k]? = some f) (hlive : f.phase ≠ .dead)
    (hid : f.nextPacket ≠ uint64Max) (data : List UInt8) (now : ℕ) (calloc : Bool) :
    Matched (t.step z (.udpEnqueue k data.length calloc)) (fs.modify k (Udp.mUdpEnqueue · data now
      (mAlloc z t.peer.maxFlows t.store (z.packet + data.length) calloc).isSome)) := by
  obtain ⟨r, hk, hr⟩ := h.get hf
  have hphase : r.flow.phase ≠ .dead := by
    rw [show r.flow.phase = f.phase from congrArg Outline.phase hr]
    exact hlive
  have hlens : r.packets.map PacketBlock.len = f.queue.map fun q => q.data.length :=
    congrArg Outline.lens hr
  have hlength : r.packets.length = f.queue.length := by simpa using congrArg List.length hlens
  simp only [Table.step, Table.mUdpEnqueue, hk, hlength, hphase, or_false]
  by_cases hfull : udpMax < data.length ∨ 4 ≤ f.queue.length
  · rw [if_pos hfull]
    refine h.modify_self fun g hg => ?_
    obtain rfl := Option.some.inj (hf.symm.trans hg)
    rw [Udp.mUdpEnqueue, if_pos (by rcases hfull with h | h <;> simp [h, Udp.udpQueue])]
  rw [if_neg hfull]
  cases hs : mAlloc z t.peer.maxFlows t.store (z.packet + data.length) calloc with
  | none => exact h.modify_self fun g _ => by simp [Udp.mUdpEnqueue]
  | some s =>
    refine h.modify hf ?_
    push Not at hfull
    have hroom : ¬ (udpMax < data.length ∨ Udp.udpQueue ≤ f.queue.length ∨
        f.nextPacket = uint64Max ∨ (some s).isSome = false) := by
      simp [Udp.udpQueue, hid, hfull.1, hfull.2]
    rw [Udp.mUdpEnqueue, if_neg hroom]
    simp only [Entry.outline, udpOutline, Outline.mk.injEq] at hr ⊢
    simp [hr]

end Matched

end OhecoBroker.Flows
