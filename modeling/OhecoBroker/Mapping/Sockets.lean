/-
The socket calls of `m_v2_tick` keep the invariant.

* `Inv.tickSend`, `Inv.tickShut`, `Inv.tickRecv`: the write, the half-close and the read;
* `Inv.tick`: **`m_v2_tick` keeps the invariant**.
-/
import OhecoBroker.Mapping.Receiving

namespace OhecoBroker.Mapping

open Lib List

/-! ### Writing -/

variable {x y : Endpoint} {f : Flow}

lemma Inv.drain (h : Inv x y) (hfd : x.flow.fd = true) :
    Inv { x with flow := drained x.flow } y := by
  have hok := h.left.flow
  unfold drained
  split
  · rename_i hend
    refine h.moveData
      { hok with
        released := fun hfd' => (by cases hfd.symm.trans hfd')
        next := fun _ => ⟨le_rfl, ?_⟩ }
      h.left.control ⟨rfl, rfl, rfl, rfl, rfl, rfl, rfl, rfl, rfl, rfl, rfl, rfl⟩
      (.of_eq rfl rfl rfl rfl) h.forth.base
      (h.back.data.target rfl nil_prefix rfl rfl rfl) rfl
    have hnext := (hok.next hfd).2
    rw [hend, Nat.sub_self] at hnext
    exact hnext
  · exact h

lemma drained_fd : (drained f).fd = f.fd := by
  unfold drained
  split <;> rfl

lemma Inv.deliver (h : Inv x y) (hfd : x.flow.fd = true)
    (hlt : x.flow.rxPos < x.flow.rx.length) {bs : List UInt8}
    (hbs : bs <+: x.flow.rx.drop x.flow.rxPos) :
    Inv { x with flow := { x.flow with
      rxPos := x.flow.rxPos + bs.length, rxCommit := x.flow.rxCommit + bs.length
      ackDirty := true, sockWritten := x.flow.sockWritten ++ bs } } y := by
  have hok := h.left.flow
  obtain ⟨rest, hrest⟩ := hbs
  have hdrop : x.flow.rx.drop (x.flow.rxPos + bs.length) = rest := by
    rw [← drop_drop, ← hrest, drop_left]
  have hall : (x.flow.sockWritten ++ bs) ++ rest
      = x.flow.sockWritten ++ x.flow.rx.drop x.flow.rxPos := by
    rw [append_assoc, hrest]
  have hlen : bs.length + rest.length = x.flow.rx.length - x.flow.rxPos := by
    rw [← length_append, hrest, length_drop]
  refine h.moveData
    { hok with
      released := fun hfd' => (by cases hfd.symm.trans hfd')
      commit := fun _ => by rw [length_append, hok.commit hfd]
      next := fun _ => ?_ }
    h.left.control ⟨rfl, rfl, rfl, rfl, rfl, rfl, rfl, rfl, rfl, rfl, rfl, rfl⟩
    ⟨prefix_rfl, fun he => ⟨he, rfl⟩, by simp, le_rfl⟩ h.forth.base ?_ rfl
  · have := hok.next hfd
    simp only
    omega
  have hdata := h.back.data
  refine { hdata with copy := ?_, sent := ?_, shut := fun hshut => ?_ }
  · simp only [hdrop, hall]
    exact hdata.copy
  · simp only [hdrop, hall]
    exact hdata.sent
  -- a shut socket has nothing left to write
  obtain ⟨-, heq⟩ := hdata.shut hshut
  have hle := hdata.copy.length_le
  rw [length_append, heq, length_drop] at hle
  omega

lemma Inv.tickSend (h : Inv x y) (hfd : x.flow.fd = true) {env : TickEnv}
    (hf : mV2TickSend x.flow env = some f) :
    Inv { x with flow := f } y ∧ f.fd = true := by
  unfold mV2TickSend at hf
  split at hf
  · rename_i hgo
    simp only at hf
    split at hf
    · cases hf
    · cases hf
      exact ⟨h.drain hfd, drained_fd.trans hfd⟩
    · cases hf
      exact ⟨h.drain hfd, drained_fd.trans hfd⟩
    · cases hf
      exact ⟨(h.deliver hfd hgo.2 (List.take_prefix _ _)).drain hfd, drained_fd.trans hfd⟩
  · cases hf
    exact ⟨h, hfd⟩

/-! ### The end of the stream -/

lemma Inv.tickShut (h : Inv x y) (hfd : x.flow.fd = true) {env : TickEnv}
    (hf : mV2TickShut x.flow env = some f) :
    Inv { x with flow := f } y ∧ f.fd = true := by
  unfold mV2TickShut at hf
  split at hf
  · rename_i hgo
    obtain ⟨hfin, hcommit, -⟩ := hgo
    split at hf
    · cases hf
    cases hf
    have hok := h.left.flow
    have hdata := h.back.data
    refine ⟨h.moveData { hok with shut := rfl } h.left.control
      ⟨rfl, rfl, rfl, rfl, rfl, rfl, rfl, rfl, rfl, rfl, rfl, rfl⟩
      (.of_eq rfl rfl rfl rfl) h.forth.base { hdata with shut := fun _ => ?_ } rfl, hfd⟩
    obtain ⟨heof, hfinal⟩ := hdata.fin hfin
    have hpre : x.flow.sockWritten <+: y.flow.sockRead :=
      (prefix_append _ _).trans hdata.copy
    have hlen : x.flow.sockWritten.length = y.flow.sockRead.length := by
      rw [← hok.commit hfd, hcommit, hfinal]
    exact ⟨heof, hpre.eq_of_length hlen⟩
  · cases hf
    exact ⟨h, hfd⟩

/-! ### Reading -/

lemma unsent_append (hok : FlowOk f) (bs tx : List UInt8) :
    unsent { f with sockRead := f.sockRead ++ bs, tx := tx } = unsent f := by
  unfold unsent unsentFrame
  simp only
  congr 1
  split
  · rfl
  · rename_i hk
    obtain ⟨hle, hend⟩ := (hok.out _ hk).2 rfl
    rw [drop_append_of_le_length (hle.trans hend), take_append_of_le_length]
    rw [length_drop]
    omega
  · rfl

/-- The socket gives bytes. -/
lemma Inv.extend (h : Inv x y) (hfd : x.flow.fd = true)
    (heof : x.flow.socketEof = false) {bs : List UInt8}
    (hmax : mTxNext x.flow + bs.length ≤ uint64Max) :
    Inv { x with flow := { x.flow with
      sockRead := x.flow.sockRead ++ bs, tx := x.flow.tx ++ bs } } y := by
  have hok := h.left.flow
  obtain ⟨htx, hbase, -⟩ := hok.tx hfd
  have hnext := hok.txNext hfd
  refine h.moveFlow
    { hok with
      released := fun hfd' => (by cases hfd.symm.trans hfd')
      tx := fun _ => ⟨?_, ?_, ?_⟩
      final := fun hfd => by simpa [heof] using hok.final hfd
      sent := ⟨by simpa using hok.sent.1.trans (Nat.le_add_right _ _), hok.sent.2⟩
      out := fun k hk => ⟨(hok.out k hk).1, fun hd => ⟨((hok.out k hk).2 hd).1, ?_⟩⟩ }
    h.left.control rfl rfl id ⟨prefix_append _ _, fun he => ?_, le_rfl, le_rfl⟩
    h.forth.base (h.back.data.target rfl prefix_rfl rfl rfl rfl) ?_ fun _ => .inr rfl
  · rw [drop_append_of_le_length hbase, htx]
  · simp only [length_append]
    omega
  · rw [length_append, ← hnext]
    exact hmax
  · simpa using ((hok.out k hk).2 hd).2.trans (Nat.le_add_right _ _)
  · cases heof.symm.trans he
  · intro _ _ ctl R Q hfits
    unfold Flow.txStatus at hfits ⊢
    simp only at hfits ⊢
    split_ifs at hfits ⊢ <;>
      first
      | exact hfits
      | (simp only [TxStatus.Fits, unsent_append hok] at hfits ⊢; exact hfits)

lemma window_fits {next n : ℕ} (hn : n ≤ ioBudget) (h : ¬ uint64Max - n < next) :
    next + n ≤ uint64Max := by
  simp only [uint64Max, ioBudget] at *
  omega

/-- The socket has reached its end. -/
lemma Inv.ended (h : Inv x y) (hfd : x.flow.fd = true) (heof : x.flow.socketEof = false) :
    Inv { x with flow := { x.flow with socketEof := true, txFinal := mTxNext x.flow } } y := by
  have hok := h.left.flow
  refine h.moveData { hok with final := fun _ => ?_ } h.left.control
    ⟨rfl, rfl, rfl, rfl, rfl, rfl, rfl, rfl, rfl, rfl, rfl, rfl⟩
    ⟨prefix_rfl, fun he => (by cases heof.symm.trans he), le_rfl, le_rfl⟩ h.forth.base
    (h.back.data.target rfl prefix_rfl rfl rfl rfl) rfl
  exact hok.txNext hfd

lemma Inv.overflow (h : Inv x y) (heof : x.flow.socketEof = false) (bs : List UInt8) :
    Inv { x with flow := mAbort { x.flow with sockRead := x.flow.sockRead ++ bs } } y := by
  have ha := h.abort
  have hok : FlowOk (mAbort x.flow) := ha.left.flow
  refine ha.moveFlow (f := mAbort { x.flow with sockRead := x.flow.sockRead ++ bs })
    { hok with
      tx := fun hfd => (by cases hfd)
      final := fun hfd => (by cases hfd)
      sent := ⟨by simpa [mAbort] using hok.sent.1.trans (Nat.le_add_right _ _), hok.sent.2⟩
      out := fun k hk => ⟨(hok.out k hk).1, fun hd => ⟨((hok.out k hk).2 hd).1, ?_⟩⟩ }
    (fun hp => (by cases hp)) rfl rfl (fun hp => (by cases hp))
    ⟨prefix_append _ _, fun he => (by cases heof.symm.trans he), le_rfl, le_rfl⟩
    (fun hfd => (by cases hfd)) (ha.back.data.target rfl prefix_rfl rfl rfl rfl) ?_ ?_
  · simpa [mAbort] using ((hok.out k hk).2 hd).2.trans (Nat.le_add_right _ _)
  · intro _ _ ctl R Q _
    simp [mAbort, Flow.txStatus, TxStatus.Fits]
  · exact fun _ => .inl (by simp [mAbort, Flow.rxAt])

lemma Inv.tickRecv (h : Inv x y) (hfd : x.flow.fd = true) (env : TickEnv) :
    Inv (x.withSide (mV2TickRecv x.side env).1) y := by
  unfold mV2TickRecv
  simp only
  split
  · rename_i hgo
    have heof : x.flow.socketEof = false := hgo.2.1
    split
    · exact h.abort
    · exact h
    rename_i bytes _
    split
    · rename_i hnil
      rw [hnil, append_nil]
      exact h.ended hfd heof
    split
    · exact (h.overflow heof _).fail
    · rename_i hroom
      exact h.extend hfd heof (window_fits (by rw [length_take]; omega) hroom)
  · exact h

/-! ### The whole tick -/

/-- **`m_v2_tick`.** -/
theorem Inv.tick (h : Inv x y) (env : TickEnv) : Inv (x.onFlow (mV2Tick · env)) y := by
  show Inv (x.withSide (mV2Tick x.side env)) y
  unfold mV2Tick
  split
  · exact h
  rename_i hgo
  have hfd : x.flow.fd = true := (not_not.mp hgo).2.2.1
  split
  · exact h.abort
  split
  · exact h.abort
  rename_i f hf
  obtain ⟨hsend, hfd'⟩ := h.tickSend hfd hf
  split
  · exact hsend.abort
  rename_i g hg
  obtain ⟨hshut, hfd''⟩ := hsend.tickShut hfd' hg
  have hrecv := hshut.tickRecv hfd'' env
  split
  · rename_i s hs
    have hs' : (mV2TickRecv (Endpoint.side { x with flow := g }) env) = (s, false) := hs
    rw [hs'] at hrecv
    exact hrecv
  rename_i s hs
  have hs' : (mV2TickRecv (Endpoint.side { x with flow := g }) env) = (s, true) := hs
  rw [hs'] at hrecv
  have hwrite := hrecv.writeCalls 2 env.writes
  simp only
  split
  · exact hwrite.abort
  · exact hwrite

end OhecoBroker.Mapping
