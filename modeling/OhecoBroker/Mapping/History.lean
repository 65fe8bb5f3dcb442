/-
What happened at the sockets of a flow is never undone.

* `Later`, `Later.of_history`: one history continues another;
* `mV2WriteCalls_later`, `mV2Tick_later`: sends and socket calls continue it;
* `mStreamRead_history`, `markReady_history`: reads from the stream and attempts leave it alone;
* `Endpoint.act_later`: **every action of an end continues its history**.
-/
import OhecoBroker.Mapping.Kept
import OhecoBroker.Mapping.Link

namespace OhecoBroker.Mapping

open Lib List

/-! ### Histories -/

/-- The history of `g` continues that of `f`. -/
structure Later (f g : Flow) : Prop where
  read : f.sockRead <+: g.sockRead
  eof : f.socketEof = true → g.socketEof = true ∧ g.sockRead = f.sockRead
  written : f.sockWritten <+: g.sockWritten
  shut : f.sockShut = true → g.sockShut = true
  high : f.txSentHigh ≤ g.txSentHigh

variable {f g : Flow}

/-- A flow with the same history. -/
lemma Later.of_history (h : g.history = f.history) : Later f g := by
  simp only [Flow.history, Prod.mk.injEq] at h
  obtain ⟨h1, h2, h3, h4, h5, -⟩ := h
  exact ⟨h1 ▸ prefix_rfl, fun he => ⟨h2 ▸ he, h1⟩, h3 ▸ prefix_rfl,
    fun hs => h4 ▸ hs, h5.ge⟩

lemma Later.refl (f : Flow) : Later f f := .of_history rfl

lemma Later.trans {k : Flow} (h : Later f g) (h' : Later g k) : Later f k where
  read := h.read.trans h'.read
  eof he := by
    obtain ⟨h1, h2⟩ := h.eof he
    obtain ⟨h3, h4⟩ := h'.eof h1
    exact ⟨h3, h4.trans h2⟩
  written := h.written.trans h'.written
  shut hs := h'.shut (h.shut hs)
  high := h.high.trans h'.high

lemma Later.abort (h : Later f g) : Later f (mAbort g) := { h with }

lemma Later.composes : Composes fun s t => Later s.flow t.flow :=
  ⟨fun s => .refl s.flow, fun h h' => h.trans h'⟩

/-! ### Sending -/

/-- Payload that is sent counts as sent. -/
lemma mV2WritePayload_later (s : Side) (r : SendResult) :
    Later s.flow (mV2WritePayload s r).1.flow := by
  unfold mV2WritePayload
  simp only
  split
  · exact .refl _
  split
  · rename_i s' hs
    exact .of_history (Side.history_eq (xqcStreamSend_kept_of hs))
  · rename_i s' hs
    have hist := Side.history_eq (xqcStreamSend_kept_of hs)
    exact .of_history hist
  rename_i s' n hs
  have hsent := Later.of_history (Side.history_eq (xqcStreamSend_kept_of hs))
  split
  · exact { hsent with }
  · exact { hsent with high := hsent.high.trans (le_max_left _ _) }

/-- A frame, in its two parts. -/
lemma mV2WriteFrame_later (s : Side) (r : FrameSends) :
    Later s.flow (mV2WriteFrame s r).1.flow :=
  Later.composes.writeFrame
    (fun s r => .of_history (Side.history_eq (mV2WriteHeader_kept s r))) mV2WritePayload_later
    (fun _ => .of_history rfl) s r

lemma mV2WriteCalls_later (n : ℕ) (s : Side) (rs : List FrameSends) :
    Later s.flow (mV2WriteCalls n s rs).flow :=
  Later.composes.writeCalls (fun s => .of_history (Flow.history_eq (mV2Next_kept s.flow)))
    mV2WriteFrame_later n s rs

/-! ### Receiving -/

lemma Flow.history_composes : Composes fun s t => t.flow.history = s.flow.history :=
  ⟨fun _ => rfl, fun h h' => h'.trans h⟩

@[simp] lemma confirmResume_history (f : Flow) : (confirmResume f).history = f.history := by
  unfold confirmResume
  split <;> rfl

/-- A frame header is no payload. -/
lemma mV2Header_history (h : mV2Header f = some g) : g.history = f.history := by
  obtain ⟨_, _, _, _, _, _, _, _, _, _, rfl⟩ := mV2Header_eq h
  exact confirmResume_history _

@[simp] lemma mV2ReadHeader_history (s : Side) (r : RecvResult) :
    (mV2ReadHeader s r).1.flow.history = s.flow.history := by
  unfold mV2ReadHeader
  split
  · rfl
  · rfl
  simp only
  split
  · rfl
  split
  · rfl
  split
  · rfl
  rename_i f hf
  have hist := mV2Header_history hf
  split
  · exact hist
  · exact hist

@[simp] lemma mV2Read_history (s : Side) (rs : List RecvResult) :
    (mV2Read s rs).flow.history = s.flow.history :=
  Flow.history_composes.read mV2ReadHeader_history
    (fun s r => Side.history_eq (mV2ReadPayload_kept s r)) s rs

/-! ### Sockets -/

lemma mV2TickSend_later {env : TickEnv} (h : mV2TickSend f env = some g) : Later f g := by
  unfold mV2TickSend at h
  split at h
  · simp only at h
    split at h
    · cases h
    · cases h
      exact .of_history (Flow.history_eq (drained_kept f))
    · cases h
      exact .of_history (Flow.history_eq (drained_kept f))
    · cases h
      refine Later.trans ?_ (.of_history (Flow.history_eq (drained_kept _)))
      exact ⟨prefix_rfl, fun he => ⟨he, rfl⟩, prefix_append _ _, id, le_rfl⟩
  · cases h
    exact .refl f

/-- A socket is shut down once. -/
lemma mV2TickShut_later {env : TickEnv} (h : mV2TickShut f env = some g) : Later f g := by
  unfold mV2TickShut at h
  split at h
  · split at h
    · cases h
    · cases h
      exact ⟨prefix_rfl, fun he => ⟨he, rfl⟩, prefix_rfl, fun _ => rfl, le_rfl⟩
  · cases h
    exact .refl f

/-- A socket read adds to what was read. -/
lemma mV2TickRecv_later (s : Side) (env : TickEnv) :
    Later s.flow (mV2TickRecv s env).1.flow := by
  unfold mV2TickRecv
  simp only
  split
  · rename_i hgo
    have hopen {P : Prop} : s.flow.socketEof = true → P := fun he =>
      (by cases hgo.2.1.symm.trans he)
    split
    · exact (Later.refl _).abort
    · exact .refl _
    split
    · exact ⟨prefix_append _ _, hopen, prefix_rfl, id, le_rfl⟩
    · split
      · exact ⟨prefix_append _ _, hopen, prefix_rfl, id, le_rfl⟩
      · exact ⟨prefix_append _ _, hopen, prefix_rfl, id, le_rfl⟩
  · exact .refl _

/-- **`m_v2_tick`** continues the history. -/
lemma mV2Tick_later (s : Side) (env : TickEnv) : Later s.flow (mV2Tick s env).flow :=
  Later.composes.tick (fun s => (Later.refl s.flow).abort) mV2TickSend_later mV2TickShut_later
    (mV2TickRecv_later · env) (mV2WriteCalls_later 2 · env.writes) s

/-! ### Control messages -/

lemma unfound {fs : List Flow} : ∀ o ∈ (none : Option Flow), ∃ k ∈ fs, o.history = k.history :=
  fun o ho => absurd ho (Option.not_mem_none o)

lemma mControlDone_history {p : Peer} {fs : List Flow} {rc : ℤ} {old : Option Flow}
    (h : mControlDone p fs f rc = some (g, old)) :
    g.history = f.history ∧ ∀ o ∈ old, ∃ k ∈ fs, o.history = k.history := by
  unfold mControlDone mV2ControlDone at h
  simp only at h
  split at h
  · split at h
    · have hist := Flow.history_eq (mResumeApply_kept f (f.control.drop controlHeader))
      split at h
      · cases h
      rename_i k hk
      cases h
      rw [hk] at hist
      exact ⟨hist, unfound⟩
    · split at h
      · cases h
        exact ⟨rfl, unfound⟩
      · rename_i k hfind
        have hmem : k ∈ fs := mem_of_find?_eq_some hfind
        split at h
        · cases h
          exact ⟨rfl, unfound⟩
        have hist := Flow.history_eq (mResumeApply_kept k (f.control.drop controlHeader))
        split at h
        · rename_i k' hk
          cases h
          rw [hk] at hist
          refine ⟨rfl, ?_⟩
          rintro o ⟨⟩
          exact ⟨k, hmem, hist⟩
        rename_i k' hk
        cases h
        rw [hk] at hist
        refine ⟨rfl, ?_⟩
        rintro o ⟨⟩
        exact ⟨k, hmem, hist⟩
  · split at h
    · split at h
      · cases h
      · cases h
        exact ⟨rfl, unfound⟩
    · split at h
      · cases h
      · cases h
        refine ⟨?_, unfound⟩
        split <;> rfl

lemma mControlFinish_history (fs : List Flow) (rc : ℤ) (flush : SendResult) (fin : Bool)
    (s : Side) : (mControlFinish fs rc flush fin s).1.flow.history = s.flow.history ∧
      ∀ o ∈ (mControlFinish fs rc flush fin s).2, ∃ k ∈ fs, o.history = k.history := by
  unfold mControlFinish
  split
  · exact ⟨rfl, unfound⟩
  rename_i g old hg
  obtain ⟨hist, hold⟩ := mControlDone_history hg
  simp only
  split
  · exact ⟨hist, hold⟩
  · exact ⟨(Side.history_eq (mReplyFlush_kept _ _)).trans hist, hold⟩

lemma mControlRead_history (fs : List Flow) (rc : ℤ) (flush : SendResult) (n : ℕ) (s : Side)
    (rs : List RecvResult) :
    (mControlRead fs rc flush n s rs).1.flow.history = s.flow.history ∧
      ∀ o ∈ (mControlRead fs rc flush n s rs).2.1, ∃ k ∈ fs, o.history = k.history := by
  induction n generalizing s rs with
  | zero => exact ⟨rfl, unfound⟩
  | succ n ih =>
    rw [mControlRead]
    split
    · exact ⟨rfl, unfound⟩
    · exact ⟨rfl, unfound⟩
    simp only
    split
    · exact ⟨rfl, unfound⟩
    rename_i g hg
    have hist : g.history = s.flow.history := by
      split at hg
      · have hcheck := Flow.history_eq (mHeaderCheck_kept hg)
        exact hcheck
      · cases hg
        rfl
    split
    · obtain ⟨h1, h2⟩ := mControlFinish_history fs rc flush _ _
      exact ⟨h1.trans hist, h2⟩
    split
    · exact ⟨hist, unfound⟩
    split
    · exact ⟨hist, unfound⟩
    · obtain ⟨h1, h2⟩ := ih _ rs.tail
      exact ⟨h1.trans hist, h2⟩

lemma mStreamRead_history (fs : List Flow) (rc : ℤ) (flush : SendResult) (s : Side)
    (rs : List RecvResult) :
    (mStreamRead fs rc flush s rs).1.flow.history = s.flow.history ∧
      ∀ o ∈ (mStreamRead fs rc flush s rs).2, ∃ k ∈ fs, o.history = k.history := by
  obtain ⟨s₁, old, rs₁, hs₁, hist, hold⟩ : ∃ s₁ old rs₁,
      (if s.flow.phase = .control then mControlRead fs rc flush 2 s rs else (s, none, rs)) =
        (s₁, old, rs₁) ∧ s₁.flow.history = s.flow.history ∧
      ∀ o ∈ old, ∃ k ∈ fs, o.history = k.history := by
    split
    · exact ⟨_, _, _, rfl, mControlRead_history fs rc flush 2 s rs⟩
    · exact ⟨_, _, _, rfl, rfl, unfound⟩
  unfold mStreamRead
  split
  · exact ⟨rfl, unfound⟩
  simp only [hs₁]
  split
  · exact ⟨(mV2Read_history s₁ rs₁).trans hist, hold⟩
  · exact ⟨hist, hold⟩

/-! ### Attempts -/

lemma suspendFlow_history (preserve : Bool) (deadline : ℕ) (f : Flow) :
    (suspendFlow preserve deadline f).history = f.history := by
  unfold suspendFlow
  simp only
  split <;> rfl

lemma mResumeOpen_history (s : Side) (created : Bool) (flush : SendResult) :
    (mResumeOpen s created flush).1.flow.history = s.flow.history := by
  unfold mResumeOpen mStreamOpen
  simp only
  split
  · rfl
  rename_i s' hs
  split at hs
  · cases hs
  · cases hs
    rw [Side.history_eq (mReplyFlush_kept _ _)]
    rfl

lemma mPendingOpen_history (s : Side) (created : Bool) (flush : SendResult) :
    (mPendingOpen s created flush).1.flow.history = s.flow.history := by
  unfold mPendingOpen mStreamOpen
  split
  · rfl
  simp only
  split
  · rfl
  rename_i s' hs
  split at hs
  · cases hs
  · cases hs
    rw [Side.history_eq (mReplyFlush_kept _ _)]
    rfl

lemma markReady_history (s : Side) (created : Bool) (flush : SendResult) :
    (markReady s created flush).flow.history = s.flow.history := by
  have hflow (s : Side) : (readyFlow s created flush).flow.history = s.flow.history := by
    have hresume := mResumeOpen_history s created flush
    have hpending := mPendingOpen_history s created flush
    unfold readyFlow
    simp only
    split_ifs <;> first | rfl | exact hpending | exact hresume
  unfold markReady
  split
  · rfl
  simp only
  split
  · exact hflow _
  · exact hflow _

lemma recoveryFlow_history (p : Peer) (f : Flow) : (recoveryFlow p f).history = f.history := by
  unfold recoveryFlow
  split <;> rfl

def Act.sends : Act → Option (List FrameSends)
  | .tick env => some env.writes
  | .write rs => some rs
  | _ => none

lemma Endpoint.act_history (e : Endpoint) {a : Act} (ha : a.sends = none) :
    (e.act a).flow.history = e.flow.history := by
  have hincoming {g : Side → Side × Option Flow}
      (hg : ∀ s, ∀ o ∈ (g s).2, o.history = e.flow.history) :
      (e.onIncoming g).flow.history = e.flow.history := by
    unfold Endpoint.onIncoming
    split
    · rfl
    rename_i f hf
    cases hold : (g ⟨e.peer, f⟩).2 with
    | none => simp [hold]
    | some o => simpa [hold] using hg ⟨e.peer, f⟩ o hold
  cases a with
  | tick env => cases ha
  | write rs => cases ha
  | flush r => exact Side.history_eq (mReplyFlush_kept e.side r)
  | read rs flush => exact (mStreamRead_history [] 0 flush e.side rs).1
  | incomingFlush r => exact hincoming fun _ o ho => absurd ho (Option.not_mem_none o)
  | incomingRead rs flush rc =>
    refine hincoming (g := fun s => mStreamRead [e.flow] rc flush s rs) fun s o ho => ?_
    obtain ⟨k, hk, hist⟩ := (mStreamRead_history [e.flow] rc flush s rs).2 o ho
    rwa [mem_singleton.mp hk] at hist
  | create allocated =>
    show (mCreate e allocated).flow.history = e.flow.history
    unfold mCreate
    split_ifs <;> rfl
  | ready created flush =>
    by_cases hc : e.peer.conn = true ∧ e.peer.detached = false
    · rw [Endpoint.act, if_pos hc]
      exact markReady_history e.side created flush
    · rw [Endpoint.act, if_neg hc]
  | recoveryTick => exact recoveryFlow_history e.peer e.flow
  | abort => rfl
  | incomingAbort => exact hincoming fun _ o ho => absurd ho (Option.not_mem_none o)
  | callback c => exact Side.history_eq (c.call_kept e.side)
  | incomingCallback c => exact hincoming fun _ o ho => absurd ho (Option.not_mem_none o)
  | transportFail => rfl
  | fail => rfl
  | detach =>
    show (transportDetach e).flow.history = e.flow.history
    unfold transportDetach
    split
    · rfl
    · exact suspendFlow_history _ _ _
  | attemptBegin =>
    show (Mapping.attemptBegin e).flow.history = e.flow.history
    unfold Mapping.attemptBegin
    split_ifs <;> rfl
  | elapse us => rfl

theorem Endpoint.act_later (e : Endpoint) (a : Act) : Later e.flow (e.act a).flow := by
  cases ha : a.sends with
  | none => exact .of_history (e.act_history ha)
  | some _ =>
    cases a with
    | tick env => exact mV2Tick_later e.side env
    | write rs => exact mV2WriteCalls_later 2 e.side rs
    | _ => cases ha

end OhecoBroker.Mapping
