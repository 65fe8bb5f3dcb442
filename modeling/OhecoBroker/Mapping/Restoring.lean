/-
What reads and attempts do to the retention of a flow.

* `mV2ReadLoop_standing`, `mV2Read_standing`: delivery frames;
* `acceptsResume`, `appliesResume`, `mControlRead_standing`: control messages;
* `streamRestores`, `mStreamRead_step`: **a read on a flow is a step**, and restores it only by an
  accepted snapshot or frame;
* `mStreamRead_old`: what an incoming stream does to the retained flow;
* `suspendFlow_step`, `readyFlow_standing`, `markReady_standing`: the ends of an attempt.
-/
import OhecoBroker.Mapping.Retention

namespace OhecoBroker.Mapping

open Lib

variable {deadline : ℕ}

/-! ### Delivery frames -/

/-- A pass of `m_v2_read` accepts a frame header. -/
def readsFrame : ℕ → Side → List RecvResult → Bool
  | 0, _, _ => false
  | n + 1, s, rs =>
    if s.flow.inFrame.length < frameHeader then (mV2ReadHeader s (rs.headD .again)).2 ≠ .done
    else
      match mV2ReadPayload s (rs.headD .again) with
      | (s, .loop) => readsFrame n s rs.tail
      | _ => false

lemma confirmResume_retention (f : Flow) : (confirmResume f).retention = f.retention.confirm := by
  unfold confirmResume Retention.confirm
  rw [show f.retention.resuming = f.resuming from rfl]
  split <;> rfl

variable {f g o : Flow} {p : Peer} {fs : List Flow} {rc : ℤ} {s : Side} {rs : List RecvResult}
  {restores : Prop}

lemma mV2Header_retention (h : mV2Header f = some g) : g.retention = f.retention.confirm := by
  obtain ⟨_, _, _, _, _, _, _, _, _, _, rfl⟩ := mV2Header_eq h
  exact confirmResume_retention _

lemma mV2ReadHeader_standing (s : Side) (r : RecvResult) :
    (mV2ReadHeader s r).1.standing =
      (if (mV2ReadHeader s r).2 = .done then s.flow.retention else s.flow.retention.confirm,
        s.peer.terms) := by
  unfold mV2ReadHeader
  split
  · rfl
  · rfl
  simp only
  split
  · rfl
  split
  · rfl
  split
  · rfl
  rename_i f hf
  have hret := mV2Header_retention hf
  split
  · exact congrArg (·, _) hret
  · exact congrArg (·, _) hret

lemma mV2ReadLoop_standing (n : ℕ) (s : Side) (rs : List RecvResult) :
    (mV2ReadLoop n s rs).standing =
      (if readsFrame n s rs then s.flow.retention.confirm else s.flow.retention,
        s.peer.terms) := by
  induction n generalizing s rs with
  | zero => rfl
  | succ n ih =>
    have again (t : Side) (ts : List RecvResult) (h : t.standing =
        (s.flow.retention.confirm, s.peer.terms)) :
        (mV2ReadLoop n t ts).standing = (s.flow.retention.confirm, s.peer.terms) := by
      have h1 : t.flow.retention = s.flow.retention.confirm := congrArg Prod.fst h
      have h2 : t.peer.terms = s.peer.terms := congrArg Prod.snd h
      rw [ih, h1, h2]
      split <;> simp
    have hpay (t : Side) (r : RecvResult) := Side.standing_eq (mV2ReadPayload_kept t r)
    rw [mV2ReadLoop, readsFrame]
    generalize rs.headD .again = r, rs.tail.headD .again = r'
    split
    · have hhead := mV2ReadHeader_standing s r
      cases hs : mV2ReadHeader s r with
      | mk s' next =>
        rw [hs] at hhead
        cases next with
        | done => exact hhead
        | loop => exact again s' _ hhead
        | payload =>
          have hnext := (hpay s' r').trans hhead
          simp only [ne_eq, reduceCtorEq, not_false_eq_true, decide_true, if_true]
          split
          · rename_i s₂ hs₂
            rw [hs₂] at hnext
            exact again s₂ _ hnext
          · rename_i s₂ _ _ hs₂
            rw [hs₂] at hnext
            exact hnext
    have hnext := hpay s r
    cases hs : mV2ReadPayload s r with
    | mk s' next =>
      rw [hs] at hnext
      have h1 : s'.flow.retention = s.flow.retention := congrArg Prod.fst hnext
      have h2 : s'.peer.terms = s.peer.terms := congrArg Prod.snd hnext
      cases next with
      | loop =>
        rw [ih, h1, h2]
      | done => exact hnext
      | payload => exact hnext

def framesRead (s : Side) (rs : List RecvResult) : Bool :=
  !(s.flow.stream = false ∨ s.flow.suspended = true ∨ s.peer.attemptStop = true) &&
    readsFrame 32 s rs

/-- `m_v2_read` as the source calls it. -/
lemma mV2Read_standing (s : Side) (rs : List RecvResult) :
    (mV2Read s rs).standing =
      (if framesRead s rs then s.flow.retention.confirm else s.flow.retention, s.peer.terms) := by
  unfold mV2Read framesRead
  split
  · rename_i h
    simp [h, Side.standing]
  · rename_i h
    simp [h, mV2ReadLoop_standing]

/-! ### Control messages -/

/-- A `RESUME` or `RESUME_ACK` the flow accepts. -/
def acceptsResume (f : Flow) : Bool :=
  (field f.control 4 1 = ControlKind.resume.code ∨
    field f.control 4 1 = ControlKind.resumeAck.code) &&
      (mResumeApply f (f.control.drop controlHeader)).2

/-- The control loop completes such a message. -/
def appliesResume (fs : List Flow) : ℕ → Side → List RecvResult → Bool
  | 0, _, _ => false
  | n + 1, s, rs =>
    match rs.headD .again with
    | .again => false
    | .error => false
    | .data k fin =>
      let want := s.flow.controlNeed - s.flow.control.length
      let bytes := received s.peer k want
      let f := { s.flow with control := s.flow.control ++ bytes }
      let s : Side := ⟨afterReceive s.peer k want, f⟩
      let checked :=
        if f.control.length = controlHeader ∧ f.controlNeed = controlHeader then
          mHeaderCheck s.peer fs f
        else some f
      match checked with
      | none => false
      | some f =>
        if f.control.length = f.controlNeed then acceptsResume f
        else if fin = true ∨ bytes = [] then false
        else appliesResume fs n { s with flow := f } rs.tail

lemma mControlDone_retention {old : Option Flow} (h : mControlDone p fs f rc = some (g, old)) :
    g.retention = if f.isLocal && acceptsResume f then f.retention.restore else f.retention := by
  unfold mControlDone mV2ControlDone at h
  simp only at h
  split at h
  · rename_i hkind
    have hret := Flow.retention_eq (mResumeApply_kept f (f.control.drop controlHeader))
    cases hl : f.isLocal with
    | false =>
      rw [if_neg (by simp [hl])] at h
      rw [Bool.false_and, if_neg Bool.false_ne_true]
      split at h
      · obtain ⟨rfl, -⟩ := Prod.mk.inj (Option.some.inj h)
        rfl
      split at h
      · obtain ⟨rfl, -⟩ := Prod.mk.inj (Option.some.inj h)
        rfl
      split at h
      · obtain ⟨rfl, -⟩ := Prod.mk.inj (Option.some.inj h)
        rfl
      · obtain ⟨rfl, -⟩ := Prod.mk.inj (Option.some.inj h)
        rfl
    | true =>
      rw [if_pos hl] at h
      rw [Bool.true_and]
      split at h
      · cases h
      rename_i k hk
      obtain ⟨rfl, -⟩ := Prod.mk.inj (Option.some.inj h)
      have hacc : acceptsResume f = true := by simp [acceptsResume, hkind, hk]
      rw [hk] at hret
      rw [if_pos hacc, ← hret]
      rfl
  · rename_i hkind
    have hacc : acceptsResume f = false := by simp [acceptsResume, hkind]
    simp only [hacc, Bool.and_false, Bool.false_eq_true, if_false]
    split at h
    · split at h
      · cases h
      · obtain ⟨rfl, -⟩ := Prod.mk.inj (Option.some.inj h)
        rfl
    split at h
    · cases h
    · obtain ⟨rfl, -⟩ := Prod.mk.inj (Option.some.inj h)
      split <;> rfl

lemma mControlDone_isSome
    (hl : f.isLocal = true) (ha : acceptsResume f = true) : mControlDone p fs f rc ≠ none := by
  obtain ⟨hkind, happly⟩ := Bool.and_eq_true_iff.mp ha
  unfold mControlDone mV2ControlDone
  rw [if_pos (of_decide_eq_true hkind), if_pos hl]
  cases hk : mResumeApply f (f.control.drop controlHeader) with
  | mk g ok =>
    rw [hk] at happly
    obtain rfl : ok = true := happly
    exact (by rintro ⟨⟩)

lemma mControlFinish_standing (fs : List Flow) (rc : ℤ) (flush : SendResult) (fin : Bool)
    (s : Side) : (mControlFinish fs rc flush fin s).1.standing =
      (if s.flow.isLocal && acceptsResume s.flow then s.flow.retention.restore
        else s.flow.retention, s.peer.terms) := by
  unfold mControlFinish
  split
  · rename_i hnone
    have hno : (s.flow.isLocal && acceptsResume s.flow) = false := by
      refine Bool.eq_false_iff.mpr fun h => ?_
      obtain ⟨hl, ha⟩ := Bool.and_eq_true_iff.mp h
      exact mControlDone_isSome hl ha hnone
    rw [hno, if_neg Bool.false_ne_true]
    rfl
  rename_i g old hg
  rw [← mControlDone_retention hg]
  simp only
  split
  · rfl
  · exact Side.standing_eq (mReplyFlush_kept _ _)

lemma mControlRead_standing (fs : List Flow) (rc : ℤ) (flush : SendResult) (n : ℕ) (s : Side)
    (rs : List RecvResult) : (mControlRead fs rc flush n s rs).1.standing =
      (if s.flow.isLocal && appliesResume fs n s rs then s.flow.retention.restore
        else s.flow.retention, s.peer.terms) := by
  induction n generalizing s rs with
  | zero => simp [mControlRead, appliesResume, Side.standing]
  | succ n ih =>
    rw [mControlRead, appliesResume]
    cases rs.headD .again with
    | again => simp [Side.standing]
    | error => simp [Side.standing, Side.abort, mAbort, Flow.retention]
    | data k fin =>
      simp only
      generalize received s.peer k (s.flow.controlNeed - s.flow.control.length) = bs
      generalize hg : (if (s.flow.control ++ bs).length = controlHeader ∧
          s.flow.controlNeed = controlHeader then
        mHeaderCheck (afterReceive s.peer k (s.flow.controlNeed - s.flow.control.length)) fs
          { s.flow with control := s.flow.control ++ bs }
        else some { s.flow with control := s.flow.control ++ bs }) = checked
      cases checked with
      | none =>
        simp only [Bool.and_false, Bool.false_eq_true, if_false]
        rfl
      | some g =>
        simp only
        have hret : g.retention = s.flow.retention := by
          split at hg
          · exact (Flow.retention_eq (mHeaderCheck_kept hg)).trans rfl
          · cases hg
            rfl
        have hl : g.isLocal = s.flow.isLocal := congrArg Retention.isLocal hret
        split
        · have hfin := mControlFinish_standing fs rc flush fin
            ⟨afterReceive s.peer k (s.flow.controlNeed - s.flow.control.length), g⟩
          simp only [hret, hl] at hfin
          exact hfin
        split
        · rename_i hfin
          simp only [hfin, true_or, if_true, Bool.and_false, Bool.false_eq_true, if_false]
          exact congrArg (·, _) hret
        rename_i hfin
        split
        · rename_i hnil
          simp only [hnil, or_true, if_true, Bool.and_false, Bool.false_eq_true, if_false]
          exact congrArg (·, _) hret
        rename_i hnil
        simp only [hfin, hnil, Bool.false_eq_true, or_false, if_false]
        have hrest := ih ⟨afterReceive s.peer k
          (s.flow.controlNeed - s.flow.control.length), g⟩ rs.tail
        simp only [hret, hl] at hrest
        exact hrest

/-- A read accepts the message or frame that restores the flow. -/
def streamRestores (s : Side) (rs : List RecvResult) (flush : SendResult) : Bool :=
  if s.flow.phase = .control then
    s.flow.isLocal && appliesResume [] 2 s rs ||
      (let r := mControlRead [] 0 flush 2 s rs
       r.1.flow.resuming && framesRead r.1 r.2.2)
  else s.flow.resuming && framesRead s rs

lemma Retention.confirm_eq_self {r : Retention} (h : r.resuming = false) : r.confirm = r := by
  rw [Retention.confirm, if_neg (by simp [h])]

/-- Frames on the stream, as a step. -/
lemma mV2Read_step (h : s.flow.resuming = true → framesRead s rs = true → restores) :
    Retention.Step s.peer.now deadline restores s.flow.retention (mV2Read s rs).flow.retention := by
  have hret : (mV2Read s rs).flow.retention = _ := congrArg Prod.fst (mV2Read_standing s rs)
  rw [hret]
  cases hf : framesRead s rs with
  | false => exact .same
  | true =>
    cases hres : s.flow.resuming with
    | false =>
      rw [if_pos rfl, Retention.confirm_eq_self hres]
      exact .same
    | true => exact .confirm (h hres hf)

lemma mStreamRead_frames {old : Option Flow}
    (h : s.flow.resuming = true → framesRead s rs = true → restores) :
    Retention.Step s.peer.now deadline restores s.flow.retention
      (if s.flow.phase = .active ∧ s.flow.protocol = protoTcp ∧ s.flow.wireVersion = 2 then
        (mV2Read s rs, old) else (s, old)).1.flow.retention := by
  split
  · exact mV2Read_step h
  · exact .same

/-- **A read on the flow.** -/
lemma mStreamRead_step (hr : s.flow.retention.Ok) (flush : SendResult)
    (rs : List RecvResult) : Retention.Step s.peer.now deadline (streamRestores s rs flush = true)
      s.flow.retention (mStreamRead [] 0 flush s rs).1.flow.retention := by
  rw [mStreamRead]
  by_cases hg : s.flow.stream = false ∨ s.flow.phase = .dead ∨ s.flow.closeRequested = true
  · rw [if_pos hg]
    exact .same
  rw [if_neg hg, streamRestores]
  by_cases hc : s.flow.phase = .control
  · simp only [if_pos hc]
    have hstand := mControlRead_standing [] 0 flush 2 s rs
    generalize mControlRead [] 0 flush 2 s rs = r at hstand ⊢
    obtain ⟨s₁, old, rs₁⟩ := r
    have hnow : s₁.peer.now = s.peer.now := congrArg (·.2.1) hstand
    have hret : s₁.flow.retention =
        if s.flow.isLocal && appliesResume [] 2 s rs then s.flow.retention.restore
        else s.flow.retention := congrArg Prod.fst hstand
    cases ha : s.flow.isLocal && appliesResume [] 2 s rs with
    | false =>
      rw [ha, if_neg Bool.false_ne_true] at hret
      rw [Bool.false_or, ← hret, ← hnow]
      exact mStreamRead_frames fun h1 h2 => by rw [h1, h2]; rfl
    | true =>
      rw [ha, if_pos rfl] at hret
      -- the flow is local, so there is nothing for a frame to confirm
      have hl : s.flow.isLocal = true := (Bool.and_eq_true_iff.mp ha).1
      have hnores : s₁.flow.resuming = false := by
        refine Bool.eq_false_iff.mpr fun hres => ?_
        have hres' : s.flow.resuming = true := (congrArg Retention.resuming hret).symm.trans hres
        cases hl.symm.trans (hr.resuming hres').1
      have hread : (mV2Read s₁ rs₁).flow.retention = s.flow.retention.restore := by
        have h : (mV2Read s₁ rs₁).flow.retention =
            if framesRead s₁ rs₁ then s₁.flow.retention.confirm else s₁.flow.retention :=
          congrArg Prod.fst (mV2Read_standing s₁ rs₁)
        rw [h, Retention.confirm_eq_self hnores, ite_self, hret]
      have hrestored : (if s₁.flow.phase = .active ∧ s₁.flow.protocol = protoTcp ∧
          s₁.flow.wireVersion = 2 then (mV2Read s₁ rs₁, old) else (s₁, old)).1.flow.retention =
          s.flow.retention.restore := by
        split
        · exact hread
        · exact hret
      rw [hrestored]
      exact .restore rfl hl
  · simp only [if_neg hc]
    exact mStreamRead_frames fun h1 h2 => by rw [h1, h2]; rfl

/-! ### Incoming streams -/

lemma mControlDone_old (h : mControlDone p fs f rc = some (g, some o)) :
    ∃ k ∈ fs, Retention.Step p.now deadline False k.retention o.retention := by
  unfold mControlDone mV2ControlDone at h
  simp only at h
  split at h
  · split at h
    · split at h
      · cases h
      · cases (Prod.mk.inj (Option.some.inj h)).2
    · split at h
      · cases (Prod.mk.inj (Option.some.inj h)).2
      · rename_i k hfind
        have hmem : k ∈ fs := List.mem_of_find?_eq_some hfind
        split at h
        · cases (Prod.mk.inj (Option.some.inj h)).2
        rename_i hres
        obtain ⟨hl, hs, -, -, -, hnow⟩ := not_not.mp hres
        have hret := Flow.retention_eq (mResumeApply_kept k (f.control.drop controlHeader))
        refine ⟨k, hmem, ?_⟩
        split at h
        · rename_i k' hk
          obtain rfl := Option.some.inj (Prod.mk.inj (Option.some.inj h)).2
          rw [hk] at hret
          rw [hret]
          exact .same
        rename_i k' hk
        obtain rfl := Option.some.inj (Prod.mk.inj (Option.some.inj h)).2
        rw [hk] at hret
        have hreb : (rebind p k').retention = k.retention.rebound := by
          rw [← hret]
          rfl
        rw [hreb]
        exact .rebound hl hs hnow
  · split at h
    · split at h
      · cases h
      · cases (Prod.mk.inj (Option.some.inj h)).2
    · split at h
      · cases h
      · cases (Prod.mk.inj (Option.some.inj h)).2

lemma mControlFinish_old {flush : SendResult} {fin : Bool}
    (h : (mControlFinish fs rc flush fin s).2 = some o) :
    ∃ k ∈ fs, Retention.Step s.peer.now deadline False k.retention o.retention := by
  unfold mControlFinish at h
  split at h
  · cases h
  rename_i g old hg
  simp only at h
  have hold : old = some o := by
    split at h
    · exact h
    · exact h
  rw [hold] at hg
  exact mControlDone_old hg

lemma mControlRead_old {flush : SendResult} {n : ℕ}
    (h : (mControlRead fs rc flush n s rs).2.1 = some o) :
    ∃ k ∈ fs, Retention.Step s.peer.now deadline False k.retention o.retention := by
  induction n generalizing s rs with
  | zero => cases h
  | succ n ih =>
    rw [mControlRead] at h
    split at h
    · cases h
    · cases h
    simp only at h
    split at h
    · cases h
    split at h
    · exact mControlFinish_old (s := ⟨afterReceive s.peer _ _, _⟩) h
    split at h
    · cases h
    · split at h
      · cases h
      · exact ih (s := ⟨afterReceive s.peer _ _, _⟩) h

/-- A read on an incoming flow. -/
lemma mStreamRead_old {flush : SendResult} (h : (mStreamRead fs rc flush s rs).2 = some o) :
    ∃ k ∈ fs, Retention.Step s.peer.now deadline False k.retention o.retention := by
  rw [mStreamRead] at h
  split at h
  · cases h
  by_cases hc : s.flow.phase = .control
  · simp only [if_pos hc] at h
    split at h
    · exact mControlRead_old h
    · exact mControlRead_old h
  simp only [if_neg hc] at h
  split at h
  · cases h
  · cases h

lemma mStreamRead_terms (fs : List Flow) (rc : ℤ) (flush : SendResult) (s : Side)
    (rs : List RecvResult) : (mStreamRead fs rc flush s rs).1.peer.terms = s.peer.terms := by
  have hread (t : Side) (ts : List RecvResult) : (mV2Read t ts).peer.terms = t.peer.terms :=
    congrArg Prod.snd (mV2Read_standing t ts)
  rw [mStreamRead]
  split
  · rfl
  by_cases hc : s.flow.phase = .control
  · simp only [if_pos hc]
    have hctl : (mControlRead fs rc flush 2 s rs).1.peer.terms = s.peer.terms :=
      congrArg Prod.snd (mControlRead_standing fs rc flush 2 s rs)
    split
    · exact (hread _ _).trans hctl
    · exact hctl
  simp only [if_neg hc]
  split
  · exact hread _ _
  · rfl

/-! ### Attempts -/

/-- The end of an attempt grants time once. -/
lemma suspendFlow_step {preserve : Bool} {now : ℕ} (h : 0 < deadline) (f : Flow) :
    Retention.Step now deadline restores f.retention
      (suspendFlow preserve deadline f).retention := by
  unfold suspendFlow
  simp only
  split
  · exact .same
  · exact .suspend h

lemma mStreamOpen_standing {t : Side} {created : Bool} (h : mStreamOpen s created = some t) :
    t.standing = s.standing := by
  unfold mStreamOpen at h
  split at h
  · cases h
  · cases h
    rfl

lemma mResumeOpen_standing (s : Side) (created : Bool) (flush : SendResult) :
    (mResumeOpen s created flush).1.standing = s.standing := by
  unfold mResumeOpen
  simp only
  split
  · rfl
  · rename_i t ht
    have hopen := mStreamOpen_standing ht
    exact (Side.standing_eq (mReplyFlush_kept t flush)).trans hopen

lemma mPendingOpen_standing (s : Side) (created : Bool) (flush : SendResult) :
    (mPendingOpen s created flush).1.standing = s.standing ∨
      (mPendingOpen s created flush).1.standing = (s.flow.retention.opened, s.peer.terms) := by
  unfold mPendingOpen
  split
  · exact .inl rfl
  simp only
  split
  · exact .inr rfl
  · rename_i t ht
    exact .inr ((Side.standing_eq (mReplyFlush_kept t flush)).trans (mStreamOpen_standing ht))

lemma failUnless_standing (r : Side × Bool) :
    (if r.2 then r.1 else r.1.transportFail).standing = r.1.standing := by
  split
  · rfl
  · exact Side.standing_eq (Side.transportFail_kept r.1)

lemma readyFlow_standing (s : Side) (created : Bool) (flush : SendResult) :
    (readyFlow s created flush).standing = s.standing ∨
      (s.flow.pendingOpen = true ∧
        (readyFlow s created flush).standing = (s.flow.retention.opened, s.peer.terms)) := by
  unfold readyFlow
  split
  · exact .inl rfl
  split
  · exact .inl rfl
  split
  · rename_i hp
    rw [failUnless_standing]
    exact (mPendingOpen_standing s created flush).imp_right fun h => ⟨hp, h⟩
  split
  · exact .inl rfl
  split
  · rw [failUnless_standing]
    exact .inl (mResumeOpen_standing s created flush)
  · exact .inl rfl

/-- A new connection grants no time. -/
lemma markReady_standing (s : Side) (created : Bool) (flush : SendResult) :
    (markReady s created flush).standing = s.standing ∨
      (s.flow.pendingOpen = true ∧
        (markReady s created flush).standing = (s.flow.retention.opened, s.peer.terms)) := by
  unfold markReady
  split
  · exact .inl rfl
  have hready := readyFlow_standing
    { s with peer := { s.peer with ready := true, proofReady := true } } created flush
  simp only
  split
  · exact hready
  · exact hready

end OhecoBroker.Mapping
