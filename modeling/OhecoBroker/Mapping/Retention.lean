/-
What decides how long a flow is retained, and what one step can do to it.

* `Retention.suspend`, `Retention.rebound`, `Retention.restore`: the changes of the record;
* `Retention.Step`, `Retention.Ok`: one step, and what holds of every flow;
* `Retention.Step.retained`, `Retention.Step.granted`: a step that does not restore a retained
  flow keeps it retained, with no later deadline;
* `mV2WriteCalls_standing`, `mV2Tick_standing`: sends and socket calls leave it alone.
-/
import OhecoBroker.Mapping.Kept

namespace OhecoBroker.Mapping

open Lib

/-! ### Retention -/

namespace Retention

/-- The flow waits for a new stream, or for the first frame on it. -/
def Retained (r : Retention) : Prop :=
  (r.suspended = true ∧ r.pendingOpen = false) ∨ r.resuming = true

instance (r : Retention) : Decidable r.Retained := inferInstanceAs (Decidable (_ ∨ _))

/-- After the first frame on a rebound stream. -/
def confirm (r : Retention) : Retention :=
  if r.resuming then { r with resuming := false, graceDeadlineUs := 0 } else r

/-- After a `RESUME_ACK`. -/
def restore (r : Retention) : Retention :=
  { r with suspended := false, graceDeadlineUs := 0 }

/-- After the end of an attempt that grants time until `deadline`. -/
def suspend (r : Retention) (deadline : ℕ) : Retention :=
  { r with
    suspended := true, resuming := false
    graceDeadlineUs :=
      if r.graceDeadlineUs = 0 ∨ deadline < r.graceDeadlineUs then deadline
      else r.graceDeadlineUs }

/-- After `OPEN` was sent for a flow that was accepted during an outage. -/
def opened (r : Retention) : Retention :=
  { r with pendingOpen := false, suspended := false, graceDeadlineUs := 0 }

/-- After a `RESUME` was accepted. -/
def rebound (r : Retention) : Retention := { r with suspended := false, resuming := true }

@[simp] lemma confirm_confirm (r : Retention) : r.confirm.confirm = r.confirm := by
  unfold confirm
  split <;> simp

/-- What a step at time `now` does, when an outage grants time until `deadline`. -/
inductive Step (now deadline : ℕ) (restores : Prop) (r : Retention) : Retention → Prop
  | same : Step now deadline restores r r
  | confirm (h : restores) : Step now deadline restores r r.confirm
  | restore (h : restores) (hl : r.isLocal = true) : Step now deadline restores r r.restore
  | suspend (h : 0 < deadline) : Step now deadline restores r (r.suspend deadline)
  | opened (h : r.pendingOpen = true) : Step now deadline restores r r.opened
  | rebound (hl : r.isLocal = false) (hs : r.suspended = true) (h : now < r.graceDeadlineUs) :
      Step now deadline restores r r.rebound

/-- What holds of every flow. -/
structure Ok (r : Retention) : Prop where
  grace : r.Retained → 0 < r.graceDeadlineUs
  resuming : r.resuming = true → r.isLocal = false ∧ r.suspended = false
  pending : r.pendingOpen = true → r.isLocal = true

variable {now deadline : ℕ} {restores : Prop} {r r' : Retention}

/-- Every step keeps what holds of a flow. -/
lemma Step.ok (h : Step now deadline restores r r') (hr : r.Ok) : r'.Ok := by
  cases h with
  | same => exact hr
  | confirm h =>
    unfold Retention.confirm
    split
    · rename_i hres
      refine ⟨?_, (by rintro ⟨⟩), hr.pending⟩
      rintro (⟨hs, -⟩ | h)
      · cases hs.symm.trans (hr.resuming hres).2
      · cases h
    · exact hr
  | restore h hl =>
    refine ⟨?_, fun hres => ⟨(hr.resuming hres).1, rfl⟩, hr.pending⟩
    rintro (⟨hs, -⟩ | hres)
    · cases hs
    · cases hl.symm.trans (hr.resuming hres).1
  | suspend h =>
    refine ⟨fun _ => ?_, (by rintro ⟨⟩), hr.pending⟩
    simp only [Retention.suspend]
    split <;> omega
  | opened h =>
    refine ⟨?_, fun hres => ⟨(hr.resuming hres).1, rfl⟩, (by rintro ⟨⟩)⟩
    rintro (⟨hs, -⟩ | hres)
    · cases hs
    · cases (hr.pending h).symm.trans (hr.resuming hres).1
  | rebound hl hs h =>
    refine ⟨fun _ => ?_, fun _ => ⟨hl, rfl⟩, hr.pending⟩
    exact Nat.zero_lt_of_lt h

lemma Step.retained (h : Step now deadline restores r r') (hr : r.Ok) (hret : r.Retained)
    (hno : ¬restores) : r'.Retained ∧ r'.graceDeadlineUs ≤ r.graceDeadlineUs := by
  have hpos := hr.grace hret
  cases h with
  | same => exact ⟨hret, le_rfl⟩
  | confirm h => exact absurd h hno
  | restore h hl => exact absurd h hno
  | suspend h =>
    refine ⟨?_, ?_⟩
    · rcases hret with ⟨-, hp⟩ | hres
      · exact .inl ⟨rfl, hp⟩
      · -- a flow that was rebound is not one that waits to be opened
        refine .inl ⟨rfl, Bool.eq_false_iff.mpr fun hp => ?_⟩
        cases (hr.pending hp).symm.trans (hr.resuming hres).1
    · simp only [Retention.suspend]
      split <;> omega
  | opened h =>
    rcases hret with ⟨-, hp⟩ | hres
    · cases h.symm.trans hp
    · cases (hr.pending h).symm.trans (hr.resuming hres).1
  | rebound hl hs h => exact ⟨.inr rfl, le_rfl⟩

lemma Step.granted (h : Step now deadline restores r r') (hr : r.Ok) (hno : ¬r.Retained)
    (hret : r'.Retained) : r'.graceDeadlineUs ≤ deadline := by
  cases h with
  | same => exact absurd hret hno
  | confirm h =>
    unfold Retention.confirm at hret ⊢
    split at hret
    · rename_i hres
      exact absurd (.inr hres) hno
    · exact absurd hret hno
  | restore h hl =>
    rcases hret with ⟨hs, -⟩ | hres
    · cases hs
    · exact absurd (.inr hres) hno
  | suspend h =>
    simp only [Retention.suspend]
    split <;> omega
  | opened h =>
    rcases hret with ⟨hs, -⟩ | hres
    · cases hs
    · exact absurd (.inr hres) hno
  | rebound hl hs h =>
    refine absurd (.inl ⟨hs, Bool.eq_false_iff.mpr fun hp => ?_⟩) hno
    cases hl.symm.trans (hr.pending hp)

lemma Step.mono {restores' : Prop} (h : Step now deadline restores r r')
    (hr : restores → restores') : Step now deadline restores' r r' := by
  cases h with
  | same => exact .same
  | confirm h => exact .confirm (hr h)
  | restore h hl => exact .restore (hr h) hl
  | suspend h => exact .suspend h
  | opened h => exact .opened h
  | rebound hl hs h => exact .rebound hl hs h

lemma Step.resuming (h : Step now deadline restores r r') (hnow : r.graceDeadlineUs ≤ now)
    (hres : r'.resuming = true) : r.resuming = true := by
  cases h with
  | same => exact hres
  | confirm h =>
    unfold Retention.confirm at hres
    split at hres
    · cases hres
    · exact hres
  | restore h hl => exact hres
  | suspend h => cases hres
  | opened h => exact hres
  | rebound hl hs h => omega

end Retention

/-! ### Sending and sockets -/

lemma Side.standing_composes : Composes fun s t => t.standing = s.standing :=
  ⟨fun _ => rfl, fun h h' => h'.trans h⟩

lemma mV2WritePayload_standing (s : Side) (r : SendResult) :
    (mV2WritePayload s r).1.standing = s.standing := by
  unfold mV2WritePayload
  simp only
  split
  · rfl
  split
  · rename_i s' hs
    exact Side.standing_eq (xqcStreamSend_kept_of hs)
  · rename_i s' hs
    exact Side.standing_eq ((Side.transportFail_kept s').trans (xqcStreamSend_kept_of hs))
  rename_i s' n hs
  have hstand := Side.standing_eq (xqcStreamSend_kept_of hs)
  split
  · exact hstand
  · exact hstand

/-- `m_v2_write` grants no time. -/
lemma mV2WriteCalls_standing (n : ℕ) (s : Side) (rs : List FrameSends) :
    (mV2WriteCalls n s rs).standing = s.standing :=
  Side.standing_composes.writeCalls
    (fun s => congrArg (·, s.peer.terms) (Flow.retention_eq (mV2Next_kept s.flow)))
    (Side.standing_composes.writeFrame (fun s r => Side.standing_eq (mV2WriteHeader_kept s r))
      mV2WritePayload_standing fun _ => rfl) n s rs

lemma mV2TickSend_retention {f g : Flow} {env : TickEnv} (h : mV2TickSend f env = some g) :
    g.retention = f.retention := by
  unfold mV2TickSend at h
  split at h
  · simp only at h
    split at h
    · cases h
    · cases h
      exact Flow.retention_eq (drained_kept f)
    · cases h
      exact Flow.retention_eq (drained_kept f)
    · cases h
      exact (Flow.retention_eq (drained_kept _)).trans rfl
  · cases h
    rfl

lemma mV2TickShut_retention {f g : Flow} {env : TickEnv} (h : mV2TickShut f env = some g) :
    g.retention = f.retention := by
  unfold mV2TickShut at h
  split_ifs at h <;> (obtain rfl := Option.some.inj h; rfl)

lemma mV2TickRecv_standing (s : Side) (env : TickEnv) :
    (mV2TickRecv s env).1.standing = s.standing := by
  unfold mV2TickRecv
  simp only
  split
  · split
    · rfl
    · rfl
    · split_ifs <;> rfl
  · rfl

/-- `m_v2_tick` grants no time. -/
lemma mV2Tick_standing (s : Side) (env : TickEnv) : (mV2Tick s env).standing = s.standing :=
  Side.standing_composes.tick (fun _ => rfl)
    (fun h => congrArg (·, _) (mV2TickSend_retention h))
    (fun h => congrArg (·, _) (mV2TickShut_retention h)) (mV2TickRecv_standing · env)
    (mV2WriteCalls_standing 2 · env.writes) s

end OhecoBroker.Mapping
