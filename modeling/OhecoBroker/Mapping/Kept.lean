/-
What most functions leave alone in a flow: its history, and what decides how long it is retained.

* `Composes`: relations that hold of one function after another; `Composes.writeFrame`,
  `Composes.readLoop`, `Composes.tick` and their like take them from the parts of a function to
  the whole;
* `Flow.history`, `Retention`, `Flow.kept`, `Side.kept`, `Side.standing`: what is kept;
* `xqcStreamSend_kept`, `mReplyFlush_kept`, `mV2ReadPayload_kept`, `mResumeApply_kept`:
  notifications, sending, receiving and control messages.
-/
import OhecoBroker.Mapping.Recovery

namespace OhecoBroker.Mapping

open Lib

/-! ### Functions made of others -/

/-- A relation between the sides before and after a function, which holds when nothing is
done and of one function after another. -/
structure Composes (R : Side → Side → Prop) : Prop where
  refl : ∀ s, R s s
  trans : ∀ {s t u}, R s t → R t u → R s u

section Composes

variable {R : Side → Side → Prop}

/-- What the parts of a frame keep, the frame keeps. -/
lemma Composes.writeFrame (hR : Composes R) (hheader : ∀ s r, R s (mV2WriteHeader s r).1)
    (hpayload : ∀ s r, R s (mV2WritePayload s r).1)
    (hdone : ∀ s : Side, R s { s with flow := (mV2Complete s.flow).1 }) (s : Side)
    (r : FrameSends) : R s (mV2WriteFrame s r).1 := by
  obtain ⟨s₁, go, hs₁, hfirst⟩ : ∃ s₁ go,
      (if s.flow.outPos < frameHeader then mV2WriteHeader s r.header else (s, true)) =
        (s₁, go) ∧ R s s₁ := by
    split
    · exact ⟨_, _, rfl, hheader s _⟩
    · exact ⟨_, _, rfl, hR.refl s⟩
  obtain ⟨s₂, go₂, hs₂, hsecond⟩ : ∃ s₂ go₂,
      (if s₁.flow.outKind = some .data ∧ s₁.flow.outOffset < s₁.flow.outEnd then
        mV2WritePayload s₁ r.payload else (s₁, true)) = (s₂, go₂) ∧ R s₁ s₂ := by
    split
    · exact ⟨_, _, rfl, hpayload s₁ _⟩
    · exact ⟨_, _, rfl, hR.refl s₁⟩
  simp only [mV2WriteFrame, hs₁, hs₂]
  split
  · exact hfirst
  · split
    · exact hR.trans hfirst hsecond
    · exact hR.trans (hR.trans hfirst hsecond) (hdone s₂)

/-- `m_v2_write`: frames are chosen and sent. -/
lemma Composes.writeCalls (hR : Composes R)
    (hnext : ∀ s : Side, R s { s with flow := mV2Next s.flow })
    (hframe : ∀ s r, R s (mV2WriteFrame s r).1) (n : ℕ) (s : Side) (rs : List FrameSends) :
    R s (mV2WriteCalls n s rs) := by
  induction n generalizing s rs with
  | zero => exact hR.refl s
  | succ n ih =>
    rw [mV2WriteCalls]
    split
    · exact hR.refl s
    simp only
    split
    · exact hnext s
    have hsent := hR.trans (hnext s) (hframe _ (rs.headD {}))
    split
    · exact hR.trans hsent (ih _ _)
    · exact hsent

/-- The loop of `m_v2_read`, pass by pass. -/
lemma Composes.readLoop (hR : Composes R) (hheader : ∀ s r, R s (mV2ReadHeader s r).1)
    (hpayload : ∀ s r, R s (mV2ReadPayload s r).1) (n : ℕ) (s : Side) (rs : List RecvResult) :
    R s (mV2ReadLoop n s rs) := by
  induction n generalizing s rs with
  | zero => exact hR.refl s
  | succ n ih =>
    -- the second half of a pass, and what follows it
    have hpay {s : Side} {rs : List RecvResult} {r : Side × ReadNext}
        (hs : mV2ReadPayload s (rs.headD .again) = r) :
        R s (mV2ReadLoop n r.1 rs.tail) ∧ R s r.1 := by
      have hread := hpayload s (rs.headD .again)
      rw [hs] at hread
      exact ⟨hR.trans hread (ih _ _), hread⟩
    rw [mV2ReadLoop]
    split
    · have hread := hheader s (rs.headD .again)
      split
      · rename_i s' hs
        rwa [hs] at hread
      · rename_i s' hs
        rw [hs] at hread
        exact hR.trans hread (ih _ _)
      rename_i s' hs
      rw [hs] at hread
      split
      · rename_i hs'
        exact hR.trans hread (hpay hs').1
      · rename_i hs'
        exact hR.trans hread (hpay hs').2
    split
    · rename_i hs
      exact (hpay hs).1
    · rename_i hs
      exact (hpay hs).2

lemma Composes.read (hR : Composes R) (hheader : ∀ s r, R s (mV2ReadHeader s r).1)
    (hpayload : ∀ s r, R s (mV2ReadPayload s r).1) (s : Side) (rs : List RecvResult) :
    R s (mV2Read s rs) := by
  unfold mV2Read
  split
  · exact hR.refl s
  · exact hR.readLoop hheader hpayload 32 s rs

/-- `m_v2_tick`: a socket write, the half-close, a socket read and the frames. -/
lemma Composes.tick (hR : Composes R) (habort : ∀ s, R s s.abort) {env : TickEnv}
    (hsend : ∀ {s : Side} {f}, mV2TickSend s.flow env = some f → R s { s with flow := f })
    (hshut : ∀ {s : Side} {f}, mV2TickShut s.flow env = some f → R s { s with flow := f })
    (hrecv : ∀ s, R s (mV2TickRecv s env).1) (hwrite : ∀ s, R s (mV2Write s env.writes))
    (s : Side) : R s (mV2Tick s env) := by
  unfold mV2Tick
  split
  · exact hR.refl s
  split
  · exact habort s
  split
  · exact habort s
  rename_i f hf
  have hsent := hsend hf
  split
  · exact hR.trans hsent (habort _)
  rename_i g hg
  have hread := hR.trans (hR.trans hsent (hshut (s := { s with flow := f }) hg))
    (hrecv { s with flow := g })
  split
  · rename_i s' hs
    rwa [hs] at hread
  rename_i s' hs
  rw [hs] at hread
  have hwritten := hR.trans hread (hwrite s')
  simp only
  split
  · exact hR.trans hwritten (habort _)
  · exact hwritten

/-- `m_reply_flush`: a control message is out, and the flow becomes active or ends. -/
lemma Composes.replyFlush (hR : Composes R) (habort : ∀ s, R s s.abort)
    (hsend : ∀ s r, R s (mReplySend s r).1)
    (hactive : ∀ s : Side, s.flow.phase = .reply →
      R s { s with flow := { s.flow with acked := true, phase := .active } })
    (s : Side) (r : SendResult) : R s (mReplyFlush s r) := by
  obtain ⟨s₁, done, hs₁, hsent⟩ : ∃ s₁ done,
      (if s.flow.replyPos < s.flow.reply.length then mReplySend s r else (s, true)) = (s₁, done) ∧
      R s s₁ := by
    split
    · exact ⟨_, _, rfl, hsend s r⟩
    · exact ⟨_, _, rfl, hR.refl s⟩
  unfold mReplyFlush
  split
  · exact hR.refl s
  simp only [hs₁]
  split
  · rename_i hreply
    split
    · exact hR.trans hsent (habort s₁)
    · exact hR.trans hsent (hactive s₁ hreply.2)
  · exact hsent

end Composes

/-! ### What is kept -/

/-- What the sockets and streams of a flow have seen. -/
def Flow.history (f : Flow) : List UInt8 × Bool × List UInt8 × Bool × ℕ × ℕ :=
  (f.sockRead, f.socketEof, f.sockWritten, f.sockShut, f.txSentHigh, f.sentMax)

/-- What decides how long a flow is retained. -/
structure Retention where
  isLocal : Bool
  suspended : Bool
  pendingOpen : Bool
  resuming : Bool
  graceDeadlineUs : ℕ
  deriving DecidableEq

def Flow.retention (f : Flow) : Retention :=
  ⟨f.isLocal, f.suspended, f.pendingOpen, f.resuming, f.graceDeadlineUs⟩

/-- History and retention together. -/
def Flow.kept (f : Flow) : (List UInt8 × Bool × List UInt8 × Bool × ℕ × ℕ) × Retention :=
  (f.history, f.retention)

/-- The clock and the policy. -/
def Peer.terms (p : Peer) : ℕ × ℕ := (p.now, p.flowGraceMs)

/-- What changes neither history nor retention keeps this. -/
def Side.kept (s : Side) : ((List UInt8 × Bool × List UInt8 × Bool × ℕ × ℕ) × Retention) × ℕ × ℕ :=
  (s.flow.kept, s.peer.terms)

/-- What does not change retention keeps this. -/
def Side.standing (s : Side) : Retention × ℕ × ℕ := (s.flow.retention, s.peer.terms)

variable {f g : Flow} {s : Side}

lemma Side.kept_composes : Composes fun s t => t.kept = s.kept :=
  ⟨fun _ => rfl, fun h h' => h'.trans h⟩

lemma Flow.history_eq (h : f.kept = g.kept) : f.history = g.history :=
  congrArg Prod.fst h

lemma Flow.retention_eq (h : f.kept = g.kept) : f.retention = g.retention :=
  congrArg Prod.snd h

lemma Side.history_eq {t : Side} (h : s.kept = t.kept) : s.flow.history = t.flow.history :=
  congrArg (·.1.1) h

lemma Side.standing_eq {t : Side} (h : s.kept = t.kept) : s.standing = t.standing :=
  Prod.ext (congrArg (·.1.2) h) (congrArg (·.2) h)

/-! ### Failures and notifications -/

@[simp] lemma peerTransportFail_terms (p : Peer) : (peerTransportFail p).terms = p.terms := by
  unfold peerTransportFail
  split_ifs <;> rfl

@[simp] lemma Side.fail_kept (s : Side) : s.fail.kept = s.kept := rfl

@[simp] lemma Side.transportFail_kept (s : Side) : s.transportFail.kept = s.kept :=
  congrArg (s.flow.kept, ·) (peerTransportFail_terms s.peer)

lemma Callback.call_kept (c : Callback) (s : Side) : (c.call s).kept = s.kept := by
  cases c with
  | connClosing =>
    simp only [Callback.call, Peer.connClosing]
    split
    · exact s.transportFail_kept
    · rfl
  | connClose =>
    simp only [Callback.call, Peer.connClose]
    split
    · rfl
    · split
      · exact Side.transportFail_kept ⟨{ s.peer with conn := false }, s.flow⟩
      · rfl
  | streamClose =>
    simp only [Callback.call, mClose]
    split_ifs <;> rfl
  | streamReset =>
    simp only [Callback.call, mReset]
    split_ifs <;> rfl

@[simp] lemma callbacks_kept (s : Side) (cs : List Callback) : (callbacks s cs).kept = s.kept := by
  induction cs generalizing s with
  | nil => rfl
  | cons c cs ih => exact (ih (c.call s)).trans (c.call_kept s)

/-! ### Sending -/

@[simp] lemma xqcStreamSend_kept (s : Side) (bs : List UInt8) (r : SendResult) :
    (xqcStreamSend s bs r).1.kept = s.kept := by
  unfold xqcStreamSend
  split
  · exact callbacks_kept _ _
  · exact callbacks_kept _ _

lemma xqcStreamSend_kept_of {s' : Side} {bs : List UInt8} {r : SendResult} {ret : SendRet}
    (h : xqcStreamSend s bs r = (s', ret)) : s'.kept = s.kept := by
  rw [← xqcStreamSend_kept s bs r, h]

lemma mV2Next_kept (f : Flow) : (mV2Next f).kept = f.kept := by
  unfold mV2Next
  split_ifs <;> rfl

@[simp] lemma mV2WriteHeader_kept (s : Side) (r : SendResult) :
    (mV2WriteHeader s r).1.kept = s.kept := by
  unfold mV2WriteHeader
  split
  · rename_i s' hs
    exact xqcStreamSend_kept_of hs
  · rename_i s' hs
    exact (Side.transportFail_kept s').trans (xqcStreamSend_kept_of hs)
  rename_i s' n hs
  have hkept := xqcStreamSend_kept_of hs
  split
  · exact hkept
  · exact hkept

@[simp] lemma mReplySend_kept (s : Side) (r : SendResult) :
    (mReplySend s r).1.kept = s.kept := by
  unfold mReplySend
  split
  · rename_i s' hs
    exact xqcStreamSend_kept_of hs
  · rename_i s' hs
    have hkept := xqcStreamSend_kept_of hs
    split
    · exact (Side.transportFail_kept s').trans hkept
    · exact hkept
  rename_i s' n hs
  have hkept := xqcStreamSend_kept_of hs
  split
  · exact hkept
  · exact hkept

@[simp] lemma mReplyFlush_kept (s : Side) (r : SendResult) :
    (mReplyFlush s r).kept = s.kept :=
  Side.kept_composes.replyFlush (fun _ => rfl) mReplySend_kept (fun _ _ => rfl) s r

/-! ### Receiving -/

/-- An acknowledgement changes the send window alone. -/
lemma mV2Ack_eq {offset flags : ℕ} (h : mV2Ack f offset flags = some g) : ∃ tx pos base acked,
    g = { f with tx := tx, txPos := pos, txBase := base, txFinAcked := acked } := by
  unfold mV2Ack at h
  simp only at h
  split_ifs at h <;>
    exact ⟨_, _, _, _, (Option.some.inj h).symm⟩

/-- An accepted frame header changes what it says, and confirms the stream. -/
lemma mV2Header_eq (h : mV2Header f = some g) :
    ∃ kind flags size offset tx pos base acked fin final, g = confirmResume { f with
      inKind := kind, inFlags := flags, inSize := size, inOffset := offset, inPos := 0
      tx := tx, txPos := pos, txBase := base, txFinAcked := acked
      rxFin := fin, rxFinal := final } := by
  unfold mV2Header at h
  simp only at h
  split at h
  · cases h
  split at h
  · cases h
  split at h
  · obtain ⟨k, hk, rfl⟩ := Option.map_eq_some_iff.mp h
    obtain ⟨tx, pos, base, acked, rfl⟩ := mV2Ack_eq hk
    exact ⟨_, _, _, _, tx, pos, base, acked, f.rxFin, f.rxFinal, rfl⟩
  · split at h
    · cases h
    · exact ⟨_, _, _, _, f.tx, f.txPos, f.txBase, f.txFinAcked, _, _, (Option.some.inj h).symm⟩
  split at h
  · cases h
  · exact ⟨_, _, _, _, f.tx, f.txPos, f.txBase, f.txFinAcked, f.rxFin, f.rxFinal,
      (Option.some.inj h).symm⟩

lemma mV2Ack_kept {offset flags : ℕ} (h : mV2Ack f offset flags = some g) : g.kept = f.kept := by
  obtain ⟨tx, pos, base, acked, rfl⟩ := mV2Ack_eq h
  rfl

lemma mV2Compact_kept (f : Flow) : (mV2Compact f).kept = f.kept := by
  unfold mV2Compact
  split <;> rfl

lemma mV2Advance_kept (f : Flow) (n : ℕ) :
    (mV2Advance f n).kept = f.kept := by
  unfold mV2Advance
  simp only
  split <;> rfl

@[simp] lemma mV2ReadPayload_kept (s : Side) (r : RecvResult) :
    (mV2ReadPayload s r).1.kept = s.kept := by
  unfold mV2ReadPayload
  simp only
  split
  · rfl
  have hkept : (if s.flow.inOffset + s.flow.inPos = s.flow.rxNext then
      { s with flow := mV2Compact s.flow } else s).kept = s.kept := by
    split
    · exact congrArg (·, s.peer.terms) (mV2Compact_kept s.flow)
    · rfl
  generalize (if s.flow.inOffset + s.flow.inPos = s.flow.rxNext then
      { s with flow := mV2Compact s.flow } else s) = s₁ at *
  split
  · exact hkept
  split
  · exact hkept
  · exact hkept
  split
  · exact hkept
  split
  · exact hkept
  split
  · exact (congrArg (·, _) (mV2Advance_kept _ _)).trans hkept
  · split
    · exact hkept
    · exact (congrArg (·, _) (mV2Advance_kept _ _)).trans hkept

/-! ### Sockets and control messages -/

lemma drained_kept (f : Flow) : (drained f).kept = f.kept := by
  unfold drained
  split <;> rfl

lemma mHeaderCheck_kept {p : Peer} {fs : List Flow}
    (h : mHeaderCheck p fs f = some g) : g.kept = f.kept := by
  unfold mHeaderCheck at h
  simp only at h
  split_ifs at h <;>
    (obtain rfl := Option.some.inj h; rfl)

lemma mResumeApply_kept (f : Flow) (body : List UInt8) :
    (mResumeApply f body).1.kept = f.kept := by
  unfold mResumeApply
  simp only
  split
  · rfl
  split
  · rfl
  · rename_i g hg
    have hkept := mV2Ack_kept hg
    exact hkept

end OhecoBroker.Mapping
