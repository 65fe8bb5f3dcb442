/-
The record of a version 2 flow is consistent, whatever the other side sends.

* `Core`, `Record`, `Recorded`: the offsets, windows and frames of a flow, and how they fit;
* `Record.resume`, `Record.refuse`: snapshots;
* `Record.writeFrame`, `Recorded.writeCalls`: sending, with a replay range that is valid;
* `Record.header`, `Record.readPayload`, `Record.readLoop`: receiving;
* `Recorded.tick`, `Endpoint.event_record`: the socket, and every event;
* `record_consistent`: **in every run** a flow that was not aborted has a consistent record, no
  counter passes the last 64-bit value, and the branch for an invalid replay range is never taken.
-/
import OhecoBroker.Mapping.Grace
import OhecoBroker.Mapping.Sockets

namespace OhecoBroker.Mapping

open Lib List

/-! ### The record -/

/-- The offsets, windows and frames of a flow. -/
structure Core where
  tx : List UInt8
  txPos : ℕ
  txBase : ℕ
  txSentHigh : ℕ
  txFinal : ℕ
  socketEof : Bool
  txFinAcked : Bool
  rx : List UInt8
  rxPos : ℕ
  rxCommit : ℕ
  rxNext : ℕ
  rxFinal : ℕ
  rxFin : Bool
  inFrame : List UInt8
  inSize : ℕ
  inPos : ℕ
  inOffset : ℕ
  outKind : Option FrameKind
  outOffset : ℕ
  outEnd : ℕ
  suspended : Bool

def Flow.core (f : Flow) : Core where
  tx := f.tx
  txPos := f.txPos
  txBase := f.txBase
  txSentHigh := f.txSentHigh
  txFinal := f.txFinal
  socketEof := f.socketEof
  txFinAcked := f.txFinAcked
  rx := f.rx
  rxPos := f.rxPos
  rxCommit := f.rxCommit
  rxNext := f.rxNext
  rxFinal := f.rxFinal
  rxFin := f.rxFin
  inFrame := f.inFrame
  inSize := f.inSize
  inPos := f.inPos
  inOffset := f.inOffset
  outKind := f.outKind
  outOffset := f.outOffset
  outEnd := f.outEnd
  suspended := f.suspended

namespace Core

/-- The bytes read from the socket and not acknowledged. -/
structure Window (c : Core) : Prop where
  pos : c.txPos ≤ c.tx.length
  room : c.tx.length ≤ streamBuffer
  sent : c.txBase ≤ c.txSentHigh ∧ c.txSentHigh ≤ c.txBase + c.tx.length
  max : c.txBase + c.tx.length ≤ uint64Max
  final : c.socketEof = true → c.txFinal = c.txBase + c.tx.length
  acked : c.txFinAcked = true → c.socketEof = true

/-- The `DATA` frame that is partly sent lies in the window. -/
structure Sends (c : Core) : Prop where
  frame : c.outKind = some .data → c.outOffset = c.txBase + c.txPos ∧
    c.outOffset ≤ c.outEnd ∧ c.outEnd ≤ c.txBase + c.tx.length
  quiet : c.suspended = true → c.outKind = none

/-- The receiving half: the buffer, the end and the frame that is partly read. -/
structure Receives (c : Core) : Prop where
  pos : c.rxPos ≤ c.rx.length
  room : c.rx.length ≤ streamBuffer
  next : c.rxNext = c.rxCommit + (c.rx.length - c.rxPos)
  max : c.rxNext ≤ uint64Max
  fin : c.rxFin = true → c.rxNext ≤ c.rxFinal ∧ c.rxFinal ≤ uint64Max
  frame : frameHeader ≤ c.inFrame.length → c.inPos ≤ c.inSize ∧
    c.inOffset + c.inSize ≤ uint64Max ∧ (c.rxFin = true → c.inOffset + c.inSize ≤ c.rxFinal)

end Core

/-- The record of a flow is consistent. -/
structure Record (f : Flow) : Prop where
  window : f.core.Window
  sends : f.core.Sends
  receives : f.core.Receives

/-- Aborted, or with a consistent record. -/
def Recorded (f : Flow) : Prop := (f.phase = .dead ∧ f.fd = false) ∨ Record f

variable {f g : Flow} {offset flags : ℕ} {s : Side} {fs : List Flow} {e : Endpoint}

lemma Recorded.record (h : Recorded f) (hp : f.phase ≠ .dead) : Record f :=
  h.resolve_left fun hd => hp hd.1

lemma Record.congr (h : Record f) (hc : g.core = f.core) : Record g :=
  ⟨hc ▸ h.window, hc ▸ h.sends, hc ▸ h.receives⟩

lemma recorded_abort (f : Flow) : Recorded (mAbort f) := .inl ⟨rfl, rfl⟩

/-! ### Acknowledgements and snapshots -/

lemma mV2Ack_consumed (h : mV2Ack f offset flags = some g) :
    ∃ consumed, consumed ≤ f.txPos ∧ (consumed = 0 ∨ f.txBase + consumed ≤ f.txSentHigh) ∧
      (flags ≠ 0 → f.socketEof = true) ∧ g = { f with
        tx := f.tx.drop consumed, txPos := f.txPos - consumed, txBase := f.txBase + consumed
        txFinAcked := f.txFinAcked || flags != 0 } := by
  unfold mV2Ack at h
  simp only at h
  split_ifs at h with h1 h2 h3 h4
  all_goals obtain rfl := Option.some.inj h
  all_goals
    have hfin : flags ≠ 0 → f.socketEof = true := by
      intro hne
      by_contra heof
      exact h2 ⟨hne, .inl (by simpa using heof)⟩
  · have hsum : f.txBase + (offset - f.txBase) = offset := by omega
    exact ⟨offset - f.txBase, by omega, .inr (by omega), hfin, by rw [hsum]⟩
  · exact ⟨0, Nat.zero_le _, .inl rfl, hfin, rfl⟩

lemma Core.Window.ack (h : f.core.Window)
    (hg : mV2Ack f offset flags = some g) : g.core.Window := by
  obtain ⟨hpos, hroom, hsent, hmax, hfinal, hacked⟩ := h
  simp only [Flow.core] at hpos hroom hsent hmax hfinal hacked
  obtain ⟨consumed, hle, hhigh, hfin, rfl⟩ := mV2Ack_consumed hg
  constructor
  all_goals simp only [Flow.core, length_drop]
  · omega
  · omega
  · omega
  · omega
  · intro heof
    have := hfinal heof
    omega
  · intro hor
    rcases Bool.or_eq_true_iff.mp hor with hor | hor
    · exact hacked hor
    · exact hfin (by simpa using hor)

lemma Core.Sends.ack (h : f.core.Sends) (hpos : f.txPos ≤ f.tx.length)
    (hg : mV2Ack f offset flags = some g) : g.core.Sends := by
  obtain ⟨consumed, hle, -, -, rfl⟩ := mV2Ack_consumed hg
  refine ⟨fun hk => ?_, h.quiet⟩
  have hframe := h.frame hk
  simp only [Flow.core, length_drop] at hframe ⊢
  omega

lemma Record.resume (h : Record f) {body : List UInt8}
    (hg : mResumeApply f body = (g, true)) : Record g := by
  unfold mResumeApply at hg
  simp only at hg
  split at hg
  · cases hg
  rename_i hvalid
  split at hg
  · cases hg
  rename_i k hk
  -- the window is acknowledged as if all of it had been sent
  have hwindow : k.core.Window := Core.Window.ack (f := { f with txPos := f.tx.length })
    { h.window with pos := le_rfl } hk
  obtain ⟨consumed, -, -, -, rfl⟩ := mV2Ack_consumed hk
  obtain rfl := congrArg Prod.fst hg
  refine ⟨{ hwindow with pos := Nat.zero_le _ }, ⟨(by rintro ⟨⟩), fun _ => rfl⟩, ?_⟩
  have hmax : f.rxNext ≤ uint64Max := h.receives.max
  have hnext : f.rxNext = f.rxCommit + (f.rx.length - f.rxPos) := h.receives.next
  refine ⟨le_rfl, Nat.zero_le _, rfl, ?_, fun hfin => ?_, fun hlen => ?_⟩
  · simp only [Flow.core]
    omega
  · simp only [resumeInvalid, not_or, not_lt, not_and, not_not] at hvalid
    obtain ⟨-, -, -, -, hle, -, -, heof, -, -, hagree⟩ := hvalid
    simp only [Flow.core] at hfin ⊢
    by_cases he : (Snapshot.read body).eof
    · rw [if_pos he, heof he]
      exact ⟨hle, field_le_max _ _⟩
    · have hf : f.rxFin = true := by simpa [he] using hfin
      exact absurd (hagree hf).1 he
  · simp [Flow.core, frameHeader] at hlen

/-- A snapshot that does not apply. -/
lemma Record.refuse (h : Record f) (hs : f.suspended = true) {body : List UInt8}
    (hg : mResumeApply f body = (g, false)) : Record g := by
  have hquiet : f.outKind = none := h.sends.quiet hs
  have hpos : ∃ pos, pos ≤ f.tx.length ∧ g = { f with txPos := pos } := by
    unfold mResumeApply at hg
    simp only at hg
    split at hg
    · exact ⟨f.txPos, h.window.pos, (congrArg Prod.fst hg).symm⟩
    · split at hg
      · exact ⟨f.tx.length, le_rfl, (congrArg Prod.fst hg).symm⟩
      · cases hg
  obtain ⟨pos, hle, rfl⟩ := hpos
  exact ⟨{ h.window with pos := hle },
    ⟨fun hk => absurd hk (by simp [Flow.core, hquiet]), h.sends.quiet⟩, { h.receives with }⟩

/-! ### Sending -/

/-- What notifications and failures leave alone. -/
def Flow.form (f : Flow) : Core × Phase × Bool := (f.core, f.phase, f.fd)

lemma Record.form (h : Record f) (hf : g.form = f.form) : Record g :=
  h.congr (congrArg Prod.fst hf)

lemma Recorded.form (h : Recorded f) (hf : g.form = f.form) : Recorded g := by
  have hp : g.phase = f.phase := congrArg (·.2.1) hf
  have hfd : g.fd = f.fd := congrArg (·.2.2) hf
  exact h.imp (fun hd => ⟨hp.trans hd.1, hfd.trans hd.2⟩) fun hr => hr.form hf

/-- A notification leaves the record alone. -/
lemma Callback.call_form (c : Callback) (s : Side) : (c.call s).flow.form = s.flow.form := by
  cases c with
  | connClosing => rfl
  | connClose => rfl
  | streamClose =>
    simp only [Callback.call, mClose]
    split_ifs <;> rfl
  | streamReset =>
    simp only [Callback.call, mReset]
    split_ifs <;> rfl

lemma callbacks_form (s : Side) (cs : List Callback) :
    (callbacks s cs).flow.form = s.flow.form := by
  induction cs generalizing s with
  | nil => rfl
  | cons c cs ih => exact (ih (c.call s)).trans (c.call_form s)

lemma xqcStreamSend_form {s' : Side} {bs : List UInt8} {r : SendResult} {ret : SendRet}
    (h : xqcStreamSend s bs r = (s', ret)) :
    s'.flow.form = s.flow.form ∧ ∀ n, ret = .sent n → n ≤ bs.length := by
  unfold xqcStreamSend at h
  split at h
  next n hn =>
    cases h
    refine ⟨(callbacks_form _ _).trans rfl, fun m hm => ?_⟩
    cases hm
    simp
  next hne =>
    cases h
    exact ⟨callbacks_form _ _, fun m hm => absurd hm (hne m)⟩

lemma mReplyFlush_recorded (h : Recorded s.flow) (r : SendResult) :
    Recorded (mReplyFlush s r).flow := by
  have hsend : Recorded (mReplySend s r).1.flow := by
    unfold mReplySend
    split
    next s' hs => exact h.form (xqcStreamSend_form hs).1
    next s' hs =>
      split
      · exact h.form (xqcStreamSend_form hs).1
      · exact recorded_abort _
    next s' n hs =>
      split
      · exact h.form (xqcStreamSend_form hs).1
      · exact h.form (xqcStreamSend_form hs).1
  obtain ⟨s₁, done, hs₁, hok⟩ : ∃ s₁ done,
      (if s.flow.replyPos < s.flow.reply.length then mReplySend s r else (s, true)) = (s₁, done) ∧
      Recorded s₁.flow := by
    split
    · exact ⟨_, _, rfl, hsend⟩
    · exact ⟨_, _, rfl, h⟩
  unfold mReplyFlush
  split
  · exact h
  simp only [hs₁]
  split
  next hgo =>
    split
    · exact recorded_abort _
    · exact .inr ((hok.record (by simp [hgo.2])).congr rfl)
  · exact hok

lemma Record.begin (h : Record f) (hs : f.suspended = false) : Record (mV2Next f) := by
  have hquiet {g : Flow} (hg : g.suspended = f.suspended) (hsus : g.core.suspended = true) :
      g.core.outKind = none := absurd ((hg.trans hs).symm.trans hsus) (by simp)
  unfold mV2Next
  split
  · exact h
  split
  · exact ⟨{ h.window with }, ⟨(by rintro ⟨⟩), hquiet rfl⟩, { h.receives with }⟩
  split
  · refine ⟨{ h.window with }, ⟨fun _ => ⟨rfl, ?_⟩, hquiet rfl⟩, { h.receives with }⟩
    simp only [Flow.core, mV2Frame]
    omega
  · split
    · exact ⟨{ h.window with }, ⟨(by rintro ⟨⟩), hquiet rfl⟩, { h.receives with }⟩
    · exact h

lemma Record.complete (h : Record f) : Record (mV2Complete f).1 :=
  ⟨{ h.window with }, ⟨(by rintro ⟨⟩), fun _ => rfl⟩, { h.receives with }⟩

/-- A part of the header is out. -/
lemma Record.writeHeader (h : Record s.flow) (r : SendResult) :
    Record (mV2WriteHeader s r).1.flow := by
  unfold mV2WriteHeader
  split
  next s' hs => exact h.form (xqcStreamSend_form hs).1
  next s' hs => exact h.form (xqcStreamSend_form hs).1
  next s' n hs =>
    have h' := h.form (xqcStreamSend_form hs).1
    split
    · exact h'
    · exact h'.congr rfl

lemma Record.replay_valid (h : Record f) (hk : f.outKind = some .data) :
    ¬(f.outOffset < f.txBase ∨ mTxNext f < f.outEnd) := by
  have := h.sends.frame hk
  simp only [Flow.core] at this
  simp only [mTxNext]
  omega

/-- A part of the payload is out. -/
lemma Record.writePayload (h : Record s.flow) (hk : s.flow.outKind = some .data)
    (r : SendResult) : Record (mV2WritePayload s r).1.flow := by
  unfold mV2WritePayload
  simp only
  rw [if_neg (h.replay_valid hk)]
  split
  next s' hs => exact h.form (xqcStreamSend_form hs).1
  next s' hs => exact h.form (xqcStreamSend_form hs).1
  rename_i s' n hs
  obtain ⟨hform, hn⟩ := xqcStreamSend_form hs
  have h' := h.form hform
  have hcore : s'.flow.core = s.flow.core := congrArg Prod.fst hform
  have hk' : s'.flow.outKind = some .data := (congrArg Core.outKind hcore).trans hk
  split
  · exact h'.congr rfl
  have hframe := h'.sends.frame hk'
  have hend : s'.flow.outEnd = s.flow.outEnd := congrArg Core.outEnd hcore
  have hoff : s'.flow.outOffset = s.flow.outOffset := congrArg Core.outOffset hcore
  have hle : n ≤ s.flow.outEnd - s.flow.outOffset :=
    (hn n rfl).trans (by simp only [length_take]; omega)
  have hsent := h'.window.sent
  have hpos := h'.window.pos
  simp only [Flow.core] at hframe hsent hpos
  refine ⟨{ h'.window with pos := ?_, sent := ?_ },
    ⟨fun _ => ?_, h'.sends.quiet⟩, { h'.receives with }⟩
  all_goals simp only [Flow.core]
  · omega
  · omega
  · omega

/-- A pass of `m_v2_write` finds an invalid replay range. -/
def replaysInvalid (s : Side) (r : FrameSends) : Bool :=
  let (s, go) :=
    if s.flow.outPos < frameHeader then mV2WriteHeader s r.header else (s, true)
  go && decide (s.flow.outKind = some .data ∧ s.flow.outOffset < s.flow.outEnd ∧
    (s.flow.outOffset < s.flow.txBase ∨ mTxNext s.flow < s.flow.outEnd))

/-- `m_v2_write` with `n` nested calls finds an invalid replay range. -/
def callsReplayInvalid : ℕ → Side → List FrameSends → Bool
  | 0, _, _ => false
  | n + 1, s, rs =>
    if ¬ canWrite s then false
    else
      let s := { s with flow := mV2Next s.flow }
      if s.flow.outKind = none then false
      else
        replaysInvalid s (rs.headD {}) ||
          (let (s, more) := mV2WriteFrame s (rs.headD {})
           more && callsReplayInvalid n s rs.tail)

lemma Record.writeFrame (h : Record s.flow) (r : FrameSends) :
    Record (mV2WriteFrame s r).1.flow ∧ replaysInvalid s r = false := by
  obtain ⟨s₁, go, hs₁, h₁⟩ : ∃ s₁ go,
      (if s.flow.outPos < frameHeader then mV2WriteHeader s r.header else (s, true)) = (s₁, go) ∧
      Record s₁.flow := by
    split
    · exact ⟨_, _, rfl, h.writeHeader r.header⟩
    · exact ⟨_, _, rfl, h⟩
  constructor
  · unfold mV2WriteFrame
    simp only [hs₁]
    split
    · exact h₁
    obtain ⟨s₂, go₂, hs₂, h₂⟩ : ∃ s₂ go₂,
        (if s₁.flow.outKind = some .data ∧ s₁.flow.outOffset < s₁.flow.outEnd then
          mV2WritePayload s₁ r.payload else (s₁, true)) = (s₂, go₂) ∧ Record s₂.flow := by
      split
      next hdata => exact ⟨_, _, rfl, h₁.writePayload hdata.1 r.payload⟩
      · exact ⟨_, _, rfl, h₁⟩
    simp only [hs₂]
    split
    · exact h₂
    · exact h₂.complete
  unfold replaysInvalid
  simp only [hs₁, Bool.and_eq_false_iff, decide_eq_false_iff_not]
  right
  rintro ⟨hk, -, hbad⟩
  exact h₁.replay_valid hk hbad

lemma Recorded.writeCalls (h : Recorded s.flow) (n : ℕ) (rs : List FrameSends) :
    Recorded (mV2WriteCalls n s rs).flow ∧ callsReplayInvalid n s rs = false := by
  induction n generalizing s rs with
  | zero => exact ⟨h, rfl⟩
  | succ n ih =>
    rw [mV2WriteCalls, callsReplayInvalid]
    generalize rs.headD {} = r
    split
    · exact ⟨h, rfl⟩
    rename_i hgo
    obtain ⟨-, hactive, -, hrun, -, -⟩ := not_not.mp hgo
    have hnext : Record (mV2Next s.flow) := (h.record (by simp [hactive])).begin hrun
    simp only
    split
    · exact ⟨.inr hnext, rfl⟩
    obtain ⟨hframe, hvalid⟩ := Record.writeFrame (s := { s with flow := mV2Next s.flow })
      hnext r
    cases hw : mV2WriteFrame { s with flow := mV2Next s.flow } r with
    | mk s' more =>
      rw [hw] at hframe
      have hrest := ih (s := s') (.inr hframe) rs.tail
      cases more with
      | false => exact ⟨.inr hframe, by simp [hvalid]⟩
      | true => exact ⟨hrest.1, by simp [hvalid, hrest.2]⟩

/-! ### Receiving -/

/-- A flow between two frames. -/
def Flow.between (f : Flow) : Flow := { f with inFrame := [] }

/-- A frame that is given up. -/
lemma Record.between (h : Record f) : Record f.between :=
  ⟨{ h.window with }, { h.sends with },
    { h.receives with frame := fun hlen => by simp [Flow.core, Flow.between, frameHeader] at hlen }⟩

lemma confirmResume_core (f : Flow) : (confirmResume f).core = f.core := by
  unfold confirmResume
  split <;> rfl

lemma confirmResume_between (f : Flow) :
    (confirmResume f).between = confirmResume f.between := by
  unfold confirmResume Flow.between
  split <;> rfl

lemma Record.ack (h : Record f.between)
    (hg : mV2Ack f offset flags = some g) : Record g.between := by
  have hwindow := Core.Window.ack (f := f) { h.window with } hg
  have hsends := Core.Sends.ack (f := f) { h.sends with } h.window.pos hg
  obtain ⟨consumed, -, -, -, rfl⟩ := mV2Ack_consumed hg
  exact ⟨{ hwindow with }, { hsends with }, { h.receives with }⟩

lemma Record.header (h : Record f.between) (hg : mV2Header f = some g) :
    Record g.between ∧ (g.inKind = .data → Record g) := by
  unfold mV2Header at hg
  simp only at hg
  split at hg
  · cases hg
  rename_i kind hkind
  split at hg
  · cases hg
  rename_i hvalid
  simp only [not_or, not_and, not_lt, ne_eq, not_not] at hvalid
  obtain ⟨-, -, hdata, -, -, -⟩ := hvalid
  cases kind with
  | ack =>
    obtain ⟨k, hk, rfl⟩ := Option.map_eq_some_iff.mp hg
    have hrec : Record k.between := by
      refine Record.ack ?_ hk
      exact ⟨{ h.window with }, { h.sends with }, { h.receives with
        frame := fun hlen => by simp [Flow.core, Flow.between, frameHeader] at hlen }⟩
    rw [confirmResume_between]
    refine ⟨hrec.congr (confirmResume_core _), fun hd => ?_⟩
    obtain ⟨consumed, -, -, -, rfl⟩ := mV2Ack_consumed hk
    unfold confirmResume at hd
    split at hd <;> cases hd
  | fin =>
    simp only at hg
    split at hg
    · cases hg
    rename_i hoff
    simp only [not_or, not_and, ne_eq, not_not] at hoff
    cases hg
    rw [confirmResume_between]
    refine ⟨Record.congr ?_ (confirmResume_core _), fun hd => ?_⟩
    · refine ⟨{ h.window with }, { h.sends with }, { h.receives with
        fin := fun _ => ⟨hoff.1.ge, field_le_max _ _⟩
        frame := fun hlen => by simp [Flow.core, Flow.between, frameHeader] at hlen }⟩
    · unfold confirmResume at hd
      split at hd <;> cases hd
  | data =>
    simp only at hg
    split at hg
    · cases hg
    rename_i hoff
    simp only [not_or, not_and, not_lt] at hoff
    obtain ⟨hpos, hsize, -, hmax⟩ := hdata rfl
    cases hg
    have hrec : Record { f with
        inKind := .data, inFlags := field f.inFrame 5 1, inSize := field f.inFrame 6 2
        inOffset := field f.inFrame 16 8, inPos := 0 } := by
      refine ⟨{ h.window with }, { h.sends with }, { h.receives with
        frame := fun _ => ⟨Nat.zero_le _, ?_, fun hfin => hoff.2 hfin⟩ }⟩
      simp only [Flow.core, ioBudget, uint64Max] at hsize hmax ⊢
      omega
    have hrec' := hrec.congr (confirmResume_core _)
    exact ⟨hrec'.between, fun _ => hrec'⟩

/-- A header is read before it is checked. -/
lemma mV2Header_inFrame (h : mV2Header f = some g) : g.inFrame = f.inFrame := by
  obtain ⟨_, _, _, _, _, _, _, _, _, _, rfl⟩ := mV2Header_eq h
  exact congrArg Core.inFrame (confirmResume_core _)

lemma Record.readHeader (h : Record s.flow) (r : RecvResult) : Recorded (mV2ReadHeader s r).1.flow ∧
      ((mV2ReadHeader s r).2 ≠ .done → Record (mV2ReadHeader s r).1.flow) ∧
      ((mV2ReadHeader s r).2 = .payload →
        frameHeader ≤ (mV2ReadHeader s r).1.flow.inFrame.length) := by
  unfold mV2ReadHeader
  split
  · exact ⟨.inr h, fun hd => absurd rfl hd, (by rintro ⟨⟩)⟩
  · exact ⟨recorded_abort _, fun hd => absurd rfl hd, (by rintro ⟨⟩)⟩
  rename_i n fin
  simp only
  split
  · exact ⟨recorded_abort _, fun hd => absurd rfl hd, (by rintro ⟨⟩)⟩
  split
  next hshort =>
    refine ⟨.inr ⟨{ h.window with }, { h.sends with }, { h.receives with
      frame := fun hlen => absurd hlen hshort.not_ge }⟩, fun hd => absurd rfl hd, (by rintro ⟨⟩)⟩
  rename_i hfull
  split
  · exact ⟨recorded_abort _, fun hd => absurd rfl hd, (by rintro ⟨⟩)⟩
  rename_i g hg
  obtain ⟨hbetween, hdata⟩ := Record.header (f := { s.flow with
    inFrame := s.flow.inFrame ++
      received s.peer n (frameHeader - s.flow.inFrame.length) }) h.between hg
  split
  · exact ⟨.inr hbetween, fun _ => hbetween, (by rintro ⟨⟩)⟩
  next hkind =>
    have hrec := hdata (not_not.mp hkind)
    refine ⟨.inr hrec, fun _ => hrec, fun _ => ?_⟩
    simp only [mV2Header_inFrame hg]
    exact not_lt.mp hfull

/-- Room is made in the buffer. -/
lemma Record.compact (h : Record f) : Record (mV2Compact f) := by
  have hnext : f.rxNext = f.rxCommit + (f.rx.length - f.rxPos) := h.receives.next
  unfold mV2Compact
  split
  · refine ⟨{ h.window with }, { h.sends with },
      { h.receives with pos := Nat.zero_le _, room := ?_, next := ?_ }⟩
    all_goals simp only [Flow.core, length_drop]
    · omega
    · omega
  · exact h

/-- The bytes of a pass are counted. -/
lemma Record.advance (h : Record f) {n : ℕ} (hn : n ≤ f.inSize - f.inPos) :
    Record (mV2Advance f n) := by
  unfold mV2Advance
  simp only
  split
  · exact ⟨{ h.window with }, { h.sends with }, { h.receives with
      frame := fun hlen => by simp [Flow.core, frameHeader] at hlen }⟩
  refine ⟨{ h.window with }, { h.sends with }, { h.receives with frame := fun hlen => ?_ }⟩
  have hframe := h.receives.frame hlen
  simp only [Flow.core] at hframe ⊢
  exact ⟨by omega, hframe.2⟩

lemma length_received_le (p : Peer) (n : ℕ) (f : Flow) :
    (received p n (mV2Want f)).length ≤ f.inSize - f.inPos ∧
      (f.inOffset + f.inPos = f.rxNext →
        (received p n (mV2Want f)).length ≤ streamBuffer - f.rx.length) := by
  have hwant : mV2Want f ≤ f.inSize - f.inPos := by
    unfold mV2Want
    simp only
    split
    · omega
    · omega
  simp only [received, length_take]
  refine ⟨by omega, fun hfresh => ?_⟩
  have : mV2Want f ≤ streamBuffer - f.rx.length := by
    unfold mV2Want
    simp only [hfresh, if_true]
    omega
  omega

/-- The second half of a pass. -/
lemma Record.readPayload (h : Record s.flow)
    (hfull : frameHeader ≤ s.flow.inFrame.length) (r : RecvResult) :
    Recorded (mV2ReadPayload s r).1.flow ∧
      ((mV2ReadPayload s r).2 = .loop → Record (mV2ReadPayload s r).1.flow) := by
  unfold mV2ReadPayload
  simp only
  split
  · exact ⟨recorded_abort _, fun hd => (by cases hd)⟩
  obtain ⟨s₁, hs₁, h₁, hin⟩ : ∃ s₁, (if s.flow.inOffset + s.flow.inPos = s.flow.rxNext then
      { s with flow := mV2Compact s.flow } else s) = s₁ ∧ Record s₁.flow ∧
      s₁.flow.inFrame = s.flow.inFrame ∧ s₁.flow.inOffset = s.flow.inOffset ∧
      s₁.flow.inPos = s.flow.inPos ∧ s₁.flow.rxNext = s.flow.rxNext := by
    refine ⟨_, rfl, ?_⟩
    split
    · refine ⟨h.compact, ?_⟩
      unfold mV2Compact
      split <;> exact ⟨rfl, rfl, rfl, rfl⟩
    · exact ⟨h, rfl, rfl, rfl, rfl⟩
  rw [hs₁]
  obtain ⟨hframe₁, hoff, hpos, hnext⟩ := hin
  split
  · exact ⟨.inr h₁, fun hd => (by cases hd)⟩
  split
  · exact ⟨.inr h₁, fun hd => (by cases hd)⟩
  · exact ⟨recorded_abort _, fun hd => (by cases hd)⟩
  rename_i n fin
  obtain ⟨hlen, hroom⟩ := length_received_le s₁.peer n s₁.flow
  split
  · exact ⟨recorded_abort _, fun hd => (by cases hd)⟩
  split
  · exact ⟨.inr h₁, fun hd => (by cases hd)⟩
  split
  next hfresh =>
    have hrec : Record { s₁.flow with
        rx := s₁.flow.rx ++ received s₁.peer n (mV2Want s₁.flow)
        rxNext := s₁.flow.rxNext + (received s₁.peer n (mV2Want s₁.flow)).length } := by
      have hfresh₁ : s₁.flow.inOffset + s₁.flow.inPos = s₁.flow.rxNext := by
        rw [hoff, hpos, hnext]
        exact hfresh
      obtain ⟨hrpos, hrroom, hrnext, hrmax, hrfin, hrframe⟩ := h₁.receives
      have hin := hrframe (show frameHeader ≤ s₁.flow.inFrame.length from hframe₁.symm ▸ hfull)
      simp only [Flow.core] at hrpos hrroom hrnext hrmax hrfin hin
      refine ⟨{ h₁.window with }, { h₁.sends with },
        ⟨?_, ?_, ?_, ?_, fun hf => ?_, fun _ => hin⟩⟩
      all_goals simp only [Flow.core, length_append]
      · omega
      · omega
      · omega
      · omega
      · have := hrfin hf
        have := hin.2.2 hf
        omega
    have hadv := hrec.advance (n := (received s₁.peer n (mV2Want s₁.flow)).length) hlen
    exact ⟨.inr hadv, fun _ => hadv⟩
  · split
    · exact ⟨recorded_abort _, fun hd => (by cases hd)⟩
    · have hadv := Record.advance (f := { s₁.flow with ackDirty := true })
        ⟨{ h₁.window with }, { h₁.sends with }, { h₁.receives with }⟩ hlen
      exact ⟨.inr hadv, fun _ => hadv⟩

lemma Record.readLoop (h : Record s.flow) (n : ℕ) (rs : List RecvResult) :
    Recorded (mV2ReadLoop n s rs).flow := by
  induction n generalizing s rs with
  | zero => exact .inr h
  | succ n ih =>
    rw [mV2ReadLoop]
    generalize rs.headD .again = r, rs.tail.headD .again = r'
    split
    · obtain ⟨hdone, hgo, hpay⟩ := h.readHeader r
      cases hs : mV2ReadHeader s r with
      | mk s' next =>
        rw [hs] at hdone hgo hpay
        cases next with
        | done => exact hdone
        | loop => exact ih (hgo (by rintro ⟨⟩)) _
        | payload =>
          obtain ⟨hstop, hnext⟩ := (hgo (by rintro ⟨⟩)).readPayload (hpay rfl) r'
          simp only
          split
          next s₂ hs₂ =>
            rw [hs₂] at hnext
            exact ih (hnext rfl) _
          next s₂ _ _ hs₂ =>
            rw [hs₂] at hstop
            exact hstop
    rename_i hfull
    obtain ⟨hstop, hnext⟩ := h.readPayload (not_lt.mp hfull) r
    split
    next s₂ hs₂ =>
      rw [hs₂] at hnext
      exact ih (hnext rfl) _
    next s₂ _ _ hs₂ =>
      rw [hs₂] at hstop
      exact hstop

lemma Record.read (h : Record s.flow) (rs : List RecvResult) : Recorded (mV2Read s rs).flow := by
  unfold mV2Read
  split
  · exact .inr h
  · exact h.readLoop 32 rs

/-! ### The socket -/

lemma Record.drained (h : Record f) : Record (Mapping.drained f) := by
  have hnext : f.rxNext = f.rxCommit + (f.rx.length - f.rxPos) := h.receives.next
  unfold Mapping.drained
  split
  next hend =>
    refine ⟨{ h.window with }, { h.sends with },
      { h.receives with pos := le_rfl, room := Nat.zero_le _, next := ?_ }⟩
    simp only [Flow.core, length_nil]
    omega
  · exact h

lemma Record.tickSend (h : Record f) {env : TickEnv}
    (hg : mV2TickSend f env = some g) : Record g := by
  unfold mV2TickSend at hg
  split at hg
  · simp only at hg
    split at hg
    · cases hg
    · cases hg
      exact h.drained
    · cases hg
      exact h.drained
    · cases hg
      refine Record.drained ⟨{ h.window with }, { h.sends with }, ?_⟩
      obtain ⟨hpos, hroom, hnext, hmax, hfin, hframe⟩ := h.receives
      simp only [Flow.core] at hpos hroom hnext
      refine ⟨?_, hroom, ?_, hmax, hfin, hframe⟩
      all_goals simp only [Flow.core, length_take, length_drop]
      · omega
      · omega
  · cases hg
    exact h

lemma Record.tickShut (h : Record f) {env : TickEnv}
    (hg : mV2TickShut f env = some g) : Record g := by
  unfold mV2TickShut at hg
  split at hg
  · split at hg
    · cases hg
    · cases hg
      exact h.congr rfl
  · cases hg
    exact h

lemma Record.tickRecv (h : Record s.flow) (env : TickEnv) : Recorded (mV2TickRecv s env).1.flow ∧
      ((mV2TickRecv s env).2 = true → Record (mV2TickRecv s env).1.flow) := by
  unfold mV2TickRecv
  simp only
  split
  next hgo =>
    have heof : s.flow.socketEof = false := hgo.2.1
    split
    · exact ⟨recorded_abort _, fun hd => (by cases hd)⟩
    · exact ⟨.inr h, fun _ => h⟩
    rename_i bytes _
    split
    · have hrec : Record { s.flow with
          sockRead := s.flow.sockRead ++
            bytes.take (min (streamBuffer - s.flow.tx.length) ioBudget)
          socketEof := true, txFinal := mTxNext s.flow } :=
        ⟨{ h.window with final := fun _ => rfl, acked := fun _ => rfl }, { h.sends with },
          { h.receives with }⟩
      exact ⟨.inr hrec, fun _ => hrec⟩
    split
    · exact ⟨recorded_abort _, fun hd => (by cases hd)⟩
    rename_i hmore
    have hrec : Record { s.flow with
        sockRead := s.flow.sockRead ++
          bytes.take (min (streamBuffer - s.flow.tx.length) ioBudget)
        tx := s.flow.tx ++ bytes.take (min (streamBuffer - s.flow.tx.length) ioBudget) } := by
      obtain ⟨hpos, hroom, hsent, hmax, hfinal, hacked⟩ := h.window
      have hmore' := window_fits (by rw [length_take]; omega) hmore
      simp only [Flow.core, mTxNext] at hpos hroom hsent hmax hmore'
      have hlen := length_take_le
        (min (streamBuffer - s.flow.tx.length) ioBudget) bytes
      refine ⟨⟨?_, ?_, ?_, ?_, fun he => ?_, hacked⟩, ⟨fun hk => ?_, h.sends.quiet⟩,
        { h.receives with }⟩
      · simp only [Flow.core, length_append]
        omega
      · simp only [Flow.core, length_append]
        omega
      · simp only [Flow.core, length_append]
        omega
      · simp only [Flow.core, length_append]
        omega
      · cases heof.symm.trans he
      · have hframe := h.sends.frame hk
        simp only [Flow.core, length_append] at hframe ⊢
        omega
    exact ⟨.inr hrec, fun _ => hrec⟩
  · exact ⟨.inr h, fun _ => h⟩

/-- The write in `m_v2_tick` finds an invalid replay range. -/
def tickReplayInvalid (s : Side) (env : TickEnv) : Bool :=
  if ¬ canTick s ∨ env.pollError = true then false
  else match mV2TickSend s.flow env with
    | none => false
    | some f =>
      match mV2TickShut f env with
      | none => false
      | some f =>
        match mV2TickRecv { s with flow := f } env with
        | (_, false) => false
        | (s, true) => callsReplayInvalid 2 s env.writes

lemma Recorded.tick (h : Recorded s.flow) (env : TickEnv) :
    Recorded (mV2Tick s env).flow ∧ tickReplayInvalid s env = false := by
  unfold mV2Tick tickReplayInvalid
  by_cases hgo : canTick s
  · have hrec : Record s.flow := h.record (by simp [hgo.1])
    by_cases herr : env.pollError = true
    · rw [if_neg (not_not.mpr hgo), if_pos herr, if_pos (.inr herr)]
      exact ⟨recorded_abort _, rfl⟩
    rw [if_neg (not_not.mpr hgo), if_neg herr, if_neg (not_or.mpr ⟨not_not.mpr hgo, herr⟩)]
    cases hf : mV2TickSend s.flow env with
    | none => exact ⟨recorded_abort _, rfl⟩
    | some f =>
      cases hg : mV2TickShut f env with
      | none => exact ⟨by simp only [hg]; exact recorded_abort _, by simp only [hg]⟩
      | some g =>
        obtain ⟨hstop, hnext⟩ :=
          Record.tickRecv (s := { s with flow := g }) ((hrec.tickSend hf).tickShut hg) env
        simp only [hg]
        cases hr : mV2TickRecv { s with flow := g } env with
        | mk s' more =>
          rw [hr] at hstop hnext
          cases more with
          | false => exact ⟨hstop, rfl⟩
          | true =>
            obtain ⟨hwrite, hvalid⟩ :=
              Recorded.writeCalls (s := s') (.inr (hnext rfl)) 2 env.writes
            refine ⟨?_, hvalid⟩
            simp only
            split
            · exact recorded_abort _
            · exact hwrite
  · rw [if_pos hgo, if_pos (.inl hgo)]
    exact ⟨h, rfl⟩

/-! ### Control messages and attempts -/

lemma mHeaderCheck_form {p : Peer} (h : mHeaderCheck p fs f = some g) : g.form = f.form := by
  unfold mHeaderCheck at h
  simp only at h
  split_ifs at h <;>
    (obtain rfl := Option.some.inj h; rfl)

lemma recorded_none : ∀ o ∈ (none : Option Flow), Recorded o :=
  fun o ho => absurd ho (Option.not_mem_none o)

lemma mControlDone_record {p : Peer} {rc : ℤ} {old : Option Flow}
    (hfs : ∀ k ∈ fs, Recorded k) (hg : mControlDone p fs f rc = some (g, old)) :
    (Record f → Record g) ∧ ∀ o ∈ old, Recorded o := by
  unfold mControlDone mV2ControlDone at hg
  simp only at hg
  split at hg
  · split at hg
    · split at hg
      · cases hg
      next k hk =>
        cases hg
        refine ⟨fun h => ?_, recorded_none⟩
        have hrec := h.resume hk
        exact ⟨{ hrec.window with }, { hrec.sends with quiet := (by rintro ⟨⟩) },
          { hrec.receives with }⟩
    · split at hg
      · cases hg
        exact ⟨fun h => h.congr rfl, recorded_none⟩
      next k hfind =>
        split at hg
        · cases hg
          exact ⟨fun h => h.congr rfl, recorded_none⟩
        rename_i hres
        -- the flow that is found is alive and suspended
        have hk : Record k := by
          refine (hfs k (mem_of_find?_eq_some hfind)).record ?_
          have := List.find?_some hfind
          simp only [Bool.decide_and, Bool.and_eq_true, decide_eq_true_eq] at this
          exact this.2.1
        have hsus : k.suspended = true := (not_not.mp hres).2.1
        split at hg
        next k' hk' =>
          cases hg
          refine ⟨fun h => h.congr rfl, ?_⟩
          rintro _ ⟨⟩
          exact .inr (hk.refuse hsus hk')
        rename_i k' hk'
        cases hg
        refine ⟨fun h => h.congr rfl, ?_⟩
        rintro _ ⟨⟩
        have hrec := hk.resume hk'
        exact .inr ⟨{ hrec.window with }, { hrec.sends with quiet := (by rintro ⟨⟩) },
          { hrec.receives with }⟩
  · split at hg
    · split at hg
      · cases hg
      · cases hg
        exact ⟨fun h => h.congr rfl, recorded_none⟩
    · split at hg
      · cases hg
      · cases hg
        refine ⟨fun h => ?_, recorded_none⟩
        split <;> exact h.congr rfl

lemma mControlFinish_record (hfs : ∀ k ∈ fs, Recorded k) (rc : ℤ)
    (flush : SendResult) (fin : Bool) (s : Side) :
    (Record s.flow → Recorded (mControlFinish fs rc flush fin s).1.flow) ∧
      ∀ o ∈ (mControlFinish fs rc flush fin s).2, Recorded o := by
  unfold mControlFinish
  split
  · exact ⟨fun _ => recorded_abort _, recorded_none⟩
  rename_i g old hg
  obtain ⟨hrec, hold⟩ := mControlDone_record hfs hg
  simp only
  split
  · exact ⟨fun _ => recorded_abort _, hold⟩
  · exact ⟨fun h => mReplyFlush_recorded (.inr ((hrec h).congr rfl)) flush, hold⟩

lemma mControlRead_record (hfs : ∀ k ∈ fs, Recorded k) (rc : ℤ)
    (flush : SendResult) (n : ℕ) (s : Side) (rs : List RecvResult) :
    (Record s.flow → Recorded (mControlRead fs rc flush n s rs).1.flow) ∧
      ∀ o ∈ (mControlRead fs rc flush n s rs).2.1, Recorded o := by
  induction n generalizing s rs with
  | zero => exact ⟨.inr, recorded_none⟩
  | succ n ih =>
    rw [mControlRead]
    cases rs.headD .again with
    | again => exact ⟨.inr, recorded_none⟩
    | error => exact ⟨fun _ => recorded_abort _, recorded_none⟩
    | data k fin =>
      simp only
      split
      · exact ⟨fun _ => recorded_abort _, recorded_none⟩
      rename_i g hg
      have hrec : Record s.flow → Record g := by
        intro h
        split at hg
        · exact h.congr (congrArg Prod.fst (mHeaderCheck_form hg))
        · cases hg
          exact h.congr rfl
      split
      · obtain ⟨hflow, hold⟩ := mControlFinish_record hfs rc flush fin
          ⟨afterReceive s.peer k (s.flow.controlNeed - s.flow.control.length), g⟩
        exact ⟨fun h => hflow (hrec h), hold⟩
      split
      · exact ⟨fun _ => recorded_abort _, recorded_none⟩
      split
      · exact ⟨fun h => .inr (hrec h), recorded_none⟩
      · obtain ⟨hflow, hold⟩ := ih
          ⟨afterReceive s.peer k (s.flow.controlNeed - s.flow.control.length), g⟩ rs.tail
        exact ⟨fun h => hflow (hrec h), hold⟩

lemma mStreamRead_record (hfs : ∀ k ∈ fs, Recorded k) (rc : ℤ)
    (flush : SendResult) (s : Side) (rs : List RecvResult) :
    (Recorded s.flow → Recorded (mStreamRead fs rc flush s rs).1.flow) ∧
      ∀ o ∈ (mStreamRead fs rc flush s rs).2, Recorded o := by
  unfold mStreamRead
  split
  · exact ⟨fun h => h, recorded_none⟩
  rename_i hgo
  have halive : s.flow.phase ≠ .dead := fun hp => hgo (.inr (.inl hp))
  obtain ⟨s₁, old, rs₁, hs₁, h₁, hold⟩ : ∃ s₁ old rs₁,
      (if s.flow.phase = .control then mControlRead fs rc flush 2 s rs else (s, none, rs)) =
        (s₁, old, rs₁) ∧ (Recorded s.flow → Recorded s₁.flow) ∧ ∀ o ∈ old, Recorded o := by
    split
    · obtain ⟨hflow, hold⟩ := mControlRead_record hfs rc flush 2 s rs
      exact ⟨_, _, _, rfl, fun h => hflow (h.record halive), hold⟩
    · exact ⟨_, _, _, rfl, fun h => h, recorded_none⟩
  simp only [hs₁]
  split
  next hact => exact ⟨fun h => ((h₁ h).record (by simp [hact.1])).read rs₁, hold⟩
  · exact ⟨h₁, hold⟩

/-! ### Attempts -/

lemma Recorded.suspend (h : Recorded f) (preserve : Bool) (deadline : ℕ) :
    Recorded (suspendFlow preserve deadline f) := by
  unfold suspendFlow
  simp only
  split
  · exact .inl ⟨rfl, rfl⟩
  rename_i hkeep
  have hfd : f.fd = true := (not_not.mp hkeep).2.2.1
  have hrec : Record f := h.resolve_left fun hd => by simp [hd.2] at hfd
  have hnext : f.rxNext = f.rxCommit + (f.rx.length - f.rxPos) := hrec.receives.next
  have hmax : f.rxNext ≤ uint64Max := hrec.receives.max
  refine .inr ⟨{ hrec.window with pos := Nat.zero_le _ }, ⟨(by rintro ⟨⟩), fun _ => rfl⟩,
    ⟨le_rfl, Nat.zero_le _, rfl, ?_, fun hf => ?_, fun hlen => ?_⟩⟩
  · simp only [Flow.core]
    omega
  · have := hrec.receives.fin hf
    simp only [Flow.core] at this ⊢
    omega
  · simp [Flow.core, frameHeader] at hlen

/-- A flow that is aborted, or left. -/
lemma Recorded.recovery (h : Recorded f) (p : Peer) : Recorded (recoveryFlow p f) := by
  unfold recoveryFlow
  split
  · exact recorded_abort _
  · exact h

/-- A stream is opened for the flow. -/
lemma Record.open {s' : Side} (h : Record s.flow) {created : Bool}
    (hs : mStreamOpen s created = some s') : Record s'.flow := by
  unfold mStreamOpen at hs
  split at hs
  · cases hs
  · cases hs
    exact h.congr rfl

lemma Record.resumeOpen (h : Record s.flow) (created : Bool) (flush : SendResult) :
    Recorded (mResumeOpen s created flush).1.flow := by
  have hreq : Record (resumeRequest s.peer s.flow) := h.congr rfl
  unfold mResumeOpen
  simp only
  split
  · exact .inr hreq
  next s' hs =>
    exact mReplyFlush_recorded (.inr (Record.open (s := ⟨_, _⟩) hreq hs)) flush

lemma Record.pendingOpen (h : Record s.flow) (created : Bool) (flush : SendResult) :
    Recorded (mPendingOpen s created flush).1.flow := by
  unfold mPendingOpen
  split
  · exact .inr h
  rename_i target _
  have hreq : Record (openRequest s.peer target s.flow) :=
    ⟨{ h.window with }, ⟨h.sends.frame, (by rintro ⟨⟩)⟩, { h.receives with }⟩
  simp only
  split
  · exact .inr hreq
  next s' hs =>
    exact mReplyFlush_recorded (.inr (Record.open (s := ⟨_, _⟩) hreq hs)) flush

lemma Recorded.ready (h : Recorded s.flow) (created : Bool) (flush : SendResult) :
    Recorded (readyFlow s created flush).flow := by
  have hfail {r : Side × Bool} (hr : Recorded r.1.flow) :
      Recorded (if r.2 then r.1 else r.1.transportFail).flow := by
    split
    · exact hr
    · exact hr
  unfold readyFlow
  split
  · exact h
  rename_i hgo
  have hrec : Record s.flow := h.record fun hp => hgo (.inr hp)
  split
  · exact recorded_abort _
  split
  · exact hfail (hrec.pendingOpen created flush)
  split
  · exact recorded_abort _
  · split
    · exact hfail (hrec.resumeOpen created flush)
    · exact h

lemma Recorded.markReady (h : Recorded s.flow) (created : Bool) (flush : SendResult) :
    Recorded (Mapping.markReady s created flush).flow := by
  unfold Mapping.markReady
  split
  · exact h
  have hready := Recorded.ready
    (s := { s with peer := { s.peer with ready := true, proofReady := true } }) h created flush
  simp only
  split
  · exact hready
  · exact hready

/-! ### Runs -/

lemma Endpoint.onIncoming_record (h : Recorded e.flow)
    {g : Side → Side × Option Flow} (hg : ∀ s, ∀ o ∈ (g s).2, Recorded o) :
    Recorded (e.onIncoming g).flow := by
  unfold Endpoint.onIncoming
  split
  · exact h
  rename_i f hf
  cases hold : (g ⟨e.peer, f⟩).2 with
  | none =>
    simp only [hold, Option.getD_none]
    exact h
  | some o =>
    simp only [hold, Option.getD_some]
    exact hg ⟨e.peer, f⟩ o hold

lemma Endpoint.act_record (h : Recorded e.flow) (a : Act) : Recorded (e.act a).flow := by
  cases a with
  | tick env => exact (Recorded.tick (s := e.side) h env).1
  | write rs => exact (Recorded.writeCalls (s := e.side) h 2 rs).1
  | flush r => exact mReplyFlush_recorded (s := e.side) h r
  | read rs flush =>
    exact (mStreamRead_record (fun _ hk => absurd hk not_mem_nil) 0 flush e.side rs).1 h
  | incomingFlush r => exact Endpoint.onIncoming_record h fun _ => recorded_none
  | incomingRead rs flush rc =>
    refine Endpoint.onIncoming_record h fun s => (mStreamRead_record ?_ rc flush s rs).2
    intro k hk
    rwa [mem_singleton.mp hk]
  | create allocated =>
    show Recorded (mCreate e allocated).flow
    unfold mCreate
    split_ifs <;> exact h
  | ready created flush =>
    rw [Endpoint.act]
    split
    · exact Recorded.markReady (s := e.side) h created flush
    · exact h
  | recoveryTick => exact h.recovery e.peer
  | abort => exact recorded_abort _
  | incomingAbort => exact Endpoint.onIncoming_record h fun _ => recorded_none
  | callback c => exact h.form (c.call_form e.side)
  | incomingCallback c => exact Endpoint.onIncoming_record h fun _ => recorded_none
  | transportFail | fail | elapse => exact h
  | detach =>
    show Recorded (transportDetach e).flow
    unfold transportDetach
    split
    · exact h
    · exact h.suspend _ _
  | attemptBegin =>
    show Recorded (Mapping.attemptBegin e).flow
    unfold Mapping.attemptBegin
    split_ifs <;> exact h

lemma Endpoint.event_record (h : Recorded e.flow) (ev : Event) : Recorded (e.event ev).flow := by
  cases ev with
  | own a => exact Endpoint.act_record h a
  | recoveryTick sampledUs => exact h.recovery _
  | connect context wireVersion =>
    rw [Endpoint.event]
    split <;> exact h
  | setPolicy | deliver | stream => exact h
  | unmap => exact h.form rfl

/-- The delivery functions by themselves. -/
inductive Operation where
  | event (ev : Event)
  | read (rs : List RecvResult)
  | suspend (preserveTcp : Bool) (deadlineUs : ℕ)
  | resumeApply (body : List UInt8)
  deriving DecidableEq

/-- A snapshot that does not apply aborts the flow. -/
def Endpoint.operate (e : Endpoint) : Operation → Endpoint
  | .event ev => e.event ev
  | .read rs => if e.flow.phase = .dead then e else e.onFlow (mV2Read · rs)
  | .suspend preserveTcp deadlineUs => { e with flow := suspendFlow preserveTcp deadlineUs e.flow }
  | .resumeApply body =>
    if e.flow.phase = .dead then e
    else match mResumeApply e.flow body with
      | (f, true) => { e with flow := f }
      | (f, false) => { e with flow := mAbort f }

lemma Endpoint.operate_record (h : Recorded e.flow) (op : Operation) :
    Recorded (e.operate op).flow := by
  cases op with
  | event ev => exact Endpoint.event_record h ev
  | read rs =>
    rw [Endpoint.operate]
    split
    · exact h
    next hp => exact Record.read (s := e.side) (h.record hp) rs
  | suspend preserveTcp deadlineUs => exact h.suspend preserveTcp deadlineUs
  | resumeApply body =>
    rw [Endpoint.operate]
    split
    · exact h
    next hp =>
      split
      next f hf => exact .inr ((h.record hp).resume hf)
      · exact recorded_abort _

/-- The record of a flow that has carried nothing. -/
def Flow.Fresh (f : Flow) : Prop :=
  f.core = { ({} : Flow).core with suspended := f.suspended }

/-- A flow that has carried nothing. -/
lemma Flow.Fresh.record (h : f.Fresh) : Record f := by
  have hlen : ¬ frameHeader ≤ ([] : List UInt8).length := by decide
  refine ⟨?_, ?_, ?_⟩
  all_goals rw [h]
  · exact ⟨le_rfl, Nat.zero_le _, ⟨le_rfl, le_rfl⟩, Nat.zero_le _, (by rintro ⟨⟩), (by rintro ⟨⟩)⟩
  · exact ⟨(by rintro ⟨⟩), fun _ => rfl⟩
  · exact ⟨le_rfl, Nat.zero_le _, rfl, Nat.zero_le _, (by rintro ⟨⟩), fun h => absurd h hlen⟩

/-- **The record of a flow is consistent.** After any operations, with any bytes from the other
side and any results of the calls, a flow that was not aborted has its positions inside its
buffers, its offsets in order, its ends where they were announced and a partly sent frame inside
its window; and no write or tick finds its replay range invalid. -/
theorem record_consistent {e : Endpoint} (hf : e.flow.Fresh) (ops : List Operation) :
    let d := run Endpoint.operate e ops
    (d.flow.phase ≠ .dead →
      (d.flow.txPos ≤ d.flow.tx.length ∧ d.flow.tx.length ≤ 65536) ∧
      (d.flow.txBase ≤ d.flow.txSentHigh ∧ d.flow.txSentHigh ≤ d.flow.txBase + d.flow.tx.length) ∧
      (d.flow.socketEof = true → d.flow.txFinal = d.flow.txBase + d.flow.tx.length) ∧
      (d.flow.rxPos ≤ d.flow.rx.length ∧ d.flow.rx.length ≤ 65536) ∧
      (d.flow.rxCommit ≤ d.flow.rxNext ∧
        d.flow.rxNext - d.flow.rxCommit = d.flow.rx.length - d.flow.rxPos) ∧
      (d.flow.rxFin = true → d.flow.rxNext ≤ d.flow.rxFinal) ∧
      (d.flow.outKind = some .data → d.flow.txBase ≤ d.flow.outOffset ∧
        d.flow.outOffset ≤ d.flow.outEnd ∧
        d.flow.outEnd ≤ d.flow.txBase + d.flow.tx.length) ∧
      (d.flow.txFinAcked = true → d.flow.socketEof = true) ∧
      (d.flow.txBase + d.flow.tx.length < 2 ^ 64 ∧ d.flow.rxNext < 2 ^ 64 ∧
        (d.flow.rxFin = true → d.flow.rxFinal < 2 ^ 64) ∧
        (frameHeader ≤ d.flow.inFrame.length →
          d.flow.inPos ≤ d.flow.inSize ∧ d.flow.inOffset + d.flow.inSize < 2 ^ 64))) ∧
    (∀ rs, callsReplayInvalid 2 d.side rs = false) ∧
    ∀ env, tickReplayInvalid d.side env = false := by
  intro d
  have hd : Recorded d.flow :=
    run_invariant (I := fun e : Endpoint => Recorded e.flow)
      (fun _ op h => Endpoint.operate_record h op) ops (.inr hf.record)
  refine ⟨fun hp => ?_, fun rs => (Recorded.writeCalls (s := d.side) hd 2 rs).2,
    fun env => (Recorded.tick (s := d.side) hd env).2⟩
  obtain ⟨hwin, hsend, hrecv⟩ := hd.record hp
  have hmax : uint64Max < 2 ^ 64 := by decide
  have hnext : d.flow.rxNext = d.flow.rxCommit + (d.flow.rx.length - d.flow.rxPos) := hrecv.next
  refine ⟨⟨hwin.pos, hwin.room⟩, hwin.sent, hwin.final, ⟨hrecv.pos, hrecv.room⟩,
    ⟨by omega, by omega⟩, fun h => (hrecv.fin h).1, fun hk => ?_, hwin.acked,
    hwin.max.trans_lt hmax, hrecv.max.trans_lt hmax, fun h => (hrecv.fin h).2.trans_lt hmax,
    fun h => ⟨(hrecv.frame h).1, (hrecv.frame h).2.1.trans_lt hmax⟩⟩
  obtain ⟨hoff, hle, hend⟩ : d.flow.outOffset = d.flow.txBase + d.flow.txPos ∧
      d.flow.outOffset ≤ d.flow.outEnd ∧ d.flow.outEnd ≤ d.flow.txBase + d.flow.tx.length :=
    hsend.frame hk
  exact ⟨by omega, hle, hend⟩

/-- The broker end reads three bytes and sends two of them. -/
def halfSent : List Operation :=
  [.event (.own (.flush { ret := .sent 100 })),
   .event (.own (.tick { pollIn := true, recv := .data [1, 2, 3]
                         writes := [{ header := { ret := .sent 100 }
                                      payload := { ret := .sent 2 } }] }))]

/-- The frame is partly sent, and inside its window. -/
theorem record_consistent_halfSent :
    let e := (Link.initial { id := 3, target := ⟨[97], 80⟩ }).broker
    let d := run Endpoint.operate e halfSent
    d.flow.outKind = some .data ∧ d.flow.outOffset = 2 ∧ d.flow.outEnd = 3 ∧
      d.flow.txBase ≤ d.flow.outOffset ∧ d.flow.outEnd ≤ d.flow.txBase + d.flow.tx.length ∧
      ∀ rs, callsReplayInvalid 2 d.side rs = false := by
  intro e d
  have hk : d.flow.outKind = some .data := by decide +kernel
  have hp : d.flow.phase ≠ .dead := by decide +kernel
  obtain ⟨hrec, hwrite, -⟩ := record_consistent (e := e) rfl halfSent
  obtain ⟨hbase, -, hend⟩ := (hrec hp).2.2.2.2.2.2.1 hk
  exact ⟨hk, by decide +kernel, by decide +kernel, hbase, hend, hwrite⟩

end OhecoBroker.Mapping
