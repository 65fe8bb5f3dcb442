/-
When a retained flow can be resumed.  Between honest ends only one check of `m_resume_apply` can
fail: the bound by `tx_sent_high`, which `m_v2_write` does not raise when the attempt ends inside
the send that accepted the bytes.

* `Held`, `Resumable`: both ends hold the flow, and each accepts the snapshot of the other;
* `Copied.accepts`: a snapshot passes every check, as long as the other end counted what it sent;
* `LinkAct.Quiet`, `LinkAct.Quiet.counted`: a step counts the payload it sends unless a
  notification ends the attempt inside a send;
* `resumable_of_quiet`: **every flow is resumable in every state of a run of such steps**;
* `uncounted_payload_refused`: a run with `conn_closing` inside the send of a byte, after which
  the client refuses the snapshot of the broker.
-/
import OhecoBroker.Mapping.Delivered

namespace OhecoBroker.Mapping

open Lib List

/-- The socket is open and the grace deadline is ahead. -/
def Held (e : Endpoint) : Prop :=
  e.flow.suspended = true ∧ e.flow.fd = true ∧ e.peer.now < e.flow.graceDeadlineUs

instance (e : Endpoint) : Decidable (Held e) := inferInstanceAs (Decidable (_ ∧ _))

/-- What `m_resume_apply` makes of the other end's snapshot. -/
def exchange (f g : Flow) : Flow × Bool := mResumeApply f (mResumeSnapshot g 0)

/-- While both ends hold the flow, each accepts the snapshot of the other, and none delivered more
than the other counted as sent. -/
structure Resumable (l : Link) : Prop where
  broker : Held l.client → Held l.broker → (exchange l.broker.flow l.client.flow).2 = true
  client : Held l.client → Held l.broker →
    (exchange l.client.flow (exchange l.broker.flow l.client.flow).1).2 = true
  clientSent : l.broker.flow.fd = true → l.broker.flow.rxCommit ≤ l.client.flow.txSentHigh
  brokerSent : l.client.flow.fd = true → l.client.flow.rxCommit ≤ l.broker.flow.txSentHigh

/-! ### One exchange -/

variable {f g : Flow} {r : SendResult} {s : Side} {env : TickEnv}

lemma FlowOk.read_snapshot (h : FlowOk f) (hfd : f.fd = true) {m : ℕ}
    (hm : f.sockWritten.length ≤ m) (hmax : m ≤ uint64Max) :
    Snapshot.read (mResumeSnapshot f 0) = snapshot f 0 := by
  obtain ⟨-, hbase, hread⟩ := h.tx hfd
  refine Snapshot.read_bytes _ (by simp [snapshot]) ?_ ?_ (hbase.trans hread) ?_ ?_
  · simp only [snapshot]
    split_ifs <;> omega
  · exact ((h.commit hfd).le.trans hm).trans hmax
  · simp only [snapshot]
    rwa [h.txNext hfd]
  · simp only [snapshot, h.final hfd]
    split_ifs
    · exact hread
    · exact Nat.zero_le _

/-- What it says of the end of the socket. -/
lemma snapshot_eof (f : Flow) : (snapshot f 0).eof ↔ f.socketEof = true := by
  cases hs : f.socketEof <;> cases ha : f.rxFinApplied <;> simp [Snapshot.eof, snapshot, hs, ha]

/-- What it says of the half-close. -/
lemma snapshot_finApplied (f : Flow) : (snapshot f 0).finApplied ↔ f.rxFinApplied = true := by
  cases hs : f.socketEof <;> cases ha : f.rxFinApplied <;>
    simp [Snapshot.finApplied, snapshot, hs, ha]

lemma mV2Ack_accepts {offset flags : ℕ} (hflags : flags ≤ 1)
    (hnext : offset ≤ mTxNext f) (hhigh : offset ≤ f.txSentHigh)
    (hfin : flags ≠ 0 → f.socketEof = true ∧ offset = f.txFinal)
    (hpos : offset - f.txBase ≤ f.txPos) : ∃ g, mV2Ack f offset flags = some g := by
  unfold mV2Ack
  rw [if_neg (by omega), if_neg (by rintro ⟨h0, h⟩; simp [hfin h0] at h)]
  split
  · rw [if_neg (by omega)]
    exact ⟨_, rfl⟩
  · exact ⟨_, rfl⟩

lemma Copied.accepts (hf : FlowOk f) (hg : FlowOk g) (hfd : f.fd = true)
    (hgd : g.fd = true) (hfg : Copied f g) (hgf : Copied g f)
    (hfbase : f.txBase ≤ g.sockWritten.length) (hgbase : g.txBase ≤ f.sockWritten.length)
    (hcount : f.sentMax ≤ f.txSentHigh) : (exchange f g).2 = true := by
  have hread := hg.read_snapshot hgd (hfg.sent.trans' (prefix_append _ _).length_le) hf.sent.2
  have hfw : g.sockWritten <+: f.sockRead := (prefix_append _ _).trans hfg.copy
  have hgw : f.sockWritten <+: g.sockRead := (prefix_append _ _).trans hgf.copy
  have hsent : g.rxCommit ≤ f.txSentHigh := by
    rw [hg.commit hgd]
    exact ((prefix_append _ _).length_le.trans hfg.sent).trans hcount
  have hfin : g.rxFinApplied = true → f.socketEof = true ∧ g.rxCommit = f.txFinal := by
    intro ha
    obtain ⟨heof, heq⟩ := hfg.shut (hg.shut.trans ha)
    exact ⟨heof, by rw [hg.commit hgd, hf.final hfd, if_pos heof, heq]⟩
  have hvalid : ¬ resumeInvalid f (snapshot g 0) := by
    have h1 := hf.commit hfd
    have h2 := hg.commit hgd
    have h3 := hf.txNext hfd
    have h4 := hg.txNext hgd
    have h5 := hfw.length_le
    have h6 := hgw.length_le
    have h7 := (hg.tx hgd).2.1
    rintro (h | h | h | h | h | h | h | ⟨he, h⟩ | ⟨he, h⟩ | ⟨ha, h⟩ | ⟨hr, h⟩)
    · exact h rfl
    · simp only [snapshot] at h
      split_ifs at h <;> omega
    · simp only [snapshot] at h
      omega
    · simp only [snapshot] at h
      omega
    · simp only [snapshot] at h
      omega
    · simp only [snapshot] at h
      omega
    · simp only [snapshot] at h
      omega
    · refine h ?_
      simp only [snapshot, hg.final hgd, (snapshot_eof g).mp he, if_true, h4]
    · refine h ?_
      have hs : g.socketEof = false := by simpa [snapshot_eof] using he
      simp only [snapshot, hg.final hgd, hs]
      rfl
    · obtain ⟨heof, heq⟩ := hfin ((snapshot_finApplied g).mp ha)
      rcases h with h | h
      · cases heof.symm.trans h
      · exact h heq
    · obtain ⟨heof, hfinal⟩ := hgf.fin hr
      rcases h with h | h
      · exact h ((snapshot_eof g).mpr heof)
      · refine h ?_
        simp only [snapshot, hg.final hgd, heof, if_true]
        exact hfinal.symm
  have hack : ∃ k, mV2Ack { f with txPos := f.tx.length } (snapshot g 0).delivered
      (if (snapshot g 0).finApplied then 1 else 0) = some k := by
    have hle : g.rxCommit ≤ mTxNext f := by
      rw [hg.commit hgd, hf.txNext hfd]
      exact hfw.length_le
    refine mV2Ack_accepts (by split_ifs <;> omega) hle hsent (fun h0 => ?_) ?_
    · refine hfin ((snapshot_finApplied g).mp ?_)
      by_contra hne
      exact h0 (if_neg hne)
    · simp only [mTxNext, snapshot] at hle ⊢
      omega
  obtain ⟨k, hk⟩ := hack
  simp only [exchange, mResumeApply, hread, if_neg hvalid, hk]

/-! ### Counting what was sent -/

/-- The furthest byte a stream accepted is below `tx_sent_high`, or was so before. -/
def Counted (f f' : Flow) : Prop := f'.sentMax ≤ max f.sentMax f'.txSentHigh

/-- The step counts the payload it sends, at both ends. -/
def CountedStep (l : Link) (a : LinkAct) : Prop :=
  Counted l.client.flow (l.step a).client.flow ∧ Counted l.broker.flow (l.step a).broker.flow

lemma Counted.of_history (h : g.history = f.history) : Counted f g := by
  simp only [Flow.history, Prod.mk.injEq] at h
  exact h.2.2.2.2.2.le.trans (le_max_left _ _)

lemma Counted.comp {k : Flow} (h : Counted f g) (h' : Counted g k) (hlater : Later g k) :
    Counted f k :=
  h'.trans (max_le (h.trans (max_le_max le_rfl hlater.high)) (le_max_right _ _))

lemma Counted.refl (f : Flow) : Counted f f := le_max_left _ _

/-- A send that accepts bytes runs no notification but a reset of the stream. -/
def SendResult.Quiet (r : SendResult) : Prop :=
  ∀ n, r.ret = .sent n → ∀ c ∈ r.callbacks, c = .streamReset

lemma callbacks_quiet {cs : List Callback} (h : ∀ c ∈ cs, c = .streamReset) (s : Side) :
    (callbacks s cs).flow.stream = s.flow.stream ∧ (callbacks s cs).peer = s.peer := by
  induction cs generalizing s with
  | nil => exact ⟨rfl, rfl⟩
  | cons c cs ih =>
    obtain rfl : c = .streamReset := h c (mem_cons_self ..)
    obtain ⟨h1, h2⟩ := ih (fun c hc => h c (mem_cons_of_mem _ hc)) (mReset s)
    have hreset : (mReset s).flow.stream = s.flow.stream ∧ (mReset s).peer = s.peer := by
      unfold mReset
      split <;> exact ⟨rfl, rfl⟩
    exact ⟨h1.trans hreset.1, h2.trans hreset.2⟩

lemma SendResult.Quiet.running (hr : r.Quiet) {s' : Side} {bs : List UInt8}
    {n : ℕ} (h : xqcStreamSend s bs r = (s', .sent n)) :
    s'.flow.stream = s.flow.stream ∧ s'.peer.attemptStop = s.peer.attemptStop := by
  unfold xqcStreamSend at h
  split at h
  · rename_i m hm
    obtain ⟨h1, h2⟩ := callbacks_quiet (hr m hm)
      { s with peer := { s.peer with outbox := s.peer.outbox ++ bs.take m } }
    obtain ⟨rfl, -⟩ := Prod.mk.inj h
    exact ⟨h1, by rw [h2]⟩
  · rename_i hne
    obtain ⟨-, hret⟩ := Prod.mk.inj h
    exact absurd hret (hne n)

/-- The stream is there and the attempt goes on. -/
def Side.Running (s : Side) : Prop := s.flow.stream = true ∧ s.peer.attemptStop = false

lemma mV2WritePayload_counted (hs : s.Running) (hr : r.Quiet) :
    Counted s.flow (mV2WritePayload s r).1.flow := by
  have hist {s' : Side} {ret : SendRet} (h : xqcStreamSend s
      ((s.flow.tx.drop (s.flow.outOffset - s.flow.txBase)).take
        (s.flow.outEnd - s.flow.outOffset)) r = (s', ret)) : Counted s.flow s'.flow :=
    .of_history (Side.history_eq (xqcStreamSend_kept_of h))
  unfold mV2WritePayload
  simp only
  split
  · exact .of_history rfl
  split
  · rename_i hsend
    exact hist hsend
  · rename_i hsend
    have hcount := hist hsend
    exact hcount
  rename_i s' n hsend
  obtain ⟨hstream, hrun⟩ := hr.running hsend
  have hcount := hist hsend
  split
  · rename_i hstop
    rcases hstop with hstop | hstop
    · cases hstop.symm.trans (hstream.trans hs.1)
    · cases (hrun.trans hs.2).symm.trans hstop
  · refine max_le (le_trans hcount (max_le_max le_rfl (le_max_left _ _))) ?_
    exact (le_max_right _ _).trans (le_max_right _ _)

lemma FrameSends.quiet_headD {rs : List FrameSends} (h : ∀ r ∈ rs, r.payload.Quiet) :
    (rs.headD {}).payload.Quiet := by
  cases rs with
  | nil => exact fun _ hret => (by cases hret)
  | cons r rs => exact h r (mem_cons_self ..)

lemma mV2WriteHeader_running (h : (mV2WriteHeader s r).2 = true) :
    (mV2WriteHeader s r).1.Running := by
  unfold mV2WriteHeader at h ⊢
  split at h
  · cases h
  · cases h
  split at h
  · cases h
  · rename_i hgo
    rw [if_neg hgo]
    simpa [Side.Running] using hgo

lemma mV2WriteFrame_counted (hs : s.Running) {r : FrameSends}
    (hr : r.payload.Quiet) : Counted s.flow (mV2WriteFrame s r).1.flow := by
  obtain ⟨s₁, go, hs₁, hist, hrun⟩ : ∃ s₁ go,
      (if s.flow.outPos < frameHeader then mV2WriteHeader s r.header else (s, true)) =
        (s₁, go) ∧ s₁.flow.history = s.flow.history ∧ (go = true → s₁.Running) := by
    split
    · exact ⟨_, _, rfl, Side.history_eq (mV2WriteHeader_kept s _), mV2WriteHeader_running⟩
    · exact ⟨_, _, rfl, rfl, fun _ => hs⟩
  have hfirst : Counted s.flow s₁.flow := .of_history hist
  simp only [mV2WriteFrame, hs₁]
  cases go with
  | false => exact hfirst
  | true =>
    obtain ⟨s₂, go₂, hs₂, hcount⟩ : ∃ s₂ go₂,
        (if s₁.flow.outKind = some .data ∧ s₁.flow.outOffset < s₁.flow.outEnd then
          mV2WritePayload s₁ r.payload else (s₁, true)) = (s₂, go₂) ∧
        Counted s.flow s₂.flow := by
      split
      · exact ⟨_, _, rfl, hfirst.comp (mV2WritePayload_counted (hrun rfl) hr)
          (mV2WritePayload_later s₁ _)⟩
      · exact ⟨_, _, rfl, hfirst⟩
    simp only [hs₂]
    cases go₂ with
    | false => exact hcount
    | true => exact hcount

lemma mV2WriteCalls_counted (n : ℕ) (s : Side) {rs : List FrameSends}
    (hrs : ∀ r ∈ rs, r.payload.Quiet) : Counted s.flow (mV2WriteCalls n s rs).flow := by
  induction n generalizing s rs with
  | zero => exact .refl _
  | succ n ih =>
    have hnext : Counted s.flow (mV2Next s.flow) := .of_history (Flow.history_eq (mV2Next_kept _))
    rw [mV2WriteCalls]
    split
    · exact .refl _
    rename_i hcan
    obtain ⟨hstream, -, -, -, -, hrun⟩ := not_not.mp hcan
    have hs : Side.Running { s with flow := mV2Next s.flow } := by
      refine ⟨?_, hrun⟩
      unfold mV2Next
      split_ifs <;> exact hstream
    have hcount := hnext.comp (mV2WriteFrame_counted hs (FrameSends.quiet_headD hrs))
      (mV2WriteFrame_later { s with flow := mV2Next s.flow } _)
    simp only
    split
    · exact hnext
    split
    · exact hcount.comp (ih _ fun r hr => hrs r (mem_of_mem_tail hr))
        (mV2WriteCalls_later n _ _)
    · exact hcount

lemma mV2TickSend_sentMax (h : mV2TickSend f env = some g) : g.sentMax = f.sentMax := by
  have hdrained (f : Flow) : (drained f).sentMax = f.sentMax :=
    congrArg (·.2.2.2.2.2) (Flow.history_eq (drained_kept f))
  unfold mV2TickSend at h
  split at h
  · simp only at h
    split at h
    · cases h
    all_goals
      cases h
      exact hdrained _
  · cases h
    rfl

lemma mV2TickShut_sentMax (h : mV2TickShut f env = some g) : g.sentMax = f.sentMax := by
  unfold mV2TickShut at h
  split_ifs at h <;>
    (obtain rfl := Option.some.inj h; rfl)

lemma mV2TickRecv_sentMax (s : Side) (env : TickEnv) :
    (mV2TickRecv s env).1.flow.sentMax = s.flow.sentMax := by
  unfold mV2TickRecv
  simp only
  split
  · split
    · rfl
    · rfl
    · split_ifs <;> rfl
  · rfl

lemma Counted.composes :
    Composes fun s t => Counted s.flow t.flow ∧ Later s.flow t.flow :=
  ⟨fun _ => ⟨.refl _, .refl _⟩, fun h h' => ⟨h.1.comp h'.1 h'.2, h.2.trans h'.2⟩⟩

/-- The payload of a tick is counted. -/
lemma mV2Tick_counted (s : Side) (h : ∀ r ∈ env.writes, r.payload.Quiet) :
    Counted s.flow (mV2Tick s env).flow := by
  have hsent {f g : Flow} (h : g.sentMax = f.sentMax) : Counted f g := h.le.trans (le_max_left _ _)
  exact (Counted.composes.tick (fun s => ⟨.refl _, (Later.refl s.flow).abort⟩)
    (fun h => ⟨hsent (mV2TickSend_sentMax h), mV2TickSend_later h⟩)
    (fun h => ⟨hsent (mV2TickShut_sentMax h), mV2TickShut_later h⟩)
    (fun s => ⟨hsent (mV2TickRecv_sentMax s env), mV2TickRecv_later s env⟩)
    (fun s => ⟨mV2WriteCalls_counted 2 s h, mV2WriteCalls_later 2 s env.writes⟩) s).1

/-- The delivery sends of the step are quiet. -/
def LinkAct.Quiet : LinkAct → Prop
  | .client a => ∀ rs ∈ a.sends, ∀ r ∈ rs, r.payload.Quiet
  | .broker a => ∀ rs ∈ a.sends, ∀ r ∈ rs, r.payload.Quiet
  | _ => True

theorem LinkAct.Quiet.counted {a : LinkAct} (h : a.Quiet) (l : Link) : CountedStep l a := by
  have hact (e : Endpoint) {a : Act} (h : ∀ rs ∈ a.sends, ∀ r ∈ rs, r.payload.Quiet) :
      Counted e.flow (e.act a).flow := by
    cases ha : a.sends with
    | none => exact .of_history (e.act_history ha)
    | some _ =>
      cases a with
      | tick env => exact mV2Tick_counted e.side (h _ rfl)
      | write rs => exact mV2WriteCalls_counted 2 e.side (h _ rfl)
      | _ => cases ha
  cases a with
  | client a => exact ⟨hact l.client h, .refl _⟩
  | broker a => exact ⟨.refl _, hact l.broker h⟩
  | toBroker n => exact ⟨.refl _, .refl _⟩
  | toClient n => exact ⟨.refl _, .refl _⟩
  | connect cc bc =>
    unfold CountedStep Link.step
    simp only
    split <;> exact ⟨.refl _, .refl _⟩

/-! ### Every flow is resumable -/

lemma Link.Ok.resumable {l : Link} (hok : l.Ok)
    (hc : l.client.flow.sentMax ≤ l.client.flow.txSentHigh)
    (hb : l.broker.flow.sentMax ≤ l.broker.flow.txSentHigh) : Resumable l := by
  have hsent {f g : Flow} (hg : FlowOk g) (hfg : Copied f g) (hf : f.sentMax ≤ f.txSentHigh)
      (hgd : g.fd = true) : g.rxCommit ≤ f.txSentHigh := by
    rw [hg.commit hgd]
    exact ((prefix_append _ _).length_le.trans hfg.sent).trans hf
  have hcf := hok.left.flow
  have hbf := hok.right.flow
  refine ⟨fun hlc hlb => ?_, fun hlc hlb => ?_, hsent hbf hok.forth.data hc,
    hsent hcf hok.back.data hb⟩
  · exact Copied.accepts hbf hcf hlb.2.1 hlc.2.1 hok.back.data hok.forth.data
      (hok.back.base hlb.2.1) (hok.forth.base hlc.2.1) hb
  have hacc := Copied.accepts hbf hcf hlb.2.1 hlc.2.1 hok.back.data hok.forth.data
    (hok.back.base hlb.2.1) (hok.forth.base hlc.2.1) hb
  obtain ⟨g, hg⟩ : ∃ g, exchange l.broker.flow l.client.flow = (g, true) :=
    ⟨_, Prod.ext rfl hacc⟩
  obtain ⟨base, fin, rfl, hstatus, hle, hnext, hor⟩ := mResumeApply_true hg
  have hsnap := hcf.snapOk hlc.2.1
  rw [hg]
  exact Copied.accepts hcf (hbf.resumed hlb.2.1 fin hle hnext) hlc.2.1 hlb.2.1
    (hok.forth.data.resumed fin hstatus hsnap)
    (hok.back.data.source (.of_eq rfl rfl rfl rfl)) (hok.forth.base hlc.2.1)
    (hsnap.base_le hstatus (hok.back.base hlb.2.1) hor) hc

/-- **Every flow is resumable** while no notification ends the attempt or closes the stream inside
a send that accepts payload. -/
theorem resumable_of_quiet (c : Config) (as : List LinkAct) (has : ∀ a ∈ as, a.Quiet) :
    Resumable (Link.after c as) := by
  obtain ⟨hok, hc, hb⟩ : (Link.after c as).Ok ∧
      (Link.after c as).client.flow.sentMax ≤ (Link.after c as).client.flow.txSentHigh ∧
      (Link.after c as).broker.flow.sentMax ≤ (Link.after c as).broker.flow.txSentHigh := by
    refine along_invariant (I := fun l : Link => l.Ok ∧
      l.client.flow.sentMax ≤ l.client.flow.txSentHigh ∧
      l.broker.flow.sentMax ≤ l.broker.flow.txSentHigh) ?_ ⟨Inv.initial c, le_rfl, le_rfl⟩
      (along_of_forall has)
    rintro l a ⟨hok, hc, hb⟩ hquiet
    obtain ⟨hcount, hcount'⟩ := hquiet.counted l
    obtain ⟨hlater, hlater'⟩ := l.step_later a
    exact ⟨l.ok_step a hok, hcount.trans (max_le (hc.trans hlater.high) le_rfl),
      hcount'.trans (max_le (hb.trans hlater'.high) le_rfl)⟩
  exact hok.resumable hc hb

/-! ### Payload that was not counted -/

/-- A flow to port 80 of `a`, with a grace of one second. -/
def sampleConfig : Config where
  id := 1
  target := ⟨[97], 80⟩
  clientGraceMs := 1000
  brokerGraceMs := 1000

/-- The client sends the byte 7, and `cs` run inside the send; the byte is delivered, then the
attempt ends. -/
def cutAfterPayload (cs : List Callback) : List LinkAct :=
  [.broker (.flush { ret := .sent 20 }), .toClient 20,
    .client (.read [.data 16 false, .data 4 false] {}),
    .client (.tick
      { pollIn := true, recv := .data [7]
        writes := [{
          header := { ret := .sent 24 }, payload := { ret := .sent 1, callbacks := cs } }] }),
    .toBroker 25, .broker (.read [.data 24 false, .data 1 false] {}),
    .broker (.tick { pollOut := true, send := .sent 1 }),
    .client .transportFail, .broker .transportFail, .client .detach, .broker .detach]

/-- The byte 7 was delivered before the cut, and its flow is resumable. -/
theorem resumable_of_quiet_sample :
    Held (Link.after sampleConfig (cutAfterPayload [])).client ∧
    Held (Link.after sampleConfig (cutAfterPayload [])).broker ∧
    (Link.after sampleConfig (cutAfterPayload [])).broker.flow.sockWritten = [7] ∧
    Resumable (Link.after sampleConfig (cutAfterPayload [])) :=
  ⟨by decide +kernel, by decide +kernel, by decide +kernel,
    resumable_of_quiet sampleConfig (cutAfterPayload [])
      (by simp [cutAfterPayload, LinkAct.Quiet, Act.sends, SendResult.Quiet])⟩

/-- The client opens a stream with its `RESUME`, the broker answers. -/
def resumeAttempt : List LinkAct :=
  [.client .attemptBegin, .broker .attemptBegin, .connect true true,
    .broker (.ready true {}), .client (.ready true { ret := .sent 56 }),
    .toBroker 56, .broker (.create true),
    .broker (.incomingRead [.data 16 false, .data 40 false] {} 0),
    .broker (.flush { ret := .sent 56 }), .toClient 56,
    .client (.read [.data 16 false, .data 40 false] {})]

/-- **Uncounted payload is refused.** `conn_closing` runs inside the send of the byte 7: the
broker delivers it, and the client refuses the snapshot it is answered with. -/
theorem uncounted_payload_refused :
    let l := Link.after sampleConfig (cutAfterPayload [.connClosing])
    let l' := Link.after sampleConfig (cutAfterPayload [.connClosing] ++ resumeAttempt)
    Held l.client ∧ Held l.broker ∧ l.client.flow.txSentHigh < l.broker.flow.rxCommit ∧
      (exchange l.broker.flow l.client.flow).2 = true ∧
      (exchange l.client.flow (exchange l.broker.flow l.client.flow).1).2 = false ∧
      ¬ Resumable l ∧ l'.client.flow.phase = .dead := by
  refine ⟨by decide +kernel, by decide +kernel, by decide +kernel, by decide +kernel,
    by decide +kernel, fun h => ?_, by decide +kernel⟩
  exact absurd (h.clientSent (by decide +kernel)) (by decide +kernel)

end OhecoBroker.Mapping
