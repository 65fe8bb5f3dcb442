/-
Sends keep the invariant.  A send is taken apart into three moves: the bytes are accepted and
counted, the notifications run, and, when the attempt ended inside the call, the count is
forgotten again.

* `Wire.send`, `Wire.post`, `Inv.accept`: bytes go out, and a frame is begun;
* `Inv.notify`, `Inv.uncounted`: the notifications inside a send;
* `Inv.nextFrame`, `Inv.writeHeader`, `Inv.writePayload`, `Inv.writeFrame`: one frame;
* `Inv.writeCalls`, `Inv.replyFlush`: **`m_v2_write` and `m_reply_flush` keep the invariant**.
-/
import OhecoBroker.Mapping.Moves

namespace OhecoBroker.Mapping

open Lib List

/-! ### The stream -/

variable {x y : Endpoint} {f : Flow} {offset n : ℕ} {k : FrameKind} {r : SendResult} {s s' : Side}

lemma Wire.of_none (h : y.rxAt = none) : Wire x y := by
  intro pos hpos
  simp [h] at hpos

lemma Wire.send {x' : Endpoint} (h : Wire x y) (hg : Grows x.flow x'.flow)
    (hrole : x'.peer.isServer = x.peer.isServer) (sent rest : List Token)
    (hbox : x'.peer.outbox = x.peer.outbox ++ sent.map Prod.fst)
    (hbacked : ∀ t ∈ sent, Backed x'.flow.sockRead x'.flow.sentMax t)
    (howed : ∀ ctl R Q, y.rxAt ≠ none → x.txStatus.Fits ctl R Q →
      R = sent ++ rest ∧ x'.txStatus.Fits ctl rest Q) : Wire x' y := by
  intro pos hpos
  obtain ⟨T, R, bs, Q, hf⟩ := h pos hpos
  obtain ⟨rfl, hfits⟩ := howed _ _ _ (by simp [hpos]) hf.fits
  refine ⟨T ++ sent, rest, bs, Q, ?_, ?_, hf.left, ?_, hf.shape, ?_, hfits⟩
  · rw [map_append, hf.bytes, hbox, append_assoc]
  · intro t ht
    rcases mem_append.mp ht with ht | ht
    · exact (hf.backed t ht).mono hg.read hg.sent
    · exact hbacked t ht
  · rw [append_assoc]
    exact hf.framed
  · exact fun m hm => hrole ▸ (hf.ok m hm).grows hg

lemma Wire.post {x' : Endpoint} (h : Wire x y) (hg : Grows x.flow x'.flow)
    (hrole : x'.peer.isServer = x.peer.isServer) (hbox : x'.peer.outbox = x.peer.outbox)
    {m : Msg} (hm : ¬ m.IsCtl) (hok : m.Ok x'.peer.isServer x'.flow)
    (howed : ∀ ctl R Q, y.rxAt ≠ none → x.txStatus.Fits ctl R Q →
      R = [] ∧ (ctl = true → Q ≠ []) ∧ x'.txStatus.Fits ctl m.enc (Q ++ [m])) : Wire x' y := by
  intro pos hpos
  obtain ⟨T, R, bs, Q, hf⟩ := h pos hpos
  obtain ⟨rfl, hne, hfits⟩ := howed _ _ _ (by simp [hpos]) hf.fits
  refine ⟨T, m.enc, bs, Q ++ [m], hbox ▸ hf.bytes,
    fun t ht => (hf.backed t ht).mono hg.read hg.sent, hf.left, ?_, ?_, ?_, hfits⟩
  · have := hf.framed
    rw [append_nil] at this
    rw [← append_assoc, this, encAll_append, append_assoc]
    simp
  · have := hf.shape
    rcases Q with _ | ⟨q, Q⟩
    · have hctl : pos.ctl = false := by
        by_contra hc
        exact hne (by simpa using hc) rfl
      simp [Shape, hm, hctl]
    refine ⟨this.1, fun q' hq' => ?_⟩
    rcases mem_append.mp hq' with hq' | hq'
    · exact this.2 q' hq'
    · rw [mem_singleton.mp hq']
      exact hm
  intro q hq
  rcases mem_append.mp hq with hq | hq
  · exact hrole ▸ (hf.ok q hq).grows hg
  · rw [mem_singleton.mp hq]
    exact hok

lemma Flow.fits_sending {g : Flow} {a : Bool} {ctl : Bool} {R : List Token} {Q : List Msg}
    (hphase : g.phase = f.phase) (hlocal : g.isLocal = f.isLocal)
    (hreply : f.reply.length ≤ f.replyPos → g.reply.length ≤ g.replyPos)
    (hf : f.txStatus a = .sending f) (hfits : (TxStatus.sending f).Fits ctl R Q) :
    (g.txStatus a).Fits ctl (unsent g) Q := by
  unfold Flow.txStatus at hf ⊢
  rw [hphase, hlocal]
  split_ifs at hf ⊢ with h1 h2 h3
  all_goals first
    | trivial
    | exact ⟨rfl, hfits.2.1, hphase ▸ hfits.2.2.1, fun ha => hreply (hfits.2.2.2 (hphase ▸ ha))⟩

lemma Inv.accept (h : Inv x y) {pos txPos high reply top : ℕ} (hf : f = { x.flow with
      outPos := pos, outOffset := offset, txPos := txPos, txSentHigh := high
      replyPos := reply, sentMax := top })
    (hs : x.flow.stream = true)
    (hst : y.rxAt ≠ none → x.flow.txStatus x.peer.attemptStop = .sending x.flow)
    (hreply : x.flow.replyPos ≤ reply)
    (htop : x.flow.sentMax ≤ top ∧ top ≤ x.flow.sockRead.length ∧ top ≤ uint64Max)
    (hout : x.flow.outKind = some .data → offset ≤ x.flow.outEnd)
    {bytes : List UInt8} {sent : List Token} (hbytes : sent.map Prod.fst = bytes)
    (hbacked : ∀ t ∈ sent, Backed x.flow.sockRead top t)
    (howed : y.rxAt ≠ none → unsent x.flow = sent ++ unsent f) :
    Inv { x with peer := { x.peer with outbox := x.peer.outbox ++ bytes }, flow := f } y := by
  have hok := h.left.flow
  have hokf : FlowOk f := by
    subst hf
    exact { hok with
      sent := htop.2
      out := fun k hk =>
        ⟨(hok.out k hk).1, fun hd => ⟨hout (hd ▸ hk), ((hok.out k hk).2 hd).2⟩⟩ }
  have hg : Grows x.flow f := by
    subst hf
    exact ⟨prefix_rfl, fun he => ⟨he, rfl⟩, le_rfl, htop.1⟩
  have hend : EndOk { x with
      peer := { x.peer with outbox := x.peer.outbox ++ bytes }, flow := f } := by
    subst hf
    exact h.left.change hokf h.left.control rfl rfl id rfl rfl rfl h.left.unready
  have hstream : f.stream = x.flow.stream := by rw [hf]
  refine h.move hend rfl hg (by subst hf; exact h.forth.base) ?_ ?_ ?_
  · subst hf
    exact h.back.data.target rfl prefix_rfl rfl rfl rfl
  · refine h.forth.wire.send hg rfl sent (unsent f) (by rw [hbytes]) (by subst hf; exact hbacked) ?_
    intro ctl R Q hy hfits
    rw [Endpoint.txStatus_of_bound h.left (Endpoint.bound_of_stream h.left hs), hst hy] at hfits
    rw [Endpoint.txStatus_of_bound hend (Endpoint.bound_of_stream hend (hstream.trans hs))]
    exact ⟨hfits.1.trans (howed hy), Flow.fits_sending (by rw [hf]) (by rw [hf])
      (fun hle => by subst hf; exact hle.trans hreply) (hst hy) hfits⟩
  · refine h.back.wire.receiver rfl (Endpoint.rxAt_change h.left hend hstream rfl fun _ => .inr ?_)
    subst hf
    rfl

/-! ### Frames -/

/-- Inside `m_v2_write`: the flow holds the stream, its control message is out. -/
structure Writing (x y : Endpoint) : Prop where
  stream : x.flow.stream = true
  active : x.flow.phase = .active
  running : x.peer.attemptStop = false
  replied : y.rxAt ≠ none → x.flow.reply.length ≤ x.flow.replyPos

/-- Inside `m_v2_write` a flow goes on sending. -/
lemma Writing.status (w : Writing x y) (hy : y.rxAt ≠ none) :
    x.flow.txStatus x.peer.attemptStop = .sending x.flow := by
  simp [Flow.txStatus, w.active, w.running, Nat.not_lt.mpr (w.replied hy)]

lemma Inv.writing (h : Inv x y) (hw : canWrite x.side) : Writing x y := by
  obtain ⟨hs, hp, -, -, hc, ha⟩ := hw
  refine ⟨hs, hp, ha, fun hy => ?_⟩
  obtain ⟨pos, hpos⟩ := Option.ne_none_iff_exists'.mp hy
  obtain ⟨T, R, bs, Q, hf⟩ := h.forth.wire pos hpos
  have hfits := hf.fits
  rw [Endpoint.txStatus_of_bound h.left (Endpoint.bound_of_stream h.left hs)] at hfits
  by_contra hlt
  have hsend : x.flow.txStatus x.peer.attemptStop = .sending x.flow := by
    simp [Flow.txStatus, show x.flow.phase = .active from hp, Nat.not_le.mp hlt,
      show x.flow.closeRequested = false from hc]
  rw [hsend] at hfits
  exact hlt (hfits.2.2.2 hp)

lemma Inv.notify {p : Peer} (h : Inv { x with peer := p, flow := f } y)
    (hf : SameNotified x.flow f) (cs : List Callback) :
    ∃ q b r, callbacks ⟨p, x.flow⟩ cs = ⟨q, { x.flow with stream := b, closeRequested := r }⟩ ∧
      Inv { x with peer := q, flow := { f with stream := b, closeRequested := r } } y ∧
      (b = true → x.flow.stream = true) := by
  obtain ⟨q, b, r, hcb, hb⟩ := callbacks_frame cs p x.flow
  refine ⟨q, b, r, hcb x.flow ⟨rfl, rfl, rfl, rfl, rfl, rfl⟩, ?_, hb⟩
  have := h.notifiedAll cs
  simp only [Endpoint.onFlow, Endpoint.side, hcb f hf] at this
  exact this

/-- The first bytes of a frame are plain. -/
lemma unsentFrame_header (hk : f.outKind = some k) (n : ℕ) :
    unsentFrame f = plain ((f.outFrame.drop f.outPos).take n) ++
      unsentFrame { f with outPos := f.outPos + ((f.outFrame.drop f.outPos).take n).length } := by
  have hdrop : (f.outFrame.drop f.outPos).take n ++
      f.outFrame.drop (f.outPos + ((f.outFrame.drop f.outPos).take n).length)
        = f.outFrame.drop f.outPos := by
    rw [← drop_drop, length_take]
    conv_rhs => rw [← take_append_drop n (f.outFrame.drop f.outPos)]
    congr 1
    rw [drop_eq_drop_iff]
    omega
  cases k <;>
    simp only [unsentFrame, hk, ← append_assoc, ← plain_append, hdrop]

/-- No control message is left to send. -/
lemma Writing.unsent (w : Writing x y) (hy : y.rxAt ≠ none) :
    Mapping.unsent x.flow = unsentFrame x.flow := by
  rw [Mapping.unsent, drop_eq_nil_of_le (w.replied hy), plain_nil, nil_append]

lemma Inv.uncounted {q : Peer} {b r : Bool} {g : Flow}
    (h : Inv { x with peer := q, flow := { f with stream := b, closeRequested := r } } y)
    {pos txPos high : ℕ}
    (hg : g = { f with outPos := pos, outOffset := offset, txPos := txPos, txSentHigh := high })
    (hactive : f.phase = .active) (hreplied : y.rxAt ≠ none → f.reply.length ≤ f.replyPos)
    (hstop : b = false ∨ q.attemptStop = true)
    (hout : f.outKind = some .data → offset ≤ f.outEnd) :
    Inv { x with peer := q, flow := { g with stream := b, closeRequested := r } } y := by
  subst hg
  refine h.forget rfl (fun hb hy => ?_) hout
  have hstop : q.attemptStop = true := hstop.resolve_left (by simpa using hb)
  simp [Flow.txStatus, hactive, hstop, Nat.not_lt.mpr (hreplied hy)]

lemma mV2WriteHeader_sent
    (h : xqcStreamSend s (s.flow.outFrame.drop s.flow.outPos) r = (s', .sent n)) :
    mV2WriteHeader s r =
      if s'.flow.stream = false ∨ s'.peer.attemptStop = true then (s', false)
      else ({ s' with flow := { s'.flow with outPos := s'.flow.outPos + n } },
        decide (frameHeader ≤ s'.flow.outPos + n)) := by
  simp only [mV2WriteHeader, h]

lemma Inv.writeHeader (h : Inv x y) (w : Writing x y)
    (hk : x.flow.outKind = some k) (r : SendResult) :
    Inv (x.onFlow fun s => (mV2WriteHeader s r).1) y ∧
      ((mV2WriteHeader x.side r).2 = true →
        Writing (x.onFlow fun s => (mV2WriteHeader s r).1) y ∧
          (mV2WriteHeader x.side r).1.flow.outKind = some k ∧
          frameHeader ≤ (mV2WriteHeader x.side r).1.flow.outPos) := by
  obtain ⟨ret, cs⟩ := r
  have hplain : Inv (x.onFlow fun s => callbacks s cs) y := h.notifiedAll cs
  cases ret with
  | again => exact ⟨hplain, (by rintro ⟨⟩)⟩
  | error => exact ⟨hplain.transportFail, (by rintro ⟨⟩)⟩
  | sent n =>
    obtain ⟨bytes, hbytes⟩ : ∃ bs, bs = (x.flow.outFrame.drop x.flow.outPos).take n := ⟨_, rfl⟩
    have hcount : Inv { x with
        peer := { x.peer with outbox := x.peer.outbox ++ bytes }
        flow := { x.flow with outPos := x.flow.outPos + bytes.length } } y := by
      refine h.accept rfl w.stream w.status le_rfl ⟨le_rfl, h.left.flow.sent⟩
        (fun hd => ((h.left.flow.out _ hd).2 rfl).1) (map_fst_plain bytes)
        (backed_plain _ _ _) fun hy => ?_
      rw [w.unsent hy, Mapping.unsent, drop_eq_nil_of_le (w.replied hy), plain_nil,
        nil_append, unsentFrame_header hk n, hbytes]
    obtain ⟨q, b, c, hcb, hinv, -⟩ :=
      Inv.notify (x := x) hcount ⟨rfl, rfl, rfl, rfl, rfl, rfl⟩ cs
    have hsend : xqcStreamSend x.side (x.flow.outFrame.drop x.flow.outPos) ⟨.sent n, cs⟩
        = (⟨q, { x.flow with stream := b, closeRequested := c }⟩, .sent bytes.length) := by
      rw [← hcb, hbytes]
      rfl
    have hres := mV2WriteHeader_sent hsend
    by_cases hstop : b = false ∨ q.attemptStop = true
    · rw [if_pos hstop] at hres
      refine ⟨?_, by simp [hres]⟩
      simp only [Endpoint.onFlow, hres]
      exact hinv.uncounted rfl w.active w.replied hstop
        fun hd => ((h.left.flow.out _ hd).2 rfl).1
    rw [if_neg hstop] at hres
    simp only [Endpoint.onFlow, hres]
    rw [not_or] at hstop
    refine ⟨hinv, fun hgo => ⟨⟨?_, w.active, ?_, w.replied⟩, hk, of_decide_eq_true hgo⟩⟩
    · simpa using hstop.1
    · simpa using hstop.2

lemma unsentFrame_data (hk : f.outKind = some .data)
    (hlen : f.outFrame.length = frameHeader) (hpos : frameHeader ≤ f.outPos) :
    unsentFrame f =
      located f.outOffset ((f.sockRead.drop f.outOffset).take (f.outEnd - f.outOffset)) := by
  simp only [unsentFrame, hk, drop_eq_nil_of_le (hlen ▸ hpos), plain_nil, nil_append]

lemma located_slice (src : List UInt8) (a b n : ℕ) {bs : List UInt8}
    (hbs : bs = ((src.drop a).take (b - a)).take n) :
    located a ((src.drop a).take (b - a)) =
      located a bs ++ located (a + bs.length)
        ((src.drop (a + bs.length)).take (b - (a + bs.length))) := by
  have hrest : (src.drop (a + bs.length)).take (b - (a + bs.length))
      = ((src.drop a).take (b - a)).drop bs.length := by
    rw [drop_take, drop_drop, Nat.sub_add_eq]
  have hsplit : (src.drop a).take (b - a) = bs ++ ((src.drop a).take (b - a)).drop bs.length := by
    conv_lhs => rw [← take_append_drop n ((src.drop a).take (b - a)), ← hbs]
    congr 1
    rw [hbs, drop_eq_drop_iff]
    simp only [length_take, length_drop]
    omega
  rw [hrest, ← located_append, ← hsplit]

lemma mV2WritePayload_sent
    (hrange : ¬ (s.flow.outOffset < s.flow.txBase ∨ mTxNext s.flow < s.flow.outEnd))
    (h : xqcStreamSend s ((s.flow.tx.drop (s.flow.outOffset - s.flow.txBase)).take
      (s.flow.outEnd - s.flow.outOffset)) r = (s', .sent n)) :
    mV2WritePayload s r =
      let top := max s'.flow.sentMax (s'.flow.outOffset + n)
      if s'.flow.stream = false ∨ s'.peer.attemptStop = true then
        ({ s' with flow := { s'.flow with sentMax := top } }, false)
      else
        ({ s' with flow := { s'.flow with
            sentMax := top, outOffset := s'.flow.outOffset + n
            txPos := s'.flow.outOffset + n - s'.flow.txBase
            txSentHigh := max s'.flow.txSentHigh (s'.flow.outOffset + n) } },
          decide (s'.flow.outEnd ≤ s'.flow.outOffset + n)) := by
  simp only [mV2WritePayload, if_neg hrange, h]

lemma Inv.writePayload (h : Inv x y) (w : Writing x y)
    (hk : x.flow.outKind = some .data) (hpos : frameHeader ≤ x.flow.outPos)
    (r : SendResult) :
    Inv (x.onFlow fun s => (mV2WritePayload s r).1) y ∧
      ((mV2WritePayload x.side r).2 = true →
        Writing (x.onFlow fun s => (mV2WritePayload s r).1) y ∧
          (mV2WritePayload x.side r).1.flow.outKind = some .data ∧
          frameHeader ≤ (mV2WritePayload x.side r).1.flow.outPos ∧
          (mV2WritePayload x.side r).1.flow.outEnd ≤
            (mV2WritePayload x.side r).1.flow.outOffset) := by
  obtain ⟨ret, cs⟩ := r
  have hok := h.left.flow
  obtain ⟨hlen, hend⟩ := hok.out _ hk
  obtain ⟨hle, hread⟩ := hend rfl
  have hfd : x.flow.fd = true := hok.alive (by simp [w.active])
  obtain ⟨htx, hbase, hmax⟩ := hok.tx hfd
  by_cases hrange : x.flow.outOffset < x.flow.txBase ∨ mTxNext x.flow < x.flow.outEnd
  · have hres : mV2WritePayload x.side ⟨ret, cs⟩ = (x.side.fail, false) := by
      simp only [mV2WritePayload]
      exact if_pos hrange
    simp only [Endpoint.onFlow, hres]
    exact ⟨h.fail, (by rintro ⟨⟩)⟩
  have hplain : Inv (x.onFlow fun s => callbacks s cs) y := h.notifiedAll cs
  cases ret with
  | again =>
    have hres : mV2WritePayload x.side ⟨.again, cs⟩ = (callbacks x.side cs, false) := by
      simp only [mV2WritePayload]
      exact if_neg hrange
    simp only [Endpoint.onFlow, hres]
    exact ⟨hplain, (by rintro ⟨⟩)⟩
  | error =>
    have hres :
        mV2WritePayload x.side ⟨.error, cs⟩ = ((callbacks x.side cs).transportFail, false) := by
      simp only [mV2WritePayload]
      exact if_neg hrange
    simp only [Endpoint.onFlow, hres]
    exact ⟨hplain.transportFail, (by rintro ⟨⟩)⟩
  | sent n =>
    obtain ⟨bytes, hbytes⟩ : ∃ bs, bs = (((x.flow.sockRead.drop x.flow.outOffset).take
      (x.flow.outEnd - x.flow.outOffset)).take n) := ⟨_, rfl⟩
    have hpayload : (x.flow.tx.drop (x.flow.outOffset - x.flow.txBase)).take
        (x.flow.outEnd - x.flow.outOffset)
          = (x.flow.sockRead.drop x.flow.outOffset).take (x.flow.outEnd - x.flow.outOffset) := by
      rw [htx, drop_drop, Nat.add_sub_cancel' (by omega)]
    have hblen : x.flow.outOffset + bytes.length ≤ x.flow.outEnd := by
      simp only [hbytes, length_take]
      omega
    have hcount : Inv { x with
        peer := { x.peer with outbox := x.peer.outbox ++ bytes }
        flow := { x.flow with
          sentMax := max x.flow.sentMax (x.flow.outOffset + bytes.length)
          outOffset := x.flow.outOffset + bytes.length
          txPos := x.flow.outOffset + bytes.length - x.flow.txBase
          txSentHigh := max x.flow.txSentHigh (x.flow.outOffset + bytes.length) } } y := by
      refine h.accept rfl w.stream w.status le_rfl ⟨le_max_left .., ?_⟩ (fun _ => hblen)
        (map_fst_located x.flow.outOffset bytes) (backed_located.mpr ⟨?_, fun _ => le_max_right ..⟩)
        fun hy => ?_
      · have := hok.sent
        omega
      · rw [hbytes]
        exact (List.take_prefix _ _).trans (List.take_prefix _ _)
      rw [w.unsent hy, Mapping.unsent, drop_eq_nil_of_le (w.replied hy), plain_nil,
        nil_append, unsentFrame_data hk hlen hpos, located_slice _ _ _ n hbytes]
      congr 1
      exact Eq.symm (unsentFrame_data (f := { x.flow with
        outOffset := x.flow.outOffset + bytes.length }) hk hlen hpos)
    obtain ⟨q, b, c, hcb, hinv, -⟩ :=
      Inv.notify (x := x) hcount ⟨rfl, rfl, rfl, rfl, rfl, rfl⟩ cs
    have hsend : xqcStreamSend x.side ((x.side.flow.tx.drop
        (x.side.flow.outOffset - x.side.flow.txBase)).take
          (x.side.flow.outEnd - x.side.flow.outOffset)) ⟨.sent n, cs⟩
        = (⟨q, { x.flow with stream := b, closeRequested := c }⟩, .sent bytes.length) := by
      rw [← hcb, hbytes, ← hpayload]
      rfl
    have hres := mV2WritePayload_sent hrange hsend
    by_cases hstop : b = false ∨ q.attemptStop = true
    · simp only [if_pos hstop] at hres
      refine ⟨?_, by simp [hres]⟩
      simp only [Endpoint.onFlow, hres]
      exact hinv.uncounted rfl w.active w.replied hstop fun _ => hle
    simp only [if_neg hstop] at hres
    simp only [Endpoint.onFlow, hres]
    rw [not_or] at hstop
    refine ⟨hinv, fun hgo => ⟨⟨?_, w.active, ?_, w.replied⟩, hk, hpos, of_decide_eq_true hgo⟩⟩
    · simpa using hstop.1
    · simpa using hstop.2

lemma Inv.complete (h : Inv x y) (w : Writing x y)
    (hk : x.flow.outKind = some k) (hpos : frameHeader ≤ x.flow.outPos)
    (hdata : k = .data → x.flow.outEnd ≤ x.flow.outOffset) :
    Inv { x with flow := (mV2Complete x.flow).1 } y := by
  have hok := h.left.flow
  obtain ⟨hlen, -⟩ := hok.out _ hk
  have hnil : unsentFrame x.flow = [] := by
    have hdrop : x.flow.outFrame.drop x.flow.outPos = [] := drop_eq_nil_of_le (hlen ▸ hpos)
    cases k with
    | data =>
      rw [unsentFrame_data hk hlen hpos, Nat.sub_eq_zero_of_le (hdata rfl)]
      simp
    | ack => simp [unsentFrame, hk, hdrop]
    | fin => simp [unsentFrame, hk, hdrop]
  set f := (mV2Complete x.flow).1 with hf
  have hR : unsent x.flow = unsent f := by
    rw [unsent, hnil]
    rfl
  refine h.moveFlow { hok with out := (by intros; contradiction), quiet := fun _ => rfl }
    h.left.control rfl rfl id (.of_eq rfl rfl rfl rfl) h.forth.base
    (h.back.data.target rfl prefix_rfl rfl rfl rfl) ?_ fun _ => .inr rfl
  intro _ hy ctl R Q hfits
  rw [w.status hy] at hfits
  rw [hfits.1, hR]
  exact Flow.fits_sending (f := x.flow) rfl rfl id (w.status hy) hfits

/-- A frame is begun. -/
lemma Inv.beginFrame (h : Inv x y) (w : Writing x y)
    (hnone : x.flow.outKind = none) (hsusp : x.flow.suspended = false) {kind : FrameKind}
    {flags length : ℕ} (payload : List UInt8) (hlen : payload.length = length)
    (hpay : payload = if kind = .data then (x.flow.sockRead.drop offset).take length else [])
    (hread : kind = .data → offset + length ≤ x.flow.sockRead.length)
    (hmsg : (Msg.frame kind flags x.flow.id offset payload).Ok x.peer.isServer x.flow) :
    Inv { x with flow := mV2Frame x.flow kind flags length offset } y := by
  have hok := h.left.flow
  set f := mV2Frame x.flow kind flags length offset with hf
  have hokf : FlowOk f := { hok with
    out := fun k hk => by
      have hk : kind = k := by simpa [hf, mV2Frame] using hk
      subst hk
      exact ⟨length_v2HeaderBytes .., fun hd => ⟨Nat.le_add_right .., hread hd⟩⟩
    quiet := fun hq => by
      have : f.phase = .active := w.active
      rw [this] at hq
      simp [hf, mV2Frame, hsusp] at hq }
  have hend : EndOk { x with flow := f } :=
    h.left.change hokf h.left.control rfl rfl id rfl rfl rfl h.left.unready
  have henc : unsentFrame f = (Msg.frame kind flags x.flow.id offset payload).enc := by
    cases kind with
    | data =>
      rw [if_pos rfl] at hpay
      simp only [hf, unsentFrame, mV2Frame, Msg.enc, drop_zero, Nat.add_sub_cancel_left,
        ← hpay, hlen]
    | ack =>
      simp only [reduceCtorEq, if_false] at hpay
      simp [hf, unsentFrame, mV2Frame, Msg.enc, hpay, ← hlen]
    | fin =>
      simp only [reduceCtorEq, if_false] at hpay
      simp [hf, unsentFrame, mV2Frame, Msg.enc, hpay, ← hlen]
  refine h.move hend rfl (.of_eq rfl rfl rfl rfl) h.forth.base
    (h.back.data.target rfl prefix_rfl rfl rfl rfl) ?_ ?_
  · refine h.forth.wire.post (m := .frame kind flags x.flow.id offset payload)
      (.of_eq rfl rfl rfl rfl) rfl rfl id hmsg ?_
    intro ctl R Q hy hfits
    have hs := w.stream
    rw [Endpoint.txStatus_of_bound h.left (Endpoint.bound_of_stream h.left hs),
      w.status hy] at hfits
    rw [Endpoint.txStatus_of_bound hend (Endpoint.bound_of_stream hend hs)]
    have hR : R = [] := by
      rw [hfits.1, w.unsent hy]
      simp [unsentFrame, hnone]
    refine ⟨hR, hfits.2.1, ?_⟩
    have hstatus : f.txStatus x.peer.attemptStop = .sending f :=
      Writing.status (x := { x with flow := f })
        ⟨w.stream, w.active, w.running, w.replied⟩ hy
    rw [hstatus]
    have hreplied : f.reply.length ≤ f.replyPos := w.replied hy
    refine ⟨?_, by simp, fun hp => ?_, fun _ => hreplied⟩
    · rw [unsent, henc, drop_eq_nil_of_le hreplied, plain_nil, nil_append]
    · exact absurd (w.active.symm.trans hp) (by simp)
  · exact h.back.wire.receiver rfl (Endpoint.rxAt_change h.left hend rfl rfl fun _ => .inr rfl)

/-- The next frame is chosen. -/
lemma Inv.nextFrame (h : Inv x y) (w : Writing x y)
    (hsusp : x.flow.suspended = false) : Inv { x with flow := mV2Next x.flow } y := by
  have hok := h.left.flow
  have hfd : x.flow.fd = true := hok.alive (by simp [w.active])
  obtain ⟨htx, hbase, hmax⟩ := hok.tx hfd
  unfold mV2Next
  split
  · exact h
  rename_i hkind
  have hnone : x.flow.outKind = none := by simpa using hkind
  split
  · refine h.beginFrame w hnone hsusp [] rfl (by simp) (by simp) ⟨rfl, ?_, ?_⟩
    · split <;> omega
    · exact (hok.commit hfd).le
  split
  · rename_i hpos
    have hlen : x.flow.tx.length = x.flow.sockRead.length - x.flow.txBase := by
      rw [htx, length_drop]
    refine h.beginFrame w hnone hsusp ((x.flow.sockRead.drop
      (x.flow.txBase + x.flow.txPos)).take (min (x.flow.tx.length - x.flow.txPos) ioBudget))
      ?_ (by simp) ?_ ⟨rfl, ?_, ?_, ?_⟩
    all_goals simp only [ne_eq, ← length_eq_zero_iff, length_take, length_drop,
      ioBudget]
    all_goals omega
  split
  · rename_i hfin
    have hfinal := hok.final hfd
    rw [if_pos hfin.1] at hfinal
    exact h.beginFrame w hnone hsusp [] rfl (by simp) (by simp)
      ⟨rfl, rfl, hfinal ▸ hmax, hfin.1, hfinal⟩
  · exact h

lemma Inv.writeFrame (h : Inv x y) (w : Writing x y)
    (hk : x.flow.outKind = some k) (r : FrameSends) :
    Inv (x.withSide (mV2WriteFrame x.side r).1) y := by
  obtain ⟨s₁, go₁, hs₁, hinv₁, hgo₁⟩ : ∃ s₁ go₁,
      (if x.side.flow.outPos < frameHeader then mV2WriteHeader x.side r.header
        else (x.side, true)) = (s₁, go₁) ∧ Inv (x.withSide s₁) y ∧
      (go₁ = true → Writing (x.withSide s₁) y ∧ s₁.flow.outKind = some k ∧
        frameHeader ≤ s₁.flow.outPos) := by
    by_cases hpos : x.side.flow.outPos < frameHeader
    · rw [if_pos hpos]
      exact ⟨_, _, rfl, h.writeHeader w hk _⟩
    · rw [if_neg hpos]
      exact ⟨_, _, rfl, h, fun _ => ⟨w, hk, Nat.not_lt.mp hpos⟩⟩
  simp only [mV2WriteFrame, hs₁]
  cases go₁ with
  | false => exact hinv₁
  | true =>
    obtain ⟨w₁, hk₁, hpos₁⟩ := hgo₁ rfl
    simp only [Bool.true_eq_false, if_false]
    obtain ⟨s₂, go₂, hs₂, hinv₂, hgo₂⟩ : ∃ s₂ go₂,
        (if s₁.flow.outKind = some .data ∧ s₁.flow.outOffset < s₁.flow.outEnd then
          mV2WritePayload s₁ r.payload else (s₁, true)) = (s₂, go₂) ∧
        Inv (x.withSide s₂) y ∧
        (go₂ = true → Writing (x.withSide s₂) y ∧ s₂.flow.outKind = some k ∧
          frameHeader ≤ s₂.flow.outPos ∧ (k = .data → s₂.flow.outEnd ≤ s₂.flow.outOffset)) := by
      by_cases hpay : s₁.flow.outKind = some .data ∧ s₁.flow.outOffset < s₁.flow.outEnd
      · rw [if_pos hpay]
        have hdata : k = .data := by
          have := hk₁.symm.trans hpay.1
          simpa using this
        obtain ⟨h1, h2⟩ := hinv₁.writePayload w₁ hpay.1 hpos₁ r.payload
        exact ⟨_, _, rfl, h1, fun hgo => by
          obtain ⟨a, b, c, d⟩ := h2 hgo
          exact ⟨a, hdata ▸ b, c, fun _ => d⟩⟩
      rw [if_neg hpay]
      refine ⟨_, _, rfl, hinv₁, fun _ => ⟨w₁, hk₁, hpos₁, fun hd => ?_⟩⟩
      rw [hk₁, hd] at hpay
      simpa using hpay
    simp only [hs₂]
    cases go₂ with
    | false => exact hinv₂
    | true =>
      obtain ⟨w₂, hk₂, hpos₂, hdata⟩ := hgo₂ rfl
      exact hinv₂.complete w₂ hk₂ hpos₂ hdata

lemma mV2Next_same (f : Flow) : (mV2Next f).stream = f.stream ∧ (mV2Next f).phase = f.phase ∧
    (mV2Next f).reply = f.reply ∧ (mV2Next f).replyPos = f.replyPos := by
  unfold mV2Next
  split_ifs <;> exact ⟨rfl, rfl, rfl, rfl⟩

theorem Inv.writeCalls (h : Inv x y) (n : ℕ) (rs : List FrameSends) :
    Inv (x.withSide (mV2WriteCalls n x.side rs)) y := by
  induction n generalizing x rs with
  | zero => exact h
  | succ n ih =>
    unfold mV2WriteCalls
    by_cases hw : canWrite x.side
    · rw [if_neg (not_not.mpr hw)]
      have w := h.writing hw
      have hnext := h.nextFrame w hw.2.2.2.1
      have wnext : Writing { x with flow := mV2Next x.flow } y := by
        obtain ⟨h1, h2, h3, h4⟩ := mV2Next_same x.flow
        exact ⟨h1 ▸ w.stream, h2 ▸ w.active, w.running, fun hy => h3 ▸ h4 ▸ w.replied hy⟩
      simp only
      split
      · exact hnext
      rename_i hkind
      obtain ⟨k, hk⟩ := Option.ne_none_iff_exists'.mp hkind
      have hframe := hnext.writeFrame wnext hk (rs.headD {})
      split
      · exact ih hframe _
      · exact hframe
    · rw [if_pos hw]
      exact h

/-! ### Control messages -/

/-- The first bytes of a control message. -/
lemma unsent_reply (f : Flow) (n : ℕ) :
    unsent f = plain ((f.reply.drop f.replyPos).take n) ++
      unsent { f with replyPos := f.replyPos + ((f.reply.drop f.replyPos).take n).length } := by
  have hdrop : (f.reply.drop f.replyPos).take n ++
      f.reply.drop (f.replyPos + ((f.reply.drop f.replyPos).take n).length)
        = f.reply.drop f.replyPos := by
    rw [← drop_drop, length_take]
    conv_rhs => rw [← take_append_drop n (f.reply.drop f.replyPos)]
    congr 1
    rw [drop_eq_drop_iff]
    omega
  rw [unsent, unsent, ← append_assoc, ← plain_append, hdrop]
  rfl

lemma mReplySend_sent (h : xqcStreamSend s (s.flow.reply.drop s.flow.replyPos) r = (s', .sent n)) :
    mReplySend s r =
      if s'.flow.stream = false ∨ s'.flow.closeRequested = true then (s', false)
      else ({ s' with flow := { s'.flow with replyPos := s'.flow.replyPos + n } },
        decide (s'.flow.reply.length ≤ s'.flow.replyPos + n)) := by
  simp only [mReplySend, h]

lemma Inv.replySend (h : Inv x y) (hs : x.flow.stream = true)
    (hc : x.flow.closeRequested = false) (hd : x.flow.phase ≠ .dead)
    (hpos : x.flow.replyPos < x.flow.reply.length) (r : SendResult) :
    Inv (x.withSide (mReplySend x.side r).1) y ∧
      ((mReplySend x.side r).2 = true →
        (mReplySend x.side r).1.flow.reply.length ≤ (mReplySend x.side r).1.flow.replyPos) := by
  obtain ⟨ret, cs⟩ := r
  have hok := h.left.flow
  have hsil : ¬ (x.flow.phase = .control ∧ x.flow.isLocal = false) := fun hsil => by
    simp [h.left.clientOnly hsil.1] at hsil
  have hplain : Inv (x.withSide (callbacks x.side cs)) y := h.notifiedAll cs
  cases ret with
  | again => exact ⟨hplain, (by rintro ⟨⟩)⟩
  | error =>
    simp only [mReplySend, xqcStreamSend]
    split
    · exact ⟨hplain.transportFail, (by rintro ⟨⟩)⟩
    · exact ⟨hplain.abort, (by rintro ⟨⟩)⟩
  | sent n =>
    obtain ⟨bytes, hbytes⟩ : ∃ bs, bs = (x.flow.reply.drop x.flow.replyPos).take n := ⟨_, rfl⟩
    have hcount : Inv { x with
        peer := { x.peer with outbox := x.peer.outbox ++ bytes }
        flow := { x.flow with replyPos := x.flow.replyPos + bytes.length } } y := by
      refine h.accept rfl hs (fun _ => ?_) (Nat.le_add_right ..) ⟨le_rfl, hok.sent⟩
        (fun hd => ((hok.out _ hd).2 rfl).1) (map_fst_plain bytes) (backed_plain _ _ _)
        fun _ => ?_
      · simp [Flow.txStatus, hd, hsil, hpos, hc]
      · rw [hbytes]
        exact unsent_reply x.flow n
    obtain ⟨q, b, c, hcb, hinv, -⟩ :=
      Inv.notify (x := x) hcount ⟨rfl, rfl, rfl, rfl, rfl, rfl⟩ cs
    have hsend : xqcStreamSend x.side (x.side.flow.reply.drop x.side.flow.replyPos) ⟨.sent n, cs⟩
        = (⟨q, { x.flow with stream := b, closeRequested := c }⟩, .sent bytes.length) := by
      rw [← hcb, hbytes]
      rfl
    have hres := mReplySend_sent hsend
    by_cases hstop : b = false ∨ c = true
    · rw [if_pos hstop] at hres
      refine ⟨?_, by simp [hres]⟩
      simp only [Endpoint.withSide, hres]
      refine hinv.forget rfl (fun hb _ => ?_) fun hd => ((hok.out _ hd).2 rfl).1
      have hclose : c = true := hstop.resolve_left (by simpa using hb)
      simp [Flow.txStatus, hd, hsil, hpos, hclose]
    · rw [if_neg hstop] at hres
      simp only [Endpoint.withSide, hres]
      exact ⟨hinv, of_decide_eq_true⟩

lemma Inv.established (h : Inv x y) (hp : x.flow.phase = .reply)
    (hsent : x.flow.reply.length ≤ x.flow.replyPos) :
    Inv { x with flow := { x.flow with acked := true, phase := .active } } y := by
  have hok := h.left.flow
  refine h.moveFlow
    { hok with
      alive := fun _ => hok.alive (by simp [hp])
      quiet := fun _ => hok.quiet (.inr (.inl hp))
      idle := fun hq => hok.idle (.inr (hq.resolve_left (by simp)))
      setup := ⟨by simp, by simp⟩ }
    (fun hc => (by cases hc)) rfl rfl (fun hc => (by cases hc)) (.of_eq rfl rfl rfl rfl)
    h.forth.base (h.back.data.target rfl prefix_rfl rfl rfl rfl) ?_ fun _ => .inr ?_
  · intro _ _ ctl R Q hfits
    simp only [Flow.txStatus, hp, Nat.not_lt.mpr hsent] at hfits ⊢
    cases hstop : x.peer.attemptStop with
    | true => simp [TxStatus.Fits]
    | false =>
      simp only [hstop] at hfits
      exact ⟨hfits.1, hfits.2.1, (by rintro ⟨⟩), fun _ => hsent⟩
  · simp [Flow.rxAt, hp]

/-- **`m_reply_flush` keeps the invariant.** -/
theorem Inv.replyFlush (h : Inv x y) (r : SendResult) :
    Inv (x.withSide (mReplyFlush x.side r)) y := by
  unfold mReplyFlush
  split
  · exact h
  rename_i hguard
  simp only [not_or] at hguard
  obtain ⟨hs, hc, hd, -⟩ := hguard
  obtain ⟨s₁, done, hs₁, hinv, hdone⟩ : ∃ s₁ done,
      (if x.side.flow.replyPos < x.side.flow.reply.length then mReplySend x.side r
        else (x.side, true)) = (s₁, done) ∧ Inv (x.withSide s₁) y ∧
      (done = true → s₁.flow.reply.length ≤ s₁.flow.replyPos) := by
    by_cases hpos : x.side.flow.replyPos < x.side.flow.reply.length
    · rw [if_pos hpos]
      exact ⟨_, _, rfl, h.replySend (by simpa using hs) (by simpa using hc) hd hpos r⟩
    · rw [if_neg hpos]
      exact ⟨_, _, rfl, h, fun _ => Nat.not_lt.mp hpos⟩
  simp only [hs₁]
  split
  · rename_i hflushed
    split
    · exact hinv.abort
    · exact hinv.established hflushed.2 (hdone hflushed.1)
  · exact hinv

end OhecoBroker.Mapping
