/-
The incoming flow, which parses a `RESUME` on behalf of the retained flow.

* `Endpoint.bound_incoming`, `EndOk.flow_stream`: which flow holds the stream;
* `Inv.moveIncoming`, `Inv.incomingAbort`: the incoming flow changes on its own;
* `Inv.incomingFlush`: **`m_reply_flush` of a refused `RESUME` keeps the invariant**.
-/
import OhecoBroker.Mapping.Sending

namespace OhecoBroker.Mapping

open Lib

/-! ### The incoming flow and the stream -/

variable {e x y : Endpoint} {f : Flow} {g : Option Flow}

/-- An incoming flow with a stream holds it. -/
lemma Endpoint.bound_incoming (hi : e.incoming = some f)
    (hs : f.stream = true) : e.bound = some f := by
  simp [Endpoint.bound, Option.filter, hi, hs]

lemma Endpoint.bound_not_incoming (hs : ∀ f ∈ e.incoming, f.stream = false) :
    e.bound = if e.flow.stream then some e.flow else none := by
  cases hi : e.incoming with
  | none => simp [Endpoint.bound, hi]
  | some f => simp [Endpoint.bound, Option.filter, hi, hs f hi]

/-- Only one flow holds the stream. -/
lemma EndOk.flow_stream (h : EndOk e) (hi : e.incoming = some f)
    (hs : f.stream = true) : e.flow.stream = false := by
  by_contra hne
  simp [h.exclusive (by simpa using hne) f hi] at hs

lemma EndOk.changeIncoming (h : EndOk e) (hi : e.incoming = some f)
    (hok : ∀ k ∈ g, IncomingOk k) {inb out : List UInt8}
    (hstream : ∀ k ∈ g, k.stream = true → f.stream = true) :
    EndOk { e with peer := { e.peer with inbox := inb, outbox := out }, incoming := g } := by
  have hnone : e.bound = none → Endpoint.bound
      { e with peer := { e.peer with inbox := inb, outbox := out }, incoming := g } = none := by
    intro hb
    obtain ⟨hfilter, hflow⟩ := Endpoint.bound_eq_none.mp hb
    refine Endpoint.bound_eq_none.mpr ⟨?_, hflow⟩
    refine Option.filter_eq_none_iff.mpr fun k hk hks => ?_
    simp [hi, Option.filter, hstream k hk hks] at hfilter
  exact
    { flow := h.flow, control := h.control, incoming := hok, role := h.role
      brokerOnly := fun hr => by simp [h.brokerOnly hr] at hi
      clientOnly := h.clientOnly
      awaiting := fun ha => hnone (h.awaiting ha)
      exclusive := fun hs k hk => by
        by_contra hne
        have := hstream k hk (by simpa using hne)
        simp [h.exclusive hs f hi] at this
      detached := fun hd => ⟨hnone (h.detached hd).1, (h.detached hd).2⟩
      unready := h.unready }

lemma EndOk.bound_changeIncoming (h : EndOk e) (hi : e.incoming = some f) {p : Peer}
    (hstream : ∀ k ∈ g, k.stream = true → f.stream = true) :
    (∃ k ∈ g, k.stream = true ∧ e.bound = some f ∧
      Endpoint.bound { e with peer := p, incoming := g } = some k) ∨
    (e.bound = some f ∧ Endpoint.bound { e with peer := p, incoming := g } = none) ∨
    Endpoint.bound { e with peer := p, incoming := g } = e.bound := by
  by_cases hk : ∃ k ∈ g, k.stream = true
  · obtain ⟨k, hk, hks⟩ := hk
    exact .inl ⟨k, hk, hks, Endpoint.bound_incoming hi (hstream k hk hks),
      Endpoint.bound_incoming hk hks⟩
  have hnot : ∀ k ∈ g, k.stream = false := fun k hkg => by
    by_contra hne
    exact hk ⟨k, hkg, by simpa using hne⟩
  have hb := Endpoint.bound_not_incoming (e := { e with peer := p, incoming := g }) hnot
  by_cases hs : f.stream = true
  · exact .inr (.inl ⟨Endpoint.bound_incoming hi hs,
      by simp [hb, show e.flow.stream = false from h.flow_stream hi hs]⟩)
  refine .inr (.inr ?_)
  have hs : ∀ k ∈ e.incoming, k.stream = false := fun k hk => by
    rw [hi, Option.mem_some_iff] at hk
    simpa [← hk] using hs
  rw [hb, Endpoint.bound_not_incoming hs]

lemma Inv.moveIncoming (h : Inv x y) (hi : x.incoming = some f) (hok : ∀ k ∈ g, IncomingOk k)
    (hstream : ∀ k ∈ g, k.stream = true → f.stream = true)
    (htx : ∀ k ∈ g, k.stream = true → ∀ ctl R Q,
      (f.txStatus x.peer.attemptStop).Fits ctl R Q → (k.txStatus x.peer.attemptStop).Fits ctl R Q)
    (hrx : ∀ k ∈ g, k.stream = true → k.rxAt = none ∨ k.rxAt = f.rxAt) :
    Inv { x with incoming := g } y := by
  have hend : EndOk { x with incoming := g } :=
    h.left.changeIncoming hi hok hstream
  have hcases := h.left.bound_changeIncoming hi (p := x.peer) hstream
  refine h.move hend rfl (.of_eq rfl rfl rfl rfl) h.forth.base h.back.data ?_ ?_
  · refine h.forth.wire.sender (.of_eq rfl rfl rfl rfl) rfl rfl fun _ ctl R Q hfits => ?_
    rcases hcases with ⟨k, hk, hks, hb, hb'⟩ | ⟨hb, hb'⟩ | hb
    · rw [Endpoint.txStatus_of_bound h.left hb] at hfits
      rw [Endpoint.txStatus_of_bound hend hb']
      exact htx k hk hks ctl R Q hfits
    · have haw := h.left.awaiting_of_bound hb
      simp [Endpoint.txStatus, haw, hb', TxStatus.Fits]
    · simpa only [Endpoint.txStatus, hb] using hfits
  refine h.back.wire.receiver rfl ?_
  rcases hcases with ⟨k, hk, hks, hb, hb'⟩ | ⟨hb, hb'⟩ | hb
  · rw [Endpoint.rxAt_of_bound h.left hb, Endpoint.rxAt_of_bound hend hb']
    exact hrx k hk hks
  · have haw := h.left.awaiting_of_bound hb
    exact .inl (by simp [Endpoint.rxAt, haw, hb'])
  · exact .inr (by simp only [Endpoint.rxAt, hb])

/-- The incoming flow is aborted. -/
lemma Inv.incomingAbort (h : Inv x y) (hi : x.incoming = some f) :
    Inv { x with incoming := some (mAbort f) } y := by
  have hok := h.left.incoming f hi
  refine h.moveIncoming hi ?_ ?_ ?_ ?_
  · rintro k ⟨⟩
    exact { hok with fd := rfl, control := fun hp => (by cases hp), phase := .inr (.inr rfl) }
  · rintro k ⟨⟩ hs
    exact hs
  · rintro k ⟨⟩ _ ctl R Q _
    simp [mAbort, Flow.txStatus, TxStatus.Fits]
  · rintro k ⟨⟩ _
    exact .inl (by simp [mAbort, Flow.rxAt])

/-- An end with another peer and incoming flow. -/
def Endpoint.withIncoming (e : Endpoint) (s : Side) : Endpoint :=
  { e with peer := s.peer, incoming := some s.flow }

lemma Endpoint.withIncoming_self (hi : e.incoming = some f) : e.withIncoming ⟨e.peer, f⟩ = e := by
  simp only [Endpoint.withIncoming, ← hi]

lemma Inv.incomingNotified (h : Inv x y) (hi : x.incoming = some f)
    (c : Callback) : Inv (x.withIncoming (c.call ⟨x.peer, f⟩)) y := by
  have hok := h.left.incoming f hi
  have hclose (b : Bool) (hb : b = true → f.stream = true) (hc : Bool)
      (hfc : hc = f.closeRequested ∨ hc = true) :
      Inv { x with incoming := some { f with stream := b, closeRequested := hc } } y := by
    refine h.moveIncoming hi ?_ ?_ ?_ ?_
    · rintro k ⟨⟩
      exact { hok with }
    · rintro k ⟨⟩ hs
      exact hb hs
    · rintro k ⟨⟩ hs ctl R Q hfits
      obtain rfl : b = f.stream := Eq.trans hs (hb hs).symm
      rcases hfc with rfl | rfl
      · exact hfits
      · exact Flow.fits_close hfits
    · rintro k ⟨⟩ _
      exact .inr rfl
  have hpeer : ∀ c : Callback, c = .connClosing ∨ c = .connClose → Inv { x with
      peer := (c.call ⟨x.peer, f⟩).peer, incoming := some f } y := by
    rintro c (rfl | rfl)
    · have := h.notified .connClosing
      rw [← hi]
      exact this
    · have := h.notified .connClose
      rw [← hi]
      exact this
  cases c with
  | connClosing => exact hpeer _ (.inl rfl)
  | connClose => exact hpeer _ (.inr rfl)
  | streamClose =>
    simp only [Callback.call, mClose]
    split
    · rwa [Endpoint.withIncoming_self hi]
    split
    · exact hclose false (by rintro ⟨⟩) f.closeRequested (.inl rfl)
    · split
      · exact hclose false (by rintro ⟨⟩) f.closeRequested (.inl rfl)
      · exact hclose false (by rintro ⟨⟩) true (.inr rfl)
  | streamReset =>
    simp only [Callback.call, mReset]
    split
    · rwa [Endpoint.withIncoming_self hi]
    · exact hclose f.stream id true (.inr rfl)

lemma Inv.incomingNotifiedAll (h : Inv x y) (hi : x.incoming = some f) (cs : List Callback) :
    Inv (x.withIncoming (callbacks ⟨x.peer, f⟩ cs)) y := by
  induction cs generalizing x f with
  | nil =>
    show Inv (x.withIncoming ⟨x.peer, f⟩) y
    rwa [Endpoint.withIncoming_self hi]
  | cons c cs ih => exact ih (h.incomingNotified hi c) rfl

/-! ### Refusing a `RESUME` -/

lemma Inv.incomingAccept (h : Inv x y) (hi : x.incoming = some f)
    (hs : f.stream = true) (hst : f.txStatus x.peer.attemptStop = .sending f) (n : ℕ) :
    Inv { x with
      peer := { x.peer with outbox := x.peer.outbox ++ (f.reply.drop f.replyPos).take n }
      incoming := some { f with
        replyPos := f.replyPos + ((f.reply.drop f.replyPos).take n).length } } y := by
  obtain ⟨g, hg⟩ : ∃ g, g = { f with
    replyPos := f.replyPos + ((f.reply.drop f.replyPos).take n).length } := ⟨_, rfl⟩
  have hok := h.left.incoming f hi
  have hokg : ∀ k ∈ some g, IncomingOk k := by
    rintro k ⟨⟩
    rw [hg]
    exact { hok with }
  have hgs : g.stream = true := by rw [hg]; exact hs
  have hend : EndOk { x with
      peer := { x.peer with outbox := x.peer.outbox ++ (f.reply.drop f.replyPos).take n }
      incoming := some g } := h.left.changeIncoming hi hokg fun _ _ _ => hs
  have hb := Endpoint.bound_incoming hi hs
  rw [← hg]
  refine h.move hend rfl (.of_eq rfl rfl rfl rfl) h.forth.base h.back.data ?_ ?_
  · refine h.forth.wire.send (.of_eq rfl rfl rfl rfl) rfl
      (plain ((f.reply.drop f.replyPos).take n)) (unsent g) (by rw [map_fst_plain])
      (backed_plain _ _ _) fun ctl R Q _ hfits => ?_
    rw [Endpoint.txStatus_of_bound h.left hb, hst] at hfits
    rw [Endpoint.txStatus_of_bound hend (Endpoint.bound_incoming rfl hgs)]
    refine ⟨hfits.1.trans ?_, Flow.fits_sending (by rw [hg]) (by rw [hg]) (fun hle => ?_) hst hfits⟩
    · rw [hg]
      exact unsent_reply f n
    · rw [hg]
      exact hle.trans (Nat.le_add_right _ _)
  refine h.back.wire.receiver rfl (.inr ?_)
  rw [Endpoint.rxAt_of_bound h.left hb,
    Endpoint.rxAt_of_bound hend (Endpoint.bound_incoming rfl hgs), hg]
  rfl

lemma Inv.incomingSend (h : Inv x y) (hi : x.incoming = some f)
    (hs : f.stream = true) (hc : f.closeRequested = false) (hp : f.phase = .reply)
    (hpos : f.replyPos < f.reply.length) (r : SendResult) :
    Inv (x.withIncoming (mReplySend ⟨x.peer, f⟩ r).1) y ∧
      ((mReplySend ⟨x.peer, f⟩ r).1.flow.phase = .reply →
        (mReplySend ⟨x.peer, f⟩ r).1.flow.rejectAfterReply = true) := by
  obtain ⟨ret, cs⟩ := r
  have hplain := h.incomingNotifiedAll hi cs
  have hreject {s : Side} (hs : Inv (x.withIncoming s) y) :
      s.flow.phase = .reply → s.flow.rejectAfterReply = true := by
    intro hp
    have hok := hs.left.incoming s.flow rfl
    rcases hok.phase with hk | hk | hk
    · cases hk.1.symm.trans hp
    · exact hk.2
    · cases hk.symm.trans hp
  suffices hinv : Inv (x.withIncoming (mReplySend ⟨x.peer, f⟩ ⟨ret, cs⟩).1) y from
    ⟨hinv, hreject hinv⟩
  cases ret with
  | again => exact hplain
  | error =>
    simp only [mReplySend, xqcStreamSend]
    split
    · exact hplain.transportFail
    · exact hplain.incomingAbort rfl
  | sent n =>
    obtain ⟨bytes, hbytes⟩ : ∃ bs, bs = (f.reply.drop f.replyPos).take n := ⟨_, rfl⟩
    have hst : f.txStatus x.peer.attemptStop = .sending f := by
      simp [Flow.txStatus, hp, hpos, hc]
    have hcount := h.incomingAccept hi hs hst n
    rw [← hbytes] at hcount
    obtain ⟨q, b, c, hcb, -⟩ :=
      callbacks_frame cs { x.peer with outbox := x.peer.outbox ++ bytes } f
    have hinv := hcount.incomingNotifiedAll rfl cs
    rw [hcb { f with replyPos := f.replyPos + bytes.length }
      ⟨rfl, rfl, rfl, rfl, rfl, rfl⟩] at hinv
    have hsend : xqcStreamSend ⟨x.peer, f⟩ (f.reply.drop f.replyPos) ⟨.sent n, cs⟩
        = (⟨q, { f with stream := b, closeRequested := c }⟩, .sent bytes.length) := by
      rw [← hcb f ⟨rfl, rfl, rfl, rfl, rfl, rfl⟩, hbytes]
      rfl
    rw [mReplySend_sent hsend]
    by_cases hstop : b = false ∨ c = true
    · rw [if_pos hstop]
      have hok := hinv.left.incoming _ rfl
      refine hinv.moveIncoming rfl ?_ ?_ ?_ ?_
      · rintro k ⟨⟩
        exact { hok with }
      · rintro k ⟨⟩ hk
        exact hk
      · rintro k ⟨⟩ hk ctl R Q _
        have hclose : c = true := hstop.resolve_left (by simpa using hk)
        simp [Flow.txStatus, hp, hpos, hclose, TxStatus.Fits]
      · rintro k ⟨⟩ _
        exact .inr rfl
    · rw [if_neg hstop]
      exact hinv

lemma Inv.incomingFlush (h : Inv x y) (hi : x.incoming = some f)
    (r : SendResult) : Inv (x.withIncoming (mReplyFlush ⟨x.peer, f⟩ r)) y := by
  have hok := h.left.incoming f hi
  unfold mReplyFlush
  split
  · rwa [Endpoint.withIncoming_self hi]
  rename_i hguard
  simp only [not_or, Bool.not_eq_false, Bool.not_eq_true] at hguard
  obtain ⟨hs, hc, hd, hr⟩ := hguard
  have hp : f.phase = .reply := by
    rcases hok.phase with hk | hk | hk
    · exact absurd hk.2 hr
    · exact hk.1
    · exact absurd hk hd
  obtain ⟨s₁, done, hs₁, hinv, hrej⟩ : ∃ s₁ done,
      (if f.replyPos < f.reply.length then mReplySend ⟨x.peer, f⟩ r
        else ((⟨x.peer, f⟩ : Side), true)) = (s₁, done) ∧ Inv (x.withIncoming s₁) y ∧
      (s₁.flow.phase = .reply → s₁.flow.rejectAfterReply = true) := by
    by_cases hpos : f.replyPos < f.reply.length
    · rw [if_pos hpos]
      exact ⟨_, _, rfl, h.incomingSend hi hs hc hp hpos r⟩
    rw [if_neg hpos]
    refine ⟨_, _, rfl, by rwa [Endpoint.withIncoming_self hi], fun _ => ?_⟩
    rcases hok.phase with hk | hk | hk
    · exact absurd hk.2 hr
    · exact hk.2
    · exact absurd hk hd
  simp only [hs₁]
  split
  · rename_i hflushed
    rw [if_pos (hrej hflushed.2)]
    exact hinv.incomingAbort rfl
  · exact hinv

end OhecoBroker.Mapping
