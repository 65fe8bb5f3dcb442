/-
When the two ends of a managed connection agree on the retained key.  Each end keeps its key
exactly when the proofs match and it was ready before.  The proofs match at both ends or at none;
what may differ is `ever_ready`, after an attempt that only one end completed.

* `Pair.Agreed`, `Sound`: agreement, and the condition on the steps of a run;
* `EndOk`, `Pair.Ok`: the invariant; `EndOk.pake`, `EndOk.offer`, `EndOk.accept`,
  `EndOk.markReady`: one action, at the end that acts and at the other;
* `proofMatches_iff`: a proof matches exactly when the keys are the same;
* `keys_agree_of_sound`: **the retained keys agree in every state of every sound run**;
* `key_replaced_at_one_end`: when only the broker marks the first attempt ready, the second leaves
  the ends with different keys.
-/
import OhecoBroker.Peer.ResumeKey

namespace OhecoBroker.ResumeKey

open Lib List

/-! ### Agreement, and the steps that keep it -/

/-- Ends that last marked the same attempt ready have one key. -/
def Pair.Agreed (s : Pair) : Prop :=
  (s.ends .client).marked = (s.ends .server).marked → (s.ends .client).marked ≠ 0 →
    (s.ends .client).resumeKey = (s.ends .server).resumeKey

def End.Awaits (p : End) : Prop := p.Alive ∧ p.stage = .offered

instance (p : End) : Decidable p.Awaits := inferInstanceAs (Decidable (_ ∧ _))

/-- `ob_peer_mark_ready` passes its guard. -/
def Pair.Marks (s : Pair) (r : Role) : Prop :=
  ((s.ends r).stage = .agreed ∧ (s.ends r).attempt ∈ s.net.replies) ∧
    ¬ ((s.ends r).ready = true ∨ (s.ends r).stop = true ∨ (s.ends r).attemptStop = true)

instance (s : Pair) (r : Role) : Decidable (s.Marks r) := inferInstanceAs (Decidable (_ ∧ _))

/-- A proof matches only while both ends were ready before or neither was; where
`ob_peer_mark_ready` returns early there is no key to replace. -/
def Sound (S : Setting) (s : Pair) (a : Role × Act) : Prop :=
  (a.2 = .accept → (s.ends a.1).Awaits → ∀ m ∈ s.inbound a.1,
    proofMatches S a.1 (s.ends a.1) m → (s.ends a.1).everReady = (s.ends a.1.other).everReady) ∧
  (a.2 = .markReady true → s.Marks a.1 → (s.ends a.1).resumeContextAvailable = true ∨
    (s.ends a.1).resumeKey = (s.ends a.1).freshResumeKey)

instance (S : Setting) (s : Pair) (a : Role × Act) : Decidable (Sound S s a) :=
  inferInstanceAs (Decidable (_ ∧ _))

/-! ### The invariant -/

/-- The signal of the current attempt proves the key the end still has. -/
def IceOk (S : Setting) (ices : List Ice) (r : Role) (p : End) : Prop :=
  ∀ m ∈ ices, m.sender = r → m.mappingVersion = 2 ∧ m.attempt ≤ p.attempt ∧
    (m.attempt = p.attempt → (p.stage = .offered ∨ p.stage = .agreed) ∧
      (p.marked ≠ p.attempt → m.resumeProof = obResumeProof S p r))

/-- An end that sent a message of an attempt agreed in it. -/
def ReachedOk (ns : List ℕ) (p : End) : Prop :=
  ∀ n ∈ ns, n ≤ p.attempt ∧ (n = p.attempt → p.stage = .agreed)

structure SelfOk (S : Setting) (p : End) : Prop where
  zero : p.attempt = 0 → p.stage = .begun
  derived : p.stage ≠ .begun → p.resumeKeySet = true ∧ p.freshResumeKey = S.fresh p.attempt
  marked : p.marked ≤ p.attempt
  markedSet : p.marked ≠ 0 → p.resumeKeySet = true
  once : p.marked = p.attempt → p.attempt ≠ 0 →
    p.ready = true ∨ p.stop = true ∨ p.attemptStop = true
  width : p.resumeKey.length = 32

/-- **The invariant** of the end `p` with the other end `q`. -/
structure EndOk (S : Setting) (N : Net) (r : Role) (p q : End) : Prop where
  self : SelfOk S p
  ice : IceOk S N.ices r p
  reply : ReachedOk N.replies p
  replied : p.marked ≠ 0 → p.marked ∈ N.replies
  proof : r = .client → ReachedOk N.proofs p
  sent : p.stage = .agreed → p.attempt ≤ q.attempt ∧
    (p.attempt = q.attempt → q.stage = .offered ∨ q.stage = .agreed)
  -- one end has decided on the context, no end is ready yet
  context : p.stage = .agreed → p.attempt = q.attempt → p.marked ≠ p.attempt →
    q.marked ≠ q.attempt →
    (p.resumeContextAvailable = true ↔ p.resumeKey = q.resumeKey ∧ p.everReady = true)
  flags : p.stage = .agreed → q.stage = .agreed → p.attempt = q.attempt →
    p.marked ≠ p.attempt → q.marked ≠ q.attempt → p.resumeKey = q.resumeKey →
    p.everReady = q.everReady
  -- the other end is ready, this one not yet
  pending : p.stage = .agreed → p.attempt = q.marked → p.marked ≠ p.attempt →
    if p.resumeContextAvailable then p.resumeKey = q.resumeKey
    else q.resumeKey = S.fresh p.attempt
  agreed : p.marked = q.marked → p.marked ≠ 0 → p.resumeKey = q.resumeKey

/-- Both ends keep the invariant. -/
def Pair.Ok (S : Setting) (s : Pair) : Prop := ∀ r, EndOk S s.net r (s.ends r) (s.ends r.other)

variable {S : Setting} {s : Pair}

lemma EndOk.attempt_ne {N : Net} {r : Role} {p q : End} (h : EndOk S N r p q)
    (hp : p.stage ≠ .begun) : p.attempt ≠ 0 := fun h0 => hp (h.self.zero h0)

/-! ### One lemma for each action -/

section Actions

variable {S : Setting} {N : Net} {r : Role} {p q : End}

lemma EndOk.halt (h : EndOk S N r p q) {ready stop attemptStop : Bool}
    (hs : p.ready = true ∨ p.stop = true ∨ p.attemptStop = true →
      ready = true ∨ stop = true ∨ attemptStop = true) :
    EndOk S N r { p with ready := ready, stop := stop, attemptStop := attemptStop } q :=
  { h with self := { h.self with once := fun hm h0 => hs (h.self.once hm h0) } }

lemma EndOk.halt_other (h : EndOk S N r q p) (ready stop attemptStop : Bool) :
    EndOk S N r q { p with ready := ready, stop := stop, attemptStop := attemptStop } :=
  { h with }

/-- An end begins an attempt. -/
lemma EndOk.attemptBegin (h : EndOk S N r p q) {n : ℕ} (hn : p.attempt < n) :
    EndOk S N r
      { p with attempt := n, stage := .begun, attemptStop := false, ready := false } q where
  self :=
    { zero := fun _ => rfl
      derived := fun hs => absurd rfl hs
      marked := h.self.marked.trans hn.le
      markedSet := h.self.markedSet
      once := fun hm _ => absurd hm (h.self.marked.trans_lt hn).ne
      width := h.self.width }
  ice m hm hr := by
    obtain ⟨hv, hle, -⟩ := h.ice m hm hr
    exact ⟨hv, hle.trans hn.le, fun he => absurd he (hle.trans_lt hn).ne⟩
  reply k hk := ⟨(h.reply k hk).1.trans hn.le,
    fun he => absurd he ((h.reply k hk).1.trans_lt hn).ne⟩
  __ := h
  proof hr k hk := ⟨(h.proof hr k hk).1.trans hn.le,
    fun he => absurd he ((h.proof hr k hk).1.trans_lt hn).ne⟩
  sent hs := (by cases hs)
  context hs := (by cases hs)
  flags hs := (by cases hs)
  pending hs := (by cases hs)

lemma EndOk.attemptBegin_other (h : EndOk S N r q p) {n : ℕ} (hn : p.attempt < n) :
    EndOk S N r q
      { p with attempt := n, stage := .begun, attemptStop := false, ready := false } :=
  -- an end that agreed is in an attempt the other one has begun
  have hlt (hs : q.stage = .agreed) : q.attempt < n := (h.sent hs).1.trans_lt hn
  { h with
    sent := fun hs => ⟨(hlt hs).le, fun he => absurd he (hlt hs).ne⟩
    context := fun hs he => absurd he (hlt hs).ne
    flags := fun hs _ he => absurd he (hlt hs).ne }

lemma Setting.length_fresh (S : Setting) (n : ℕ) : (S.fresh n).length = 32 := S.hkdfLength _ _ _

lemma obResumeKeyDerive_eq (S : Setting) (p : End) :
    obResumeKeyDerive S p =
      { p with
        freshResumeKey := S.fresh p.attempt, resumeKeySet := true
        resumeKey := if p.resumeKeySet then p.resumeKey else S.fresh p.attempt } := by
  have hmanaged : ¬ (S.controlManaged = false ∨ obValidId S.connectionId = false) := by
    simp [S.managed]
  rw [obResumeKeyDerive, if_neg hmanaged]
  cases hset : p.resumeKeySet <;> simp

/-- An end finishes PAKE. -/
lemma EndOk.pake (h : EndOk S N r p q) (h0 : p.attempt ≠ 0) (hp : p.stage = .begun) :
    EndOk S N r { obResumeKeyDerive S p with stage := .derived } q := by
  have hno {P : Prop} (hs : p.stage = .agreed) : P := (by cases hp.symm.trans hs)
  rw [obResumeKeyDerive_eq]
  exact
    { self :=
        { zero := fun hz => absurd hz h0
          derived := fun _ => ⟨rfl, rfl⟩
          marked := h.self.marked
          markedSet := fun _ => rfl
          once := h.self.once
          width := by
            dsimp only
            split
            · exact h.self.width
            · exact S.length_fresh _ }
      ice := fun m hm hr => by
        obtain ⟨hv, hle, hcur⟩ := h.ice m hm hr
        refine ⟨hv, hle, fun he => ?_⟩
        rcases (hcur he).1 with hs | hs
        · cases hp.symm.trans hs
        · exact hno hs
      reply := fun k hk => ⟨(h.reply k hk).1, fun he => hno ((h.reply k hk).2 he)⟩
      replied := h.replied
      proof := fun hr k hk => ⟨(h.proof hr k hk).1, fun he => hno ((h.proof hr k hk).2 he)⟩
      sent := fun hs => (by cases hs)
      context := fun hs => (by cases hs)
      flags := fun hs => (by cases hs)
      pending := fun hs => (by cases hs)
      agreed := fun he h0 => by
        simp only [h.self.markedSet h0, if_true]
        exact h.agreed he h0 }

lemma EndOk.pake_other (h : EndOk S N r q p) (hp : p.stage = .begun) (hself : SelfOk S p) :
    EndOk S N r q { obResumeKeyDerive S p with stage := .derived } := by
  have hne (hs : q.stage = .agreed) : q.attempt ≠ p.attempt := by
    intro he
    rcases (h.sent hs).2 he with hs' | hs'
    · cases hp.symm.trans hs'
    · cases hp.symm.trans hs'
  have hkey (h0 : p.marked ≠ 0) :
      (if p.resumeKeySet then p.resumeKey else S.fresh p.attempt) = p.resumeKey :=
    if_pos (hself.markedSet h0)
  rw [obResumeKeyDerive_eq]
  exact
    { h with
      sent := fun hs => ⟨(h.sent hs).1, fun he => absurd he (hne hs)⟩
      context := fun hs he => absurd he (hne hs)
      flags := fun hs _ he => absurd he (hne hs)
      pending := fun hs he hm => by
        have hpend := h.pending hs he hm
        simp only [hkey (he ▸ h.attempt_ne (by simp [hs]))]
        exact hpend
      agreed := fun he h0 => by
        simp only [hkey (he ▸ h0)]
        exact h.agreed he h0 }

lemma EndOk.offer (h : EndOk S N r p q) (hp : p.stage = .derived) :
    EndOk S { N with ices := N.ices ++ [iceOffer S r p] } r { p with stage := .offered } q := by
  have hno {P : Prop} (hs : p.stage = .agreed) : P := (by cases hp.symm.trans hs)
  have hderived := h.self.derived (by simp [hp])
  exact
    { self :=
        { h.self with
          zero := fun h0 => absurd h0 (h.attempt_ne (by simp [hp]))
          derived := fun _ => hderived }
      ice := fun m hm hr => by
        rcases mem_append.mp hm with hm | hm
        · obtain ⟨hv, hle, hcur⟩ := h.ice m hm hr
          refine ⟨hv, hle, fun he => ?_⟩
          rcases (hcur he).1 with hs | hs
          · cases hp.symm.trans hs
          · exact hno hs
        · obtain rfl := mem_singleton.mp hm
          exact ⟨rfl, le_rfl, fun _ => ⟨.inl rfl, fun _ => rfl⟩⟩
      reply := fun k hk => ⟨(h.reply k hk).1, fun he => hno ((h.reply k hk).2 he)⟩
      replied := h.replied
      proof := fun hr k hk => ⟨(h.proof hr k hk).1, fun he => hno ((h.proof hr k hk).2 he)⟩
      sent := fun hs => (by cases hs)
      context := fun hs => (by cases hs)
      flags := fun hs => (by cases hs)
      pending := fun hs => (by cases hs)
      agreed := h.agreed }

lemma EndOk.offer_other (h : EndOk S N r.other q p) (hp : p.stage = .derived) :
    EndOk S { N with ices := N.ices ++ [iceOffer S r p] } r.other q { p with stage := .offered } :=
  have hno (hs : q.stage = .agreed) (he : q.attempt = p.attempt) : False := by
    rcases (h.sent hs).2 he with hs' | hs'
    · cases hp.symm.trans hs'
    · cases hp.symm.trans hs'
  { h with
    ice := fun m hm hr => by
      rcases mem_append.mp hm with hm | hm
      · exact h.ice m hm hr
      · obtain rfl := mem_singleton.mp hm
        exact absurd hr.symm r.other_ne
    sent := fun hs => ⟨(h.sent hs).1, fun _ => .inl rfl⟩
    context := fun hs he => (hno hs he).elim
    flags := fun hs _ he => (hno hs he).elim }

lemma resumeProof_eq_iff (hS : S.HmacInjective) (hp : SelfOk S p) (hq : SelfOk S q)
    (hpset : p.resumeKeySet = true) (hqset : q.resumeKeySet = true) (he : p.attempt = q.attempt)
    (r : Role) : obResumeProof S p r = obResumeProof S q r ↔ p.resumeKey = q.resumeKey := by
  simp only [obResumeProof, hpset, hqset, he, Bool.true_eq_false, if_false, Option.some.injEq]
  exact ⟨hS _ _ _ hp.width hq.width, fun hk => by rw [hk]⟩

lemma proofMatches_iff (hS : S.HmacInjective) (h : EndOk S N r p q) (h' : EndOk S N r.other q p)
    (hp : p.stage = .offered) {m : Ice} (hm : m ∈ N.ices) (hattempt : m.attempt = p.attempt)
    (hsender : m.sender = r.other) (he : p.attempt = q.attempt) (hq : q.marked ≠ q.attempt) :
    proofMatches S r p m ↔ p.resumeKey = q.resumeKey := by
  obtain ⟨hv, -, hcur⟩ := h'.ice m hm hsender
  obtain ⟨hstage, hproof⟩ := hcur (hattempt.trans he)
  have hpset := (h.self.derived (by simp [hp])).1
  have hqset := (h'.self.derived (by rcases hstage with hs | hs <;> simp [hs])).1
  rw [proofMatches, hproof hq, resumeProof_eq_iff hS h.self h'.self hpset hqset he]
  simp [hv, hpset]

lemma EndOk.accept (hS : S.HmacInjective) (h : EndOk S N r p q) (h' : EndOk S N r.other q p)
    (hp : p.stage = .offered) {m : Ice} (hm : m ∈ N.ices) (hattempt : m.attempt = p.attempt)
    (hsender : m.sender = r.other)
    (hsound : proofMatches S r p m → p.everReady = q.everReady) :
    EndOk S N r { iceAccept S r p m with stage := .agreed } q ∧
      EndOk S N r.other q { iceAccept S r p m with stage := .agreed } := by
  have hderived := h.self.derived (by simp [hp])
  have h0 := h.attempt_ne (p := p) (by simp [hp])
  obtain ⟨-, hle, hcur⟩ := h'.ice m hm hsender
  have hmatch := proofMatches_iff hS h h' hp hm hattempt hsender
  refine ⟨
    { self := { h.self with zero := fun hz => absurd hz h0, derived := fun _ => hderived }
      ice := fun k hk hr => ?_
      reply := fun k hk => ⟨(h.reply k hk).1, fun _ => rfl⟩
      replied := h.replied
      proof := fun hr k hk => ⟨(h.proof hr k hk).1, fun _ => rfl⟩
      sent := fun _ => ⟨hattempt ▸ hle, fun he => (hcur (hattempt.trans he)).1⟩
      context := fun _ he _ hq => ?_
      flags := fun _ _ he _ hq hk => hsound ((hmatch he hq).mpr hk)
      pending := fun _ he _ => ?_
      agreed := h.agreed }, { h' with
      sent := fun hs => ⟨(h'.sent hs).1, fun _ => .inr rfl⟩
      flags := fun _ _ he hq _ hk => (hsound ((hmatch he.symm hq).mpr hk.symm)).symm }⟩
  · obtain ⟨hv, hle, hcur⟩ := h.ice k hk hr
    exact ⟨hv, hle, fun he => ⟨.inr rfl, (hcur he).2⟩⟩
  · have hm := hmatch he hq
    show (if proofMatches S r p m then p.everReady else false) = true ↔ _
    by_cases hk : p.resumeKey = q.resumeKey
    · simp [hm.mpr hk, hk, iceAccept]
    · simp [mt hm.mp hk, hk, iceAccept]
  -- the other end cannot be ready before this one has agreed
  have hmem : p.attempt ∈ N.replies := by
    have hq := h'.replied (fun hz => h0 (he.trans hz))
    rwa [← he] at hq
  cases hp.symm.trans ((h.reply _ hmem).2 rfl)

lemma EndOk.mark (h : EndOk S N r p q) (h' : EndOk S N r.other q p) (hp : p.stage = .agreed)
    (hreply : p.attempt ∈ N.replies) (hm : p.marked ≠ p.attempt) {k : List UInt8}
    {ever ready attemptStop : Bool} (hready : ready = true ∨ p.stop = true ∨ attemptStop = true)
    (hk : if p.resumeContextAvailable then k = p.resumeKey else k = S.fresh p.attempt) :
    EndOk S N r
        { p with
          marked := p.attempt, resumeKey := k, everReady := ever, ready := ready
          attemptStop := attemptStop } q ∧
      EndOk S N r.other q
        { p with
          marked := p.attempt, resumeKey := k, everReady := ever, ready := ready
          attemptStop := attemptStop } := by
  have h0 := h.attempt_ne (by simp [hp])
  have hset := (h.self.derived (by simp [hp])).1
  have hwidth : k.length = 32 := by
    split at hk
    · exact hk ▸ h.self.width
    · exact hk ▸ S.length_fresh _
  have hagreed (he : p.attempt = q.marked) : k = q.resumeKey := by
    have hpend := h.pending hp he hm
    cases hc : p.resumeContextAvailable with
    | true =>
      simp only [hc, if_true] at hk hpend
      exact hk.trans hpend
    | false =>
      simp only [hc, Bool.false_eq_true, if_false] at hk hpend
      exact hk.trans hpend.symm
  refine ⟨
    { h with
      self :=
        { h.self with
          marked := le_rfl
          markedSet := fun _ => hset
          once := fun _ _ => hready
          width := hwidth }
      ice := fun m hm hr => ?_
      replied := fun _ => hreply
      context := fun _ _ hne => absurd rfl hne
      flags := fun _ _ _ hne => absurd rfl hne
      pending := fun _ _ hne => absurd rfl hne
      agreed := fun he _ => hagreed he },
    { h' with
      context := fun _ _ _ hne => absurd rfl hne
      flags := fun _ _ _ _ hne => absurd rfl hne
      pending := fun hs he hq => ?_
      agreed := fun he _ => (hagreed he.symm).symm }⟩
  · obtain ⟨hv, hle, hcur⟩ := h.ice m hm hr
    exact ⟨hv, hle, fun he => ⟨(hcur he).1, fun hne => absurd rfl hne⟩⟩
  -- both ends decided on the context before either was ready, and alike
  have hpc := h.context hp he.symm hm hq
  have hqc := h'.context hs he hq hm
  have hflags := h'.flags hs hp he hq hm
  have hsame : q.resumeContextAvailable = p.resumeContextAvailable := by
    rw [Bool.eq_iff_iff, hpc, hqc]
    refine ⟨fun ⟨hkey, hever⟩ => ⟨hkey.symm, hflags hkey ▸ hever⟩,
      fun ⟨hkey, hever⟩ => ⟨hkey.symm, (hflags hkey.symm).symm ▸ hever⟩⟩
  cases hc : q.resumeContextAvailable with
  | true =>
    simp only [← hsame, hc, if_true] at hk
    exact (hqc.mp hc).1.trans hk.symm
  | false =>
    simp only [← hsame, hc, Bool.false_eq_true, if_false] at hk
    have he' : q.attempt = p.attempt := he
    exact he' ▸ hk

lemma EndOk.markReady (h : EndOk S N r p q) (h' : EndOk S N r.other q p) (hp : p.stage = .agreed)
    (hreply : p.attempt ∈ N.replies) (cut : Bool)
    (hsound : cut = true → ¬ (p.ready = true ∨ p.stop = true ∨ p.attemptStop = true) →
      p.resumeContextAvailable = true ∨ p.resumeKey = p.freshResumeKey) :
    EndOk S N r (obPeerMarkReady p cut) q ∧ EndOk S N r.other q (obPeerMarkReady p cut) := by
  obtain ⟨hset, hfresh⟩ := h.self.derived (by simp [hp])
  by_cases hguard : p.ready = true ∨ p.stop = true ∨ p.attemptStop = true
  · rw [obPeerMarkReady, if_pos hguard]
    exact ⟨h, h'⟩
  have hm : p.marked ≠ p.attempt := fun hm =>
    hguard (h.self.once hm (h.attempt_ne (by simp [hp])))
  obtain ⟨hready, hstop, hattempt⟩ : p.ready = false ∧ p.stop = false ∧ p.attemptStop = false := by
    simpa only [not_or, Bool.not_eq_true] using hguard
  cases cut with
  | true =>
    have hres : obPeerMarkReady p true = { p with
        marked := p.attempt, resumeKey := p.resumeKey, everReady := p.everReady
        ready := false, attemptStop := true } := by
      simp [obPeerMarkReady, obPeerTransportFail, hready, hstop, hattempt]
    rw [hres]
    refine h.mark h' hp hreply hm (.inr (.inr rfl)) ?_
    rcases hsound rfl hguard with hc | hkey
    · simp [hc]
    · cases hc : p.resumeContextAvailable with
      | true => simp
      | false => simpa [hfresh] using hkey
  | false =>
    have hres : obPeerMarkReady p false = { p with
        marked := p.attempt
        resumeKey := if p.resumeContextAvailable = false ∧ p.resumeKeySet = true
          then p.freshResumeKey else p.resumeKey
        everReady := true, ready := true, attemptStop := p.attemptStop } := by
      simp [obPeerMarkReady, hready, hstop, hattempt]
    rw [hres]
    refine h.mark h' hp hreply hm (.inl rfl) ?_
    cases hc : p.resumeContextAvailable with
    | true => simp
    | false => simp [hset, hfresh]

end Actions

/-! ### Every step, every run -/

lemma Pair.Ok.set {s' : Pair} {r : Role} {p : End} (hs : s'.ends = Function.update s.ends r p)
    (h : EndOk S s'.net r p (s.ends r.other) ∧ EndOk S s'.net r.other (s.ends r.other) p) :
    s'.Ok S := by
  intro r'
  obtain rfl | rfl : r' = r ∨ r' = r.other := by
    cases r <;> cases r' <;> simp [Role.other]
  · rw [hs, Function.update_self, Function.update_of_ne r'.other_ne]
    exact h.1
  · rw [hs, Function.update_of_ne r.other_ne, Role.other_other, Function.update_self]
    exact h.2

/-- A channel proof is sent. -/
lemma Pair.Ok.prove (h : s.Ok S) (r : Role) : (s.act S r .prove).Ok S := by
  simp only [Pair.act]
  split
  · rename_i hguard
    cases r with
    | client =>
      intro r
      refine { h r with proof := fun hr n hn => ?_ }
      subst hr
      rcases mem_append.mp hn with hn | hn
      · exact (h .client).proof rfl n hn
      · obtain rfl := mem_singleton.mp hn
        exact ⟨le_rfl, fun _ => hguard.2⟩
    | server =>
      simp only
      split
      · rename_i hproof
        intro r
        refine { h r with
          reply := fun n hn => ?_
          replied := fun h0 => mem_append_left _ ((h r).replied h0) }
        rcases mem_append.mp hn with hn | hn
        · exact (h r).reply n hn
        obtain rfl := mem_singleton.mp hn
        cases r with
        | client => exact (h .client).proof rfl _ hproof
        | server => exact ⟨le_rfl, fun _ => hguard.2⟩
      · exact h
  · exact h

lemma Pair.Ok.step (hS : S.HmacInjective) (h : s.Ok S)
    {a : Role × Act} (hsound : Sound S s a) : (s.step S a).Ok S := by
  obtain ⟨r, a⟩ := a
  have hr := h r
  have hother : EndOk S s.net r.other (s.ends r.other) (s.ends r) := by
    have := h r.other
    rwa [Role.other_other] at this
  cases a with
  | attemptBegin n =>
    simp only [Pair.step, Pair.act]
    split
    · rename_i hguard
      exact Pair.Ok.set rfl ⟨hr.attemptBegin hguard.2.2, hother.attemptBegin_other hguard.2.2⟩
    · exact h
  | pake =>
    simp only [Pair.step, Pair.act]
    split
    · rename_i hguard
      exact Pair.Ok.set rfl ⟨hr.pake hguard.2.1 hguard.2.2,
        hother.pake_other hguard.2.2 hr.self⟩
    · exact h
  | offer =>
    simp only [Pair.step, Pair.act]
    split
    · rename_i hguard
      exact Pair.Ok.set rfl ⟨hr.offer hguard.2, hother.offer_other hguard.2⟩
    · exact h
  | accept =>
    simp only [Pair.step, Pair.act]
    split
    · exact h
    rename_i m hm
    have hfound := List.find?_some hm
    simp only [decide_eq_true_eq] at hfound
    split
    · rename_i hguard
      exact Pair.Ok.set rfl (hr.accept hS hother hguard.2 (mem_of_find?_eq_some hm)
        hfound.1 hfound.2 (hsound.1 rfl hguard m hm))
    · exact h
  | prove => exact h.prove r
  | markReady cut =>
    simp only [Pair.step, Pair.act]
    split
    · rename_i hguard
      exact Pair.Ok.set rfl (hr.markReady hother hguard.1 hguard.2 cut
        fun hcut hmarks => hsound.2 (by rw [hcut]) ⟨hguard, hmarks⟩)
    · exact h
  | transportFail =>
    refine Pair.Ok.set (r := r) rfl ?_
    unfold obPeerTransportFail
    split
    · exact ⟨hr, hother⟩
    · exact ⟨hr.halt fun _ => .inr (.inr rfl), hother.halt_other _ _ _⟩
  | fail =>
    exact Pair.Ok.set rfl ⟨hr.halt fun _ => .inr (.inl rfl), hother.halt_other _ _ _⟩

lemma Pair.Ok.initial (S : Setting) : Pair.initial.Ok S := fun _ =>
  { self :=
      { zero := fun _ => rfl
        derived := fun hs => absurd rfl hs
        marked := le_rfl
        markedSet := fun h0 => absurd rfl h0
        once := fun _ h0 => absurd rfl h0
        width := rfl }
    ice := fun _ hm => (by cases hm)
    reply := fun _ hn => (by cases hn)
    replied := fun h0 => absurd rfl h0
    proof := fun _ _ hn => (by cases hn)
    sent := fun hs => (by cases hs)
    context := fun hs => (by cases hs)
    flags := fun hs => (by cases hs)
    pending := fun hs => (by cases hs)
    agreed := fun _ _ => rfl }

/-- **The retained keys agree** after every attempt both ends marked ready, in every run whose
steps meet the condition. -/
theorem keys_agree_of_sound (S : Setting) (hS : S.HmacInjective) (as : List (Role × Act))
    (has : Along (Pair.step S) (Sound S) Pair.initial as) : (Pair.after S as).Agreed :=
  (along_invariant (fun _ _ h hsound => h.step hS hsound) (Pair.Ok.initial S) has .client).agreed

/-! ### An attempt completed at one end only -/

/-- A key is cut from its secret, a code adds the message to the key. -/
def sampleSetting : Setting where
  hkdf secret _ _ := beBytes 32 (beNat secret)
  hkdfLength _ _ _ := length_beBytes _ _
  hmac key message := List.zipWith (· + ·) key (beBytes 32 (beNat message))
  sha256 := id
  brokerId := ascii "b"
  connectionId := "00000000-0000-0000-0000-000000000000"
  controlManaged := true
  managed := ⟨rfl, by decide +kernel⟩
  sessionId n := beBytes 36 n
  shared n := beBytes 32 n

lemma hmacInjective_sampleSetting : sampleSetting.HmacInjective := by
  intro k k' m hk hk' h
  refine ext_getElem (hk.trans hk'.symm) fun i hi hi' => ?_
  have hm : i < (beBytes 32 (beNat m)).length := by rw [length_beBytes]; omega
  have hcode := congrArg (·[i]?) h
  simp only [sampleSetting, List.getElem?_zipWith, List.getElem?_eq_getElem hi,
    List.getElem?_eq_getElem hi', List.getElem?_eq_getElem hm, Option.some.injEq] at hcode
  exact (UInt8.add_left_inj _).mp hcode

def setup (n : ℕ) : List (Role × Act) :=
  [(.client, .attemptBegin n), (.server, .attemptBegin n), (.client, .pake), (.server, .pake),
    (.client, .offer), (.server, .offer), (.client, .accept), (.server, .accept),
    (.client, .prove), (.server, .prove)]

def cut : List (Role × Act) := [(.client, .transportFail), (.server, .transportFail)]

/-- Two attempts that both ends complete leave them with one key. -/
theorem keys_agree_of_sound_sample :
    let as := setup 1 ++ [(.server, .markReady false), (.client, .markReady false)] ++ cut ++
      setup 2 ++ [(.server, .markReady false), (.client, .markReady false)]
    ((Pair.after sampleSetting as).ends .client).marked = 2 ∧
    ((Pair.after sampleSetting as).ends .server).marked = 2 ∧
    (Pair.after sampleSetting as).Agreed :=
  ⟨by decide +kernel, by decide +kernel, keys_agree_of_sound sampleSetting
    hmacInjective_sampleSetting _ (by decide +kernel)⟩

/-- **One end replaces its key.** The first attempt is cut when only the broker is ready; in the
second the broker keeps the first key and the client replaces it. In the third no end finds a
context. -/
theorem key_replaced_at_one_end :
    let as := setup 1 ++ [(.server, .markReady false)] ++ cut ++
      setup 2 ++ [(.server, .markReady false), (.client, .markReady false)]
    let s := Pair.after sampleSetting as
    let s' := Pair.after sampleSetting (as ++ cut ++ setup 3)
    (s.ends .client).marked = 2 ∧ (s.ends .server).marked = 2 ∧
      (s.ends .client).resumeKey = sampleSetting.fresh 2 ∧
      (s.ends .server).resumeKey = sampleSetting.fresh 1 ∧ ¬ s.Agreed ∧
      (s'.ends .client).resumeContextAvailable = false ∧
      (s'.ends .server).resumeContextAvailable = false := by
  refine ⟨by decide +kernel, by decide +kernel, by decide +kernel, by decide +kernel, fun h => ?_,
    by decide +kernel, by decide +kernel⟩
  exact absurd (h (by decide +kernel) (by decide +kernel)) (by decide +kernel)

end OhecoBroker.ResumeKey
