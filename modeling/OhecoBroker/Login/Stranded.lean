/-
No crash and no lost message strands a login family: the invariant of its processes and the disk,
and what a rotation comes to from there.

* `PhaseOk`, `Behind`, `Inv`: what a process relies on in each phase, under the lock;
* `Inv.act`: **every step keeps the invariant**, given values that are new;
* `Live`, `Settled`, `Unsettled`, `Inv.settled_or_unsettled`: where a live family stands;
* `Inv.refresh_succeeds`, `Inv.answer_succeeds`, `Inv.sent_succeeds`: a rotation that reaches the
  server succeeds.
-/
import OhecoBroker.Login.Rotation

namespace OhecoBroker.Login

open Control Lib

variable {cfg : Config} {sid : Uuid} {w : World}

/-! ### Processes under the lock -/

/-- What a process relies on in each phase. -/
def PhaseOk (sid : Uuid) (w : World) : Phase → Prop
  | .idle => True
  | .locked => True
  | .finished _ => True
  | .stale c => c = w.profile ∧
      ∀ p, w.journal = some p → p.expectedGeneration < w.profile.generation
  | .opened c attempt => c = w.profile ∧ w.journal = attempt ∧
      ∀ p, attempt = some p → p.expectedGeneration = w.profile.generation
  | .prepared c p => c = w.profile ∧ w.journal = some p ∧
      p.expectedGeneration = w.profile.generation
  | .sent c p => c = w.profile ∧ w.journal = some p ∧
      p.expectedGeneration = w.profile.generation ∧ refreshRequest sid c p ∈ w.requests
  | .received c p after => c = w.profile ∧ w.journal = some p ∧
      p.expectedGeneration = w.profile.generation ∧ Committed sid w.db w.profile ∧
      credentialsValid sid after = true ∧ commitAccepts w.profile p after = true
  | .saved p after => after = w.profile ∧ w.journal = some p ∧
      p.expectedGeneration < w.profile.generation

/-- Credentials in memory are the profile's or older. -/
def Behind (memory profile : Credentials) : Prop :=
  memory.generation < profile.generation ∨ memory = profile

/-- What holds whatever was cut or lost. -/
structure Inv (cfg : Config) (sid : Uuid) (w : World) : Prop where
  id : validAuthId sid = true
  now : 0 < w.now
  disk : Disk cfg sid w.db w.profile w.journal w.requests w.answers
  locked : ∀ q, (w.procs q).phase ≠ .idle → w.lock = some q
  phase : ∀ q, PhaseOk sid w (w.procs q).phase
  memory : ∀ q, Behind (w.procs q).memory w.profile

variable {q : ℕ} {p : Pending} {c : Credentials}

lemma Inv.others_idle (h : Inv cfg sid w) (hq : (w.procs q).phase ≠ .idle) (q' : ℕ)
    (hne : q' ≠ q) : (w.procs q').phase = .idle := by
  by_contra hq'
  exact hne (Option.some.inj ((h.locked q' hq').symm.trans (h.locked q hq)))

lemma Inv.move (h : Inv cfg sid w) {w' : World} (q : ℕ)
    (hidle : ∀ q' ≠ q, (w.procs q').phase = .idle)
    (hothers : ∀ q' ≠ q, w'.procs q' = w.procs q') (hnow : w'.now = w.now)
    (hdisk : Disk cfg sid w'.db w'.profile w'.journal w'.requests w'.answers)
    (hlock : (w'.procs q).phase ≠ .idle → w'.lock = some q)
    (hphase : PhaseOk sid w' (w'.procs q).phase)
    (hmem : ∀ m, Behind m w.profile → Behind m w'.profile)
    (hmemq : Behind (w'.procs q).memory w'.profile) : Inv cfg sid w' where
  id := h.id
  now := hnow ▸ h.now
  disk := hdisk
  locked q' hq' := by
    by_cases hne : q' = q
    · subst hne
      exact hlock hq'
    · rw [hothers q' hne] at hq'
      exact absurd (hidle q' hne) hq'
  phase q' := by
    by_cases hne : q' = q
    · subst hne
      exact hphase
    · rw [hothers q' hne, hidle q' hne]
      trivial
  memory q' := by
    by_cases hne : q' = q
    · subst hne
      exact hmemq
    · rw [hothers q' hne]
      exact hmem _ (h.memory q')

lemma Inv.setPhase (h : Inv cfg sid w) (hq : (w.procs q).phase ≠ .idle) {p : Phase}
    (hp : PhaseOk sid w p) : Inv cfg sid (w.setPhase q p) := by
  refine h.move q (h.others_idle hq) ?_ rfl h.disk ?_ ?_ (fun m hm => hm) ?_
  · intro q' hne
    simp [hne]
  · intro _
    exact h.locked q hq
  · rw [World.setPhase_procs, Function.update_self]
    cases p <;> exact hp
  · rw [World.setPhase_procs, Function.update_self]
    exact h.memory q

lemma Inv.setMemory (h : Inv cfg sid w) (q : ℕ) {m : Credentials} (hm : Behind m w.profile) :
    Inv cfg sid (w.setMemory q m) := by
  have hph : ∀ q', ((w.setMemory q m).procs q').phase = (w.procs q').phase := by
    intro q'
    by_cases hne : q' = q
    · subst hne
      simp
    · simp [hne]
  refine ⟨h.id, h.now, h.disk, fun q' hq' => h.locked q' (hph q' ▸ hq'), fun q' => ?_,
    fun q' => ?_⟩
  · rw [hph q']
    have := h.phase q'
    cases hq' : (w.procs q').phase <;> rw [hq'] at this <;> exact this
  by_cases hne : q' = q
  · subst hne
    simpa using hm
  · simpa [hne] using h.memory q'

/-- A process adopts the profile. -/
lemma Inv.adopt (h : Inv cfg sid w) (q : ℕ) : Inv cfg sid (w.adopt q w.profile) := by
  refine h.setMemory q ?_
  split
  · exact .inr rfl
  · exact h.memory q

/-! ### Every step keeps the invariant -/

lemma Inv.drop (h : Inv cfg sid w) (hq : (w.procs q).phase ≠ .idle)
    (hold : ∀ p, w.journal = some p → p.expectedGeneration < w.profile.generation) {ph : Phase}
    (hp : PhaseOk sid ((w.setPhase q ph).setJournal none) ph) :
    Inv cfg sid ((w.setPhase q ph).setJournal none) := by
  refine h.move q (h.others_idle hq) ?_ rfl (h.disk.dropJournal hold) ?_ ?_ (fun m hm => hm) ?_
  · intro q' hne
    simp [hne]
  · intro _
    exact h.locked q hq
  · simpa using hp
  · simpa using h.memory q

/-- A process takes the lock. -/
lemma Inv.lock (h : Inv cfg sid w) (hl : w.lock = none) :
    Inv cfg sid ((w.setPhase q .locked).setLock (some q)) := by
  have hidle : ∀ q', (w.procs q').phase = .idle := by
    intro q'
    by_contra hq'
    cases hl.symm.trans (h.locked q' hq')
  refine h.move q (fun q' _ => hidle q') ?_ rfl h.disk (fun _ => rfl) ?_ (fun m hm => hm) ?_
  · intro q' hne
    simp [hne]
  · simp [PhaseOk]
  · simpa using h.memory q

lemma Inv.unlock (h : Inv cfg sid w) (hq : (w.procs q).phase ≠ .idle) :
    Inv cfg sid ((w.setPhase q .idle).setLock none) := by
  refine h.move q (h.others_idle hq) ?_ rfl h.disk ?_ ?_ (fun m hm => hm) ?_
  · intro q' hne
    simp [hne]
  · simp
  · simp [PhaseOk]
  · simpa using h.memory q

lemma Inv.begin (h : Inv cfg sid w) (hq : (w.procs q).phase ≠ .idle) :
    Inv cfg sid (w.begin q) := by
  unfold World.begin
  split
  · next hj => exact h.setPhase hq ⟨rfl, hj, (by intros; contradiction)⟩
  next p hj =>
  split
  · exact h.setPhase hq trivial
  split
  · next hlt =>
    refine h.setPhase hq ⟨rfl, fun p' hp' => ?_⟩
    cases hj.symm.trans hp'
    exact hlt
  split
  · exact h.setPhase hq trivial
  next heq =>
  refine h.setPhase hq ⟨rfl, hj, fun p' hp' => ?_⟩
  cases hp'
  exact not_not.mp heq

lemma plan_cases {memory current : Credentials} {attempt : Option Pending} (c : Choice)
    (ha : ∀ p, attempt = some p → p.expectedGeneration = current.generation) :
    plan sid memory current attempt c = .leave ∨
    (∃ ok, plan sid memory current attempt c = .finish ok) ∨
    (∃ p, attempt = some p ∧ plan sid memory current attempt c = .replay p) ∨
    (attempt = none ∧ pendingValid sid (newPending current c) current = true ∧
      plan sid memory current attempt c = .fresh (newPending current c)) := by
  unfold plan
  split
  · exact .inl rfl
  split
  · exact .inl rfl
  cases attempt with
  | some p =>
    have : (some p).filter (fun p => decide ¬p.expectedGeneration < current.generation) =
        some p := by
      simp [ha p rfl]
    rw [this]
    dsimp only
    split
    · exact .inr (.inr (.inl ⟨p, rfl, rfl⟩))
    · exact .inr (.inl ⟨false, rfl⟩)
  | none =>
    dsimp only [Option.filter_none]
    split
    · exact .inr (.inl ⟨false, rfl⟩)
    split
    · exact .inr (.inl ⟨true, rfl⟩)
    split
    · exact .inr (.inl ⟨false, rfl⟩)
    next hv =>
    split
    · exact .inr (.inl ⟨false, rfl⟩)
    · exact .inr (.inr (.inr ⟨rfl, not_not.mp hv, rfl⟩))

/-- The values a process draws, and those the server draws for others, are new. -/
def Fresh (cfg : Config) (sid : Uuid) (w : World) : Act → Prop
  | .choose _ c => ∀ a, w.db.authSessions.get sid = some a →
      Unused cfg w.db (newPending w.profile c) a
  | .other db => Elsewhere cfg sid w.db w.journal db
  | _ => True

lemma World.adopt_phase (w : World) (q : ℕ) (c : Credentials) :
    ((w.adopt q c).procs q).phase = (w.procs q).phase := by
  simp [World.adopt]

/-- The journal is written. -/
lemma Inv.prepare (h : Inv cfg sid w) (hq : (w.procs q).phase ≠ .idle)
    (hj : w.journal = none) (he : p.expectedGeneration = w.profile.generation)
    (hv : pendingValid sid p w.profile = true)
    (hu : ∀ a, w.db.authSessions.get sid = some a → Unused cfg w.db p a) :
    Inv cfg sid ((w.setPhase q (.prepared w.profile p)).setJournal (some p)) := by
  have hdisk : Disk cfg sid w.db w.profile none w.requests w.answers := hj ▸ h.disk
  refine h.move q (h.others_idle hq) ?_ rfl (hdisk.prepare he hv hu) ?_ ?_ (fun m hm => hm) ?_
  · intro q' hne
    simp [hne]
  · intro _
    exact h.locked q hq
  · simp [PhaseOk, he]
  · simpa using h.memory q

lemma Inv.choose (h : Inv cfg sid w) {current : Credentials} {attempt : Option Pending}
    (hph : (w.procs q).phase = .opened current attempt) {c : Choice}
    (hf : Fresh cfg sid w (.choose q c)) : Inv cfg sid (w.choose sid q current attempt c) := by
  have hok : PhaseOk sid w (.opened current attempt) := hph ▸ h.phase q
  obtain ⟨rfl, hj, hatt⟩ := hok
  have hw' := h.adopt q
  have hq : ((w.adopt q w.profile).procs q).phase ≠ .idle := by
    rw [World.adopt_phase, hph]
    rintro ⟨⟩
  unfold World.choose
  obtain hp | ⟨ok, hp⟩ | ⟨p, rfl, hp⟩ | ⟨rfl, hv, hp⟩ : _ ∨ _ ∨ _ ∨ _ :=
    plan_cases c hatt
  · rw [hp]
    exact h.setPhase (by simp [hph]) trivial
  · rw [hp]
    exact hw'.setPhase hq trivial
  · rw [hp]
    exact hw'.setPhase hq ⟨rfl, hj, hatt p rfl⟩
  · rw [hp]
    exact hw'.prepare hq hj rfl hv hf

/-- The request goes out. -/
lemma Inv.send (h : Inv cfg sid w) {current : Credentials}
    (hph : (w.procs q).phase = .prepared current p) :
    Inv cfg sid { w.setPhase q (.sent current p) with
      requests := refreshRequest sid current p :: w.requests } := by
  have hq : (w.procs q).phase ≠ .idle := by
    rw [hph]
    rintro ⟨⟩
  obtain ⟨rfl, hj, he⟩ : PhaseOk sid w (.prepared current p) := hph ▸ h.phase q
  refine h.move q (h.others_idle hq) ?_ rfl (h.disk.send hj he) ?_ ?_ (fun m hm => hm) ?_
  · intro q' hne
    simp [hne]
  · intro _
    exact h.locked q hq
  · simp [PhaseOk, hj, he]
  · simpa using h.memory q

lemma Inv.deliver (h : Inv cfg sid w) {r : RefreshRequest} (hr : r ∈ w.requests) :
    Inv cfg sid (w.deliver cfg r) := by
  have keep : ∀ {db : Db} {x : Option AuthReceipt},
      Disk cfg sid db w.profile w.journal w.requests ((r, x) :: w.answers) →
      (Committed sid w.db w.profile → Committed sid db w.profile) →
      Inv cfg sid (w.answered db r x) := by
    intro db x hdisk hcom
    refine ⟨h.id, h.now, hdisk, h.locked, fun q => ?_, h.memory⟩
    have hph := h.phase q
    show PhaseOk sid _ (w.procs q).phase
    cases hq : (w.procs q).phase with
    | received c p after =>
      rw [hq] at hph
      obtain ⟨h1, h2, h3, h4, h5⟩ := hph
      exact ⟨h1, h2, h3, hcom h4, h5⟩
    | _ => rw [hq] at hph; exact hph
  cases hd : refreshAuth cfg w.db w.now r with
  | error e =>
    have : w.deliver cfg r = w.answered w.db r none := by
      simp [World.deliver, hd]
    rw [this]
    exact keep (h.disk.answer_none hr) fun hc => hc
  | ok d =>
    obtain ⟨x, hx, hdisk, hcom, -⟩ := h.disk.refresh h.now hr hd
    have : w.deliver cfg r = w.answered d.db r (some x) := by
      obtain ⟨db, code, reply, revoked⟩ := d
      cases hx
      simp [World.deliver, hd]
    rw [this]
    exact keep hdisk hcom

lemma receipt_eq_some {r : AuthReceipt} {after : Credentials} : receipt sid c p r = some after ↔
      (r.authSession = sid ∧ r.generation = c.generation + 1 ∧ 0 < r.tokenExpiresAt ∧
        0 < r.refreshExpiresAt) ∧
      after = { token := p.nextToken, refreshToken := p.nextRefreshToken,
                generation := r.generation, tokenExpiresAt := r.tokenExpiresAt,
                refreshExpiresAt := r.refreshExpiresAt } := by
  unfold receipt
  split
  · next h => simp [h, eq_comm]
  · next h => simp [h]

lemma Disk.after_ok {db : Db} {profile : Credentials}
    {requests : List RefreshRequest} {answers : List (RefreshRequest × Option AuthReceipt)}
    (h : Disk cfg sid db profile (some p) requests answers)
    (he : p.expectedGeneration = profile.generation) {r : AuthReceipt}
    (hr : (refreshRequest sid profile p, some r) ∈ answers) {after : Credentials}
    (ha : receipt sid profile p r = some after) :
    credentialsValid sid after = true ∧ commitAccepts profile p after = true := by
  obtain ⟨⟨-, hg, ht, hre⟩, rfl⟩ := receipt_eq_some.mp ha
  obtain ⟨-, -, -, hmax, -, -⟩ := h.receipts p r hr he
  obtain ⟨hid, -, -, hne, -⟩ := pendingValid_iff.mp (h.attempt p rfl he).1
  have hbound : maxGeneration ≤ authMaxGeneration := by decide
  constructor
  · exact credentialsValid_iff.mpr ⟨hid, hne, by dsimp only; omega, by dsimp only; omega, ht, hre⟩
  · exact commitAccepts_iff.mpr ⟨by dsimp only; omega, rfl, rfl, he.symm⟩

/-- An answer comes in. -/
lemma Inv.receive (h : Inv cfg sid w) {current : Credentials}
    (hph : (w.procs q).phase = .sent current p) {answer : Option AuthReceipt}
    (ha : (refreshRequest sid current p, answer) ∈ w.answers) {ph : Phase}
    (hto : ph = .finished false ∨ ∃ r after, answer = some r ∧
      receipt sid current p r = some after ∧ ph = .received current p after) :
    Inv cfg sid (w.setPhase q ph) := by
  have hq : (w.procs q).phase ≠ .idle := by
    rw [hph]
    rintro ⟨⟩
  obtain ⟨rfl, hj, he, -⟩ : PhaseOk sid w (.sent current p) := hph ▸ h.phase q
  rcases hto with rfl | ⟨r, after, rfl, hafter, rfl⟩
  · exact h.setPhase hq trivial
  · have hdisk : Disk cfg sid w.db w.profile (some p) w.requests w.answers := hj ▸ h.disk
    exact h.setPhase hq ⟨rfl, hj, he, (hdisk.receipts p r ha he).1, hdisk.after_ok he ha hafter⟩

/-- The profile is replaced. -/
lemma Inv.save (hH : Function.Injective cfg.tokenHash) (h : Inv cfg sid w)
    {current : Credentials} {after : Credentials}
    (hph : (w.procs q).phase = .received current p after) :
    Inv cfg sid { w.setPhase q (.saved p after) with profile := after } := by
  have hq : (w.procs q).phase ≠ .idle := by
    rw [hph]
    rintro ⟨⟩
  obtain ⟨rfl, hj, he, hcom, hval, hacc⟩ : PhaseOk sid w (.received current p after) :=
    hph ▸ h.phase q
  obtain ⟨hg, ht, hr, -⟩ := commitAccepts_iff.mp hacc
  have hnext : after.generation = w.profile.generation + 1 := by omega
  have behind : ∀ m, Behind m w.profile → Behind m after := by
    rintro m (hlt | rfl)
    · exact .inl (by omega)
    · exact .inl (by omega)
  refine h.move q (h.others_idle hq) ?_ rfl (h.disk.save hH hj he hcom hval hnext hr) ?_ ?_
    behind ?_
  · intro q' hne
    simp [hne]
  · intro _
    exact h.locked q hq
  · simp only [World.setPhase_procs, Function.update_self, PhaseOk, World.setPhase_journal]
    exact ⟨trivial, hj, by omega⟩
  · simpa using behind _ (h.memory q)

/-- The journal is removed. -/
lemma Inv.unlink (h : Inv cfg sid w) {after : Credentials}
    (hph : (w.procs q).phase = .saved p after) :
    Inv cfg sid (((w.setMemory q after).setPhase q (.finished true)).setJournal none) := by
  obtain ⟨rfl, hj, hlt⟩ : PhaseOk sid w (.saved p after) := hph ▸ h.phase q
  refine (h.setMemory q (.inr rfl)).drop ?_ ?_ trivial
  · simp [hph]
  · intro p' hp'
    obtain rfl := Option.some.inj (hj.symm.trans hp')
    exact hlt

lemma Inv.other (h : Inv cfg sid w) {db : Db} (he : Elsewhere cfg sid w.db w.journal db) :
    Inv cfg sid { w with db := db } := by
  refine ⟨h.id, h.now, h.disk.elsewhere he, h.locked, fun q => ?_, h.memory⟩
  have hph := h.phase q
  cases hq : (w.procs q).phase with
  | received c p after =>
    rw [hq] at hph
    obtain ⟨h1, h2, h3, h4, h5⟩ := hph
    exact ⟨h1, h2, h3, h4.elsewhere he, h5⟩
  | _ => rw [hq] at hph; exact hph

lemma Inv.tick (h : Inv cfg sid w) (t : ℕ) : Inv cfg sid { w with now := w.now + t } := by
  refine ⟨h.id, Nat.add_pos_left h.now t, h.disk, h.locked, fun q => ?_, h.memory⟩
  have hph := h.phase q
  cases hq : (w.procs q).phase <;> rw [hq] at hph <;> exact hph

theorem Inv.act (hH : Function.Injective cfg.tokenHash) (h : Inv cfg sid w) (a : Act)
    (hf : Fresh cfg sid w a) : Inv cfg sid (w.act cfg sid a) := by
  have busy : ∀ {q : ℕ} {ph : Phase}, (w.procs q).phase = ph → ph ≠ .idle →
      (w.procs q).phase ≠ .idle := fun hq hn he => hn (hq.symm.trans he)
  cases a with
  | spawn q =>
    simp only [World.act]
    split
    · exact h.setMemory q (.inr rfl)
    · exact h
  | lock q =>
    simp only [World.act]
    split
    · next hl => exact h.lock hl
    · exact h
  | begin q =>
    simp only [World.act]
    split
    · next hq => exact h.begin (busy hq (by rintro ⟨⟩))
    · exact h
  | dropJournal q =>
    simp only [World.act]
    split
    · next c hq =>
      obtain ⟨rfl, hold⟩ : PhaseOk sid w (.stale c) := hq ▸ h.phase q
      exact h.drop (busy hq (by rintro ⟨⟩)) hold ⟨rfl, rfl, (by intros; contradiction)⟩
    · exact h
  | choose q c =>
    simp only [World.act]
    split
    · next hq => exact h.choose hq hf
    · exact h
  | send q =>
    simp only [World.act]
    split
    · next hq => exact h.send hq
    · exact h
  | deliver r =>
    simp only [World.act]
    split
    · next hr => exact h.deliver hr
    · exact h
  | receive q answer =>
    simp only [World.act]
    split
    · next c p hq =>
      split
      · next ha =>
        split
        · next after hafter =>
          obtain ⟨r, rfl, hr⟩ := Option.bind_eq_some_iff.mp hafter
          exact h.receive hq ha (.inr ⟨r, after, rfl, hr, rfl⟩)
        · exact h.receive hq ha (.inl rfl)
      · exact h
    · exact h
  | save q =>
    simp only [World.act]
    split
    · next c p after hq =>
      split
      · exact h.save hH hq
      · exact h.setPhase (busy hq (by rintro ⟨⟩)) trivial
    · exact h
  | unlink q =>
    simp only [World.act]
    split
    · next hq => exact h.unlink hq
    · exact h
  | giveUp q =>
    simp only [World.act]
    split
    · exact h
    · next hq => exact h.setPhase hq trivial
  | finish q =>
    simp only [World.act]
    split
    · next hq => exact h.unlock (busy hq (by rintro ⟨⟩))
    · exact h
  | crash q =>
    simp only [World.act]
    split
    · exact h
    · next hq => exact h.unlock hq
  | tick t => exact h.tick t
  | other db => exact h.other hf

/-! ### What a rotation comes to -/

/-- The authority is neither expired nor revoked. -/
def Live (sid : Uuid) (w : World) : Prop :=
  ∃ a, w.db.authSessions.get sid = some a ∧ checkAuthSession w.db w.now a true = .ok ()

/-- The server and the profile are level. -/
def Settled (cfg : Config) (sid : Uuid) (w : World) : Prop :=
  ∃ a, w.db.authSessions.get sid = some a ∧ a.generation = w.profile.generation ∧
    a.refreshHash = cfg.tokenHash w.profile.refreshToken

/-- The server is one generation ahead of the profile. -/
def Unsettled (cfg : Config) (sid : Uuid) (w : World) : Prop :=
  ∃ a p, w.db.authSessions.get sid = some a ∧ a.generation = w.profile.generation + 1 ∧
    a.previousRefresh = some (cfg.tokenHash w.profile.refreshToken) ∧ w.journal = some p ∧
    a.Receipt p.request p.expectedGeneration (cfg.tokenHash p.nextToken)
      (cfg.tokenHash p.nextRefreshToken)

lemma Inv.settled_or_unsettled (h : Inv cfg sid w) (hl : Live sid w) :
    Settled cfg sid w ∨ Unsettled cfg sid w := by
  obtain ⟨a, ha, -⟩ := hl
  rcases h.disk.row a ha with hlevel | ⟨p, hp, -, hah⟩
  · exact .inl ⟨a, ha, hlevel.generation, hlevel.refresh⟩
  · exact .inr ⟨a, p, ha, hah.generation, hah.previous, hp, hah.receipt⟩

lemma valid_of_pendingValid (hc : credentialsValid sid c = true)
    (hp : pendingValid sid p c = true) :
    RefreshRequest.Valid sid p.request p.expectedGeneration p.nextToken p.nextRefreshToken
      c.refreshToken := by
  obtain ⟨h1, h2, h3, h4, -, h6, -, h8⟩ := pendingValid_iff.mp hp
  obtain ⟨-, -, hpos, -⟩ := credentialsValid_iff.mp hc
  exact ⟨h1, h2, by omega, h4, h6, h8⟩

lemma Inv.refresh_succeeds (h : Inv cfg sid w) (hl : Live sid w)
    (hph : (w.procs q).phase = .sent c p)
    (hmax : Unsettled cfg sid w ∨ w.profile.generation < maxGeneration) :
    ∃ d, refreshAuth cfg w.db w.now (refreshRequest sid c p) = .ok d := by
  obtain ⟨rfl, hj, he, -⟩ : PhaseOk sid w (.sent c p) := hph ▸ h.phase q
  obtain ⟨a, ha, hcheck⟩ := hl
  obtain ⟨hpv, hunused⟩ := h.disk.attempt p hj he
  have hvalid := valid_of_pendingValid h.disk.valid hpv
  rcases h.disk.row a ha with hlevel | ⟨p', hp', -, hah⟩
  · have hga : p.expectedGeneration = a.generation := he.trans hlevel.generation.symm
    have hlt : a.generation < maxGeneration := by
      rcases hmax with ⟨b, -, hb, hbg, -⟩ | hlt
      · have := Option.some.inj (ha.symm.trans hb)
        have := hlevel.generation
        grind
      · have := hlevel.generation
        omega
    have hun := hunused a ha hlevel.generation
    obtain ⟨d, hd, -⟩ := refreshAuth_rotate (hga ▸ hvalid) ha hcheck hlevel.refresh
      hlevel.previous hun.request hlt hun.token hun.refresh
    refine ⟨d, ?_⟩
    rw [refreshRequest, hga]
    exact hd
  obtain rfl := Option.some.inj (hj.symm.trans hp')
  refine ⟨_, refreshAuth_replay hvalid ha hcheck hah.previous hah.receipt ?_⟩
  rw [he]
  exact hah.generation

/-- What is left of `rotate` once the answer `x` is there. -/
def World.complete (cfg : Config) (sid : Uuid) (w : World) (q : ℕ) (x : AuthReceipt) : World :=
  run (World.act cfg sid) w [.receive q (some x), .save q, .unlink q]

/-- Process `q` is done, and the profile holds what it got. -/
@[simps]
def World.rotated (w : World) (q : ℕ) (after : Credentials) : World :=
  { w with
    profile := after
    journal := none
    procs := Function.update w.procs q ⟨after, .finished true⟩ }

lemma World.complete_eq {x : AuthReceipt}
    {after : Credentials} (hph : (w.procs q).phase = .sent c p)
    (hx : (refreshRequest sid c p, some x) ∈ w.answers) (hafter : receipt sid c p x = some after)
    (hacc : commitAccepts w.profile p after = true) :
    w.complete cfg sid q x = w.rotated q after := by
  have h1 : w.act cfg sid (.receive q (some x)) = w.setPhase q (.received c p after) := by
    simp only [World.act, hph, hx, if_true, Option.bind_some, hafter]
  have h2 : (w.setPhase q (.received c p after)).act cfg sid (.save q) =
      { (w.setPhase q (.received c p after)).setPhase q (.saved p after) with
        profile := after } := by
    simp [World.act, hacc]
  show World.act cfg sid (World.act cfg sid (w.act cfg sid (.receive q (some x))) (.save q))
    (.unlink q) = _
  rw [h1, h2]
  simp [World.act, World.setPhase, World.setMemory, World.setJournal, World.rotated]

lemma Inv.answer_succeeds (h : Inv cfg sid w)
    (hph : (w.procs q).phase = .sent c p) {x : AuthReceipt}
    (hx : (refreshRequest sid c p, some x) ∈ w.answers) :
    ∃ after, after.generation = w.profile.generation + 1 ∧ after.token = p.nextToken ∧
      after.refreshToken = p.nextRefreshToken ∧
      w.complete cfg sid q x = w.rotated q after := by
  obtain ⟨rfl, hj, he, -⟩ : PhaseOk sid w (.sent c p) := hph ▸ h.phase q
  have hdisk : Disk cfg sid w.db w.profile (some p) w.requests w.answers := hj ▸ h.disk
  obtain ⟨-, hs, hg, -, ht, hr⟩ := hdisk.receipts p x hx he
  have hafter : receipt sid w.profile p x = some _ :=
    receipt_eq_some.mpr ⟨⟨hs, hg, ht, hr⟩, rfl⟩
  obtain ⟨-, hacc⟩ := hdisk.after_ok he hx hafter
  exact ⟨_, hg, rfl, rfl, World.complete_eq hph hx hafter hacc⟩

lemma Inv.complete (hH : Function.Injective cfg.tokenHash) (h : Inv cfg sid w) (q : ℕ)
    (x : AuthReceipt) : Inv cfg sid (w.complete cfg sid q x) := by
  have h1 : Inv cfg sid (w.act cfg sid (.receive q (some x))) := h.act hH _ trivial
  have h2 : Inv cfg sid ((w.act cfg sid (.receive q (some x))).act cfg sid (.save q)) :=
    h1.act hH _ trivial
  exact h2.act hH (.unlink q) trivial

lemma Inv.deliver_sent (h : Inv cfg sid w) (hl : Live sid w) (hph : (w.procs q).phase = .sent c p)
    (hmax : Unsettled cfg sid w ∨ w.profile.generation < maxGeneration) :
    ∃ d x a, refreshAuth cfg w.db w.now (refreshRequest sid c p) = .ok d ∧
      d.db.authSessions.get sid = some a ∧
      w.act cfg sid (.deliver (refreshRequest sid c p)) =
        w.answered d.db (refreshRequest sid c p) (some x) := by
  have hsent : refreshRequest sid c p ∈ w.requests := by
    obtain ⟨-, -, -, hr⟩ : PhaseOk sid w (.sent c p) := hph ▸ h.phase q
    exact hr
  obtain ⟨d, hd⟩ := h.refresh_succeeds hl hph hmax
  obtain ⟨x, hx, -, -, a, ha⟩ := h.disk.refresh h.now hsent hd
  refine ⟨d, x, a, hd, ha, ?_⟩
  obtain ⟨db, code, reply, revoked⟩ := d
  cases hx
  simp only [World.act, hsent, if_true, World.deliver, hd]

lemma Inv.sent_succeeds (hH : Function.Injective cfg.tokenHash) (h : Inv cfg sid w)
    (hl : Live sid w)
    (hph : (w.procs q).phase = .sent c p)
    (hmax : Unsettled cfg sid w ∨ w.profile.generation < maxGeneration) :
    ∃ x w', w' = (w.act cfg sid (.deliver (refreshRequest sid c p))).complete cfg sid q x ∧
      (w'.procs q).phase = .finished true ∧ Settled cfg sid w' ∧
      w'.profile.generation = w.profile.generation + 1 := by
  obtain ⟨d, x, a, -, ha, h1⟩ := h.deliver_sent hl hph hmax
  have hinv : Inv cfg sid (w.act cfg sid (.deliver (refreshRequest sid c p))) :=
    h.act hH _ trivial
  rw [h1] at hinv ⊢
  obtain ⟨after, hg, -, -, heq⟩ := hinv.answer_succeeds hph (List.mem_cons_self ..)
  refine ⟨x, _, rfl, ?_⟩
  have hinv' := hinv.complete hH q x
  rw [heq] at hinv' ⊢
  refine ⟨by simp, ?_, hg⟩
  -- the row the server answered from is still there, and the journal is gone
  rcases hinv'.disk.row a ha with hlevel | ⟨p', hp', -⟩
  · exact ⟨a, ha, hlevel.generation, hlevel.refresh⟩
  · cases hp'

end OhecoBroker.Login
