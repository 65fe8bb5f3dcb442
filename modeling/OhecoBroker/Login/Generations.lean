/-
A login family over its whole life: from the login through any rotations, and to the generation at
which the server rotates no more.

* `LoggedIn`, `LoggedIn.inv`: the family right after the login is sound;
* `never_stranded`: **while the authority is live, the server is level with the profile or one
  generation ahead with the journal in hand, and below the limit a request that reaches the server
  completes its rotation**, whatever was cut or lost before;
* `Resting`, `exists_resting`: loss-free rotations lead to every generation up to the limit;
* `refused_at_limit`: at the limit a rotation is refused, with nothing lost on the way.
-/
import OhecoBroker.Login.Stranded

namespace OhecoBroker.Login

open Control Lib

variable {cfg : Config} {sid : Uuid} {w : World}

/-- The profile holds the first credentials the server issued. -/
structure LoggedIn (cfg : Config) (sid : Uuid) (w : World) : Prop where
  issued : ∃ db draw tenant version c,
    issueAuthSession cfg db w.now draw tenant version = .ok (w.db, c) ∧ draw.id = sid ∧
    draw.token ≠ draw.refreshToken ∧
    w.profile = ⟨c.token, c.refreshToken, c.generation, c.tokenExpiresAt, c.refreshExpiresAt⟩
  id : validAuthId sid = true
  now : 0 < w.now
  journal : w.journal = none
  lock : w.lock = none
  requests : w.requests = []
  answers : w.answers = []
  procs : ∀ q, w.procs q = ⟨w.profile, .idle⟩

lemma issueAuthSession_ok {db db' : Db} {now : ℕ} {draw : AuthDraw} {tenant : Uuid} {version : ℕ}
    {c : AuthCredentials}
    (h : issueAuthSession cfg db now draw tenant version = .ok (db', c)) :
    (∃ a, db'.authSessions.get draw.id = some a ∧ a.generation = 1 ∧
      a.refreshHash = cfg.tokenHash draw.refreshToken ∧ a.previousRefresh = none) ∧
    c = { token := draw.token, refreshToken := draw.refreshToken, authSession := draw.id,
          generation := 1
          tokenExpiresAt := min (now + cfg.accountTokenTTL)
            (cfg.refreshExpiry now (cfg.absoluteExpiry now))
          refreshExpiresAt := cfg.refreshExpiry now (cfg.absoluteExpiry now) } := by
  simp only [issueAuthSession, bind_eq_ok, found_eq_ok, reject_eq_ok, exists_unit, pure_eq_ok,
    Prod.mk.injEq] at h
  obtain ⟨-, -, A, hA, T, -, rfl, rfl⟩ := h
  exact ⟨⟨_, Table.get_insert_self hA, rfl, rfl, rfl⟩, rfl⟩

lemma LoggedIn.inv (h : LoggedIn cfg sid w) : Inv cfg sid w := by
  obtain ⟨db, draw, tenant, version, c, hissue, rfl, hne, hprofile⟩ := h.issued
  obtain ⟨⟨a, ha, hgen, hrefresh, hprev⟩, rfl⟩ := issueAuthSession_ok hissue
  have hexp := cfg.refreshExpiry_pos h.now (cfg.absoluteExpiry w.now)
  have hnow := h.now
  have hlevel : Level cfg w.profile a := by
    rw [hprofile]
    exact ⟨hgen, hrefresh, by rw [hprev]; rintro ⟨⟩⟩
  have hdisk : Disk cfg draw.id w.db w.profile none [] [] := {
    valid := by
      rw [hprofile]
      exact credentialsValid_iff.mpr ⟨h.id, hne, Nat.one_pos,
        (by decide : 1 ≤ authMaxGeneration), by dsimp only; omega, hexp⟩
    bound := fun b hb => by
      obtain rfl := Option.some.inj (ha.symm.trans hb)
      rw [hgen]
      decide
    row := fun b hb => by
      obtain rfl := Option.some.inj (ha.symm.trans hb)
      exact .inl hlevel
    past := (by intros; contradiction)
    attempt := (by intros; contradiction)
    sent := (by intros; contradiction)
    answered := (by intros; contradiction)
    receipts := (by intros; contradiction) }
  have hidle : ∀ q, (w.procs q).phase = .idle := fun q => by rw [h.procs q]
  refine ⟨h.id, h.now, ?_, fun q hq => absurd (hidle q) hq, fun q => ?_, fun q => ?_⟩
  · rw [h.journal, h.requests, h.answers]
    exact hdisk
  · rw [hidle q]
    trivial
  · rw [h.procs q]
    exact .inr rfl

/-- The profile never goes back. -/
lemma World.profile_generation_le (w : World) (a : Act) :
    w.profile.generation ≤ (w.act cfg sid a).profile.generation := by
  cases a with
  | save q =>
    simp only [World.act]
    split
    · next c p after hq =>
      split
      · next hacc =>
        obtain ⟨hg, -, -, hlatest⟩ := commitAccepts_iff.mp hacc
        show _ ≤ after.generation
        omega
      · exact le_rfl
    · exact le_rfl
  | begin q =>
    simp only [World.act, World.begin]
    repeat' split
    all_goals exact le_rfl
  | choose q c =>
    simp only [World.act, World.choose]
    repeat' split
    all_goals exact le_rfl
  | deliver r =>
    simp only [World.act, World.deliver]
    repeat' split
    all_goals exact le_rfl
  | spawn q | lock q | dropJournal q | send q | receive q x | unlink q | giveUp q | finish q
  | crash q | tick t | other db =>
    simp only [World.act]
    repeat' split
    all_goals exact le_rfl

/-- **A login family is never stranded.** While the authority is live, the server and the profile
are level or the journal holds the attempt the server handled; a request under way succeeds once
it is answered, unless it is a new one at the generation limit; and no step takes the profile
back. -/
theorem never_stranded (hH : Function.Injective cfg.tokenHash) {w₀ : World}
    (h₀ : LoggedIn cfg sid w₀) {as : List Act}
    (hf : Along (World.act cfg sid) (Fresh cfg sid) w₀ as) {w : World}
    (hw : w = run (World.act cfg sid) w₀ as) :
    (Live sid w → Settled cfg sid w ∨ Unsettled cfg sid w) ∧
    (Live sid w → ∀ q c p, (w.procs q).phase = .sent c p →
      Unsettled cfg sid w ∨ w.profile.generation < maxGeneration →
      ∃ x w', w' = (w.act cfg sid (.deliver (refreshRequest sid c p))).complete cfg sid q x ∧
        (w'.procs q).phase = .finished true ∧ Settled cfg sid w' ∧
        w'.profile.generation = w.profile.generation + 1) ∧
    ∀ a, w.profile.generation ≤ (w.act cfg sid a).profile.generation := by
  have hinv : Inv cfg sid w := by
    rw [hw]
    exact along_invariant (fun v a hv ha => hv.act hH a ha) h₀.inv hf
  refine ⟨hinv.settled_or_unsettled, fun hl q c p hph hmax => ?_, w.profile_generation_le⟩
  exact hinv.sent_succeeds hH hl hph hmax

/-! ### Loss-free rotations, up to the limit -/

/-- A server whose hash keeps secrets apart. -/
def plainConfig : Config where
  tokenHash := id
  accountTokenTTL := 1000
  authRefreshTTL := 5000
  authAbsoluteTTL := 0
  authAccessOverlap := 100
  sessionTTL := 600
  brokerLease := 90
  maxSessionsPerTenant := 128
  maxMessagesPerDirection := 256
  maxMessageBytes := 32768
  turn := false

def plainId (n : ℕ) : Uuid := BitVec.ofNat 128 (4 * 2 ^ 76 + 2 * 2 ^ 62 + n)

def plainTenant : Tenant where
  id := plainId 7
  name := "tenant"
  email := "tenant@example.invalid"
  passwordHash := ""
  status := .active
  relayEnabled := false
  version := 1

def loginResult : Except Failure (Db × AuthCredentials) :=
  issueAuthSession plainConfig { tenants := ⟨[plainTenant], List.nodup_singleton _⟩ } 1
    ⟨plainId 0, 0, 1⟩ plainTenant.id 1

def loginDb : Db :=
  match loginResult with
  | .ok (db, _) => db
  | .error _ => {}

def loginProfile : Credentials where
  token := 0
  refreshToken := 1
  generation := 1
  tokenExpiresAt := 1001
  refreshExpiresAt := 5001

def loginWorld : World where
  db := loginDb
  now := 1
  profile := loginProfile
  journal := none
  lock := none
  procs := fun _ => ⟨loginProfile, .idle⟩
  requests := []
  answers := []

lemma loginWorld_loggedIn : LoggedIn plainConfig (plainId 0) loginWorld where
  issued := by
    have h : loginResult = .ok (loginDb, ⟨0, 1, plainId 0, 1, 1001, 5001⟩) := by decide +kernel
    exact ⟨_, _, _, _, _, h, rfl, by decide, rfl⟩
  id := by decide
  now := by decide
  journal := rfl
  lock := rfl
  requests := rfl
  answers := rfl
  procs := fun _ => rfl

lemma loginWorld_live : Live (plainId 0) loginWorld := by
  refine ⟨(loginDb.authSessions.get (plainId 0)).get (by decide +kernel), ?_, ?_⟩
  · simp [loginWorld]
  · decide +kernel

/-- The random values of the next rotation. -/
def nextChoice (n : ℕ) : Choice where
  force := true
  requestedGeneration := n + 1
  due := true
  clock := 0
  request := plainId (1 + n % 2)
  nextToken := BitVec.ofNat 256 (2 * n + 4)
  nextRefreshToken := BitVec.ofNat 256 (2 * n + 5)

/-- At rest at generation `n + 1`, all secrets used below `2 * n + 4`. -/
structure Resting (n : ℕ) (w : World) : Prop where
  inv : Inv plainConfig (plainId 0) w
  live : Live (plainId 0) w
  generation : w.profile.generation = n + 1
  journal : w.journal = none
  lock : w.lock = none
  proc : w.procs 0 = ⟨w.profile, .idle⟩
  uses : ∀ h, w.db.uses h = true → h.toNat < 2 * n + 4
  token : w.profile.token.toNat < 2 * n + 4
  refresh : w.profile.refreshToken.toNat < 2 * n + 4
  request : ∀ a, w.db.authSessions.get (plainId 0) = some a →
    a.request ≠ some (plainId (1 + n % 2))

lemma resting_loginWorld : Resting 0 loginWorld where
  inv := loginWorld_loggedIn.inv
  live := loginWorld_live
  generation := rfl
  journal := rfl
  lock := rfl
  proc := rfl
  uses h hh := by
    have ht : ∀ t ∈ loginDb.tokens.rows, t.hash = 0 := by decide +kernel
    have ha : ∀ a ∈ loginDb.authSessions.rows,
        a.refreshHash = 1 ∧ a.previousRefresh = none ∧ a.tokenHash = 0 := by decide +kernel
    rcases uses_iff.mp hh with ⟨t, htm, rfl⟩ | ⟨a, ham, hah⟩
    · rw [ht t htm]
      decide
    obtain ⟨h1, h2, h3⟩ := ha a ham
    rcases hah with rfl | hah | rfl
    · rw [h1]
      decide
    · rw [h2] at hah
      cases hah
    · rw [h3]
      decide
  token := by decide
  refresh := by decide
  request a ha := by
    have hr : ∀ a ∈ loginDb.authSessions.rows, a.request = none := by decide +kernel
    rw [hr a (Table.mem_of_get ha)]
    rintro ⟨⟩

section Resting

variable {n : ℕ}

def nextPending (n : ℕ) (w : World) : Pending := newPending w.profile (nextChoice n)

lemma Resting.unused (h : Resting n w) (hn : n < maxGeneration) (a : AuthSession)
    (ha : w.db.authSessions.get (plainId 0) = some a) :
    Unused plainConfig w.db (nextPending n w) a := by
  have big : maxGeneration < 2 ^ 64 := by decide
  have fresh : ∀ k < 2 ^ 66, 2 * n + 4 ≤ k → w.db.uses (BitVec.ofNat 256 k) = false := by
    intro k hk hle
    rw [Bool.eq_false_iff]
    intro hu
    have := h.uses _ hu
    rw [BitVec.toNat_ofNat, Nat.mod_eq_of_lt (by omega)] at this
    omega
  exact ⟨fresh _ (by omega) le_rfl, fresh _ (by omega) (by omega), h.request a ha⟩

lemma Resting.pendingValid (h : Resting n w) (hn : n < maxGeneration) :
    pendingValid (plainId 0) (nextPending n w) w.profile = true := by
  have big : maxGeneration < 2 ^ 64 := by decide
  have hreq : validAuthId (plainId (1 + n % 2)) = true := by
    rcases Nat.mod_two_eq_zero_or_one n with h | h <;> rw [h] <;> decide
  have ne : ∀ k < 2 ^ 66, 2 * n + 4 ≤ k → ∀ s : Secret, s.toNat < 2 * n + 4 →
      BitVec.ofNat 256 k ≠ s := by
    rintro k hk hle s hs rfl
    rw [BitVec.toNat_ofNat, Nat.mod_eq_of_lt (by omega)] at hs
    omega
  have hdist : BitVec.ofNat 256 (2 * n + 4) ≠ BitVec.ofNat 256 (2 * n + 5) := by
    intro he
    have := congrArg BitVec.toNat he
    rw [BitVec.toNat_ofNat, BitVec.toNat_ofNat, Nat.mod_eq_of_lt (by omega),
      Nat.mod_eq_of_lt (by omega)] at this
    omega
  have hlow : 2 * n + 4 < 2 ^ 66 := by omega
  have hhigh : 2 * n + 5 < 2 ^ 66 := by omega
  exact pendingValid_iff.mpr ⟨by decide, hreq, rfl, hdist, ne _ hlow le_rfl _ h.token,
    ne _ hlow le_rfl _ h.refresh, ne _ hhigh (by omega) _ h.token,
    ne _ hhigh (by omega) _ h.refresh⟩

lemma Resting.plan (h : Resting n w) (hn : n < maxGeneration) :
    plan (plainId 0) w.profile w.profile none (nextChoice n) = .fresh (nextPending n w) := by
  have hpv := h.pendingValid hn
  have hval := h.inv.disk.valid
  have hacc : prepareAccepts w.profile none (nextPending n w) = true := by
    obtain ⟨-, -, h3, h4, h5, -, -, h8⟩ := pendingValid_iff.mp hpv
    exact prepareAccepts_iff.mpr ⟨h3, h4, h5, h8, (by intros; contradiction)⟩
  have hexp : ¬w.profile.refreshExpiresAt ≤ (nextChoice n).clock := by
    obtain ⟨-, -, -, -, -, hpos⟩ := credentialsValid_iff.mp hval
    show ¬_ ≤ 0
    omega
  have hdue : (nextChoice n).due = true := rfl
  rw [nextPending] at hpv hacc ⊢
  unfold Login.plan
  rw [if_neg (not_not.mpr hval), if_neg (by simp)]
  dsimp only [Option.filter_none]
  rw [if_neg hexp, if_neg (by simp [hdue]), if_neg (not_not.mpr hpv), if_neg (not_not.mpr hacc)]

/-- A rotation up to its request. -/
def startActs (n : ℕ) : List Act := [.lock 0, .begin 0, .choose 0 (nextChoice n), .send 0]

def World.started (n : ℕ) (w : World) : World :=
  { w with
    journal := some (nextPending n w)
    lock := some 0
    procs := Function.update w.procs 0 ⟨w.profile, .sent w.profile (nextPending n w)⟩
    requests := refreshRequest (plainId 0) w.profile (nextPending n w) :: w.requests }

lemma Resting.started (h : Resting n w) (hn : n < maxGeneration) :
    run (World.act plainConfig (plainId 0)) w (startActs n) = w.started n ∧
    Along (World.act plainConfig (plainId 0)) (Fresh plainConfig (plainId 0)) w (startActs n) := by
  have h1 : w.act plainConfig (plainId 0) (.lock 0) = (w.setPhase 0 .locked).setLock (some 0) := by
    simp [World.act, h.proc, h.lock]
  have h2 : ((w.setPhase 0 .locked).setLock (some 0)).act plainConfig (plainId 0) (.begin 0) =
      ((w.setPhase 0 .locked).setLock (some 0)).setPhase 0 (.opened w.profile none) := by
    simp [World.act, World.begin, h.journal]
  have h3 : (((w.setPhase 0 .locked).setLock (some 0)).setPhase 0 (.opened w.profile none)).act
      plainConfig (plainId 0) (.choose 0 (nextChoice n)) =
      { w with journal := some (nextPending n w), lock := some 0,
               procs := Function.update w.procs 0
                 ⟨w.profile, .prepared w.profile (nextPending n w)⟩ } := by
    simp [World.act, World.choose, h.proc, h.plan hn, World.setPhase, World.setLock,
      World.setJournal, World.adopt, World.setMemory]
  have h4 : World.act plainConfig (plainId 0)
      { w with journal := some (nextPending n w), lock := some 0,
               procs := Function.update w.procs 0
                 ⟨w.profile, .prepared w.profile (nextPending n w)⟩ }
      (.send 0) = w.started n := by
    simp [World.act, World.setPhase, World.started]
  refine ⟨?_, ?_⟩
  · simp only [startActs, run_cons, run_nil, h1, h2, h3, h4]
  · simp only [startActs, Along, h1, h2, h3]
    exact ⟨trivial, trivial, h.unused hn, trivial, trivial⟩

lemma plainId_parity (n : ℕ) : plainId (1 + n % 2) ≠ plainId (1 + (n + 1) % 2) := by
  rcases Nat.mod_two_eq_zero_or_one n with h | h
  · rw [h, Nat.add_mod, h]
    decide
  · rw [h, Nat.add_mod, h]
    decide

lemma Resting.rotated (h : Resting n w) (hn : n < maxGeneration) {d : Done}
    (hd : refreshAuth plainConfig w.db w.now
      (refreshRequest (plainId 0) w.profile (nextPending n w)) = .ok d) :
    (∃ a, d.db.authSessions.get (plainId 0) = some a ∧
      checkAuthSession d.db w.now a true = .ok () ∧ a.request = some (plainId (1 + n % 2))) ∧
    ∀ k, d.db.uses k = true → k.toNat < 2 * (n + 1) + 4 := by
  have big : maxGeneration < 2 ^ 64 := by decide
  obtain ⟨id, request, expected, nt, nr, proof, a, heq, -, ha, hc, hcase⟩ := refreshAuth_cases hd
  simp only [refreshRequest, RefreshRequest.full, RefreshRequest.mk.injEq, Option.some.injEq] at heq
  obtain ⟨rfl, rfl, rfl, rfl, rfl, rfl⟩ := heq
  have hlevel : Level plainConfig w.profile a := by
    rcases h.inv.disk.row a ha with hl | ⟨p, hp, -⟩
    · exact hl
    · rw [h.journal] at hp
      cases hp
  rcases hcase with ⟨hprev, -⟩ | ⟨-, hproof, -, -, -, -, -, hrot⟩
  · exact absurd (hlevel.refresh ▸ hprev.symm) hlevel.previous
  have hid : a.id = plainId 0 := Table.key_of_get ha
  rw [hproof] at hrot
  constructor
  · refine ⟨_, (rotateAuth_authSessions (hid ▸ ha) hrot _).trans (if_pos hid.symm), ?_, rfl⟩
    exact checkAuthSession_rotated (by decide) hc hrot
  intro k hk
  rcases rotateAuth_uses (Table.mem_of_get ha) hrot hk with hk | rfl | rfl
  · have := h.uses k hk
    omega
  · show (BitVec.ofNat 256 (2 * n + 4)).toNat < _
    rw [BitVec.toNat_ofNat, Nat.mod_eq_of_lt (by omega)]
    omega
  · show (BitVec.ofNat 256 (2 * n + 5)).toNat < _
    rw [BitVec.toNat_ofNat, Nat.mod_eq_of_lt (by omega)]
    omega

lemma Resting.next (h : Resting n w) (hn : n + 1 < maxGeneration) :
    ∃ as, Along (World.act plainConfig (plainId 0)) (Fresh plainConfig (plainId 0)) w as ∧
      Resting (n + 1) (run (World.act plainConfig (plainId 0)) w as) := by
  have big : maxGeneration < 2 ^ 64 := by decide
  have hH : Function.Injective plainConfig.tokenHash := Function.injective_id
  obtain ⟨hrun, hfresh⟩ := h.started (by omega)
  have hinv : Inv plainConfig (plainId 0) (w.started n) := by
    rw [← hrun]
    exact along_invariant (fun v a hv ha => hv.act hH a ha) h.inv hfresh
  have hph : ((w.started n).procs 0).phase = .sent w.profile (nextPending n w) := by
    simp [World.started]
  have hgen : (w.started n).profile.generation < maxGeneration := by
    show w.profile.generation < _
    rw [h.generation]
    omega
  obtain ⟨d, x, -, hd, -, h1⟩ := hinv.deliver_sent h.live hph (.inr hgen)
  obtain ⟨⟨a, ha, hcheck, hreq⟩, huses⟩ := h.rotated (by omega) hd
  have hinv1 := hinv.act hH (.deliver (refreshRequest (plainId 0) w.profile (nextPending n w)))
    trivial
  rw [h1] at hinv1
  obtain ⟨after, hg, ht, hr, h2⟩ := hinv1.answer_succeeds hph (List.mem_cons_self ..)
  have hinv2 := (hinv1.complete hH 0 x).act hH (.finish 0) trivial
  rw [h2] at hinv2
  let acts : List Act := startActs n ++
    [.deliver (refreshRequest (plainId 0) w.profile (nextPending n w)), .receive 0 (some x),
      .save 0, .unlink 0, .finish 0]
  have hend : run (World.act plainConfig (plainId 0)) w acts =
      ((((w.started n).answered d.db (refreshRequest (plainId 0) w.profile (nextPending n w))
        (some x)).rotated 0 after).setPhase 0 .idle).setLock none := by
    rw [run_append, hrun, run_cons, h1]
    show World.act plainConfig (plainId 0) (World.complete plainConfig (plainId 0) _ 0 x)
      (.finish 0) = _
    rw [h2]
    simp [World.act]
  refine ⟨acts, along_append.mpr ⟨hfresh, trivial, trivial, trivial, trivial, trivial, trivial⟩,
    ?_⟩
  have hact : (((w.started n).answered d.db (refreshRequest (plainId 0) w.profile
      (nextPending n w)) (some x)).rotated 0 after).act plainConfig (plainId 0) (.finish 0) =
      ((((w.started n).answered d.db (refreshRequest (plainId 0) w.profile (nextPending n w))
        (some x)).rotated 0 after).setPhase 0 .idle).setLock none := by
    simp [World.act]
  rw [hact] at hinv2
  rw [hend]
  have hlow : ∀ k < 2 * (n + 1) + 4, (BitVec.ofNat 256 k).toNat < 2 * (n + 1) + 4 := by
    intro k hk
    rw [BitVec.toNat_ofNat, Nat.mod_eq_of_lt (by omega)]
    exact hk
  exact {
    inv := hinv2
    live := ⟨a, ha, hcheck⟩
    generation := by
      show after.generation = _
      rw [hg]
      exact congrArg (· + 1) h.generation
    journal := rfl
    lock := rfl
    proc := by simp
    uses := huses
    token := by
      show after.token.toNat < _
      rw [ht]
      exact hlow _ (by omega)
    refresh := by
      show after.refreshToken.toNat < _
      rw [hr]
      exact hlow _ (by omega)
    request := by
      intro b hb
      obtain rfl := Option.some.inj (ha.symm.trans hb)
      rw [hreq]
      intro he
      exact plainId_parity n (Option.some.inj he) }

lemma exists_resting (n : ℕ) (hn : n < maxGeneration) :
    ∃ as, Along (World.act plainConfig (plainId 0)) (Fresh plainConfig (plainId 0)) loginWorld as ∧
      Resting n (run (World.act plainConfig (plainId 0)) loginWorld as) := by
  induction n with
  | zero => exact ⟨[], trivial, resting_loginWorld⟩
  | succ n ih =>
    obtain ⟨as, has, hrest⟩ := ih (by omega)
    obtain ⟨bs, hbs, hnext⟩ := hrest.next hn
    refine ⟨as ++ bs, along_append.mpr ⟨has, hbs⟩, ?_⟩
    rw [run_append]
    exact hnext

end Resting

/-- The first rotation, cut when its request is under way, still succeeds. -/
theorem never_stranded_first_rotation :
    LoggedIn plainConfig (plainId 0) loginWorld ∧
    ∃ x w', w' = (World.act plainConfig (plainId 0) (run (World.act plainConfig (plainId 0))
        loginWorld (startActs 0)) (.deliver (refreshRequest (plainId 0) loginProfile
          (nextPending 0 loginWorld)))).complete plainConfig (plainId 0) 0 x ∧
      (w'.procs 0).phase = .finished true ∧ Settled plainConfig (plainId 0) w' ∧
      w'.profile.generation = 2 := by
  obtain ⟨hrun, hfresh⟩ := resting_loginWorld.started (by decide)
  obtain ⟨-, hsucc, -⟩ := never_stranded (w := run (World.act plainConfig (plainId 0)) loginWorld
    (startActs 0)) Function.injective_id loginWorld_loggedIn hfresh rfl
  rw [hrun] at hsucc ⊢
  exact ⟨loginWorld_loggedIn, hsucc loginWorld_live 0 _ _ (by simp [World.started, loginWorld])
    (.inr (by decide))⟩

/-- **At the limit a rotation is refused**, to a live family that is level with the server. -/
theorem refused_at_limit :
    Function.Injective plainConfig.tokenHash ∧ LoggedIn plainConfig (plainId 0) loginWorld ∧
    ∃ as w p, Along (World.act plainConfig (plainId 0)) (Fresh plainConfig (plainId 0))
        loginWorld as ∧
      w = run (World.act plainConfig (plainId 0)) loginWorld as ∧
      Live (plainId 0) w ∧ Settled plainConfig (plainId 0) w ∧
      w.profile.generation = maxGeneration ∧ (w.procs 0).phase = .sent w.profile p ∧
      refreshRequest (plainId 0) w.profile p ∈ w.requests ∧
      refreshAuth plainConfig w.db w.now (refreshRequest (plainId 0) w.profile p) =
        .error (authFailure 409 "auth_conflict") := by
  refine ⟨Function.injective_id, loginWorld_loggedIn, ?_⟩
  obtain ⟨as, has, hrest⟩ := exists_resting (maxGeneration - 1) (by decide)
  have hlt : maxGeneration - 1 < maxGeneration := by decide
  obtain ⟨hrun, hfresh⟩ := hrest.started hlt
  obtain ⟨a, ha, hcheck⟩ := hrest.live
  have hlevel : Level plainConfig (run (World.act plainConfig (plainId 0)) loginWorld as).profile
      a := by
    rcases hrest.inv.disk.row a ha with hl | ⟨p, hp, -⟩
    · exact hl
    · rw [hrest.journal] at hp
      cases hp
  refine ⟨as ++ startActs (maxGeneration - 1), _, nextPending (maxGeneration - 1)
    (run (World.act plainConfig (plainId 0)) loginWorld as),
    along_append.mpr ⟨has, hfresh⟩, rfl, ?_⟩
  rw [run_append, hrun]
  refine ⟨hrest.live, ⟨a, ha, hlevel.generation, hlevel.refresh⟩, hrest.generation, ?_,
    List.mem_cons_self .., ?_⟩
  · simp [World.started]
  have hvalid := valid_of_pendingValid hrest.inv.disk.valid (hrest.pendingValid hlt)
  refine refreshAuth_limit hvalid ha hcheck hlevel.refresh hlevel.previous ?_
  rw [hlevel.generation, hrest.generation]
  decide

end OhecoBroker.Login
