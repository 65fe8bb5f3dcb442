/-
When the server accepts a bearer, an authority or a refresh request, and what a rotation leaves
behind.

* `checkAuthSession_eq_ok`, `authAuthority_eq_ok`, `txPrincipal_eq_ok`: each check succeeds
  exactly when the rows it reads say so;
* `rotateAuth_ok`, `rotateAuth_uses`: the tables after a rotation, and the hashes in use;
* `refreshAuth_cases`: a successful refresh repeats the kept receipt or rotates;
  `refreshAuth_replay`, `refreshAuth_rotate` and `refreshAuth_limit` say when.
-/
import OhecoBroker.Control.Auth

namespace OhecoBroker.Control

open Lib Table

/-! ### Authorities and bearers -/

variable {db : Db} {now : ℕ} {u : Unit}

lemma checkAuthSession_eq_ok {a : AuthSession} {pending : Bool} :
    checkAuthSession db now a pending = .ok u ↔
      a.revoked = none ∧ now < a.refreshExpiry ∧ (a.absoluteExpiry = 0 ∨ now < a.absoluteExpiry) ∧
      ∃ t, db.tenants.get a.tenant = some t ∧ t.version = a.version ∧
        (t.status = .active ∨ (pending = true ∧ t.status = .pending)) := by
  simp only [checkAuthSession, bind_eq_ok, found_eq_ok, reject_eq_ok, exists_unit]
  constructor
  · rintro ⟨h1, h2, t, ht, h3⟩
    push Not at h1 h2 h3
    refine ⟨h1, h2.1, ?_, t, ht, h3.1, ?_⟩
    · by_cases h : a.absoluteExpiry = 0
      · exact .inl h
      · exact .inr (h2.2 h)
    · by_cases h : t.status = .active
      · exact .inl h
      · exact .inr (h3.2 h)
  rintro ⟨h1, h2, h3, t, ht, h4, h5⟩
  refine ⟨by simp [h1], by omega, t, ht, ?_⟩
  rintro (h | ⟨h, h'⟩)
  · exact h h4
  · rcases h5 with h5 | h5
    · exact h h5
    · exact h' h5

lemma authAuthority_eq_ok {id tenant : Uuid} {version : ℕ} {pending : Bool} {a : AuthSession} :
    authAuthority db now id tenant version pending = .ok a ↔
      db.authSessions.get id = some a ∧ a.tenant = tenant ∧ a.version = version ∧
        checkAuthSession db now a pending = .ok () := by
  simp only [authAuthority, bind_eq_ok, found_eq_ok, reject_eq_ok, exists_unit, pure_eq_ok]
  constructor
  · rintro ⟨b, hb, h1, hu, rfl⟩
    push Not at h1
    exact ⟨hb, h1.1, h1.2, hu⟩
  · rintro ⟨ha, rfl, rfl, hc⟩
    exact ⟨a, ha, by simp, hc, rfl⟩

lemma checkLogin_eq_ok {id : Option Uuid} {tenant : Uuid} {version : ℕ} {pending : Bool} :
    checkLogin db now id tenant version pending = .ok u ↔
      ∀ i, id = some i → ∃ a, authAuthority db now i tenant version pending = .ok a := by
  cases id with
  | none => simp [checkLogin]
  | some i => simp [checkLogin, discard_eq_ok]

lemma txActive_eq_ok {p : Principal} : txActive db p = .ok u ↔
      ∃ t, db.tenants.get p.tenant = some t ∧ t.version = p.version ∧ t.status = .active := by
  simp only [txActive, bind_eq_ok, found_eq_ok, reject_eq_ok, exists_unit, not_not]

lemma txPrincipal_eq_ok {hash : Hash} {p : Principal} : txPrincipal db now hash p = .ok u ↔
      txAuthPrincipal db now p = .ok () ∧
      (¬(p.authSession ≠ none ∧ p.kind = .account) →
        ∃ t, db.tokens.get hash = some t ∧ t.principal = p ∧ now < t.expiresAt ∧
          txActive db p = .ok ()) := by
  by_cases h : p.authSession ≠ none ∧ p.kind = .account
  · rw [txPrincipal, if_pos h]
    exact ⟨fun hp => ⟨hp, fun hn => absurd h hn⟩, And.left⟩
  rw [txPrincipal, if_neg h]
  simp only [bind_eq_ok, found_eq_ok, reject_eq_ok, exists_unit]
  constructor
  · rintro ⟨t, ht, hr, hv, ha⟩
    push Not at hr
    exact ⟨hv, fun _ => ⟨t, ht, hr.1, hr.2, ha⟩⟩
  · rintro ⟨hv, hp⟩
    obtain ⟨t, ht, hr, he, ha⟩ := hp h
    exact ⟨t, ht, by push Not; exact ⟨hr, he⟩, hv, ha⟩

/-! ### Rotation -/

section Rotation

variable {cfg : Config} {db : Db} {now : ℕ}

abbrev RefreshRequest.full (id request : Uuid) (expected : ℕ) (nextToken nextRefreshToken
    proof : Secret) : RefreshRequest where
  authSession := some id
  expectedGeneration := some expected
  request := some request
  nextToken := some nextToken
  nextRefreshToken := some nextRefreshToken
  proof := some proof

/-- The request has the form the server asks for. -/
structure RefreshRequest.Valid (id request : Uuid) (expected : ℕ) (nextToken nextRefreshToken
    proof : Secret) : Prop where
  id : validAuthId id
  request : validAuthId request
  expected : expected ≠ 0
  distinct : nextToken ≠ nextRefreshToken
  token : nextToken ≠ proof
  refresh : nextRefreshToken ≠ proof

variable {expected : ℕ} {nextToken nextRefreshToken proof : Secret} {a : AuthSession}
  {nextRefresh : Hash} {d : Done}

lemma RefreshRequest.Valid.form {id request : Uuid}
    (h : Valid id request expected nextToken nextRefreshToken proof) :
    ¬(¬validAuthId id = true ∨ ¬validAuthId request = true ∨ expected = 0 ∨
      nextToken = nextRefreshToken ∨ some nextToken = some proof ∨
      some nextRefreshToken = some proof) := by
  simp [h.id, h.request, h.expected, h.distinct, h.token, h.refresh]

structure AuthSession.Receipt (a : AuthSession) (request : Uuid) (expected : ℕ)
    (next nextRefresh : Hash) : Prop where
  request : a.request = some request
  expected : a.expectedGeneration = expected
  nextToken : a.nextToken = some next
  nextRefresh : a.nextRefresh = some nextRefresh

lemma Config.refreshExpiry_pos (cfg : Config) (hnow : 0 < now) (absolute : ℕ) :
    0 < cfg.refreshExpiry now absolute := by
  unfold Config.refreshExpiry
  split <;> omega

/-- A hash no column holds. -/
lemma not_uses {h : Hash} :
    db.uses h = false ↔ (∀ t ∈ db.tokens, t.hash ≠ h) ∧
      ∀ a ∈ db.authSessions, a.refreshHash ≠ h ∧ a.previousRefresh ≠ some h ∧ a.tokenHash ≠ h := by
  simp [Db.uses, and_assoc]

lemma rotateAuth_ok {request : Uuid} {hash next : Hash}
    (h : rotateAuth cfg db now a request hash next nextRefresh = .ok d) :
    ∃ tokens, (db.overlapTokens cfg now a).tokens.insert (a.nextAccount cfg now next) =
        some tokens ∧
      d = { db := ((db.overlapTokens cfg now a).withTokens tokens).updateAuthSessions
              (fun b => b.id = a.id) (AuthSession.rotated cfg now request hash next nextRefresh)
              (AuthSession.rotated_id cfg now request hash next nextRefresh)
            code := 200
            reply := .receipt (a.rotated cfg now request hash next nextRefresh).receipt } := by
  simp only [rotateAuth, bind_eq_ok, found_eq_ok, reject_eq_ok, exists_unit, pure_eq_ok] at h
  obtain ⟨T, hT, -, rfl⟩ := h
  exact ⟨T, hT, rfl⟩

lemma rotateAuth_authSessions {request : Uuid} {hash next : Hash}
    (ha : db.authSessions.get a.id = some a)
    (h : rotateAuth cfg db now a request hash next nextRefresh = .ok d) (id : Uuid) :
    d.db.authSessions.get id = if id = a.id
      then some (a.rotated cfg now request hash next nextRefresh) else db.authSessions.get id := by
  obtain ⟨T, -, rfl⟩ := rotateAuth_ok h
  simp only [Db.updateAuthSessions_authSessions, Db.withTokens_authSessions, Db.overlapTokens,
    Db.updateTokens_authSessions, Db.deleteTokens_authSessions, get_update]
  by_cases hid : id = a.id
  · subst hid
    simp [ha]
  rw [if_neg hid]
  cases hb : db.authSessions.get id with
  | none => rfl
  | some b =>
    have : b.id ≠ a.id := fun he => hid ((key_of_get hb).symm.trans he)
    simp [this]

/-- A rotation to unused candidates succeeds. -/
lemma rotateAuth_of_unused (a : AuthSession) (request : Uuid) (hash : Hash)
    {next : Hash} (hn : db.uses next = false) (hr : db.uses nextRefresh = false) :
    ∃ d, rotateAuth cfg db now a request hash next nextRefresh = .ok d := by
  have hfree : (db.overlapTokens cfg now a).tokens.get next = none := by
    have hget : db.tokens.get next = none := get_eq_none.mpr (not_uses.mp hn).1
    simp only [Db.overlapTokens, Db.updateTokens_tokens, Db.deleteTokens_tokens, get_update,
      get_delete, hget, Option.filter_none, Option.map_none]
  obtain ⟨T, hT⟩ := insert_of_get_none (r := a.nextAccount cfg now next) hfree
  simp only [rotateAuth, bind_eq_ok, found_eq_ok, reject_eq_ok, exists_unit, pure_eq_ok]
  refine ⟨_, T, hT, ?_, rfl⟩
  rw [Bool.not_eq_true, any_eq_false]
  intro b hb
  simp [((not_uses.mp hr).2 b hb).1]

lemma uses_iff {k : Hash} :
    db.uses k = true ↔ (∃ t ∈ db.tokens, t.hash = k) ∨
      ∃ a ∈ db.authSessions, a.refreshHash = k ∨ a.previousRefresh = some k ∨ a.tokenHash = k := by
  simp [Db.uses, or_assoc]

lemma rotateAuth_uses {request : Uuid} {next : Hash} (ha : a ∈ db.authSessions)
    (h : rotateAuth cfg db now a request a.refreshHash next nextRefresh = .ok d) {k : Hash}
    (hk : d.db.uses k = true) : db.uses k = true ∨ k = next ∨ k = nextRefresh := by
  obtain ⟨T, hT, rfl⟩ := rotateAuth_ok h
  rcases uses_iff.mp hk with ⟨t, ht, rfl⟩ | ⟨b, hb, hkb⟩
  · rcases (mem_insert hT).mp ht with rfl | ht
    · exact .inr (.inl rfl)
    · simp only [Db.overlapTokens, Db.updateTokens_tokens, Db.deleteTokens_tokens,
        mem_update, mem_delete] at ht
      obtain ⟨q, ⟨hq, -⟩, rfl⟩ := ht
      refine .inl (uses_iff.mpr (.inl ⟨q, hq, ?_⟩))
      split <;> rfl
  simp only [Db.updateAuthSessions_authSessions, Db.withTokens_authSessions, Db.overlapTokens,
    Db.updateTokens_authSessions, Db.deleteTokens_authSessions, mem_update] at hb
  obtain ⟨c, hc, rfl⟩ := hb
  split at hkb
  · rcases hkb with rfl | hkb | rfl
    · exact .inr (.inr rfl)
    · have hprev : some a.refreshHash = some k := hkb
      exact .inl (uses_iff.mpr (.inr ⟨a, ha, .inl (Option.some.inj hprev)⟩))
    · exact .inr (.inl rfl)
  · exact .inl (uses_iff.mpr (.inr ⟨c, hc, hkb⟩))

/-- A good login session is good after its rotation. -/
lemma checkAuthSession_rotated {request : Uuid} {hash next : Hash}
    (hTTL : 0 < cfg.authRefreshTTL) (hc : checkAuthSession db now a true = .ok ())
    (h : rotateAuth cfg db now a request hash next nextRefresh = .ok d) :
    checkAuthSession d.db now (a.rotated cfg now request hash next nextRefresh) true = .ok () := by
  obtain ⟨T, -, rfl⟩ := rotateAuth_ok h
  obtain ⟨h1, -, h3, h4⟩ := checkAuthSession_eq_ok.mp hc
  refine checkAuthSession_eq_ok.mpr ⟨h1, ?_, h3, h4⟩
  show now < cfg.refreshExpiry now a.absoluteExpiry
  unfold Config.refreshExpiry
  split <;> omega

theorem refreshAuth_cases {r : RefreshRequest} (h : refreshAuth cfg db now r = .ok d) :
    ∃ id request expected nextToken nextRefreshToken proof a,
      r = .full id request expected nextToken nextRefreshToken proof ∧
      RefreshRequest.Valid id request expected nextToken nextRefreshToken proof ∧
      db.authSessions.get id = some a ∧ checkAuthSession db now a true = .ok () ∧
      ((some (cfg.tokenHash proof) = a.previousRefresh ∧
        a.Receipt request expected (cfg.tokenHash nextToken) (cfg.tokenHash nextRefreshToken) ∧
        a.generation = a.expectedGeneration + 1 ∧
        d = { db, code := 200, reply := .receipt a.receipt }) ∨
      (some (cfg.tokenHash proof) ≠ a.previousRefresh ∧ cfg.tokenHash proof = a.refreshHash ∧
        expected = a.generation ∧ some request ≠ a.request ∧ a.generation < maxGeneration ∧
        db.uses (cfg.tokenHash nextToken) = false ∧
        db.uses (cfg.tokenHash nextRefreshToken) = false ∧
        rotateAuth cfg db now a request (cfg.tokenHash proof) (cfg.tokenHash nextToken)
          (cfg.tokenHash nextRefreshToken) = .ok d)) := by
  obtain ⟨id, expected, request, nextToken, nextRefreshToken, proof⟩ := r
  simp only [refreshAuth, bind_eq_ok, found_eq_ok, reject_eq_ok, exists_unit] at h
  obtain ⟨id, rfl, request, rfl, expected, rfl, nextToken, rfl, nextRefreshToken, rfl, hv, proof,
    rfl, a, ha, hp, hc, h⟩ := h
  push Not at hv hp
  refine ⟨id, request, expected, nextToken, nextRefreshToken, proof, a, rfl, ?_, ha, hc, ?_⟩
  · exact ⟨hv.1, hv.2.1, hv.2.2.1, hv.2.2.2.1, fun he => hv.2.2.2.2.1 (congrArg some he),
      fun he => hv.2.2.2.2.2 (congrArg some he)⟩
  by_cases hprev : some (cfg.tokenHash proof) = a.previousRefresh
  · rw [if_pos hprev] at h
    simp only [bind_eq_ok, reject_eq_ok, exists_unit, pure_eq_ok] at h
    obtain ⟨hm, rfl⟩ := h
    push Not at hm
    obtain ⟨h1, h2, h3, h4, h5⟩ := hm
    exact .inl ⟨hprev, ⟨h1.symm, h2.symm, h3.symm, h4.symm⟩, h5, rfl⟩
  rw [if_neg hprev] at h
  simp only [bind_eq_ok, reject_eq_ok, exists_unit] at h
  obtain ⟨h1, h2, h3, h⟩ := h
  push Not at h1 h2 h3
  refine .inr ⟨hprev, ?_, h1.1, h1.2, h2, by simpa using h3.1, by simpa using h3.2, h⟩
  by_contra hne
  exact hprev (hp hne)

/-- The request of the kept receipt gets it again. -/
theorem refreshAuth_replay {id request : Uuid}
    (hv : RefreshRequest.Valid id request expected nextToken nextRefreshToken proof)
    (ha : db.authSessions.get id = some a) (hc : checkAuthSession db now a true = .ok ())
    (hp : a.previousRefresh = some (cfg.tokenHash proof))
    (hr : a.Receipt request expected (cfg.tokenHash nextToken) (cfg.tokenHash nextRefreshToken))
    (hg : a.generation = expected + 1) :
    refreshAuth cfg db now (.full id request expected nextToken nextRefreshToken proof) =
      .ok { db, code := 200, reply := .receipt a.receipt } := by
  simp only [refreshAuth, bind_eq_ok, found_eq_ok, reject_eq_ok, exists_unit]
  refine ⟨id, rfl, request, rfl, expected, rfl, nextToken, rfl, nextRefreshToken, rfl, hv.form,
    proof, rfl, a, ha, fun h => h.2 hp.symm, hc, ?_⟩
  rw [if_pos hp.symm]
  simp only [bind_eq_ok, reject_eq_ok, exists_unit, pure_eq_ok]
  simp [hr.request, hr.expected, hr.nextToken, hr.nextRefresh, hg]

theorem refreshAuth_rotate {id request : Uuid}
    (hv : RefreshRequest.Valid id request a.generation nextToken nextRefreshToken proof)
    (ha : db.authSessions.get id = some a) (hc : checkAuthSession db now a true = .ok ())
    (hp : a.refreshHash = cfg.tokenHash proof) (hprev : a.previousRefresh ≠ some a.refreshHash)
    (hreq : a.request ≠ some request) (hmax : a.generation < maxGeneration)
    (hn : db.uses (cfg.tokenHash nextToken) = false)
    (hr : db.uses (cfg.tokenHash nextRefreshToken) = false) :
    ∃ d, refreshAuth cfg db now
        (.full id request a.generation nextToken nextRefreshToken proof) = .ok d ∧
      rotateAuth cfg db now a request (cfg.tokenHash proof) (cfg.tokenHash nextToken)
        (cfg.tokenHash nextRefreshToken) = .ok d := by
  obtain ⟨d, hd⟩ : ∃ d, rotateAuth cfg db now a request (cfg.tokenHash proof)
      (cfg.tokenHash nextToken) (cfg.tokenHash nextRefreshToken) = .ok d :=
    rotateAuth_of_unused a request _ hn hr
  refine ⟨d, ?_, hd⟩
  have hprev' : some (cfg.tokenHash proof) ≠ a.previousRefresh := by
    rw [← hp]
    exact hprev.symm
  simp only [refreshAuth, bind_eq_ok, found_eq_ok, reject_eq_ok, exists_unit]
  refine ⟨id, rfl, request, rfl, a.generation, rfl, nextToken, rfl, nextRefreshToken, rfl,
    hv.form, proof, rfl, a, ha, fun h => h.1 hp.symm, hc, ?_⟩
  rw [if_neg hprev']
  simp only [bind_eq_ok, reject_eq_ok, exists_unit]
  exact ⟨by simp [Ne.symm hreq], by omega, by simp [hn, hr], hd⟩

theorem refreshAuth_limit {id request : Uuid}
    (hv : RefreshRequest.Valid id request expected nextToken nextRefreshToken proof)
    (ha : db.authSessions.get id = some a) (hc : checkAuthSession db now a true = .ok ())
    (hp : a.refreshHash = cfg.tokenHash proof) (hprev : a.previousRefresh ≠ some a.refreshHash)
    (hmax : maxGeneration ≤ a.generation) :
    refreshAuth cfg db now (.full id request expected nextToken nextRefreshToken proof) =
      .error (authFailure 409 "auth_conflict") := by
  have hprev' : some (cfg.tokenHash proof) ≠ a.previousRefresh := by
    rw [← hp]
    exact hprev.symm
  have hproof : ¬(cfg.tokenHash proof ≠ a.refreshHash ∧
      some (cfg.tokenHash proof) ≠ a.previousRefresh) := fun h => h.1 hp.symm
  simp only [refreshAuth, found_some, ok_bind, ha, hc, reject_neg hv.form,
    reject_neg hproof, if_neg hprev']
  by_cases h : expected ≠ a.generation ∨ some request = a.request
  · rw [reject_pos h, error_bind]
  · rw [reject_neg h, ok_bind, reject_pos hmax, error_bind]

end Rotation

end OhecoBroker.Control
