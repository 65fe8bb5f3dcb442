/-
What each handler of the control server commits, as a sequence of moves.  Facts about runs are
proved for one move at a time; the lemmas here say that there is nothing else.

* `txPrincipal_tenant`, `txPrincipal_vouches`: what a bearer that passes says;
* `issueDevice_moves`, `revokeAuthSession_moves`, `resetTenant_moves`, `dropBroker_moves`: groups
  of statements that several handlers share;
* `updateAccountCredentials_moves`, `rotateDevice_moves`, `createSession_moves`,
  `connectionSession_opens`: handlers;
* `expireTokens_moves`, `pruneConnections_moves`: the periodic maintenance.
-/
import OhecoBroker.Control.Lineage
import OhecoBroker.Control.Moves

namespace OhecoBroker.Control

open Lib Relation Table

variable {cfg : Config} {now : ℕ} {D : Draws} {db db' : Db} {d : Done}

/-! ### Bearers -/

variable {p : Principal} {u : Unit} {t : Secret} {tenant sid : Uuid} {draw : AuthDraw} {b : Broker}
  {v : Session}

lemma txPrincipal_vouches {hash : Hash}
    (h : txPrincipal db now hash p = .ok u) {i : Uuid} (hi : p.authSession = some i) :
    db.vouches i p.tenant p.version := by
  obtain ⟨ha, -⟩ := txPrincipal_eq_ok.mp h
  obtain ⟨a, ha⟩ := checkLogin_eq_ok.mp ha i hi
  obtain ⟨hget, h1, h2, h3⟩ := authAuthority_eq_ok.mp ha
  obtain ⟨hmem, hid⟩ := get_eq_some.mp hget
  exact ⟨a, hmem, hid, (checkAuthSession_eq_ok.mp h3).1, h1, h2⟩

lemma txPrincipal_tenant {hash : Hash} (h : txPrincipal db now hash p = .ok u) :
    ∃ t, db.tenants.get p.tenant = some t ∧ t.version = p.version ∧ t.status = .active := by
  obtain ⟨ha, hp⟩ := txPrincipal_eq_ok.mp h
  by_cases hk : p.authSession ≠ none ∧ p.kind = .account
  · obtain ⟨i, hi⟩ := Option.ne_none_iff_exists'.mp hk.1
    obtain ⟨a, ha⟩ := checkLogin_eq_ok.mp ha i hi
    obtain ⟨-, h1, h2, h3⟩ := authAuthority_eq_ok.mp ha
    obtain ⟨-, -, -, t, ht, hv, hs⟩ := checkAuthSession_eq_ok.mp h3
    rw [h1] at ht
    exact ⟨t, ht, hv.trans h2, by simpa using hs⟩
  · obtain ⟨t, -, -, -, hact⟩ := hp hk
    exact txActive_eq_ok.mp hact

lemma txPrincipal_tenant_mem {hash : Hash} (h : txPrincipal db now hash p = .ok u) :
    ∃ t ∈ db.tenants, t.id = p.tenant ∧ t.version = p.version ∧ t.status = .active := by
  obtain ⟨t, ht, hv, hs⟩ := txPrincipal_tenant h
  obtain ⟨hm, hid⟩ := get_eq_some.mp ht
  exact ⟨t, hm, hid, hv, hs⟩

lemma txPrincipal_row {hash : Hash}
    (h : txPrincipal db now hash p = .ok u) (hk : ¬(p.authSession ≠ none ∧ p.kind = .account))
    {t : Token} (ht : t ∈ db.tokens) (he : t.hash = hash) : t.principal = p := by
  obtain ⟨t', hget, h1, -⟩ := (txPrincipal_eq_ok.mp h).2 hk
  obtain ⟨hm, hid⟩ := get_eq_some.mp hget
  obtain rfl := eq_of_key_eq ht hm (he.trans hid.symm)
  exact h1

lemma txPrincipal_token {hash : Hash}
    (h : txPrincipal db now hash p = .ok u) (hn : p.authSession = none) {t : Token}
    (ht : t ∈ db.tokens) (he : t.hash = hash) : t.tenant = p.tenant ∧ t.version = p.version := by
  have hrow := txPrincipal_row h (fun hk => hk.1 hn) ht he
  exact ⟨congrArg Principal.tenant hrow, congrArg Principal.version hrow⟩

/-! ### Credentials -/

/-- A new token is one move. -/
lemma issue_moves {kind : Kind} {broker : Option Uuid}
    {version expiry : ℕ} (h : issue cfg db t kind tenant broker none version expiry = .ok db')
    (hk : kind ≠ .session) (hD : cfg.tokenHash t ∈ D.hashes)
    (hnew : ∀ a ∈ db.authSessions, a.tokenHash ≠ cfg.tokenHash t)
    (hdev : ∀ c ∈ db.connections, c.accountHash ≠ cfg.tokenHash t ∧
      c.deviceHash ≠ cfg.tokenHash t) : Moves cfg now D db db' := by
  simp only [issue, bind_eq_ok, found_eq_ok, pure_eq_ok] at h
  obtain ⟨T, hT, rfl⟩ := h
  exact .single (.addToken hT hD hk rfl (by intros; contradiction) hnew hdev
    (by intros; contradiction))

/-- The first credentials of an account, of either kind. -/
lemma firstCredentials_moves {refreshed : Bool} {version : ℕ} {reply : Reply}
    (h : firstCredentials cfg db now refreshed draw tenant version = .ok (db', reply))
    (hD : cfg.tokenHash draw.token ∈ D.hashes) (hid : draw.id ∈ D.ids)
    (hnew : ∀ a ∈ db.authSessions, a.tokenHash ≠ cfg.tokenHash draw.token)
    (hdev : ∀ c ∈ db.connections, (c.accountHash ≠ cfg.tokenHash draw.token ∧
      c.deviceHash ≠ cfg.tokenHash draw.token) ∧ c.authSession ≠ some draw.id) :
    Moves cfg now D db db' := by
  cases refreshed with
  | true =>
    simp only [firstCredentials, if_true, bind_eq_ok, pure_eq_ok, Prod.mk.injEq, Prod.exists] at h
    obtain ⟨db₁, c, hi, rfl, rfl⟩ := h
    exact .single (.login hi hD hid hnew fun c hc => (hdev c hc).2)
  | false =>
    simp only [firstCredentials, Bool.false_eq_true, if_false, bind_eq_ok, pure_eq_ok,
      Prod.mk.injEq] at h
    obtain ⟨db₁, hi, rfl, rfl⟩ := h
    exact issue_moves hi (by rintro ⟨⟩) hD hnew fun c hc => (hdev c hc).1

lemma issueDevice_moves {broker : Uuid}
    (h : issueDevice cfg db now t p broker = .ok db') (hD : cfg.tokenHash t ∈ D.hashes)
    (hd : cfg.tokenHash t ∈ D.devices)
    (hnew : ∀ a ∈ db.authSessions, a.tokenHash ≠ cfg.tokenHash t)
    (hdev : ∀ c ∈ db.connections, c.accountHash ≠ cfg.tokenHash t ∧
      c.deviceHash ≠ cfg.tokenHash t) : Moves cfg now D db db' := by
  unfold issueDevice at h
  cases hp : p.authSession with
  | none =>
    rw [hp] at h
    exact issue_moves h (by rintro ⟨⟩) hD hnew hdev
  | some i =>
    simp only [hp, issue, bind_eq_ok, found_eq_ok, pure_eq_ok] at h
    obtain ⟨a, ha, db₁, ⟨T, hT, rfl⟩, rfl⟩ := h
    obtain ⟨hget, h1, h2, h3⟩ := authAuthority_eq_ok.mp ha
    obtain ⟨hmem, hid⟩ := get_eq_some.mp hget
    have hT' := @insert_update _ _ _ _ _ _ _ (fun r : Token => r.hash = cfg.tokenHash t)
      (fun r => { r with authSession := some i }) (fun _ => rfl) hT (by simp)
    refine .single (@Move.addToken cfg now D db _ _ hT' hD (by simp) rfl ?_ hnew hdev ?_)
    · intro j hj
      cases hj
      exact ⟨rfl, a, hmem, hid, (checkAuthSession_eq_ok.mp h3).1, h1, h2⟩
    intro j hj
    cases hj
    refine ⟨hd, fun b hb hbid => ?_⟩
    obtain rfl := eq_of_key_eq hb hmem (hbid.trans hid.symm)
    exact min_le_right _ _

/-! ### Revocations -/

/-- Sessions go before their tokens would dangle. -/
lemma dropSessions_moves (ids : List Uuid) : Moves cfg now D db (db.dropSessions ids) := by
  have m₁ : Move cfg now D db (db.deleteSessions fun v => v.id ∈ ids) := .dropSessions _
  refine (ReflTransGen.single m₁).tail (.dropTokens _ ?_)
  intro t _ hq _ v hv hs
  simp only [Db.deleteSessions_sessions, mem_delete, decide_eq_false_iff_not] at hv
  simp only [hs, Option.any_some, Bool.and_eq_true, decide_eq_true_eq] at hq
  exact absurd hq.2 hv.2

lemma revokeConnections_move (p : ConnectionRecord → Bool) (reason : Reason) :
    Move cfg now D db (revokeConnections db p reason) := .mark _ _

lemma revokeAuthSession_moves (a : AuthSession) :
    Moves cfg now D db (revokeAuthSession db a).1 := by
  have m₁ : Moves cfg now D db (revokeConnections db (db.restsOn a.id) .accountLogout) :=
    .single (revokeConnections_move ..)
  have m₂ := m₁.trans (dropSessions_moves (db.authSessionSessions a.id))
  have m₃ := m₂.tail (.changeBrokers (fun b => b.id ∈ db.authBrokers a.id)
    (fun b => { b with leaseExpiresAt := 0 }) (fun _ => rfl) fun _ => rfl)
  have m₄ := m₃.tail (.dropTokens (fun t => t.authSession = some a.id) ?_)
  · refine m₄.tail (.kill (fun b => b.id = a.id && b.revoked = none) .logout ?_)
    intro b _ hb t ht hauth
    simp only [Bool.and_eq_true, decide_eq_true_eq] at hb
    have := (mem_delete.mp ht).2
    rw [hauth, hb.1] at this
    simp at this
  intro t ht hq hk v hv hs
  obtain ⟨ht, -⟩ := mem_delete.mp ht
  obtain ⟨hv, hout⟩ := mem_delete.mp hv
  refine absurd ?_ (of_decide_eq_false hout)
  -- the session of a token of this login session was selected
  refine List.mem_map.mpr ⟨v, mem_select.mpr ⟨hv, ?_⟩, rfl⟩
  have : db.tokens.any (fun t => t.kind = .session && t.authSession = some a.id &&
      t.session = some v.id) = true :=
    any_eq_true.mpr ⟨t, ht, by simp_all⟩
  simp [this]

lemma resetTenant_moves (hs : Sound cfg now db) (id : Uuid) :
    Moves cfg now D db (resetTenant db id) := by
  have m₁ : Moves cfg now D db (revokeConnections db (fun c => c.tenant = id) .tenantReset) :=
    .single (revokeConnections_move ..)
  have m₂ := m₁.tail (.dropSessions fun v => v.tenant = id)
  have m₃ := m₂.tail (.dropTokens (fun t => t.tenant = id) ?_)
  · have m₄ := m₃.tail (.changeBrokers (fun b => b.tenant = id)
      (fun b => { b with leaseExpiresAt := 0 }) (fun _ => rfl) fun _ => rfl)
    refine m₄.tail (.kill (fun a => a.tenant = id) .tenantReset ?_)
    intro a ha hid t ht hauth
    obtain ⟨ht, hne⟩ := mem_delete.mp ht
    obtain ⟨b, hb, h1, -, h3, -⟩ := hs.authority t ht a.id hauth
    obtain rfl := eq_of_key_eq hb ha h1
    exact of_decide_eq_false hne (h3.symm.trans (of_decide_eq_true hid))
  intro t ht hq hk v hv hsess
  obtain ⟨hv, hne⟩ := mem_delete.mp hv
  obtain ⟨h1, -⟩ := hs.paired t ht hk v hv hsess
  exact absurd (h1.symm.trans (of_decide_eq_true hq)) (of_decide_eq_false hne)

lemma dropBroker_moves (hs : Sound cfg now db) (id : Uuid) :
    Moves cfg now D db (dropBroker db id) := by
  have m₁ : Moves cfg now D db (revokeConnections db (fun c => c.broker = id) .brokerRevoked) :=
    .single (revokeConnections_move ..)
  have m₂ := m₁.tail (.dropSessions fun v => v.broker = id)
  refine m₂.tail (.dropTokens (fun t => t.kind = .session && t.broker = some id) ?_)
  intro t ht hq hk v hv hsess
  obtain ⟨hv, hne⟩ := mem_delete.mp hv
  obtain ⟨-, h2, -⟩ := hs.paired t ht hk v hv hsess
  simp only [h2, Bool.and_eq_true, decide_eq_true_eq, Option.some.injEq] at hq
  exact absurd hq.2 (of_decide_eq_false hne)

/-- A broker goes after everything that names it. -/
lemma deleteBroker_moves {hash : Hash} (hs : Sound cfg now db)
    (h : deleteBroker db now hash p b = .ok d) : Moves cfg now D db d.db := by
  simp only [deleteBroker, bind_eq_ok, exists_unit, pure_eq_ok] at h
  obtain ⟨-, rfl⟩ := h
  have m₁ : Moves cfg now D db (revokeConnections db (fun c => c.broker = b.id) .brokerDeleted) :=
    .single (revokeConnections_move ..)
  have m₂ := m₁.tail (.dropSessions fun v => v.broker = b.id)
  have m₃ := m₂.tail (.dropTokens (fun t => t.broker = some b.id) ?_)
  · exact m₃.tail (.removeBroker b.id)
  intro t ht hq hk v hv hsess
  obtain ⟨hv, hne⟩ := mem_delete.mp hv
  obtain ⟨-, h2, -⟩ := hs.paired t ht hk v hv hsess
  simp only [h2, decide_eq_true_eq, Option.some.injEq] at hq
  exact absurd hq (of_decide_eq_false hne)

/-! ### Accounts -/

lemma registerAccount_moves {refreshed : Bool} {policy : Policy} {relay : Bool} {r : Registration}
    {id : Uuid}
    (h : registerAccount cfg db now refreshed policy relay r id draw = .ok d) (hD : D.Fresh db)
    (hh : cfg.tokenHash draw.token ∈ D.hashes) (hi : draw.id ∈ D.ids) :
    Moves cfg now D db d.db := by
  simp only [registerAccount, bind_eq_ok, found_eq_ok, reject_eq_ok, exists_unit, pure_eq_ok,
    Prod.exists] at h
  obtain ⟨-, -, hash, -, -, T, hT, db₁, reply, hf, rfl⟩ := h
  obtain ⟨-, h2, h3⟩ := hD.hash hh
  exact (ReflTransGen.single (.addTenant hT)).trans
    (firstCredentials_moves hf hh hi h2 fun c hc => ⟨h3 c hc, ((hD.id hi).2.1 c hc).2⟩)

/-- The eviction of legacy tokens only deletes tokens. -/
lemma evictLegacy_moves (tenant : Uuid) : Moves cfg now D db (evictLegacy db tenant) := by
  refine .single (.dropTokens _ ?_)
  intro t ht hq hk
  obtain ⟨u, hu, he⟩ := List.mem_map.mp (of_decide_eq_true hq)
  have hu' := (List.mem_insertionSort _).mp (List.mem_of_mem_take hu)
  obtain ⟨hu', hp⟩ := mem_select.mp hu'
  obtain rfl := eq_of_key_eq hu' ht he
  simp [hk] at hp

lemma accountToken_moves {t : Tenant} (h : accountToken cfg db now t draw = .ok d) (hD : D.Fresh db)
    (hh : cfg.tokenHash draw.token ∈ D.hashes) (hi : draw.id ∈ D.ids) :
    Moves cfg now D db d.db := by
  simp only [accountToken, bind_eq_ok, pure_eq_ok, Prod.exists] at h
  obtain ⟨db₁, reply, hf, rfl⟩ := h
  obtain ⟨-, h2, h3⟩ := hD.hash hh
  exact firstCredentials_moves hf hh hi h2 fun c hc => ⟨h3 c hc, ((hD.id hi).2.1 c hc).2⟩

lemma loginAuth_moves {t : Tenant} (h : loginAuth cfg db now t draw = .ok d) (hD : D.Fresh db)
    (hh : cfg.tokenHash draw.token ∈ D.hashes) (hi : draw.id ∈ D.ids) :
    Moves cfg now D db d.db := by
  simp only [loginAuth, bind_eq_ok, found_eq_ok, reject_eq_ok, exists_unit, pure_eq_ok,
    Prod.exists] at h
  obtain ⟨-, -, -, db₁, reply, hf, rfl⟩ := h
  obtain ⟨-, h2, h3⟩ := hD.hash hh
  exact firstCredentials_moves hf hh hi h2 fun c hc => ⟨h3 c hc, ((hD.id hi).2.1 c hc).2⟩

/-- A refresh repeats the receipt or is one rotation. -/
lemma refreshAuth_moves {r : RefreshRequest} (h : refreshAuth cfg db now r = .ok d) :
    Moves cfg now D db d.db := by
  obtain ⟨id, request, expected, nt, nr, proof, a, -, -, ha, hc, hcase⟩ := refreshAuth_cases h
  obtain rfl := key_of_get ha
  rcases hcase with ⟨-, -, -, rfl⟩ | ⟨-, -, -, -, -, hn, -, hr⟩
  · exact .refl
  · exact .single (.rotate ha hc hn hr)

lemma logoutLegacy_moves (hash : Hash) : Moves cfg now D db (logoutLegacy db hash) := by
  have m₁ : Moves cfg now D db (revokeConnections db (fun c => c.accountHash = hash)
      .accountLogout) := .single (revokeConnections_move ..)
  refine (m₁.trans (dropSessions_moves _)).tail (.dropTokens _ ?_)
  intro t _ hq hk
  simp [hk] at hq

lemma logout_moves {hash : Option Hash} (h : logout db hash = .ok d) : Moves cfg now D db d.db := by
  cases hash with
  | none => simp [logout, found] at h
  | some hash =>
    simp only [logout, found_some, ok_bind] at h
    split at h
    · simp only [bind_eq_ok, found_eq_ok, pure_eq_ok] at h
      obtain ⟨a, -, rfl⟩ := h
      exact revokeAuthSession_moves a
    · simp only [pure_eq_ok] at h
      obtain rfl := h
      exact logoutLegacy_moves hash

lemma logoutAuth_moves {hash : Option Hash} (h : logoutAuth db hash = .ok d) :
    Moves cfg now D db d.db := by
  simp only [logoutAuth, bind_eq_ok, found_eq_ok, pure_eq_ok] at h
  obtain ⟨-, -, a, -, rfl⟩ := h
  exact revokeAuthSession_moves a

lemma deleteAuthSession_moves {hash : Hash} {id : Uuid}
    (h : deleteAuthSession db now hash p id = .ok d) : Moves cfg now D db d.db := by
  simp only [deleteAuthSession, bind_eq_ok, found_eq_ok, reject_eq_ok, exists_unit,
    pure_eq_ok] at h
  obtain ⟨-, a, -, -, rfl⟩ := h
  exact revokeAuthSession_moves a

lemma updateAccountCredentials_moves {u : AccountUpdate}
    (hs : Sound cfg now db) (h : updateAccountCredentials cfg db now u draw = .ok d)
    (hD : D.Fresh db) (hh : cfg.tokenHash draw.token ∈ D.hashes) (hi : draw.id ∈ D.ids) :
    Moves cfg now D db d.db := by
  simp only [updateAccountCredentials, bind_eq_ok, found_eq_ok, reject_eq_ok, exists_unit,
    pure_eq_ok, Prod.exists] at h
  obtain ⟨-, t, ht, -, -, db₁, reply, hr, rfl⟩ := h
  have m₁ : Move cfg now D db (db.updateTenants (fun n => n.id = u.id) u.apply u.apply_id) :=
    .changeTenants _ _ _ fun t _ _ => .inl (Nat.lt_succ_self _)
  have m₂ := (ReflTransGen.single m₁).trans (resetTenant_moves (m₁.sound hs) u.id)
  refine m₂.trans ?_
  unfold replacementCredentials at hr
  split at hr
  · obtain ⟨-, h2, h3⟩ := hD.hash hh
    refine firstCredentials_moves hr hh hi ?_ ?_
    · intro a ha
      simp only [resetTenant, revokeConnections, Db.updateBrokers_authSessions,
        Db.deleteSessions_authSessions, Db.deleteTokens_authSessions,
        Db.updateAuthSessions_authSessions, Db.updateConnections_authSessions,
        Db.updateTenants_authSessions, mem_update] at ha
      obtain ⟨b, hb, rfl⟩ := ha
      split <;> exact h2 b hb
    intro c hc
    simp only [resetTenant, revokeConnections, Db.updateBrokers_connections,
      Db.deleteSessions_connections, Db.deleteTokens_connections,
      Db.updateAuthSessions_connections, Db.updateConnections_connections,
      Db.updateTenants_connections, mem_update] at hc
    obtain ⟨e, he, rfl⟩ := hc
    split <;> exact ⟨h3 e he, ((hD.id hi).2.1 e he).2⟩
  · simp only [Except.ok.injEq, Prod.mk.injEq] at hr
    obtain ⟨rfl, -⟩ := hr
    exact .refl

/-- Without relay the forced sessions of the tenant go. -/
lemma revokeRelay_moves (t : Tenant) : Moves cfg now D db (revokeRelay db t) := by
  unfold revokeRelay
  split
  · exact .refl
  have m₁ : Moves cfg now D db (revokeConnections db (fun c => c.tenant = t.id &&
      c.relay = .force) .relayRevoked) := .single (revokeConnections_move ..)
  have m₂ := m₁.tail (.dropSessions fun v => v.tenant = t.id && v.relayMode = .force)
  have m₃ := m₂.tail (.dropTokens (fun k => k.kind = .session && db.sessions.any fun v =>
    (v.tenant = t.id && v.relayMode = .force) && k.session = some v.id) ?_)
  · exact m₃.tail (.relabel (fun v => v.tenant = t.id) (fun v => { v with relayApproved := false })
      (fun _ => rfl) fun _ => ⟨rfl, rfl, rfl, rfl, rfl⟩)
  intro k _ hq _ v hv hsess
  obtain ⟨hv, hne⟩ := mem_delete.mp hv
  simp only [Bool.and_eq_true, any_eq_true, decide_eq_true_eq] at hq
  obtain ⟨-, w, hw, hforced, he⟩ := hq
  have hid : w.id = v.id := Option.some.inj (he.symm.trans hsess)
  obtain rfl := eq_of_key_eq hw hv hid
  simp [hforced.1, hforced.2] at hne

lemma updateCapabilities_moves {u : CapabilityUpdate} (hu : u.setStatus → u.status = .active)
    (h : updateCapabilities db u = .ok d) : Moves cfg now D db d.db := by
  simp only [updateCapabilities, bind_eq_ok, found_eq_ok, reject_eq_ok, exists_unit,
    pure_eq_ok] at h
  obtain ⟨t, -, -, rfl⟩ := h
  have m₁ : Moves cfg now D db (db.updateTenants (fun n => n.id = u.id) u.apply u.apply_id) := by
    refine .single (.changeTenants _ _ _ fun t _ _ => .inr ⟨rfl, fun hact => ?_⟩)
    simp only [CapabilityUpdate.apply]
    split
    · exact hu ‹_›
    · exact hact
  refine (m₁.trans ?_).trans (revokeRelay_moves _)
  unfold revokeInactive
  split
  · exact .refl
  · exact .single (revokeConnections_move ..)

lemma adminUpdateTenant_active {t : Tenant} {name email : Option String} {status : Option Status}
    {relay : Option Bool} {ok : Bool} {u : CapabilityUpdate}
    (h : adminUpdateTenant t name email status relay ok = .ok (.capabilities u)) :
    u.status = .active := by
  simp only [adminUpdateTenant, bind_eq_ok, reject_eq_ok, exists_unit] at h
  obtain ⟨-, h⟩ := h
  split at h
  · cases h
  rename_i hn
  push Not at hn
  obtain rfl := AdminChange.capabilities.inj (pure_eq_ok.mp h)
  exact hn.2.2

lemma adminAction_active {t : Tenant} {verb : AdminVerb} {u : CapabilityUpdate}
    (h : adminAction t verb = .ok (.capabilities u)) (hs : u.setStatus) : u.status = .active := by
  cases verb <;> simp only [adminAction, bind_eq_ok, found_eq_ok, reject_eq_ok, exists_unit,
    pure_eq_ok, AdminChange.capabilities.injEq, reduceCtorEq, and_false, exists_false] at h
  · obtain ⟨-, rfl⟩ := h
    rfl
  · obtain rfl := h
    rfl
  · obtain ⟨e, -, rfl⟩ := h
    cases hs

lemma AdminChange.commit_moves {c : AdminChange} (hs : Sound cfg now db)
    (hc : ∀ u, c = .capabilities u → u.setStatus → u.status = .active)
    (h : c.commit cfg db now draw = .ok d) (hD : D.Fresh db)
    (hh : cfg.tokenHash draw.token ∈ D.hashes) (hi : draw.id ∈ D.ids) :
    Moves cfg now D db d.db := by
  cases c with
  | account u => exact updateAccountCredentials_moves hs h hD hh hi
  | capabilities u => exact updateCapabilities_moves (hc u rfl) h

/-! ### Brokers and sessions -/

lemma registerBroker_moves {hash : Hash} {name : String} {id : Uuid}
    (h : registerBroker cfg db now hash p name id t = .ok d) (hD : D.Fresh db)
    (hh : cfg.tokenHash t ∈ D.hashes) (hd : cfg.tokenHash t ∈ D.devices) (hi : id ∈ D.ids) :
    Moves cfg now D db d.db := by
  simp only [registerBroker, bind_eq_ok, found_eq_ok, reject_eq_ok, exists_unit, pure_eq_ok] at h
  obtain ⟨-, -, -, hn, B, hB, db₁, h1, rfl⟩ := h
  obtain ⟨-, h2, h3⟩ := hD.hash hh
  exact (ReflTransGen.single (.addBroker hB hi (not_le.mp hn))).trans
    (issueDevice_moves h1 hh hd h2 h3)

lemma renameBroker_moves {hash : Hash} {name : String}
    (h : renameBroker db now hash p b name = .ok d) : Moves cfg now D db d.db := by
  simp only [renameBroker, bind_eq_ok, reject_eq_ok, exists_unit, pure_eq_ok] at h
  obtain ⟨-, -, -, rfl⟩ := h
  exact .single (.changeBrokers _ _ _ fun _ => rfl)

lemma rotateDevice_moves {hash : Hash}
    (hs : Sound cfg now db) (h : rotateDevice cfg db now hash p b t = .ok d) (hD : D.Fresh db)
    (hh : cfg.tokenHash t ∈ D.hashes) (hd : cfg.tokenHash t ∈ D.devices) :
    Moves cfg now D db d.db := by
  simp only [rotateDevice, bind_eq_ok, found_eq_ok, reject_eq_ok, exists_unit, pure_eq_ok] at h
  obtain ⟨-, live, -, -, db₁, h1, rfl⟩ := h
  obtain ⟨-, h2, h3⟩ := hD.hash hh
  have m₁ := (dropBroker_moves (D := D) hs b.id).tail (.dropTokens (fun k => k.kind = .device &&
    k.broker = some b.id) fun k _ hq hk => by simp [hk] at hq)
  refine ((m₁.trans (issueDevice_moves h1 hh hd h2 ?_))).tail (.changeBrokers _ _ _ fun _ => rfl)
  intro c hc
  simp only [dropBroker, revokeConnections, Db.deleteSessions_connections,
    Db.deleteTokens_connections, Db.updateConnections_connections, mem_update] at hc
  obtain ⟨e, he, rfl⟩ := hc
  split <;> exact h3 e he

lemma heartbeat_moves {hash : Hash}
    (h : heartbeat cfg db now hash p b = .ok d) (hd : hash ∈ D.devices)
    (hown : D.ownBearer → p.kind = .device) : Moves cfg now D db d.db := by
  simp only [heartbeat, bind_eq_ok, exists_unit, pure_eq_ok] at h
  obtain ⟨hp, db₁, h1, rfl⟩ := h
  refine ReflTransGen.tail ?_ (.changeBrokers _ _ _ fun _ => rfl)
  unfold extendDevice at h1
  split at h1
  · cases h1
    exact .refl
  simp only [bind_eq_ok, pure_eq_ok] at h1
  obtain ⟨a, ha, rfl⟩ := h1
  refine .single (.touchDevice _ _ (fun t hq => by simp_all) (fun t hq => ?_)
    fun hs t ht hq i hi b hb hbid => ?_)
  · simp only [Bool.and_eq_true, decide_eq_true_eq] at hq
    exact hq.1 ▸ hd
  -- the bearer is the row of its token, so the authority is the token's
  simp only [Bool.and_eq_true, decide_eq_true_eq] at hq
  rename_i id hid
  have hprincipal := txPrincipal_row hp (fun hk => by simp [hown hs] at hk) ht hq.1
  have hti : t.authSession = p.authSession := congrArg Principal.authSession hprincipal
  obtain rfl : id = i := Option.some.inj (hid.symm.trans (hti.symm.trans hi))
  obtain ⟨hmem, haid⟩ := get_eq_some.mp (authAuthority_eq_ok.mp ha).1
  obtain rfl := eq_of_key_eq hb hmem (hbid.trans haid.symm)
  exact min_le_left _ _

lemma offlineBroker_moves {hash : Hash} (hs : Sound cfg now db)
    (h : offlineBroker db now hash p b = .ok d) : Moves cfg now D db d.db := by
  simp only [offlineBroker, bind_eq_ok, exists_unit, pure_eq_ok] at h
  obtain ⟨-, rfl⟩ := h
  have m₁ : Move cfg now D db (db.updateBrokers (fun c => c.id = b.id)
    fun c => { c with leaseExpiresAt := 0 }) := .changeBrokers _ _ _ fun _ => rfl
  exact (ReflTransGen.single m₁).trans (dropBroker_moves (m₁.sound hs) b.id)

/-- A new session and its token are one move. -/
lemma createSession_moves {hash : Hash} {relay : RelayMode}
    {id : Uuid} (h : createSession cfg db now hash p b relay id t = .ok d)
    (hD : D.Fresh db) (hi : id ∈ D.ids) : Moves cfg now D db d.db := by
  simp only [createSession, bind_eq_ok, found_eq_ok, reject_eq_ok, exists_unit, pure_eq_ok] at h
  obtain ⟨hp, live, -, -, -, hown, hall, db₁, h1, rfl⟩ := h
  obtain ⟨ht, hc, he⟩ := hD.id hi
  exact .single (.openSession h1 (fun t h => (ht t h).1) (fun c h => (hc c h).1) he
    (fun i hi => txPrincipal_vouches hp hi) ⟨not_le.mp hown, not_le.mp hall⟩)

lemma sessionHeartbeat_moves {hash : Hash}
    (h : sessionHeartbeat cfg db now hash p v = .ok d) : Moves cfg now D db d.db := by
  simp only [sessionHeartbeat, bind_eq_ok, found_eq_ok, reject_eq_ok, exists_unit,
    pure_eq_ok] at h
  obtain ⟨-, -, b, -, -, s, hs, hlive, rfl⟩ := h
  refine .single (.extend _ _ fun w hw hid => ?_)
  obtain ⟨hsm, hsid⟩ := get_eq_some.mp hs
  obtain rfl := eq_of_key_eq hw hsm (hid.trans hsid.symm)
  omega

lemma deleteSession_moves {hash : Hash}
    (h : deleteSession db now hash p v = .ok d) : Moves cfg now D db d.db := by
  simp only [deleteSession, bind_eq_ok, exists_unit, pure_eq_ok] at h
  obtain ⟨-, rfl⟩ := h
  have m₁ : Move cfg now D db (db.deleteSessions fun s => s.id = v.id) := .dropSessions _
  refine (ReflTransGen.single m₁).tail (.dropTokens _ ?_)
  intro t _ hq _ w hw hsess
  obtain ⟨-, hne⟩ := mem_delete.mp hw
  simp only [hsess, decide_eq_true_eq, Option.some.injEq] at hq
  exact absurd hq (of_decide_eq_false hne)

lemma sendMessage_moves {hash : Hash} {sequence : ℕ} {data : String}
    (h : sendMessage cfg db now hash p v sequence data = .ok d) : Moves cfg now D db d.db := by
  simp only [sendMessage, bind_eq_ok, reject_eq_ok, exists_unit] at h
  obtain ⟨hbounds, -, -, h⟩ := h
  split at h
  · simp only [bind_eq_ok, reject_eq_ok, exists_unit, pure_eq_ok] at h
    obtain ⟨-, rfl⟩ := h
    exact .refl
  · simp only [bind_eq_ok, found_eq_ok, reject_eq_ok, exists_unit, pure_eq_ok] at h
    obtain ⟨-, M, hM, rfl⟩ := h
    exact .single (.post hM ⟨by dsimp only; omega, by dsimp only; omega⟩)

lemma approveSession_moves {hash : Hash} {relay : Bool}
    (h : approveSession db now hash p v relay = .ok d) : Moves cfg now D db d.db := by
  simp only [approveSession, bind_eq_ok, exists_unit, pure_eq_ok] at h
  obtain ⟨-, -, -, rfl⟩ := h
  exact .single (.relabel _ _ _ fun _ => ⟨rfl, rfl, rfl, rfl, rfl⟩)

/-! ### Lineages -/

/-- The device token a new lineage is bound to. -/
lemma deviceToken_eq_some {broker : Uuid} {version : ℕ} {t : Token}
    (h : db.deviceToken now tenant broker version = some t) :
    t ∈ db.tokens ∧ t.kind = .device ∧ t.tenant = tenant ∧ t.broker = some broker ∧
      t.version = version ∧ now < t.expiresAt := by
  obtain ⟨ht, hp⟩ := mem_select.mp (List.argmax_mem (Option.mem_def.mpr h))
  simp only [Bool.and_eq_true, decide_eq_true_eq] at hp
  obtain ⟨⟨⟨⟨h1, h2⟩, h3⟩, h4⟩, h5⟩ := hp
  exact ⟨ht, h1, h2, h3, h4, h5⟩

/-- A lineage admits only bearers of its version. -/
lemma Admits.version {hash : Hash} {broker : Uuid} {relay : RelayMode}
    {c : ConnectionRecord} (h : Admits db now hash p broker relay c)
    (hp : txPrincipal db now hash p = .ok ()) : c.version = p.version := by
  obtain ⟨-, ⟨t, ht, hv, -⟩, -⟩ := checkConnection_eq_ok.mp h.check
  obtain ⟨t', ht', hv', -⟩ := txPrincipal_tenant hp
  rw [h.tenant, ht'] at ht
  cases ht
  exact hv.symm.trans hv'

theorem connectionSession_opens {hash : Hash} {id : Option Uuid}
    {r : ConnectionRequest} (hs : Sound cfg now db)
    (h : connectionSession cfg db now hash p sid id r = .ok d)
    (hft : ∀ t ∈ db.tokens, t.session ≠ some sid) (hfc : ∀ c ∈ db.connections, c.session ≠ sid) :
    ∃ i broker request token expected relay,
      id = some i ∧ r = ⟨some broker, some relay, some expected, some request, some token⟩ ∧
      ((∃ c v, db.connections.get i = some c ∧ request = c.request ∧
          expected = c.priorGeneration ∧ cfg.tokenHash token = c.tokenHash ∧
          db.sessions.get c.session = some v ∧ now < v.expiresAt ∧
          d = { db, code := 200,
                reply := .connection c.session c.id c.generation v.expiresAt }) ∨
       ∃ old row, Connects db p old row ∧ row.id = i ∧ row.request = request ∧
          row.tokenHash = cfg.tokenHash token ∧ row.session = sid ∧ row.priorGeneration = expected ∧
          row.generation = expected + 1 ∧ (∀ c, old = some c → request ≠ c.request) ∧
          openGeneration cfg db now p old row = .ok d ∧
          (old = none → db.roomForLineage cfg p.tenant)) := by
  obtain ⟨i, broker, request, token, expected, relay, hid, hr, hp, -, hcase⟩ :=
    connectionSession_cases h
  refine ⟨i, broker, request, token, expected, relay, hid, hr, ?_⟩
  rcases hcase with ⟨c, v, hc, -, h1, h2, h3, hv, hlt, rfl⟩ | ⟨c, hc, hA, hreq, hgen, -, ho⟩ |
    ⟨hnone, hzero, hn, t, ht, ho⟩
  · exact .inl ⟨c, v, hc, h1, h2, h3, hv, hlt, rfl⟩
  · obtain ⟨hcm, rfl⟩ := get_eq_some.mp hc
    obtain ⟨hrev, -⟩ := checkConnection_eq_ok.mp hA.check
    refine .inr ⟨some c, c.advance expected request (cfg.tokenHash token) sid, ?_, rfl, rfl, rfl,
      rfl, rfl, congrArg (· + 1) hgen.symm, ?_, ho, (by rintro ⟨⟩)⟩
    · exact {
        stored := hc
        advance := by
          rintro c' hc'
          obtain rfl := Option.some.inj hc'
          exact ⟨hrev, rfl⟩
        create := (by rintro ⟨⟩)
        scope := by
          refine ⟨hA.tenant, hA.version hp, fun hne => ?_⟩
          obtain ⟨j, hj⟩ := Option.ne_none_iff_exists'.mp hne
          have hb := hA.bound
          have hj' : c.authSession = some j := hj
          simp only [ConnectionRecord.boundTo, hj', decide_eq_true_eq] at hb
          exact hb.trans hj.symm
        authority := fun j hj => txPrincipal_vouches hp hj
        device := fun u hu hk he => hs.device c hcm u hu hk he
        tenant := txPrincipal_tenant_mem hp
        account := (by rintro ⟨⟩)
        freshToken := hft
        freshLineage := hfc }
    · rintro c' hc'
      obtain rfl := Option.some.inj hc'
      exact hreq
  · obtain ⟨htm, -, -, hb, -⟩ := deviceToken_eq_some ht
    refine .inr ⟨none, newRow cfg hash p i broker relay expected request token sid t.hash, ?_, rfl,
      rfl, rfl, rfl, rfl, by rw [hzero], (by intros; contradiction), ho, fun _ => hn⟩
    exact {
      stored := hnone
      advance := (by intros; contradiction)
      create := fun _ => ⟨rfl, rfl⟩
      scope := ⟨rfl, rfl, fun _ => rfl⟩
      authority := fun j hj => txPrincipal_vouches hp hj
      device := by
        intro u hu _ he
        rw [eq_of_key_eq hu htm he]
        exact hb
      tenant := txPrincipal_tenant_mem hp
      account := fun _ hnone u hu he => txPrincipal_token hp hnone hu he
      freshToken := hft
      freshLineage := hfc }

lemma connectionSession_moves {hash : Hash} {id : Option Uuid}
    {r : ConnectionRequest} (hs : Sound cfg now db)
    (h : connectionSession cfg db now hash p sid id r = .ok d) (hD : D.Fresh db)
    (hi : sid ∈ D.ids) : Moves cfg now D db d.db := by
  obtain ⟨hft, hfc, -⟩ := hD.id hi
  obtain ⟨i, broker, request, token, expected, relay, -, -, hcase⟩ :=
    connectionSession_opens hs h (fun t ht => (hft t ht).1) fun c hc => (hfc c hc).1
  rcases hcase with ⟨c, v, -, -, -, -, -, -, rfl⟩ | ⟨old, row, hc, -, -, -, hsid, -, -, -, ho, hn⟩
  · exact .refl
  · exact .single (.connect hc (hsid ▸ hi) ho hn)

lemma deleteConnection_moves {hash : Hash} {id : Uuid}
    (h : deleteConnection db now hash p id = .ok d) : Moves cfg now D db d.db := by
  simp only [deleteConnection, bind_eq_ok, found_eq_ok, reject_eq_ok, exists_unit,
    pure_eq_ok] at h
  obtain ⟨-, c, -, -, rfl⟩ := h
  exact (ReflTransGen.single (revokeConnections_move ..)).trans (dropSessions_moves _)

lemma deleteSessionLineage_moves {hash : Hash} {id : Uuid}
    (h : deleteSessionLineage db now hash p sid id = .ok d) : Moves cfg now D db d.db := by
  simp only [deleteSessionLineage, bind_eq_ok, found_eq_ok, reject_eq_ok, exists_unit,
    pure_eq_ok] at h
  obtain ⟨-, c, -, -, rfl⟩ := h
  exact (ReflTransGen.single (revokeConnections_move ..)).trans (dropSessions_moves _)

/-! ### Maintenance -/

lemma expireTokens_moves (hs : Sound cfg now db) : Moves cfg now D db (expireTokens db now) := by
  refine .single (.dropTokens _ ?_)
  intro t ht hq hk v hv hsess
  obtain ⟨-, -, -, h4⟩ := hs.paired t ht hk v hv hsess
  simp only [hk, Bool.or_eq_true, Bool.and_eq_true, decide_eq_true_eq, Bool.not_eq_true',
    any_eq_false, reduceCtorEq, false_and, or_false, true_and] at hq
  rcases hq with hq | hq
  · omega
  · have := hq v hv
    rw [hsess] at this
    simp at this

lemma collectAuthSessions_moves : Moves cfg now D db (collectAuthSessions db now) := by
  refine .single (.collect _ ?_ ?_)
  · intro a _ hp t ht hauth
    simp only [Bool.and_eq_true, Bool.not_eq_true', any_eq_false] at hp
    have := hp.1.1.2 t ht
    rw [hauth] at this
    simp at this
  · intro a _ hp
    simp only [Bool.and_eq_true, Bool.or_eq_true, decide_eq_true_eq] at hp
    exact hp.1.1.1

/-- A caller that is gone stays gone. -/
lemma callerDead_mono {c : ConnectionRecord} {t t' u u' : ℕ} (h : callerDead db t t' c = true)
    (ht : t ≤ u) (ht' : t' ≤ u') (q : Token → Bool) :
    callerDead (db.deleteTokens q) u u' c = true := by
  simp only [callerDead, Bool.or_eq_true, Bool.and_eq_true, Bool.not_eq_true', any_eq_false,
    Bool.and_eq_false_iff, decide_eq_true_eq, decide_eq_false_iff_not, Db.deleteTokens_tokens,
    Db.deleteTokens_authSessions, Db.deleteTokens_tenants, mem_delete] at h ⊢
  rcases h with (⟨h0, h1⟩ | ⟨h0, h1⟩) | h1
  · refine .inl (.inl ⟨h0, fun a ha => (h1 a ha.1).imp_right fun h => by omega⟩)
  · refine .inl (.inr ⟨h0, fun a ha => (h1 a ha).imp_right fun h => by omega⟩)
  · exact .inr h1

lemma pruneConnections_moves {t : ℕ → ℕ} (ht : Monotone t) (hn : t 7 ≤ now) :
    Moves cfg now D db (pruneConnections db t) := by
  have m₁ : Moves cfg now D db (db.updateConnections (fun c => c.revoked = none &&
      deviceDead db (t 0) (t 1) c) fun c => { c with revoked := some .credentialRevoked }) :=
    .single (.mark _ _)
  unfold pruneConnections
  generalize db.updateConnections _ _ _ = db₁ at m₁ ⊢
  dsimp only
  generalize hq : (fun k : Token => decide (k.kind = .session) && k.session.any fun s =>
    db₁.connectionSessions.any fun h => decide (h.session = s) &&
      db₁.retired (t 2) (t 3) h.connection) = q
  have m₂ := m₁.tail (.dropSessions fun v => db₁.connectionSessions.any fun h =>
    h.session = v.id && (db₁.deleteTokens q).retired (t 4) (t 5) h.connection)
  have m₃ := m₂.tail (.dropTokens q ?_)
  · exact m₃.tail (.forget _ fun c _ hc => ⟨t 6, t 7, (ht (by norm_num)).trans hn, hn, hc⟩)
  intro k _ hk _ v hv hsess
  obtain ⟨-, hne⟩ := mem_delete.mp hv
  rw [← hq] at hk
  simp only [hsess, Option.any_some, Bool.and_eq_true, decide_eq_true_eq] at hk
  refine absurd ?_ (Bool.eq_false_iff.mp hne)
  obtain ⟨e, he, hk⟩ := any_eq_true.mp hk.2
  refine any_eq_true.mpr ⟨e, he, ?_⟩
  simp only [Bool.and_eq_true] at hk ⊢
  refine ⟨hk.1, ?_⟩
  -- what was retired at the first reading of the clock is retired at the second
  obtain ⟨c, hc, hr⟩ := any_eq_true.mp hk.2
  refine any_eq_true.mpr ⟨c, hc, ?_⟩
  simp only [Bool.and_eq_true, Bool.or_eq_true] at hr ⊢
  exact ⟨hr.1, hr.2.imp_right fun h =>
    callerDead_mono h (ht (by norm_num)) (ht (by norm_num)) q⟩

end OhecoBroker.Control
