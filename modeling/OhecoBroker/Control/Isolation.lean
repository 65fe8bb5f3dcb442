/-
What a request can learn about another tenant.  A request that names a session, a lineage or a
broker of somebody else is refused, but the refusal depends on how that row stands: servers that
agree on everything of the caller's own tenant can answer differently.

* `Request`, `Request.refusal`, `Request.Foreign`: the requests, their refusals, and that they
  name another tenant's row;
* `Agrees`, `Agrees.auth`: two databases with the same rows of one tenant;
* `Standing`, `Standing.answer_injective`: how a row stands, which the answer gives away;
* `foreign_answer_iff`: **the answers agree exactly when the named row stands the same in both
  databases**;
* `foreign_login_visible`: two servers whose answers differ.
-/
import OhecoBroker.Control.History

namespace OhecoBroker.Control

open Lib Table Option

variable {cfg : Config} {now : ℕ} {db : Db}

/-! ### Requests -/

/-- A session with a lineage closes it. -/
def deleteSessionRequest (db : Db) (now : ℕ) (hash : Hash) (id : Uuid) : Handled :=
  match db.connectionSessions.get id with
  | some e => do
    let p ← auth db now (some hash) [.account, .device, .session]
    deleteSessionLineage db now hash p id e.connection
  | none => do
    let (p, v) ← sessionPrincipal db now (some hash) id
    deleteSession db now hash p v

/-- Every endpoint of a session but `deleteSession` begins with `sessionPrincipal`. -/
inductive Request where
  | session (id : Uuid)
  | deleteSession (id : Uuid)
  | connectionSession (sid : Uuid) (id : Option Uuid) (r : ConnectionRequest)
  | deleteConnection (id : Uuid)

def Failure.answer : Failure → ApiError
  | .api e | .observed e _ => e
  | .internal => { code := 500, message := "internal server error" }

/-- The error answer, `none` when the request goes through. -/
def refused {α : Type} : Except Failure α → Option ApiError
  | .ok _ => none
  | .error e => some e.answer

namespace Request

def kinds : Request → List Kind
  | session _ => [.session, .device]
  | deleteSession _ => [.account, .device, .session]
  | connectionSession .. => [.account]
  | deleteConnection _ => [.account, .device]

def refusal (cfg : Config) (db : Db) (now : ℕ) (hash : Hash) : Request → Option ApiError
  | session id => refused (sessionPrincipal db now (some hash) id)
  | deleteSession id => refused (deleteSessionRequest db now hash id)
  | connectionSession sid id r => refused do
      let p ← auth db now (some hash) [.account]
      Control.connectionSession cfg db now hash p sid id r
  | deleteConnection id => refused do
      let p ← auth db now (some hash) [.account, .device]
      Control.deleteConnection db now hash p id

/-- The request names a row of another tenant. -/
def Foreign (A : Uuid) (db : Db) : Request → Prop
  | session id | deleteSession id => ∃ v, db.sessions.get id = some v ∧ v.tenant ≠ A
  | connectionSession _ id r =>
    (∃ i c, id = some i ∧ db.connections.get i = some c ∧ c.tenant ≠ A) ∨
      ∃ i b, r.broker = some i ∧ db.brokers.get i = some b ∧ b.tenant ≠ A
  | deleteConnection id => ∃ c, db.connections.get id = some c ∧ c.tenant ≠ A

end Request

/-! ### Two databases -/

/-- The databases hold the same rows of tenant `A`, and the same names. -/
structure Agrees (A : Uuid) (db₁ db₂ : Db) : Prop where
  tenant : db₁.tenants.get A = db₂.tenants.get A
  tokens : ∀ t, t.tenant = A → (t ∈ db₁.tokens ↔ t ∈ db₂.tokens)
  brokers : ∀ b, b.tenant = A → (b ∈ db₁.brokers ↔ b ∈ db₂.brokers)
  sessions : ∀ v, v.tenant = A → (v ∈ db₁.sessions ↔ v ∈ db₂.sessions)
  messages : ∀ v ∈ db₁.sessions, v.tenant = A → ∀ m, m.session = v.id →
    (m ∈ db₁.messages ↔ m ∈ db₂.messages)
  authSessions : ∀ a, a.tenant = A → (a ∈ db₁.authSessions ↔ a ∈ db₂.authSessions)
  connections : ∀ c, c.tenant = A → (c ∈ db₁.connections ↔ c ∈ db₂.connections)
  history : ∀ c ∈ db₁.connections, c.tenant = A → ∀ e, e.connection = c.id →
    (e ∈ db₁.connectionSessions ↔ e ∈ db₂.connectionSessions)
  sessionIds : ∀ id, (db₁.sessions.get id).isSome = (db₂.sessions.get id).isSome
  connectionIds : ∀ id, (db₁.connections.get id).isSome = (db₂.connections.get id).isSome

section Agrees

variable {A : Uuid} {db₁ db₂ : Db} (h : Agrees A db₁ db₂)
include h

lemma Agrees.broker (id : Uuid) :
    (db₁.brokers.get id).filter (·.tenant = A) = (db₂.brokers.get id).filter (·.tenant = A) :=
  get_filter_congr (fun b hb => h.brokers b (of_decide_eq_true hb)) id

lemma Agrees.authAuthority (i : Uuid) (version : ℕ) (pending : Bool) :
    authAuthority db₁ now i A version pending = authAuthority db₂ now i A version pending := by
  have hget : (db₁.authSessions.get i).filter (·.tenant = A) =
      (db₂.authSessions.get i).filter (·.tenant = A) :=
    get_filter_congr (fun a ha => h.authSessions a (of_decide_eq_true ha)) i
  -- only the rows of the tenant count
  have key : ∀ db : Db, Control.authAuthority db now i A version pending = do
      let a ← found ((db.authSessions.get i).filter (·.tenant = A))
        (authFailure 401 "refresh_revoked")
      reject (a.version ≠ version) (authFailure 401 "refresh_revoked")
      checkAuthSession db now a pending
      return a := by
    intro db
    unfold Control.authAuthority
    cases db.authSessions.get i with
    | none => rfl
    | some a =>
      by_cases ha : a.tenant = A
      · rw [filter_some, if_pos (decide_eq_true ha)]
        simp only [found_some, ok_bind, ha, ne_eq, not_true_eq_false, false_or]
      · rw [filter_some, if_neg (by simpa using ha), found_none, found_some, ok_bind,
          error_bind, reject_pos (Or.inl ha), error_bind]
  rw [key, key, hget]
  cases hg : (db₂.authSessions.get i).filter (·.tenant = A) with
  | none => rfl
  | some a =>
    have ha : a.tenant = A := of_decide_eq_true (filter_eq_some_iff.mp hg).2
    simp only [found_some, ok_bind, checkAuthSession, ha, h.tenant]

lemma Agrees.checkLogin (id : Option Uuid) (version : ℕ) (pending : Bool) :
    checkLogin db₁ now id A version pending = checkLogin db₂ now id A version pending := by
  cases id with
  | none => rfl
  | some i => simp only [Control.checkLogin, h.authAuthority]

end Agrees

/-! ### Bearers -/

section Bearers

variable {hash : Hash} {kinds : List Kind} {p : Principal}

lemma authWithPending_eq_ok {pending : Bool} :
    authWithPending db now (some hash) pending kinds = .ok p ↔
    ∃ t n, db.tokens.get hash = some t ∧ now < t.expiresAt ∧
      checkLogin db now t.authSession t.tenant t.version true = .ok () ∧ t.kind ∈ kinds ∧
      db.tenants.get t.tenant = some n ∧ n.version = t.version ∧
      (n.status = .active ∨ pending = true ∧ n.status = .pending) ∧ p = t.principal := by
  simp only [authWithPending, found_some, ok_bind, bind_eq_ok, found_eq_ok, reject_eq_ok,
    exists_unit, pure_eq_ok]
  constructor
  · rintro ⟨t, ht, h1, h2, h3, n, hn, h4, h5, rfl⟩
    push Not at h4
    refine ⟨t, n, ht, by omega, h2, not_not.mp h3, hn, h4, ?_, rfl⟩
    by_contra hne
    push Not at hne
    exact h5 ⟨hne.1, fun hp => hne.2 hp.1 hp.2⟩
  · rintro ⟨t, n, ht, h1, h2, h3, hn, h4, h5, rfl⟩
    refine ⟨t, ht, by omega, h2, not_not.mpr h3, n, hn, by simp [h4], ?_, rfl⟩
    rintro ⟨hne, hnp⟩
    exact h5.elim hne hnp

/-- A bearer passes `auth` only for an active tenant. -/
lemma auth_eq_ok : auth db now (some hash) kinds = .ok p ↔
    ∃ t n, db.tokens.get hash = some t ∧ now < t.expiresAt ∧
      checkLogin db now t.authSession t.tenant t.version true = .ok () ∧ t.kind ∈ kinds ∧
      db.tenants.get t.tenant = some n ∧ n.version = t.version ∧ n.status = .active ∧
      p = t.principal := by
  rw [auth, authWithPending_eq_ok]
  simp

lemma auth_of_auth (h : auth db now (some hash) kinds = .ok p) (kinds' : List Kind) :
    auth db now (some hash) kinds' =
      if p.kind ∈ kinds' then .ok p else .error (fail 403 "bearer scope denied") := by
  obtain ⟨t, n, ht, h1, h2, h3, hn, h4, h5, rfl⟩ := auth_eq_ok.mp h
  split_ifs with hk
  · exact auth_eq_ok.mpr ⟨t, n, ht, h1, h2, hk, hn, h4, h5, rfl⟩
  · have hk : t.kind ∉ kinds' := hk
    rw [auth, authWithPending, found_some, ok_bind, ht, found_some, ok_bind,
      reject_neg (by omega), ok_bind, h2, ok_bind, reject_pos hk, error_bind]

lemma txPrincipal_of_auth (h : auth db now (some hash) kinds = .ok p) :
    txPrincipal db now hash p = .ok () := by
  obtain ⟨t, n, ht, h1, h2, -, hn, h4, h5, rfl⟩ := auth_eq_ok.mp h
  have hlog : checkLogin db now t.authSession t.tenant t.version false = .ok () := by
    refine checkLogin_eq_ok.mpr fun i hi => ?_
    obtain ⟨a, ha⟩ := checkLogin_eq_ok.mp h2 i hi
    obtain ⟨hget, h6, h7, h8⟩ := authAuthority_eq_ok.mp ha
    obtain ⟨h9, h10, h11, m, hm, h12, -⟩ := checkAuthSession_eq_ok.mp h8
    rw [h6, hn] at hm
    cases hm
    exact ⟨a, authAuthority_eq_ok.mpr ⟨hget, h6, h7, checkAuthSession_eq_ok.mpr
      ⟨h9, h10, h11, n, by rw [h6, hn], h12, .inl h5⟩⟩⟩
  refine txPrincipal_eq_ok.mpr ⟨hlog, fun _ => ⟨t, ht, rfl, h1, txActive_eq_ok.mpr ⟨n, hn, h4, h5⟩⟩⟩

/-- A bearer of the tenant passes in both databases. -/
lemma Agrees.auth {A : Uuid} {db₁ db₂ : Db} (h : Agrees A db₁ db₂)
    (hp : auth db₁ now (some hash) kinds = .ok p) (hA : p.tenant = A) :
    auth db₂ now (some hash) kinds = .ok p := by
  obtain ⟨t, n, ht, h1, h2, h3, hn, h4, h5, rfl⟩ := auth_eq_ok.mp hp
  have hA : t.tenant = A := hA
  obtain ⟨htm, hth⟩ := get_eq_some.mp ht
  refine auth_eq_ok.mpr ⟨t, n, get_eq_some.mpr ⟨(h.tokens t hA).mp htm, hth⟩, h1, ?_, h3, ?_,
    h4, h5, rfl⟩
  · rw [hA, ← h.checkLogin, ← hA, h2]
  · rw [hA, ← h.tenant, ← hA, hn]

end Bearers

/-! ### How a session of another tenant stands -/

/-- A login session is absent or live, gone or revoked, or expired. -/
inductive Login where
  | live | revoked | expired
  deriving DecidableEq

def Session.login (db : Db) (now : ℕ) (v : Session) : Login :=
  match v.authSession.map db.authSessions.get with
  | none => .live
  | some none => .revoked
  | some (some a) =>
    if a.tenant ≠ v.tenant ∨ a.revoked ≠ none then .revoked
    else if a.refreshExpiry ≤ now ∨ (a.absoluteExpiry ≠ 0 ∧ a.absoluteExpiry ≤ now) then .expired
    else if (db.tenants.get a.tenant).any (fun n => n.version = a.version && n.status = .active)
      then .live else .revoked

/-- How a session stands: by its login session and by its lineage. -/
inductive Standing where
  | good
  | loginRevoked
  | loginExpired
  | unknown (generation : ℕ)
  | closed (generation : ℕ)
  | outdated (generation : ℕ)
  | unauthorized (generation : ℕ)
  | replaced (generation : ℕ)
  deriving DecidableEq

def Session.lineage (db : Db) (now : ℕ) (v : Session) : Standing :=
  match v.connection.map db.connections.get with
  | none => .good
  | some none => .unknown v.generation
  | some (some c) =>
    if c.revoked ≠ none then .closed c.generation
    else if !(db.tenants.get c.tenant).any (fun n => n.version = c.version && n.status = .active)
      then .outdated c.generation
    else if !callerLive db now c || !deviceLive db now c then .unauthorized c.generation
    else if c.session ≠ v.id ∨ c.generation ≠ v.generation then .replaced c.generation
    else .good

def Session.standing (db : Db) (now : ℕ) (v : Session) : Standing :=
  match v.login db now with
  | .live => v.lineage db now
  | .revoked => .loginRevoked
  | .expired => .loginExpired

def Standing.failure : Standing → Failure
  | good => fail 403 "session scope denied"
  | loginRevoked => authFailure 401 "refresh_revoked"
  | loginExpired => authFailure 401 "refresh_expired"
  | unknown g => connectionFailure 403 "connection_unknown" "connection lineage is unavailable" g
  | closed g => connectionFailure 403 "connection_revoked" "connection was explicitly revoked" g
  | outdated g => connectionFailure 403 "credential_revoked"
      "connection identity is no longer authorized" g
  | unauthorized g => connectionFailure 403 "credential_revoked"
      "connection credential was expired or revoked" g
  | replaced g => connectionFailure 409 "session_replaced" "session was replaced" g

def Standing.check : Standing → Except Failure Unit
  | good => .ok ()
  | s => .error s.failure

/-- **The answer gives the standing away.** -/
lemma Standing.answer_injective : Function.Injective fun s : Standing => s.failure.answer := by
  intro s s' h
  cases s <;> cases s' <;>
    simp_all [failure, fail, authFailure, connectionFailure, Failure.answer]

lemma checkSessionAuth_login (v : Session) : checkSessionAuth db now v =
    match v.login db now with
    | .live => .ok ()
    | .revoked => .error (authFailure 401 "refresh_revoked")
    | .expired => .error (authFailure 401 "refresh_expired") := by
  unfold checkSessionAuth Session.login
  cases v.authSession with
  | none => rfl
  | some i =>
    cases ha : db.authSessions.get i with
    | none => simp [ha, found]
    | some a =>
      simp only [map_some, ha, found_some, ok_bind, checkAuthSession, reject_bind]
      by_cases h1 : a.tenant ≠ v.tenant
      · simp [h1]
      by_cases h2 : a.revoked ≠ none
      · simp [h2]
      by_cases h3 : a.refreshExpiry ≤ now ∨ (a.absoluteExpiry ≠ 0 ∧ a.absoluteExpiry ≤ now)
      · rw [if_neg h1, if_neg h2, if_pos h3, if_neg (not_or.mpr ⟨h1, h2⟩), if_pos h3]
      rw [if_neg h1, if_neg h2, if_neg h3, if_neg (not_or.mpr ⟨h1, h2⟩), if_neg h3]
      cases db.tenants.get a.tenant with
      | none => rfl
      | some n =>
        rw [found_some, ok_bind, any_some]
        by_cases h4 : n.version = a.version ∧ n.status = .active
        · simp [h4, reject]
        have h5 : n.version ≠ a.version ∨ (n.status ≠ .active ∧
            ¬((false = true) ∧ n.status = .pending)) := by
          simp only [Bool.false_eq_true, false_and, not_false_eq_true, and_true]
          tauto
        rw [reject_pos h5, if_neg (by simpa using h4)]

lemma checkConnection_eq {c : ConnectionRecord} (hlost : credentialLost db now c = false) :
    checkConnection db now c =
      if c.revoked ≠ none then .error (Standing.closed c.generation).failure
      else if !(db.tenants.get c.tenant).any (fun n => n.version = c.version && n.status = .active)
        then .error (Standing.outdated c.generation).failure
      else if !callerLive db now c || !deviceLive db now c
        then .error (Standing.unauthorized c.generation).failure
      else .ok () := by
  rw [checkConnection, reject_bind]
  by_cases h1 : c.revoked ≠ none
  · rw [if_pos h1, if_pos h1]
    rfl
  rw [if_neg h1, if_neg h1]
  cases hn : db.tenants.get c.tenant with
  | none => rfl
  | some n =>
    by_cases h2 : n.version = c.version <;> by_cases h3 : n.status = .active <;>
      cases h4 : callerLive db now c <;> cases h5 : deviceLive db now c <;>
      simp [found_some, reject, h2, h3, hlost, Standing.failure]

lemma managedSession_lineage {v : Session}
    (hlost : ∀ c ∈ db.connections, credentialLost db now c = false) :
    managedSession db now v = (v.lineage db now).check := by
  unfold managedSession Session.lineage
  cases v.connection with
  | none => rfl
  | some i =>
    cases hc : db.connections.get i with
    | none => simp [hc, found, Standing.check, Standing.failure]
    | some c =>
      simp only [map_some, hc, found_some, ok_bind,
        checkConnection_eq (hlost c (mem_of_get hc))]
      split_ifs with h1 h2 h3 h4
      · rfl
      · rfl
      · rfl
      · rw [ok_bind, reject_pos h4]
        rfl
      · rw [ok_bind, reject_neg h4]
        rfl

lemma sessionPrincipal_foreign {hash : Hash} {p : Principal} {id : Uuid} {row : SessionRow}
    (hp : auth db now (some hash) [.session, .device] = .ok p)
    (hrow : db.sessions.get id = some row) (hne : row.tenant ≠ p.tenant)
    (hlost : ∀ c ∈ db.connections, credentialLost db now c = false) :
    sessionPrincipal db now (some hash) id =
      .error ((db.placed row).standing db now).failure := by
  rw [sessionPrincipal, hp, ok_bind, session_eq_ok.mpr ⟨row, hrow, rfl⟩, ok_bind,
    checkSessionAuth_login, managedSession_lineage hlost, Session.standing]
  cases (db.placed row).login db now with
  | revoked => rfl
  | expired => rfl
  | live =>
    rw [ok_bind]
    cases (db.placed row).lineage db now with
    | good =>
      have hne : (db.placed row).tenant ≠ p.tenant := hne
      rw [reject_pos (Or.inl hne), error_bind]
      rfl
    | _ => rfl

/-- `none` when the kind of bearer is refused. -/
def Session.deletion (db : Db) (now : ℕ) (p : Principal) (v : Session) : Option Standing :=
  if v.connection ≠ none then some .good
  else if p.kind = .account then none
  else some (v.standing db now)

def deletionFailure : Option Standing → Failure
  | none => fail 403 "bearer scope denied"
  | some s => s.failure

lemma deletionFailure_injective :
    Function.Injective fun s : Option Standing => (deletionFailure s).answer := by
  intro s s' h
  cases s with
  | none =>
    cases s' with
    | none => rfl
    | some s' =>
      cases s' <;> simp [deletionFailure, Standing.failure, fail, authFailure,
        connectionFailure, Failure.answer] at h
  | some s =>
    cases s' with
    | none =>
      cases s <;> simp [deletionFailure, Standing.failure, fail, authFailure,
        connectionFailure, Failure.answer] at h
    | some s' => exact congrArg some (Standing.answer_injective h)

lemma deleteSessionRequest_foreign {hash : Hash} {p : Principal} {id : Uuid} {row : SessionRow}
    (hs : Sound cfg now db) (hr : Recorded db)
    (hp : auth db now (some hash) [.account, .device, .session] = .ok p)
    (hrow : db.sessions.get id = some row) (hne : row.tenant ≠ p.tenant)
    (hlost : ∀ c ∈ db.connections, credentialLost db now c = false) :
    deleteSessionRequest db now hash id =
      .error (deletionFailure ((db.placed row).deletion db now p)) := by
  obtain ⟨hrm, rfl⟩ := get_eq_some.mp hrow
  unfold deleteSessionRequest
  cases he : db.connectionSessions.get row.id with
  | some e =>
    -- the lineage is of the tenant of the session
    obtain ⟨hem, heid⟩ := get_eq_some.mp he
    obtain ⟨c, hc, hcid⟩ := hr.owner e hem
    have hses : row.id = c.session :=
      heid.symm.trans (hr.sessions c hc e hem hcid.symm row hrm heid.symm)
    obtain ⟨hten, -⟩ := hs.scope c hc row hrm hses
    have hview : (db.placed row).deletion db now p = some .good := by
      simp [Session.deletion, Db.placed, he]
    rw [hview]
    dsimp only
    rw [hp, ok_bind, deleteSessionLineage, txPrincipal_of_auth hp, ok_bind,
      get_eq_some.mpr ⟨hc, hcid⟩, found_some, ok_bind,
      reject_pos (Or.inl (by rw [← hten]; exact hne)), error_bind]
    rfl
  | none =>
    have hnone : (db.placed row).connection = none := by simp [Db.placed, he]
    have hauth := auth_of_auth hp [.session, .device]
    by_cases hk : p.kind = .account
    · rw [if_neg (by simp [hk])] at hauth
      rw [sessionPrincipal, hauth, error_bind, error_bind, Session.deletion,
        if_neg (by simp [hnone]), if_pos hk]
      rfl
    have hk' : p.kind ∈ [Kind.session, .device] := by
      cases h : p.kind <;> simp_all
    rw [if_pos hk'] at hauth
    rw [sessionPrincipal_foreign hauth hrow hne hlost, error_bind, Session.deletion,
      if_neg (by simp [hnone]), if_neg hk]
    rfl

/-! ### Requests for a lineage -/

section Lineages

variable {A : Uuid} {db₁ db₂ : Db}

lemma Agrees.connectionCredential (h : Agrees A db₁ db₂) (hash : Hash) (kind : Kind)
    (broker : Option Uuid) (version : ℕ) :
    connectionCredential db₁ now hash kind A broker version =
      connectionCredential db₂ now hash kind A broker version := by
  rw [Bool.eq_iff_iff, connectionCredential_eq_true, connectionCredential_eq_true]
  simp only [get_eq_some, h.checkLogin]
  constructor
  · rintro ⟨t, ⟨ht, hk⟩, h1, h2, h3⟩
    exact ⟨t, ⟨(h.tokens t h2).mp ht, hk⟩, h1, h2, h3⟩
  · rintro ⟨t, ⟨ht, hk⟩, h1, h2, h3⟩
    exact ⟨t, ⟨(h.tokens t h2).mpr ht, hk⟩, h1, h2, h3⟩

lemma Agrees.checkConnection (h : Agrees A db₁ db₂) {c : ConnectionRecord} (hc : c.tenant = A)
    (hl₁ : credentialLost db₁ now c = false) (hl₂ : credentialLost db₂ now c = false) :
    checkConnection db₁ now c = checkConnection db₂ now c := by
  have hcall : callerLive db₁ now c = callerLive db₂ now c := by
    unfold callerLive
    cases c.authSession with
    | none => simp only [hc, h.connectionCredential]
    | some i => simp only [hc, h.authAuthority]
  have hdev : deviceLive db₁ now c = deviceLive db₂ now c := by
    simp only [deviceLive, hc, h.connectionCredential]
  rw [checkConnection_eq hl₁, checkConnection_eq hl₂, hc, h.tenant, hcall, hdev]

def ConnectionRequest.Complete (r : ConnectionRequest) : Prop :=
  r.broker ≠ none ∧ r.request ≠ none ∧ r.token ≠ none ∧ r.expectedGeneration ≠ none ∧
    r.relay ≠ none

variable {p : Principal} {sid : Uuid}

lemma connectionSession_incomplete {hash : Hash} {id : Option Uuid}
    {r : ConnectionRequest} (h : id = none ∨ ¬r.Complete) :
    connectionSession cfg db now hash p sid id r =
      .error (fail 400 "invalid connection request") := by
  obtain ⟨broker, relay, expected, request, token⟩ := r
  cases id <;> cases broker <;> cases request <;> cases token <;> cases expected <;>
    cases relay <;> first | rfl | simp [ConnectionRequest.Complete] at h

lemma connectionSession_foreign {hash : Hash} {i : Uuid}
    {r : ConnectionRequest} {c : ConnectionRecord} (hr : r.Complete)
    (hp : txPrincipal db now hash p = .ok ()) (hc : db.connections.get i = some c)
    (hne : c.tenant ≠ p.tenant) :
    connectionSession cfg db now hash p sid (some i) r =
      .error (connectionFailure 403 "connection_revoked" "connection scope or credential changed"
        c.generation) := by
  obtain ⟨_ | broker, _ | relay, _ | expected, _ | request, _ | token⟩ := r
  all_goals try simp [ConnectionRequest.Complete] at hr
  simp only [connectionSession, found_some, ok_bind, hp, hc, admitLineage]
  rw [reject_pos (Or.inl hne), error_bind, error_bind]

lemma connectionSession_no_broker {hash : Hash} {i broker request : Uuid}
    {token : Secret} {expected : ℕ} {relay : RelayMode} (hp : txPrincipal db now hash p = .ok ())
    (hb : (db.brokers.get broker).filter (·.tenant = p.tenant) = none) :
    connectionSession cfg db now hash p sid (some i)
        ⟨some broker, some relay, some expected, some request, some token⟩ =
      admitLineage db now hash p broker relay expected (db.connections.get i) >>= fun _ =>
        .error (connectionFailure 404 "broker_missing" "broker not found" 0) := by
  simp only [connectionSession, found_some, ok_bind, hp, hb, found_none, error_bind]

end Lineages

/-! ### Two answers -/

/-- The named row looks the same in both databases. -/
def Request.SameView (A : Uuid) (db₁ db₂ : Db) (now : ℕ) (p : Principal) : Request → Prop
  | .session id => ∀ v₁ v₂, db₁.session id = .ok v₁ → db₂.session id = .ok v₂ →
      v₁.standing db₁ now = v₂.standing db₂ now
  | .deleteSession id => ∀ v₁ v₂, db₁.session id = .ok v₁ → db₂.session id = .ok v₂ →
      v₁.deletion db₁ now p = v₂.deletion db₂ now p
  | .connectionSession _ id r => r.Complete → ∀ i, id = some i → ∀ c₁ c₂,
      db₁.connections.get i = some c₁ → db₂.connections.get i = some c₂ → c₁.tenant ≠ A →
      c₁.generation = c₂.generation
  | .deleteConnection _ => True

section Answers

variable {A : Uuid} {s₁ s₂ : Server} {hash : Hash} {p : Principal}

lemma Server.Reachable.not_lost {s : Server} (h : s.Reachable cfg) (hn : s.clock ≤ now) :
    ∀ c ∈ s.db.connections, credentialLost s.db now c = false :=
  fun _ hc => h.inv.sound.not_credentialLost hn hc

variable {db₁ db₂ : Db}

lemma Agrees.session (h : Agrees A db₁ db₂) {id : Uuid} {v : SessionRow}
    (hv : db₁.sessions.get id = some v) (hne : v.tenant ≠ A) :
    ∃ w, db₂.sessions.get id = some w ∧ w.tenant ≠ A := by
  obtain ⟨w, hw, hf⟩ := get_counterpart (p := fun v : SessionRow => v.tenant = A)
    (fun v hv => h.sessions v (of_decide_eq_true hv)) h.sessionIds hv (decide_eq_false hne)
  exact ⟨w, hw, of_decide_eq_false hf⟩

lemma Agrees.connection (h : Agrees A db₁ db₂) {id : Uuid} {c : ConnectionRecord}
    (hc : db₁.connections.get id = some c) (hne : c.tenant ≠ A) :
    ∃ e, db₂.connections.get id = some e ∧ e.tenant ≠ A := by
  obtain ⟨e, he, hf⟩ := get_counterpart (p := fun c : ConnectionRecord => c.tenant = A)
    (fun c hc => h.connections c (of_decide_eq_true hc)) h.connectionIds hc (decide_eq_false hne)
  exact ⟨e, he, of_decide_eq_false hf⟩

lemma foreign_broker_answer (h : Agrees A db₁ db₂) {sid i broker request : Uuid}
    {token : Secret} {expected : ℕ} {relay : RelayMode} (hA : p.tenant = A)
    (hp₁ : txPrincipal db₁ now hash p = .ok ()) (hp₂ : txPrincipal db₂ now hash p = .ok ())
    (hl₁ : ∀ c ∈ db₁.connections, credentialLost db₁ now c = false)
    (hl₂ : ∀ c ∈ db₂.connections, credentialLost db₂ now c = false) {b : Broker}
    (hb : db₁.brokers.get broker = some b) (hbt : b.tenant ≠ A)
    (hown : ∀ c, db₁.connections.get i = some c → c.tenant = A) :
    ∃ e, connectionSession cfg db₁ now hash p sid (some i)
        ⟨some broker, some relay, some expected, some request, some token⟩ = .error e ∧
      connectionSession cfg db₂ now hash p sid (some i)
        ⟨some broker, some relay, some expected, some request, some token⟩ = .error e := by
  have hb₁ : (db₁.brokers.get broker).filter (·.tenant = p.tenant) = none := by
    rw [hb, hA, filter_some, if_neg (by simpa using hbt)]
  have hb₂ : (db₂.brokers.get broker).filter (·.tenant = p.tenant) = none := by
    rw [hA, ← h.broker, ← hA, hb₁]
  have hadm : admitLineage db₂ now hash p broker relay expected (db₂.connections.get i) =
      admitLineage db₁ now hash p broker relay expected (db₁.connections.get i) := by
    cases hc : db₁.connections.get i with
    | none =>
      have hids := h.connectionIds i
      rw [hc, isSome_none] at hids
      rw [isSome_eq_false_iff.mp hids.symm |> isNone_iff_eq_none.mp]
      rfl
    | some c =>
      obtain ⟨hcm, hcid⟩ := get_eq_some.mp hc
      have hct := hown c hc
      have hcm₂ := (h.connections c hct).mp hcm
      rw [get_eq_some.mpr ⟨hcm₂, hcid⟩]
      simp only [admitLineage, h.checkConnection hct (hl₁ c hcm) (hl₂ c hcm₂)]
  rw [connectionSession_no_broker hp₁ hb₁, connectionSession_no_broker hp₂ hb₂, hadm]
  cases admitLineage db₁ now hash p broker relay expected (db₁.connections.get i) with
  | ok u => exact ⟨_, rfl, rfl⟩
  | error e => exact ⟨e, rfl, rfl⟩

lemma connectionSession_answer_iff (h₁ : s₁.Reachable cfg) (h₂ : s₂.Reachable cfg)
    (h : Agrees A s₁.db s₂.db) (hn₁ : s₁.clock ≤ now) (hn₂ : s₂.clock ≤ now) {sid : Uuid}
    {id : Option Uuid} {r : ConnectionRequest}
    (hp : auth s₁.db now (some hash) [.account] = .ok p) (hA : p.tenant = A)
    (hf : (Request.connectionSession sid id r).Foreign A s₁.db) :
    (Request.connectionSession sid id r).refusal cfg s₁.db now hash ≠ none ∧
    ((Request.connectionSession sid id r).refusal cfg s₁.db now hash =
        (Request.connectionSession sid id r).refusal cfg s₂.db now hash ↔
      (Request.connectionSession sid id r).SameView A s₁.db s₂.db now p) := by
  have hp₂ := h.auth hp hA
  have ht₁ := txPrincipal_of_auth hp
  have ht₂ := txPrincipal_of_auth hp₂
  simp only [Request.refusal, hp, hp₂, ok_bind, Request.SameView]
  by_cases hform : id = none ∨ ¬r.Complete
  · rw [connectionSession_incomplete hform, connectionSession_incomplete hform]
    refine ⟨(by rintro ⟨⟩), iff_of_true rfl fun hr i hi => ?_⟩
    rcases hform with rfl | hno
    · cases hi
    · exact absurd hr hno
  push Not at hform
  obtain ⟨i, rfl⟩ := ne_none_iff_exists'.mp hform.1
  by_cases hforeign : ∃ c, s₁.db.connections.get i = some c ∧ c.tenant ≠ A
  · -- the lineage is another tenant's
    obtain ⟨c, hc, hne⟩ := hforeign
    obtain ⟨e, he, hne'⟩ := h.connection hc hne
    rw [connectionSession_foreign hform.2 ht₁ hc (hA ▸ hne),
      connectionSession_foreign hform.2 ht₂ he (hA ▸ hne')]
    refine ⟨(by rintro ⟨⟩), ?_⟩
    constructor
    · rintro heq - j hj c₁ c₂ hc₁ hc₂ -
      cases hj
      obtain rfl := Option.some.inj (hc.symm.trans hc₁)
      obtain rfl := Option.some.inj (he.symm.trans hc₂)
      simpa [refused, connectionFailure, Failure.answer] using heq
    · intro hview
      rw [hview hform.2 i rfl c e hc he hne]
  -- only the broker is
  push Not at hforeign
  obtain ⟨_ | broker, _ | relay, _ | expected, _ | request, _ | token⟩ := r
  all_goals try simp [ConnectionRequest.Complete] at hform
  rcases hf with ⟨j, c, hj, hc, hne⟩ | ⟨j, b, hj, hb, hbt⟩
  · cases hj
    exact absurd (hforeign c hc) hne
  cases hj
  obtain ⟨e, he₁, he₂⟩ : ∃ e, connectionSession cfg s₁.db now hash p sid (some i)
        ⟨some broker, some relay, some expected, some request, some token⟩ = .error e ∧
      connectionSession cfg s₂.db now hash p sid (some i)
        ⟨some broker, some relay, some expected, some request, some token⟩ = .error e :=
    foreign_broker_answer h hA ht₁ ht₂ (h₁.not_lost hn₁) (h₂.not_lost hn₂) hb hbt hforeign
  rw [he₁, he₂]
  refine ⟨(by rintro ⟨⟩), iff_of_true rfl fun _ k hk c₁ c₂ hc₁ _ hne => ?_⟩
  cases hk
  exact absurd (hforeign c₁ hc₁) hne

/-- **What a request learns about another tenant.** Two states that agree on the rows of tenant
`A` and on names answer a request of `A` for another tenant's row alike exactly when that row
stands the same in both. -/
theorem foreign_answer_iff (h₁ : s₁.Reachable cfg) (h₂ : s₂.Reachable cfg)
    (h : Agrees A s₁.db s₂.db) (hn₁ : s₁.clock ≤ now) (hn₂ : s₂.clock ≤ now) {req : Request}
    (hp : auth s₁.db now (some hash) req.kinds = .ok p) (hA : p.tenant = A)
    (hf : req.Foreign A s₁.db) :
    req.refusal cfg s₁.db now hash ≠ none ∧
    (req.refusal cfg s₁.db now hash = req.refusal cfg s₂.db now hash ↔
      req.SameView A s₁.db s₂.db now p) := by
  have hp₂ := h.auth hp hA
  cases req with
  | session id =>
    obtain ⟨v, hv, hne⟩ := hf
    obtain ⟨w, hw, hne'⟩ := h.session hv hne
    simp only [Request.refusal, Request.SameView,
      sessionPrincipal_foreign hp hv (hA ▸ hne) (h₁.not_lost hn₁),
      sessionPrincipal_foreign hp₂ hw (hA ▸ hne') (h₂.not_lost hn₂)]
    refine ⟨(by rintro ⟨⟩), ?_⟩
    rw [refused, refused, Option.some.injEq]
    refine Standing.answer_injective.eq_iff.trans ⟨?_, fun hview => hview _ _
      (session_eq_ok.mpr ⟨v, hv, rfl⟩) (session_eq_ok.mpr ⟨w, hw, rfl⟩)⟩
    intro heq v₁ v₂ hv₁ hv₂
    rw [session_eq_ok.mpr ⟨v, hv, rfl⟩, Except.ok.injEq] at hv₁
    rw [session_eq_ok.mpr ⟨w, hw, rfl⟩, Except.ok.injEq] at hv₂
    rw [← hv₁, ← hv₂, heq]
  | deleteSession id =>
    obtain ⟨v, hv, hne⟩ := hf
    obtain ⟨w, hw, hne'⟩ := h.session hv hne
    simp only [Request.refusal, Request.SameView,
      deleteSessionRequest_foreign (h₁.inv.sound.tick hn₁) h₁.recorded hp hv (hA ▸ hne)
        (h₁.not_lost hn₁),
      deleteSessionRequest_foreign (h₂.inv.sound.tick hn₂) h₂.recorded hp₂ hw (hA ▸ hne')
        (h₂.not_lost hn₂)]
    refine ⟨(by rintro ⟨⟩), ?_⟩
    rw [refused, refused, Option.some.injEq]
    refine deletionFailure_injective.eq_iff.trans ⟨?_, fun hview => hview _ _
      (session_eq_ok.mpr ⟨v, hv, rfl⟩) (session_eq_ok.mpr ⟨w, hw, rfl⟩)⟩
    intro heq v₁ v₂ hv₁ hv₂
    rw [session_eq_ok.mpr ⟨v, hv, rfl⟩, Except.ok.injEq] at hv₁
    rw [session_eq_ok.mpr ⟨w, hw, rfl⟩, Except.ok.injEq] at hv₂
    rw [← hv₁, ← hv₂, heq]
  | connectionSession sid id r => exact connectionSession_answer_iff h₁ h₂ h hn₁ hn₂ hp hA hf
  | deleteConnection id =>
    obtain ⟨c, hc, hne⟩ := hf
    obtain ⟨e, he, hne'⟩ := h.connection hc hne
    have hp : auth s₁.db now (some hash) [.account, .device] = .ok p := hp
    have hp₂ : auth s₂.db now (some hash) [.account, .device] = .ok p := hp₂
    have hc₁ : deleteConnection s₁.db now hash p id = .error (fail 404 "connection not found") := by
      rw [deleteConnection, txPrincipal_of_auth hp, ok_bind, hc, found_some, ok_bind,
        reject_pos (Or.inl (hA ▸ hne)), error_bind]
    have hc₂ : deleteConnection s₂.db now hash p id = .error (fail 404 "connection not found") := by
      rw [deleteConnection, txPrincipal_of_auth hp₂, ok_bind, he, found_some, ok_bind,
        reject_pos (Or.inl (hA ▸ hne')), error_bind]
    simp only [Request.refusal, hp, hp₂, ok_bind, hc₁, hc₂, Request.SameView]
    exact ⟨(by rintro ⟨⟩), trivial⟩

end Answers

/-! ### A tenant sees whether another one refreshed its login -/

lemma Agrees.of_credentials {A : Uuid} {db₁ db₂ : Db}
    (ht : db₁.tokens.select (fun t => t.tenant = A) = db₂.tokens.select (fun t => t.tenant = A))
    (ha : db₁.authSessions.select (fun a => a.tenant = A) =
      db₂.authSessions.select (fun a => a.tenant = A))
    (hn : db₁.tenants = db₂.tenants) (hb : db₁.brokers = db₂.brokers)
    (hv : db₁.sessions = db₂.sessions) (hm : db₁.messages = db₂.messages)
    (hc : db₁.connections = db₂.connections)
    (he : db₁.connectionSessions = db₂.connectionSessions) : Agrees A db₁ db₂ where
  tenant := by rw [hn]
  tokens t hA := by
    have := congrArg (t ∈ ·) ht
    simpa [hA] using this
  brokers b _ := by rw [hb]
  sessions v _ := by rw [hv]
  messages _ _ _ m _ := by rw [hm]
  authSessions a hA := by
    have := congrArg (a ∈ ·) ha
    simpa [hA] using this
  connections c _ := by rw [hc]
  history _ _ _ e _ := by rw [he]
  sessionIds id := by rw [hv]
  connectionIds id := by rw [hc]

def otherLogin : Uuid := 0x00000000000040008000000000000022

def otherPrincipal : Principal := ⟨.account, 21, none, none, some otherLogin, 1⟩

def ownDevice : Principal := ⟨.device, 1, some 3, none, none, 1⟩

/-- Tenant 1 with a broker, tenant 21 with a broker and a session. -/
def tenantsActs : List Act :=
  [.call 1 (.register false .unrestricted true ⟨"one", "one@example.invalid", true, some "hash"⟩ 1
      ⟨2, 11, 12⟩),
   .call 2 (.registerBroker 11 ⟨.account, 1, none, none, none, 1⟩ "broker" 3 13),
   .call 3 (.register true .unrestricted true ⟨"two", "two@example.invalid", true, some "hash"⟩ 21
      ⟨otherLogin, 31, 32⟩),
   .call 4 (.registerBroker 31 otherPrincipal "broker" 23 33),
   .call 5 (.createSession 31 otherPrincipal ⟨23, 21, "broker", 94⟩ .auto 24 34)]

def refreshActs : List Act :=
  [.call 100 (.refresh (.full otherLogin 0x00000000000040008000000000000023 1 41 42 32))]

def tenantsServer : Server := run (Server.act sampleConfig) {} tenantsActs

def refreshedServer : Server := run (Server.act sampleConfig) tenantsServer refreshActs

lemma tenantsServer_reachable : tenantsServer.Reachable sampleConfig := by
  refine ⟨tenantsActs, ⟨⟨?_, ?_⟩, ⟨?_, ?_⟩, ⟨?_, ?_⟩, ⟨?_, ?_⟩, ⟨?_, ?_⟩, trivial⟩, rfl⟩ <;>
    decide +kernel

lemma refreshedServer_reachable : refreshedServer.Reachable sampleConfig := by
  refine tenantsServer_reachable.run ⟨⟨?_, ?_⟩, trivial⟩ <;> decide +kernel

lemma tenantsServer_agrees : Agrees 1 tenantsServer.db refreshedServer.db := by
  refine .of_credentials ?_ ?_ ?_ ?_ ?_ ?_ ?_ ?_ <;> decide +kernel

lemma tenantsServer_foreign : (Request.session 24).Foreign 1 tenantsServer.db :=
  ⟨⟨24, 21, 23, .auto, false, false, 605, some otherLogin⟩, by decide +kernel, by decide +kernel⟩

/-- While the login of tenant 21 is live, its refresh cannot be seen. -/
theorem foreign_answer_iff_early :
    (Request.session 24).SameView 1 tenantsServer.db refreshedServer.db 200 ownDevice := by
  have hp : auth tenantsServer.db 200 (some 13) (Request.session 24).kinds = .ok ownDevice := by
    decide +kernel
  have heq : (Request.session 24).refusal sampleConfig tenantsServer.db 200 13 =
      (Request.session 24).refusal sampleConfig refreshedServer.db 200 13 := by decide +kernel
  exact (foreign_answer_iff tenantsServer_reachable refreshedServer_reachable tenantsServer_agrees
    (by decide +kernel) (by decide +kernel) hp rfl tenantsServer_foreign).2.mp heq

/-- Once its first deadline has passed, tenant 1 is told whether tenant 21 has refreshed its
login. -/
theorem foreign_login_visible :
    tenantsServer.Reachable sampleConfig ∧ refreshedServer.Reachable sampleConfig ∧
    Agrees 1 tenantsServer.db refreshedServer.db ∧
    auth tenantsServer.db 5050 (some 13) [.session, .device] = .ok ownDevice ∧
    (Request.session 24).Foreign 1 tenantsServer.db ∧
    (Request.session 24).refusal sampleConfig tenantsServer.db 5050 13 =
      some ⟨401, "refresh expired", "refresh_expired", 0⟩ ∧
    (Request.session 24).refusal sampleConfig refreshedServer.db 5050 13 =
      some ⟨403, "session scope denied", "", 0⟩ := by
  refine ⟨tenantsServer_reachable, refreshedServer_reachable, tenantsServer_agrees, ?_,
    tenantsServer_foreign, ?_, ?_⟩ <;> decide +kernel

end OhecoBroker.Control
