/-
Bearers and login sessions (`control.go`, `auth_refresh.go`).  The clock and random values are
arguments.

* `checkAuthSession`, `authAuthority`, `checkLogin`: when a login session has authority;
* `auth`, `txPrincipal`: the check of a bearer when the request arrives, and again inside the
  transaction;
* `issueAuthSession`, `issueDevice`: new credentials and their deadlines;
* `refreshAuth`: a rotation of the credentials, or the kept receipt of the last one;
* `revokeAuthSession`: the end of a login session and of all that rests on it.
-/
import OhecoBroker.Control.Schema

namespace OhecoBroker.Control

open Lib

/-! ### Login sessions -/

/-- The version and variant digits of a random identifier. -/
def validAuthId (id : Uuid) : Bool :=
  id.extractLsb' 76 4 = 4#4 && id.extractLsb' 62 2 = 2#2

def checkAuthSession (db : Db) (now : ℕ) (a : AuthSession) (pending : Bool) :
    Except Failure Unit := do
  reject (a.revoked ≠ none) (authFailure 401 "refresh_revoked")
  reject (a.refreshExpiry ≤ now ∨ (a.absoluteExpiry ≠ 0 ∧ a.absoluteExpiry ≤ now))
    (authFailure 401 "refresh_expired")
  let t ← found (db.tenants.get a.tenant) (authFailure 401 "refresh_revoked")
  reject (t.version ≠ a.version ∨ (t.status ≠ .active ∧ ¬(pending ∧ t.status = .pending)))
    (authFailure 401 "refresh_revoked")

def authAuthority (db : Db) (now : ℕ) (id tenant : Uuid) (version : ℕ) (pending : Bool) :
    Except Failure AuthSession := do
  let a ← found (db.authSessions.get id) (authFailure 401 "refresh_revoked")
  reject (a.tenant ≠ tenant ∨ a.version ≠ version) (authFailure 401 "refresh_revoked")
  checkAuthSession db now a pending
  return a

/-- The authority of a row's login session. -/
def checkLogin (db : Db) (now : ℕ) (id : Option Uuid) (tenant : Uuid) (version : ℕ)
    (pending : Bool) : Except Failure Unit :=
  match id with
  | some id => discard <| authAuthority db now id tenant version pending
  | none => .ok ()

/-! ### Bearers -/

/-- What a bearer stands for. -/
structure Principal where
  kind : Kind
  tenant : Uuid
  broker : Option Uuid
  session : Option Uuid
  authSession : Option Uuid
  version : ℕ
  deriving DecidableEq

def Token.principal (t : Token) : Principal where
  kind := t.kind
  tenant := t.tenant
  broker := t.broker
  session := t.session
  authSession := t.authSession
  version := t.version

/-- The principal of a bearer; `hash` is `none` when there is none. -/
def authWithPending (db : Db) (now : ℕ) (hash : Option Hash) (allowPending : Bool)
    (kinds : List Kind) : Except Failure Principal := do
  let hash ← found hash (fail 401 "bearer required")
  let t ← found (db.tokens.get hash) (fail 401 "invalid bearer")
  reject (t.expiresAt ≤ now) <|
    if t.authSession ≠ none ∧ t.kind = .account then authFailure 401 "account_token_expired"
    else fail 401 "expired bearer"
  checkLogin db now t.authSession t.tenant t.version true
  reject (t.kind ∉ kinds) (fail 403 "bearer scope denied")
  let tenant ← found (db.tenants.get t.tenant) (fail 404 "tenant not found")
  reject (tenant.version ≠ t.version) (fail 401 "revoked bearer")
  reject (tenant.status ≠ .active ∧ ¬(allowPending ∧ tenant.status = .pending))
    (fail 403 "tenant is not active")
  return t.principal

def auth (db : Db) (now : ℕ) (hash : Option Hash) (kinds : List Kind) :
    Except Failure Principal :=
  authWithPending db now hash false kinds

def txActive (db : Db) (p : Principal) : Except Failure Unit := do
  let t ← found (db.tenants.get p.tenant) .internal
  reject (t.version ≠ p.version) (fail 401 "revoked bearer")
  reject (t.status ≠ .active) (fail 403 "tenant is not active")

def txAuthPrincipal (db : Db) (now : ℕ) (p : Principal) : Except Failure Unit :=
  checkLogin db now p.authSession p.tenant p.version false

/-- The bearer is looked at again inside the transaction. -/
def txPrincipal (db : Db) (now : ℕ) (hash : Hash) (p : Principal) : Except Failure Unit :=
  if p.authSession ≠ none ∧ p.kind = .account then txAuthPrincipal db now p
  else do
    let t ← found (db.tokens.get hash) (fail 401 "revoked bearer")
    reject (t.principal ≠ p ∨ t.expiresAt ≤ now) (fail 401 "expired or changed bearer")
    txAuthPrincipal db now p
    txActive db p

/-! ### Issuing credentials -/

/-- A token row for the secret `t`. -/
def issue (cfg : Config) (db : Db) (t : Secret) (kind : Kind) (tenant : Uuid)
    (broker session : Option Uuid) (version : ℕ) (expiry : ℕ) : Except Failure Db := do
  let tokens ← found (db.tokens.insert
    { hash := cfg.tokenHash t, kind, tenant, broker, session, version, expiresAt := expiry })
    .internal
  return db.withTokens tokens

structure AuthDraw where
  id : Uuid
  token : Secret
  refreshToken : Secret
  deriving DecidableEq

/-- 365 days. -/
def year : ℕ := 365 * 24 * 3600 * 1000

/-- The end a login session cannot pass, zero for none. -/
def Config.absoluteExpiry (cfg : Config) (now : ℕ) : ℕ :=
  if 0 < cfg.authAbsoluteTTL then now + cfg.authAbsoluteTTL else 0

/-- The idle deadline set at `now`. -/
def Config.refreshExpiry (cfg : Config) (now absolute : ℕ) : ℕ :=
  if absolute ≠ 0 then min (now + cfg.authRefreshTTL) absolute else now + cfg.authRefreshTTL

def issueAuthSession (cfg : Config) (db : Db) (now : ℕ) (draw : AuthDraw) (tenant : Uuid)
    (version : ℕ) : Except Failure (Db × AuthCredentials) := do
  let count := db.authSessions.count fun a => a.tenant = tenant && a.revoked = none &&
    now < a.refreshExpiry && (a.absoluteExpiry = 0 || now < a.absoluteExpiry)
  reject (16 ≤ count) (authFailure 429 "auth_session_limit")
  let absolute := cfg.absoluteExpiry now
  let refreshExpiry := cfg.refreshExpiry now absolute
  let tokenExpiry := min (now + cfg.accountTokenTTL) refreshExpiry
  let refreshHash := cfg.tokenHash draw.refreshToken
  -- `refresh_hash` is a unique column
  reject (db.authSessions.any fun a => a.refreshHash = refreshHash) .internal
  let authSessions ← found (db.authSessions.insert
    { id := draw.id, tenant, version, generation := 1, refreshHash,
      tokenHash := cfg.tokenHash draw.token, tokenExpiry, refreshExpiry,
      absoluteExpiry := absolute }) .internal
  let tokens ← found (db.tokens.insert
    { hash := cfg.tokenHash draw.token, kind := .account, tenant, version,
      expiresAt := tokenExpiry, authSession := some draw.id }) .internal
  return ((db.withAuthSessions authSessions).withTokens tokens,
    { token := draw.token, refreshToken := draw.refreshToken, authSession := draw.id,
      generation := 1, tokenExpiresAt := tokenExpiry, refreshExpiresAt := refreshExpiry })

/-- A device token lives a year, no longer than the login session. -/
def issueDevice (cfg : Config) (db : Db) (now : ℕ) (t : Secret) (p : Principal)
    (broker : Uuid) : Except Failure Db := do
  match p.authSession with
  | none => issue cfg db t .device p.tenant (some broker) none p.version (now + year)
  | some id => do
    let a ← authAuthority db now id p.tenant p.version false
    let db ← issue cfg db t .device p.tenant (some broker) none p.version
      (min (now + year) a.refreshExpiry)
    return db.updateTokens (fun r => r.hash = cfg.tokenHash t)
      fun r => { r with authSession := some id }

/-! ### Rotation -/

def maxGeneration : ℕ := 2147483647

/-- A field is `none` when it is missing or not of its form. -/
structure RefreshRequest where
  authSession : Option Uuid
  expectedGeneration : Option ℕ
  request : Option Uuid
  nextToken : Option Secret
  nextRefreshToken : Option Secret
  proof : Option Secret
  deriving DecidableEq

/-- The hash is in a column that refresh candidates must avoid. -/
def Db.uses (db : Db) (h : Hash) : Bool :=
  db.tokens.any (fun t => t.hash = h) ||
  db.authSessions.any fun a =>
    a.refreshHash = h || a.previousRefresh = some h || a.tokenHash = h

def AuthSession.receipt (a : AuthSession) : AuthReceipt where
  authSession := a.id
  generation := a.generation
  tokenExpiresAt := a.receiptTokenExpiry
  refreshExpiresAt := a.receiptRefreshExpiry

def AuthSession.rotated (cfg : Config) (now : ℕ) (request : Uuid) (hash next nextRefresh : Hash)
    (a : AuthSession) : AuthSession :=
  let refreshExpiry := cfg.refreshExpiry now a.absoluteExpiry
  let tokenExpiry := min (now + cfg.accountTokenTTL) refreshExpiry
  { a with
    generation := a.generation + 1, refreshHash := nextRefresh, tokenHash := next,
    tokenExpiry, refreshExpiry, previousRefresh := some hash, request := some request,
    expectedGeneration := a.generation, nextToken := some next,
    nextRefresh := some nextRefresh, receiptTokenExpiry := tokenExpiry,
    receiptRefreshExpiry := refreshExpiry }

lemma AuthSession.rotated_id (cfg : Config) (now : ℕ) (request : Uuid)
    (hash next nextRefresh : Hash) (a : AuthSession) :
    (a.rotated cfg now request hash next nextRefresh).id = a.id := rfl

def AuthSession.nextAccount (cfg : Config) (now : ℕ) (a : AuthSession) (next : Hash) : Token where
  hash := next
  kind := .account
  tenant := a.tenant
  version := a.version
  expiresAt := min (now + cfg.accountTokenTTL) (cfg.refreshExpiry now a.absoluteExpiry)
  authSession := some a.id

/-- A rotation keeps the current token, for the overlap. -/
def Db.overlapTokens (db : Db) (cfg : Config) (now : ℕ) (a : AuthSession) : Db :=
  (db.deleteTokens fun t =>
    t.kind = .account && t.authSession = some a.id && t.hash ≠ a.tokenHash).updateTokens
    (fun t => t.hash = a.tokenHash && t.kind = .account)
    (fun t => { t with expiresAt := min a.tokenExpiry (now + cfg.authAccessOverlap) })

/-- `next` and `nextRefresh` take the place of the credentials. -/
def rotateAuth (cfg : Config) (db : Db) (now : ℕ) (a : AuthSession) (request : Uuid)
    (hash next nextRefresh : Hash) : Handled := do
  let db := db.overlapTokens cfg now a
  let tokens ← found (db.tokens.insert (a.nextAccount cfg now next)) .internal
  -- `refresh_hash` is a unique column
  reject (db.authSessions.any fun b => b.id ≠ a.id && b.refreshHash = nextRefresh) .internal
  return { db := (db.withTokens tokens).updateAuthSessions (fun b => b.id = a.id)
                  (AuthSession.rotated cfg now request hash next nextRefresh)
                  (AuthSession.rotated_id cfg now request hash next nextRefresh)
           code := 200
           reply := .receipt (a.rotated cfg now request hash next nextRefresh).receipt }

def refreshAuth (cfg : Config) (db : Db) (now : ℕ) (r : RefreshRequest) : Handled := do
  let invalid := fail 400 "invalid refresh request"
  let id ← found r.authSession invalid
  let request ← found r.request invalid
  let expected ← found r.expectedGeneration invalid
  let nextToken ← found r.nextToken invalid
  let nextRefreshToken ← found r.nextRefreshToken invalid
  reject (¬validAuthId id ∨ ¬validAuthId request ∨ expected = 0 ∨
    nextToken = nextRefreshToken ∨ some nextToken = r.proof ∨ some nextRefreshToken = r.proof)
    invalid
  let proof ← found r.proof (authFailure 401 "refresh_invalid")
  let a ← found (db.authSessions.get id) (authFailure 401 "refresh_invalid")
  let hash := cfg.tokenHash proof
  let next := cfg.tokenHash nextToken
  let nextRefresh := cfg.tokenHash nextRefreshToken
  -- unknown proofs cannot inspect or affect an unrelated authority
  reject (hash ≠ a.refreshHash ∧ some hash ≠ a.previousRefresh)
    (authFailure 401 "refresh_invalid")
  checkAuthSession db now a true
  if some hash = a.previousRefresh then do
    reject (some request ≠ a.request ∨ expected ≠ a.expectedGeneration ∨
      some next ≠ a.nextToken ∨ some nextRefresh ≠ a.nextRefresh ∨
      a.generation ≠ a.expectedGeneration + 1) (authFailure 409 "auth_conflict")
    return { db, code := 200, reply := .receipt a.receipt }
  else do
    reject (expected ≠ a.generation ∨ some request = a.request) (authFailure 409 "auth_conflict")
    reject (maxGeneration ≤ a.generation) (authFailure 409 "auth_conflict")
    reject (db.uses next ∨ db.uses nextRefresh) (fail 400 "refresh candidates must be fresh")
    rotateAuth cfg db now a request hash next nextRefresh

/-! ### Revocation -/

/-- What the end of a login session takes with it. -/
structure AuthRevocation where
  tenant : Uuid
  sessions : List Uuid
  brokers : List Uuid

/-- The unrevoked connections in `p` get a reason. -/
def revokeConnections (db : Db) (p : ConnectionRecord → Bool) (reason : Reason) : Db :=
  db.updateConnections (fun c => c.revoked = none && p c) fun c => { c with revoked := some reason }

/-- The connections that rest on a login session, through caller or device. -/
def Db.restsOn (db : Db) (id : Uuid) (c : ConnectionRecord) : Bool :=
  c.authSession = some id ||
  db.tokens.any fun t => t.kind = .device && t.authSession = some id && t.hash = c.deviceHash

def Db.authBrokers (db : Db) (id : Uuid) : List Uuid :=
  (db.tokens.select fun t => t.kind = .device && t.authSession = some id).filterMap (·.broker)

/-- The sessions that end with login session `id`. -/
def Db.authSessionSessions (db : Db) (id : Uuid) : List Uuid :=
  (db.sessions.select fun v =>
    db.connections.any (fun c => db.restsOn id c && c.session = v.id) ||
    db.tokens.any (fun t => t.kind = .session && t.authSession = some id &&
      t.session = some v.id) ||
    decide (v.broker ∈ db.authBrokers id)).map (·.id)

def Db.dropSessions (db : Db) (ids : List Uuid) : Db :=
  (db.deleteTokens fun t => t.kind = .session && t.session.any (· ∈ ids)).deleteSessions
    fun v => v.id ∈ ids

def revokeAuthSession (db : Db) (a : AuthSession) : Db × AuthRevocation :=
  let marked := db.updateAuthSessions (fun b => b.id = a.id && b.revoked = none)
    fun b => { b with revoked := some .logout }
  let sessions := marked.authSessionSessions a.id
  let brokers := marked.authBrokers a.id
  let db := revokeConnections marked (marked.restsOn a.id) .accountLogout
  let db := db.dropSessions sessions
  let db := db.updateBrokers (fun b => b.id ∈ brokers) (fun b => { b with leaseExpiresAt := 0 })
    Broker.id_offline
  let db := db.deleteTokens fun t => t.authSession = some a.id
  (db, { tenant := a.tenant, sessions, brokers })

def applyAuthRevocation (v : AuthRevocation) : List Scope :=
  v.sessions.map Scope.session ++ v.brokers.map Scope.broker

/-- The login session a proof names: by its credentials or an account token. -/
def Db.authSessionOf (db : Db) (hash : Hash) : Option AuthSession :=
  db.authSessions.rows.find? fun a =>
    a.tokenHash = hash || a.refreshHash = hash || a.previousRefresh = some hash ||
    db.tokens.any fun t => t.hash = hash && t.kind = .account && t.authSession = some a.id

def logoutAuth (db : Db) (hash : Option Hash) : Handled := do
  let hash ← found hash (authFailure 401 "refresh_invalid")
  let a ← found (db.authSessionOf hash) (authFailure 401 "refresh_invalid")
  let (db, v) := revokeAuthSession db a
  return { db, code := 200, reply := .done, revoked := applyAuthRevocation v }

def deleteAuthSession (db : Db) (now : ℕ) (hash : Hash) (p : Principal) (id : Uuid) :
    Handled := do
  txPrincipal db now hash p
  let a ← found (db.authSessions.get id) (fail 404 "auth session not found")
  reject (a.tenant ≠ p.tenant) (fail 403 "auth session scope denied")
  let (db, v) := revokeAuthSession db a
  return { db, code := 200, reply := .done, revoked := applyAuthRevocation v }

end OhecoBroker.Control
