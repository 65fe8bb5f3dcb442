/-
Managed connections (`connections.go`): durable lineages whose transport sessions may expire or be
replaced.

* `checkConnection`, `managedSession`: when a lineage and its current session are good;
* `connectionSession`: the request for the next session of a lineage, a compare-and-swap on its
  generation; `openGeneration` writes the session, its token, the row and the history;
* `deleteConnection`, `deleteSessionLineage`: a lineage is closed;
* `pruneConnections`: what the maintenance retires and forgets.
-/
import Mathlib.Data.List.MinMax
import OhecoBroker.Control.Auth

namespace OhecoBroker.Control

open Lib

/-! ### Sessions as they are read -/

/-- A session row with its place in a lineage. -/
structure Session extends SessionRow where
  connection : Option Uuid
  generation : ℕ
  deriving DecidableEq

def Db.session (db : Db) (id : Uuid) : Except Failure Session := do
  let v ← found (db.sessions.get id) (fail 404 "session not found")
  let h := db.connectionSessions.get id
  return { toSessionRow := v, connection := h.map (·.connection),
           generation := (h.map (·.generation)).getD 0 }

def checkSessionAuth (db : Db) (now : ℕ) (v : Session) : Except Failure Unit :=
  match v.authSession with
  | none => .ok ()
  | some id => do
    let a ← found (db.authSessions.get id) (authFailure 401 "refresh_revoked")
    reject (a.tenant ≠ v.tenant) (authFailure 401 "refresh_revoked")
    checkAuthSession db now a false

/-! ### The checks on a lineage -/

/-- The credential of a lineage is live. -/
def connectionCredential (db : Db) (now : ℕ) (hash : Hash) (kind : Kind) (tenant : Uuid)
    (broker : Option Uuid) (version : ℕ) : Bool :=
  match db.tokens.get hash with
  | none => false
  | some t =>
    t.kind = kind && t.tenant = tenant && t.version = version && now < t.expiresAt &&
      t.broker = broker && (checkLogin db now t.authSession tenant version false).isOk

/-- The caller's login session, or its legacy token, is live. -/
def callerLive (db : Db) (now : ℕ) (c : ConnectionRecord) : Bool :=
  match c.authSession with
  | some id => (authAuthority db now id c.tenant c.version false).isOk
  | none => connectionCredential db now c.accountHash .account c.tenant none c.version

def deviceLive (db : Db) (now : ℕ) (c : ConnectionRecord) : Bool :=
  connectionCredential db now c.deviceHash .device c.tenant (some c.broker) c.version

/-- A live session has no live token of its own. -/
def credentialLost (db : Db) (now : ℕ) (c : ConnectionRecord) : Bool :=
  db.sessions.any fun v => v.id = c.session && now < v.expiresAt &&
    !db.tokens.any fun t => t.hash = c.tokenHash && t.kind = .session &&
      t.session = some v.id && t.version = c.version && now < t.expiresAt

/-- The answer when a live session lost its token. -/
def observedSessionRevocation (c : ConnectionRecord) : Failure :=
  .observed ⟨403, "session credential was revoked", "credential_revoked", c.generation⟩ c

def checkConnection (db : Db) (now : ℕ) (c : ConnectionRecord) : Except Failure Unit := do
  reject (c.revoked ≠ none) (connectionFailure 403 "connection_revoked"
    "connection was explicitly revoked" c.generation)
  let identity := connectionFailure 403 "credential_revoked"
    "connection identity is no longer authorized" c.generation
  let t ← found (db.tenants.get c.tenant) identity
  reject (t.version ≠ c.version ∨ t.status ≠ .active) identity
  reject (¬callerLive db now c ∨ ¬deviceLive db now c) (connectionFailure 403
    "credential_revoked" "connection credential was expired or revoked" c.generation)
  -- the expiry of both transport rows is recoverable, the loss of a live token is not
  reject (credentialLost db now c) (observedSessionRevocation c)

/-- `managedSession`, also in a transaction: the current session of a good lineage. -/
def managedSession (db : Db) (now : ℕ) (v : Session) : Except Failure Unit :=
  match v.connection with
  | none => .ok ()
  | some id => do
    let c ← found (db.connections.get id) (connectionFailure 403 "connection_unknown"
      "connection lineage is unavailable" v.generation)
    checkConnection db now c
    reject (c.session ≠ v.id ∨ c.generation ≠ v.generation)
      (connectionFailure 409 "session_replaced" "session was replaced" c.generation)

/-- The evidence marks only the transport that supplied it. -/
def persistObservedRevocation (db : Db) (c : ConnectionRecord) : Db :=
  db.updateConnections (fun r => r.id = c.id && r.generation = c.generation &&
      r.session = c.session && r.tokenHash = c.tokenHash && r.revoked = none)
    fun r => { r with revoked := some .sessionCredentialRevoked }

/-! ### The next session of a lineage -/

/-- A field is `none` when it is missing or not of its form. -/
structure ConnectionRequest where
  broker : Option Uuid
  relay : Option RelayMode
  expectedGeneration : Option ℕ
  request : Option Uuid
  token : Option Secret
  deriving DecidableEq

def ConnectionRecord.boundTo (c : ConnectionRecord) (p : Principal) (hash : Hash) : Bool :=
  match c.authSession with
  | none => c.accountHash = hash
  | some id => p.authSession = some id

/-- What is checked before the broker is looked at. -/
def admitLineage (db : Db) (now : ℕ) (hash : Hash) (p : Principal) (broker : Uuid)
    (relay : RelayMode) (expected : ℕ) : Option ConnectionRecord → Except Failure Unit
  | none => reject (expected ≠ 0) (connectionFailure 404 "connection_unknown"
      "connection lineage is unavailable" 0)
  | some c => do
    reject (c.tenant ≠ p.tenant ∨ c.broker ≠ broker ∨ c.relay ≠ relay ∨ ¬c.boundTo p hash)
      (connectionFailure 403 "connection_revoked" "connection scope or credential changed"
        c.generation)
    checkConnection db now c

/-- Forced relay needs the capability and a relay. -/
def checkForced (cfg : Config) (db : Db) (tenant : Uuid) (relay : RelayMode) (generation : ℕ) :
    Except Failure Unit :=
  if relay = .force then do
    let t ← found (db.tenants.get tenant) .internal
    reject (¬t.relayEnabled ∨ ¬cfg.turn) (connectionFailure 403 "connection_revoked"
      "forced relay is unavailable" generation)
  else .ok ()

/-- A repeated request is answered from the lineage. -/
def replaySession (cfg : Config) (db : Db) (now : ℕ) (c : ConnectionRecord) (expected : ℕ)
    (token : Secret) : Handled := do
  reject (expected ≠ c.priorGeneration ∨ cfg.tokenHash token ≠ c.tokenHash)
    (connectionFailure 409 "connection_conflict" "request replay differs" c.generation)
  let expired := connectionFailure 410 "session_expired" "the attempted session expired"
    c.generation
  let v ← found (db.sessions.get c.session) expired
  reject (v.expiresAt ≤ now) expired
  return { db, code := 200, reply := .connection c.session c.id c.generation v.expiresAt }

def SessionRow.token (v : SessionRow) (hash : Hash) (version : ℕ) : Token where
  hash := hash
  kind := .session
  tenant := v.tenant
  broker := some v.broker
  session := some v.id
  version := version
  expiresAt := v.expiresAt
  authSession := v.authSession

def openSession (db : Db) (v : SessionRow) (hash : Hash) (version : ℕ) : Except Failure Db := do
  let sessions ← found (db.sessions.insert v) .internal
  let tokens ← found (db.tokens.insert (v.token hash version)) .internal
  return (db.withSessions sessions).withTokens tokens

def ConnectionRecord.nextSession (cfg : Config) (now : ℕ) (p : Principal)
    (row : ConnectionRecord) : SessionRow where
  id := row.session
  tenant := p.tenant
  broker := row.broker
  relayMode := row.relay
  expiresAt := now + cfg.sessionTTL
  authSession := p.authSession

def ConnectionRecord.history (row : ConnectionRecord) : ConnectionSession where
  session := row.session
  connection := row.id
  generation := row.generation
  request := row.request
  priorGeneration := row.priorGeneration
  tokenHash := row.tokenHash

/-- What a new generation overwrites. -/
def ConnectionRecord.overwrite (row c : ConnectionRecord) : ConnectionRecord :=
  { c with generation := row.generation, session := row.session, request := row.request,
           priorGeneration := row.priorGeneration, tokenHash := row.tokenHash }

lemma ConnectionRecord.overwrite_id (row c : ConnectionRecord) :
    (row.overwrite c).id = c.id := rfl

/-- A lineage's row: inserted for a new one, else updated. -/
def writeLineage (db : Db) (row : ConnectionRecord) :
    Option ConnectionRecord → Except Failure Db
  | none => do
    let connections ← found (db.connections.insert row) .internal
    return db.withConnections connections
  | some _ => .ok (db.updateConnections (fun c => c.id = row.id) row.overwrite row.overwrite_id)

/-- The limits on sessions, and identifiers not accepted again. -/
def admitGeneration (cfg : Config) (db : Db) (now : ℕ) (tenant : Uuid)
    (old : Option ConnectionRecord) (row : ConnectionRecord) : Except Failure Unit := do
  let conflict := fun message => connectionFailure 409 "connection_conflict" message
    (row.generation - 1)
  let live : SessionRow → Bool := fun v => now < v.expiresAt && !old.any (·.session = v.id)
  reject (cfg.maxSessionsPerTenant ≤ db.sessions.count fun v => v.tenant = tenant && live v)
    (fail 429 "tenant session limit reached")
  reject (10000 ≤ db.sessions.count live) (fail 429 "global session limit reached")
  reject (db.connectionSessions.any fun h => h.tokenHash = row.tokenHash)
    (conflict "session credential was already used")
  reject (db.connectionSessions.any fun h => h.connection = row.id && h.request = row.request)
    (conflict "request identifier was already used")
  reject (db.tokens.any fun t => t.hash = row.tokenHash)
    (conflict "session credential was already used")

def Db.dropReplaced (db : Db) : Option ConnectionRecord → Db
  | none => db
  | some c => db.dropSessions [c.session]

/-- The history of a lineage is bounded. -/
def Db.trimHistory (db : Db) (row : ConnectionRecord) : Db :=
  db.withConnectionSessions (db.connectionSessions.delete fun h =>
    h.connection = row.id && h.generation + 256 < row.generation)

/-- The generation `row` takes the place of `old`. -/
def openGeneration (cfg : Config) (db : Db) (now : ℕ) (p : Principal)
    (old : Option ConnectionRecord) (row : ConnectionRecord) : Handled := do
  admitGeneration cfg db now p.tenant old row
  let v := row.nextSession cfg now p
  let db ← openSession (db.dropReplaced old) v row.tokenHash p.version
  let db ← writeLineage db row old
  -- the history is unique in the session, and in the lineage and its generation
  let connectionSessions ← found (db.connectionSessions.insert row.history) .internal
  reject (db.connectionSessions.any fun h =>
    h.connection = row.id && h.generation = row.generation) .internal
  return { db := (db.withConnectionSessions connectionSessions).trimHistory row
           code := 201
           reply := .connection v.id row.id row.generation v.expiresAt
           revoked := old.toList.map fun c => .session c.session }

/-- The newest live device token of a broker. -/
def Db.deviceToken (db : Db) (now : ℕ) (tenant broker : Uuid) (version : ℕ) : Option Token :=
  (db.tokens.select fun t => t.kind = .device && t.tenant = tenant && t.broker = some broker &&
    t.version = version && now < t.expiresAt).argmax Token.expiresAt

/-- The limits on new lineages, and their credentials. -/
def newLineage (cfg : Config) (db : Db) (now : ℕ) (hash : Hash) (p : Principal) (id broker : Uuid)
    (relay : RelayMode) (expected : ℕ) (request : Uuid) (token : Secret) (sid : Uuid) :
    Except Failure ConnectionRecord := do
  reject (cfg.maxSessionsPerTenant ≤ db.connections.count fun c =>
    c.tenant = p.tenant && c.revoked = none) (fail 429 "tenant connection limit reached")
  reject (10000 ≤ db.connections.count fun _ => true)
    (fail 429 "global connection storage limit reached")
  let d ← found (db.deviceToken now p.tenant broker p.version)
    (connectionFailure 403 "credential_revoked" "broker credential is unavailable" 0)
  return { id, tenant := p.tenant, broker, relay, accountHash := hash, deviceHash := d.hash,
           version := p.version, generation := 1, session := sid, request,
           priorGeneration := expected, tokenHash := cfg.tokenHash token,
           authSession := p.authSession }

def ConnectionRecord.advance (c : ConnectionRecord) (expected : ℕ) (request : Uuid) (hash : Hash)
    (sid : Uuid) : ConnectionRecord :=
  { c with generation := c.generation + 1, session := sid, request, priorGeneration := expected,
           tokenHash := hash }

/-- `sid` is the random identifier of a new session. -/
def connectionSession (cfg : Config) (db : Db) (now : ℕ) (hash : Hash) (p : Principal)
    (sid : Uuid) (id : Option Uuid) (r : ConnectionRequest) : Handled := do
  let invalid := fail 400 "invalid connection request"
  let id ← found id invalid
  let broker ← found r.broker invalid
  let request ← found r.request invalid
  let token ← found r.token invalid
  let expected ← found r.expectedGeneration invalid
  let relay ← found r.relay invalid
  txPrincipal db now hash p
  let old := db.connections.get id
  let generation := (old.map (·.generation)).getD 0
  admitLineage db now hash p broker relay expected old
  let b ← found ((db.brokers.get broker).filter (·.tenant = p.tenant))
    (connectionFailure 404 "broker_missing" "broker not found" 0)
  reject (b.leaseExpiresAt ≤ now) (connectionFailure 409 "broker_offline"
    "broker heartbeat is required" generation)
  checkForced cfg db p.tenant relay generation
  match old with
  | none => do
    let row ← newLineage cfg db now hash p id broker relay expected request token sid
    openGeneration cfg db now p none row
  | some c =>
    if request = c.request then replaySession cfg db now c expected token
    else do
      reject (expected ≠ c.generation) (connectionFailure 409 "connection_conflict"
        "connection generation changed" c.generation)
      reject (maxGeneration ≤ c.generation) (connectionFailure 409 "connection_conflict"
        "connection generation limit reached" c.generation)
      openGeneration cfg db now p (some c)
        (c.advance expected request (cfg.tokenHash token) sid)

/-! ### Closing a lineage -/

def Db.dropLineages (db : Db) (q : Uuid → Bool) : Db :=
  db.dropSessions ((db.connectionSessions.select fun h => q h.connection).map (·.session))

def deleteConnection (db : Db) (now : ℕ) (hash : Hash) (p : Principal) (id : Uuid) :
    Handled := do
  txPrincipal db now hash p
  let c ← found (db.connections.get id) (connectionFailure 404 "connection_unknown"
    "connection not found" 0)
  reject (c.tenant ≠ p.tenant ∨ (p.kind = .device ∧ p.broker ≠ some c.broker))
    (fail 404 "connection not found")
  let db := revokeConnections db (fun r => r.id = c.id) .closed
  return { db := db.dropLineages fun i => i = c.id, code := 200, reply := .done,
           revoked := [.session c.session] }

/-- The history places session `sid` in lineage `id`. -/
def deleteSessionLineage (db : Db) (now : ℕ) (hash : Hash) (p : Principal) (sid id : Uuid) :
    Handled := do
  txPrincipal db now hash p
  let c ← found (db.connections.get id) (connectionFailure 404 "connection_unknown"
    "connection not found" 0)
  reject (c.tenant ≠ p.tenant ∨ (p.kind = .device ∧ p.broker ≠ some c.broker) ∨
    (p.kind = .session ∧ (p.broker ≠ some c.broker ∨ p.session ≠ some sid)))
    (fail 403 "session scope denied")
  let db := revokeConnections db (fun r => r.id = c.id) .sessionDeleted
  return { db := db.dropLineages fun i => i = c.id, code := 200, reply := .done,
           revoked := [.session c.session] }

/-! ### Maintenance -/

def deviceDead (db : Db) (t t' : ℕ) (c : ConnectionRecord) : Bool :=
  !db.tokens.any fun d => d.hash = c.deviceHash && d.kind = .device && t < d.expiresAt &&
    (d.authSession = none || db.authSessions.any fun a => d.authSession = some a.id &&
      a.revoked = none && t' < a.refreshExpiry && a.version = c.version)

/-- The caller is gone for good. -/
def callerDead (db : Db) (t t' : ℕ) (c : ConnectionRecord) : Bool :=
  (c.authSession = none && !db.tokens.any fun a =>
    a.hash = c.accountHash && a.kind = .account && t < a.expiresAt) ||
  (c.authSession ≠ none && !db.authSessions.any fun a => c.authSession = some a.id &&
    a.tenant = c.tenant && a.version = c.version && a.revoked = none && t' < a.refreshExpiry) ||
  !db.tenants.any fun n => n.id = c.tenant && n.version = c.version && n.status = .active

/-- Revoked, or with a caller that is gone. -/
def Db.retired (db : Db) (t t' : ℕ) (id : Uuid) : Bool :=
  db.connections.any fun c => c.id = id && (c.revoked ≠ none || callerDead db t t' c)

/-- `t` gives the readings of the clock. -/
def pruneConnections (db : Db) (t : ℕ → ℕ) : Db :=
  let db := db.updateConnections (fun c => c.revoked = none && deviceDead db (t 0) (t 1) c)
    fun c => { c with revoked := some .credentialRevoked }
  let old : Uuid → Bool := fun s => db.connectionSessions.any fun h =>
    h.session = s && db.retired (t 2) (t 3) h.connection
  let db := db.deleteTokens fun k => k.kind = .session && k.session.any old
  let old : Uuid → Bool := fun s => db.connectionSessions.any fun h =>
    h.session = s && db.retired (t 4) (t 5) h.connection
  let db := db.deleteSessions fun v => old v.id
  db.deleteConnections fun c => callerDead db (t 6) (t 7) c

end OhecoBroker.Control
