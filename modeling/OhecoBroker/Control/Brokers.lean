/-
Brokers and sessions (`signaling.go`), and the periodic maintenance (`control.go`).

* `registerBroker`, `renameBroker`, `deleteBroker`, `rotateDevice`, `heartbeat`, `offlineBroker`:
  the transactions on a broker;
* `sessionPrincipal`: what a session handler checks before its transaction;
* `createSession`, `sessionHeartbeat`, `deleteSession`, `sendMessage`, `approveSession`: those on
  a session without a lineage;
* `expireSessions`, `expireTokens`, `collectAuthSessions`: statements of `maintenance`.
-/
import OhecoBroker.Control.Accounts

namespace OhecoBroker.Control

open Lib

/-! ### Before the transaction -/

def Db.broker (db : Db) (id : Uuid) : Except Failure Broker :=
  found (db.brokers.get id) (fail 404 "broker not found")

def Principal.side (p : Principal) : MessageSide :=
  if p.kind = .device then .broker else .client

def sessionPrincipal (db : Db) (now : ℕ) (hash : Option Hash) (id : Uuid) :
    Except Failure (Principal × Session) := do
  let p ← auth db now hash [.session, .device]
  let v ← db.session id
  checkSessionAuth db now v
  managedSession db now v
  reject (v.tenant ≠ p.tenant ∨ p.broker ≠ some v.broker) (fail 403 "session scope denied")
  reject (p.kind = .session ∧ p.session ≠ some v.id) (fail 403 "session scope denied")
  reject (v.expiresAt ≤ now) (fail 410 "session expired")
  let b ← db.broker v.broker
  reject (b.leaseExpiresAt ≤ now) (fail 409 "broker lease expired; heartbeat required")
  return (p, v)

/-! ### Brokers -/

/-- `registerBroker`: `id` and `t` are random. -/
def registerBroker (cfg : Config) (db : Db) (now : ℕ) (hash : Hash) (p : Principal) (name : String)
    (id : Uuid) (t : Secret) : Handled := do
  reject (¬validName name) (fail 400 "invalid broker name")
  txPrincipal db now hash p
  reject (db.brokers.any fun b => b.tenant = p.tenant && b.name = name)
    (fail 409 "broker name already exists")
  reject (128 ≤ db.brokers.count fun b => b.tenant = p.tenant)
    (fail 429 "tenant broker limit reached")
  let brokers ← found (db.brokers.insert
    { id, tenant := p.tenant, name, leaseExpiresAt := now + cfg.brokerLease }) .internal
  let db ← issueDevice cfg (db.withBrokers brokers) now t p id
  return { db, code := 201, reply := .deviceToken id t }

def renameBroker (db : Db) (now : ℕ) (hash : Hash) (p : Principal) (b : Broker) (name : String) :
    Handled := do
  reject (¬validName name) (fail 400 "invalid broker name")
  txPrincipal db now hash p
  reject (db.brokers.any fun c => c.tenant = b.tenant && c.name = name && c.id ≠ b.id)
    (fail 409 "broker name already exists")
  return { db := db.updateBrokers (fun c => c.id = b.id) fun c => { c with name }
           code := 200, reply := .done }

def deleteBroker (db : Db) (now : ℕ) (hash : Hash) (p : Principal) (b : Broker) : Handled := do
  txPrincipal db now hash p
  let db := revokeConnections db (fun c => c.broker = b.id) .brokerDeleted
  let db := db.deleteTokens fun t => t.broker = some b.id
  return { db := db.deleteBroker b.id, code := 200, reply := .done, revoked := [.broker b.id] }

/-- The broker's connections are revoked, its sessions deleted. -/
def dropBroker (db : Db) (id : Uuid) : Db :=
  let db := revokeConnections db (fun c => c.broker = id) .brokerRevoked
  let db := db.deleteTokens fun t => t.kind = .session && t.broker = some id
  db.deleteSessions fun v => v.broker = id

def rotateDevice (cfg : Config) (db : Db) (now : ℕ) (hash : Hash) (p : Principal) (b : Broker)
    (t : Secret) : Handled := do
  txPrincipal db now hash p
  let live ← found ((db.brokers.get b.id).filter (·.tenant = p.tenant)) .internal
  reject (now < live.leaseExpiresAt)
    (fail 409 "broker is online; wait for lease expiry or send offline")
  let db := (dropBroker db b.id).deleteTokens fun k => k.kind = .device && k.broker = some b.id
  let db ← issueDevice cfg db now t p b.id
  return { db := db.updateBrokers (fun c => c.id = b.id) fun c =>
             { c with leaseExpiresAt := now + cfg.brokerLease }
           code := 200, reply := .deviceToken b.id t, revoked := [.broker b.id] }

/-- A device token is extended no further than its login session. -/
def extendDevice (db : Db) (now : ℕ) (hash : Hash) (p : Principal) : Except Failure Db :=
  match p.authSession with
  | none => .ok db
  | some id => do
    let a ← authAuthority db now id p.tenant p.version false
    return db.updateTokens (fun t => t.hash = hash && t.kind = .device) fun t =>
      { t with expiresAt := min a.refreshExpiry (now + year) }

def heartbeat (cfg : Config) (db : Db) (now : ℕ) (hash : Hash) (p : Principal) (b : Broker) :
    Handled := do
  txPrincipal db now hash p
  let db ← extendDevice db now hash p
  return { db := db.updateBrokers (fun c => c.id = b.id) fun c =>
             { c with leaseExpiresAt := now + cfg.brokerLease }
           code := 200, reply := .done }

def offlineBroker (db : Db) (now : ℕ) (hash : Hash) (p : Principal) (b : Broker) : Handled := do
  txPrincipal db now hash p
  let db := db.updateBrokers (fun c => c.id = b.id) (fun c => { c with leaseExpiresAt := 0 })
    Broker.id_offline
  return { db := dropBroker db b.id, code := 200, reply := .done, revoked := [.broker b.id] }

/-! ### Sessions -/

def txRelay (db : Db) (tenant : Uuid) (wanted : Bool) (message : String) : Except Failure Unit :=
  if wanted then do
    let t ← found (db.tenants.get tenant) .internal
    reject (¬t.relayEnabled) (fail 403 message)
  else .ok ()

/-- `createSession`: `id` and `t` are random. -/
def createSession (cfg : Config) (db : Db) (now : ℕ) (hash : Hash) (p : Principal) (b : Broker)
    (relay : RelayMode) (id : Uuid) (t : Secret) : Handled := do
  txPrincipal db now hash p
  let live ← found ((db.brokers.get b.id).filter (·.tenant = p.tenant))
    (fail 404 "broker not found")
  reject (live.leaseExpiresAt ≤ now) (fail 409 "broker offline")
  txRelay db p.tenant (relay = .force) "forced relay unavailable"
  reject (cfg.maxSessionsPerTenant ≤ db.sessions.count fun v =>
    v.tenant = p.tenant && now < v.expiresAt) (fail 429 "tenant session limit reached")
  reject (10000 ≤ db.sessions.count fun v => now < v.expiresAt)
    (fail 429 "global session limit reached")
  let v : SessionRow :=
    { id, tenant := p.tenant, broker := b.id, relayMode := relay,
      expiresAt := now + cfg.sessionTTL, authSession := p.authSession }
  let db ← openSession db v (cfg.tokenHash t) p.version
  return { db, code := 201, reply := .session id t v.expiresAt }

def txSessionLive (db : Db) (now : ℕ) (v : Session) : Except Failure Unit := do
  checkSessionAuth db now v
  managedSession db now v
  let missing := fail 404 "session not found"
  let s ← found ((db.sessions.get v.id).filter fun s => s.tenant = v.tenant && s.broker = v.broker)
    missing
  let b ← found (db.brokers.get s.broker) missing
  reject (s.expiresAt ≤ now) (fail 410 "session expired")
  reject (b.leaseExpiresAt ≤ now) (fail 409 "broker lease expired; heartbeat required")

def extendSession (db : Db) (id : Uuid) (expiresAt : ℕ) : Db :=
  (db.updateSessions (fun v => v.id = id) fun v => { v with expiresAt }).updateTokens
    (fun t => t.kind = .session && t.session = some id) fun t => { t with expiresAt }

def sessionHeartbeat (cfg : Config) (db : Db) (now : ℕ) (hash : Hash) (p : Principal)
    (v : Session) : Handled := do
  txPrincipal db now hash p
  managedSession db now v
  let b ← found (db.brokers.get v.broker) .internal
  reject (b.leaseExpiresAt ≤ now) (fail 409 "broker lease expired; heartbeat required")
  let expired := fail 410 "session expired"
  let s ← found (db.sessions.get v.id) expired
  reject (s.expiresAt ≤ now) expired
  return { db := extendSession db v.id (now + cfg.sessionTTL), code := 200, reply := .done }

/-- `deleteSession` for a session without a lineage. -/
def deleteSession (db : Db) (now : ℕ) (hash : Hash) (p : Principal) (v : Session) : Handled := do
  txPrincipal db now hash p
  let db := db.deleteTokens fun t => t.session = some v.id
  return { db := db.deleteSessions fun s => s.id = v.id, code := 200, reply := .done,
           revoked := [.session v.id] }

def Db.mailbox (db : Db) (session : Uuid) (side : MessageSide) : List Message :=
  db.messages.select fun m => m.session = session && m.side = side

/-- The highest sequence of a mailbox, zero when it is empty. -/
def Db.current (db : Db) (session : Uuid) (side : MessageSide) : ℕ :=
  ((db.mailbox session side).map Message.sequence).foldr max 0

def sendMessage (cfg : Config) (db : Db) (now : ℕ) (hash : Hash) (p : Principal) (v : Session)
    (sequence : ℕ) (data : String) : Handled := do
  reject (sequence < 1 ∨ cfg.maxMessagesPerDirection < sequence ∨
    cfg.maxMessageBytes < data.utf8ByteSize) (fail 400 "message bounds exceeded")
  txPrincipal db now hash p
  txSessionLive db now v
  let current := db.current v.id p.side
  if sequence ≤ current then do
    reject ((db.messages.get (v.id, p.side, sequence)).map (·.data) ≠ some data)
      (fail 409 "sequence already used with different data")
    return { db, code := 200, reply := .sequence sequence true }
  else do
    reject (sequence ≠ current + 1) (fail 409 "sequence must be next directional sequence")
    let messages ← found (db.messages.insert ⟨v.id, p.side, sequence, data⟩) .internal
    return { db := db.withMessages messages, code := 201, reply := .sequence sequence false }

def approveSession (db : Db) (now : ℕ) (hash : Hash) (p : Principal) (v : Session)
    (relay : Bool) : Handled := do
  txPrincipal db now hash p
  txSessionLive db now v
  txRelay db p.tenant relay "relay unavailable or forbidden"
  return { db := db.updateSessions (fun s => s.id = v.id) fun s =>
             { s with peerAuthenticated := true, relayApproved := relay }
           code := 200, reply := .done
           revoked := if relay then [] else [.session v.id] }

/-! ### Maintenance -/

def expireSessions (db : Db) (now : ℕ) : Db := db.deleteSessions fun v => v.expiresAt ≤ now

/-- Expired tokens go, and those of sessions and brokers that are gone. -/
def expireTokens (db : Db) (now : ℕ) : Db :=
  db.deleteTokens fun t => t.expiresAt ≤ now ||
    (t.kind = .session && !db.sessions.any fun v => t.session = some v.id) ||
    (t.kind = .device && !db.brokers.any fun b => t.broker = some b.id)

def collectAuthSessions (db : Db) (now : ℕ) : Db :=
  db.withAuthSessions (db.authSessions.delete fun a =>
    (a.revoked ≠ none || a.refreshExpiry ≤ now) &&
    !(db.tokens.any fun t => t.authSession = some a.id) &&
    !(db.connections.any fun c => c.authSession = some a.id) &&
    !(db.sessions.any fun v => v.authSession = some a.id))

end OhecoBroker.Control
