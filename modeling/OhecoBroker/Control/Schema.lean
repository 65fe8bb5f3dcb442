/-
The tables of the control server, its configuration and the shapes of its answers (`control.go`,
`auth_refresh.go`, `connections.go`).

* `Tenant`, `Token`, `Broker`, `SessionRow`, `Message`, `AuthSession`, `ConnectionRecord`,
  `ConnectionSession`: the rows; `Db` holds a table of each;
* `deleteSessions`, `deleteBroker`, `updateTokens`: statements, cascades included;
* `Config`, `ApiError`, `Failure`, `Done`: what a handler is given and yields.

Identifiers and secrets are the bit strings their texts spell; an absent or empty column is
`none`.  Times are milliseconds, as the server stores them.
-/
import OhecoBroker.Lib.Checked
import OhecoBroker.Lib.Table

namespace OhecoBroker.Control

open Lib

/-- 32 hexadecimal digits. -/
abbrev Uuid := BitVec 128

/-- 64 hexadecimal digits. -/
abbrev Secret := BitVec 256

/-- What `tokenHash` gives. -/
abbrev Hash := BitVec 256

inductive Status where
  | active | pending | disabled
  deriving DecidableEq

inductive Kind where
  | account | device | session
  deriving DecidableEq

inductive RelayMode where
  | auto | never | force
  deriving DecidableEq

inductive MessageSide where
  | client | broker
  deriving DecidableEq

/-- Why an authority or a connection was revoked. -/
inductive Reason where
  | logout | tenantReset | closed | sessionDeleted | accountLogout | brokerDeleted
  | brokerRevoked | tenantDisabled | relayRevoked | credentialRevoked
  | sessionCredentialRevoked
  deriving DecidableEq

/-! ### Rows -/

structure Tenant where
  id : Uuid
  name : String
  email : String
  passwordHash : String
  status : Status
  relayEnabled : Bool
  version : ℕ
  deriving DecidableEq

structure Token where
  hash : Hash
  kind : Kind
  tenant : Uuid
  broker : Option Uuid := none
  session : Option Uuid := none
  version : ℕ
  expiresAt : ℕ
  authSession : Option Uuid := none
  deriving DecidableEq

structure Broker where
  id : Uuid
  tenant : Uuid
  name : String
  leaseExpiresAt : ℕ
  deriving DecidableEq

lemma Broker.id_offline (b : Broker) : ({ b with leaseExpiresAt := 0 } : Broker).id = b.id := rfl

structure SessionRow where
  id : Uuid
  tenant : Uuid
  broker : Uuid
  relayMode : RelayMode
  peerAuthenticated : Bool := false
  relayApproved : Bool := false
  expiresAt : ℕ
  authSession : Option Uuid := none
  deriving DecidableEq

structure Message where
  session : Uuid
  side : MessageSide
  sequence : ℕ
  data : String
  deriving DecidableEq

/-- The last seven fields are the receipt of the latest rotation. -/
structure AuthSession where
  id : Uuid
  tenant : Uuid
  version : ℕ
  generation : ℕ
  refreshHash : Hash
  tokenHash : Hash
  tokenExpiry : ℕ
  refreshExpiry : ℕ
  /-- Zero when the session has no absolute end. -/
  absoluteExpiry : ℕ
  revoked : Option Reason := none
  previousRefresh : Option Hash := none
  request : Option Uuid := none
  expectedGeneration : ℕ := 0
  nextToken : Option Hash := none
  nextRefresh : Option Hash := none
  receiptTokenExpiry : ℕ := 0
  receiptRefreshExpiry : ℕ := 0
  deriving DecidableEq

/-- A lineage of transport sessions, one for each generation. -/
structure ConnectionRecord where
  id : Uuid
  tenant : Uuid
  broker : Uuid
  relay : RelayMode
  accountHash : Hash
  deviceHash : Hash
  version : ℕ
  generation : ℕ
  session : Uuid
  request : Uuid
  priorGeneration : ℕ
  tokenHash : Hash
  revoked : Option Reason := none
  authSession : Option Uuid := none
  deriving DecidableEq

structure ConnectionSession where
  session : Uuid
  connection : Uuid
  generation : ℕ
  request : Uuid
  priorGeneration : ℕ
  tokenHash : Hash
  deriving DecidableEq

/-! ### The database -/

structure Db where
  tenants : Table Tenant.id := ∅
  tokens : Table Token.hash := ∅
  brokers : Table Broker.id := ∅
  sessions : Table SessionRow.id := ∅
  messages : Table (fun m : Message => (m.session, m.side, m.sequence)) := ∅
  authSessions : Table AuthSession.id := ∅
  connections : Table ConnectionRecord.id := ∅
  connectionSessions : Table ConnectionSession.session := ∅
  deriving DecidableEq

namespace Db

/-! One definition for each kind of statement, with what it leaves of each table. -/

@[simps tenants tokens brokers sessions messages authSessions connections connectionSessions]
def withTokens (db : Db) (tokens : Table Token.hash) : Db := { db with tokens }

@[simps tenants tokens brokers sessions messages authSessions connections connectionSessions]
def withTenants (db : Db) (tenants : Table Tenant.id) : Db := { db with tenants }

@[simps tenants tokens brokers sessions messages authSessions connections connectionSessions]
def withBrokers (db : Db) (brokers : Table Broker.id) : Db := { db with brokers }

@[simps tenants tokens brokers sessions messages authSessions connections connectionSessions]
def withSessions (db : Db) (sessions : Table SessionRow.id) : Db := { db with sessions }

@[simps tenants tokens brokers sessions messages authSessions connections connectionSessions]
def withMessages (db : Db)
    (messages : Table fun m : Message => (m.session, m.side, m.sequence)) : Db :=
  { db with messages }

@[simps tenants tokens brokers sessions messages authSessions connections connectionSessions]
def withAuthSessions (db : Db) (authSessions : Table AuthSession.id) : Db :=
  { db with authSessions }

@[simps tenants tokens brokers sessions messages authSessions connections connectionSessions]
def withConnections (db : Db) (connections : Table ConnectionRecord.id) : Db :=
  { db with connections }

@[simps tenants tokens brokers sessions messages authSessions connections connectionSessions]
def withConnectionSessions (db : Db)
    (connectionSessions : Table ConnectionSession.session) : Db :=
  { db with connectionSessions }

/-- `DELETE FROM sessions`: the mailboxes go with them. -/
@[simps tenants tokens brokers sessions messages authSessions connections connectionSessions]
def deleteSessions (db : Db) (p : SessionRow → Bool) : Db :=
  { db with
    sessions := db.sessions.delete p
    messages := db.messages.delete fun m => db.sessions.any fun v => p v && v.id = m.session }

/-- `DELETE FROM connections`: their history goes with them. -/
@[simps tenants tokens brokers sessions messages authSessions connections connectionSessions]
def deleteConnections (db : Db) (p : ConnectionRecord → Bool) : Db :=
  { db with
    connections := db.connections.delete p
    connectionSessions := db.connectionSessions.delete fun h =>
      db.connections.any fun c => p c && c.id = h.connection }

/-- `DELETE FROM brokers`: sessions and connections go with it. -/
def deleteBroker (db : Db) (id : Uuid) : Db :=
  ((db.deleteSessions fun v => v.broker = id).deleteConnections fun c => c.broker = id).withBrokers
    (db.brokers.delete fun b => b.id = id)

@[simps! tenants tokens brokers sessions messages authSessions connections connectionSessions]
def deleteTokens (db : Db) (p : Token → Bool) : Db := db.withTokens (db.tokens.delete p)

@[simps! tenants tokens brokers sessions messages authSessions connections connectionSessions]
def updateTokens (db : Db) (p : Token → Bool) (f : Token → Token)
    (hf : ∀ r, (f r).hash = r.hash := by exact fun _ => rfl) : Db :=
  db.withTokens (db.tokens.update p f hf)

@[simps! tenants tokens brokers sessions messages authSessions connections connectionSessions]
def updateSessions (db : Db) (p : SessionRow → Bool) (f : SessionRow → SessionRow)
    (hf : ∀ r, (f r).id = r.id := by exact fun _ => rfl) : Db :=
  db.withSessions (db.sessions.update p f hf)

@[simps! tenants tokens brokers sessions messages authSessions connections connectionSessions]
def updateBrokers (db : Db) (p : Broker → Bool) (f : Broker → Broker)
    (hf : ∀ r, (f r).id = r.id := by exact fun _ => rfl) : Db :=
  db.withBrokers (db.brokers.update p f hf)

@[simps! tenants tokens brokers sessions messages authSessions connections connectionSessions]
def updateTenants (db : Db) (p : Tenant → Bool) (f : Tenant → Tenant)
    (hf : ∀ r, (f r).id = r.id := by exact fun _ => rfl) : Db :=
  db.withTenants (db.tenants.update p f hf)

@[simps! tenants tokens brokers sessions messages authSessions connections connectionSessions]
def updateAuthSessions (db : Db) (p : AuthSession → Bool) (f : AuthSession → AuthSession)
    (hf : ∀ r, (f r).id = r.id := by exact fun _ => rfl) : Db :=
  db.withAuthSessions (db.authSessions.update p f hf)

@[simps! tenants tokens brokers sessions messages authSessions connections connectionSessions]
def updateConnections (db : Db) (p : ConnectionRecord → Bool)
    (f : ConnectionRecord → ConnectionRecord)
    (hf : ∀ r, (f r).id = r.id := by exact fun _ => rfl) : Db :=
  db.withConnections (db.connections.update p f hf)

end Db

/-! ### What a handler is given and yields -/

/-- What `New` settles on, with `tokenHash`; durations are milliseconds. -/
structure Config where
  tokenHash : Secret → Hash
  accountTokenTTL : ℕ
  authRefreshTTL : ℕ
  /-- Zero permits sessions that are refreshed for ever. -/
  authAbsoluteTTL : ℕ
  authAccessOverlap : ℕ
  sessionTTL : ℕ
  brokerLease : ℕ
  maxSessionsPerTenant : ℕ
  maxMessagesPerDirection : ℕ
  maxMessageBytes : ℕ
  /-- The embedded TURN listener runs. -/
  turn : Bool

/-- `apiError`: an answer with an error status. -/
structure ApiError where
  code : ℕ
  message : String
  reason : String := ""
  generation : ℕ := 0
  deriving DecidableEq

/-- An answer, an internal error, or an answer and the evidence of a lost credential. -/
inductive Failure where
  | api (e : ApiError)
  | internal
  | observed (e : ApiError) (c : ConnectionRecord)
  deriving DecidableEq

def fail (code : ℕ) (message : String) : Failure := .api { code, message }

/-- The message is the reason with blanks for underscores. -/
def authFailure (code : ℕ) (reason : String) : Failure :=
  .api { code, reason, message := reason.map fun c => if c = '_' then ' ' else c }

def connectionFailure (code : ℕ) (reason message : String) (generation : ℕ) : Failure :=
  .api { code, message, reason, generation }

/-- Which cached TURN authorisations go. -/
inductive Scope where
  | tenant (id : Uuid)
  | broker (id : Uuid)
  | session (id : Uuid)
  deriving DecidableEq

structure AuthCredentials where
  token : Secret
  refreshToken : Secret
  authSession : Uuid
  generation : ℕ
  tokenExpiresAt : ℕ
  refreshExpiresAt : ℕ
  deriving DecidableEq

structure AuthReceipt where
  authSession : Uuid
  generation : ℕ
  tokenExpiresAt : ℕ
  refreshExpiresAt : ℕ
  deriving DecidableEq

/-- The bodies of successful answers. -/
inductive Reply where
  | receipt (r : AuthReceipt)
  | credentials (c : AuthCredentials)
  | accountToken (t : Secret)
  | deviceToken (broker : Uuid) (t : Secret)
  | connection (session connection : Uuid) (generation : ℕ) (expiresAt : ℕ)
  | session (id : Uuid) (t : Secret) (expiresAt : ℕ)
  | sequence (n : ℕ) (duplicate : Bool)
  | done
  deriving DecidableEq

/-- The new tables, the answer and what it invalidates in the TURN cache. -/
structure Done where
  db : Db
  code : ℕ
  reply : Reply
  revoked : List Scope := []
  deriving DecidableEq

/-- A failure leaves the tables alone. -/
abbrev Handled := Except Failure Done

end OhecoBroker.Control
