/-
Accounts (`accounts.go`).  What a handler reads before its transaction opens (the tenant row, what
the password library says) is an argument of the transaction.

* `registerAccount`, `accountToken`, `loginAuth`, `logout`: a new account, the logins without and
  with refresh, and the end of a login;
* `updateAccountCredentials`, `updateCapabilities`: the two changes of a tenant's row, the first
  of which ends everything that rests on its credentials;
* `adminUpdateTenant`, `adminAction`: the administrator's requests for them.
-/
import Mathlib.Data.List.Sort
import OhecoBroker.Control.Connections

namespace OhecoBroker.Control

open Lib

/-! ### Names -/

/-- White space for `strings.TrimSpace`. -/
def isSpace (c : Char) : Bool :=
  c.toNat ∈ [9, 10, 11, 12, 13, 32, 0x85, 0xa0, 0x1680, 0x2028, 0x2029, 0x202f, 0x205f, 0x3000] ||
    (0x2000 ≤ c.toNat && c.toNat ≤ 0x200a)

def validName (v : String) : Bool :=
  !(v.toList.head?.any isSpace) && !(v.toList.getLast?.any isSpace) &&
    0 < v.utf8ByteSize && v.utf8ByteSize ≤ 64 &&
    v.toList.all fun c => c.toNat ≠ 0 && c ≠ '\r' && c ≠ '\n'

/-- Equality of names without regard to ASCII case. -/
def sameName (a b : String) : Bool := a.toLower = b.toLower

/-! ### Registration and login -/

/-- `registration_policy`. -/
inductive Policy where
  | unrestricted | approval | closed
  deriving DecidableEq

/-- A registration; no hash when the password is too short or too long. -/
structure Registration where
  name : String
  email : String
  validEmail : Bool
  passwordHash : Option String
  deriving DecidableEq

def firstCredentials (cfg : Config) (db : Db) (now : ℕ) (refreshed : Bool) (draw : AuthDraw)
    (tenant : Uuid) (version : ℕ) : Except Failure (Db × Reply) :=
  if refreshed then do
    let (db, c) ← issueAuthSession cfg db now draw tenant version
    return (db, .credentials c)
  else do
    let db ← issue cfg db draw.token .account tenant none none version
      (now + cfg.accountTokenTTL)
    return (db, .accountToken draw.token)

def registerAccount (cfg : Config) (db : Db) (now : ℕ) (refreshed : Bool) (policy : Policy)
    (relayEnabled : Bool) (r : Registration) (id : Uuid) (draw : AuthDraw) : Handled := do
  reject (policy = .closed) (fail 403 "registration closed")
  reject (¬validName r.name ∨ ¬r.validEmail) (fail 400 "invalid name or email")
  let passwordHash ← found r.passwordHash (fail 400 "password must contain 12 to 72 bytes")
  reject (db.tenants.any fun t => sameName t.name r.name) (fail 409 "name already exists")
  let tenants ← found (db.tenants.insert
    { id, name := r.name, email := r.email, passwordHash, version := 1, relayEnabled,
      status := if policy = .approval then .pending else .active }) .internal
  let (db, reply) ← firstCredentials cfg (db.withTenants tenants) now refreshed draw id 1
  return { db, code := 201, reply }

def Db.legacyTokens (db : Db) (tenant : Uuid) : List Token :=
  db.tokens.select fun t => t.tenant = tenant && t.kind = .account && t.authSession = none

/-- Of the legacy tokens of a tenant all but 15 go, those that expire first. -/
def evictLegacy (db : Db) (tenant : Uuid) : Db :=
  let evicted := ((db.legacyTokens tenant).insertionSort fun t u => t.expiresAt ≤ u.expiresAt).take
    ((db.legacyTokens tenant).length - 15)
  db.deleteTokens fun t => t.hash ∈ evicted.map Token.hash

/-- The last transaction of a login without refresh. -/
def accountToken (cfg : Config) (db : Db) (now : ℕ) (t : Tenant) (draw : AuthDraw) : Handled := do
  let (db, reply) ← firstCredentials cfg db now false draw t.id t.version
  return { db, code := 200, reply }

/-- The transaction of a refreshed login. -/
def loginAuth (cfg : Config) (db : Db) (now : ℕ) (t : Tenant) (draw : AuthDraw) : Handled := do
  let live ← found (db.tenants.get t.id) .internal
  reject (live.passwordHash ≠ t.passwordHash ∨ live.status ≠ .active ∨ live.version ≠ t.version)
    (fail 401 "invalid login")
  let (db, reply) ← firstCredentials cfg db now true draw t.id t.version
  return { db, code := 200, reply }

/-! ### Logout -/

def Db.loginOf (db : Db) (hash : Hash) : Option Uuid :=
  ((db.tokens.get hash).filter fun t => t.kind = .account).bind (·.authSession)

/-- `logout` of a legacy account token. -/
def logoutLegacy (db : Db) (hash : Hash) : Db :=
  let db := revokeConnections db (fun c => c.accountHash = hash) .accountLogout
  let db := db.dropLineages fun id => db.connections.any fun c =>
    c.id = id && c.accountHash = hash
  db.deleteTokens fun t => t.hash = hash && t.kind = .account

def logout (db : Db) (hash : Option Hash) : Handled := do
  let hash ← found hash (fail 401 "bearer required")
  match db.loginOf hash with
  | some id => do
    let a ← found (db.authSessions.get id) .internal
    let (db, v) := revokeAuthSession db a
    return { db, code := 200, reply := .done, revoked := applyAuthRevocation v }
  | none => return { db := logoutLegacy db hash, code := 200, reply := .done }

/-! ### Changes to an account -/

structure AccountUpdate where
  id : Uuid
  name : String
  email : String
  status : Status
  relayEnabled : Bool
  passwordHash : Option String := none
  replacement : Bool
  expectedVersion : ℕ
  updateStatus : Bool := false
  updateRelay : Bool := false
  authority : Option Uuid := none
  deriving DecidableEq

def AccountUpdate.apply (u : AccountUpdate) (t : Tenant) : Tenant :=
  { t with
    name := u.name, email := u.email, version := t.version + 1
    status := if u.updateStatus then u.status else t.status
    relayEnabled := if u.updateRelay then u.relayEnabled else t.relayEnabled
    passwordHash := u.passwordHash.getD t.passwordHash }

lemma AccountUpdate.apply_id (u : AccountUpdate) (t : Tenant) : (u.apply t).id = t.id := rfl

/-- All that rests on a tenant's credentials goes. -/
def resetTenant (db : Db) (id : Uuid) : Db :=
  let db := revokeConnections db (fun c => c.tenant = id) .tenantReset
  let db := db.updateAuthSessions (fun a => a.tenant = id) fun a =>
    { a with revoked := some .tenantReset }
  let db := db.deleteTokens fun t => t.tenant = id
  let db := db.deleteSessions fun v => v.tenant = id
  db.updateBrokers (fun b => b.tenant = id) (fun b => { b with leaseExpiresAt := 0 })
    Broker.id_offline

def replacementCredentials (cfg : Config) (db : Db) (now : ℕ) (u : AccountUpdate) (version : ℕ)
    (draw : AuthDraw) : Except Failure (Db × Reply) :=
  if u.replacement then
    firstCredentials cfg db now u.authority.isSome draw u.id version
  else .ok (db, .done)

def updateAccountCredentials (cfg : Config) (db : Db) (now : ℕ) (u : AccountUpdate)
    (draw : AuthDraw) : Handled := do
  checkLogin db now u.authority u.id u.expectedVersion false
  let t ← found (db.tenants.get u.id) .internal
  reject (t.version ≠ u.expectedVersion)
    (if u.replacement then fail 401 "revoked bearer" else fail 409 "tenant concurrently changed")
  reject (db.tenants.any fun n => sameName n.name u.name && n.id ≠ u.id)
    (fail 409 "name already exists")
  let db := resetTenant (db.updateTenants (fun n => n.id = u.id) u.apply u.apply_id) u.id
  let (db, reply) ← replacementCredentials cfg db now u (t.version + 1) draw
  return { db, code := 200, reply, revoked := [.tenant u.id] }

structure CapabilityUpdate where
  id : Uuid
  status : Status
  relayEnabled : Bool
  setStatus : Bool
  setRelay : Bool
  expectedVersion : ℕ
  deriving DecidableEq

def CapabilityUpdate.apply (u : CapabilityUpdate) (t : Tenant) : Tenant :=
  { t with
    status := if u.setStatus then u.status else t.status
    relayEnabled := if u.setRelay then u.relayEnabled else t.relayEnabled }

lemma CapabilityUpdate.apply_id (u : CapabilityUpdate) (t : Tenant) : (u.apply t).id = t.id := rfl

/-- An inactive tenant keeps no connection. -/
def revokeInactive (db : Db) (t : Tenant) : Db :=
  if t.status = .active then db
  else revokeConnections db (fun c => c.tenant = t.id) .tenantDisabled

/-- Without relay no forced session stays, and none approved. -/
def revokeRelay (db : Db) (t : Tenant) : Db :=
  if t.relayEnabled then db
  else
    let db := revokeConnections db (fun c => c.tenant = t.id && c.relay = .force) .relayRevoked
    let forced : SessionRow → Bool := fun v => v.tenant = t.id && v.relayMode = .force
    let db := db.deleteTokens fun k => k.kind = .session && db.sessions.any fun v =>
      forced v && k.session = some v.id
    let db := db.deleteSessions forced
    db.updateSessions (fun v => v.tenant = t.id) fun v => { v with relayApproved := false }

def updateCapabilities (db : Db) (u : CapabilityUpdate) : Handled := do
  let t ← found (db.tenants.get u.id) .internal
  reject (t.version ≠ u.expectedVersion) (fail 409 "tenant concurrently changed")
  let db := db.updateTenants (fun n => n.id = u.id) u.apply u.apply_id
  let db := revokeRelay (revokeInactive db (u.apply t)) (u.apply t)
  return { db, code := 200, reply := .done,
           revoked := if (u.apply t).relayEnabled then [] else [.tenant u.id] }

/-! ### The requests of the administrator -/

inductive AdminChange where
  | account (u : AccountUpdate)
  | capabilities (u : CapabilityUpdate)
  deriving DecidableEq

def adminUpdateTenant (t : Tenant) (name email : Option String) (status : Option Status)
    (relay : Option Bool) (validEmail : Bool) : Except Failure AdminChange := do
  let status' := status.getD t.status
  reject (¬validName (name.getD t.name) ∨ ¬validEmail) (fail 400 "invalid tenant update")
  if name ≠ none ∨ email ≠ none ∨ status' ≠ .active then
    return .account { id := t.id, name := name.getD t.name, email := email.getD t.email,
                      status := status', relayEnabled := relay.getD t.relayEnabled,
                      replacement := false, expectedVersion := t.version,
                      updateStatus := status.isSome, updateRelay := relay.isSome }
  else
    return .capabilities { id := t.id, status := status',
                           relayEnabled := relay.getD t.relayEnabled, setStatus := status.isSome,
                           setRelay := relay.isSome, expectedVersion := t.version }

inductive AdminVerb where
  | approve
  | enable
  | disable
  | relay (enabled : Option Bool)
  | resetPassword (given : Bool) (hash : Option String)
  deriving DecidableEq

/-- The change of an account that keeps its name and address. -/
def Tenant.reset (t : Tenant) (status : Status) (hash : Option String) (updateStatus : Bool) :
    AccountUpdate where
  id := t.id
  name := t.name
  email := t.email
  status := status
  relayEnabled := t.relayEnabled
  passwordHash := hash
  replacement := false
  expectedVersion := t.version
  updateStatus := updateStatus

def adminAction (t : Tenant) : AdminVerb → Except Failure AdminChange
  | .approve => do
    reject (t.status ≠ .pending) (fail 409 "tenant is not pending")
    return .capabilities ⟨t.id, .active, t.relayEnabled, true, false, t.version⟩
  | .enable => return .capabilities ⟨t.id, .active, t.relayEnabled, true, false, t.version⟩
  | .disable => return .account (t.reset .disabled none true)
  | .relay enabled => do
    let enabled ← found enabled (fail 400 "enabled required")
    return .capabilities ⟨t.id, t.status, enabled, false, true, t.version⟩
  | .resetPassword given hash => do
    reject (¬given) (fail 400 "password required; generate it client-side")
    let hash ← found hash (fail 400 "password must contain 12 to 72 bytes")
    return .account (t.reset t.status (some hash) false)

def AdminChange.commit (cfg : Config) (db : Db) (now : ℕ) (draw : AuthDraw) :
    AdminChange → Handled
  | .account u => updateAccountCredentials cfg db now u draw
  | .capabilities u => updateCapabilities db u

end OhecoBroker.Control
