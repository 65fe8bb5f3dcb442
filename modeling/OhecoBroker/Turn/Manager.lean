/-
The TURN manager (`turn.go`): credentials, allocations, counters and byte rates.

* `TurnCredential`, `TurnTenant`, `TurnRelay`, `Call`, `TurnManager`: the state, with the calls
  that are under way;
* `mint`, `renewSession`, `expireCredential`, `revoke`: credentials;
* `quota`, `allocate`, `relayClose`, `allocationCreated`, `allocationDeleted`: allocations;
* `reserveBytes`: byte rates;
* `Event`, `TurnManager.step`: one section, with the outcomes of the callbacks.

A credential and a relay are referred to by their addresses.  The random name of a credential is
never given twice, so its address stands for the name too.  A call that waits for the `authorize`
callback or for a lock stands in `calls`, and so does the `gate` it holds.  `granted` and
`reserved` are only recorded.
-/
import OhecoBroker.Lib.Run
import OhecoBroker.Lib.Table

namespace OhecoBroker.Turn

open Lib

/-! ### State -/

/-- The limits, in nanoseconds; a byte rate of `0` is unlimited. -/
structure TURNConfig where
  maxAllocations : ℕ
  maxAllocationsPerTenant : ℕ
  maxCredentials : ℕ
  maxCredentialsPerTenant : ℕ
  maxBytesPerSecond : ℕ
  maxBytesPerSecondPerTenant : ℕ
  maxCredentialTTL : ℕ
  positive : 0 < maxCredentialsPerTenant
  deriving DecidableEq

structure TurnCredential where
  tenant : String := ""
  broker : String := ""
  session : String := ""
  expires : ℕ := 0
  revoked : Bool := false
  deriving DecidableEq

structure TurnTenant where
  credentials : ℤ := 0
  allocations : ℤ := 0
  window : ℕ := 0
  bytes : ℕ := 0
  deriving DecidableEq

structure TurnRelay where
  advertised : String := ""
  credential : Option ℕ := none
  client : Option String := none
  deriving DecidableEq

/-- A call under way: `mint` in `authorize`, `renewSession` at its three stages, `authorized` in
`authorize`, `revoke` before a gate, before `removeCredential` and while it closes relays,
`AllocatePacketConn` before and after its relay is listed. -/
inductive Call where
  | minting (tenant broker session : String) (expires : ℕ)
  | renewing (creds : List ℕ) (expires : ℕ)
  | renewAsked (c : ℕ) (creds : List ℕ) (expires : ℕ)
  | renewChecked (c : ℕ) (creds : List ℕ) (expires : ℕ)
  | asking (c : ℕ)
  | revoking (creds : List ℕ)
  | removing (c : ℕ) (creds : List ℕ)
  | closing (relays creds : List ℕ)
  | opening
  | opened
  deriving DecidableEq

/-- `cred` and `relay` are the heap, the others the maps of the manager. -/
structure TurnManager where
  cfg : TURNConfig
  now : ℕ := 0
  closed : Bool := false
  cred : ℕ → TurnCredential := fun _ => {}
  nextCred : ℕ := 0
  creds : List ℕ := []
  tenants : String → Option TurnTenant := fun _ => none
  relay : ℕ → TurnRelay := fun _ => {}
  nextRelay : ℕ := 0
  relays : Table (Prod.fst : String × ℕ → String) := ∅
  clients : Table (Prod.fst : String × ℕ → String) := ∅
  opening : ℕ := 0
  window : ℕ := 0
  bytes : ℕ := 0
  calls : List Call := []
  granted : List String := []
  reserved : List (ℕ × String × ℕ) := []

def Call.locks (c : ℕ) : Call → Bool
  | .renewAsked d _ _ | .renewChecked d _ _ => c == d
  | _ => false

def Call.holds (c : ℕ) : Call → Bool
  | .renewAsked d _ _ | .renewChecked d _ _ | .asking d => c == d
  | _ => false

namespace TurnManager

/-- `time.Now().Unix()`. -/
def unix (m : TurnManager) : ℕ := m.now / 1000000000

/-- `c.gate.Lock()` does not wait. -/
def gateFree (m : TurnManager) (c : ℕ) : Bool := m.calls.all fun k => !k.holds c

/-- `c.gate.RLock()` does not wait. -/
def gateShared (m : TurnManager) (c : ℕ) : Bool := m.calls.all fun k => !k.locks c

def push (m : TurnManager) (k : Call) : TurnManager := { m with calls := m.calls ++ [k] }

def goOn (m : TurnManager) (i : ℕ) (k : Call) : TurnManager := { m with calls := m.calls.set i k }

def pop (m : TurnManager) (i : ℕ) : TurnManager := { m with calls := m.calls.eraseIdx i }

/-! ### Credentials -/

/-- `mint`, up to `authorize`. -/
def mintCall (m : TurnManager) (tenant broker session : String) (expires : ℕ) : TurnManager :=
  if tenant = "" ∨ broker = "" ∨ session = "" then m
  else if ¬ m.now < expires ∨ m.cfg.maxCredentialTTL < expires - m.now then m
  else m.push (.minting tenant broker session expires)

/-- `mint`, under `m.mu`. -/
def mint (m : TurnManager) (tenant broker session : String) (expires : ℕ) : TurnManager :=
  if m.closed = true ∨ ¬ m.now < expires then m
  else
    let t := m.tenants tenant
    if m.cfg.maxCredentials ≤ m.creds.length ∨
        t.any (fun t => decide ((m.cfg.maxCredentialsPerTenant : ℤ) ≤ t.credentials)) = true then m
    else
      let t := t.getD {}
      { m with
        tenants := Function.update m.tenants tenant
          (some { t with credentials := t.credentials + 1 })
        cred := Function.update m.cred m.nextCred
          { tenant, broker, session, expires }
        creds := m.creds ++ [m.nextCred]
        nextCred := m.nextCred + 1 }

/-- `authorized`, up to `authorize`. -/
def authorizedBefore (m : TurnManager) (c : ℕ) : Bool :=
  !(m.cred c).revoked && decide (m.now < (m.cred c).expires)

/-- `authorized`, from `authorize` on. -/
def authorizedAfter (m : TurnManager) (c : ℕ) (allowed : Bool) : Bool :=
  allowed && decide (m.now < (m.cred c).expires)

/-- `renewSession`, up to the gates. -/
def renewSession (m : TurnManager) (session : String) (expires : ℕ) : TurnManager :=
  if session = "" ∨ ¬ m.now < expires then m
  else if m.closed then m
  else m.push (.renewing (m.creds.filter fun c => (m.cred c).session = session) expires)

/-- `renewSession`, under the gate of `c` and `m.mu`. -/
def renewStore (m : TurnManager) (c expires : ℕ) : TurnManager :=
  let deadline := min expires (m.now + m.cfg.maxCredentialTTL)
  if m.closed = false ∧ c ∈ m.creds ∧ m.now < (m.cred c).expires ∧
      (m.cred c).expires < deadline then
    { m with cred := Function.update m.cred c { m.cred c with expires := deadline } }
  else m

def setRevoked (m : TurnManager) (c : ℕ) : TurnManager :=
  { m with cred := Function.update m.cred c { m.cred c with revoked := true } }

def expireCredential (m : TurnManager) (c : ℕ) : TurnManager :=
  if (m.cred c).revoked = true ∨ m.now < (m.cred c).expires then m
  else (m.setRevoked c).push (.removing c [])

def cleanTenant (m : TurnManager) (id : String) (t : TurnTenant) : TurnManager :=
  let record := if t.credentials = 0 ∧ t.allocations = 0 then none else some t
  { m with tenants := Function.update m.tenants id record }

def removeCredential (m : TurnManager) (c : ℕ) : TurnManager :=
  if c ∈ m.creds then
    let m := { m with creds := m.creds.erase c }
    match m.tenants (m.cred c).tenant with
    | none => m
    | some t => m.cleanTenant (m.cred c).tenant { t with credentials := t.credentials - 1 }
  else m

def relaysOf (m : TurnManager) (c : ℕ) : List ℕ :=
  (m.relays.rows.map Prod.snd).filter fun r => (m.relay r).credential = some c

/-- `revokeTenant`, `revokeBroker`, `revokeSession`, `close`. -/
inductive Match where
  | tenant (id : String) | broker (id : String) | session (id : String) | all
  deriving DecidableEq

def Match.holds : Match → TurnCredential → Bool
  | .tenant id, c => c.tenant == id
  | .broker id, c => c.broker == id
  | .session id, c => c.session == id
  | .all, _ => true

/-- `revoke`, up to the gates. -/
def revoke (m : TurnManager) (which : Match) : TurnManager :=
  m.push (.revoking (m.creds.filter fun c => which.holds (m.cred c)))

/-! ### Allocations -/

def quota (m : TurnManager) (username : ℕ) (src : String) : Bool :=
  !m.closed && decide (username ∈ m.creds) && (m.clients.get src).isNone &&
    decide (max m.relays.rows.length m.clients.rows.length + m.opening < m.cfg.maxAllocations) &&
    (m.tenants (m.cred username).tenant).any fun t =>
      decide (t.allocations < (m.cfg.maxAllocationsPerTenant : ℤ))

/-- `AllocatePacketConn`, up to the socket. -/
def allocateCall (m : TurnManager) : TurnManager :=
  if m.closed = true ∨
      m.cfg.maxAllocations ≤ max m.relays.rows.length m.clients.rows.length + m.opening then m
  else { m with opening := m.opening + 1 }.push .opening

/-- `AllocatePacketConn`: the relay is listed. -/
def allocate (m : TurnManager) (advertised : String) : TurnManager :=
  { m with
    relay := Function.update m.relay m.nextRelay { advertised }
    relays := m.relays.assign (advertised, m.nextRelay)
    nextRelay := m.nextRelay + 1 }

def relayClose (m : TurnManager) (r : ℕ) : TurnManager :=
  let a := (m.relay r).advertised
  if m.relays.get a = some (a, r) then { m with relays := m.relays.delete (·.1 = a) } else m

def allocationCreated (m : TurnManager) (src : String) (username : ℕ) (addr : String) :
    TurnManager :=
  match m.relays.get addr with
  | none => m
  | some (_, r) =>
    let c := if username ∈ m.creds then some username else none
    let m := { m with
      relay := Function.update m.relay r { m.relay r with credential := c, client := some src }
      clients := m.clients.assign (src, r)
      granted := m.granted.filter (· ≠ src) }
    match c with
    | none => m.push (.closing [r] [])
    | some c =>
      let id := (m.cred c).tenant
      match m.tenants id with
      | none => m.push (.closing [r] [])
      | some t =>
        let t := { t with allocations := t.allocations + 1 }
        let m := { m with tenants := Function.update m.tenants id (some t) }
        if m.closed = true ∨ m.cfg.maxAllocationsPerTenant < t.allocations then
          m.push (.closing [r] [])
        else m

def allocationDeleted (m : TurnManager) (src : String) (username : ℕ) : TurnManager :=
  match m.clients.get src with
  | none => m
  | some (_, r) =>
    let m' := { m with clients := m.clients.delete (·.1 = src) }
    match (m.relay r).credential with
    | none => m'
    | some c =>
      if c ≠ username then m
      else match m.tenants (m.cred c).tenant with
        | none => m'
        | some t => m'.cleanTenant (m.cred c).tenant { t with allocations := t.allocations - 1 }

/-! ### Byte rates -/

def reserveBytes (m : TurnManager) (c n : ℕ) : TurnManager × Bool :=
  let id := (m.cred c).tenant
  if m.closed then (m, false)
  else match m.tenants id with
    | none => (m, false)
    | some t =>
      let window := m.unix
      let m := if m.window ≠ window then { m with window, bytes := 0 } else m
      let t := if t.window ≠ window then { t with window, bytes := 0 } else t
      if (0 < m.cfg.maxBytesPerSecond ∧ (m.cfg.maxBytesPerSecond : ℤ) - m.bytes < n) ∨
          (0 < m.cfg.maxBytesPerSecondPerTenant ∧
            (m.cfg.maxBytesPerSecondPerTenant : ℤ) - t.bytes < n) then
        ({ m with tenants := Function.update m.tenants id (some t) }, false)
      else
        let t := if 0 < m.cfg.maxBytesPerSecondPerTenant then { t with bytes := t.bytes + n } else t
        ({ m with
          bytes := if 0 < m.cfg.maxBytesPerSecond then m.bytes + n else m.bytes
          tenants := Function.update m.tenants id (some t)
          reserved := m.reserved ++ [(window, id, n)] }, true)

/-! ### Steps -/

end TurnManager

open TurnManager

/-- One section, with the outcomes of the callbacks. -/
inductive Event where
  | elapse (ns : ℕ)
  | mintCall (tenant broker session : String) (expires : ℕ)
  | mint (i : ℕ) (allowed random : Bool)
  | renewSession (session : String) (expires : ℕ)
  | renewLock (i c : ℕ)
  | renewAnswer (i : ℕ) (allowed : Bool)
  | renewStore (i : ℕ)
  | ask (c : ℕ)
  | answer (i : ℕ) (allowed : Bool)
  | expire (c : ℕ)
  | revoke (which : Match)
  | revokeLock (i c : ℕ)
  | remove (i : ℕ)
  | closeNext (i : ℕ)
  | close (r : ℕ)
  | quota (username : ℕ) (src : String)
  | allocateCall
  | allocate (i : ℕ) (advertised : Option String)
  | allocated (i : ℕ)
  | created (src : String) (username : ℕ) (addr : String)
  | deleted (src : String) (username : ℕ)
  | reserve (c n : ℕ)
  | shut
  deriving DecidableEq

def revokeRest (m : TurnManager) (i : ℕ) (cs : List ℕ) : TurnManager :=
  if cs = [] then m.pop i else m.goOn i (.revoking cs)

/-- A section whose lock is not free does nothing. -/
def TurnManager.step (m : TurnManager) : Event → TurnManager
  | .elapse ns => { m with now := m.now + ns }
  | .mintCall tenant broker session expires => m.mintCall tenant broker session expires
  | .mint i allowed random =>
    match m.calls[i]? with
    | some (.minting tenant broker session expires) =>
      if allowed = true ∧ random = true then (m.pop i).mint tenant broker session expires
      else m.pop i
    | _ => m
  | .renewSession session expires => m.renewSession session expires
  | .renewLock i c =>
    match m.calls[i]? with
    | some (.renewing cs expires) =>
      if c ∈ cs ∧ m.gateFree c = true then
        if m.authorizedBefore c then m.goOn i (.renewAsked c (cs.erase c) expires)
        else m.goOn i (.renewing (cs.erase c) expires)
      else m
    | _ => m
  | .renewAnswer i allowed =>
    match m.calls[i]? with
    | some (.renewAsked c cs expires) =>
      if m.authorizedAfter c allowed then m.goOn i (.renewChecked c cs expires)
      else m.goOn i (.renewing cs expires)
    | _ => m
  | .renewStore i =>
    match m.calls[i]? with
    | some (.renewChecked c cs expires) => (m.renewStore c expires).goOn i (.renewing cs expires)
    | _ => m
  | .ask c =>
    if m.gateShared c = true ∧ m.authorizedBefore c = true then m.push (.asking c) else m
  | .answer i _ =>
    match m.calls[i]? with
    | some (.asking _) => m.pop i
    | _ => m
  | .expire c => if c < m.nextCred ∧ m.gateFree c = true then m.expireCredential c else m
  | .revoke which => m.revoke which
  | .revokeLock i c =>
    match m.calls[i]? with
    | some (.revoking cs) =>
      if c ∈ cs ∧ m.gateFree c = true then (m.setRevoked c).goOn i (.removing c (cs.erase c)) else m
    | _ => m
  | .remove i =>
    match m.calls[i]? with
    | some (.removing c cs) => (m.removeCredential c).goOn i (.closing (m.relaysOf c) cs)
    | _ => m
  | .closeNext i =>
    match m.calls[i]? with
    | some (.closing (r :: rs) cs) => (m.relayClose r).goOn i (.closing rs cs)
    | some (.closing [] cs) => revokeRest m i cs
    | _ => m
  | .close r => m.relayClose r
  | .quota username src =>
    if m.quota username src then { m with granted := src :: m.granted } else m
  | .allocateCall => m.allocateCall
  | .allocate i advertised =>
    match m.calls[i]?, advertised with
    | some .opening, some a =>
      if m.closed then { m with opening := m.opening - 1 }.pop i else (m.allocate a).goOn i .opened
    | some .opening, none => { m with opening := m.opening - 1 }.pop i
    | _, _ => m
  | .allocated i =>
    match m.calls[i]? with
    | some .opened => { m with opening := m.opening - 1 }.pop i
    | _ => m
  | .created src username addr => m.allocationCreated src username addr
  | .deleted src username => m.allocationDeleted src username
  | .reserve c n => (m.reserveBytes c n).1
  | .shut => { m with closed := true }

/-- What `authorized` returns in a step. -/
def TurnManager.authorized (m : TurnManager) : Event → Option (ℕ × Bool)
  | .ask c =>
    if m.gateShared c = true ∧ m.authorizedBefore c = false then some (c, false) else none
  | .answer i allowed =>
    match m.calls[i]? with
    | some (.asking c) => some (c, m.authorizedAfter c allowed)
    | _ => none
  | .renewLock i c =>
    match m.calls[i]? with
    | some (.renewing cs _) =>
      if c ∈ cs ∧ m.gateFree c = true ∧ m.authorizedBefore c = false then some (c, false) else none
    | _ => none
  | .renewAnswer i allowed =>
    match m.calls[i]? with
    | some (.renewAsked c _ _) => some (c, m.authorizedAfter c allowed)
    | _ => none
  | _ => none

/-- Pion: `quota` returned `true` since the last time, and the relay is this allocation's. -/
def TurnManager.pion (m : TurnManager) : Event → Prop
  | .created src _ addr => src ∈ m.granted ∧ ∀ x ∈ m.relays.get addr, (m.relay x.2).client = none
  | _ => True

end OhecoBroker.Turn
