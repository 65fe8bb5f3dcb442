/-
The joined TURN authorisation query (`turn_authorization.go`): outer joins collect the session,
its tenant, broker, lineage and credentials in one row, on which is decided what the handlers
decide by several checks.

* `TurnRow`, `turnRow`, `TurnRow.decision`: the joined row and what is decided on it;
* `session_columns`, `caller_columns`, `device_columns`, `managed_columns`: groups of columns
  against the checks they stand for;
* `authorizeTURNIdentitySnapshot_iff`: **in every reachable state the query and the checks
  agree**, and the answer holds until the returned deadline and no longer.
-/
import OhecoBroker.Control.Server

namespace OhecoBroker.Control

open Lib Table

/-! ### The query -/

structure TurnRow where
  baseAllowed : Bool
  brokerExpiry : ℕ
  sessionAllowed : Bool
  sessionExpiry : ℕ
  /-- The session has a place in a lineage. -/
  managed : Bool
  lineageAllowed : Bool
  accountExpiry : ℕ
  deviceExpiry : ℕ
  currentExpiry : ℕ
  tokenExpiry : ℕ
  currentGeneration : Bool
  deriving DecidableEq

/-- The earlier of the idle and the absolute deadline. -/
def AuthSession.expiry (a : AuthSession) : ℕ :=
  if a.absoluteExpiry = 0 then a.refreshExpiry else min a.refreshExpiry a.absoluteExpiry

/-- Unrevoked and of the tenant version. -/
def AuthSession.current (a : AuthSession) (version : ℕ) (tenant : Uuid) : Bool :=
  a.revoked = none && a.version = version && a.tenant = tenant

def Db.joinAccount (db : Db) (c : ConnectionRecord) : Option Token :=
  (db.tokens.get c.accountHash).filter fun a => a.kind = .account && a.tenant = c.tenant &&
    a.version = c.version && a.broker = none

def Db.joinDevice (db : Db) (c : ConnectionRecord) : Option Token :=
  (db.tokens.get c.deviceHash).filter fun d => d.kind = .device && d.tenant = c.tenant &&
    d.version = c.version && d.broker = some c.broker

def Db.joinTransport (db : Db) (c : ConnectionRecord) : Option Token :=
  (db.tokens.get c.tokenHash).filter fun t => t.kind = .session &&
    (db.sessions.get c.session).any (fun v => t.session = some v.id) && t.version = c.version

def Db.joinAuth (db : Db) (id : Option Uuid) : Option AuthSession :=
  id.bind fun i => db.authSessions.get i

/-- `lineage allowed`: the lineage, its tenant, its caller and its device. -/
def Db.lineageAllowed (db : Db) (c : ConnectionRecord) : Bool :=
  c.revoked = none &&
  (db.tenants.get c.tenant).any (fun t => t.status = .active && t.version = c.version) &&
  ((c.authSession = none && (db.joinAccount c).isSome) ||
    (c.authSession ≠ none && (db.joinAuth c.authSession).any (·.current c.version c.tenant))) &&
  (db.joinDevice c).any fun d => d.authSession = none ||
    (db.joinAuth d.authSession).any (·.current c.version c.tenant)

def Db.accountExpiry (db : Db) (c : ConnectionRecord) : ℕ :=
  if c.authSession = none then ((db.joinAccount c).map (·.expiresAt)).getD 0
  else ((db.joinAuth c.authSession).map (·.expiry)).getD 0

def Db.deviceExpiry (db : Db) (c : ConnectionRecord) : ℕ :=
  match db.joinDevice c with
  | none => 0
  | some d =>
    if d.authSession = none then d.expiresAt
    else min d.expiresAt (((db.joinAuth d.authSession).map (·.expiry)).getD 0)

def turnRow (db : Db) (t : Tenant) (b : Broker) (v : SessionRow) : TurnRow :=
  let cs := db.connectionSessions.get v.id
  let c := cs.bind fun cs => db.connections.get cs.connection
  let sa := db.joinAuth v.authSession
  { baseAllowed := t.status = .active && t.relayEnabled && b.tenant = t.id
    brokerExpiry := b.leaseExpiresAt
    sessionAllowed := v.tenant = t.id && v.broker = b.id && v.peerAuthenticated &&
      v.relayApproved && v.relayMode ≠ .never &&
      (v.authSession = none || sa.any (·.current t.version t.id))
    sessionExpiry := if v.authSession = none then v.expiresAt
      else min v.expiresAt ((sa.map (·.expiry)).getD 0)
    managed := cs.isSome
    lineageAllowed := c.any db.lineageAllowed
    accountExpiry := (c.map db.accountExpiry).getD 0
    deviceExpiry := (c.map db.deviceExpiry).getD 0
    currentExpiry := ((c.bind fun c => db.sessions.get c.session).map (·.expiresAt)).getD 0
    tokenExpiry := ((c.bind db.joinTransport).map (·.expiresAt)).getD 0
    currentGeneration := c.any fun c => c.session = v.id && cs.any (·.generation = c.generation) }

/-- At most one row joins. -/
def turnAuthorizationRow (db : Db) (tenant broker session : Uuid) : Option TurnRow := do
  let t ← db.tenants.get tenant
  let b ← db.brokers.get broker
  let v ← db.sessions.get session
  return turnRow db t b v

/-- The answer and how long it holds. -/
def TurnRow.decision (r : TurnRow) (t : ℕ) : Bool × ℕ :=
  if r.baseAllowed = false ∨ r.brokerExpiry ≤ t then (false, 0)
  else if r.managed then
    if r.lineageAllowed = false ∨ r.accountExpiry ≤ t ∨ r.deviceExpiry ≤ t then (false, 0)
    -- the loss of a live session's token is recorded before the answer
    else if t < r.currentExpiry ∧ r.tokenExpiry ≤ t then (false, 0)
    else if r.currentGeneration = false then (false, 0)
    else if r.sessionAllowed = false ∨ r.sessionExpiry ≤ t then (false, 0)
    else (true, min (min r.brokerExpiry r.sessionExpiry)
      (min (min r.accountExpiry r.deviceExpiry) (min r.currentExpiry r.tokenExpiry)))
  else if r.sessionAllowed = false ∨ r.sessionExpiry ≤ t then (false, 0)
  else (true, min r.brokerExpiry r.sessionExpiry)

def authorizeTURNIdentitySnapshot (db : Db) (t : ℕ) (tenant broker session : Uuid) : Bool × ℕ :=
  match turnAuthorizationRow db tenant broker session with
  | none => (false, 0)
  | some r => r.decision t

/-! ### The same question, step by step -/

/-- The checks of the service, at time `t`. -/
def TurnAllowed (db : Db) (t : ℕ) (tenant broker session : Uuid) : Prop :=
  ∃ n b v, db.tenants.get tenant = some n ∧ n.status = .active ∧ n.relayEnabled = true ∧
    db.brokers.get broker = some b ∧ b.tenant = tenant ∧ t < b.leaseExpiresAt ∧
    db.session session = .ok v ∧ v.tenant = tenant ∧ v.broker = broker ∧
    v.peerAuthenticated = true ∧ v.relayApproved = true ∧ v.relayMode ≠ .never ∧
    t < v.expiresAt ∧ checkSessionAuth db t v = .ok () ∧ managedSession db t v = .ok ()

variable {cfg : Config} {now : ℕ} {db : Db} {t : ℕ}

/-! ### The decision and its deadline -/

def TurnRow.Passes (r : TurnRow) (t : ℕ) : Prop :=
  r.baseAllowed = true ∧ t < r.brokerExpiry ∧ r.sessionAllowed = true ∧ t < r.sessionExpiry ∧
  (r.managed = true → r.lineageAllowed = true ∧ t < r.accountExpiry ∧ t < r.deviceExpiry ∧
    ¬(t < r.currentExpiry ∧ r.tokenExpiry ≤ t) ∧ r.currentGeneration = true)

lemma TurnRow.decision_iff (r : TurnRow) : (r.decision t).1 = true ↔ r.Passes t := by
  unfold TurnRow.decision TurnRow.Passes
  cases hm : r.managed <;> simp only [Bool.false_eq_true, if_false, if_true] <;>
    split_ifs <;> grind

lemma TurnRow.decision_until {r : TurnRow} {u : ℕ} (h : r.decision t = (true, u))
    (hc : r.managed = true → r.currentGeneration = true → r.sessionExpiry ≤ r.currentExpiry)
    (t₂ : ℕ) : (r.decision t₂).1 = true ↔ t₂ < u := by
  obtain ⟨hb, -, hs, -, hl⟩ : r.Passes t := r.decision_iff.mp (by rw [h])
  rw [r.decision_iff, TurnRow.Passes]
  unfold TurnRow.decision at h
  cases hm : r.managed with
  | false =>
    rw [hm] at h
    simp only [Bool.false_eq_true, if_false] at h
    split_ifs at h
    all_goals simp only [Prod.mk.injEq, Bool.false_eq_true, false_and, true_and] at h
    simp only [hb, hs, Bool.false_eq_true, false_implies, and_true, true_and]
    omega
  | true =>
    rw [hm] at h
    obtain ⟨hla, -, -, -, hgen⟩ := hl hm
    have hle := hc hm hgen
    simp only [if_true] at h
    split_ifs at h
    all_goals simp only [Prod.mk.injEq, Bool.false_eq_true, false_and, true_and] at h
    simp only [hb, hs, hla, hgen, true_implies, and_true, true_and]
    omega

/-! ### The columns of the row -/

lemma AuthSession.lt_expiry {a : AuthSession} :
    t < a.expiry ↔ t < a.refreshExpiry ∧ (a.absoluteExpiry = 0 ∨ t < a.absoluteExpiry) := by
  unfold AuthSession.expiry
  split <;> omega

variable {n : Tenant} {b : Broker}

lemma checkAuthSession_iff_current {a : AuthSession} {tenant : Uuid}
    (hn : db.tenants.get tenant = some n) (hact : n.status = .active) (ht : a.tenant = tenant) :
    checkAuthSession db t a false = .ok () ↔
      a.current n.version tenant = true ∧ t < a.expiry := by
  rw [checkAuthSession_eq_ok, AuthSession.lt_expiry, ht, hn]
  simp only [AuthSession.current, Bool.and_eq_true, decide_eq_true_eq, Option.some.injEq,
    exists_eq_left', hact, ht]
  grind

/-- The columns of the session against its checks. -/
lemma session_columns {v : Session} (hn : db.tenants.get n.id = some n)
    (hact : n.status = .active) :
    ((v.tenant = n.id && v.broker = b.id && v.peerAuthenticated && v.relayApproved &&
        v.relayMode ≠ .never && (v.authSession = none ||
          (db.joinAuth v.authSession).any (·.current n.version n.id))) = true ∧
      t < (if v.authSession = none then v.expiresAt
        else min v.expiresAt (((db.joinAuth v.authSession).map (·.expiry)).getD 0))) ↔
    v.tenant = n.id ∧ v.broker = b.id ∧ v.peerAuthenticated = true ∧ v.relayApproved = true ∧
      v.relayMode ≠ .never ∧ t < v.expiresAt ∧ checkSessionAuth db t v = .ok () := by
  rw [checkSessionAuth_eq_ok]
  cases hv : v.authSession with
  | none => simp [and_assoc]
  | some i =>
    cases ha : db.authSessions.get i with
    | none => simp [Db.joinAuth, ha]
    | some a =>
      simp only [Db.joinAuth, Option.bind_some, ha, Option.any_some, Option.map_some,
        Option.getD_some, reduceCtorEq, decide_false, Bool.false_or, if_false, Bool.and_eq_true,
        decide_eq_true_eq, Option.some.injEq, forall_eq', exists_eq_left', lt_min_iff,
        and_assoc]
      constructor
      · rintro ⟨h1, h2, h3, h4, h5, hcur, hlt, hexp⟩
        have hten : a.tenant = n.id := by
          simp only [AuthSession.current, Bool.and_eq_true, decide_eq_true_eq] at hcur
          exact hcur.2
        exact ⟨h1, h2, h3, h4, h5, hlt, hten.trans h1.symm,
          (checkAuthSession_iff_current hn hact hten).mpr ⟨hcur, hexp⟩⟩
      rintro ⟨h1, h2, h3, h4, h5, hlt, hten, hchk⟩
      obtain ⟨hcur, hexp⟩ :=
        (checkAuthSession_iff_current hn hact (hten.trans h1)).mp hchk
      exact ⟨h1, h2, h3, h4, h5, hcur, hlt, hexp⟩

section Lineage

variable {c : ConnectionRecord} {n : Tenant}

lemma joinAuth_columns (hn : db.tenants.get c.tenant = some n) (hv : n.version = c.version)
    (hact : n.status = .active) {i : Uuid} :
    ((db.joinAuth (some i)).any (·.current c.version c.tenant) = true ∧
      t < ((db.joinAuth (some i)).map (·.expiry)).getD 0) ↔
    ∃ a, authAuthority db t i c.tenant c.version false = .ok a := by
  simp only [authAuthority_eq_ok, Db.joinAuth, Option.bind_some]
  cases ha : db.authSessions.get i with
  | none => simp
  | some a =>
    simp only [Option.any_some, Option.map_some, Option.getD_some, Option.some.injEq,
      exists_eq_left']
    constructor
    · rintro ⟨hcur, hexp⟩
      have h := hcur
      simp only [AuthSession.current, Bool.and_eq_true, decide_eq_true_eq] at h
      refine ⟨h.2, h.1.2, (checkAuthSession_iff_current hn hact h.2).mpr ⟨?_, hexp⟩⟩
      rw [hv]
      exact hcur
    rintro ⟨hten, hver, hchk⟩
    obtain ⟨hcur, hexp⟩ := (checkAuthSession_iff_current hn hact hten).mp hchk
    rw [hv] at hcur
    exact ⟨hcur, hexp⟩

lemma Sound.account_login (hs : Sound cfg now db) (hn : db.tenants.get c.tenant = some n)
    (hv : n.version = c.version) (hact : n.status = .active) {a : Token} (ha : a ∈ db.tokens)
    (hk : a.kind = .account) (hten : a.tenant = c.tenant) (hver : a.version = c.version)
    (hlt : t < a.expiresAt) :
    checkLogin db t a.authSession c.tenant c.version false = .ok () := by
  refine checkLogin_eq_ok.mpr fun i hi => ?_
  obtain ⟨s, hsm, hid, hrev, hst, hsv, hexp⟩ := hs.authority a ha i hi
  obtain ⟨-, -, habs⟩ := hs.deadlines s hsm
  have hle := hexp hk
  refine ⟨s, authAuthority_eq_ok.mpr ⟨get_eq_some.mpr ⟨hsm, hid⟩, hst.trans hten,
    hsv.trans hver, checkAuthSession_eq_ok.mpr ⟨hrev, by omega, ?_, n, ?_, ?_, .inl hact⟩⟩⟩
  · by_cases h0 : s.absoluteExpiry = 0
    · exact .inl h0
    · have := habs h0
      exact .inr (by omega)
  · rw [hst, hten]
    exact hn
  · rw [hv, hsv, hver]

/-- The columns of the caller against `callerLive`. -/
lemma caller_columns (hs : Sound cfg now db) (hn : db.tenants.get c.tenant = some n)
    (hv : n.version = c.version) (hact : n.status = .active) :
    (((c.authSession = none && (db.joinAccount c).isSome) || (c.authSession ≠ none &&
        (db.joinAuth c.authSession).any (·.current c.version c.tenant))) = true ∧
      t < db.accountExpiry c) ↔ callerLive db t c = true := by
  unfold callerLive Db.accountExpiry
  cases hc : c.authSession with
  | some i =>
    simp only [isOk_eq_true, ← joinAuth_columns hn hv hact]
    simp
  | none =>
    simp only [connectionCredential_eq_true, Db.joinAccount]
    cases ha : db.tokens.get c.accountHash with
    | none => simp
    | some a =>
      obtain ⟨ham, -⟩ := get_eq_some.mp ha
      by_cases hf : a.kind = .account ∧ a.tenant = c.tenant ∧ a.version = c.version ∧
          a.broker = none
      · obtain ⟨h1, h2, h3, h4⟩ := hf
        simp only [h1, h2, h3, h4, Option.filter_some, decide_true, Bool.and_self, if_true,
          Option.isSome_some, Option.map_some, Option.getD_some, Bool.true_or, true_and,
          Option.some.injEq, exists_eq_left']
        exact ⟨fun hlt => ⟨hlt, hs.account_login hn hv hact ham h1 h2 h3 hlt⟩, fun h => h.1⟩
      have : ¬(a.kind = .account ∧ a.tenant = c.tenant) ∨ ¬a.version = c.version ∨
          ¬a.broker = none := by tauto
      simp only [Option.filter_some]
      grind

lemma device_columns (hn : db.tenants.get c.tenant = some n) (hv : n.version = c.version)
    (hact : n.status = .active) :
    ((db.joinDevice c).any (fun d => d.authSession = none ||
        (db.joinAuth d.authSession).any (·.current c.version c.tenant)) = true ∧
      t < db.deviceExpiry c) ↔ deviceLive db t c = true := by
  simp only [deviceLive, connectionCredential_eq_true, checkLogin_eq_ok,
    ← joinAuth_columns hn hv hact]
  cases hd : db.tokens.get c.deviceHash with
  | none =>
    have hj : db.joinDevice c = none := by simp [Db.joinDevice, hd]
    simp [hj]
  | some d =>
    by_cases hf : d.kind = .device ∧ d.tenant = c.tenant ∧ d.version = c.version ∧
        d.broker = some c.broker
    · obtain ⟨h1, h2, h3, h4⟩ := hf
      have hj : db.joinDevice c = some d := by simp [Db.joinDevice, hd, h1, h2, h3, h4]
      cases ha : d.authSession with
      | none => simp [Db.deviceExpiry, hj, h1, h2, h3, h4, ha]
      | some i =>
        simp only [Db.deviceExpiry, hj, h1, h2, h3, h4, ha, Option.any_some, reduceCtorEq,
          decide_false, Bool.false_or, if_false, true_and, Option.some.injEq, exists_eq_left',
          forall_eq', lt_min_iff]
        tauto
    have hj : db.joinDevice c = none := by
      simp only [Db.joinDevice, hd, Option.filter_some]
      grind
    simp only [hj, Option.any_none, Bool.false_eq_true, false_and, Option.some.injEq,
      exists_eq_left', false_iff]
    tauto

lemma lineage_columns (hs : Sound cfg now db) :
    (db.lineageAllowed c = true ∧ t < db.accountExpiry c ∧ t < db.deviceExpiry c) ↔
    c.revoked = none ∧
      (∃ n, db.tenants.get c.tenant = some n ∧ n.version = c.version ∧ n.status = .active) ∧
      callerLive db t c = true ∧ deviceLive db t c = true := by
  unfold Db.lineageAllowed
  cases hn : db.tenants.get c.tenant with
  | none => simp
  | some n =>
    by_cases hf : n.version = c.version ∧ n.status = .active
    · obtain ⟨hv, hact⟩ := hf
      rw [← caller_columns hs hn hv hact, ← device_columns hn hv hact]
      simp only [Option.any_some, hv, hact, decide_true, Bool.and_true, Bool.and_eq_true,
        decide_eq_true_eq, Option.some.injEq, exists_eq_left', true_and]
      tauto
    · simp only [Option.any_some, Option.some.injEq, exists_eq_left']
      grind

lemma current_columns :
    ¬(t < ((db.sessions.get c.session).map (·.expiresAt)).getD 0 ∧
      ((db.joinTransport c).map (·.expiresAt)).getD 0 ≤ t) ↔ credentialLost db t c = false := by
  rw [← Bool.not_eq_true, not_iff_not]
  simp only [credentialLost, Db.joinTransport, any_eq_true, Bool.and_eq_true,
    decide_eq_true_eq, Bool.not_eq_true', any_eq_false, Bool.and_eq_false_iff,
    decide_eq_false_iff_not]
  cases hv : db.sessions.get c.session with
  | none =>
    have := get_eq_none.mp hv
    simp only [Option.map_none, Option.getD_none, Nat.not_lt_zero, false_and, false_iff]
    rintro ⟨v, hm, ⟨hid, -⟩, -⟩
    exact this v hm hid
  | some v =>
    obtain ⟨hvm, hvid⟩ := get_eq_some.mp hv
    have huniq : ∀ w ∈ db.sessions, w.id = c.session → w = v := fun w hw hid =>
      eq_of_key_eq hw hvm (hid.trans hvid.symm)
    simp only [Option.map_some, Option.getD_some, Option.any_some]
    constructor
    · rintro ⟨hlt, hle⟩
      refine ⟨v, hvm, ⟨hvid, hlt⟩, fun k hk => ?_⟩
      by_contra hno
      push Not at hno
      obtain ⟨⟨⟨⟨h1, h2⟩, h3⟩, h4⟩, h5⟩ := hno
      rw [get_eq_some.mpr ⟨hk, h1⟩, Option.filter_some] at hle
      simp only [h2, h3, h4, decide_true, Bool.and_self, if_true, Option.map_some,
        Option.getD_some] at hle
      omega
    rintro ⟨w, hw, ⟨hid, hlt⟩, hno⟩
    obtain rfl := huniq w hw hid
    refine ⟨hlt, ?_⟩
    cases hk : db.tokens.get c.tokenHash with
    | none => simp
    | some k =>
      obtain ⟨hkm, hkh⟩ := get_eq_some.mp hk
      have := hno k hkm
      rw [Option.filter_some]
      split_ifs with hp
      · simp only [Bool.and_eq_true, decide_eq_true_eq] at hp
        simp only [Option.map_some, Option.getD_some]
        grind
      · simp

end Lineage

/-! ### The query and the checks -/

lemma managed_columns (hs : Sound cfg now db) {row : SessionRow} :
    ((turnRow db n b row).managed = true →
      (turnRow db n b row).lineageAllowed = true ∧ t < (turnRow db n b row).accountExpiry ∧
      t < (turnRow db n b row).deviceExpiry ∧
      ¬(t < (turnRow db n b row).currentExpiry ∧ (turnRow db n b row).tokenExpiry ≤ t) ∧
      (turnRow db n b row).currentGeneration = true) ↔
    managedSession db t (db.placed row) = .ok () := by
  rw [managedSession_eq_ok]
  simp only [turnRow, Db.placed]
  cases hcs : db.connectionSessions.get row.id with
  | none => simp
  | some cs =>
    cases hc : db.connections.get cs.connection with
    | none => simp [hc]
    | some c =>
      simp only [Option.isSome_some, Option.bind_some, hc, Option.any_some, Option.map_some,
        Option.getD_some, true_implies, Option.some.injEq, forall_eq', exists_eq_left',
        current_columns, checkConnection_eq_ok, Bool.and_eq_true, decide_eq_true_eq]
      have := lineage_columns (t := t) (c := c) hs
      grind

lemma turnAuthorizationRow_passes (hs : Sound cfg now db) {tenant broker session : Uuid} :
    (∃ r, turnAuthorizationRow db tenant broker session = some r ∧ r.Passes t) ↔
      TurnAllowed db t tenant broker session := by
  simp only [turnAuthorizationRow, TurnAllowed, Option.bind_eq_bind, Option.bind_eq_some_iff,
    Option.pure_def, Option.some.injEq]
  constructor
  · rintro ⟨r, ⟨n, hn, b, hb, row, hrow, rfl⟩, hbase, hlease, hses, hexp, hman⟩
    obtain rfl := key_of_get hn
    obtain rfl := key_of_get hb
    simp only [turnRow, Bool.and_eq_true, decide_eq_true_eq] at hbase
    obtain ⟨⟨hact, hrelay⟩, hbt⟩ := hbase
    have hcols := (session_columns (b := b) (v := db.placed row) hn hact).mp ⟨hses, hexp⟩
    obtain ⟨h1, h2, h3, h4, h5, h6, h7⟩ := hcols
    exact ⟨n, b, db.placed row, hn, hact, hrelay, hb, hbt, hlease,
      session_eq_ok.mpr ⟨row, hrow, rfl⟩, h1, h2, h3, h4, h5, h6, h7, (managed_columns hs).mp hman⟩
  rintro ⟨n, b, v, hn, hact, hrelay, hb, hbt, hlease, hv, h1, h2, h3, h4, h5, h6, h7, h8⟩
  obtain ⟨row, hrow, rfl⟩ := session_eq_ok.mp hv
  obtain rfl := key_of_get hn
  obtain rfl := key_of_get hb
  obtain ⟨hses, hexp⟩ :=
    (session_columns (b := b) (v := db.placed row) hn hact).mpr ⟨h1, h2, h3, h4, h5, h6, h7⟩
  refine ⟨_, ⟨n, hn, b, hb, row, hrow, rfl⟩, ?_, hlease, hses, hexp, (managed_columns hs).mpr h8⟩
  simp [turnRow, hact, hrelay, hbt]

lemma turnRow_current {row : SessionRow} (hrow : db.sessions.get row.id = some row)
    (hc : (turnRow db n b row).currentGeneration = true) :
    (turnRow db n b row).sessionExpiry ≤ (turnRow db n b row).currentExpiry := by
  simp only [turnRow, Option.any_eq_true, Bool.and_eq_true, decide_eq_true_eq] at hc
  obtain ⟨c, hc, hid, -⟩ := hc
  simp only [turnRow, hc, Option.bind_some, hid, hrow, Option.map_some, Option.getD_some]
  split_ifs
  · exact le_rfl
  · exact min_le_left _ _

/-- The joined query allows the relay exactly when the checks of the service do, and while no row
changes the answer holds up to the returned deadline and no longer. -/
theorem authorizeTURNIdentitySnapshot_iff {s : Server} (hs : s.Reachable cfg)
    (tenant broker session : Uuid) (t : ℕ) :
    ((authorizeTURNIdentitySnapshot s.db t tenant broker session).1 = true ↔
      TurnAllowed s.db t tenant broker session) ∧
    ∀ u, authorizeTURNIdentitySnapshot s.db t tenant broker session = (true, u) →
      ∀ t₂, t ≤ t₂ →
        ((authorizeTURNIdentitySnapshot s.db t₂ tenant broker session).1 = true ↔ t₂ < u) := by
  constructor
  · rw [← turnAuthorizationRow_passes hs.inv.sound, authorizeTURNIdentitySnapshot]
    cases hr : turnAuthorizationRow s.db tenant broker session with
    | none => simp
    | some r => simp [r.decision_iff]
  intro u hu t₂ _
  unfold authorizeTURNIdentitySnapshot at hu ⊢
  cases hr : turnAuthorizationRow s.db tenant broker session with
  | none =>
    rw [hr] at hu
    simp at hu
  | some r =>
    rw [hr] at hu
    simp only [turnAuthorizationRow, Option.bind_eq_bind, Option.bind_eq_some_iff,
      Option.pure_def, Option.some.injEq] at hr
    obtain ⟨n, -, b, -, row, hrow, rfl⟩ := hr
    obtain rfl := key_of_get hrow
    exact TurnRow.decision_until hu (fun _ hc => turnRow_current hrow hc) t₂

/-- The approved session of a lineage has the relay until its broker's lease ends. -/
theorem authorizeTURNIdentitySnapshot_iff_managed :
    TurnAllowed managedServer.db 6 1 3 6 ∧
    authorizeTURNIdentitySnapshot managedServer.db 6 1 3 6 = (true, 92) ∧
    ∀ t₂, 6 ≤ t₂ →
      ((authorizeTURNIdentitySnapshot managedServer.db t₂ 1 3 6).1 = true ↔ t₂ < 92) := by
  obtain ⟨hiff, huntil⟩ := authorizeTURNIdentitySnapshot_iff managedServer_reachable 1 3 6 6
  have hval : authorizeTURNIdentitySnapshot managedServer.db 6 1 3 6 = (true, 92) := by
    decide +kernel
  exact ⟨hiff.mp (by rw [hval]), hval, huntil 92 hval⟩

end OhecoBroker.Control
