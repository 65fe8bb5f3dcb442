/-
When the server accepts a lineage, and what a request for its next session can do.

* `checkConnection_eq_ok`: a lineage passes exactly when it is unrevoked, its tenant is active at
  its version, both credentials are live and its live session has its token;
* `managedSession_eq_ok`, `checkSessionAuth_eq_ok`: the checks on a session;
* `connectionSession_cases`: a successful request replays the last session, advances the lineage
  or creates it.
-/
import OhecoBroker.Control.Authority
import OhecoBroker.Control.Connections

namespace OhecoBroker.Control

open Lib

variable {cfg : Config} {db : Db} {now : ℕ}

lemma connectionCredential_eq_true {hash : Hash} {kind : Kind} {tenant : Uuid}
    {broker : Option Uuid} {version : ℕ} :
    connectionCredential db now hash kind tenant broker version = true ↔
      ∃ t, db.tokens.get hash = some t ∧ t.kind = kind ∧ t.tenant = tenant ∧
        t.version = version ∧ now < t.expiresAt ∧ t.broker = broker ∧
        checkLogin db now t.authSession tenant version false = .ok () := by
  unfold connectionCredential
  cases hg : db.tokens.get hash with
  | none => simp
  | some t => simp [isOk_eq_true, and_assoc, exists_unit]

variable {u : Unit} {v : Session}

lemma checkConnection_eq_ok {c : ConnectionRecord} : checkConnection db now c = .ok u ↔
      c.revoked = none ∧
      (∃ t, db.tenants.get c.tenant = some t ∧ t.version = c.version ∧ t.status = .active) ∧
      callerLive db now c = true ∧ deviceLive db now c = true ∧
      credentialLost db now c = false := by
  simp only [checkConnection, bind_eq_ok, found_eq_ok, reject_eq_ok, exists_unit]
  constructor
  · rintro ⟨h1, t, ht, h2, h3, h4⟩
    push Not at h1 h2 h3
    exact ⟨h1, ⟨t, ht, h2⟩, h3.1, h3.2, by simpa using h4⟩
  · rintro ⟨h1, ⟨t, ht, h2⟩, h3, h4, h5⟩
    exact ⟨by simp [h1], t, ht, by simp [h2], by simp [h3, h4], by simp [h5]⟩

lemma managedSession_eq_ok : managedSession db now v = .ok u ↔
      ∀ i, v.connection = some i → ∃ c, db.connections.get i = some c ∧
        checkConnection db now c = .ok () ∧ c.session = v.id ∧ c.generation = v.generation := by
  unfold managedSession
  cases hv : v.connection with
  | none => simp
  | some i =>
    simp only [bind_eq_ok, found_eq_ok, reject_eq_ok, exists_unit, Option.some.injEq,
      forall_eq']
    push Not
    rfl

lemma checkSessionAuth_eq_ok : checkSessionAuth db now v = .ok u ↔
      ∀ i, v.authSession = some i → ∃ a, db.authSessions.get i = some a ∧ a.tenant = v.tenant ∧
        checkAuthSession db now a false = .ok () := by
  unfold checkSessionAuth
  cases hv : v.authSession with
  | none => simp
  | some i =>
    simp only [bind_eq_ok, found_eq_ok, reject_eq_ok, exists_unit, Option.some.injEq,
      forall_eq', not_not]

/-! ### Sessions as they are read -/

/-- A session row with its place in a lineage. -/
def Db.placed (db : Db) (row : SessionRow) : Session :=
  ⟨row, (db.connectionSessions.get row.id).map (·.connection),
    ((db.connectionSessions.get row.id).map (·.generation)).getD 0⟩

lemma session_eq_ok {id : Uuid} :
    db.session id = .ok v ↔ ∃ row, db.sessions.get id = some row ∧ v = db.placed row := by
  simp only [Db.session, bind_eq_ok, found_eq_ok, pure_eq_ok]
  constructor
  · rintro ⟨row, hrow, rfl⟩
    refine ⟨row, hrow, ?_⟩
    rw [Db.placed, Table.key_of_get hrow]
  · rintro ⟨row, hrow, rfl⟩
    refine ⟨row, hrow, ?_⟩
    rw [Db.placed, Table.key_of_get hrow]

/-! ### The next session of a lineage -/

structure Admits (db : Db) (now : ℕ) (hash : Hash) (p : Principal) (broker : Uuid)
    (relay : RelayMode) (c : ConnectionRecord) : Prop where
  tenant : c.tenant = p.tenant
  broker : c.broker = broker
  relay : c.relay = relay
  bound : c.boundTo p hash = true
  check : checkConnection db now c = .ok ()

abbrev newRow (cfg : Config) (hash : Hash) (p : Principal) (id broker : Uuid) (relay : RelayMode)
    (expected : ℕ) (request : Uuid) (token : Secret) (sid : Uuid) (device : Hash) :
    ConnectionRecord where
  id := id
  tenant := p.tenant
  broker := broker
  relay := relay
  accountHash := hash
  deviceHash := device
  version := p.version
  generation := 1
  session := sid
  request := request
  priorGeneration := expected
  tokenHash := cfg.tokenHash token
  authSession := p.authSession

/-- **What a request for a session can do.** -/
theorem connectionSession_cases {hash : Hash} {p : Principal} {sid : Uuid} {id : Option Uuid}
    {r : ConnectionRequest} {d : Done}
    (h : connectionSession cfg db now hash p sid id r = .ok d) :
    ∃ i broker request token expected relay,
      id = some i ∧ r = ⟨some broker, some relay, some expected, some request, some token⟩ ∧
      txPrincipal db now hash p = .ok () ∧
      (∃ b, db.brokers.get broker = some b ∧ b.tenant = p.tenant ∧ now < b.leaseExpiresAt) ∧
      ((∃ c v, db.connections.get i = some c ∧ Admits db now hash p broker relay c ∧
          request = c.request ∧ expected = c.priorGeneration ∧
          cfg.tokenHash token = c.tokenHash ∧ db.sessions.get c.session = some v ∧
          now < v.expiresAt ∧
          d = { db, code := 200,
                reply := .connection c.session c.id c.generation v.expiresAt }) ∨
       (∃ c, db.connections.get i = some c ∧ Admits db now hash p broker relay c ∧
          request ≠ c.request ∧ expected = c.generation ∧ c.generation < maxGeneration ∧
          openGeneration cfg db now p (some c)
            (c.advance expected request (cfg.tokenHash token) sid) = .ok d) ∨
       (db.connections.get i = none ∧ expected = 0 ∧
          ((db.connections.count fun c => c.tenant = p.tenant && c.revoked = none) <
            cfg.maxSessionsPerTenant ∧ (db.connections.count fun _ => true) < 10000) ∧ ∃ t,
          db.deviceToken now p.tenant broker p.version = some t ∧
          openGeneration cfg db now p none
            (newRow cfg hash p i broker relay expected request token sid t.hash) = .ok d)) := by
  obtain ⟨broker, relay, expected, request, token⟩ := r
  simp only [connectionSession, bind_eq_ok, found_eq_ok, reject_eq_ok, exists_unit] at h
  obtain ⟨i, rfl, broker, rfl, request, rfl, token, rfl, expected, rfl, relay, rfl, hp, hadm, b, hb,
    hl, -, h⟩ := h
  obtain ⟨hb, hbt⟩ := Option.filter_eq_some_iff.mp hb
  refine ⟨i, broker, request, token, expected, relay, rfl, rfl, hp,
    ⟨b, hb, of_decide_eq_true hbt, by omega⟩, ?_⟩
  cases hold : db.connections.get i with
  | none =>
    rw [hold] at hadm h
    simp only [admitLineage, reject_eq_ok, not_not] at hadm
    simp only [newLineage, bind_eq_ok, found_eq_ok, reject_eq_ok, exists_unit, pure_eq_ok] at h
    obtain ⟨row, ⟨hown, hall, t, ht, rfl⟩, ho⟩ := h
    exact .inr (.inr ⟨rfl, hadm, ⟨not_le.mp hown, not_le.mp hall⟩, t, ht, ho⟩)
  | some c =>
    rw [hold] at hadm h
    simp only [admitLineage, bind_eq_ok, reject_eq_ok, exists_unit] at hadm
    obtain ⟨hscope, hcheck⟩ := hadm
    push Not at hscope
    have hA : Admits db now hash p broker relay c :=
      ⟨hscope.1, hscope.2.1, hscope.2.2.1, hscope.2.2.2, hcheck⟩
    dsimp only at h
    split at h
    · rename_i hreq
      simp only [replaySession, bind_eq_ok, found_eq_ok, reject_eq_ok, exists_unit,
        pure_eq_ok] at h
      obtain ⟨hm, v, hv, hexp, rfl⟩ := h
      push Not at hm
      exact .inl ⟨c, v, rfl, hA, hreq, hm.1, hm.2, hv, by omega, rfl⟩
    rename_i hreq
    simp only [bind_eq_ok, reject_eq_ok, exists_unit, not_not] at h
    obtain ⟨hgen, hmax, ho⟩ := h
    exact .inr (.inl ⟨c, rfl, hA, hreq, hgen, by omega, ho⟩)

end OhecoBroker.Control
