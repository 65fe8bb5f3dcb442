/-
The kinds of change the control server makes to its tables.  A handler commits a sequence of
moves, each a group of statements that keeps the tables sound by itself.

* `Draws`, `Draws.Fresh`: the random values of a call, none of them in the tables;
* `Move`, `Moves`: one group of statements with what it may rely on, and what one call does;
* `Move.sound`, `Moves.sound`: moves keep the tables sound.
-/
import OhecoBroker.Control.Sound

namespace OhecoBroker.Control

open Lib Relation

/-! ### Random values -/

def Db.knowsHash (db : Db) (h : Hash) : Bool :=
  db.uses h ||
  db.connections.any (fun c => c.accountHash = h || c.deviceHash = h || c.tokenHash = h) ||
  db.connectionSessions.any fun e => e.tokenHash = h

def Db.knowsId (db : Db) (i : Uuid) : Bool :=
  db.tenants.any (fun t => t.id = i) ||
  db.tokens.any (fun t => t.tenant = i || t.broker = some i || t.session = some i ||
    t.authSession = some i) ||
  db.brokers.any (fun b => b.id = i) ||
  db.sessions.any (fun v => v.id = i || v.broker = i || v.authSession = some i) ||
  db.authSessions.any (fun a => a.id = i) ||
  db.connections.any (fun c => c.id = i || c.broker = i || c.session = i ||
    c.authSession = some i) ||
  db.connectionSessions.any fun e => e.session = i || e.connection = i

/-- The secrets and identifiers a call draws, with the device tokens it makes or renews. -/
structure Draws where
  hashes : List Hash := []
  ids : List Uuid := []
  devices : List Hash := []
  /-- A device token is renewed by its own bearer. -/
  ownBearer : Bool := true

/-- Nothing drawn is in the tables. -/
def Draws.Fresh (D : Draws) (db : Db) : Prop :=
  (∀ h ∈ D.hashes, db.knowsHash h = false) ∧ ∀ i ∈ D.ids, db.knowsId i = false

-- by the lists: the types of hashes and identifiers are too large to go through
instance (D : Draws) (db : Db) : Decidable (D.Fresh db) :=
  @instDecidableAnd _ _ (List.decidableBAll (fun h => db.knowsHash h = false) D.hashes)
    (List.decidableBAll (fun i => db.knowsId i = false) D.ids)

variable {cfg : Config} {now : ℕ} {D : Draws} {db db' : Db}

section Fresh

variable {h : Hash} {i : Uuid}

lemma Draws.Fresh.hash (hD : D.Fresh db) (hh : h ∈ D.hashes) :
    (∀ t ∈ db.tokens, t.hash ≠ h) ∧ (∀ a ∈ db.authSessions, a.tokenHash ≠ h) ∧
    (∀ c ∈ db.connections, c.accountHash ≠ h ∧ c.deviceHash ≠ h) := by
  have := hD.1 h hh
  simp only [Db.knowsHash, Bool.or_eq_false_iff, Table.any_eq_false, not_uses,
    decide_eq_false_iff_not] at this
  obtain ⟨⟨⟨h1, h2⟩, h3⟩, -⟩ := this
  exact ⟨h1, fun a ha => (h2 a ha).2.2, fun c hc => ⟨(h3 c hc).1.1, (h3 c hc).1.2⟩⟩

lemma Draws.Fresh.id (hD : D.Fresh db) (hi : i ∈ D.ids) :
    (∀ t ∈ db.tokens, t.session ≠ some i ∧ t.authSession ≠ some i) ∧
    (∀ c ∈ db.connections, c.session ≠ i ∧ c.authSession ≠ some i) ∧
    ∀ e ∈ db.connectionSessions, e.session ≠ i := by
  have := hD.2 i hi
  simp only [Db.knowsId, Bool.or_eq_false_iff, Table.any_eq_false,
    decide_eq_false_iff_not] at this
  obtain ⟨⟨⟨⟨⟨⟨-, h2⟩, -⟩, -⟩, -⟩, h6⟩, h7⟩ := this
  exact ⟨fun t ht => ⟨(h2 t ht).1.2, (h2 t ht).2⟩, fun c hc => ⟨(h6 c hc).1.2, (h6 c hc).2⟩,
    fun e he => (h7 e he).1⟩

end Fresh

/-! ### Moves -/

/-- The login session backs a new row. -/
def Db.vouches (db : Db) (i : Uuid) (tenant : Uuid) (version : ℕ) : Prop :=
  ∃ a ∈ db.authSessions, a.id = i ∧ a.revoked = none ∧ a.tenant = tenant ∧ a.version = version

def Db.roomForLineage (db : Db) (cfg : Config) (tenant : Uuid) : Prop :=
  (db.connections.count fun c => c.tenant = tenant && c.revoked = none) <
    cfg.maxSessionsPerTenant ∧ (db.connections.count fun _ => true) < 10000

/-- One group of statements of a call that draws `D`. -/
inductive Move (cfg : Config) (now : ℕ) (D : Draws) (db : Db) : Db → Prop
  | post {m messages} (hi : db.messages.insert m = some messages)
      (hm : 1 ≤ m.sequence ∧ m.sequence ≤ cfg.maxMessagesPerDirection) :
      Move cfg now D db (db.withMessages messages)
  | addTenant {t tenants} (hi : db.tenants.insert t = some tenants) :
      Move cfg now D db (db.withTenants tenants)
  | changeTenants (p f hf) (h : ∀ t ∈ db.tenants, p t → t.version < (f t).version ∨
      ((f t).version = t.version ∧ (t.status = .active → (f t).status = .active))) :
      Move cfg now D db (db.updateTenants p f hf)
  | addBroker {b brokers} (hi : db.brokers.insert b = some brokers) (hb : b.id ∈ D.ids)
      (hn : (db.brokers.count fun c => c.tenant = b.tenant) < 128) :
      Move cfg now D db (db.withBrokers brokers)
  | changeBrokers (p f hf) (ht : ∀ b, (f b).tenant = b.tenant) :
      Move cfg now D db (db.updateBrokers p f hf)
  | removeBroker (id) : Move cfg now D db ((db.deleteConnections fun c => c.broker = id).withBrokers
      (db.brokers.delete fun b => b.id = id))
  | mark (p reason) :
      Move cfg now D db (db.updateConnections p fun c => { c with revoked := some reason })
  | forget (p) (h : ∀ c ∈ db.connections, p c → ∃ t t', t ≤ now ∧ t' ≤ now ∧ callerDead db t t' c) :
      Move cfg now D db (db.deleteConnections p)
  | dropSessions (p) : Move cfg now D db (db.deleteSessions p)
  | dropTokens (q) (h : ∀ t ∈ db.tokens, q t → t.kind = .session → ∀ v ∈ db.sessions,
      t.session = some v.id → v.expiresAt ≤ now) : Move cfg now D db (db.deleteTokens q)
  | addToken {t tokens} (hi : db.tokens.insert t = some tokens) (hD : t.hash ∈ D.hashes)
      (hk : t.kind ≠ .session) (hs : t.session = none)
      (ha : ∀ i, t.authSession = some i → t.kind = .device ∧ db.vouches i t.tenant t.version)
      (hnew : ∀ a ∈ db.authSessions, a.tokenHash ≠ t.hash)
      (hdev : ∀ c ∈ db.connections, c.accountHash ≠ t.hash ∧ c.deviceHash ≠ t.hash)
      (hexp : ∀ i, t.authSession = some i → t.hash ∈ D.devices ∧
        ∀ a ∈ db.authSessions, a.id = i → t.expiresAt ≤ a.refreshExpiry) :
      Move cfg now D db (db.withTokens tokens)
  | touchDevice (q e) (h : ∀ t, q t → t.kind = .device) (hd : ∀ t, q t → t.hash ∈ D.devices)
      (hexp : D.ownBearer → ∀ t ∈ db.tokens, q t → ∀ i, t.authSession = some i →
        ∀ a ∈ db.authSessions, a.id = i → e ≤ a.refreshExpiry) :
      Move cfg now D db (db.updateTokens q fun t => { t with expiresAt := e })
  | relabel (p f hf) (h : ∀ v, (f v).tenant = v.tenant ∧ (f v).broker = v.broker ∧
      (f v).relayMode = v.relayMode ∧ (f v).expiresAt = v.expiresAt ∧
      (f v).authSession = v.authSession) : Move cfg now D db (db.updateSessions p f hf)
  | extend (id e) (h : ∀ v ∈ db.sessions, v.id = id → now < v.expiresAt) :
      Move cfg now D db (extendSession db id e)
  | openSession {v hash version db'} (ho : openSession db v hash version = .ok db')
      (ht : ∀ t ∈ db.tokens, t.session ≠ some v.id) (hc : ∀ c ∈ db.connections, c.session ≠ v.id)
      (he : ∀ e ∈ db.connectionSessions, e.session ≠ v.id)
      (ha : ∀ i, v.authSession = some i → db.vouches i v.tenant version)
      (hn : (db.sessions.count fun w => w.tenant = v.tenant && now < w.expiresAt) <
        cfg.maxSessionsPerTenant ∧ (db.sessions.count fun w => now < w.expiresAt) < 10000) :
      Move cfg now D db db'
  | connect {p old row d} (hc : Connects db p old row) (hi : row.session ∈ D.ids)
      (ho : openGeneration cfg db now p old row = .ok d)
      (hn : old = none → db.roomForLineage cfg p.tenant) : Move cfg now D db d.db
  | login {draw tenant version db' c} (hi : issueAuthSession cfg db now draw tenant version =
      .ok (db', c)) (hh : cfg.tokenHash draw.token ∈ D.hashes) (hid : draw.id ∈ D.ids)
      (hnew : ∀ a ∈ db.authSessions, a.tokenHash ≠ cfg.tokenHash draw.token)
      (hfree : ∀ c ∈ db.connections, c.authSession ≠ some draw.id) : Move cfg now D db db'
  | rotate {a request hash next nextRefresh d} (ha : db.authSessions.get a.id = some a)
      (hc : checkAuthSession db now a true = .ok ()) (hn : db.uses next = false)
      (hr : rotateAuth cfg db now a request hash next nextRefresh = .ok d) : Move cfg now D db d.db
  | kill (p reason) (h : ∀ a ∈ db.authSessions, p a → ∀ t ∈ db.tokens, t.authSession ≠ some a.id) :
      Move cfg now D db (db.updateAuthSessions p fun a => { a with revoked := some reason })
  | collect (p) (h : ∀ a ∈ db.authSessions, p a → ∀ t ∈ db.tokens, t.authSession ≠ some a.id)
      (hd : ∀ a ∈ db.authSessions, p a → a.revoked ≠ none ∨ a.refreshExpiry ≤ now) :
      Move cfg now D db (db.withAuthSessions (db.authSessions.delete p))

/-- What one call does. -/
abbrev Moves (cfg : Config) (now : ℕ) (D : Draws) : Db → Db → Prop :=
  ReflTransGen (Move cfg now D)

/-- **Every move keeps the tables sound.** -/
theorem Move.sound (h : Sound cfg now db) (m : Move cfg now D db db') : Sound cfg now db' := by
  cases m with
  | post | addTenant | changeTenants | addBroker | changeBrokers =>
    exact h.congr rfl rfl rfl rfl
  | removeBroker id => exact (h.deleteConnections _).congr rfl rfl rfl rfl
  | mark p reason =>
    exact h.updateConnections _ _ _ fun _ => ⟨rfl, rfl, rfl, rfl, rfl, rfl, rfl, rfl⟩
  | forget p hp => exact h.deleteConnections p
  | dropSessions p => exact h.deleteSessions p
  | dropTokens q hq => exact h.deleteTokens q hq
  | @addToken t tokens hi hD hk hs ha hnew hdev hexp =>
    refine h.addToken hi hk hs ?_ (fun _ a haa he => absurd he (hnew a haa)) fun _ c hc =>
      (hdev c hc).2
    intro i hti
    obtain ⟨hkd, a, haa, h1, h2, h3, h4⟩ := ha i hti
    exact ⟨a, haa, h1, h2, h3, h4, by simp [hkd]⟩
  | touchDevice q e hq hd hexp =>
    refine h.touch q e (fun t _ hqt => ?_) fun t _ hqt hk => ?_
    · simp [hq t hqt]
    · simp [hq t hqt] at hk
  | relabel p f hf hk => exact h.relabel p f hf hk
  | extend id e hl => exact h.extendSession id e hl
  | openSession ho ht hc he ha hn => exact h.openSession ho ht hc ha
  | connect hc hi ho hn => exact h.openGeneration hc ho
  | login hi hh hid hnew hfree => exact h.issueAuthSession hi hnew
  | rotate ha hc hn hr => exact h.rotateAuth ha (checkAuthSession_eq_ok.mp hc).1 hn hr
  | kill p reason hp => exact h.updateAuthSessions _ _ _ (fun _ => ⟨rfl, rfl, rfl, rfl⟩) hp
  | collect p hp hd => exact h.deleteAuthSessions p hp

lemma Moves.sound (h : Sound cfg now db) (m : Moves cfg now D db db') : Sound cfg now db' := by
  induction m with
  | refl => exact h
  | tail _ m ih => exact m.sound ih

end OhecoBroker.Control
