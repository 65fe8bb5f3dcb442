/-
The end of a login session is complete and confined.  `revokeAuthSession` finds what rests on a
login session by several queries; that they find everything, and nothing else, is due to the
agreement between the tables.

* `Complete`, `Confined`: nothing that rested on the login session is live afterwards, and every
  other row is as it was;
* `mem_revoked_tokens`, `mem_revoked_sessions`, `mem_revoked_connections`: the tables after the
  revocation;
* `Sound.complete`, `Sound.confined`: both hold for sound tables;
* `revokeAuthSession_complete_confined`: **they hold in every reachable state**.
-/
import OhecoBroker.Control.Server

namespace OhecoBroker.Control

open Lib

variable {cfg : Config} {db : Db} {now : ℕ}

/-! ### What rests on a login session -/

def Db.IssuedDevice (db : Db) (a : Uuid) (h : Hash) : Prop :=
  ∃ t ∈ db.tokens, t.kind = .device ∧ t.authSession = some a ∧ t.hash = h

def Db.IssuedBroker (db : Db) (a b : Uuid) : Prop :=
  ∃ t ∈ db.tokens, t.kind = .device ∧ t.authSession = some a ∧ t.broker = some b

/-- Nothing that rested on `a` is live. -/
structure Complete (db db' : Db) (a : Uuid) (now : ℕ) : Prop where
  tokens : ∀ t ∈ db'.tokens, t.authSession ≠ some a
  connections : ∀ c ∈ db'.connections,
    c.authSession = some a ∨ db.IssuedDevice a c.deviceHash → c.revoked ≠ none
  sessions : ∀ v ∈ db'.sessions, now < v.expiresAt →
    v.authSession ≠ some a ∧ ¬db.IssuedBroker a v.broker
  sessionTokens : ∀ v ∈ db.sessions, v.authSession = some a ∨ db.IssuedBroker a v.broker →
    ∀ t ∈ db'.tokens, t.kind = .session → t.session ≠ some v.id
  brokers : ∀ b ∈ db'.brokers, db.IssuedBroker a b.id → b.leaseExpiresAt = 0

/-- Rows that rest on nothing of `a` stay. -/
structure Confined (db db' : Db) (a : Uuid) : Prop where
  tokens : ∀ t : Token, t.authSession ≠ some a → (∀ b, t.broker = some b → ¬db.IssuedBroker a b) →
    (t ∈ db'.tokens ↔ t ∈ db.tokens)
  sessions : ∀ v : SessionRow, v.authSession ≠ some a → ¬db.IssuedBroker a v.broker →
    (v ∈ db'.sessions ↔ v ∈ db.sessions)
  connections : ∀ c : ConnectionRecord, c.authSession ≠ some a → ¬db.IssuedDevice a c.deviceHash →
    ¬db.IssuedBroker a c.broker → (c ∈ db'.connections ↔ c ∈ db.connections)
  authSessions : ∀ b : AuthSession, b.id ≠ a → (b ∈ db'.authSessions ↔ b ∈ db.authSessions)
  brokers : ∀ b : Broker, ¬db.IssuedBroker a b.id → (b ∈ db'.brokers ↔ b ∈ db.brokers)

variable {a : Uuid}

lemma mem_authBrokers {b : Uuid} : b ∈ db.authBrokers a ↔ db.IssuedBroker a b := by
  simp [Db.authBrokers, Db.IssuedBroker, and_assoc]

lemma restsOn_eq_true {c : ConnectionRecord} :
    db.restsOn a c = true ↔ c.authSession = some a ∨ db.IssuedDevice a c.deviceHash := by
  simp [Db.restsOn, Db.IssuedDevice, and_assoc]

lemma mem_authSessionSessions {i : Uuid} :
    i ∈ db.authSessionSessions a ↔ ∃ v ∈ db.sessions, v.id = i ∧
      ((∃ c ∈ db.connections, db.restsOn a c = true ∧ c.session = v.id) ∨
       (∃ t ∈ db.tokens, t.kind = .session ∧ t.authSession = some a ∧ t.session = some v.id) ∨
       db.IssuedBroker a v.broker) := by
  simp only [Db.authSessionSessions, List.mem_map, Table.mem_select, Bool.or_eq_true,
    Table.any_eq_true, Bool.and_eq_true, decide_eq_true_eq, mem_authBrokers, or_assoc, and_assoc]
  constructor
  · rintro ⟨v, hv, h, hid⟩
    exact ⟨v, hv, hid, h⟩
  · rintro ⟨v, hv, hid, h⟩
    exact ⟨v, hv, h, hid⟩

/-! ### The tables after the revocation -/

section Tables

variable {a : AuthSession}

lemma mem_revoked_tokens {t : Token} :
    t ∈ (revokeAuthSession db a).1.tokens ↔ t ∈ db.tokens ∧ t.authSession ≠ some a.id ∧
      ¬(t.kind = .session ∧ ∃ i ∈ db.authSessionSessions a.id, t.session = some i) := by
  show t ∈ (db.tokens.delete fun t => t.kind = .session &&
    t.session.any (· ∈ db.authSessionSessions a.id)).delete
      (fun t => t.authSession = some a.id) ↔ _
  simp only [Table.mem_delete, Bool.and_eq_false_iff, decide_eq_false_iff_not]
  cases t.session with
  | none => simp
  | some i =>
    simp only [Option.any_some, decide_eq_false_iff_not, Option.some.injEq]
    grind

lemma mem_revoked_sessions {v : SessionRow} :
    v ∈ (revokeAuthSession db a).1.sessions ↔
      v ∈ db.sessions ∧ v.id ∉ db.authSessionSessions a.id := by
  show v ∈ db.sessions.delete (fun v => v.id ∈ db.authSessionSessions a.id) ↔ _
  simp only [Table.mem_delete, decide_eq_false_iff_not]

lemma mem_revoked_connections {c : ConnectionRecord} :
    c ∈ (revokeAuthSession db a).1.connections ↔ ∃ e ∈ db.connections,
      (if e.revoked = none ∧ db.restsOn a.id e = true
        then { e with revoked := some .accountLogout } else e) = c := by
  show c ∈ db.connections.update (fun e => e.revoked = none && db.restsOn a.id e)
    (fun e => { e with revoked := some .accountLogout }) (fun _ => rfl) ↔ _
  simp only [Table.mem_update, Bool.and_eq_true, decide_eq_true_eq]

lemma mem_revoked_brokers {b : Broker} :
    b ∈ (revokeAuthSession db a).1.brokers ↔ ∃ e ∈ db.brokers,
      (if e.id ∈ db.authBrokers a.id then { e with leaseExpiresAt := 0 } else e) = b := by
  show b ∈ db.brokers.update (fun e => e.id ∈ db.authBrokers a.id)
    (fun e => { e with leaseExpiresAt := 0 }) (fun _ => rfl) ↔ _
  simp only [Table.mem_update, decide_eq_true_eq]

/-- The row itself is marked, and no other. -/
lemma mem_revoked_authSessions {b : AuthSession} :
    b ∈ (revokeAuthSession db a).1.authSessions ↔ ∃ e ∈ db.authSessions,
      (if e.id = a.id ∧ e.revoked = none then { e with revoked := some .logout } else e) = b := by
  show b ∈ db.authSessions.update (fun e => e.id = a.id && e.revoked = none)
    (fun e => { e with revoked := some .logout }) (fun _ => rfl) ↔ _
  simp only [Table.mem_update, Bool.and_eq_true, decide_eq_true_eq]

end Tables

/-! ### Complete and confined -/

lemma selected_of_token {t : Token} {v : SessionRow} (ht : t ∈ db.tokens)
    (hk : t.kind = .session) (ha : t.authSession = some a) (hv : v ∈ db.sessions)
    (hs : t.session = some v.id) : v.id ∈ db.authSessionSessions a :=
  mem_authSessionSessions.mpr ⟨v, hv, rfl, .inr (.inl ⟨t, ht, hk, ha, hs⟩)⟩

lemma Sound.selected (h : Sound cfg now db) {i : Uuid} (hi : i ∈ db.authSessionSessions a) :
    ∃ v ∈ db.sessions, v.id = i ∧ (v.authSession = some a ∨ db.IssuedBroker a v.broker) := by
  obtain ⟨v, hv, hid, ⟨c, hc, hr, hs⟩ | ⟨t, ht, hk, ha, hs⟩ | hb⟩ := mem_authSessionSessions.mp hi
  · refine ⟨v, hv, hid, ?_⟩
    obtain ⟨-, hbroker, -, hauth⟩ := h.scope c hc v hv hs.symm
    rcases restsOn_eq_true.mp hr with ha | ⟨t, ht, hk, ha, he⟩
    · exact .inl ((hauth (by simp [ha])).trans ha)
    · refine .inr ⟨t, ht, hk, ha, ?_⟩
      rw [h.device c hc t ht hk he, hbroker]
  · obtain ⟨-, -, h3, -⟩ := h.paired t ht hk v hv hs
    exact ⟨v, hv, hid, .inl (h3.symm.trans ha)⟩
  · exact ⟨v, hv, hid, .inr hb⟩

lemma Sound.complete (h : Sound cfg now db) (a : AuthSession) :
    Complete db (revokeAuthSession db a).1 a.id now where
  tokens t ht := (mem_revoked_tokens.mp ht).2.1
  connections c hc hr := by
    obtain ⟨e, he, rfl⟩ := mem_revoked_connections.mp hc
    by_cases hrest : e.revoked = none ∧ db.restsOn a.id e = true
    · simp [hrest]
    · rw [if_neg hrest] at hr ⊢
      exact fun hnone => hrest ⟨hnone, restsOn_eq_true.mpr hr⟩
  sessions v hv hlt := by
    obtain ⟨hv, hout⟩ := mem_revoked_sessions.mp hv
    refine ⟨fun ha => hout ?_, fun hb => hout ?_⟩
    · obtain ⟨t, ht, hk, hs⟩ := h.covered v hv hlt
      obtain ⟨-, -, h3, -⟩ := h.paired t ht hk v hv hs
      exact selected_of_token ht hk (h3.trans ha) hv hs
    · exact mem_authSessionSessions.mpr ⟨v, hv, rfl, .inr (.inr hb)⟩
  sessionTokens v hv hr t ht hk hs := by
    obtain ⟨ht, hne, hout⟩ := mem_revoked_tokens.mp ht
    rcases hr with ha | hb
    · obtain ⟨-, -, h3, -⟩ := h.paired t ht hk v hv hs
      exact hne (h3.trans ha)
    · exact hout ⟨hk, v.id, mem_authSessionSessions.mpr ⟨v, hv, rfl, .inr (.inr hb)⟩, hs⟩
  brokers b hb hi := by
    obtain ⟨e, he, rfl⟩ := mem_revoked_brokers.mp hb
    by_cases hin : e.id ∈ db.authBrokers a.id
    · rw [if_pos hin]
    · rw [if_neg hin] at hi
      exact absurd (mem_authBrokers.mpr hi) hin

lemma Sound.confined (h : Sound cfg now db) (a : AuthSession) :
    Confined db (revokeAuthSession db a).1 a.id where
  tokens t hne hb := by
    refine ⟨fun ht => (mem_revoked_tokens.mp ht).1, fun ht => mem_revoked_tokens.mpr ⟨ht, hne, ?_⟩⟩
    rintro ⟨hk, i, hi, hs⟩
    obtain ⟨v, hv, rfl, hr⟩ := h.selected hi
    obtain ⟨-, h2, h3, -⟩ := h.paired t ht hk v hv hs
    rcases hr with ha | hbr
    · exact hne (h3.trans ha)
    · exact hb _ h2 hbr
  sessions v hne hb := by
    refine ⟨fun hv => (mem_revoked_sessions.mp hv).1,
      fun hv => mem_revoked_sessions.mpr ⟨hv, fun hi => ?_⟩⟩
    obtain ⟨w, hw, hid, hr⟩ := h.selected hi
    obtain rfl := Table.eq_of_key_eq hw hv hid
    exact hr.elim hne hb
  connections c hne hd _ := by
    have hrest : ¬db.restsOn a.id c = true := fun hr => (restsOn_eq_true.mp hr).elim hne hd
    constructor
    · intro hc
      obtain ⟨e, he, rfl⟩ := mem_revoked_connections.mp hc
      by_cases hr : e.revoked = none ∧ db.restsOn a.id e = true
      · rw [if_pos hr] at hrest
        exact absurd hr.2 hrest
      · rwa [if_neg hr]
    · exact fun hc => mem_revoked_connections.mpr ⟨c, hc, if_neg fun hr => hrest hr.2⟩
  authSessions b hne := by
    constructor
    · intro hb
      obtain ⟨e, he, rfl⟩ := mem_revoked_authSessions.mp hb
      by_cases hr : e.id = a.id ∧ e.revoked = none
      · rw [if_pos hr] at hne
        exact absurd hr.1 hne
      · rwa [if_neg hr]
    · exact fun hb => mem_revoked_authSessions.mpr ⟨b, hb, if_neg fun hr => hne hr.1⟩
  brokers b hi := by
    constructor
    · intro hb
      obtain ⟨e, he, rfl⟩ := mem_revoked_brokers.mp hb
      by_cases hin : e.id ∈ db.authBrokers a.id
      · rw [if_pos hin] at hi
        exact absurd (mem_authBrokers.mp hin) hi
      · rwa [if_neg hin]
    · exact fun hb => mem_revoked_brokers.mpr ⟨b, hb, if_neg fun hin => hi (mem_authBrokers.mp hin)⟩

/-- **Revoking a login session is complete and confined.** Nothing that rests on the session stays
live, and every row that rests on nothing of it is as it was. -/
theorem revokeAuthSession_complete_confined {s : Server} (hs : s.Reachable cfg) {a : AuthSession}
    (_ : a ∈ s.db.authSessions) {now : ℕ} (hn : s.clock ≤ now) :
    Complete s.db (revokeAuthSession s.db a).1 a.id now ∧
    Confined s.db (revokeAuthSession s.db a).1 a.id := by
  have h := hs.inv.sound.tick hn
  exact ⟨h.complete a, h.confined a⟩

def sampleAuth : AuthSession where
  id := 2
  tenant := 1
  version := 1
  generation := 1
  refreshHash := 12
  tokenHash := 11
  tokenExpiry := 1001
  refreshExpiry := 5001
  absoluteExpiry := 0

/-- A login session with a broker and a session of its own ends. -/
theorem revokeAuthSession_complete_confined_sample :
    sampleAuth ∈ sampleServer.db.authSessions ∧
    (∃ v ∈ sampleServer.db.sessions, v.authSession = some sampleAuth.id ∧
      sampleServer.db.IssuedBroker sampleAuth.id v.broker) ∧
    Complete sampleServer.db (revokeAuthSession sampleServer.db sampleAuth).1 sampleAuth.id 7 ∧
    Confined sampleServer.db (revokeAuthSession sampleServer.db sampleAuth).1 sampleAuth.id := by
  have ha : sampleAuth ∈ sampleServer.db.authSessions := by decide +kernel
  have hv : (⟨4, 1, 3, .auto, false, false, 603, some 2⟩ : SessionRow) ∈
      sampleServer.db.sessions := by decide +kernel
  have ht : (⟨13, .device, 1, some 3, none, 1, 5001, some 2⟩ : Token) ∈
      sampleServer.db.tokens := by decide +kernel
  exact ⟨ha, ⟨_, hv, rfl, _, ht, rfl, rfl, rfl⟩,
    revokeAuthSession_complete_confined sampleServer_reachable ha (by decide +kernel)⟩

end OhecoBroker.Control
