/-
Revoked lineages stay revoked.  The row of a revoked lineage is a tombstone, forgotten only when
its caller is gone for good; from then on it is the authority behind it that cannot come back,
since random values do not repeat.

* `Effects`, `Move.effects`: what a move can do to the tables that decide about a lineage;
* `Rooted`, `Effects.rooted`: a lineage and its authority are of one tenant version;
* `Db.Buried`, `Db.Buried.step`: the row is marked or the authority gone, and stays so;
* `revoked_stays_revoked`: **no later request of the same authority succeeds**, and no later check
  of a session of the lineage.
-/
import OhecoBroker.Control.History

namespace OhecoBroker.Control

open Lib Table

variable {cfg : Config} {now : ℕ} {D : Draws} {db db' : Db} {c : ConnectionRecord}

/-! ### What a move can do -/

/-- The tenant has left this version of its credentials behind. -/
def Db.past (db : Db) (tenant : Uuid) (version : ℕ) : Prop :=
  ∃ n ∈ db.tenants, n.id = tenant ∧ version < n.version

def ConnectionRecord.Same (c c' : ConnectionRecord) : Prop :=
  c' = { c with revoked := c'.revoked } ∧ (c.revoked ≠ none → c'.revoked ≠ none)

lemma ConnectionRecord.Same.refl (c : ConnectionRecord) : c.Same c := ⟨rfl, fun h => h⟩

/-- A tenant keeps its version and stays active, or moves on. -/
def TenantsMove (T T' : Table Tenant.id) : Prop :=
  ∀ n ∈ T, ∃ n' ∈ T', n'.id = n.id ∧
    (n.version < n'.version ∨ n'.version = n.version ∧ (n.status = .active → n'.status = .active))

/-- A login session keeps its deadline unless it is live. -/
def LoginsMove (now : ℕ) (D : Draws) (db : Db) (A' : Table AuthSession.id) : Prop :=
  ∀ a' ∈ A', (∃ a ∈ db.authSessions, a'.id = a.id ∧ a'.tenant = a.tenant ∧ a'.version = a.version ∧
      (a.revoked ≠ none → a'.revoked ≠ none) ∧
      (a'.refreshExpiry = a.refreshExpiry ∨
        a.revoked = none ∧ now < a.refreshExpiry ∧ ¬db.past a.tenant a.version)) ∨
    (a'.id ∈ D.ids ∧ ∀ c ∈ db.connections, c.authSession ≠ some a'.id)

def LegacyMove (D : Draws) (db : Db) (T' : Table Token.hash) : Prop :=
  ∀ t ∈ T', t.kind = .account → t.authSession = none → t ∈ db.tokens ∨
    (t.hash ∈ D.hashes ∧ ∀ c ∈ db.connections, c.accountHash ≠ t.hash)

def BrokersMove (D : Draws) (B B' : Table Broker.id) : Prop :=
  ∀ b' ∈ B', (∃ b ∈ B, b.id = b'.id) ∨ b'.id ∈ D.ids

/-- A row is kept, marked, or written by a request. -/
def LineagesMove (D : Draws) (db db' : Db) : Prop :=
  ∀ c' ∈ db'.connections, (∃ c ∈ db.connections, c.Same c') ∨
    (c'.session ∈ D.ids ∧ (∃ p old, Connects db p old c') ∧ db'.tenants = db.tenants ∧
      db'.authSessions = db.authSessions ∧ LegacyMove {} db db'.tokens)

/-- A marked row stays until its caller or broker is gone. -/
def MarkedMove (now : ℕ) (db : Db) (C' : Table ConnectionRecord.id) (B' : Table Broker.id) : Prop :=
  ∀ c ∈ db.connections, c.revoked ≠ none → (∃ c' ∈ C', c.Same c') ∨
    (∃ t t', t ≤ now ∧ t' ≤ now ∧ callerDead db t t' c) ∨ ∀ b ∈ B', b.id ≠ c.broker

/-- What one move can do to the tables that decide about a lineage. -/
structure Effects (now : ℕ) (D : Draws) (db db' : Db) : Prop where
  tenants : TenantsMove db.tenants db'.tenants
  logins : LoginsMove now D db db'.authSessions
  legacy : LegacyMove D db db'.tokens
  brokers : BrokersMove D db.brokers db'.brokers
  lineages : LineagesMove D db db'
  marked : MarkedMove now db db'.connections db'.brokers

section Unchanged

lemma TenantsMove.refl (T : Table Tenant.id) : TenantsMove T T :=
  fun n hn => ⟨n, hn, rfl, .inr ⟨rfl, id⟩⟩

lemma LoginsMove.refl (db : Db) : LoginsMove now D db db.authSessions :=
  fun a ha => .inl ⟨a, ha, rfl, rfl, rfl, id, .inl rfl⟩

lemma LegacyMove.refl (db : Db) : LegacyMove D db db.tokens := fun _ ht _ _ => .inl ht

lemma BrokersMove.refl (B : Table Broker.id) : BrokersMove D B B := fun b hb => .inl ⟨b, hb, rfl⟩

lemma LineagesMove.same (h : db'.connections = db.connections) : LineagesMove D db db' :=
  fun c hc => .inl ⟨c, h ▸ hc, .refl c⟩

lemma MarkedMove.refl (db : Db) (B' : Table Broker.id) : MarkedMove now db db.connections B' :=
  fun c hc _ => .inl ⟨c, hc, .refl c⟩

lemma LegacyMove.delete (db : Db) (q : Token → Bool) : LegacyMove D db (db.tokens.delete q) :=
  fun _ ht _ _ => .inl (mem_delete.mp ht).1

lemma LegacyMove.insert {t : Token} {T T' : Table Token.hash} (h : T.insert t = some T')
    (hT : LegacyMove D db T) (ht : t.kind = .account → t.authSession = none →
      t.hash ∈ D.hashes ∧ ∀ c ∈ db.connections, c.accountHash ≠ t.hash) : LegacyMove D db T' := by
  intro u hu hk hn
  rcases (mem_insert h).mp hu with rfl | hu
  · exact .inr (ht hk hn)
  · exact hT u hu hk hn

/-- No statement changes a legacy token. -/
lemma LegacyMove.update {T : Table Token.hash} (hT : LegacyMove D db T) (q : Token → Bool)
    (f : Token → Token) (hf : ∀ t, (f t).hash = t.hash)
    (hq : ∀ t ∈ T, q t → (f t).kind ≠ .account ∨ (f t).authSession ≠ none) :
    LegacyMove D db (T.update q f hf) := by
  intro u hu hk hn
  obtain ⟨t, ht, rfl⟩ := mem_update.mp hu
  by_cases hqt : q t = true
  · rw [if_pos hqt] at hk hn
    rcases hq t ht hqt with h | h
    · exact absurd hk h
    · exact absurd hn h
  · rw [if_neg hqt] at hk hn ⊢
    exact hT t ht hk hn

end Unchanged

variable {p : Principal} {sid : Uuid}

lemma marked_of_opened {old : Option ConnectionRecord} {row : ConnectionRecord}
    (hc : Connects db p old row) (ho : Opened cfg db now p old row db') (B' : Table Broker.id) :
    MarkedMove now db db'.connections B' := by
  intro c hcm hrev
  refine .inl ⟨c, (ho.connections c).mpr (.inr ⟨hcm, fun hid => ?_⟩), .refl c⟩
  -- the row that is written was not marked
  have hold : old = some c := by rw [← hc.stored, ← hid, get_of_mem hcm]
  exact hrev (hc.advance c hold).1

lemma not_past {a : AuthSession} {pending : Bool} {u : Unit}
    (h : checkAuthSession db now a pending = .ok u) : ¬db.past a.tenant a.version := by
  rintro ⟨n, hn, hid, hlt⟩
  obtain ⟨-, -, -, t, ht, hv, -⟩ := checkAuthSession_eq_ok.mp h
  obtain ⟨htm, htid⟩ := get_eq_some.mp ht
  obtain rfl := eq_of_key_eq hn htm (hid.trans htid.symm)
  omega

/-- **What a move can do.** -/
theorem Move.effects (hs : Sound cfg now db) (m : Move cfg now D db db') :
    Effects now D db db' := by
  cases m with
  | post | relabel | dropSessions =>
    exact ⟨.refl _, .refl _, .refl _, .refl _, .same rfl, .refl _ _⟩
  | @addTenant t tenants hi =>
    refine ⟨fun n hn => ⟨n, ?_, rfl, .inr ⟨rfl, id⟩⟩, .refl _, .refl _, .refl _, .same rfl,
      .refl _ _⟩
    exact (mem_insert hi).mpr (.inr hn)
  | changeTenants p f hf h =>
    refine ⟨fun n hn => ?_, .refl _, .refl _, .refl _, .same rfl, .refl _ _⟩
    simp only [Db.updateTenants_tenants, mem_update]
    refine ⟨_, ⟨n, hn, rfl⟩, ?_⟩
    by_cases hp : p n = true
    · rw [if_pos hp]
      exact ⟨hf n, h n hn hp⟩
    · rw [if_neg hp]
      exact ⟨rfl, .inr ⟨rfl, id⟩⟩
  | @addBroker b brokers hi hb hn =>
    refine ⟨.refl _, .refl _, .refl _, fun b' hb' => ?_, .same rfl, .refl _ _⟩
    rcases (mem_insert hi).mp hb' with rfl | hb'
    · exact .inr hb
    · exact .inl ⟨b', hb', rfl⟩
  | changeBrokers p f hf =>
    refine ⟨.refl _, .refl _, .refl _, fun b' hb' => ?_, .same rfl, .refl _ _⟩
    simp only [Db.updateBrokers_brokers, mem_update] at hb'
    obtain ⟨b, hb, rfl⟩ := hb'
    exact .inl ⟨b, hb, by split <;> simp [hf]⟩
  | removeBroker id =>
    refine ⟨.refl _, .refl _, .refl _, ?_, ?_, ?_⟩
    · exact fun b hb => .inl ⟨b, (mem_delete.mp hb).1, rfl⟩
    · exact fun c hc => .inl ⟨c, (mem_delete.mp hc).1, .refl c⟩
    intro c hc hrev
    by_cases hb : c.broker = id
    · refine .inr (.inr fun b hbm he => ?_)
      exact of_decide_eq_false (mem_delete.mp hbm).2 (he.trans hb)
    · exact .inl ⟨c, mem_delete.mpr ⟨hc, decide_eq_false hb⟩, .refl c⟩
  | mark p reason =>
    have same : ∀ c : ConnectionRecord,
        c.Same (if p c then { c with revoked := some reason } else c) := by
      intro c
      split
      · exact ⟨rfl, fun _ => by simp⟩
      · exact .refl c
    refine ⟨.refl _, .refl _, .refl _, .refl _, fun c' hc' => ?_, fun c hc _ => ?_⟩
    · simp only [Db.updateConnections_connections, mem_update] at hc'
      obtain ⟨c, hc, rfl⟩ := hc'
      exact .inl ⟨c, hc, same c⟩
    · simp only [Db.updateConnections_connections, mem_update]
      exact .inl ⟨_, ⟨c, hc, rfl⟩, same c⟩
  | forget p h =>
    refine ⟨.refl _, .refl _, .refl _, .refl _, ?_, ?_⟩
    · exact fun c hc => .inl ⟨c, (mem_delete.mp hc).1, .refl c⟩
    intro c hc hrev
    by_cases hp : p c = true
    · exact .inr (.inl (h c hc hp))
    · exact .inl ⟨c, mem_delete.mpr ⟨hc, Bool.eq_false_iff.mpr hp⟩, .refl c⟩
  | dropTokens q h => exact ⟨.refl _, .refl _, .delete db q, .refl _, .same rfl, .refl _ _⟩
  | addToken hi hD hk hnone ha hnew hdev hexp =>
    refine ⟨.refl _, .refl _, ?_, .refl _, .same rfl, .refl _ _⟩
    exact (LegacyMove.refl db).insert hi fun _ _ => ⟨hD, fun c hc => (hdev c hc).1⟩
  | touchDevice q e h hd hexp =>
    refine ⟨.refl _, .refl _, ?_, .refl _, .same rfl, .refl _ _⟩
    exact (LegacyMove.refl db).update q (fun t => { t with expiresAt := e }) (fun _ => rfl)
      fun t _ hq => .inl (by simp [h t hq])
  | extend id e h =>
    refine ⟨.refl _, .refl _, ?_, .refl _, .same rfl, .refl _ _⟩
    refine (LegacyMove.refl db).update (fun t => t.kind = .session && t.session = some id)
      (fun t => { t with expiresAt := e }) (fun _ => rfl) fun t ht hq => .inl fun hk => ?_
    have hk : t.kind = .account := hk
    simp [hk] at hq
  | openSession ho ht hc he ha hn =>
    obtain ⟨S, T, -, hT, rfl⟩ := openSession_eq_ok ho
    exact ⟨.refl _, .refl _, (LegacyMove.refl db).insert hT (by rintro ⟨⟩), .refl _, .same rfl,
      .refl _ _⟩
  | @connect p old row d hc hi ho hn =>
    obtain ⟨h1, h2, h3⟩ := openGeneration_others hc ho
    have hop := openGeneration_opened hc ho
    have tokens : ∀ {D'}, LegacyMove D' db d.db.tokens := by
      intro D' t ht hk _
      rcases (hop.tokens t).mp ht with rfl | ⟨ht, -⟩
      · cases hk
      · exact .inl ht
    refine ⟨h1 ▸ .refl _, h3 ▸ .refl _, tokens, h2 ▸ .refl _, ?_, marked_of_opened hc hop _⟩
    · intro c hcm
      rcases (hop.connections c).mp hcm with rfl | ⟨hcm, -⟩
      · exact .inr ⟨hi, ⟨p, old, hc⟩, h1, h3, tokens⟩
      · exact .inl ⟨c, hcm, .refl c⟩
  | login hi hh hid hnew hfree =>
    obtain ⟨a, t, A, T, hA, hT, rfl, haid, -, -, -, -, -, -, -, -, -, -, -, -, -, -, hauth⟩ :=
      issueAuthSession_eq_ok hi
    refine ⟨.refl _, fun b hb => ?_, ?_, .refl _, .same rfl, .refl _ _⟩
    · rcases (mem_insert hA).mp hb with rfl | hb
      · exact .inr ⟨haid ▸ hid, fun c hc => haid ▸ hfree c hc⟩
      · exact LoginsMove.refl db b hb
    · exact (LegacyMove.refl db).insert hT fun _ hn => by simp [hauth] at hn
  | @rotate a request hash next nextRefresh d ha hc hn hr =>
    have ham := mem_of_get ha
    obtain ⟨hrev, hlt, -⟩ := checkAuthSession_eq_ok.mp hc
    simp only [rotateAuth, bind_eq_ok, found_eq_ok, reject_eq_ok, exists_unit, pure_eq_ok] at hr
    obtain ⟨T, hT, -, rfl⟩ := hr
    refine ⟨.refl _, fun b hb => .inl ?_, ?_, .refl _, .same rfl, .refl _ _⟩
    · simp only [Db.updateAuthSessions_authSessions, Db.withTokens_authSessions, Db.overlapTokens,
        Db.updateTokens_authSessions, Db.deleteTokens_authSessions, mem_update] at hb
      obtain ⟨e, he, rfl⟩ := hb
      by_cases hid : e.id = a.id
      · obtain rfl := eq_of_key_eq he ham hid
        refine ⟨e, he, ?_⟩
        rw [if_pos (by simp)]
        exact ⟨rfl, rfl, rfl, fun h => h, .inr ⟨hrev, hlt, not_past hc⟩⟩
      · refine ⟨e, he, ?_⟩
        rw [if_neg (by simpa using hid)]
        exact ⟨rfl, rfl, rfl, fun h => h, .inl rfl⟩
    refine LegacyMove.insert hT ?_ fun _ hn => by cases hn
    refine LegacyMove.update (LegacyMove.delete db _) _
      (fun t => { t with expiresAt := min a.tokenExpiry (now + cfg.authAccessOverlap) })
      (fun _ => rfl) fun t ht hq => .inr ?_
    -- the token a login session records is its own
    simp only [Bool.and_eq_true, decide_eq_true_eq] at hq
    have := hs.account a ham t (mem_delete.mp ht).1 (by simp_all) (by simp_all)
    simp [this]
  | kill p reason h =>
    refine ⟨.refl _, fun b hb => .inl ?_, .refl _, .refl _, .same rfl, .refl _ _⟩
    simp only [Db.updateAuthSessions_authSessions, mem_update] at hb
    obtain ⟨a, ha, rfl⟩ := hb
    refine ⟨a, ha, ?_⟩
    split
    · exact ⟨rfl, rfl, rfl, fun _ => by simp, .inl rfl⟩
    · exact ⟨rfl, rfl, rfl, fun h => h, .inl rfl⟩
  | collect p h hd =>
    refine ⟨.refl _, fun b hb => ?_, .refl _, .refl _, .same rfl, .refl _ _⟩
    exact LoginsMove.refl db b (mem_delete.mp hb).1

/-! ### The authority behind a lineage -/

/-- Lineage and caller are of one tenant version. -/
structure Rooted (db : Db) : Prop where
  tenant : ∀ c ∈ db.connections, ∃ n ∈ db.tenants, n.id = c.tenant ∧
    (c.version < n.version ∨ n.version = c.version ∧ n.status = .active)
  login : ∀ c ∈ db.connections, ∀ i, c.authSession = some i → ∀ a ∈ db.authSessions, a.id = i →
    a.tenant = c.tenant ∧ a.version = c.version
  account : ∀ c ∈ db.connections, c.authSession = none → ∀ t ∈ db.tokens, t.hash = c.accountHash →
    t.kind = .account → t.authSession = none → t.tenant = c.tenant ∧ t.version = c.version

lemma Rooted.empty : Rooted {} where
  tenant := (by intros; contradiction)
  login := (by intros; contradiction)
  account := (by intros; contradiction)

/-- A version left behind stays behind. -/
lemma TenantsMove.past {n v : ℕ} {tenant : Uuid} (h : TenantsMove db.tenants db'.tenants)
    (hp : db.past tenant v) (hn : n ≤ v) : db'.past tenant n := by
  obtain ⟨m, hm, hid, hlt⟩ := hp
  obtain ⟨m', hm', hid', hv⟩ := h m hm
  exact ⟨m', hm', hid'.trans hid, by omega⟩

lemma Rooted.kept (h : Rooted db) (e : Effects now D db db') (hc : c ∈ db.connections) :
    (∃ n ∈ db'.tenants, n.id = c.tenant ∧
      (c.version < n.version ∨ n.version = c.version ∧ n.status = .active)) ∧
    (∀ i, c.authSession = some i → ∀ a ∈ db'.authSessions, a.id = i →
      a.tenant = c.tenant ∧ a.version = c.version) ∧
    (c.authSession = none → ∀ t ∈ db'.tokens, t.hash = c.accountHash →
      t.kind = .account → t.authSession = none → t.tenant = c.tenant ∧ t.version = c.version) := by
  refine ⟨?_, fun i hi a ha hid => ?_, fun hn t ht hh hk ha => ?_⟩
  · obtain ⟨n, hn, hid, hv⟩ := h.tenant c hc
    obtain ⟨n', hn', hid', hv'⟩ := e.tenants n hn
    refine ⟨n', hn', hid'.trans hid, ?_⟩
    rcases hv' with hv' | ⟨hv', hs⟩
    · left
      omega
    · rw [hv']
      exact hv.imp_right fun hv => ⟨hv.1, hs hv.2⟩
  · rcases e.logins a ha with ⟨b, hb, h1, h2, h3, -⟩ | ⟨-, hfree⟩
    · rw [h2, h3]
      exact h.login c hc i hi b hb (h1.symm.trans hid)
    · exact absurd (hi.trans (congrArg some hid.symm)) (hfree c hc)
  · rcases e.legacy t ht hk ha with ht | ⟨-, hfree⟩
    · exact h.account c hc hn t ht hh hk ha
    · exact absurd hh.symm (hfree c hc)

lemma Connects.rooted (h : Rooted db) {old : Option ConnectionRecord} (hc : Connects db p old c) :
    (∃ n ∈ db.tenants, n.id = c.tenant ∧ n.version = c.version ∧ n.status = .active) ∧
    (∀ i, c.authSession = some i → ∀ a ∈ db.authSessions, a.id = i →
      a.tenant = c.tenant ∧ a.version = c.version) ∧
    (c.authSession = none → ∀ t ∈ db.tokens, t.hash = c.accountHash →
      t.kind = .account → t.authSession = none → t.tenant = c.tenant ∧ t.version = c.version) := by
  obtain ⟨ht, hv, hp⟩ := hc.scope
  refine ⟨ht ▸ hv ▸ hc.tenant, fun i hi a ha hid => ?_, fun hn t htm hh hk ha => ?_⟩
  · obtain ⟨b, hb, h1, -, h3, h4⟩ := hc.authority i ((hp (by simp [hi])).trans hi)
    obtain rfl := eq_of_key_eq ha hb (hid.trans h1.symm)
    exact ⟨h3.trans ht.symm, h4.trans hv.symm⟩
  cases ho : old with
  | none => exact hc.account ho hn t htm hh
  | some c₀ =>
    -- the scope of a lineage does not change from one generation to the next
    have hrow := (hc.advance c₀ ho).2
    have hm : c₀ ∈ db.connections := mem_of_get (hc.stored.trans ho)
    rw [hrow] at hn hh ⊢
    exact h.account c₀ hm hn t htm hh hk ha

/-- **Every move keeps the lineages rooted.** -/
theorem Effects.rooted (e : Effects now D db db') (h : Rooted db) : Rooted db' := by
  have all : ∀ c' ∈ db'.connections,
      (∃ n ∈ db'.tenants, n.id = c'.tenant ∧
        (c'.version < n.version ∨ n.version = c'.version ∧ n.status = .active)) ∧
      (∀ i, c'.authSession = some i → ∀ a ∈ db'.authSessions, a.id = i →
        a.tenant = c'.tenant ∧ a.version = c'.version) ∧
      (c'.authSession = none → ∀ t ∈ db'.tokens, t.hash = c'.accountHash →
        t.kind = .account → t.authSession = none →
        t.tenant = c'.tenant ∧ t.version = c'.version) := by
    intro c' hc'
    rcases e.lineages c' hc' with ⟨c, hc, hsame, -⟩ | ⟨-, ⟨p, old, hcon⟩, ht, ha, hk⟩
    · obtain ⟨h1, h2, h3⟩ := h.kept e hc
      rw [hsame]
      exact ⟨h1, h2, h3⟩
    obtain ⟨⟨n, hn, hid, hv⟩, h2, h3⟩ := hcon.rooted h
    refine ⟨ht ▸ ⟨n, hn, hid, .inr hv⟩, ha ▸ h2, fun hnone t htm hh hkind hauth => ?_⟩
    rcases hk t htm hkind hauth with hm | ⟨hm, -⟩
    · exact h3 hnone t hm hh hkind hauth
    · cases hm
  exact ⟨fun c hc => (all c hc).1, fun c hc => (all c hc).2.1, fun c hc => (all c hc).2.2⟩

/-! ### Buried lineages -/

/-- The caller can ask for nothing any more. -/
structure Db.Gone (db : Db) (now : ℕ) (c : ConnectionRecord) : Prop where
  login : ∀ i, c.authSession = some i → ∀ a ∈ db.authSessions, a.id = i →
    a.revoked ≠ none ∨ a.refreshExpiry ≤ now ∨ db.past a.tenant a.version
  account : c.authSession = none → ∀ t ∈ db.tokens, t.hash = c.accountHash → t.kind = .account →
    t.authSession = none → t.expiresAt ≤ now ∨ db.past t.tenant t.version

/-- What the lineage rests on is not drawn again. -/
structure ConnectionRecord.Apart (c : ConnectionRecord) (D : Draws) : Prop where
  broker : c.broker ∉ D.ids
  login : ∀ i, c.authSession = some i → i ∉ D.ids
  account : c.accountHash ∉ D.hashes

lemma Rooted.gone (h : Rooted db) (hc : c ∈ db.connections) {t t' : ℕ} (ht : t ≤ now)
    (ht' : t' ≤ now) (hd : callerDead db t t' c = true) : db.Gone now c := by
  simp only [callerDead, Bool.or_eq_true, Bool.and_eq_true, Bool.not_eq_true', any_eq_false,
    Bool.and_eq_false_iff, decide_eq_true_eq, decide_eq_false_iff_not] at hd
  rcases hd with (⟨hn, hd⟩ | ⟨hn, hd⟩) | hd
  · refine ⟨fun i hi => by simp [hn] at hi, fun _ k hk hh hkind _ => .inl ?_⟩
    rcases hd k hk with (h | h) | h
    · exact absurd hh h
    · exact absurd hkind h
    · omega
  · refine ⟨fun i hi a ha hid => ?_, fun h => absurd h hn⟩
    obtain ⟨h1, h2⟩ := h.login c hc i hi a ha hid
    rcases hd a ha with (((h | h) | h) | h) | h
    · exact absurd (hi.trans (congrArg some hid.symm)) h
    · exact absurd h1 h
    · exact absurd h2 h
    · exact .inl h
    · exact .inr (.inl (by omega))
  -- the tenant is no longer at the version of the lineage
  obtain ⟨n, hn, hid, hv⟩ := h.tenant c hc
  have hpast : db.past c.tenant c.version := by
    refine ⟨n, hn, hid, ?_⟩
    rcases hv with hv | ⟨hv, hact⟩
    · exact hv
    rcases hd n hn with (h | h) | h
    · exact absurd hid h
    · exact absurd hv h
    · exact absurd hact h
  refine ⟨fun i hi a ha hid => .inr (.inr ?_), fun hnone k hk hh hkind hauth => .inr ?_⟩
  · obtain ⟨h1, h2⟩ := h.login c hc i hi a ha hid
    rw [h1, h2]
    exact hpast
  · obtain ⟨h1, h2⟩ := h.account c hc hnone k hk hh hkind hauth
    rw [h1, h2]
    exact hpast

lemma Db.Gone.step (h : db.Gone now c) (e : Effects now D db db') (hD : c.Apart D) :
    db'.Gone now c := by
  refine ⟨fun i hi a' ha' hid => ?_, fun hn t ht hh hk hauth => ?_⟩
  · rcases e.logins a' ha' with ⟨a, ha, h1, h2, h3, h4, h5⟩ | ⟨hm, -⟩
    · rw [h2, h3]
      rcases h.login i hi a ha (h1.symm.trans hid) with hr | hr | hr
      · exact .inl (h4 hr)
      · rcases h5 with h5 | ⟨-, h5, -⟩
        · exact .inr (.inl (h5 ▸ hr))
        · omega
      · exact .inr (.inr (e.tenants.past hr le_rfl))
    · exact absurd (hid ▸ hm) (hD.login i hi)
  · rcases e.legacy t ht hk hauth with ht | ⟨hm, -⟩
    · exact (h.account hn t ht hh hk hauth).imp_right fun hr => e.tenants.past hr le_rfl
    · exact absurd (hh ▸ hm) hD.account

/-- Nothing can come of the lineage any more. -/
def Db.Buried (db : Db) (now : ℕ) (c : ConnectionRecord) : Prop :=
  (∃ c' ∈ db.connections, c.Same c' ∧ c'.revoked ≠ none) ∨ db.Gone now c ∨
    ∀ b ∈ db.brokers, b.id ≠ c.broker

/-- Time does not dig up a lineage. -/
lemma Db.Buried.tick (h : db.Buried now c) {now' : ℕ} (hn : now ≤ now') : db.Buried now' c := by
  refine h.imp_right (Or.imp_left fun h => ⟨fun i hi a ha hid => ?_, fun hnone t ht hh hk ha => ?_⟩)
  · exact (h.login i hi a ha hid).imp_right (Or.imp_left fun h => h.trans hn)
  · exact (h.account hnone t ht hh hk ha).imp_left fun h => h.trans hn

/-- **Every move leaves the buried buried.** -/
theorem Db.Buried.step (h : db.Buried now c) (hr : Rooted db) (e : Effects now D db db')
    (hD : c.Apart D) : db'.Buried now c := by
  rcases h with ⟨c', hc', ⟨hsame, hmark⟩, hrev⟩ | h | h
  · rcases e.marked c' hc' hrev with ⟨c'', hc'', hsame', hmark'⟩ | ⟨t, t', ht, ht', hd⟩ | hb
    · refine .inl ⟨c'', hc'', ⟨?_, fun h => hmark' (hmark h)⟩, hmark' hrev⟩
      rw [hsame', hsame]
    · refine .inr (.inl ?_)
      have hg := (hr.gone hc' ht ht' hd).step e (by
        rw [hsame]
        exact ⟨hD.broker, hD.login, hD.account⟩)
      rw [hsame] at hg
      exact ⟨hg.login, hg.account⟩
    · refine .inr (.inr fun b hbm => ?_)
      rw [hsame] at hb
      exact hb b hbm
  · exact .inr (.inl (h.step e hD))
  refine .inr (.inr fun b hb he => ?_)
  rcases e.brokers b hb with ⟨b₀, hb₀, hid⟩ | hm
  · exact h b₀ hb₀ (hid.trans he)
  · exact hD.broker (he ▸ hm)

/-- Every row of the lineage is marked or has another session. -/
def Db.Silent (db : Db) (id sid : Uuid) : Prop :=
  ∀ c ∈ db.connections, c.id = id → c.revoked ≠ none ∨ c.session ≠ sid

lemma Db.Silent.step {id : Uuid} (h : db.Silent id sid) (e : Effects now D db db')
    (hD : sid ∉ D.ids) : db'.Silent id sid := by
  intro c' hc' hid
  rcases e.lineages c' hc' with ⟨c, hc, hsame, hmark⟩ | ⟨hm, -⟩
  · rw [hsame] at hid ⊢
    exact (h c hc hid).imp_left hmark
  · exact .inr fun he => hD (he ▸ hm)

/-! ### Runs -/

/-- What holds of a marked lineage from then on. -/
structure Server.Marked (cfg : Config) (c : ConnectionRecord) (s : Server) : Prop where
  inv : s.Inv cfg
  rooted : Rooted s.db
  buried : s.db.Buried s.clock c

lemma Moves.rooted (hs : Sound cfg now db) (h : Rooted db) (m : Moves cfg now D db db') :
    Rooted db' := by
  induction m with
  | refl => exact h
  | tail ms m ih => exact (m.effects (Moves.sound hs ms)).rooted ih

lemma Moves.buried (hs : Sound cfg now db) (hr : Rooted db) (h : db.Buried now c)
    (hD : c.Apart D) (m : Moves cfg now D db db') : db'.Buried now c := by
  induction m with
  | refl => exact h
  | tail ms m ih => exact ih.step (Moves.rooted hs hr ms) (m.effects (Moves.sound hs ms)) hD

lemma Moves.silent (hs : Sound cfg now db) {id : Uuid} (h : db.Silent id sid)
    (hD : sid ∉ D.ids) (m : Moves cfg now D db db') : db'.Silent id sid := by
  induction m with
  | refl => exact h
  | tail ms m ih => exact ih.step (m.effects (Moves.sound hs ms)) hD

theorem Server.Reachable.rooted {s : Server} (h : s.Reachable cfg) : Rooted s.db := by
  obtain ⟨as, has, rfl⟩ := h
  refine (along_invariant (I := fun s : Server => s.Inv cfg ∧ Rooted s.db) ?_
    ⟨⟨Sound.empty, rfl⟩, Rooted.empty⟩ has).2
  rintro s a ⟨hi, hr⟩ ha
  exact ⟨hi.act ha, Moves.rooted (hi.sound.tick ha.le) hr (hi.moves ha)⟩

section Run

variable {s : Server} {as : List Act}

lemma Server.Marked.run (h : s.Marked cfg c) (has : Along (Server.act cfg) (Admissible cfg) s as)
    (hd : ∀ a ∈ as, c.Apart (a.draws cfg)) : (run (Server.act cfg) s as).Marked cfg c := by
  induction as generalizing s with
  | nil => exact h
  | cons a as ih =>
    obtain ⟨ha, has⟩ := has
    obtain ⟨hda, hd⟩ := List.forall_mem_cons.mp hd
    have hs := h.inv.sound.tick ha.le
    have hm := h.inv.moves ha
    exact ih ⟨h.inv.act ha, Moves.rooted hs h.rooted hm,
      Moves.buried hs h.rooted (h.buried.tick ha.le) hda hm⟩ has hd

lemma Server.Inv.silent (h : s.Inv cfg) {id sid : Uuid} (hq : s.db.Silent id sid)
    (has : Along (Server.act cfg) (Admissible cfg) s as) (hd : ∀ a ∈ as, sid ∉ (a.draws cfg).ids) :
    (run (Server.act cfg) s as).db.Silent id sid := by
  induction as generalizing s with
  | nil => exact hq
  | cons a as ih =>
    obtain ⟨ha, has⟩ := has
    obtain ⟨hda, hd⟩ := List.forall_mem_cons.mp hd
    exact ih (h.act ha) (Moves.silent (h.sound.tick ha.le) hq hda (h.moves ha)) has hd

end Run

/-! ### Refusals -/

/-- `p` is the authority that asked for the lineage. -/
def ConnectionRecord.SameAuthority (c : ConnectionRecord) (hash : Hash) (p : Principal) : Prop :=
  p.kind = .account ∧ p.authSession = c.authSession ∧ (c.authSession = none → hash = c.accountHash)

lemma Db.Gone.refuses (h : db.Gone now c) {hash : Hash}
    (hp : c.SameAuthority hash p) : txPrincipal db now hash p ≠ .ok () := by
  intro hok
  obtain ⟨hkind, hauth, hhash⟩ := hp
  obtain ⟨ha, htok⟩ := txPrincipal_eq_ok.mp hok
  cases hc : c.authSession with
  | some i =>
    obtain ⟨a, ha⟩ := checkLogin_eq_ok.mp ha i (hauth.trans hc)
    obtain ⟨hget, -, -, hcheck⟩ := authAuthority_eq_ok.mp ha
    obtain ⟨hm, hid⟩ := get_eq_some.mp hget
    obtain ⟨hrev, hlt, -⟩ := checkAuthSession_eq_ok.mp hcheck
    rcases h.login i hc a hm hid with hr | hr | hr
    · exact hr hrev
    · omega
    · exact not_past hcheck hr
  | none =>
    have hn : p.authSession = none := hauth.trans hc
    obtain ⟨t, hget, rfl, hlt, hact⟩ := htok fun hk => hk.1 hn
    obtain ⟨hm, hid⟩ := get_eq_some.mp hget
    rcases h.account hc t hm (hid.trans (hhash hc)) hkind hn with hr | ⟨n, hn', hnid, hr⟩
    · omega
    obtain ⟨n', hget', hv, -⟩ := txActive_eq_ok.mp hact
    obtain ⟨hm', hid'⟩ := get_eq_some.mp hget'
    obtain rfl := eq_of_key_eq hn' hm' (hnid.trans hid'.symm)
    have hv : n.version = t.version := hv
    omega

lemma Db.Buried.refuses (h : db.Buried now c) {hash : Hash}
    (hp : c.SameAuthority hash p) {r : ConnectionRequest} {d : Done}
    (hb : r.broker = some c.broker) :
    connectionSession cfg db now hash p sid (some c.id) r ≠ .ok d := by
  intro hok
  obtain ⟨i, broker, request, token, expected, relay, hid, rfl, hpr, ⟨b, hbm, -⟩, hcase⟩ :=
    connectionSession_cases hok
  cases hid
  cases hb
  rcases h with ⟨c', hc', ⟨hsame, -⟩, hrev⟩ | h | h
  · have hget : db.connections.get c.id = some c' := by
      refine get_eq_some.mpr ⟨hc', ?_⟩
      rw [hsame]
    rw [hget] at hcase
    have hno : ∀ {relay}, ¬Admits db now hash p c.broker relay c' := fun hA =>
      hrev (checkConnection_eq_ok.mp hA.check).1
    rcases hcase with ⟨c₁, v, h1, hA, -⟩ | ⟨c₁, h1, hA, -⟩ | ⟨h1, -⟩
    · cases h1
      exact hno hA
    · cases h1
      exact hno hA
    · cases h1
  · exact h.refuses hp hpr
  · obtain ⟨hm, hid⟩ := get_eq_some.mp hbm
    exact h b hm hid

lemma Db.Silent.refuses {v : Session} {id : Uuid} (h : db.Silent id v.id)
    (hv : v.connection = some id) : managedSession db now v ≠ .ok () := by
  intro hok
  obtain ⟨c, hc, hcheck, hsid, -⟩ := managedSession_eq_ok.mp hok id hv
  obtain ⟨hm, hid⟩ := get_eq_some.mp hc
  rcases h c hm hid with hr | hr
  · exact hr (checkConnection_eq_ok.mp hcheck).1
  · exact hr hsid

/-- **A revoked lineage does not come back**: no later request for it and no later check of its
sessions succeeds, whether the row is still there or was pruned. -/
theorem revoked_stays_revoked {s : Server} (hs : s.Reachable cfg) (hc : c ∈ s.db.connections)
    (hrev : c.revoked ≠ none) {as : List Act}
    (has : Along (Server.act cfg) (Admissible cfg) s as)
    (hd : ∀ a ∈ as, c.Apart (a.draws cfg)) (hn : (run (Server.act cfg) s as).clock ≤ now) :
    (∀ hash p sid r d, c.SameAuthority hash p → r.broker = some c.broker →
      connectionSession cfg (run (Server.act cfg) s as).db now hash p sid (some c.id) r ≠ .ok d) ∧
    ∀ v : Session, v.connection = some c.id → (∀ a ∈ as, v.id ∉ (a.draws cfg).ids) →
      managedSession (run (Server.act cfg) s as).db now v ≠ .ok () := by
  have hmarked : s.Marked cfg c :=
    ⟨hs.inv, hs.rooted, .inl ⟨c, hc, .refl c, hrev⟩⟩
  refine ⟨fun hash p sid r d hp hb => ?_, fun v hv hdv => ?_⟩
  · exact ((hmarked.run has hd).buried.tick hn).refuses hp hb
  have hq : s.db.Silent c.id v.id := by
    intro c' hc' hid
    rw [eq_of_key_eq hc' hc hid]
    exact .inl hrev
  exact (hs.inv.silent hq has hdv).refuses hv

def deletedLineage : ConnectionRecord :=
  { id := 5, tenant := 1, broker := 3, relay := .auto, accountHash := 11, deviceHash := 13,
    version := 1, generation := 1, session := 6, request := 7, priorGeneration := 0,
    tokenHash := 15, authSession := some 2, revoked := some .closed }

def deletedServer : Server :=
  run (Server.act sampleConfig) managedServer [.call 6 (.deleteConnection 11 samplePrincipal 5)]

def forgottenActs : List Act := [.call 7 (.logoutAuth (some 12)), .prune fun _ => 8]

/-- The row is pruned, and its caller still cannot have it back. -/
theorem revoked_stays_revoked_pruned :
    deletedLineage ∈ deletedServer.db.connections ∧ deletedLineage.revoked ≠ none ∧
    (run (Server.act sampleConfig) deletedServer forgottenActs).db.connections.get 5 = none ∧
    ∀ d, connectionSession sampleConfig
      (run (Server.act sampleConfig) deletedServer forgottenActs).db 9 11 samplePrincipal 8 (some 5)
      sampleRequest ≠ .ok d := by
  have hreach : deletedServer.Reachable sampleConfig := by
    refine managedServer_reachable.run ⟨⟨?_, ?_⟩, trivial⟩ <;> decide +kernel
  have hmem : deletedLineage ∈ deletedServer.db.connections := by decide +kernel
  have has : Along (Server.act sampleConfig) (Admissible sampleConfig) deletedServer
      forgottenActs :=
    ⟨⟨by decide +kernel, by decide +kernel⟩, ⟨by decide +kernel, monotone_const⟩, trivial⟩
  refine ⟨hmem, by decide, by decide +kernel, fun d => ?_⟩
  refine (revoked_stays_revoked hreach hmem (by decide) has ?_ (by decide +kernel)).1 _ _ _ _ d
    ⟨rfl, rfl, (by rintro ⟨⟩)⟩ rfl
  intro a ha
  simp only [forgottenActs, List.mem_cons, List.not_mem_nil, or_false] at ha
  rcases ha with rfl | rfl
  · exact ⟨(by rintro ⟨⟩), (fun i _ h => by cases h), (by rintro ⟨⟩)⟩
  · exact ⟨(by rintro ⟨⟩), (fun i _ h => by cases h), (by rintro ⟨⟩)⟩

end OhecoBroker.Control
