/-
The agreement between the tables of the control server.  They refer to each other by identifiers
and hashes, mostly without foreign keys; the handlers rely on an invariant.

* `Sound`: the rows that belong together agree, at a time;
* `Sound.deleteTokens`, `Sound.addToken`, `Sound.touch`, `Sound.openSession`: what a group of
  statements must meet to keep the tables sound;
* `Sound.issueAuthSession`, `Sound.rotateAuth`: a new login session, and a rotation;
* `Connects`, `Sound.openGeneration`: what a request for a session of a lineage has made sure of,
  and that the new generation keeps the tables sound.
-/
import OhecoBroker.Control.Authority
import OhecoBroker.Control.Brokers

namespace OhecoBroker.Control

open Lib Table

/-! ### Sound tables -/

/-- The agreement between the rows that belong together, at time `now`. -/
structure Sound (cfg : Config) (now : ℕ) (db : Db) : Prop where
  /-- A session token agrees with its session. -/
  paired : ∀ t ∈ db.tokens, t.kind = .session → ∀ v ∈ db.sessions, t.session = some v.id →
    t.tenant = v.tenant ∧ t.broker = some v.broker ∧ t.authSession = v.authSession ∧
      t.expiresAt = v.expiresAt
  /-- Only session tokens name a session. -/
  plain : ∀ t ∈ db.tokens, t.kind ≠ .session → t.session = none
  /-- A live session has its token. -/
  covered : ∀ v ∈ db.sessions, now < v.expiresAt →
    ∃ t ∈ db.tokens, t.kind = .session ∧ t.session = some v.id
  /-- The current session of a lineage is of its scope. -/
  scope : ∀ c ∈ db.connections, ∀ v ∈ db.sessions, v.id = c.session →
    v.tenant = c.tenant ∧ v.broker = c.broker ∧ v.relayMode = c.relay ∧
      (c.authSession ≠ none → v.authSession = c.authSession)
  /-- The token of the current session is the one the lineage recorded. -/
  transport : ∀ c ∈ db.connections, ∀ t ∈ db.tokens, t.kind = .session →
    t.session = some c.session → t.hash = c.tokenHash ∧ t.version = c.version
  /-- A lineage is bound to a device token of its broker. -/
  device : ∀ c ∈ db.connections, ∀ t ∈ db.tokens, t.kind = .device → t.hash = c.deviceHash →
    t.broker = some c.broker
  /-- A token of a login session has its authority behind it. -/
  authority : ∀ t ∈ db.tokens, ∀ i, t.authSession = some i → ∃ a ∈ db.authSessions,
    a.id = i ∧ a.revoked = none ∧ a.tenant = t.tenant ∧ a.version = t.version ∧
      (t.kind = .account → t.expiresAt ≤ a.refreshExpiry)
  /-- The account token a login session records is its own. -/
  account : ∀ a ∈ db.authSessions, ∀ t ∈ db.tokens, t.kind = .account → t.hash = a.tokenHash →
    t.authSession = some a.id
  /-- The deadlines of a login session are ordered. -/
  deadlines : ∀ a ∈ db.authSessions, a.tokenExpiry ≤ a.refreshExpiry ∧
    a.refreshExpiry ≤ now + cfg.authRefreshTTL ∧
      (a.absoluteExpiry ≠ 0 → a.refreshExpiry ≤ a.absoluteExpiry)

variable {cfg : Config} {now : ℕ} {db db' : Db}

lemma Sound.congr (h : Sound cfg now db) (ht : db'.tokens = db.tokens)
    (hv : db'.sessions = db.sessions) (ha : db'.authSessions = db.authSessions)
    (hc : db'.connections = db.connections) : Sound cfg now db' := by
  constructor <;> simp only [ht, hv, ha, hc]
  exacts [h.paired, h.plain, h.covered, h.scope, h.transport, h.device, h.authority, h.account,
    h.deadlines]

/-- Sound tables stay sound as time goes by. -/
lemma Sound.tick (h : Sound cfg now db) {now' : ℕ} (hn : now ≤ now') : Sound cfg now' db where
  __ := h
  covered v hv hlt := h.covered v hv (by omega)
  deadlines a ha := by
    obtain ⟨h1, h2, h3⟩ := h.deadlines a ha
    exact ⟨h1, by omega, h3⟩

lemma Sound.empty : Sound cfg now {} := by
  constructor <;> intro r hr <;> exact absurd hr (not_mem_empty r)

/-! ### What each group of statements keeps -/

/-- Sessions may go. -/
lemma Sound.deleteSessions (h : Sound cfg now db) (p : SessionRow → Bool) :
    Sound cfg now (db.deleteSessions p) where
  __ := h
  paired t ht hk v hv := h.paired t ht hk v (mem_delete.mp hv).1
  covered v hv := h.covered v (mem_delete.mp hv).1
  scope c hc v hv := h.scope c hc v (mem_delete.mp hv).1

lemma Sound.deleteTokens (h : Sound cfg now db) (q : Token → Bool)
    (hq : ∀ t ∈ db.tokens, q t → t.kind = .session → ∀ v ∈ db.sessions, t.session = some v.id →
      v.expiresAt ≤ now) : Sound cfg now (db.deleteTokens q) where
  __ := h
  paired t ht := h.paired t (mem_delete.mp ht).1
  plain t ht := h.plain t (mem_delete.mp ht).1
  covered v hv hlt := by
    obtain ⟨t, ht, hk, hs⟩ := h.covered v hv hlt
    refine ⟨t, mem_delete.mpr ⟨ht, ?_⟩, hk, hs⟩
    by_contra hqt
    have := hq t ht (by simpa using hqt) hk v hv hs
    omega
  transport c hc t ht := h.transport c hc t (mem_delete.mp ht).1
  device c hc t ht := h.device c hc t (mem_delete.mp ht).1
  authority t ht := h.authority t (mem_delete.mp ht).1
  account a ha t ht := h.account a ha t (mem_delete.mp ht).1

lemma Sound.updateConnections (h : Sound cfg now db) (p : ConnectionRecord → Bool)
    (f : ConnectionRecord → ConnectionRecord) (hf : ∀ c, (f c).id = c.id)
    (hk : ∀ c, (f c).tenant = c.tenant ∧ (f c).broker = c.broker ∧ (f c).relay = c.relay ∧
      (f c).deviceHash = c.deviceHash ∧ (f c).version = c.version ∧ (f c).session = c.session ∧
      (f c).tokenHash = c.tokenHash ∧ (f c).authSession = c.authSession) :
    Sound cfg now (db.updateConnections p f hf) := by
  have same : ∀ c ∈ (db.updateConnections p f hf).connections, ∃ c' ∈ db.connections,
      c.tenant = c'.tenant ∧ c.broker = c'.broker ∧ c.relay = c'.relay ∧
      c.deviceHash = c'.deviceHash ∧ c.version = c'.version ∧ c.session = c'.session ∧
      c.tokenHash = c'.tokenHash ∧ c.authSession = c'.authSession := by
    intro c hc
    simp only [Db.updateConnections_connections, mem_update] at hc
    obtain ⟨c', hc', rfl⟩ := hc
    refine ⟨c', hc', ?_⟩
    split
    · exact hk c'
    · simp
  refine { h with scope := ?_, transport := ?_, device := ?_ }
  · intro c hc v hv hs
    obtain ⟨c', hc', e1, e2, e3, -, -, e4, -, e5⟩ := same c hc
    rw [e1, e2, e3, e5]
    exact h.scope c' hc' v hv (hs.trans e4)
  · intro c hc t ht hkind hs
    obtain ⟨c', hc', -, -, -, -, e1, e2, e3, -⟩ := same c hc
    rw [e1, e3]
    exact h.transport c' hc' t ht hkind (hs.trans (congrArg _ e2))
  · intro c hc t ht hkind hd
    obtain ⟨c', hc', -, e1, -, e2, -⟩ := same c hc
    rw [e1]
    exact h.device c' hc' t ht hkind (hd.trans e2)

lemma Sound.deleteConnections (h : Sound cfg now db) (p : ConnectionRecord → Bool) :
    Sound cfg now (db.deleteConnections p) where
  __ := h
  scope c hc := h.scope c (mem_delete.mp hc).1
  transport c hc := h.transport c (mem_delete.mp hc).1
  device c hc := h.device c (mem_delete.mp hc).1

def Db.backs (db : Db) (t : Token) : Prop :=
  ∀ i, t.authSession = some i → ∃ a ∈ db.authSessions, a.id = i ∧ a.revoked = none ∧
    a.tenant = t.tenant ∧ a.version = t.version ∧
    (t.kind = .account → t.expiresAt ≤ a.refreshExpiry)

lemma Sound.addToken (h : Sound cfg now db) {t : Token} {tokens : Table Token.hash}
    (hi : db.tokens.insert t = some tokens) (hk : t.kind ≠ .session) (hs : t.session = none)
    (ha : db.backs t) (hacc : t.kind = .account → ∀ a ∈ db.authSessions, a.tokenHash = t.hash →
      t.authSession = some a.id)
    (hdev : t.kind = .device → ∀ c ∈ db.connections, c.deviceHash ≠ t.hash) :
    Sound cfg now (db.withTokens tokens) := by
  have mem : ∀ {u : Token}, u ∈ tokens ↔ u = t ∨ u ∈ db.tokens := mem_insert hi
  refine { h with
    paired := ?_, plain := ?_, covered := ?_, transport := ?_, device := ?_, authority := ?_
    account := ?_ } <;> simp only [Db.withTokens_tokens, mem]
  · rintro u (rfl | hu) hku
    · exact absurd hku hk
    · exact h.paired u hu hku
  · rintro u (rfl | hu) hku
    · exact hs
    · exact h.plain u hu hku
  · intro v hv hlt
    obtain ⟨u, hu, hk'⟩ := h.covered v hv hlt
    exact ⟨u, .inr hu, hk'⟩
  · rintro c hc u (rfl | hu) hku
    · exact absurd hku hk
    · exact h.transport c hc u hu hku
  · rintro c hc u (rfl | hu) hku he
    · exact absurd he.symm (hdev hku c hc)
    · exact h.device c hc u hu hku he
  · rintro u (rfl | hu)
    · exact ha
    · exact h.authority u hu
  · rintro a haa u (rfl | hu) hku he
    · exact hacc hku a haa he.symm
    · exact h.account a haa u hu hku he

lemma Sound.touch (h : Sound cfg now db) (q : Token → Bool) (e : ℕ)
    (hq : ∀ t ∈ db.tokens, q t → t.kind ≠ .session)
    (he : ∀ t ∈ db.tokens, q t → t.kind = .account → ∀ a ∈ db.authSessions,
      t.authSession = some a.id → e ≤ a.refreshExpiry) :
    Sound cfg now (db.updateTokens q fun t => { t with expiresAt := e }) := by
  have same : ∀ u ∈ (db.updateTokens q fun t => { t with expiresAt := e }).tokens,
      ∃ t ∈ db.tokens, u = t ∨ (q t = true ∧ u = { t with expiresAt := e }) := by
    intro u hu
    simp only [Db.updateTokens_tokens, mem_update] at hu
    obtain ⟨t, ht, rfl⟩ := hu
    refine ⟨t, ht, ?_⟩
    split
    · exact .inr ⟨‹_›, rfl⟩
    · exact .inl rfl
  refine { h with
    paired := ?_, plain := ?_, covered := ?_, transport := ?_, device := ?_, authority := ?_
    account := ?_ }
  · intro u hu hku
    obtain ⟨t, ht, rfl | ⟨hqt, rfl⟩⟩ := same u hu
    · exact h.paired u ht hku
    · exact absurd hku (hq t ht hqt)
  · intro u hu hku
    obtain ⟨t, ht, rfl | ⟨hqt, rfl⟩⟩ := same u hu
    · exact h.plain u ht hku
    · exact h.plain t ht hku
  · intro v hv hlt
    obtain ⟨t, ht, hk, hs⟩ := h.covered v hv hlt
    have hqt : q t = false := by
      by_contra hqt
      exact hq t ht (by simpa using hqt) hk
    refine ⟨t, ?_, hk, hs⟩
    simp only [Db.updateTokens_tokens, mem_update]
    exact ⟨t, ht, by simp [hqt]⟩
  · intro c hc u hu hku
    obtain ⟨t, ht, rfl | ⟨hqt, rfl⟩⟩ := same u hu
    · exact h.transport c hc u ht hku
    · exact absurd hku (hq t ht hqt)
  · intro c hc u hu hku hh
    obtain ⟨t, ht, rfl | ⟨hqt, rfl⟩⟩ := same u hu
    · exact h.device c hc u ht hku hh
    · exact h.device c hc t ht hku hh
  · intro u hu
    obtain ⟨t, ht, rfl | ⟨hqt, rfl⟩⟩ := same u hu
    · exact h.authority u ht
    intro i hi
    obtain ⟨a, ha, h1, h2, h3, h4, -⟩ := h.authority t ht i hi
    exact ⟨a, ha, h1, h2, h3, h4,
      fun hk => he t ht hqt hk a ha (hi.trans (congrArg _ h1.symm))⟩
  · intro a ha u hu hku hh
    obtain ⟨t, ht, rfl | ⟨hqt, rfl⟩⟩ := same u hu
    · exact h.account a ha u ht hku hh
    · exact h.account a ha t ht hku hh

lemma Sound.relabel (h : Sound cfg now db) (p : SessionRow → Bool) (f : SessionRow → SessionRow)
    (hf : ∀ v, (f v).id = v.id)
    (hk : ∀ v, (f v).tenant = v.tenant ∧ (f v).broker = v.broker ∧ (f v).relayMode = v.relayMode ∧
      (f v).expiresAt = v.expiresAt ∧ (f v).authSession = v.authSession) :
    Sound cfg now (db.updateSessions p f hf) := by
  have same : ∀ v ∈ (db.updateSessions p f hf).sessions, ∃ v' ∈ db.sessions,
      v.id = v'.id ∧ v.tenant = v'.tenant ∧ v.broker = v'.broker ∧ v.relayMode = v'.relayMode ∧
      v.expiresAt = v'.expiresAt ∧ v.authSession = v'.authSession := by
    intro v hv
    simp only [Db.updateSessions_sessions, mem_update] at hv
    obtain ⟨v', hv', rfl⟩ := hv
    refine ⟨v', hv', ?_⟩
    split
    · exact ⟨hf v', hk v'⟩
    · simp
  refine { h with paired := ?_, covered := ?_, scope := ?_ }
  · intro t ht hkt v hv hs
    obtain ⟨v', hv', e1, e2, e3, -, e4, e5⟩ := same v hv
    rw [e2, e3, e4, e5]
    exact h.paired t ht hkt v' hv' (hs.trans (congrArg _ e1))
  · intro v hv hlt
    obtain ⟨v', hv', e1, -, -, -, e2, -⟩ := same v hv
    rw [e1]
    exact h.covered v' hv' (by omega)
  · intro c hc v hv hs
    obtain ⟨v', hv', e1, e2, e3, e4, -, e5⟩ := same v hv
    rw [e2, e3, e4, e5]
    exact h.scope c hc v' hv' (e1.symm.trans hs)

lemma Sound.extendSession (h : Sound cfg now db) (id : Uuid) (e : ℕ)
    (hlive : ∀ v ∈ db.sessions, v.id = id → now < v.expiresAt) :
    Sound cfg now (extendSession db id e) := by
  have sess : ∀ v ∈ (Control.extendSession db id e).sessions, ∃ w ∈ db.sessions,
      v = if w.id = id then { w with expiresAt := e } else w := by
    intro v hv
    simp only [Control.extendSession, Db.updateTokens_sessions, Db.updateSessions_sessions,
      mem_update, decide_eq_true_eq] at hv
    obtain ⟨w, hw, rfl⟩ := hv
    exact ⟨w, hw, rfl⟩
  have toks : ∀ u ∈ (Control.extendSession db id e).tokens, ∃ t ∈ db.tokens,
      u = if t.kind = .session ∧ t.session = some id then { t with expiresAt := e } else t := by
    intro u hu
    simp only [Control.extendSession, Db.updateTokens_tokens, Db.updateSessions_tokens,
      mem_update, Bool.and_eq_true, decide_eq_true_eq] at hu
    obtain ⟨t, ht, rfl⟩ := hu
    exact ⟨t, ht, rfl⟩
  refine { h with
    paired := ?_, plain := ?_, covered := ?_, scope := ?_, transport := ?_, device := ?_
    authority := ?_, account := ?_ }
  · intro u hu hku v hv hs
    obtain ⟨t, ht, rfl⟩ := toks u hu
    obtain ⟨w, hw, rfl⟩ := sess v hv
    have hkt : t.kind = .session := by split_ifs at hku <;> exact hku
    have hst : t.session = some w.id := by split_ifs at hs <;> exact hs
    obtain ⟨e1, e2, e3, e4⟩ := h.paired t ht hkt w hw hst
    by_cases hid : w.id = id
    · simp [hkt, hst, hid, e1, e2, e3]
    · simp [hst, hid, e1, e2, e3, e4]
  · intro u hu hku
    obtain ⟨t, ht, rfl⟩ := toks u hu
    have hkt : t.kind ≠ .session := by split_ifs at hku <;> exact hku
    rw [if_neg (by simp [hkt])]
    exact h.plain t ht hkt
  · intro v hv hlt
    obtain ⟨w, hw, rfl⟩ := sess v hv
    have hlw : now < w.expiresAt := by
      by_cases hid : w.id = id
      · exact hlive w hw hid
      · simpa [hid] using hlt
    obtain ⟨t, ht, hkt, hst⟩ := h.covered w hw hlw
    refine ⟨if t.kind = .session ∧ t.session = some id then { t with expiresAt := e } else t,
      ?_, ?_⟩
    · simp only [Control.extendSession, Db.updateTokens_tokens, Db.updateSessions_tokens,
        mem_update, Bool.and_eq_true, decide_eq_true_eq]
      exact ⟨t, ht, rfl⟩
    · split_ifs <;> exact ⟨hkt, hst⟩
  · intro c hc v hv hs
    obtain ⟨w, hw, rfl⟩ := sess v hv
    split_ifs at hs ⊢ <;> exact h.scope c hc w hw hs
  · intro c hc u hu hku hs
    obtain ⟨t, ht, rfl⟩ := toks u hu
    split_ifs at hku hs ⊢ <;> exact h.transport c hc t ht hku hs
  · intro c hc u hu hku he
    obtain ⟨t, ht, rfl⟩ := toks u hu
    split_ifs at hku he ⊢ <;> exact h.device c hc t ht hku he
  · intro u hu i hi
    obtain ⟨t, ht, rfl⟩ := toks u hu
    by_cases hk : t.kind = .session ∧ t.session = some id
    · rw [if_pos hk] at hi ⊢
      obtain ⟨a, ha, h1, h2, h3, h4, -⟩ := h.authority t ht i hi
      exact ⟨a, ha, h1, h2, h3, h4, by simp [hk.1]⟩
    · rw [if_neg hk] at hi ⊢
      exact h.authority t ht i hi
  · intro a ha u hu hku he
    obtain ⟨t, ht, rfl⟩ := toks u hu
    split_ifs at hku he ⊢ <;> exact h.account a ha t ht hku he

/-- A new session comes with its token. -/
lemma openSession_eq_ok {v : SessionRow} {hash : Hash} {version : ℕ}
    (h : openSession db v hash version = .ok db') :
    ∃ sessions tokens, db.sessions.insert v = some sessions ∧
      db.tokens.insert (v.token hash version) = some tokens ∧
      db' = (db.withSessions sessions).withTokens tokens := by
  simp only [openSession, bind_eq_ok, found_eq_ok, pure_eq_ok] at h
  obtain ⟨sessions, h1, tokens, h2, rfl⟩ := h
  exact ⟨sessions, tokens, h1, h2, rfl⟩

lemma Sound.openSession (h : Sound cfg now db) {v : SessionRow} {hash : Hash} {version : ℕ}
    (ho : openSession db v hash version = .ok db')
    (htok : ∀ t ∈ db.tokens, t.session ≠ some v.id)
    (hcon : ∀ c ∈ db.connections, c.session ≠ v.id)
    (hauth : ∀ i, v.authSession = some i → ∃ a ∈ db.authSessions, a.id = i ∧ a.revoked = none ∧
      a.tenant = v.tenant ∧ a.version = version) :
    Sound cfg now db' := by
  obtain ⟨sessions, tokens, hi, hj, rfl⟩ := openSession_eq_ok ho
  have ms : ∀ {w : SessionRow}, w ∈ sessions ↔ w = v ∨ w ∈ db.sessions := mem_insert hi
  have mt : ∀ {u : Token}, u ∈ tokens ↔ u = v.token hash version ∨ u ∈ db.tokens :=
    mem_insert hj
  have hnew : ∀ w ∈ db.sessions, w.id ≠ v.id := get_eq_none.mp (insert_eq_some hi).1
  refine { h with
    paired := ?_, plain := ?_, covered := ?_, scope := ?_, transport := ?_, device := ?_
    authority := ?_, account := ?_ } <;>
    simp only [Db.withTokens_tokens, Db.withTokens_sessions, Db.withSessions_sessions, ms, mt]
  · rintro u (rfl | hu) hku w (rfl | hw) hs
    · exact ⟨rfl, rfl, rfl, rfl⟩
    · exact absurd (Option.some.inj hs).symm (hnew w hw)
    · exact absurd hs (htok u hu)
    · exact h.paired u hu hku w hw hs
  · rintro u (rfl | hu) hku
    · exact absurd rfl hku
    · exact h.plain u hu hku
  · rintro w (rfl | hw) hlt
    · exact ⟨_, .inl rfl, rfl, rfl⟩
    · obtain ⟨u, hu, hk⟩ := h.covered w hw hlt
      exact ⟨u, .inr hu, hk⟩
  · rintro c hc w (rfl | hw) hs
    · exact absurd hs.symm (hcon c hc)
    · exact h.scope c hc w hw hs
  · rintro c hc u (rfl | hu) hku hs
    · exact absurd (Option.some.inj hs).symm (hcon c hc)
    · exact h.transport c hc u hu hku hs
  · rintro c hc u (rfl | hu) hku
    · cases hku
    · exact h.device c hc u hu hku
  · rintro u (rfl | hu) i hiu
    · obtain ⟨a, ha, h1, h2, h3, h4⟩ := hauth i hiu
      exact ⟨a, ha, h1, h2, h3, h4, (by rintro ⟨⟩)⟩
    · exact h.authority u hu i hiu
  · rintro a ha u (rfl | hu) hku
    · cases hku
    · exact h.account a ha u hu hku

variable {row : ConnectionRecord} {d : Done} {old : Option ConnectionRecord}

lemma Sound.writeLineage (h : Sound cfg now db) {connections : Table ConnectionRecord.id}
    (hmem : ∀ c ∈ connections, c = row ∨ c ∈ db.connections)
    (hscope : ∀ v ∈ db.sessions, v.id = row.session → v.tenant = row.tenant ∧
      v.broker = row.broker ∧ v.relayMode = row.relay ∧
      (row.authSession ≠ none → v.authSession = row.authSession))
    (htrans : ∀ t ∈ db.tokens, t.kind = .session → t.session = some row.session →
      t.hash = row.tokenHash ∧ t.version = row.version)
    (hdev : ∀ t ∈ db.tokens, t.kind = .device → t.hash = row.deviceHash →
      t.broker = some row.broker) :
    Sound cfg now (db.withConnections connections) := by
  refine { h with scope := ?_, transport := ?_, device := ?_ }
  · intro c hc
    rcases hmem c hc with rfl | hc
    · exact hscope
    · exact h.scope c hc
  · intro c hc
    rcases hmem c hc with rfl | hc
    · exact htrans
    · exact h.transport c hc
  · intro c hc
    rcases hmem c hc with rfl | hc
    · exact hdev
    · exact h.device c hc

/-! ### Login sessions -/

lemma issueAuthSession_eq_ok {draw : AuthDraw} {tenant : Uuid} {version : ℕ}
    {c : AuthCredentials} (h : issueAuthSession cfg db now draw tenant version = .ok (db', c)) :
    ∃ a t authSessions tokens, db.authSessions.insert a = some authSessions ∧
      db.tokens.insert t = some tokens ∧
      db' = (db.withAuthSessions authSessions).withTokens tokens ∧
      a.id = draw.id ∧ a.tenant = tenant ∧ a.version = version ∧ a.revoked = none ∧
      a.tokenHash = cfg.tokenHash draw.token ∧
      a.refreshExpiry = cfg.refreshExpiry now (cfg.absoluteExpiry now) ∧
      a.absoluteExpiry = cfg.absoluteExpiry now ∧ a.tokenExpiry = t.expiresAt ∧
      t.hash = cfg.tokenHash draw.token ∧ t.kind = .account ∧ t.tenant = tenant ∧
      t.broker = none ∧ t.session = none ∧ t.version = version ∧
      t.expiresAt = min (now + cfg.accountTokenTTL) a.refreshExpiry ∧
      t.authSession = some draw.id := by
  simp only [issueAuthSession, bind_eq_ok, found_eq_ok, reject_eq_ok, exists_unit, pure_eq_ok,
    Prod.mk.injEq] at h
  obtain ⟨-, -, A, hA, T, hT, rfl, rfl⟩ := h
  exact ⟨_, _, A, T, hA, hT, rfl, rfl, rfl, rfl, rfl, rfl, rfl, rfl, rfl, rfl, rfl, rfl, rfl, rfl,
    rfl, rfl, rfl⟩

lemma Config.refreshExpiry_le (cfg : Config) (now absolute : ℕ) :
    cfg.refreshExpiry now absolute ≤ now + cfg.authRefreshTTL ∧
    (absolute ≠ 0 → cfg.refreshExpiry now absolute ≤ absolute) := by
  unfold Config.refreshExpiry
  split <;> omega

lemma Sound.writeAuthSession (h : Sound cfg now db) {a : AuthSession}
    {authSessions : Table AuthSession.id}
    (hmem : ∀ b ∈ authSessions, b = a ∨ b ∈ db.authSessions)
    (hkeep : ∀ b ∈ db.authSessions, b ∈ authSessions ∨
      (b.id = a.id ∧ a ∈ authSessions ∧ a.revoked = b.revoked ∧ a.tenant = b.tenant ∧
        a.version = b.version ∧ b.refreshExpiry ≤ a.refreshExpiry))
    (hnew : ∀ t ∈ db.tokens, t.kind = .account → t.hash ≠ a.tokenHash)
    (hdl : a.tokenExpiry ≤ a.refreshExpiry ∧ a.refreshExpiry ≤ now + cfg.authRefreshTTL ∧
      (a.absoluteExpiry ≠ 0 → a.refreshExpiry ≤ a.absoluteExpiry)) :
    Sound cfg now (db.withAuthSessions authSessions) := by
  refine { h with authority := ?_, account := ?_, deadlines := ?_ }
  · intro t ht i hi
    obtain ⟨b, hb, h1, h2, h3, h4, h5⟩ := h.authority t ht i hi
    rcases hkeep b hb with hb' | ⟨e1, ha, e2, e3, e4, e5⟩
    · exact ⟨b, hb', h1, h2, h3, h4, h5⟩
    · exact ⟨a, ha, e1.symm.trans h1, e2.trans h2, e3.trans h3, e4.trans h4,
        fun hk => (h5 hk).trans e5⟩
  · intro b hb t ht hk he
    rcases hmem b hb with rfl | hb
    · exact absurd he (hnew t ht hk)
    · exact h.account b hb t ht hk he
  · intro b hb
    rcases hmem b hb with rfl | hb
    · exact hdl
    · exact h.deadlines b hb

/-- A new login session keeps the tables sound. -/
lemma Sound.issueAuthSession (h : Sound cfg now db) {draw : AuthDraw} {tenant : Uuid}
    {version : ℕ} {c : AuthCredentials}
    (hi : issueAuthSession cfg db now draw tenant version = .ok (db', c))
    (hnew : ∀ a ∈ db.authSessions, a.tokenHash ≠ cfg.tokenHash draw.token) :
    Sound cfg now db' := by
  obtain ⟨a, t, A, T, hA, hT, rfl, hid, hten, hver, hrev, hhash, href, habs, htok, thash, tk, tt,
    tb, ts, tv, te, ta⟩ := issueAuthSession_eq_ok hi
  have free := get_eq_none.mp (insert_eq_some hT).1
  have ha : a ∈ A := (mem_insert hA).mpr (.inl rfl)
  have hle := cfg.refreshExpiry_le now (cfg.absoluteExpiry now)
  have h1 : Sound cfg now (db.withAuthSessions A) := by
    refine h.writeAuthSession (a := a) (fun b hb => (mem_insert hA).mp hb)
      (fun b hb => .inl ((mem_insert hA).mpr (.inr hb))) ?_ ?_
    · intro u hu _
      rw [hhash, ← thash]
      exact free u hu
    · rw [href, habs, htok, te, href]
      exact ⟨by omega, hle⟩
  refine h1.addToken hT (by simp [tk]) ts ?_ ?_ (by simp [tk])
  · intro i hti
    rw [ta] at hti
    refine ⟨a, ha, hid.trans (Option.some.inj hti), hrev, hten.trans tt.symm,
      hver.trans tv.symm, ?_⟩
    intro _
    omega
  intro _ b hb he
  rcases (mem_insert hA).mp hb with rfl | hb
  · rw [ta, hid]
  · exact absurd (he.trans thash) (hnew b hb)

lemma Sound.updateAuthSessions (h : Sound cfg now db) (p : AuthSession → Bool)
    (f : AuthSession → AuthSession) (hf : ∀ a, (f a).id = a.id)
    (hk : ∀ a, (f a).tokenHash = a.tokenHash ∧ (f a).tokenExpiry = a.tokenExpiry ∧
      (f a).refreshExpiry = a.refreshExpiry ∧ (f a).absoluteExpiry = a.absoluteExpiry)
    (hp : ∀ a ∈ db.authSessions, p a → ∀ t ∈ db.tokens, t.authSession ≠ some a.id) :
    Sound cfg now (db.updateAuthSessions p f hf) := by
  have same : ∀ a ∈ (db.updateAuthSessions p f hf).authSessions, ∃ b ∈ db.authSessions,
      a.id = b.id ∧ a.tokenHash = b.tokenHash ∧ a.tokenExpiry = b.tokenExpiry ∧
      a.refreshExpiry = b.refreshExpiry ∧ a.absoluteExpiry = b.absoluteExpiry := by
    intro a ha
    simp only [Db.updateAuthSessions_authSessions, mem_update] at ha
    obtain ⟨b, hb, rfl⟩ := ha
    refine ⟨b, hb, ?_⟩
    split
    · exact ⟨hf b, hk b⟩
    · simp
  refine { h with authority := ?_, account := ?_, deadlines := ?_ }
  · intro t ht i hi
    obtain ⟨a, ha, h1, h2⟩ := h.authority t ht i hi
    have hpa : p a = false := by
      by_contra hpa
      exact hp a ha (by simpa using hpa) t ht (hi.trans (congrArg _ h1.symm))
    refine ⟨a, ?_, h1, h2⟩
    simp only [Db.updateAuthSessions_authSessions, mem_update]
    exact ⟨a, ha, by simp [hpa]⟩
  · intro a ha t ht hkt he
    obtain ⟨b, hb, e1, e2, -⟩ := same a ha
    rw [e1]
    exact h.account b hb t ht hkt (he.trans e2)
  · intro a ha
    obtain ⟨b, hb, -, -, e1, e2, e3⟩ := same a ha
    rw [e1, e2, e3]
    exact h.deadlines b hb

/-- A login session without tokens may go. -/
lemma Sound.deleteAuthSessions (h : Sound cfg now db) (p : AuthSession → Bool)
    (hp : ∀ a ∈ db.authSessions, p a → ∀ t ∈ db.tokens, t.authSession ≠ some a.id) :
    Sound cfg now (db.withAuthSessions (db.authSessions.delete p)) where
  __ := h
  authority t ht i hi := by
    obtain ⟨a, ha, h1, h2⟩ := h.authority t ht i hi
    refine ⟨a, mem_delete.mpr ⟨ha, ?_⟩, h1, h2⟩
    by_contra hpa
    exact hp a ha (by simpa using hpa) t ht (hi.trans (congrArg _ h1.symm))
  account a ha := h.account a (mem_delete.mp ha).1
  deadlines a ha := h.deadlines a (mem_delete.mp ha).1

lemma Sound.rotateAuth (h : Sound cfg now db) {a : AuthSession} {request : Uuid}
    {hash next nextRefresh : Hash} (ha : db.authSessions.get a.id = some a)
    (hrev : a.revoked = none) (hnext : db.uses next = false)
    (hr : rotateAuth cfg db now a request hash next nextRefresh = .ok d) :
    Sound cfg now d.db := by
  obtain ⟨T, hT, rfl⟩ := rotateAuth_ok hr
  obtain ⟨hmem, -⟩ := get_eq_some.mp ha
  obtain ⟨hd1, hd2, hd3⟩ := h.deadlines a hmem
  obtain ⟨hfree, hunused⟩ := not_uses.mp hnext
  have hle := cfg.refreshExpiry_le now a.absoluteExpiry
  have hmono : a.refreshExpiry ≤ cfg.refreshExpiry now a.absoluteExpiry := by
    unfold Config.refreshExpiry
    split <;> omega
  have only : ∀ b ∈ db.authSessions, b.id = a.id → b = a := fun b hb he =>
    eq_of_key_eq hb hmem he
  -- the statements in another order: the tokens of the session, its row, the new token
  have h1 : Sound cfg now (db.overlapTokens cfg now a) := by
    refine (h.deleteTokens _ ?_).touch _ _ ?_ ?_
    · intro t _ hq hk
      simp [hk] at hq
    · intro t _ hq hk
      simp [hk] at hq
    intro t ht hq hk b hb hauth
    simp only [Bool.and_eq_true, decide_eq_true_eq] at hq
    have hta := h.account a hmem t (mem_delete.mp ht).1 hk hq.1
    obtain rfl := only b hb (Option.some.inj (hauth.symm.trans hta))
    omega
  have hkept : ∀ t ∈ (db.overlapTokens cfg now a).tokens, t.hash ≠ next := by
    intro t ht
    simp only [Db.overlapTokens, Db.updateTokens_tokens, Db.deleteTokens_tokens, mem_update,
      mem_delete] at ht
    obtain ⟨u, ⟨hu, -⟩, rfl⟩ := ht
    split <;> exact hfree u hu
  have rows : ∀ b ∈ ((db.overlapTokens cfg now a).updateAuthSessions (fun b => b.id = a.id)
      (AuthSession.rotated cfg now request hash next nextRefresh)
      (AuthSession.rotated_id cfg now request hash next nextRefresh)).authSessions,
      b = a.rotated cfg now request hash next nextRefresh ∨ b ∈ db.authSessions := by
    intro b hb
    simp only [Db.updateAuthSessions_authSessions, mem_update] at hb
    obtain ⟨c, hc, rfl⟩ := hb
    by_cases hid : c.id = a.id
    · obtain rfl := only c hc hid
      simp
    · simp only [hid, decide_false, Bool.false_eq_true, if_false]
      exact .inr hc
  have hrot : a.rotated cfg now request hash next nextRefresh ∈
      ((db.overlapTokens cfg now a).updateAuthSessions (fun b => b.id = a.id)
        (AuthSession.rotated cfg now request hash next nextRefresh)
        (AuthSession.rotated_id cfg now request hash next nextRefresh)).authSessions := by
    simp only [Db.updateAuthSessions_authSessions, mem_update]
    exact ⟨a, hmem, by simp⟩
  have h2 : Sound cfg now ((db.overlapTokens cfg now a).updateAuthSessions (fun b => b.id = a.id)
      (AuthSession.rotated cfg now request hash next nextRefresh)
      (AuthSession.rotated_id cfg now request hash next nextRefresh)) := by
    refine h1.writeAuthSession rows ?_ (fun t ht _ => hkept t ht) ⟨Nat.min_le_right .., hle⟩
    intro b hb
    by_cases hid : b.id = a.id
    · obtain rfl := only b hb hid
      exact .inr ⟨rfl, hrot, rfl, rfl, rfl, hmono⟩
    · simp only [mem_update]
      exact .inl ⟨b, hb, by simp [hid]⟩
  refine @Sound.addToken _ _ _ h2 (a.nextAccount cfg now next) T hT (by rintro ⟨⟩) rfl ?_ ?_
    (by rintro ⟨⟩)
  · intro i hi
    exact ⟨_, hrot, Option.some.inj hi, hrev, rfl, rfl, fun _ => Nat.min_le_right ..⟩
  intro _ b hb he
  rcases rows b hb with rfl | hb
  · rfl
  · exact absurd he (hunused b hb).2.2

/-! ### The next session of a lineage -/

lemma Sound.dropSessions (h : Sound cfg now db) (ids : List Uuid) :
    Sound cfg now (db.dropSessions ids) := by
  refine (h.deleteSessions fun v => v.id ∈ ids).deleteTokens _ ?_
  intro t _ hq _ v hv hs
  simp only [Db.deleteSessions_sessions, mem_delete, decide_eq_false_iff_not] at hv
  simp only [hs, Option.any_some, Bool.and_eq_true, decide_eq_true_eq] at hq
  exact absurd hq.2 hv.2

lemma Sound.dropReplaced (h : Sound cfg now db) (old : Option ConnectionRecord) :
    Sound cfg now (db.dropReplaced old) := by
  cases old with
  | none => exact h
  | some c => exact h.dropSessions [c.session]

lemma openGeneration_eq_ok {p : Principal} (h : openGeneration cfg db now p old row = .ok d) :
    admitGeneration cfg db now p.tenant old row = .ok () ∧ ∃ db₁ db₂ history,
      openSession (db.dropReplaced old) (row.nextSession cfg now p) row.tokenHash p.version =
        .ok db₁ ∧
      writeLineage db₁ row old = .ok db₂ ∧
      db₂.connectionSessions.insert row.history = some history ∧
      (∀ e ∈ db₂.connectionSessions, ¬(e.connection = row.id ∧ e.generation = row.generation)) ∧
      d.db = (db₂.withConnectionSessions history).trimHistory row ∧ d.code = 201 ∧
      d.reply = .connection row.session row.id row.generation (now + cfg.sessionTTL) ∧
      d.revoked = old.toList.map fun c => .session c.session := by
  simp only [openGeneration, bind_eq_ok, found_eq_ok, reject_eq_ok, exists_unit, pure_eq_ok] at h
  obtain ⟨hadm, db₁, h1, db₂, h2, H, hH, hn, rfl⟩ := h
  refine ⟨hadm, db₁, db₂, H, h1, h2, hH, ?_, rfl, rfl, rfl, rfl⟩
  intro e he hc
  exact hn (any_eq_true.mpr ⟨e, he, by simpa using hc⟩)

lemma writeLineage_eq_ok (hold : ∀ c, old = some c → db.connections.get row.id = some c ∧
      row = c.advance row.priorGeneration row.request row.tokenHash row.session)
    (h : writeLineage db row old = .ok db') :
    ∃ connections, db' = db.withConnections connections ∧ row ∈ connections ∧
      (∀ c ∈ connections, c = row ∨ (c ∈ db.connections ∧ c.id ≠ row.id)) ∧
      ∀ c ∈ db.connections, c.id ≠ row.id → c ∈ connections := by
  cases old with
  | none =>
    simp only [writeLineage, bind_eq_ok, found_eq_ok, pure_eq_ok] at h
    obtain ⟨C, hC, rfl⟩ := h
    refine ⟨C, rfl, (mem_insert hC).mpr (.inl rfl), fun c hc => ?_, fun c hc _ => ?_⟩
    · rcases (mem_insert hC).mp hc with rfl | hc
      · exact .inl rfl
      · exact .inr ⟨hc, get_eq_none.mp (insert_eq_some hC).1 c hc⟩
    · exact (mem_insert hC).mpr (.inr hc)
  | some c =>
    obtain ⟨hc, hrow⟩ := hold c rfl
    obtain ⟨hcm, hid⟩ := get_eq_some.mp hc
    have hwrite : row.overwrite c = row := by
      rw [hrow]
      rfl
    simp only [writeLineage, Except.ok.injEq] at h
    refine ⟨_, h.symm, ?_, fun r hr => ?_, fun r hr hne => ?_⟩
    · refine mem_update.mpr ⟨c, hcm, ?_⟩
      rw [if_pos (decide_eq_true hid), hwrite]
    · obtain ⟨q, hq, rfl⟩ := mem_update.mp hr
      by_cases hqid : q.id = row.id
      · left
        rw [if_pos (decide_eq_true hqid), eq_of_key_eq hq hcm (hqid.trans hid.symm), hwrite]
      · right
        simp only [hqid, decide_false, Bool.false_eq_true, if_false]
        exact ⟨hq, hqid⟩
    · refine mem_update.mpr ⟨r, hr, ?_⟩
      rw [if_neg (by simpa using hne)]

/-- What `connectionSession` has made sure of. -/
structure Connects (db : Db) (p : Principal) (old : Option ConnectionRecord)
    (row : ConnectionRecord) : Prop where
  stored : db.connections.get row.id = old
  advance : ∀ c, old = some c → c.revoked = none ∧
    row = c.advance row.priorGeneration row.request row.tokenHash row.session
  create : old = none → row.generation = 1 ∧ row.revoked = none
  scope : row.tenant = p.tenant ∧ row.version = p.version ∧
    (row.authSession ≠ none → p.authSession = row.authSession)
  authority : ∀ i, p.authSession = some i → ∃ a ∈ db.authSessions, a.id = i ∧ a.revoked = none ∧
    a.tenant = p.tenant ∧ a.version = p.version
  device : ∀ t ∈ db.tokens, t.kind = .device → t.hash = row.deviceHash →
    t.broker = some row.broker
  tenant : ∃ n ∈ db.tenants, n.id = p.tenant ∧ n.version = p.version ∧ n.status = .active
  account : old = none → row.authSession = none → ∀ t ∈ db.tokens, t.hash = row.accountHash →
    t.tenant = row.tenant ∧ t.version = row.version
  freshToken : ∀ t ∈ db.tokens, t.session ≠ some row.session
  freshLineage : ∀ c ∈ db.connections, c.session ≠ row.session

/-- A new generation keeps the tables sound. -/
lemma Sound.openGeneration (h : Sound cfg now db) {p : Principal} (hc : Connects db p old row)
    (ho : openGeneration cfg db now p old row = .ok d) : Sound cfg now d.db := by
  obtain ⟨-, db₁, db₂, H, h1, h2, -, -, hdb, -⟩ := openGeneration_eq_ok ho
  have tokens₀ : ∀ t ∈ (db.dropReplaced old).tokens, t ∈ db.tokens := by
    cases old with
    | none => exact fun t ht => ht
    | some c => exact fun t ht => (mem_delete.mp ht).1
  have auths₀ : (db.dropReplaced old).authSessions = db.authSessions := by cases old <;> rfl
  have lineages₀ : (db.dropReplaced old).connections = db.connections := by cases old <;> rfl
  have hs₁ : Sound cfg now db₁ := by
    refine (h.dropReplaced old).openSession h1 ?_ ?_ ?_
    · exact fun t ht => hc.freshToken t (tokens₀ t ht)
    · rw [lineages₀]
      exact hc.freshLineage
    · rw [auths₀]
      exact hc.authority
  obtain ⟨S, T, hS, hT, rfl⟩ := openSession_eq_ok h1
  obtain ⟨C, rfl, -, hC, -⟩ := writeLineage_eq_ok (fun c hold => by
    refine ⟨?_, (hc.advance c hold).2⟩
    rw [Db.withTokens_connections, Db.withSessions_connections, lineages₀, hc.stored, hold]) h2
  have free := get_eq_none.mp (insert_eq_some hS).1
  have hmem : ∀ c ∈ C, c = row ∨
      c ∈ (((db.dropReplaced old).withSessions S).withTokens T).connections :=
    fun c hc => (hC c hc).imp_right (·.1)
  have hs₂ := hs₁.writeLineage hmem ?_ ?_ ?_
  · rw [hdb]
    exact hs₂.congr rfl rfl rfl rfl
  · intro v hv hid
    rcases (mem_insert hS).mp hv with rfl | hv
    · exact ⟨hc.scope.1.symm, rfl, rfl, hc.scope.2.2⟩
    · exact absurd hid (free v hv)
  · intro t ht hk hsess
    rcases (mem_insert hT).mp ht with rfl | ht
    · exact ⟨rfl, hc.scope.2.1.symm⟩
    · exact absurd hsess (hc.freshToken t (tokens₀ t ht))
  · intro t ht hk he
    rcases (mem_insert hT).mp ht with rfl | ht
    · cases hk
    · exact hc.device t (tokens₀ t ht) hk he

end OhecoBroker.Control
