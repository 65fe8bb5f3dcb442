/-
Expiry and garbage collection are not revocation (`connections.go`, `control.go`): the sessions of
a lineage expire and are collected, the lineage ends only when a handler revokes it or when its
tenant, its caller or its device is gone.

* `Call.exec_keeps`, `pruneConnections_keeps`, `Server.act_keeps`: a handler keeps what it does
  not revoke, the maintenance what stays authorized;
* `connection_continues`: **over whole runs** an unrevoked connection whose tenant, caller and
  device stay live can be continued, whatever has expired in the meantime.
-/
import OhecoBroker.Control.Marks

namespace OhecoBroker.Control

open Lib Table

variable {cfg : Config} {now : ℕ} {db db' : Db} {d : Done} {c : ConnectionRecord}

/-! ### Connections that stay -/

/-- `c'` is `c` in some generation. -/
def ConnectionRecord.Continues (c' c : ConnectionRecord) : Prop := c' = c'.overwrite c

/-- What does not change with the generation. -/
lemma ConnectionRecord.Continues.eqs {c' : ConnectionRecord} (h : c'.Continues c) :
    c'.id = c.id ∧ c'.tenant = c.tenant ∧ c'.broker = c.broker ∧ c'.relay = c.relay ∧
    c'.accountHash = c.accountHash ∧ c'.deviceHash = c.deviceHash ∧ c'.version = c.version ∧
    c'.revoked = c.revoked ∧ c'.authSession = c.authSession := by
  rw [h]
  exact ⟨rfl, rfl, rfl, rfl, rfl, rfl, rfl, rfl, rfl⟩

def Db.Keeps (db : Db) (c : ConnectionRecord) : Prop := ∃ c' ∈ db.connections, c'.Continues c

lemma Db.Keeps.congr (h : db.Keeps c) (he : db'.connections = db.connections) : db'.Keeps c := by
  obtain ⟨c', hc', hcon⟩ := h
  exact ⟨c', he ▸ hc', hcon⟩

lemma Db.Keeps.update {p : ConnectionRecord → Bool} {f : ConnectionRecord → ConnectionRecord}
    (h : db.Keeps c) (hf : ∀ r, (f r).id = r.id)
    (hp : ∀ c', c'.Continues c → p c' = true → (f c').Continues c) :
    (db.updateConnections p f hf).Keeps c := by
  obtain ⟨c', hc', hcon⟩ := h
  refine ⟨if p c' then f c' else c', ?_, ?_⟩
  · simp only [Db.updateConnections_connections, mem_update]
    exact ⟨c', hc', rfl⟩
  · split_ifs with hpc
    · exact hp c' hcon hpc
    · exact hcon

lemma Db.Keeps.delete {p : ConnectionRecord → Bool} (h : db.Keeps c)
    (hp : ∀ c', c'.Continues c → p c' = false) : (db.deleteConnections p).Keeps c := by
  obtain ⟨c', hc', hcon⟩ := h
  exact ⟨c', mem_delete.mpr ⟨hc', hp c' hcon⟩, hcon⟩

lemma openGeneration_keeps {p : Principal} {old : Option ConnectionRecord}
    {row : ConnectionRecord} (hk : db.Keeps c)
    (h : openGeneration cfg db now p old row = .ok d) : d.db.Keeps c := by
  obtain ⟨-, db₁, db₂, H, h1, h2, -, -, hdb, -⟩ := openGeneration_eq_ok h
  have hk₀ : (db.dropReplaced old).Keeps c := hk.congr (by cases old <;> rfl)
  obtain ⟨S, T, -, -, rfl⟩ := openSession_eq_ok h1
  refine Db.Keeps.congr ?_ (congrArg Db.connections hdb)
  cases old with
  | none =>
    simp only [writeLineage, bind_eq_ok, found_eq_ok, pure_eq_ok] at h2
    obtain ⟨C, hC, rfl⟩ := h2
    obtain ⟨c', hc', hcon⟩ := hk₀
    exact ⟨c', (mem_insert hC).mpr (.inr hc'), hcon⟩
  | some o =>
    cases h2
    refine Db.Keeps.update hk₀ row.overwrite_id fun c' hcon _ => ?_
    rw [ConnectionRecord.Continues, hcon]
    rfl

theorem Call.exec_keeps {call : Call} (hk : db.Keeps c)
    (hr : ∀ c', db.connections.get c.id = some c' → call.revokes db c' = false)
    (h : call.exec cfg db now = .ok d) : d.db.Keeps c := by
  rcases Call.exec_marks h with hm | ⟨hash, p, sid, id, r, rfl⟩
  · obtain ⟨c', hc', hcon⟩ := hk
    exact ⟨c', hm.keep c' hc' (hr c' (get_eq_some.mpr ⟨hc', hcon.eqs.1⟩)), hcon⟩
  obtain ⟨i, broker, request, token, expected, relay, -, -, -, -, hcase⟩ :=
    connectionSession_cases h
  rcases hcase with ⟨c', v, -, -, -, -, -, -, -, rfl⟩ | ⟨c', -, -, -, -, -, ho⟩ |
    ⟨-, -, -, t, -, ho⟩
  · exact hk
  · exact openGeneration_keeps hk ho
  · exact openGeneration_keeps hk ho

/-! ### The periodic maintenance -/

/-- Tenant, caller and device are live. -/
structure Authorized (db : Db) (now : ℕ) (c : ConnectionRecord) : Prop where
  tenant : ∃ n, db.tenants.get c.tenant = some n ∧ n.version = c.version ∧ n.status = .active
  caller : callerLive db now c = true
  device : deviceLive db now c = true

instance (db : Db) (now : ℕ) (c : ConnectionRecord) : Decidable (Authorized db now c) :=
  decidable_of_iff ((db.tenants.get c.tenant).any (fun n => n.version = c.version &&
      n.status = .active) = true ∧ callerLive db now c = true ∧ deviceLive db now c = true) <| by
    simp only [Option.any_eq_true, Bool.and_eq_true, decide_eq_true_eq]
    exact ⟨fun h => ⟨h.1, h.2.1, h.2.2⟩, fun h => ⟨h.tenant, h.caller, h.device⟩⟩

lemma Authorized.continues {c' : ConnectionRecord} (h : Authorized db now c)
    (hcon : c'.Continues c) : Authorized db now c' := by
  obtain ⟨h1, h2, h3⟩ := h
  obtain ⟨-, e2, e3, -, e5, e6, e7, -, e9⟩ := hcon.eqs
  refine ⟨?_, ?_, ?_⟩
  · rwa [e2, e7]
  · rwa [callerLive, e9, e2, e7, e5]
  · rwa [deviceLive, e6, e2, e3, e7]

section Maintenance

variable {t t' : ℕ}

lemma Authorized.not_deviceDead (h : Authorized db' now c) (hk : ∀ k ∈ db'.tokens, k ∈ db.tokens)
    (ha : db'.authSessions = db.authSessions) (ht : t ≤ now) (ht' : t' ≤ now) :
    deviceDead db t t' c = false := by
  obtain ⟨d, hd, hkind, -, -, hlt, -, hlog⟩ := connectionCredential_eq_true.mp h.device
  obtain ⟨hdm, hhash⟩ := get_eq_some.mp hd
  simp only [deviceDead, Bool.not_eq_false', any_eq_true, Bool.and_eq_true, Bool.or_eq_true,
    decide_eq_true_eq]
  refine ⟨d, hk d hdm, ⟨⟨hhash, hkind⟩, by omega⟩, ?_⟩
  cases hi : d.authSession with
  | none => exact .inl rfl
  | some i =>
    obtain ⟨a, hauth⟩ := checkLogin_eq_ok.mp hlog i hi
    obtain ⟨hget, -, hver, hchk⟩ := authAuthority_eq_ok.mp hauth
    obtain ⟨ham, rfl⟩ := get_eq_some.mp hget
    obtain ⟨hrev, hexp, -⟩ := checkAuthSession_eq_ok.mp hchk
    exact .inr ⟨a, ha ▸ ham, ⟨⟨rfl, hrev⟩, by omega⟩, hver⟩

lemma Authorized.not_callerDead (h : Authorized db' now c) (hk : ∀ k ∈ db'.tokens, k ∈ db.tokens)
    (ha : db'.authSessions = db.authSessions) (hn : db'.tenants = db.tenants) (ht : t ≤ now)
    (ht' : t' ≤ now) : callerDead db t t' c = false := by
  obtain ⟨n, hget, hver, hact⟩ := h.tenant
  obtain ⟨hnm, hnid⟩ := get_eq_some.mp hget
  have htenant : db.tenants.any (fun n => n.id = c.tenant && n.version = c.version &&
      n.status = .active) = true :=
    any_eq_true.mpr ⟨n, hn ▸ hnm, by simp [hnid, hver, hact]⟩
  have hcall := h.caller
  rw [callerDead, htenant]
  unfold callerLive at hcall
  cases hc : c.authSession with
  | none =>
    rw [hc] at hcall
    obtain ⟨a, hacc, hkind, -, -, hlt, -⟩ := connectionCredential_eq_true.mp hcall
    obtain ⟨ham, hhash⟩ := get_eq_some.mp hacc
    have hany : db.tokens.any (fun a => a.hash = c.accountHash && a.kind = .account &&
        t < a.expiresAt) = true :=
      any_eq_true.mpr ⟨a, hk a ham, by simp [hhash, hkind]; omega⟩
    rw [hany]
    rfl
  | some i =>
    rw [hc] at hcall
    obtain ⟨a, hauth⟩ := isOk_eq_true.mp hcall
    obtain ⟨hgeta, hten, hav, hchk⟩ := authAuthority_eq_ok.mp hauth
    obtain ⟨ham, rfl⟩ := get_eq_some.mp hgeta
    obtain ⟨hrev, hexp, -⟩ := checkAuthSession_eq_ok.mp hchk
    have hany : db.authSessions.any (fun b => some a.id = some b.id && b.tenant = c.tenant &&
        b.version = c.version && b.revoked = none && t' < b.refreshExpiry) = true :=
      any_eq_true.mpr ⟨a, ha ▸ ham, by simp [hten, hav, hrev]; omega⟩
    rw [hany]
    rfl

end Maintenance

lemma pruneConnections_keeps {t : ℕ → ℕ} (ht : Monotone t) (hk : db.Keeps c)
    (ha : Authorized (pruneConnections db t) (t 7) c) : (pruneConnections db t).Keeps c := by
  have htok : ∀ k ∈ (pruneConnections db t).tokens, k ∈ db.tokens := by
    intro k hk
    exact (mem_delete.mp hk).1
  have h₁ : (db.updateConnections (fun c => c.revoked = none && deviceDead db (t 0) (t 1) c)
      fun c => { c with revoked := some .credentialRevoked }).Keeps c := by
    refine hk.update _ fun c' hcon hp => ?_
    have hdead : deviceDead db (t 0) (t 1) c' = false :=
      (ha.continues hcon).not_deviceDead htok rfl (ht (by norm_num)) (ht (by norm_num))
    simp [hdead] at hp
  unfold pruneConnections
  refine Db.Keeps.delete h₁ fun c' hcon => ?_
  exact (ha.continues hcon).not_callerDead (fun k hk => hk) rfl rfl (ht (by norm_num)) le_rfl

/-! ### Runs -/

def Spares (cfg : Config) (i : Uuid) (s : Server) : Act → Prop
  | .call now call => ∀ d, call.exec cfg s.db now = .ok d →
      ∀ c, s.db.connections.get i = some c → call.revokes s.db c = false
  | _ => True

/-- A step that spares `c` and its tenant, caller and device. -/
def Harmless (cfg : Config) (c : ConnectionRecord) (s : Server) (a : Act) : Prop :=
  Admissible cfg s a ∧ Spares cfg c.id s a ∧ Authorized (s.act cfg a).db (s.act cfg a).clock c

variable {s : Server}

lemma Server.act_keeps {a : Act} (hi : s.Inv cfg) (hk : s.db.Keeps c) (h : Harmless cfg c s a) :
    (s.act cfg a).db.Keeps c := by
  obtain ⟨hadm, hsp, hauth⟩ := h
  cases a with
  | call now call =>
    simp only [Server.act, Server.next]
    cases he : call.exec cfg s.db now with
    | ok d => exact Call.exec_keeps hk (hsp d he) he
    | error e => exact hk
  | persist now e =>
    simp only [Server.act, Server.next, hi.observed, List.not_mem_nil, if_false]
    exact hk
  | prune t => exact pruneConnections_keeps hadm.2 hk hauth
  | evict | observe | expireSessions | expireTokens | collect => exact hk

/-- **Expiry is not revocation.** While tenant, caller and device stay live and no handler revokes
it, a connection stays and passes its check; and no live session has lost its token. -/
theorem connection_continues (hs : s.Reachable cfg) (hc : c ∈ s.db.connections)
    (hrev : c.revoked = none) (hauth : Authorized s.db s.clock c) {as : List Act}
    (has : Along (Server.act cfg) (Harmless cfg c) s as) :
    (∃ c', (run (Server.act cfg) s as).db.connections.get c.id = some c' ∧ c'.Continues c ∧
      c'.revoked = none ∧ checkConnection (run (Server.act cfg) s as).db
        (run (Server.act cfg) s as).clock c' = .ok ()) ∧
    ∀ e ∈ (run (Server.act cfg) s as).db.connections, ∀ now,
      (run (Server.act cfg) s as).clock ≤ now →
        credentialLost (run (Server.act cfg) s as).db now e = false := by
  -- the invariant of such a run: the server's own, the row, and what it rests on
  obtain ⟨hinv, ⟨c', hc', hcon⟩, hauth⟩ : (run (Server.act cfg) s as).Inv cfg ∧
      (run (Server.act cfg) s as).db.Keeps c ∧
      Authorized (run (Server.act cfg) s as).db (run (Server.act cfg) s as).clock c := by
    refine along_invariant (I := fun s : Server => s.Inv cfg ∧ s.db.Keeps c ∧
      Authorized s.db s.clock c) ?_ ⟨hs.inv, ⟨c, hc, rfl⟩, hauth⟩ has
    rintro s a ⟨hi, hk, -⟩ h
    exact ⟨hi.act h.1, Server.act_keeps hi hk h, h.2.2⟩
  have hlost : ∀ e ∈ (run (Server.act cfg) s as).db.connections, ∀ now,
      (run (Server.act cfg) s as).clock ≤ now →
        credentialLost (run (Server.act cfg) s as).db now e = false :=
    fun e he now hn => hinv.sound.not_credentialLost hn he
  obtain ⟨hid, -, -, -, -, -, -, hr, -⟩ := hcon.eqs
  have hauth' := hauth.continues hcon
  refine ⟨⟨c', get_eq_some.mpr ⟨hc', hid⟩, hcon, hr.trans hrev, ?_⟩, hlost⟩
  exact checkConnection_eq_ok.mpr ⟨hr.trans hrev, hauth'.tenant, hauth'.caller, hauth'.device,
    hlost c' hc' _ le_rfl⟩

def sampleLineage : ConnectionRecord where
  id := 5
  tenant := 1
  broker := 3
  relay := .auto
  accountHash := 11
  deviceHash := 13
  version := 1
  generation := 1
  session := 6
  request := 7
  priorGeneration := 0
  tokenHash := 15
  authSession := some 2

def idleActs : List Act :=
  [.expireSessions 700, .expireTokens 700, .prune (700 + ·), .collect 708]

/-- Its session is collected, the lineage goes on. -/
theorem connection_continues_after_expiry :
    (run (Server.act sampleConfig) managedServer idleActs).db.sessions.get 6 = none ∧
    ∃ c', (run (Server.act sampleConfig) managedServer idleActs).db.connections.get 5 = some c' ∧
      c'.revoked = none := by
  have hm : sampleLineage ∈ managedServer.db.connections := by decide +kernel
  have has : Along (Server.act sampleConfig) (Harmless sampleConfig sampleLineage) managedServer
      idleActs :=
    ⟨⟨⟨by decide +kernel, trivial⟩, trivial, by decide +kernel⟩,
      ⟨⟨by decide +kernel, trivial⟩, trivial, by decide +kernel⟩,
      ⟨⟨by decide +kernel, fun i j h => Nat.add_le_add_left h 700⟩, trivial, by decide +kernel⟩,
      ⟨⟨by decide +kernel, trivial⟩, trivial, by decide +kernel⟩, trivial⟩
  obtain ⟨⟨c', hget, -, hrev, -⟩, -⟩ :=
    connection_continues managedServer_reachable hm rfl (by decide +kernel) has
  exact ⟨by decide +kernel, c', hget, hrev⟩

end OhecoBroker.Control
