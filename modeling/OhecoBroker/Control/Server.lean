/-
Runs of the control server.  A transaction opens in whatever state the server is then in; what its
handler read before may be out of date, and is arbitrary here.

* `Call`, `Call.exec`, `Call.exec_moves`: the transactions of the handlers, as moves;
* `Server`, `Act`, `Server.act`: the tables and the clock, and what can happen next;
* `Admissible`, `Server.Reachable`: the clock does not go back and random values do not repeat;
  the states of such runs;
* `Server.Inv.act`, `Server.Reachable.inv`: in every reachable state the tables are sound, and no
  evidence of a lost credential ever arises.
-/
import OhecoBroker.Control.Handlers
import OhecoBroker.Lib.Run

namespace OhecoBroker.Control

open Lib Relation

/-! ### Calls -/

inductive Call where
  | register (refreshed : Bool) (policy : Policy) (relayEnabled : Bool) (r : Registration)
      (id : Uuid) (draw : AuthDraw)
  | accountToken (t : Tenant) (draw : AuthDraw)
  | loginAuth (t : Tenant) (draw : AuthDraw)
  | refresh (r : RefreshRequest)
  | logout (hash : Option Hash)
  | logoutAuth (hash : Option Hash)
  | deleteAuthSession (hash : Hash) (p : Principal) (id : Uuid)
  | updateAccount (u : AccountUpdate) (draw : AuthDraw)
  | adminUpdate (t : Tenant) (name email : Option String) (status : Option Status)
      (relay : Option Bool) (validEmail : Bool) (draw : AuthDraw)
  | adminAction (t : Tenant) (verb : AdminVerb) (draw : AuthDraw)
  | registerBroker (hash : Hash) (p : Principal) (name : String) (id : Uuid) (t : Secret)
  | renameBroker (hash : Hash) (p : Principal) (b : Broker) (name : String)
  | deleteBroker (hash : Hash) (p : Principal) (b : Broker)
  | rotateDevice (hash : Hash) (p : Principal) (b : Broker) (t : Secret)
  | heartbeat (hash : Hash) (p : Principal) (b : Broker)
  | offlineBroker (hash : Hash) (p : Principal) (b : Broker)
  | createSession (hash : Hash) (p : Principal) (b : Broker) (relay : RelayMode) (id : Uuid)
      (t : Secret)
  | sessionHeartbeat (hash : Hash) (p : Principal) (v : Session)
  | deleteSession (hash : Hash) (p : Principal) (v : Session)
  | sendMessage (hash : Hash) (p : Principal) (v : Session) (sequence : ℕ) (data : String)
  | approveSession (hash : Hash) (p : Principal) (v : Session) (relay : Bool)
  | connectionSession (hash : Hash) (p : Principal) (sid : Uuid) (id : Option Uuid)
      (r : ConnectionRequest)
  | deleteConnection (hash : Hash) (p : Principal) (id : Uuid)
  | deleteSessionLineage (hash : Hash) (p : Principal) (sid id : Uuid)
  deriving DecidableEq

namespace Call

def exec (cfg : Config) (db : Db) (now : ℕ) : Call → Handled
  | register refreshed policy relay r id draw =>
    registerAccount cfg db now refreshed policy relay r id draw
  | accountToken t draw => Control.accountToken cfg db now t draw
  | loginAuth t draw => Control.loginAuth cfg db now t draw
  | refresh r => refreshAuth cfg db now r
  | logout hash => Control.logout db hash
  | logoutAuth hash => Control.logoutAuth db hash
  | deleteAuthSession hash p id => Control.deleteAuthSession db now hash p id
  | updateAccount u draw => updateAccountCredentials cfg db now u draw
  | adminUpdate t name email status relay ok draw => do
      (← adminUpdateTenant t name email status relay ok).commit cfg db now draw
  | adminAction t verb draw => do (← Control.adminAction t verb).commit cfg db now draw
  | registerBroker hash p name id t => Control.registerBroker cfg db now hash p name id t
  | renameBroker hash p b name => Control.renameBroker db now hash p b name
  | deleteBroker hash p b => Control.deleteBroker db now hash p b
  | rotateDevice hash p b t => Control.rotateDevice cfg db now hash p b t
  | heartbeat hash p b => Control.heartbeat cfg db now hash p b
  | offlineBroker hash p b => Control.offlineBroker db now hash p b
  | createSession hash p b relay id t => Control.createSession cfg db now hash p b relay id t
  | sessionHeartbeat hash p v => Control.sessionHeartbeat cfg db now hash p v
  | deleteSession hash p v => Control.deleteSession db now hash p v
  | sendMessage hash p v sequence data => Control.sendMessage cfg db now hash p v sequence data
  | approveSession hash p v relay => Control.approveSession db now hash p v relay
  | connectionSession hash p sid id r => Control.connectionSession cfg db now hash p sid id r
  | deleteConnection hash p id => Control.deleteConnection db now hash p id
  | deleteSessionLineage hash p sid id => Control.deleteSessionLineage db now hash p sid id

def draws (cfg : Config) : Call → Draws
  | register _ _ _ _ id draw =>
    { hashes := [cfg.tokenHash draw.token, cfg.tokenHash draw.refreshToken], ids := [id, draw.id] }
  | accountToken _ draw | loginAuth _ draw | updateAccount _ draw | adminUpdate _ _ _ _ _ _ draw
  | adminAction _ _ draw =>
    { hashes := [cfg.tokenHash draw.token, cfg.tokenHash draw.refreshToken], ids := [draw.id] }
  | registerBroker _ _ _ id t =>
    { hashes := [cfg.tokenHash t], ids := [id], devices := [cfg.tokenHash t] }
  | rotateDevice _ _ _ t => { hashes := [cfg.tokenHash t], devices := [cfg.tokenHash t] }
  | heartbeat hash p _ => { devices := [hash], ownBearer := p.kind = .device }
  | createSession _ _ _ _ id t => { hashes := [cfg.tokenHash t], ids := [id] }
  | connectionSession _ _ sid _ _ => { ids := [sid] }
  | _ => {}

theorem exec_moves {cfg : Config} {db : Db} {now : ℕ} {c : Call} {d : Done}
    (hs : Sound cfg now db) (hD : (c.draws cfg).Fresh db) (h : c.exec cfg db now = .ok d) :
    Moves cfg now (c.draws cfg) db d.db := by
  cases c with
  | register => exact registerAccount_moves h hD (by simp [draws]) (by simp [draws])
  | accountToken => exact accountToken_moves h hD (by simp [draws]) (by simp [draws])
  | loginAuth => exact loginAuth_moves h hD (by simp [draws]) (by simp [draws])
  | refresh => exact refreshAuth_moves h
  | logout => exact logout_moves h
  | logoutAuth => exact logoutAuth_moves h
  | deleteAuthSession => exact deleteAuthSession_moves h
  | updateAccount =>
    exact updateAccountCredentials_moves hs h hD (by simp [draws]) (by simp [draws])
  | adminUpdate =>
    obtain ⟨ch, hc, h⟩ := bind_eq_ok.mp h
    refine AdminChange.commit_moves hs ?_ h hD (by simp [draws]) (by simp [draws])
    rintro u rfl _
    exact adminUpdateTenant_active hc
  | adminAction =>
    obtain ⟨ch, hc, h⟩ := bind_eq_ok.mp h
    refine AdminChange.commit_moves hs ?_ h hD (by simp [draws]) (by simp [draws])
    rintro u rfl hu
    exact adminAction_active hc hu
  | registerBroker =>
    exact registerBroker_moves h hD (by simp [draws]) (by simp [draws]) (by simp [draws])
  | renameBroker => exact renameBroker_moves h
  | deleteBroker => exact deleteBroker_moves hs h
  | rotateDevice => exact rotateDevice_moves hs h hD (by simp [draws]) (by simp [draws])
  | heartbeat => exact heartbeat_moves h (by simp [draws]) (by simp [draws])
  | offlineBroker => exact offlineBroker_moves hs h
  | createSession => exact createSession_moves h hD (by simp [draws])
  | sessionHeartbeat => exact sessionHeartbeat_moves h
  | deleteSession => exact deleteSession_moves h
  | sendMessage => exact sendMessage_moves h
  | approveSession => exact approveSession_moves h
  | connectionSession => exact connectionSession_moves hs h hD (by simp [draws])
  | deleteConnection => exact deleteConnection_moves h
  | deleteSessionLineage => exact deleteSessionLineage_moves h

end Call

/-! ### Runs -/

/-- The tables, the clock, and the lineages for which evidence was found. -/
structure Server where
  db : Db := {}
  clock : ℕ := 0
  observed : List ConnectionRecord := []

/-- What can happen next. -/
inductive Act where
  | call (now : ℕ) (c : Call)
  /-- The eviction statement of a legacy login. -/
  | evict (now : ℕ) (tenant : Uuid)
  /-- Some handler or relay check looks at a lineage. -/
  | observe (now : ℕ) (id : Uuid)
  /-- The evidence is made durable, by a statement of its own. -/
  | persist (now : ℕ) (c : ConnectionRecord)
  | expireSessions (now : ℕ)
  | expireTokens (now : ℕ)
  | prune (t : ℕ → ℕ)
  | collect (now : ℕ)

def Act.draws (cfg : Config) : Act → Draws
  | .call _ c => c.draws cfg
  | _ => {}

def Act.start : Act → ℕ
  | .call now _ | .evict now _ | .observe now _ | .persist now _ | .expireSessions now
  | .expireTokens now | .collect now => now
  | .prune t => t 0

def Act.finish : Act → ℕ
  | .prune t => t 7
  | a => a.start

def Server.next (cfg : Config) (s : Server) : Act → Db
  | .call now c => match c.exec cfg s.db now with
    | .ok d => d.db
    | .error _ => s.db
  | .evict _ tenant => evictLegacy s.db tenant
  | .observe _ _ => s.db
  | .persist _ c => if c ∈ s.observed then persistObservedRevocation s.db c else s.db
  | .expireSessions now => Control.expireSessions s.db now
  | .expireTokens now => Control.expireTokens s.db now
  | .prune t => pruneConnections s.db t
  | .collect now => collectAuthSessions s.db now

def evidenceOf : Except Failure Unit → List ConnectionRecord
  | .error (.observed _ c) => [c]
  | _ => []

def Server.evidence (s : Server) : Act → List ConnectionRecord
  | .observe now id =>
    (s.db.connections.get id).toList.flatMap (fun c => evidenceOf (checkConnection s.db now c)) ++
      s.observed
  | _ => s.observed

def Server.act (cfg : Config) (s : Server) (a : Act) : Server where
  db := s.next cfg a
  clock := a.finish
  observed := s.evidence a

/-- The clock does not go back, and random values do not repeat. -/
def Admissible (cfg : Config) (s : Server) (a : Act) : Prop :=
  s.clock ≤ a.start ∧ match a with
    | .call _ c => (c.draws cfg).Fresh s.db
    | .prune t => Monotone t
    | _ => True

/-- The states of the runs from the empty tables. -/
def Server.Reachable (cfg : Config) (s : Server) : Prop :=
  ∃ as, Along (Server.act cfg) (Admissible cfg) {} as ∧ s = run (Server.act cfg) {} as

variable {cfg : Config} {s : Server}

variable {a : Act}

lemma Admissible.le (h : Admissible cfg s a) : s.clock ≤ a.finish := by
  cases a with
  | prune t => exact h.1.trans (h.2 (by norm_num))
  | _ => exact h.1

lemma Sound.not_credentialLost {now now' : ℕ} {db : Db} (h : Sound cfg now db) (hn : now ≤ now')
    {c : ConnectionRecord} (hc : c ∈ db.connections) : credentialLost db now' c = false := by
  simp only [credentialLost, Table.any_eq_false, Bool.and_eq_false_iff, decide_eq_false_iff_not,
    Bool.not_eq_false', Table.any_eq_true, Bool.and_eq_true, decide_eq_true_eq]
  intro v hv
  by_cases hid : v.id = c.session
  · by_cases hlt : now' < v.expiresAt
    · obtain ⟨t, ht, hk, hs⟩ := h.covered v hv (by omega)
      obtain ⟨h1, h2⟩ := h.transport c hc t ht hk (hs.trans (congrArg _ hid))
      obtain ⟨-, -, -, h3⟩ := h.paired t ht hk v hv hs
      exact .inr ⟨t, ht, ⟨⟨⟨h1, hk⟩, hs⟩, h2⟩, by omega⟩
    · exact .inl (.inr hlt)
  · exact .inl (.inl hid)

lemma evidenceOf_reject {p : Prop} [Decidable p] {e : Failure} {f : Unit → Except Failure Unit}
    (he : evidenceOf (.error e) = []) (hf : evidenceOf (f ()) = []) :
    evidenceOf (reject p e >>= f) = [] := by
  by_cases hp : p
  · rw [reject_pos hp]
    exact he
  · rw [reject_neg hp]
    exact hf

lemma evidenceOf_found {α : Type} {o : Option α} {e : Failure} {f : α → Except Failure Unit}
    (he : evidenceOf (.error e) = []) (hf : ∀ a, evidenceOf (f a) = []) :
    evidenceOf (found o e >>= f) = [] := by
  cases o with
  | none => exact he
  | some a => exact hf a

lemma evidenceOf_checkConnection {db : Db} {now : ℕ} {c : ConnectionRecord}
    (h : credentialLost db now c = false) : evidenceOf (checkConnection db now c) = [] := by
  refine evidenceOf_reject rfl (evidenceOf_found rfl fun t => ?_)
  refine evidenceOf_reject rfl (evidenceOf_reject rfl ?_)
  rw [reject_neg (by simp [h])]
  rfl

/-- What holds in every state the server reaches. -/
structure Server.Inv (cfg : Config) (s : Server) : Prop where
  sound : Sound cfg s.clock s.db
  observed : s.observed = []

/-- Every admissible step is a sequence of moves. -/
lemma Server.Inv.moves (h : s.Inv cfg) (ha : Admissible cfg s a) :
    Moves cfg a.finish (a.draws cfg) s.db (s.next cfg a) := by
  have hs := h.sound.tick ha.le
  cases a with
  | call now c =>
    simp only [Server.next]
    cases hc : c.exec cfg s.db now with
    | ok d => exact c.exec_moves hs ha.2 hc
    | error e => exact .refl
  | evict now tenant => exact evictLegacy_moves tenant
  | observe now id => exact .refl
  | persist now c =>
    simp only [Server.next, h.observed, List.not_mem_nil, if_false]
    exact .refl
  | expireSessions now => exact .single (.dropSessions _)
  | expireTokens now => exact expireTokens_moves hs
  | prune t => exact pruneConnections_moves ha.2 le_rfl
  | collect now => exact collectAuthSessions_moves

theorem Server.Inv.act (h : s.Inv cfg) (ha : Admissible cfg s a) : (s.act cfg a).Inv cfg := by
  refine ⟨(h.moves ha).sound (h.sound.tick ha.le), ?_⟩
  cases a with
  | observe now id =>
    show (s.db.connections.get id).toList.flatMap _ ++ s.observed = []
    rw [h.observed, List.append_nil]
    cases hc : s.db.connections.get id with
    | none => rfl
    | some c =>
      have hlost : credentialLost s.db now c = false :=
        h.sound.not_credentialLost ha.le (Table.mem_of_get hc)
      simpa using evidenceOf_checkConnection hlost
  | _ => exact h.observed

/-- The invariant holds in every reachable state. -/
theorem Server.Reachable.inv (h : s.Reachable cfg) : s.Inv cfg := by
  obtain ⟨as, has, rfl⟩ := h
  exact along_invariant (fun _ _ hs ha => hs.act ha) ⟨Sound.empty, rfl⟩ has

/-- A run from a reachable state ends in one. -/
lemma Server.Reachable.run (h : s.Reachable cfg) {as : List Act}
    (has : Along (Server.act cfg) (Admissible cfg) s as) :
    (Lib.run (Server.act cfg) s as).Reachable cfg := by
  obtain ⟨bs, hbs, rfl⟩ := h
  exact ⟨bs ++ as, along_append.mpr ⟨hbs, has⟩, (run_append ..).symm⟩

/-! ### A short run -/

def sampleConfig : Config where
  tokenHash := id
  accountTokenTTL := 1000
  authRefreshTTL := 5000
  authAbsoluteTTL := 0
  authAccessOverlap := 100
  sessionTTL := 600
  brokerLease := 90
  maxSessionsPerTenant := 128
  maxMessagesPerDirection := 64
  maxMessageBytes := 1024
  turn := true

def samplePrincipal : Principal := ⟨.account, 1, none, none, some 2, 1⟩

/-- A refreshed registration, a broker, a session on it. -/
def sampleActs : List Act :=
  [.call 1 (.register true .unrestricted true
      ⟨"tenant", "tenant@example.invalid", true, some "hash"⟩ 1 ⟨2, 11, 12⟩),
   .call 2 (.registerBroker 11 samplePrincipal "broker" 3 13),
   .call 3 (.createSession 11 samplePrincipal ⟨3, 1, "broker", 92⟩ .auto 4 14)]

def sampleServer : Server := run (Server.act sampleConfig) {} sampleActs

lemma sampleServer_reachable : sampleServer.Reachable sampleConfig := by
  refine ⟨sampleActs, ⟨⟨?_, ?_⟩, ⟨?_, ?_⟩, ⟨?_, ?_⟩, trivial⟩, rfl⟩ <;> decide +kernel

def sampleDevice : Principal := ⟨.device, 1, some 3, none, some 2, 1⟩

def sampleRequest : ConnectionRequest := ⟨some 3, some .auto, some 0, some 7, some 15⟩

/-- A lineage with the relay approved by the broker. -/
def managedActs : List Act :=
  [.call 4 (.connectionSession 11 samplePrincipal 6 (some 5) sampleRequest),
   .call 5 (.approveSession 13 sampleDevice
      ⟨⟨6, 1, 3, .auto, false, false, 604, some 2⟩, some 5, 1⟩ true)]

def managedServer : Server := run (Server.act sampleConfig) sampleServer managedActs

lemma managedServer_reachable : managedServer.Reachable sampleConfig := by
  refine sampleServer_reachable.run ⟨⟨?_, ?_⟩, ⟨?_, ?_⟩, trivial⟩ <;> decide +kernel

end OhecoBroker.Control
