/-
The limits the control server admits by, in every state it reaches.  What is counted (live
sessions, unrevoked lineages, live login sessions, brokers, messages) never grows by itself, so a
limit that held at an admission holds at every later time.

* `SessionsLimited`, `LineagesLimited`, `LoginsLimited`, `BrokersLimited`, `MessagesLimited`: a
  table within its limit;
* `Move.limited`, `Server.Reachable.limited`: every move keeps the limits;
* `limits_hold`: **every table is within its limit in every reachable state**.
-/
import OhecoBroker.Control.Deadlines

namespace OhecoBroker.Control

open Lib Table List

variable {cfg : Config} {now now' : ℕ} {D : Draws} {db db' : Db} {d : Done}

/-! ### What is counted -/

def SessionRow.live (now : ℕ) (v : SessionRow) : Bool := now < v.expiresAt

def SessionRow.liveOf (now : ℕ) (tenant : Uuid) (v : SessionRow) : Bool :=
  v.tenant = tenant && v.live now

def ConnectionRecord.openOf (tenant : Uuid) (c : ConnectionRecord) : Bool :=
  c.tenant = tenant && c.revoked = none

def AuthSession.live (now : ℕ) (a : AuthSession) : Bool :=
  a.revoked = none && now < a.refreshExpiry && (a.absoluteExpiry = 0 || now < a.absoluteExpiry)

def AuthSession.liveOf (now : ℕ) (tenant : Uuid) (a : AuthSession) : Bool :=
  a.tenant = tenant && a.live now

variable {v : SessionRow} {tenant : Uuid}

lemma SessionRow.live_eq_true : v.live now = true ↔ now < v.expiresAt :=
  decide_eq_true_iff

lemma SessionRow.liveOf_eq_true :
    v.liveOf now tenant = true ↔ v.tenant = tenant ∧ now < v.expiresAt := by
  simp [liveOf, live]

lemma ConnectionRecord.openOf_eq_true {c : ConnectionRecord} :
    c.openOf tenant = true ↔ c.tenant = tenant ∧ c.revoked = none := by
  simp [openOf]

lemma AuthSession.live_eq_true {a : AuthSession} : a.live now = true ↔ a.revoked = none ∧
    now < a.refreshExpiry ∧ (a.absoluteExpiry = 0 ∨ now < a.absoluteExpiry) := by
  simp [live, and_assoc]

lemma AuthSession.liveOf_eq_true {a : AuthSession} :
    a.liveOf now tenant = true ↔ a.tenant = tenant ∧ a.live now = true := by
  simp [liveOf]

/-! ### Tables within their limits -/

/-- Live sessions are limited, by tenant and in all. -/
def SessionsLimited (cfg : Config) (now : ℕ) (S : Table SessionRow.id) : Prop :=
  (∀ tenant, S.count (SessionRow.liveOf now tenant) ≤ cfg.maxSessionsPerTenant) ∧
    S.count (SessionRow.live now) ≤ 10000

/-- Lineages are limited, unrevoked ones by tenant. -/
def LineagesLimited (cfg : Config) (C : Table ConnectionRecord.id) : Prop :=
  (∀ tenant, C.count (ConnectionRecord.openOf tenant) ≤ cfg.maxSessionsPerTenant) ∧
    (C.count fun _ => true) ≤ 10000

/-- Live login sessions of a tenant are limited. -/
def LoginsLimited (now : ℕ) (A : Table AuthSession.id) : Prop :=
  ∀ tenant, A.count (AuthSession.liveOf now tenant) ≤ 16

def BrokersLimited (B : Table Broker.id) : Prop :=
  ∀ tenant, (B.count fun b => b.tenant = tenant) ≤ 128

/-- Sequence numbers within a mailbox. -/
def MessagesLimited (cfg : Config)
    (M : Table fun m : Message => (m.session, m.side, m.sequence)) : Prop :=
  ∀ m ∈ M, 1 ≤ m.sequence ∧ m.sequence ≤ cfg.maxMessagesPerDirection

lemma SessionsLimited.of_rows {S S' : Table SessionRow.id} (h : SessionsLimited cfg now S)
    (hrows : ∀ v ∈ S', now' < v.expiresAt →
      ∃ w ∈ S, w.id = v.id ∧ w.tenant = v.tenant ∧ now < w.expiresAt) :
    SessionsLimited cfg now' S' := by
  refine ⟨fun tenant => (count_le_of_keys [] fun v hv hp => .inr ?_).trans (h.1 tenant),
    (count_le_of_keys [] fun v hv hp => .inr ?_).trans h.2⟩
  · obtain ⟨ht, hlive⟩ := SessionRow.liveOf_eq_true.mp hp
    obtain ⟨w, hw, hid, hten, hlt⟩ := hrows v hv hlive
    exact ⟨w, hw, SessionRow.liveOf_eq_true.mpr ⟨hten.trans ht, hlt⟩, hid⟩
  · obtain ⟨w, hw, hid, -, hlt⟩ := hrows v hv (SessionRow.live_eq_true.mp hp)
    exact ⟨w, hw, SessionRow.live_eq_true.mpr hlt, hid⟩

lemma LineagesLimited.of_rows {C C' : Table ConnectionRecord.id} (h : LineagesLimited cfg C)
    (hrows : ∀ c ∈ C', ∃ b ∈ C, b.id = c.id ∧ b.tenant = c.tenant ∧
      (c.revoked = none → b.revoked = none)) : LineagesLimited cfg C' := by
  refine ⟨fun tenant => (count_le_of_keys [] fun c hc hp => .inr ?_).trans (h.1 tenant),
    (count_le_of_keys [] fun c hc _ => .inr ?_).trans h.2⟩
  · obtain ⟨ht, hrev⟩ := ConnectionRecord.openOf_eq_true.mp hp
    obtain ⟨b, hb, hid, hten, hopen⟩ := hrows c hc
    exact ⟨b, hb, ConnectionRecord.openOf_eq_true.mpr ⟨hten.trans ht, hopen hrev⟩, hid⟩
  · obtain ⟨b, hb, hid, -⟩ := hrows c hc
    exact ⟨b, hb, rfl, hid⟩

lemma LoginsLimited.of_rows {A A' : Table AuthSession.id} (h : LoginsLimited now A)
    (hrows : ∀ a ∈ A', a.live now' = true →
      ∃ b ∈ A, b.id = a.id ∧ b.tenant = a.tenant ∧ b.live now = true) :
    LoginsLimited now' A' := by
  refine fun tenant => (count_le_of_keys [] fun a ha hp => .inr ?_).trans (h tenant)
  obtain ⟨ht, hlive⟩ := AuthSession.liveOf_eq_true.mp hp
  obtain ⟨b, hb, hid, hten, hlive'⟩ := hrows a ha hlive
  exact ⟨b, hb, AuthSession.liveOf_eq_true.mpr ⟨hten.trans ht, hlive'⟩, hid⟩

lemma BrokersLimited.of_rows {B B' : Table Broker.id} (h : BrokersLimited B)
    (hrows : ∀ b ∈ B', ∃ c ∈ B, c.id = b.id ∧ c.tenant = b.tenant) : BrokersLimited B' := by
  refine fun tenant => (count_le_of_keys [] fun b hb hp => .inr ?_).trans (h tenant)
  obtain ⟨c, hc, hid, hten⟩ := hrows b hb
  exact ⟨c, hc, decide_eq_true (hten.trans (of_decide_eq_true hp)), hid⟩

lemma SessionsLimited.admits {S S' : Table SessionRow.id} (h : SessionsLimited cfg now S)
    {p : SessionRow → Bool}
    (hrows : ∀ w ∈ S', w = v ∨ (w ∈ S ∧ p w = true))
    (hown : (S.count fun w => w.tenant = v.tenant && (w.live now && p w)) <
      cfg.maxSessionsPerTenant)
    (hall : (S.count fun w => w.live now && p w) < 10000) : SessionsLimited cfg now S' := by
  refine ⟨fun tenant => count_admit (r := v) (h.1 tenant) (fun _ => hown) ?_,
    count_admit (r := v) h.2 (fun _ => hall) ?_⟩
  · intro w hw hp
    refine (hrows w hw).imp_right fun ⟨hw, hpw⟩ => ⟨hw, fun hv => ?_⟩
    obtain ⟨hten, hlive⟩ := SessionRow.liveOf_eq_true.mp hp
    obtain ⟨ht, -⟩ := SessionRow.liveOf_eq_true.mp hv
    simp [hten, ht, SessionRow.live, hlive, hpw]
  · intro w hw hp
    refine (hrows w hw).imp_right fun ⟨hw, hpw⟩ => ⟨hw, fun _ => ?_⟩
    simp [hp, hpw]

lemma LineagesLimited.admits {C' : Table ConnectionRecord.id}
    (h : LineagesLimited cfg db.connections) {c : ConnectionRecord}
    (hrows : ∀ b ∈ C', b = c ∨ b ∈ db.connections) (hroom : db.roomForLineage cfg c.tenant) :
    LineagesLimited cfg C' := by
  refine ⟨fun tenant => count_admit (r := c) (h.1 tenant) (fun _ => hroom.1) ?_,
    count_admit (r := c) h.2 (fun _ => hroom.2) ?_⟩
  · intro b hb hp
    refine (hrows b hb).imp_right fun hb => ⟨hb, fun hc => ?_⟩
    obtain ⟨hten, hrev⟩ := ConnectionRecord.openOf_eq_true.mp hp
    obtain ⟨ht, -⟩ := ConnectionRecord.openOf_eq_true.mp hc
    simp [hten, ht, hrev]
  · exact fun b hb _ => (hrows b hb).imp_right fun hb => ⟨hb, fun _ => rfl⟩

lemma BrokersLimited.admits {B B' : Table Broker.id} (h : BrokersLimited B) {b : Broker}
    (hi : B.insert b = some B') (hroom : (B.count fun c => c.tenant = b.tenant) < 128) :
    BrokersLimited B' := by
  refine fun tenant => count_admit (r := b) (h tenant) (fun _ => hroom) fun c hc hp => ?_
  refine ((mem_insert hi).mp hc).imp_right fun hc => ⟨hc, fun hb => ?_⟩
  exact decide_eq_true ((of_decide_eq_true hp).trans (of_decide_eq_true hb).symm)

lemma LoginsLimited.admits (h : LoginsLimited now db.authSessions) {draw : AuthDraw}
    {version : ℕ} {c : AuthCredentials}
    (hi : issueAuthSession cfg db now draw tenant version = .ok (db', c)) :
    LoginsLimited now db'.authSessions := by
  simp only [issueAuthSession, bind_eq_ok, found_eq_ok, reject_eq_ok, exists_unit, pure_eq_ok,
    Prod.mk.injEq] at hi
  obtain ⟨hroom, -, A, hA, T, hT, rfl, rfl⟩ := hi
  refine fun tenant' => count_admit (h tenant') (fun _ => not_le.mp hroom) fun a ha hp =>
    ((mem_insert hA).mp ha).imp_right fun ha => ⟨ha, fun hnew => ?_⟩
  obtain ⟨hten, hlive⟩ := AuthSession.liveOf_eq_true.mp hp
  obtain ⟨ht, -⟩ := AuthSession.liveOf_eq_true.mp hnew
  obtain ⟨hrev, href, habs⟩ := AuthSession.live_eq_true.mp hlive
  have ht : tenant = tenant' := ht
  simp [hten, ht, hrev, href, habs]

/-! ### One move -/

structure Limited (cfg : Config) (now : ℕ) (db : Db) : Prop where
  sessions : SessionsLimited cfg now db.sessions
  lineages : LineagesLimited cfg db.connections
  logins : LoginsLimited now db.authSessions
  brokers : BrokersLimited db.brokers
  messages : MessagesLimited cfg db.messages

/-- Empty tables are within all limits. -/
lemma Limited.empty : Limited cfg now {} where
  sessions := ⟨fun _ => Nat.zero_le _, Nat.zero_le _⟩
  lineages := ⟨fun _ => Nat.zero_le _, Nat.zero_le _⟩
  logins _ := Nat.zero_le _
  brokers _ := Nat.zero_le _
  messages m hm := absurd hm (not_mem_empty m)

lemma Limited.tick (h : Limited cfg now db) (hn : now ≤ now') : Limited cfg now' db where
  sessions := h.sessions.of_rows fun v hv hlt => ⟨v, hv, rfl, rfl, hn.trans_lt hlt⟩
  __ := h
  logins := by
    refine h.logins.of_rows fun a ha hlive => ⟨a, ha, rfl, rfl, ?_⟩
    obtain ⟨h1, h2, h3⟩ := AuthSession.live_eq_true.mp hlive
    exact AuthSession.live_eq_true.mpr ⟨h1, hn.trans_lt h2, h3.imp_right hn.trans_lt⟩

/-- A new generation posts no message. -/
lemma mem_messages_of_openGeneration {p : Principal} {old : Option ConnectionRecord}
    {row : ConnectionRecord} (hc : Connects db p old row)
    (ho : openGeneration cfg db now p old row = .ok d) {m : Message} (hm : m ∈ d.db.messages) :
    m ∈ db.messages := by
  obtain ⟨-, db₁, db₂, H, h1, h2, -, -, hdb, -⟩ := openGeneration_eq_ok ho
  obtain ⟨S, T, -, -, rfl⟩ := openSession_eq_ok h1
  have lineages₀ : (db.dropReplaced old).connections = db.connections := by cases old <;> rfl
  obtain ⟨C, rfl, -⟩ := writeLineage_eq_ok (fun c hold => by
    refine ⟨?_, (hc.advance c hold).2⟩
    rw [Db.withTokens_connections, Db.withSessions_connections, lineages₀, hc.stored, hold]) h2
  rw [hdb] at hm
  cases old with
  | none => exact hm
  | some c => exact (mem_delete.mp hm).1

lemma Limited.connect (h : Limited cfg now db) {p : Principal} {old : Option ConnectionRecord}
    {row : ConnectionRecord} (hc : Connects db p old row)
    (ho : openGeneration cfg db now p old row = .ok d)
    (hn : old = none → db.roomForLineage cfg p.tenant) : Limited cfg now d.db := by
  have hop := openGeneration_opened hc ho
  obtain ⟨-, hbrokers, hlogins⟩ := openGeneration_others hc ho
  obtain ⟨hadm, -⟩ := openGeneration_eq_ok ho
  simp only [admitGeneration, bind_eq_ok, reject_eq_ok, exists_unit, not_le] at hadm
  obtain ⟨hown, hall, -⟩ := hadm
  refine ⟨?_, ?_, hlogins ▸ h.logins, hbrokers ▸ h.brokers,
    fun m hm => h.messages m (mem_messages_of_openGeneration hc ho hm)⟩
  · refine h.sessions.admits (v := row.nextSession cfg now p)
      (p := fun w : SessionRow => !old.any fun c : ConnectionRecord => c.session = w.id)
      (fun w hw => ?_) hown hall
    refine ((hop.sessions w).mp hw).imp_right fun ⟨hw, hne⟩ => ⟨hw, ?_⟩
    cases old with
    | none => rfl
    | some c => simp [Ne.symm (hne c rfl)]
  cases hold : old with
  | none =>
    refine h.lineages.admits (c := row) (fun b hb => ?_) (hc.scope.1 ▸ hn hold)
    exact ((hop.connections b).mp hb).imp_right And.left
  | some c =>
    obtain ⟨hopen, hrow⟩ := hc.advance c hold
    refine h.lineages.of_rows fun b hb => ?_
    rcases (hop.connections b).mp hb with rfl | ⟨hb, -⟩
    · obtain ⟨hcm, hid⟩ := get_eq_some.mp (hc.stored.trans hold)
      exact ⟨c, hcm, hid, by rw [hrow]; rfl, fun _ => hopen⟩
    · exact ⟨b, hb, rfl, rfl, id⟩

/-- **Every move keeps the limits.** -/
theorem Move.limited (h : Limited cfg now db) (m : Move cfg now D db db') :
    Limited cfg now db' := by
  cases m with
  | addTenant | changeTenants | dropTokens | addToken | touchDevice =>
    exact ⟨h.1, h.2, h.3, h.4, h.5⟩
  | post hi hm =>
    refine ⟨h.1, h.2, h.3, h.4, fun m hmem => ?_⟩
    rcases (mem_insert hi).mp hmem with rfl | hmem
    · exact hm
    · exact h.messages m hmem
  | addBroker hi hb hn => exact ⟨h.1, h.2, h.3, h.brokers.admits hi hn, h.5⟩
  | changeBrokers p f hf ht =>
    refine ⟨h.1, h.2, h.3, h.brokers.of_rows fun b hb => ?_, h.5⟩
    simp only [Db.updateBrokers_brokers, mem_update] at hb
    obtain ⟨c, hc, rfl⟩ := hb
    refine ⟨c, hc, ?_⟩
    split
    · exact ⟨(hf c).symm, (ht c).symm⟩
    · exact ⟨rfl, rfl⟩
  | removeBroker id =>
    refine ⟨h.1, h.lineages.of_rows fun c hc => ?_, h.3, h.brokers.of_rows fun b hb => ?_, h.5⟩
    · exact ⟨c, (mem_delete.mp hc).1, rfl, rfl, fun hr => hr⟩
    · exact ⟨b, (mem_delete.mp hb).1, rfl, rfl⟩
  | mark p reason =>
    refine ⟨h.1, h.lineages.of_rows fun c hc => ?_, h.3, h.4, h.5⟩
    simp only [Db.updateConnections_connections, mem_update] at hc
    obtain ⟨b, hb, rfl⟩ := hc
    refine ⟨b, hb, ?_⟩
    split
    · exact ⟨rfl, rfl, (by rintro ⟨⟩)⟩
    · exact ⟨rfl, rfl, id⟩
  | forget p hp =>
    exact ⟨h.1, h.lineages.of_rows fun c hc => ⟨c, (mem_delete.mp hc).1, rfl, rfl, id⟩,
      h.3, h.4, h.5⟩
  | dropSessions p =>
    exact ⟨h.sessions.of_rows fun v hv hlt => ⟨v, (mem_delete.mp hv).1, rfl, rfl, hlt⟩,
      h.2, h.3, h.4, fun m hm => h.messages m (mem_delete.mp hm).1⟩
  | relabel p f hf hk =>
    refine ⟨h.sessions.of_rows fun v hv hlt => ?_, h.2, h.3, h.4, h.5⟩
    simp only [Db.updateSessions_sessions, mem_update] at hv
    obtain ⟨w, hw, rfl⟩ := hv
    refine ⟨w, hw, ?_⟩
    by_cases hp : p w = true
    · rw [if_pos hp] at hlt ⊢
      exact ⟨(hf w).symm, (hk w).1.symm, (hk w).2.2.2.1 ▸ hlt⟩
    · rw [if_neg hp] at hlt ⊢
      exact ⟨rfl, rfl, hlt⟩
  | extend id e hl =>
    -- only a session that counts already is extended
    refine ⟨h.sessions.of_rows fun v hv hlt => ?_, h.2, h.3, h.4, h.5⟩
    simp only [extendSession, Db.updateTokens_sessions, Db.updateSessions_sessions,
      mem_update] at hv
    obtain ⟨w, hw, rfl⟩ := hv
    refine ⟨w, hw, ?_⟩
    by_cases hid : w.id = id
    · rw [if_pos (decide_eq_true hid)]
      exact ⟨rfl, rfl, hl w hw hid⟩
    · rw [if_neg (by simpa using hid)] at hlt ⊢
      exact ⟨rfl, rfl, hlt⟩
  | @openSession v _ _ _ ho ht hc he ha hn =>
    obtain ⟨S, T, hS, -, rfl⟩ := openSession_eq_ok ho
    refine ⟨h.sessions.admits (v := v) (p := fun _ => true) (fun w hw => ?_) ?_ ?_,
      h.2, h.3, h.4, h.5⟩
    · exact ((mem_insert hS).mp hw).imp_right fun hw => ⟨hw, rfl⟩
    · simpa [SessionRow.live] using hn.1
    · simpa [SessionRow.live] using hn.2
  | connect hc hi ho hn => exact h.connect hc ho hn
  | login hi hh hid hnew hfree =>
    have hlogins := h.logins.admits hi
    obtain ⟨a, t, A, T, -, -, rfl, -⟩ := issueAuthSession_eq_ok hi
    exact ⟨h.1, h.2, hlogins, h.4, h.5⟩
  | @rotate a request hash next nextRefresh d ha hc hn hr =>
    have hlogins : LoginsLimited now d.db.authSessions := by
      refine h.logins.of_rows fun b hb hlive => ?_
      rcases mem_rotated_logins ha hr hb with rfl | ⟨hb, -⟩
      · obtain ⟨h1, h2, h3, -⟩ := checkAuthSession_eq_ok.mp hc
        exact ⟨a, mem_of_get ha, rfl, rfl, AuthSession.live_eq_true.mpr ⟨h1, h2, h3⟩⟩
      · exact ⟨b, hb, rfl, rfl, hlive⟩
    obtain ⟨T, -, rfl⟩ := rotateAuth_ok hr
    exact ⟨h.1, h.2, hlogins, h.4, h.5⟩
  | kill p reason hp =>
    refine ⟨h.1, h.2, h.logins.of_rows fun a ha hlive => ?_, h.4, h.5⟩
    simp only [Db.updateAuthSessions_authSessions, mem_update] at ha
    obtain ⟨b, hb, rfl⟩ := ha
    refine ⟨b, hb, ?_⟩
    split at hlive
    · exact absurd (AuthSession.live_eq_true.mp hlive).1 (by rintro ⟨⟩)
    · rename_i hpb
      rw [if_neg hpb]
      exact ⟨rfl, rfl, hlive⟩
  | collect p hp hd =>
    exact ⟨h.1, h.2, h.logins.of_rows fun a ha hlive =>
      ⟨a, (mem_delete.mp ha).1, rfl, rfl, hlive⟩, h.4, h.5⟩

lemma Moves.limited (h : Limited cfg now db) (m : Moves cfg now D db db') :
    Limited cfg now db' := by
  induction m with
  | refl => exact h
  | tail _ m ih => exact m.limited ih

/-! ### Every reachable state -/

theorem Server.Reachable.limited {s : Server} (h : s.Reachable cfg) :
    Limited cfg s.clock s.db := by
  obtain ⟨as, has, rfl⟩ := h
  refine (along_invariant (I := fun s : Server => s.Inv cfg ∧ Limited cfg s.clock s.db) ?_
    ⟨⟨Sound.empty, rfl⟩, .empty⟩ has).2
  rintro s a ⟨hi, hl⟩ ha
  exact ⟨hi.act ha, (hi.moves ha).limited (hl.tick ha.le)⟩

lemma MessagesLimited.mailbox (h : MessagesLimited cfg db.messages) (session : Uuid)
    (side : MessageSide) : (db.mailbox session side).length ≤ cfg.maxMessagesPerDirection := by
  have hcount : db.messages.count (fun m => m.session = session && m.side = side) ≤
      (∅ : Table fun m : Message => (m.session, m.side, m.sequence)).count (fun _ => true) +
        ((List.range cfg.maxMessagesPerDirection).map fun n => (session, side, n + 1)).length := by
    refine count_le_of_keys _ fun m hm hp => .inl ?_
    simp only [Bool.and_eq_true, decide_eq_true_eq] at hp
    obtain ⟨h1, h2⟩ := h m hm
    refine mem_map.mpr ⟨m.sequence - 1, mem_range.mpr (by omega), ?_⟩
    rw [hp.1, hp.2, Nat.sub_add_cancel h1]
  rw [length_map, length_range] at hcount
  rw [Db.mailbox, Table.select, ← countP_eq_length_filter]
  exact hcount.trans (Nat.zero_add _).le

/-- The history of a lineage is bounded. -/
lemma Recorded.history_le (h : Recorded db) (i : Uuid) :
    (db.connectionSessions.count fun e => e.connection = i) ≤ 257 := by
  rw [Table.count, countP_eq_length_filter]
  cases hc : db.connections.get i with
  | none =>
    have hnil : db.connectionSessions.rows.filter (fun e => e.connection = i) = [] := by
      refine filter_eq_nil_iff.mpr fun e he hei => ?_
      obtain ⟨c, hcm, hid⟩ := h.owner e he
      exact get_eq_none.mp hc c hcm (hid.trans (of_decide_eq_true hei))
    rw [hnil]
    exact Nat.zero_le _
  | some c =>
    obtain ⟨hcm, rfl⟩ := get_eq_some.mp hc
    -- the generations are distinct and lie in the window
    have hnodup : ((db.connectionSessions.rows.filter fun e => e.connection = c.id).map
        ConnectionSession.generation).Nodup := by
      refine List.Nodup.map_on ?_
        (List.Nodup.filter _ (List.Nodup.of_map _ db.connectionSessions.nodup))
      intro e he e' he' hg
      obtain ⟨he, hei⟩ := mem_filter.mp he
      obtain ⟨he', hei'⟩ := mem_filter.mp he'
      exact h.unique e he e' he' ((of_decide_eq_true hei).trans (of_decide_eq_true hei').symm) hg
    have hsub : (db.connectionSessions.rows.filter fun e => e.connection = c.id).map
        ConnectionSession.generation ⊆ (List.range 257).map fun n => c.generation - n := by
      intro g hg
      obtain ⟨e, he, rfl⟩ := mem_map.mp hg
      obtain ⟨he, hei⟩ := mem_filter.mp he
      obtain ⟨-, h2, h3⟩ := (h.window c hcm e.generation).mp ⟨e, he, of_decide_eq_true hei, rfl⟩
      refine mem_map.mpr ⟨c.generation - e.generation, mem_range.mpr ?_, ?_⟩ <;> omega
    have hlen := (subperm_of_subset hnodup hsub).length_le
    simpa using hlen

/-- **The limits hold at all times**: sessions, lineages, login sessions, brokers, mailboxes and
histories. -/
theorem limits_hold {s : Server} (hs : s.Reachable cfg) (now : ℕ) (hn : s.clock ≤ now) :
    (∀ tenant, s.db.sessions.count (SessionRow.liveOf now tenant) ≤ cfg.maxSessionsPerTenant) ∧
    s.db.sessions.count (SessionRow.live now) ≤ 10000 ∧
    (∀ tenant, s.db.connections.count (ConnectionRecord.openOf tenant) ≤
      cfg.maxSessionsPerTenant) ∧
    (s.db.connections.count fun _ => true) ≤ 10000 ∧
    (∀ tenant, s.db.authSessions.count (AuthSession.liveOf now tenant) ≤ 16) ∧
    (∀ tenant, (s.db.brokers.count fun b => b.tenant = tenant) ≤ 128) ∧
    (∀ session side, (s.db.mailbox session side).length ≤ cfg.maxMessagesPerDirection) ∧
    ∀ i, (s.db.connectionSessions.count fun e => e.connection = i) ≤ 257 := by
  have h := hs.limited.tick hn
  exact ⟨h.sessions.1, h.sessions.2, h.lineages.1, h.lineages.2, h.logins, h.brokers,
    h.messages.mailbox, hs.recorded.history_le⟩

/-- One session is live, within a limit of 128. -/
theorem limits_hold_sample :
    sampleServer.db.sessions.count (SessionRow.liveOf 5 1) = 1 ∧
      sampleServer.db.sessions.count (SessionRow.liveOf 5 1) ≤ 128 :=
  ⟨by decide +kernel, (limits_hold sampleServer_reachable 5 (by decide +kernel)).1 1⟩

end OhecoBroker.Control
