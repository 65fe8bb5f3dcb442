/-
The history of a lineage (`connection_sessions`).

* `Opened`, `openGeneration_opened`: the tables after a new generation, row by row;
* `Recorded`: the history has the last generations of every lineage, each once, and agrees with
  the sessions and tokens that are still there;
* `opened`, `Move.recorded`, `Server.Reachable.recorded`: a new generation, every move and every
  run keep it right.
-/
import OhecoBroker.Control.Server

namespace OhecoBroker.Control

open Lib Table

variable {cfg : Config} {now : ℕ} {D : Draws} {db db' : Db} {d : Done}

/-! ### What a new generation leaves -/

/-- The tables after the generation `row` took the place of `old`, row by row. -/
structure Opened (cfg : Config) (db : Db) (now : ℕ) (p : Principal)
    (old : Option ConnectionRecord) (row : ConnectionRecord) (db' : Db) : Prop where
  connections : ∀ c, c ∈ db'.connections ↔ c = row ∨ (c ∈ db.connections ∧ c.id ≠ row.id)
  sessions : ∀ v, v ∈ db'.sessions ↔ v = row.nextSession cfg now p ∨
    (v ∈ db.sessions ∧ ∀ c, old = some c → v.id ≠ c.session)
  tokens : ∀ t, t ∈ db'.tokens ↔
    t = (row.nextSession cfg now p).token row.tokenHash p.version ∨
    (t ∈ db.tokens ∧ ∀ c, old = some c → ¬(t.kind = .session ∧ t.session = some c.session))
  history : ∀ e, e ∈ db'.connectionSessions ↔ (e = row.history ∨ e ∈ db.connectionSessions) ∧
    ¬(e.connection = row.id ∧ e.generation + 256 < row.generation)
  entry : ∀ e ∈ db.connectionSessions, e.session ≠ row.session ∧
    ¬(e.connection = row.id ∧ e.generation = row.generation)

theorem openGeneration_opened {p : Principal} {old : Option ConnectionRecord}
    {row : ConnectionRecord} (hc : Connects db p old row)
    (ho : openGeneration cfg db now p old row = .ok d) : Opened cfg db now p old row d.db := by
  obtain ⟨-, db₁, db₂, H, h1, h2, hH, hgen, hdb, -⟩ := openGeneration_eq_ok ho
  have lineages₀ : (db.dropReplaced old).connections = db.connections := by cases old <;> rfl
  have history₀ : (db.dropReplaced old).connectionSessions = db.connectionSessions := by
    cases old <;> rfl
  obtain ⟨S, T, hS, hT, rfl⟩ := openSession_eq_ok h1
  obtain ⟨C, rfl, hrow, hC, hC'⟩ := writeLineage_eq_ok (fun c hold => by
    refine ⟨?_, (hc.advance c hold).2⟩
    rw [Db.withTokens_connections, Db.withSessions_connections, lineages₀, hc.stored, hold]) h2
  simp only [Db.withTokens_connections, Db.withSessions_connections, lineages₀] at hC hC'
  simp only [Db.withConnections_connectionSessions, Db.withTokens_connectionSessions,
    Db.withSessions_connectionSessions, history₀] at hH hgen
  rw [hdb]
  constructor
  · intro c
    refine ⟨hC c, ?_⟩
    rintro (rfl | ⟨hcm, hne⟩)
    · exact hrow
    · exact hC' c hcm hne
  · intro v
    refine (mem_insert hS).trans (or_congr_right ?_)
    cases old with
    | none => simp [Db.dropReplaced]
    | some c => simp [Db.dropReplaced, Db.dropSessions]
  · intro t
    refine (mem_insert hT).trans (or_congr_right ?_)
    cases old with
    | none => simp [Db.dropReplaced]
    | some c =>
      simp only [Db.dropReplaced, Db.dropSessions, Db.deleteSessions_tokens,
        Db.deleteTokens_tokens, mem_delete, Bool.and_eq_false_iff, decide_eq_false_iff_not,
        Option.some.injEq, forall_eq']
      cases t.session <;> simp [imp_iff_not_or]
  · intro e
    simp only [Db.trimHistory, Db.withConnectionSessions_connectionSessions, mem_delete,
      mem_insert hH, Bool.and_eq_false_iff, decide_eq_false_iff_not, not_and_or]
  · intro e he
    exact ⟨get_eq_none.mp (insert_eq_some hH).1 e he, hgen e he⟩

lemma openGeneration_others {p : Principal} {old : Option ConnectionRecord}
    {row : ConnectionRecord} (hc : Connects db p old row)
    (ho : openGeneration cfg db now p old row = .ok d) :
    d.db.tenants = db.tenants ∧ d.db.brokers = db.brokers ∧
    d.db.authSessions = db.authSessions := by
  obtain ⟨-, db₁, db₂, H, h1, h2, -, -, hdb, -⟩ := openGeneration_eq_ok ho
  obtain ⟨S, T, -, -, rfl⟩ := openSession_eq_ok h1
  have lineages₀ : (db.dropReplaced old).connections = db.connections := by cases old <;> rfl
  obtain ⟨C, rfl, -⟩ := writeLineage_eq_ok (fun c hold => by
    refine ⟨?_, (hc.advance c hold).2⟩
    rw [Db.withTokens_connections, Db.withSessions_connections, lineages₀, hc.stored, hold]) h2
  rw [hdb]
  cases old <;> exact ⟨rfl, rfl, rfl⟩

/-! ### The history of a lineage -/

/-- The history agrees with the lineages, the sessions and the tokens. -/
structure Recorded (db : Db) : Prop where
  /-- The history of a lineage goes with it. -/
  owner : ∀ e ∈ db.connectionSessions, ∃ c ∈ db.connections, c.id = e.connection
  /-- The current generation is the newest entry. -/
  current : ∀ c ∈ db.connections, c.history ∈ db.connectionSessions
  /-- One entry for each of the last 257 generations. -/
  window : ∀ c ∈ db.connections, ∀ g,
    (∃ e ∈ db.connectionSessions, e.connection = c.id ∧ e.generation = g) ↔
      1 ≤ g ∧ g ≤ c.generation ∧ c.generation ≤ g + 256
  unique : ∀ e ∈ db.connectionSessions, ∀ e' ∈ db.connectionSessions,
    e.connection = e'.connection → e.generation = e'.generation → e = e'
  /-- Only the current session can exist. -/
  sessions : ∀ c ∈ db.connections, ∀ e ∈ db.connectionSessions, e.connection = c.id →
    ∀ v ∈ db.sessions, v.id = e.session → e.session = c.session
  /-- Only the current session can have a token. -/
  tokens : ∀ c ∈ db.connections, ∀ e ∈ db.connectionSessions, e.connection = c.id →
    ∀ t ∈ db.tokens, t.session = some e.session → e.session = c.session

namespace Recorded

/-- Empty tables have an empty history. -/
lemma empty : Recorded {} where
  owner := (by intros; contradiction)
  current := (by intros; contradiction)
  window := (by intros; contradiction)
  unique := (by intros; contradiction)
  sessions := (by intros; contradiction)
  tokens := (by intros; contradiction)

lemma shrink (h : Recorded db) (hc : db'.connections = db.connections)
    (he : db'.connectionSessions = db.connectionSessions)
    (hv : ∀ v ∈ db'.sessions, ∃ w ∈ db.sessions, w.id = v.id)
    (ht : ∀ t ∈ db'.tokens, t.session = none ∨ ∃ u ∈ db.tokens, u.session = t.session) :
    Recorded db' where
  owner := by rw [hc, he]; exact h.owner
  current := by rw [hc, he]; exact h.current
  window := by rw [hc, he]; exact h.window
  unique := by rw [he]; exact h.unique
  sessions := by
    rw [hc, he]
    intro c hcm e hem hid v hvm hvid
    obtain ⟨w, hw, hwid⟩ := hv v hvm
    exact h.sessions c hcm e hem hid w hw (hwid.trans hvid)
  tokens := by
    rw [hc, he]
    intro c hcm e hem hid t htm hts
    rcases ht t htm with hnone | ⟨u, hu, hus⟩
    · rw [hnone] at hts
      cases hts
    · exact h.tokens c hcm e hem hid u hu (hus.trans hts)

lemma congr (h : Recorded db) (hc : db'.connections = db.connections)
    (he : db'.connectionSessions = db.connectionSessions) (hv : db'.sessions = db.sessions)
    (ht : db'.tokens = db.tokens) : Recorded db' :=
  h.shrink hc he (fun v hvm => ⟨v, hv ▸ hvm, rfl⟩) fun t htm => .inr ⟨t, ht ▸ htm, rfl⟩

lemma mark (h : Recorded db) (p : ConnectionRecord → Bool) (reason : Reason) :
    Recorded (db.updateConnections p fun c => { c with revoked := some reason }) := by
  -- a marked row has the history of the row it was
  have back : ∀ c ∈ (db.updateConnections p fun c => { c with revoked := some reason }).connections,
      ∃ c₀ ∈ db.connections, c₀.id = c.id ∧ c₀.generation = c.generation ∧
        c₀.session = c.session ∧ c₀.history = c.history := by
    intro c hc
    simp only [Db.updateConnections_connections, mem_update] at hc
    obtain ⟨c₀, hc₀, rfl⟩ := hc
    refine ⟨c₀, hc₀, ?_⟩
    split_ifs <;> exact ⟨rfl, rfl, rfl, rfl⟩
  constructor
  · intro e he
    obtain ⟨c, hc, hid⟩ := h.owner e he
    refine ⟨if p c then { c with revoked := some reason } else c, ?_, ?_⟩
    · simp only [Db.updateConnections_connections, mem_update]
      exact ⟨c, hc, rfl⟩
    · split_ifs <;> exact hid
  · intro c hc
    obtain ⟨c₀, hc₀, -, -, -, h4⟩ := back c hc
    rw [← h4]
    exact h.current c₀ hc₀
  · intro c hc g
    obtain ⟨c₀, hc₀, h1, h2, -⟩ := back c hc
    rw [← h1, ← h2]
    exact h.window c₀ hc₀ g
  · exact h.unique
  · intro c hc e he hid v hv hvid
    obtain ⟨c₀, hc₀, h1, -, h3, -⟩ := back c hc
    rw [← h3]
    exact h.sessions c₀ hc₀ e he (hid.trans h1.symm) v hv hvid
  · intro c hc e he hid t ht hts
    obtain ⟨c₀, hc₀, h1, -, h3, -⟩ := back c hc
    rw [← h3]
    exact h.tokens c₀ hc₀ e he (hid.trans h1.symm) t ht hts

/-- The history of a lineage goes with it. -/
lemma deleteConnections (h : Recorded db) (p : ConnectionRecord → Bool) :
    Recorded (db.deleteConnections p) := by
  -- the entries that stay are those of lineages that stay
  have keep : ∀ c ∈ db.connections, p c = false → ∀ e ∈ db.connectionSessions,
      e.connection = c.id → e ∈ (db.deleteConnections p).connectionSessions := by
    intro c hc hp e he hid
    refine mem_delete.mpr ⟨he, any_eq_false.mpr fun c' hc' => ?_⟩
    rw [Bool.and_eq_false_iff, decide_eq_false_iff_not]
    by_cases hne : c'.id = e.connection
    · rw [eq_of_key_eq hc' hc (hne.trans hid)]
      exact .inl hp
    · exact .inr hne
  have stay : ∀ e ∈ (db.deleteConnections p).connectionSessions, e ∈ db.connectionSessions :=
    fun e he => (mem_delete.mp he).1
  constructor
  · intro e he
    obtain ⟨he, hout⟩ := mem_delete.mp he
    obtain ⟨c, hc, hid⟩ := h.owner e he
    refine ⟨c, mem_delete.mpr ⟨hc, ?_⟩, hid⟩
    simpa [hid] using any_eq_false.mp hout c hc
  · intro c hc
    obtain ⟨hc, hp⟩ := mem_delete.mp hc
    exact keep c hc hp _ (h.current c hc) rfl
  · intro c hc g
    obtain ⟨hc, hp⟩ := mem_delete.mp hc
    rw [← h.window c hc g]
    constructor
    · rintro ⟨e, he, hid, hg⟩
      exact ⟨e, stay e he, hid, hg⟩
    · rintro ⟨e, he, hid, hg⟩
      exact ⟨e, keep c hc hp e he hid, hid, hg⟩
  · exact fun e he e' he' => h.unique e (stay e he) e' (stay e' he')
  · intro c hc e he
    exact h.sessions c (mem_delete.mp hc).1 e (stay e he)
  · intro c hc e he
    exact h.tokens c (mem_delete.mp hc).1 e (stay e he)

lemma openSession {v : SessionRow} {hash : Hash} {version : ℕ} (h : Recorded db)
    (ho : Control.openSession db v hash version = .ok db')
    (he : ∀ e ∈ db.connectionSessions, e.session ≠ v.id) : Recorded db' := by
  obtain ⟨S, T, hS, hT, rfl⟩ := openSession_eq_ok ho
  constructor
  · exact h.owner
  · exact h.current
  · exact h.window
  · exact h.unique
  · intro c hc e hem hid w hw hwid
    rcases (mem_insert hS).mp hw with rfl | hw
    · exact absurd hwid.symm (he e hem)
    · exact h.sessions c hc e hem hid w hw hwid
  · intro c hc e hem hid t ht hts
    rcases (mem_insert hT).mp ht with rfl | ht
    · exact absurd (Option.some.inj hts).symm (he e hem)
    · exact h.tokens c hc e hem hid t ht hts

lemma replaced {p : Principal} {old : Option ConnectionRecord} {row : ConnectionRecord}
    (h : Recorded db) (hc : Connects db p old row) {e : ConnectionSession}
    (he : e ∈ db.connectionSessions) (hid : e.connection = row.id) :
    ∃ c ∈ db.connections, old = some c ∧ e.connection = c.id ∧
      row.generation = c.generation + 1 := by
  obtain ⟨c, hcm, hcid⟩ := h.owner e he
  have hold : old = some c := hc.stored.symm.trans (get_eq_some.mpr ⟨hcm, hcid.trans hid⟩)
  exact ⟨c, hcm, hold, hcid.symm, by rw [(hc.advance c hold).2]; rfl⟩

lemma generation_pos (h : Recorded db) {c : ConnectionRecord} (hc : c ∈ db.connections) :
    1 ≤ c.generation :=
  ((h.window c hc c.generation).mp ⟨c.history, h.current c hc, rfl, rfl⟩).1

section Opened

variable {p : Principal} {old : Option ConnectionRecord} {row : ConnectionRecord}

lemma opened_window (h : Recorded db) (hc : Connects db p old row)
    (ho : Opened cfg db now p old row db') (g : ℕ) :
    (∃ e ∈ db'.connectionSessions, e.connection = row.id ∧ e.generation = g) ↔
      1 ≤ g ∧ g ≤ row.generation ∧ row.generation ≤ g + 256 := by
  have hpos : 1 ≤ row.generation := by
    cases old with
    | none => rw [(hc.create rfl).1]
    | some c =>
      rw [(hc.advance c rfl).2]
      exact Nat.le_add_left 1 _
  constructor
  · rintro ⟨e, he, hid, rfl⟩
    obtain ⟨hmem, htrim⟩ := (ho.history e).mp he
    rcases hmem with rfl | hmem
    · exact ⟨hpos, le_rfl, Nat.le_add_right _ _⟩
    obtain ⟨c, hcm, -, hcid, hgen⟩ := h.replaced hc hmem hid
    obtain ⟨h1, h2, -⟩ := (h.window c hcm e.generation).mp ⟨e, hmem, hcid, rfl⟩
    have hkept : ¬e.generation + 256 < row.generation := fun h => htrim ⟨hid, h⟩
    omega
  rintro ⟨h1, h2, h3⟩
  rcases Nat.lt_or_ge g row.generation with hlt | hge
  · cases old with
    | none =>
      have := (hc.create rfl).1
      omega
    | some c =>
      obtain ⟨hcm, hcid⟩ := get_eq_some.mp hc.stored
      have hgen : row.generation = c.generation + 1 := by
        rw [(hc.advance c rfl).2]
        rfl
      obtain ⟨e, he, hid, rfl⟩ := (h.window c hcm g).mpr ⟨h1, by omega, by omega⟩
      exact ⟨e, (ho.history e).mpr ⟨.inr he, by omega⟩, hid.trans hcid, rfl⟩
  obtain rfl : g = row.generation := by omega
  exact ⟨row.history, (ho.history _).mpr ⟨.inl rfl, fun hlt => by
    have : row.generation + 256 < row.generation := hlt.2
    omega⟩, rfl, rfl⟩

lemma opened_current (hc : Connects db p old row) (h : Recorded db)
    (ho : Opened cfg db now p old row db') {c : ConnectionRecord} (hcm : c ∈ db'.connections)
    {e : ConnectionSession} (he : e ∈ db'.connectionSessions) (hid : e.connection = c.id)
    (hlive : e ∈ db.connectionSessions → ∀ c₀ ∈ db.connections, e.connection = c₀.id →
      e.session = c₀.session ∧ old ≠ some c₀) : e.session = c.session := by
  obtain ⟨hmem, -⟩ := (ho.history e).mp he
  rcases (ho.connections c).mp hcm with rfl | ⟨hcm, hne⟩
  · rcases hmem with rfl | hmem
    · rfl
    · obtain ⟨c₀, hc₀, hold, hcid, -⟩ := h.replaced hc hmem hid
      exact absurd hold (hlive hmem c₀ hc₀ hcid).2
  · rcases hmem with rfl | hmem
    · exact absurd hid.symm hne
    · exact (hlive hmem c hcm hid).1

/-- **A new generation is recorded.** -/
lemma opened (h : Recorded db) (hs : Sound cfg now db) (hc : Connects db p old row)
    (ho : Opened cfg db now p old row db') : Recorded db' := by
  constructor
  · intro e he
    obtain ⟨hmem, -⟩ := (ho.history e).mp he
    by_cases hid : e.connection = row.id
    · exact ⟨row, (ho.connections row).mpr (.inl rfl), hid.symm⟩
    rcases hmem with rfl | hmem
    · exact absurd rfl hid
    · obtain ⟨c, hcm, hcid⟩ := h.owner e hmem
      exact ⟨c, (ho.connections c).mpr (.inr ⟨hcm, hcid ▸ hid⟩), hcid⟩
  · intro c hcm
    rcases (ho.connections c).mp hcm with rfl | ⟨hcm, hne⟩
    · refine (ho.history _).mpr ⟨.inl rfl, fun hlt => ?_⟩
      have : c.generation + 256 < c.generation := hlt.2
      omega
    · exact (ho.history _).mpr ⟨.inr (h.current c hcm), fun hlt => hne hlt.1⟩
  · intro c hcm g
    rcases (ho.connections c).mp hcm with rfl | ⟨hcm, hne⟩
    · exact h.opened_window hc ho g
    rw [← h.window c hcm g]
    constructor
    · rintro ⟨e, he, hid, hg⟩
      obtain ⟨rfl | hmem, -⟩ := (ho.history e).mp he
      · exact absurd hid.symm hne
      · exact ⟨e, hmem, hid, hg⟩
    · rintro ⟨e, he, hid, hg⟩
      exact ⟨e, (ho.history e).mpr ⟨.inr he, fun hlt => hne (hid.symm.trans hlt.1)⟩, hid, hg⟩
  · intro e he e' he' hid hg
    obtain ⟨rfl | hm, -⟩ := (ho.history e).mp he
    · obtain ⟨rfl | hm', -⟩ := (ho.history e').mp he'
      · rfl
      · exact absurd ⟨hid.symm, hg.symm⟩ (ho.entry e' hm').2
    · obtain ⟨rfl | hm', -⟩ := (ho.history e').mp he'
      · exact absurd ⟨hid, hg⟩ (ho.entry e hm).2
      · exact h.unique e hm e' hm' hid hg
  · intro c hcm e he hid v hv hvid
    refine opened_current hc h ho hcm he hid fun hm c₀ hc₀ hid₀ => ?_
    rcases (ho.sessions v).mp hv with rfl | ⟨hv, hout⟩
    · exact absurd hvid.symm (ho.entry e hm).1
    · have heq := h.sessions c₀ hc₀ e hm hid₀ v hv hvid
      exact ⟨heq, fun hold => hout c₀ hold (hvid.trans heq)⟩
  · intro c hcm e he hid t ht hts
    refine opened_current hc h ho hcm he hid fun hm c₀ hc₀ hid₀ => ?_
    rcases (ho.tokens t).mp ht with rfl | ⟨ht, hout⟩
    · exact absurd (Option.some.inj hts).symm (ho.entry e hm).1
    have heq := h.tokens c₀ hc₀ e hm hid₀ t ht hts
    refine ⟨heq, fun hold => hout c₀ hold ⟨?_, hts.trans (congrArg some heq)⟩⟩
    by_contra hk
    rw [hs.plain t ht hk] at hts
    cases hts

end Opened

end Recorded

/-! ### Runs -/

/-- **Every move keeps the history right.** -/
theorem Move.recorded (hs : Sound cfg now db) (h : Recorded db) (m : Move cfg now D db db') :
    Recorded db' := by
  cases m with
  | post | addTenant | changeTenants | addBroker | changeBrokers | kill | collect =>
    exact h.congr rfl rfl rfl rfl
  | removeBroker id => exact (h.deleteConnections _).congr rfl rfl rfl rfl
  | mark p reason => exact h.mark p reason
  | forget p hp => exact h.deleteConnections p
  | dropSessions p =>
    exact h.shrink rfl rfl (fun v hv => ⟨v, (mem_delete.mp hv).1, rfl⟩)
      fun t ht => .inr ⟨t, ht, rfl⟩
  | dropTokens q hq =>
    exact h.shrink rfl rfl (fun v hv => ⟨v, hv, rfl⟩)
      fun t ht => .inr ⟨t, (mem_delete.mp ht).1, rfl⟩
  | @addToken t tokens hi hD hk hnone ha hnew hdev hexp =>
    refine h.shrink rfl rfl (fun v hv => ⟨v, hv, rfl⟩) fun u hu => ?_
    rcases (mem_insert hi).mp hu with rfl | hu
    · exact .inl hnone
    · exact .inr ⟨u, hu, rfl⟩
  | touchDevice q e hq hd hexp =>
    refine h.shrink rfl rfl (fun v hv => ⟨v, hv, rfl⟩) fun u hu => ?_
    simp only [Db.updateTokens_tokens, mem_update] at hu
    obtain ⟨t, ht, rfl⟩ := hu
    exact .inr ⟨t, ht, by split <;> rfl⟩
  | relabel p f hf hk =>
    refine h.shrink rfl rfl (fun v hv => ?_) fun t ht => .inr ⟨t, ht, rfl⟩
    simp only [Db.updateSessions_sessions, mem_update] at hv
    obtain ⟨w, hw, rfl⟩ := hv
    exact ⟨w, hw, by split <;> simp [hf]⟩
  | extend id e hl =>
    refine h.shrink rfl rfl (fun v hv => ?_) fun t ht => ?_
    · simp only [extendSession, Db.updateTokens_sessions, Db.updateSessions_sessions,
        mem_update] at hv
      obtain ⟨w, hw, rfl⟩ := hv
      exact ⟨w, hw, by split <;> rfl⟩
    simp only [extendSession, Db.updateTokens_tokens, Db.updateSessions_tokens,
      mem_update] at ht
    obtain ⟨u, hu, rfl⟩ := ht
    exact .inr ⟨u, hu, by split <;> rfl⟩
  | @openSession v hash version _ ho ht hc he ha hn => exact h.openSession ho he
  | connect hc hi ho hn => exact h.opened hs hc (openGeneration_opened hc ho)
  | login hi hh hid hnew hfree =>
    obtain ⟨a, t, A, T, -, hT, rfl, -, -, -, -, -, -, -, -, -, -, -, -, hnone, -⟩ :=
      issueAuthSession_eq_ok hi
    refine h.shrink rfl rfl (fun v hv => ⟨v, hv, rfl⟩) fun u hu => ?_
    rcases (mem_insert hT).mp hu with rfl | hu
    · exact .inl hnone
    · exact .inr ⟨u, hu, rfl⟩
  | @rotate a request hash next nextRefresh d ha hc hn hr =>
    simp only [rotateAuth, bind_eq_ok, found_eq_ok, reject_eq_ok, exists_unit, pure_eq_ok] at hr
    obtain ⟨T, hT, -, rfl⟩ := hr
    refine h.shrink rfl rfl (fun v hv => ⟨v, hv, rfl⟩) fun u hu => ?_
    rcases (mem_insert hT).mp hu with rfl | hu
    · exact .inl rfl
    simp only [Db.overlapTokens, Db.updateTokens_tokens, Db.deleteTokens_tokens,
      mem_update, mem_delete] at hu
    obtain ⟨t, ⟨ht, -⟩, rfl⟩ := hu
    exact .inr ⟨t, ht, by split <;> rfl⟩

lemma Moves.recorded (hs : Sound cfg now db) (h : Recorded db) (m : Moves cfg now D db db') :
    Recorded db' := by
  induction m with
  | refl => exact h
  | tail ms m ih => exact m.recorded (Moves.sound hs ms) ih

theorem Server.Reachable.recorded {s : Server} (h : s.Reachable cfg) : Recorded s.db := by
  obtain ⟨as, has, rfl⟩ := h
  refine (along_invariant (I := fun s : Server => s.Inv cfg ∧ Recorded s.db) ?_
    ⟨⟨Sound.empty, rfl⟩, Recorded.empty⟩ has).2
  rintro s a ⟨hi, hr⟩ ha
  exact ⟨hi.act ha, Moves.recorded (hi.sound.tick ha.le) hr (hi.moves ha)⟩

end OhecoBroker.Control
