/-
The compare-and-swap on the generation of a lineage (`connectionSession`).

* `OnlyCurrent`, `onlyCurrent`: of a lineage only the current session and token can exist;
* `connectionSession_answered`: a successful request repeats the last answer or opens the next
  generation;
* `Server.act_generation`: no step takes a lineage back to an earlier generation;
* `generation_swap`: **in every run each generation is given out once**.
-/
import OhecoBroker.Control.History
import OhecoBroker.Control.Marks

namespace OhecoBroker.Control

open Lib Table

variable {cfg : Config} {now : ℕ} {db : Db} {d : Done} {i : Uuid}

/-! ### What a request does -/

/-- The generation of a lineage, zero before it exists. -/
def Db.generationOf (db : Db) (i : Uuid) : ℕ := ((db.connections.get i).map (·.generation)).getD 0

/-- Of a lineage only the current session and token can exist; the history holds the last 257
generations. -/
structure OnlyCurrent (db : Db) (c : ConnectionRecord) : Prop where
  session : ∀ e ∈ db.connectionSessions, e.connection = c.id → ∀ v ∈ db.sessions,
    v.id = e.session → v.id = c.session
  token : ∀ e ∈ db.connectionSessions, e.connection = c.id → ∀ t ∈ db.tokens,
    t.session = some e.session → t.session = some c.session ∧ t.hash = c.tokenHash
  history : ∀ g, (∃ e ∈ db.connectionSessions, e.connection = c.id ∧ e.generation = g) ↔
    c.generation - min c.generation 257 < g ∧ g ≤ c.generation
  once : ∀ e ∈ db.connectionSessions, ∀ e' ∈ db.connectionSessions, e.connection = c.id →
    e'.connection = c.id → e.generation = e'.generation → e = e'

variable {c : ConnectionRecord} {r : ConnectionRequest} {a : Act}

lemma onlyCurrent (hs : Sound cfg now db) (h : Recorded db)
    (hc : c ∈ db.connections) : OnlyCurrent db c where
  session e he hid v hv hvid := hvid.trans (h.sessions c hc e he hid v hv hvid)
  token e he hid t ht hts := by
    have heq : t.session = some c.session :=
      hts.trans (congrArg some (h.tokens c hc e he hid t ht hts))
    refine ⟨heq, (hs.transport c hc t ht ?_ heq).1⟩
    by_contra hk
    rw [hs.plain t ht hk] at heq
    cases heq
  history g := by
    rw [h.window c hc g]
    have := h.generation_pos hc
    omega
  once e he e' he' hid hid' := h.unique e he e' he' (hid.trans hid'.symm)

/-- What a successful answer says. -/
structure Answered (cfg : Config) (db : Db) (i : Uuid) (r : ConnectionRequest) (d : Done) :
    Prop where
  code : d.code = 200 ∨ d.code = 201
  /-- A new session is the next generation of the expected one. -/
  next : d.code = 201 → r.expectedGeneration = some (db.generationOf i) ∧
    d.db.generationOf i = db.generationOf i + 1
  /-- It takes the place of the last one. -/
  replaced : d.code = 201 → ∀ c, db.connections.get i = some c →
    (∀ v ∈ d.db.sessions, v.id ≠ c.session) ∧ ∀ t ∈ d.db.tokens, t.session ≠ some c.session
  /-- Its request identifier and its token are not in the history. -/
  fresh : d.code = 201 → ∀ e ∈ db.connectionSessions,
    (e.connection = i → r.request ≠ some e.request) ∧ r.token.map cfg.tokenHash ≠ some e.tokenHash
  /-- A repeated request gets the answer it got. -/
  repeated : ∀ c, db.connections.get i = some c → r.request = some c.request →
    d.code = 200 ∧ d.db = db ∧ r.expectedGeneration = some c.priorGeneration ∧
    r.token.map cfg.tokenHash = some c.tokenHash ∧
    ∃ expiry, d.reply = .connection c.session i c.generation expiry

lemma admitGeneration_fresh {tenant : Uuid} {old : Option ConnectionRecord}
    {row : ConnectionRecord} {u : Unit} (h : admitGeneration cfg db now tenant old row = .ok u) :
    ∀ e ∈ db.connectionSessions, (e.connection = row.id → e.request ≠ row.request) ∧
      e.tokenHash ≠ row.tokenHash := by
  simp only [admitGeneration, bind_eq_ok, reject_eq_ok, exists_unit, Bool.not_eq_true,
    any_eq_false] at h
  obtain ⟨-, -, h1, h2, -⟩ := h
  intro e he
  refine ⟨fun hid hreq => ?_, of_decide_eq_false (h1 e he)⟩
  have := h2 e he
  simp [hid, hreq] at this

lemma connectionSession_answered {hash : Hash} {p : Principal} {sid : Uuid} (hs : Sound cfg now db)
    (h : connectionSession cfg db now hash p sid (some i) r = .ok d)
    (hft : ∀ t ∈ db.tokens, t.session ≠ some sid) (hfc : ∀ c ∈ db.connections, c.session ≠ sid) :
    Answered cfg db i r d := by
  obtain ⟨j, broker, request, token, expected, relay, hid, rfl, hcase⟩ :=
    connectionSession_opens hs h hft hfc
  cases hid
  rcases hcase with ⟨c, v, hc, rfl, rfl, htok, -, -, rfl⟩ |
    ⟨old, row, hcon, rfl, rfl, htok, rfl, -, hgen, hreq, ho, -⟩
  · -- the answer is repeated
    refine ⟨.inl rfl, (by rintro ⟨⟩), (by rintro ⟨⟩), (by rintro ⟨⟩), fun c' hc' hr => ?_⟩
    obtain rfl := Option.some.inj (hc.symm.trans hc')
    exact ⟨rfl, rfl, rfl, congrArg some htok, v.expiresAt, by rw [key_of_get hc]⟩
  -- the next generation
  obtain ⟨hadm, -, -, -, -, -, -, -, -, hcode, -⟩ := openGeneration_eq_ok ho
  have hop := openGeneration_opened hcon ho
  have hold : db.generationOf row.id = expected := by
    rw [Db.generationOf, hcon.stored]
    cases old with
    | none =>
      have := (hcon.create rfl).1
      show 0 = expected
      omega
    | some c =>
      have : row.generation = c.generation + 1 := by
        rw [(hcon.advance c rfl).2]
        rfl
      show c.generation = expected
      omega
  refine ⟨.inr hcode, fun _ => ⟨by rw [hold], ?_⟩, fun _ c hc => ⟨?_, ?_⟩, ?_, ?_⟩
  · have hget : d.db.connections.get row.id = some row :=
      get_eq_some.mpr ⟨(hop.connections row).mpr (.inl rfl), rfl⟩
    rw [Db.generationOf, hget, hold, Option.map_some, Option.getD_some, hgen]
  · intro v hv
    rcases (hop.sessions v).mp hv with rfl | ⟨-, hout⟩
    · exact (hcon.freshLineage c (mem_of_get hc)).symm
    · exact hout c (hcon.stored.symm.trans hc)
  · intro t ht hts
    rcases (hop.tokens t).mp ht with rfl | ⟨ht, hout⟩
    · exact hcon.freshLineage c (mem_of_get hc) (Option.some.inj hts).symm
    refine hout c (hcon.stored.symm.trans hc) ⟨?_, hts⟩
    by_contra hk
    rw [hs.plain t ht hk] at hts
    cases hts
  · intro _ e he
    obtain ⟨h1, h2⟩ := admitGeneration_fresh hadm e he
    refine ⟨fun hid hr => h1 hid (Option.some.inj hr).symm, fun htk => h2 ?_⟩
    rw [htok]
    exact (Option.some.inj htk).symm
  · intro c hc hr
    exact absurd (Option.some.inj hr) (hreq c (hcon.stored.symm.trans hc))

/-! ### Runs -/

lemma Marks.generation {R : ConnectionRecord → Bool} {C C' : Table ConnectionRecord.id}
    (h : Marks R C C') {c' : ConnectionRecord} (hc : c ∈ C) (hc' : c' ∈ C') (hid : c'.id = c.id) :
    c'.generation = c.generation := by
  obtain ⟨c₀, hc₀, hm⟩ := h.back c' hc'
  rcases hm with rfl | ⟨reason, rfl⟩
  · rw [eq_of_key_eq hc₀ hc hid]
  · rw [← eq_of_key_eq hc₀ hc hid]

lemma pruneConnections_marks (t : ℕ → ℕ) :
    Marks (fun _ => true) db.connections (pruneConnections db t).connections where
  back c' hc' := by
    obtain ⟨hc', -⟩ := mem_delete.mp hc'
    simp only [Db.deleteSessions_connections, Db.deleteTokens_connections,
      Db.updateConnections_connections, mem_update] at hc'
    obtain ⟨c, hc, rfl⟩ := hc'
    refine ⟨c, hc, ?_⟩
    split_ifs
    · exact .inr ⟨_, rfl⟩
    · exact .inl rfl
  keep _ _ := (by rintro ⟨⟩)

variable {s : Server}

theorem Server.act_generation (hi : s.Inv cfg) (ha : Admissible cfg s a)
    {c' : ConnectionRecord} (hc : c ∈ s.db.connections)
    (hc' : c' ∈ (s.act cfg a).db.connections) (hid : c'.id = c.id) :
    c.generation ≤ c'.generation := by
  -- the row stays as it is, is marked, or moves on by one
  have same : ∀ {R : ConnectionRecord → Bool},
      Marks R s.db.connections (s.act cfg a).db.connections → c.generation ≤ c'.generation :=
    fun hm => (hm.generation hc hc' hid).ge
  cases a with
  | call now call =>
    cases he : call.exec cfg s.db now with
    | error e =>
      refine same (R := fun _ => false) (.of_eq ?_)
      simp only [Server.act, Server.next, he]
    | ok d =>
      simp only [Server.act, Server.next, he] at hc' same
      rcases Call.exec_marks he with hm | ⟨hash, p, sid, id, r, rfl⟩
      · exact same hm
      obtain ⟨hft, hfc, -⟩ := Draws.Fresh.id ha.2 (List.mem_singleton_self sid)
      obtain ⟨j, broker, request, token, expected, relay, -, -, hcase⟩ :=
        connectionSession_opens (hi.sound.tick ha.le) he (fun t ht => (hft t ht).1)
          fun c hc => (hfc c hc).1
      rcases hcase with ⟨o, v, -, -, -, -, -, -, rfl⟩ |
        ⟨old, row, hcon, -, -, -, -, -, -, -, ho, -⟩
      · exact same (R := fun _ => false) .refl
      rcases ((openGeneration_opened hcon ho).connections c').mp hc' with
        rfl | ⟨hm, -⟩
      · have hold : old = some c :=
          hcon.stored.symm.trans (get_eq_some.mpr ⟨hc, hid.symm⟩)
        rw [(hcon.advance c hold).2]
        exact Nat.le_succ _
      · rw [eq_of_key_eq hm hc hid]
  | persist now e =>
    refine same (R := fun _ => false) (.of_eq ?_)
    simp only [Server.act, Server.next, hi.observed, List.not_mem_nil, if_false]
  | prune t => exact same (pruneConnections_marks t)
  | evict | observe | expireSessions | expireTokens | collect =>
    exact same (R := fun _ => false) .refl

def Issues (cfg : Config) (s : Server) (i : Uuid) (a : Act) (r : ConnectionRequest) (d : Done) :
    Prop :=
  Admissible cfg s a ∧ ∃ now hash p sid, a = .call now (.connectionSession hash p sid (some i) r) ∧
    connectionSession cfg s.db now hash p sid (some i) r = .ok d

/-- What an issuing step answers. -/
lemma Issues.answered (hi : s.Inv cfg) (h : Issues cfg s i a r d) : Answered cfg s.db i r d := by
  obtain ⟨ha, now, hash, p, sid, rfl, h⟩ := h
  obtain ⟨hft, hfc, -⟩ := Draws.Fresh.id ha.2 (List.mem_singleton_self sid)
  exact connectionSession_answered (hi.sound.tick ha.le) h (fun t ht => (hft t ht).1)
    fun c hc => (hfc c hc).1

lemma Issues.act (h : Issues cfg s i a r d) : (s.act cfg a).db = d.db := by
  obtain ⟨-, now, hash, p, sid, rfl, h⟩ := h
  have he : (Call.connectionSession hash p sid (some i) r).exec cfg s.db now = .ok d := h
  simp only [Server.act, Server.next, he]

def Outlives (cfg : Config) (i : Uuid) (s : Server) (a : Act) : Prop :=
  Admissible cfg s a ∧ (s.db.connections.get i).isSome ∧
    ((s.act cfg a).db.connections.get i).isSome

lemma generationOf_mono (hi : s.Inv cfg) {as : List Act}
    (has : Along (Server.act cfg) (Outlives cfg i) s as) :
    (run (Server.act cfg) s as).Inv cfg ∧
      s.db.generationOf i ≤ (run (Server.act cfg) s as).db.generationOf i := by
  refine along_invariant (I := fun s' : Server => s'.Inv cfg ∧
    s.db.generationOf i ≤ s'.db.generationOf i) ?_ ⟨hi, le_rfl⟩ has
  rintro s' a ⟨hi', hle⟩ ⟨ha, hsome, hsome'⟩
  refine ⟨hi'.act ha, hle.trans ?_⟩
  obtain ⟨c, hc⟩ := Option.isSome_iff_exists.mp hsome
  obtain ⟨c', hc'⟩ := Option.isSome_iff_exists.mp hsome'
  rw [Db.generationOf, Db.generationOf, hc, hc']
  obtain ⟨hm, hid⟩ := get_eq_some.mp hc
  obtain ⟨hm', hid'⟩ := get_eq_some.mp hc'
  exact Server.act_generation hi' ha hm hm' (hid'.trans hid.symm)

/-- **Each generation is given out once.** Only the current session and token of a lineage can
exist; a request opens the next generation or repeats the last answer; and two requests that open
one expect different ones. -/
theorem generation_swap (hs : s.Reachable cfg) (i : Uuid) :
    (∀ c, s.db.connections.get i = some c → OnlyCurrent s.db c) ∧
    (∀ a r d, Issues cfg s i a r d → Answered cfg s.db i r d) ∧
    ∀ a r d, Issues cfg s i a r d → d.code = 201 →
      ∀ as, Along (Server.act cfg) (Outlives cfg i) (s.act cfg a) as →
        ∀ b r' d', Issues cfg (run (Server.act cfg) (s.act cfg a) as) i b r' d' →
          d'.code = 201 → r'.expectedGeneration ≠ r.expectedGeneration := by
  have hi := hs.inv
  refine ⟨fun c hc => onlyCurrent hi.sound hs.recorded (mem_of_get hc),
    fun a r d h => h.answered hi, ?_⟩
  intro a r d h hcode as has b r' d' h' hcode'
  obtain ⟨hi', hle⟩ := generationOf_mono (hi.act h.1) has
  obtain ⟨hexp, hnext⟩ := (h.answered hi).next hcode
  obtain ⟨hexp', -⟩ := (h'.answered hi').next hcode'
  rw [h.act] at hle
  rw [hexp, hexp', Ne, Option.some.injEq]
  omega

/-- The first generation of lineage 5 is opened, and never again. -/
theorem generation_swap_sample :
    ∃ d, Issues sampleConfig sampleServer 5
        (.call 4 (.connectionSession 11 samplePrincipal 6 (some 5) sampleRequest)) sampleRequest d ∧
      d.code = 201 ∧ Answered sampleConfig sampleServer.db 5 sampleRequest d ∧
      ∀ b r' d', Issues sampleConfig (sampleServer.act sampleConfig
          (.call 4 (.connectionSession 11 samplePrincipal 6 (some 5) sampleRequest))) 5 b r' d' →
        d'.code = 201 → r'.expectedGeneration ≠ some 0 := by
  have hok : (connectionSession sampleConfig sampleServer.db 4 11 samplePrincipal 6 (some 5)
      sampleRequest).toOption.any (·.code = 201) = true := by decide +kernel
  cases hd : connectionSession sampleConfig sampleServer.db 4 11 samplePrincipal 6 (some 5)
      sampleRequest with
  | error e =>
    rw [hd] at hok
    cases hok
  | ok d =>
    rw [hd] at hok
    have hcode : d.code = 201 := of_decide_eq_true hok
    have hiss : Issues sampleConfig sampleServer 5
        (.call 4 (.connectionSession 11 samplePrincipal 6 (some 5) sampleRequest))
        sampleRequest d := ⟨⟨by decide +kernel, by decide +kernel⟩, _, _, _, _, rfl, hd⟩
    obtain ⟨-, hans, htwice⟩ := generation_swap sampleServer_reachable 5
    exact ⟨d, hiss, hcode, hans _ _ _ hiss, htwice _ _ _ hiss hcode [] trivial⟩

end OhecoBroker.Control
