/-
The deadlines of login sessions, of their account and device tokens and of the token a rotation
supersedes.

* `Timed`, `Move.timed`: no token outlives its login session, and every move keeps it so;
* `Rotates.superseded`, `Rotates.once`: a superseded token gets no more time than it had, nor than
  the overlap; two rotations start from different generations;
* `AuthSession.Ended.unchanged`: an ended login session renews nothing;
* `last_renewal`: the deadline of a device token is that of its last renewal;
* `login_deadlines`: **all of it, over whole runs**.
-/
import OhecoBroker.Control.History

namespace OhecoBroker.Control

open Lib Table

variable {cfg : Config} {now : ℕ} {D : Draws} {db db' : Db} {d : Done} {i : Uuid}

/-! ### The invariant -/

def accountOf (i : Uuid) (t : Token) : Bool := t.kind = .account && t.authSession = some i

variable {t : Token} {a : AuthSession} {nextRefresh : Hash} {r : RefreshRequest} {as : List Act}

lemma accountOf_eq_true : accountOf i t = true ↔ t.kind = .account ∧ t.authSession = some i := by
  simp [accountOf]

/-- The deadlines of tokens and those of login sessions agree. -/
structure Timed (db : Db) : Prop where
  /-- The current account token ends when its login session says. -/
  current : ∀ a ∈ db.authSessions, ∀ t ∈ db.tokens, t.kind = .account → t.hash = a.tokenHash →
    t.expiresAt = a.tokenExpiry
  /-- Only the current account token and its predecessor exist. -/
  two : ∀ i, db.tokens.count (accountOf i) ≤ 2
  /-- A device token ends with its login session. -/
  device : ∀ t ∈ db.tokens, t.kind = .device → ∀ a ∈ db.authSessions, t.authSession = some a.id →
    t.expiresAt ≤ a.refreshExpiry

namespace Timed

lemma empty : Timed {} where
  current a ha := absurd ha (not_mem_empty a)
  two _ := Nat.zero_le _
  device t ht := absurd ht (not_mem_empty t)

/-- Only tokens and login sessions count. -/
lemma congr (h : Timed db) (ht : db'.tokens = db.tokens)
    (ha : db'.authSessions = db.authSessions) : Timed db' := by
  constructor <;> simp only [ht, ha]
  exacts [h.current, h.two, h.device]

lemma shrink (h : Timed db) (ha : db'.authSessions = db.authSessions)
    (ht : ∀ t ∈ db'.tokens, t.kind ≠ .session → t ∈ db.tokens) : Timed db' where
  current a haa t htt hk := h.current a (ha ▸ haa) t (ht t htt (by simp [hk])) hk
  two i := by
    refine (count_le_of_keys [] fun t htt hp => .inr ?_).trans (h.two i)
    obtain ⟨hk, -⟩ := accountOf_eq_true.mp hp
    exact ⟨t, ht t htt (by simp [hk]), hp, rfl⟩
  device t htt hk a haa := h.device t (ht t htt (by simp [hk])) hk a (ha ▸ haa)

lemma logins (h : Timed db) (ht : db'.tokens = db.tokens)
    (ha : ∀ a' ∈ db'.authSessions, ∃ a ∈ db.authSessions, a.id = a'.id ∧
      a.tokenHash = a'.tokenHash ∧ a.tokenExpiry = a'.tokenExpiry ∧
      a.refreshExpiry = a'.refreshExpiry) : Timed db' where
  current a' ha' t htt hk he := by
    obtain ⟨a, haa, -, e1, e2, -⟩ := ha a' ha'
    rw [← e2]
    exact h.current a haa t (ht ▸ htt) hk (he.trans e1.symm)
  two i := ht ▸ h.two i
  device t htt hk a' ha' he := by
    obtain ⟨a, haa, e0, -, -, e3⟩ := ha a' ha'
    rw [← e3]
    exact h.device t (ht ▸ htt) hk a haa (he.trans (congrArg some e0.symm))

lemma addToken (h : Timed db) {t : Token} {tokens : Table Token.hash}
    (hi : db.tokens.insert t = some tokens)
    (ha : ∀ i, t.authSession = some i → t.kind = .device)
    (hnew : ∀ a ∈ db.authSessions, a.tokenHash ≠ t.hash)
    (hexp : ∀ i, t.authSession = some i →
      ∀ a ∈ db.authSessions, a.id = i → t.expiresAt ≤ a.refreshExpiry) :
    Timed (db.withTokens tokens) where
  current a haa u hu hk he := by
    rcases (mem_insert hi).mp hu with rfl | hu
    · exact absurd he.symm (hnew a haa)
    · exact h.current a haa u hu hk he
  two i := by
    refine (count_le_of_keys [] fun u hu hp => .inr ?_).trans (h.two i)
    obtain ⟨hk, hau⟩ := accountOf_eq_true.mp hp
    rcases (mem_insert hi).mp hu with rfl | hu
    · exact absurd (hk.symm.trans (ha i hau)) (by rintro ⟨⟩)
    · exact ⟨u, hu, hp, rfl⟩
  device u hu hk a haa he := by
    rcases (mem_insert hi).mp hu with rfl | hu
    · exact hexp a.id he a haa rfl
    · exact h.device u hu hk a haa he

lemma touchDevice (h : Timed db) {q : Token → Bool} {e : ℕ} (hq : ∀ t, q t → t.kind = .device)
    (hexp : ∀ t ∈ db.tokens, q t → ∀ i, t.authSession = some i →
      ∀ a ∈ db.authSessions, a.id = i → e ≤ a.refreshExpiry) :
    Timed (db.updateTokens q fun t => { t with expiresAt := e }) where
  current a haa u hu hk he := by
    simp only [Db.updateTokens_tokens, mem_update] at hu
    obtain ⟨t, ht, rfl⟩ := hu
    by_cases hqt : q t = true
    · rw [if_pos hqt] at hk
      exact absurd ((hq t hqt).symm.trans hk) (by rintro ⟨⟩)
    · rw [if_neg hqt] at hk he ⊢
      exact h.current a haa t ht hk he
  two i := by
    refine (count_le_of_keys [] fun u hu hp => .inr ?_).trans (h.two i)
    simp only [Db.updateTokens_tokens, mem_update] at hu
    obtain ⟨t, ht, rfl⟩ := hu
    refine ⟨t, ht, ?_, by split <;> rfl⟩
    split at hp <;> exact hp
  device u hu hk a haa he := by
    simp only [Db.updateTokens_tokens, mem_update] at hu
    obtain ⟨t, ht, rfl⟩ := hu
    by_cases hqt : q t = true
    · rw [if_pos hqt] at he ⊢
      exact hexp t ht hqt a.id he a haa rfl
    · rw [if_neg hqt] at hk he ⊢
      exact h.device t ht hk a haa he

end Timed

/-! ### One move -/

lemma Timed.login (h : Timed db) (hs : Sound cfg now db) {draw : AuthDraw} {tenant : Uuid}
    {version : ℕ} {c : AuthCredentials}
    (hi : issueAuthSession cfg db now draw tenant version = .ok (db', c))
    (hnew : ∀ a ∈ db.authSessions, a.tokenHash ≠ cfg.tokenHash draw.token) : Timed db' := by
  obtain ⟨a, t, A, T, hA, hT, rfl, hid, -, -, -, hhash, -, -, htok, thash, tk, -, -, -, -, -, ta⟩ :=
    issueAuthSession_eq_ok hi
  have hfreeA := get_eq_none.mp (insert_eq_some hA).1
  have hfreeT := get_eq_none.mp (insert_eq_some hT).1
  -- no token names the new login session yet
  have hnone : ∀ u ∈ db.tokens, u.authSession ≠ some a.id := by
    intro u hu he
    obtain ⟨b, hb, hbid, -⟩ := hs.authority u hu a.id he
    exact hfreeA b hb hbid
  constructor
  · intro b hb u hu hk he
    rcases (mem_insert hT).mp hu with rfl | hu
    · rcases (mem_insert hA).mp hb with rfl | hb
      · exact htok.symm
      · exact absurd (he.symm.trans thash) (hnew b hb)
    · rcases (mem_insert hA).mp hb with rfl | hb
      · exact absurd (he.trans (hhash.trans thash.symm)) (hfreeT u hu)
      · exact h.current b hb u hu hk he
  · intro i
    by_cases hia : a.id = i
    · refine (count_le_of_keys (t := db.tokens) (p := accountOf i) [t.hash]
        fun u hu hp => .inl ?_).trans ?_
      · rcases (mem_insert hT).mp hu with rfl | hu
        · exact List.mem_singleton_self _
        · exact absurd ((accountOf_eq_true.mp hp).2.trans (congrArg some hia.symm)) (hnone u hu)
      · have hzero : db.tokens.count (accountOf i) = 0 := by
          refine count_eq_zero.mpr fun u hu => Bool.eq_false_iff.mpr fun hp => ?_
          exact hnone u hu ((accountOf_eq_true.mp hp).2.trans (congrArg some hia.symm))
        rw [hzero]
        simp
    refine (count_le_of_keys [] fun u hu hp => .inr ?_).trans (h.two i)
    rcases (mem_insert hT).mp hu with rfl | hu
    · have he := (accountOf_eq_true.mp hp).2
      rw [ta, ← hid] at he
      exact absurd (Option.some.inj he) hia
    · exact ⟨u, hu, hp, rfl⟩
  · intro u hu hk b hb he
    rcases (mem_insert hT).mp hu with rfl | hu
    · exact absurd (tk.symm.trans hk) (by rintro ⟨⟩)
    · rcases (mem_insert hA).mp hb with rfl | hb
      · exact absurd he (hnone u hu)
      · exact h.device u hu hk b hb he

lemma mem_rotated_tokens {request : Uuid} {hash next : Hash}
    (h : rotateAuth cfg db now a request hash next nextRefresh = .ok d) {u : Token}
    (hu : u ∈ d.db.tokens) : u = a.nextAccount cfg now next ∨
      ∃ t ∈ db.tokens, ¬(t.kind = .account ∧ t.authSession = some a.id ∧ t.hash ≠ a.tokenHash) ∧
        u = if t.hash = a.tokenHash ∧ t.kind = .account
          then { t with expiresAt := min a.tokenExpiry (now + cfg.authAccessOverlap) } else t := by
  obtain ⟨T, hT, rfl⟩ := rotateAuth_ok h
  rcases (mem_insert hT).mp hu with rfl | hu
  · exact .inl rfl
  simp only [Db.overlapTokens, Db.updateTokens_tokens, Db.deleteTokens_tokens, mem_update,
    mem_delete] at hu
  obtain ⟨t, ⟨ht, hq⟩, rfl⟩ := hu
  refine .inr ⟨t, ht, fun hx => ?_, ?_⟩
  · simp [hx.1, hx.2.1, hx.2.2] at hq
  · simp only [Bool.and_eq_true, decide_eq_true_eq]

lemma refreshExpiry_le_rotated (hs : Sound cfg now db)
    (ha : a ∈ db.authSessions) : a.refreshExpiry ≤ cfg.refreshExpiry now a.absoluteExpiry := by
  obtain ⟨-, h2, h3⟩ := hs.deadlines a ha
  unfold Config.refreshExpiry
  split
  · rename_i h0
    exact le_min h2 (h3 h0)
  · exact h2

lemma mem_rotated_logins {request : Uuid} {hash next : Hash}
    (ha : db.authSessions.get a.id = some a)
    (h : rotateAuth cfg db now a request hash next nextRefresh = .ok d) {b : AuthSession}
    (hb : b ∈ d.db.authSessions) : b = a.rotated cfg now request hash next nextRefresh ∨
      (b ∈ db.authSessions ∧ b.id ≠ a.id) := by
  have hget := rotateAuth_authSessions ha h b.id
  rw [get_of_mem hb] at hget
  by_cases hid : b.id = a.id
  · rw [if_pos hid] at hget
    exact .inl (Option.some.inj hget)
  · rw [if_neg hid] at hget
    exact .inr ⟨mem_of_get hget.symm, hid⟩

lemma Timed.rotate (h : Timed db) (hs : Sound cfg now db) {request : Uuid}
    {hash next : Hash} (ha : db.authSessions.get a.id = some a)
    (hn : db.uses next = false)
    (hr : rotateAuth cfg db now a request hash next nextRefresh = .ok d) : Timed d.db := by
  obtain ⟨hfree, hfreeA⟩ := not_uses.mp hn
  have ham := mem_of_get ha
  constructor
  · intro b hb u hu hk he
    rcases mem_rotated_tokens hr hu with rfl | ⟨t, ht, -, rfl⟩
    · rcases mem_rotated_logins ha hr hb with rfl | ⟨hb, -⟩
      · rfl
      · exact absurd he.symm (hfreeA b hb).2.2
    have hth : t.hash = b.tokenHash := by
      split at he <;> exact he
    have htk : t.kind = .account := by
      split at hk <;> exact hk
    rcases mem_rotated_logins ha hr hb with rfl | ⟨hb, hne⟩
    · exact absurd hth (hfree t ht)
    -- the token belongs to the login session that records it
    have hb' := hs.account b hb t ht htk hth
    have hta : ¬(t.hash = a.tokenHash ∧ t.kind = .account) := fun hx =>
      hne (Option.some.inj (hb'.symm.trans (hs.account a ham t ht htk hx.1)))
    rw [if_neg hta]
    exact h.current b hb t ht htk hth
  · intro i
    by_cases hia : a.id = i
    · have hkeys : d.db.tokens.count (accountOf i) ≤
          (∅ : Table Token.hash).count (accountOf i) + [a.tokenHash, next].length := by
        refine count_le_of_keys _ fun u hu hp => .inl ?_
        obtain ⟨hk, hau⟩ := accountOf_eq_true.mp hp
        rcases mem_rotated_tokens hr hu with rfl | ⟨t, ht, hkept, rfl⟩
        · simp [AuthSession.nextAccount]
        have hth : t.hash = a.tokenHash := by
          by_contra hne
          rw [if_neg fun hx => hne hx.1] at hk hau
          exact hkept ⟨hk, hau.trans (congrArg some hia.symm), hne⟩
        split <;> simp [hth]
      exact hkeys
    refine (count_le_of_keys [] fun u hu hp => .inr ?_).trans (h.two i)
    obtain ⟨hk, hau⟩ := accountOf_eq_true.mp hp
    rcases mem_rotated_tokens hr hu with rfl | ⟨t, ht, -, rfl⟩
    · exact absurd (Option.some.inj hau) hia
    · refine ⟨t, ht, ?_, by split <;> rfl⟩
      split at hp <;> exact hp
  · intro u hu hk b hb he
    rcases mem_rotated_tokens hr hu with rfl | ⟨t, ht, -, rfl⟩
    · cases hk
    have htk : t.kind = .device := by
      split at hk <;> exact hk
    rw [if_neg (by simp [htk])] at he ⊢
    rcases mem_rotated_logins ha hr hb with rfl | ⟨hb, -⟩
    · exact (h.device t ht htk a ham he).trans (refreshExpiry_le_rotated hs ham)
    · exact h.device t ht htk b hb he

/-- **Every move keeps the deadlines in order.** -/
theorem Move.timed (hs : Sound cfg now db) (h : Timed db) (hD : D.ownBearer)
    (m : Move cfg now D db db') : Timed db' := by
  cases m with
  | post | addTenant | changeTenants | addBroker | changeBrokers | removeBroker | mark | forget
  | dropSessions | relabel => exact h.congr rfl rfl
  | dropTokens q hq => exact h.shrink rfl fun t ht _ => (mem_delete.mp ht).1
  | addToken hi _ hk hnone ha hnew hdev hexp =>
    exact h.addToken hi (fun i hi => (ha i hi).1) hnew fun i hi => (hexp i hi).2
  | touchDevice q e hq hd hexp => exact h.touchDevice hq (hexp hD)
  | extend id e hl =>
    refine h.shrink rfl fun t ht hk => ?_
    simp only [extendSession, Db.updateTokens_tokens, Db.updateSessions_tokens,
      mem_update] at ht
    obtain ⟨u, hu, rfl⟩ := ht
    by_cases hq : (u.kind = .session && u.session = some id) = true
    · rw [if_pos hq] at hk
      simp only [Bool.and_eq_true, decide_eq_true_eq] at hq
      exact absurd hq.1 hk
    · rw [if_neg hq]
      exact hu
  | openSession ho ht hc he ha hn =>
    obtain ⟨S, T, -, hT, rfl⟩ := openSession_eq_ok ho
    refine h.shrink rfl fun t ht hk => ?_
    rcases (mem_insert hT).mp ht with rfl | ht
    · exact absurd rfl hk
    · exact ht
  | connect hc hi ho hn =>
    refine h.shrink (openGeneration_others hc ho).2.2 fun t ht hk => ?_
    rcases ((openGeneration_opened hc ho).tokens t).mp ht with rfl | ⟨ht, -⟩
    · exact absurd rfl hk
    · exact ht
  | login hi hh hid hnew hfree => exact h.login hs hi hnew
  | rotate ha hc hn hr => exact h.rotate hs ha hn hr
  | kill p reason hp =>
    refine h.logins rfl fun a' ha' => ?_
    simp only [Db.updateAuthSessions_authSessions, mem_update] at ha'
    obtain ⟨a, ha, rfl⟩ := ha'
    exact ⟨a, ha, by split <;> exact ⟨rfl, rfl, rfl, rfl⟩⟩
  | collect p hp hd =>
    exact h.logins rfl fun a ha => ⟨a, (mem_delete.mp ha).1, rfl, rfl, rfl, rfl⟩

/-- A sequence of moves keeps the deadlines in order. -/
lemma Moves.timed (hs : Sound cfg now db) (h : Timed db) (hD : D.ownBearer)
    (m : Moves cfg now D db db') : Timed db' := by
  induction m with
  | refl => exact h
  | tail m₁ m ih => exact m.timed (Moves.sound hs m₁) ih hD

lemma Move.devices (m : Move cfg now D db db') (ht : t ∈ db'.tokens)
    (hk : t.kind = .device) (ha : t.authSession ≠ none) (hD : t.hash ∉ D.devices) :
    t ∈ db.tokens := by
  cases m with
  | post | addTenant | changeTenants | addBroker | changeBrokers | removeBroker | mark | forget
  | dropSessions | relabel | kill | collect => exact ht
  | dropTokens q hq => exact (mem_delete.mp ht).1
  | addToken hi _ _ hnone hauth hnew hdev hexp =>
    rcases (mem_insert hi).mp ht with rfl | ht
    · obtain ⟨i, hi⟩ := Option.ne_none_iff_exists'.mp ha
      exact absurd (hexp i hi).1 hD
    · exact ht
  | touchDevice q e hq hd hexp =>
    simp only [Db.updateTokens_tokens, mem_update] at ht
    obtain ⟨u, hu, rfl⟩ := ht
    by_cases hqu : q u = true
    · rw [if_pos hqu] at hD
      exact absurd (hd u hqu) hD
    · rw [if_neg hqu]
      exact hu
  | extend id e hl =>
    simp only [extendSession, Db.updateTokens_tokens, Db.updateSessions_tokens,
      mem_update] at ht
    obtain ⟨u, hu, rfl⟩ := ht
    by_cases hq : (u.kind = .session && u.session = some id) = true
    · rw [if_pos hq] at hk
      simp only [Bool.and_eq_true, decide_eq_true_eq] at hq
      exact absurd (hq.1.symm.trans hk) (by rintro ⟨⟩)
    · rw [if_neg hq]
      exact hu
  | openSession ho _ hc he hauth hn =>
    obtain ⟨S, T, -, hT, rfl⟩ := openSession_eq_ok ho
    rcases (mem_insert hT).mp ht with rfl | ht
    · cases hk
    · exact ht
  | connect hc hi ho hn =>
    rcases ((openGeneration_opened hc ho).tokens t).mp ht with rfl | ⟨ht, -⟩
    · cases hk
    · exact ht
  | login hi hh hid hnew hfree =>
    obtain ⟨a, u, A, T, -, hT, rfl, -, -, -, -, -, -, -, -, -, tk, -, -, -, -, -, -⟩ :=
      issueAuthSession_eq_ok hi
    rcases (mem_insert hT).mp ht with rfl | ht
    · exact absurd (tk.symm.trans hk) (by rintro ⟨⟩)
    · exact ht
  | rotate haa hc hn hr =>
    rcases mem_rotated_tokens hr ht with rfl | ⟨u, hu, -, rfl⟩
    · cases hk
    have huk : u.kind = .device := by
      split at hk <;> exact hk
    rw [if_neg (by simp [huk])]
    exact hu

lemma Moves.devices (m : Moves cfg now D db db') (ht : t ∈ db'.tokens)
    (hk : t.kind = .device) (ha : t.authSession ≠ none) (hD : t.hash ∉ D.devices) :
    t ∈ db.tokens := by
  induction m with
  | refl => exact ht
  | tail _ m ih => exact ih (m.devices ht hk ha hD)

lemma Move.logins (m : Move cfg now D db db') {a' : AuthSession} (ha' : a' ∈ db'.authSessions)
    (hD : a'.id ∉ D.ids) :
    ∃ a ∈ db.authSessions, a.id = a'.id ∧ a.generation ≤ a'.generation := by
  cases m with
  | post | addTenant | changeTenants | addBroker | changeBrokers | removeBroker | mark | forget
  | dropSessions | dropTokens | addToken | touchDevice | relabel | extend =>
    exact ⟨a', ha', rfl, le_rfl⟩
  | openSession ho _ hc he hauth hn =>
    obtain ⟨S, T, -, hT, rfl⟩ := openSession_eq_ok ho
    exact ⟨a', ha', rfl, le_rfl⟩
  | connect hc hi ho hn =>
    rw [(openGeneration_others hc ho).2.2] at ha'
    exact ⟨a', ha', rfl, le_rfl⟩
  | login hi hh hid hnew hfree =>
    obtain ⟨a, u, A, T, hA, -, rfl, haid, -⟩ := issueAuthSession_eq_ok hi
    rcases (mem_insert hA).mp ha' with rfl | ha'
    · exact absurd (haid ▸ hid) hD
    · exact ⟨a', ha', rfl, le_rfl⟩
  | @rotate a request hash next nextRefresh d ha hc hn hr =>
    rcases mem_rotated_logins ha hr ha' with rfl | ⟨ha', -⟩
    · exact ⟨a, mem_of_get ha, rfl, Nat.le_succ _⟩
    · exact ⟨a', ha', rfl, le_rfl⟩
  | kill p reason hp =>
    simp only [Db.updateAuthSessions_authSessions, mem_update] at ha'
    obtain ⟨a, ha, rfl⟩ := ha'
    exact ⟨a, ha, by split <;> exact ⟨rfl, le_rfl⟩⟩
  | collect p hp hd => exact ⟨a', (mem_delete.mp ha').1, rfl, le_rfl⟩

lemma Moves.logins (m : Moves cfg now D db db') {a' : AuthSession} (ha' : a' ∈ db'.authSessions)
    (hD : a'.id ∉ D.ids) :
    ∃ a ∈ db.authSessions, a.id = a'.id ∧ a.generation ≤ a'.generation := by
  induction m generalizing a' with
  | refl => exact ⟨a', ha', rfl, le_rfl⟩
  | tail _ m ih =>
    obtain ⟨b, hb, hid, hle⟩ := m.logins ha' hD
    obtain ⟨a, ha, hid', hle'⟩ := ih hb (hid ▸ hD)
    exact ⟨a, ha, hid'.trans hid, hle'.trans hle⟩

/-! ### Rotations -/

variable {s : Server}

/-- The request succeeds as a rotation, not as a repeated receipt. -/
def Rotates (cfg : Config) (s : Server) (i : Uuid) (now : ℕ) (r : RefreshRequest) (d : Done) :
    Prop :=
  r.authSession = some i ∧ refreshAuth cfg s.db now r = .ok d ∧
    ∀ a, s.db.authSessions.get i = some a → r.proof.map cfg.tokenHash ≠ a.previousRefresh

lemma Rotates.cases (h : Rotates cfg s i now r d) :
    ∃ a request hash next nextRefresh, s.db.authSessions.get i = some a ∧ a.id = i ∧
      r.expectedGeneration = some a.generation ∧ s.db.uses next = false ∧
      rotateAuth cfg s.db now a request hash next nextRefresh = .ok d := by
  obtain ⟨hid, hok, hfresh⟩ := h
  obtain ⟨j, request, expected, nt, nr, proof, a, rfl, -, ha, -, hcase⟩ := refreshAuth_cases hok
  obtain rfl : j = i := Option.some.inj hid
  rcases hcase with ⟨hprev, -⟩ | ⟨-, -, hgen, -, -, hn, -, hr⟩
  · exact absurd hprev (hfresh a ha)
  · exact ⟨a, request, _, _, _, ha, key_of_get ha, congrArg some hgen, hn, hr⟩

lemma Rotates.superseded (ht : Timed s.db) (h : Rotates cfg s i now r d)
    (ha : s.db.authSessions.get i = some a) {u : Token} (hu : u ∈ d.db.tokens)
    (hk : u.kind = .account) (he : u.hash = a.tokenHash) :
    ∃ t ∈ s.db.tokens, t.hash = u.hash ∧ u.expiresAt ≤ t.expiresAt ∧
      u.expiresAt ≤ now + cfg.authAccessOverlap := by
  obtain ⟨b, request, hash, next, nextRefresh, hb, -, -, hn, hr⟩ := h.cases
  obtain rfl : b = a := Option.some.inj (hb.symm.trans ha)
  have ham := mem_of_get ha
  rcases mem_rotated_tokens hr hu with rfl | ⟨t, htm, -, rfl⟩
  · exact absurd he.symm ((not_uses.mp hn).2 b ham).2.2
  have hth : t.hash = b.tokenHash := by
    split at he <;> exact he
  have htk : t.kind = .account := by
    split at hk <;> exact hk
  rw [if_pos ⟨hth, htk⟩]
  refine ⟨t, htm, rfl, ?_, min_le_right _ _⟩
  rw [ht.current b ham t htm htk hth]
  exact min_le_left _ _

/-- A refresh that rotates nothing changes nothing. -/
lemma refresh_unchanged (h : ∀ i d, ¬Rotates cfg s i now r d) :
    (s.act cfg (.call now (.refresh r))).db = s.db := by
  simp only [Server.act, Server.next, Call.exec]
  cases hok : refreshAuth cfg s.db now r with
  | error e => rfl
  | ok d =>
    obtain ⟨j, request, expected, nt, nr, proof, a, rfl, -, ha, -, hcase⟩ := refreshAuth_cases hok
    rcases hcase with ⟨-, -, -, rfl⟩ | ⟨hprev, -⟩
    · rfl
    · refine absurd ⟨rfl, hok, fun b hb => ?_⟩ (h j d)
      obtain rfl : a = b := Option.some.inj (ha.symm.trans hb)
      exact hprev

/-- The login session is revoked or past a deadline. -/
def AuthSession.Ended (a : AuthSession) (now : ℕ) : Prop :=
  a.revoked ≠ none ∨ a.refreshExpiry ≤ now ∨ (a.absoluteExpiry ≠ 0 ∧ a.absoluteExpiry ≤ now)

/-- An ended login session passes no check. -/
lemma AuthSession.Ended.refuses (h : a.Ended now) {pending : Bool} {u : Unit} :
    checkAuthSession db now a pending ≠ .ok u := by
  intro hok
  obtain ⟨h1, h2, h3, -⟩ := checkAuthSession_eq_ok.mp hok
  rcases h with h | h | h
  · exact h h1
  · omega
  · omega

lemma AuthSession.Ended.unchanged (ha : s.db.authSessions.get i = some a) (h : a.Ended now) :
    (∀ r, r.authSession = some i → (s.act cfg (.call now (.refresh r))).db = s.db) ∧
    ∀ hash p b, p.authSession = some i →
      (s.act cfg (.call now (.heartbeat hash p b))).db = s.db := by
  constructor
  · intro r hr
    simp only [Server.act, Server.next, Call.exec]
    cases hok : refreshAuth cfg s.db now r with
    | error e => rfl
    | ok d =>
      obtain ⟨j, request, expected, nt, nr, proof, b, rfl, -, hb, hc, -⟩ := refreshAuth_cases hok
      obtain rfl : j = i := Option.some.inj hr
      obtain rfl : a = b := Option.some.inj (ha.symm.trans hb)
      exact absurd hc h.refuses
  intro hash p b hp
  simp only [Server.act, Server.next, Call.exec]
  cases hok : heartbeat cfg s.db now hash p b with
  | error e => rfl
  | ok d =>
    simp only [heartbeat, bind_eq_ok, exists_unit] at hok
    obtain ⟨ha', haut⟩ := checkLogin_eq_ok.mp (txPrincipal_eq_ok.mp hok.1).1 i hp
    obtain ⟨hget, -, -, hc⟩ := authAuthority_eq_ok.mp haut
    obtain rfl : a = ha' := Option.some.inj (ha.symm.trans hget)
    exact absurd hc h.refuses

/-! ### Whole runs -/

/-- The generation of a login session, zero before it exists. -/
def Db.loginGeneration (db : Db) (i : Uuid) : ℕ :=
  ((db.authSessions.get i).map (·.generation)).getD 0

/-- A step in the lifetime of the row of login session `i`. -/
def LoginOutlives (cfg : Config) (i : Uuid) (s : Server) (a : Act) : Prop :=
  Admissible cfg s a ∧ (s.db.authSessions.get i).isSome ∧
    ((s.act cfg a).db.authSessions.get i).isSome

lemma Admissible.not_drawn {a : Act} (h : Admissible cfg s a) {l : AuthSession}
    (hl : l ∈ s.db.authSessions) : l.id ∉ (a.draws cfg).ids := by
  cases a with
  | call now c =>
    intro hi
    have hknown := h.2.2 l.id hi
    simp only [Db.knowsId, Bool.or_eq_false_iff, any_eq_false,
      decide_eq_false_iff_not] at hknown
    exact hknown.1.1.2 l hl rfl
  | _ => exact List.not_mem_nil

lemma loginGeneration_mono (hi : s.Inv cfg)
    (has : Along (Server.act cfg) (LoginOutlives cfg i) s as) :
    (run (Server.act cfg) s as).Inv cfg ∧
      s.db.loginGeneration i ≤ (run (Server.act cfg) s as).db.loginGeneration i := by
  refine along_invariant (I := fun s' : Server => s'.Inv cfg ∧
    s.db.loginGeneration i ≤ s'.db.loginGeneration i) ?_ ⟨hi, le_rfl⟩ has
  rintro s' a ⟨hi', hle⟩ ⟨ha, hsome, hsome'⟩
  refine ⟨hi'.act ha, hle.trans ?_⟩
  obtain ⟨l, hl⟩ := Option.isSome_iff_exists.mp hsome
  obtain ⟨l', hl'⟩ := Option.isSome_iff_exists.mp hsome'
  obtain ⟨hm, hid⟩ := get_eq_some.mp hl
  obtain ⟨hm', hid'⟩ := get_eq_some.mp hl'
  have hdrawn : l'.id ∉ (a.draws cfg).ids := by
    rw [hid', ← hid]
    exact ha.not_drawn hm
  obtain ⟨k, hk, hkid, hgen⟩ := (hi'.moves ha).logins hm' hdrawn
  obtain rfl := eq_of_key_eq hk hm (hkid.trans (hid'.trans hid.symm))
  rw [Db.loginGeneration, Db.loginGeneration, hl, hl']
  exact hgen

lemma Rotates.once (hi : s.Inv cfg) (hnow : s.clock ≤ now) (h : Rotates cfg s i now r d)
    (has : Along (Server.act cfg) (LoginOutlives cfg i) (s.act cfg (.call now (.refresh r))) as)
    {now' : ℕ} {r' : RefreshRequest} {d' : Done}
    (h' : Rotates cfg (run (Server.act cfg) (s.act cfg (.call now (.refresh r))) as) i now' r' d') :
    r'.expectedGeneration ≠ r.expectedGeneration := by
  have hadm : Admissible cfg s (.call now (.refresh r)) :=
    ⟨hnow, fun _ hh => absurd hh List.not_mem_nil, fun _ hh => absurd hh List.not_mem_nil⟩
  obtain ⟨-, hle⟩ := loginGeneration_mono (hi.act hadm) has
  obtain ⟨a, request, hash, next, nextRefresh, ha, rfl, hexp, -, hr⟩ := h.cases
  obtain ⟨b, -, -, -, -, hb, -, hexp', -⟩ := h'.cases
  have hdb : (s.act cfg (.call now (.refresh r))).db = d.db := by
    simp only [Server.act, Server.next, Call.exec, h.2.1]
  have hnext : d.db.loginGeneration a.id = a.generation + 1 := by
    rw [Db.loginGeneration, rotateAuth_authSessions ha hr, if_pos rfl]
    rfl
  rw [hdb, hnext, Db.loginGeneration, hb] at hle
  rw [hexp, hexp', Ne, Option.some.injEq]
  intro heq
  exact absurd hle (by simp [heq])

/-- A device token is renewed by its bearer. -/
def Genuine (cfg : Config) (s : Server) (a : Act) : Prop :=
  Admissible cfg s a ∧ (a.draws cfg).ownBearer = true

lemma genuine_inv (has : Along (Server.act cfg) (Genuine cfg) {} as) :
    (run (Server.act cfg) {} as).Inv cfg ∧ Timed (run (Server.act cfg) {} as).db := by
  refine along_invariant (I := fun s : Server => s.Inv cfg ∧ Timed s.db) ?_
    ⟨⟨Sound.empty, rfl⟩, .empty⟩ has
  rintro s a ⟨hi, ht⟩ ⟨ha, hown⟩
  exact ⟨hi.act ha, (hi.moves ha).timed (hi.sound.tick ha.le) ht hown⟩

def Renews (cfg : Config) (h : Hash) (s : Server) (a : Act) : Prop :=
  h ∈ (a.draws cfg).devices ∧ ∃ now c d, a = .call now c ∧ c.exec cfg s.db now = .ok d

lemma mem_of_not_renews (hi : s.Inv cfg) {a : Act} (ha : Admissible cfg s a)
    (ht : t ∈ (s.act cfg a).db.tokens) (hk : t.kind = .device) (hauth : t.authSession ≠ none)
    (hno : ¬Renews cfg t.hash s a) : t ∈ s.db.tokens := by
  by_cases hd : t.hash ∈ (a.draws cfg).devices
  · cases a with
    | call now c =>
      simp only [Server.act, Server.next] at ht
      cases hok : c.exec cfg s.db now with
      | error e =>
        simp only [hok] at ht
        exact ht
      | ok d => exact absurd ⟨hd, now, c, d, rfl, hok⟩ hno
    | _ => exact absurd hd List.not_mem_nil
  · exact (hi.moves ha).devices ht hk hauth hd

/-- The refresh deadline at the last renewal bounds the token's deadline. -/
def RenewedWithin (cfg : Config) (as : List Act) (t : Token) (i : Uuid) : Prop :=
  ∃ bs a cs, as = bs ++ a :: cs ∧ Renews cfg t.hash (run (Server.act cfg) {} bs) a ∧
    Along (Server.act cfg) (fun s b => ¬Renews cfg t.hash s b)
      (run (Server.act cfg) {} (bs ++ [a])) cs ∧
    ∃ l ∈ (run (Server.act cfg) {} (bs ++ [a])).db.authSessions,
      l.id = i ∧ t.expiresAt ≤ l.refreshExpiry

lemma last_renewal (has : Along (Server.act cfg) (Genuine cfg) {} as)
    (ht : t ∈ (run (Server.act cfg) {} as).db.tokens) (hk : t.kind = .device)
    (hauth : t.authSession = some i) : RenewedWithin cfg as t i := by
  induction as using List.reverseRecOn with
  | nil => exact absurd ht (not_mem_empty t)
  | append_singleton as a ih =>
    obtain ⟨has₁, ha, -⟩ := along_append.mp has
    obtain ⟨hi, -⟩ := genuine_inv has₁
    obtain ⟨hi', htimed⟩ := genuine_inv has
    have hnext : run (Server.act cfg) {} (as ++ [a]) = (run (Server.act cfg) {} as).act cfg a :=
      run_append ..
    by_cases hren : Renews cfg t.hash (run (Server.act cfg) {} as) a
    · obtain ⟨l, hl, hlid, -⟩ := hi'.sound.authority t ht i hauth
      refine ⟨as, a, [], rfl, hren, trivial, l, hl, hlid, ?_⟩
      exact htimed.device t ht hk l hl (hauth.trans (congrArg some hlid.symm))
    have ht' : t ∈ (run (Server.act cfg) {} as).db.tokens := by
      rw [hnext] at ht
      exact mem_of_not_renews hi ha.1 ht hk (by simp [hauth]) hren
    obtain ⟨bs, b, cs, hsplit, hb, hcs, hl⟩ := ih has₁ ht'
    refine ⟨bs, b, cs ++ [a], ?_, hb, along_append.mpr ⟨hcs, ?_, trivial⟩, hl⟩
    · rw [hsplit, List.append_assoc, List.cons_append]
    · rw [← run_append, List.append_assoc, List.singleton_append, ← hsplit]
      exact hren

/-- **The deadlines of login sessions.** They are ordered; a rotation gives the token it
supersedes at most the overlap; a login session has at most two account tokens; any other refresh,
and any call on an ended login session, changes no row; two rotations start from different
generations; and a device token ends no later than the refresh deadline at its last renewal. -/
theorem login_deadlines (cfg : Config) (as : List Act)
    (has : Along (Server.act cfg) (Genuine cfg) {} as) :
    let s := run (Server.act cfg) {} as
    (∀ a ∈ s.db.authSessions, a.tokenExpiry ≤ a.refreshExpiry ∧
      (a.absoluteExpiry ≠ 0 → a.refreshExpiry ≤ a.absoluteExpiry)) ∧
    (∀ i now r d a, Rotates cfg s i now r d → s.db.authSessions.get i = some a →
      ∀ u ∈ d.db.tokens, u.kind = .account → u.hash = a.tokenHash →
        ∃ t ∈ s.db.tokens, t.hash = u.hash ∧ u.expiresAt ≤ t.expiresAt ∧
          u.expiresAt ≤ now + cfg.authAccessOverlap) ∧
    (∀ i, s.db.tokens.count (accountOf i) ≤ 2) ∧
    (∀ now r, (∀ i d, ¬Rotates cfg s i now r d) →
      (s.act cfg (.call now (.refresh r))).db = s.db) ∧
    (∀ i now a, s.db.authSessions.get i = some a → a.Ended now →
      (∀ r, r.authSession = some i → (s.act cfg (.call now (.refresh r))).db = s.db) ∧
      ∀ hash p b, p.authSession = some i →
        (s.act cfg (.call now (.heartbeat hash p b))).db = s.db) ∧
    (∀ i now r d, s.clock ≤ now → Rotates cfg s i now r d →
      ∀ bs, Along (Server.act cfg) (LoginOutlives cfg i) (s.act cfg (.call now (.refresh r))) bs →
        ∀ now' r' d', Rotates cfg (run (Server.act cfg) (s.act cfg (.call now (.refresh r))) bs)
          i now' r' d' → r'.expectedGeneration ≠ r.expectedGeneration) ∧
    ∀ t ∈ s.db.tokens, t.kind = .device → ∀ i, t.authSession = some i →
      RenewedWithin cfg as t i := by
  intro s
  obtain ⟨hi, ht⟩ := genuine_inv has
  refine ⟨fun a ha => ?_, fun i now r d a h ha u hu hk he => h.superseded ht ha hu hk he, ht.two,
    fun now r h => refresh_unchanged h, fun i now a ha h => h.unchanged ha,
    fun i now r d hnow h bs hbs now' r' d' h' => h.once hi hnow hbs h',
    fun t htm hk i hauth => last_renewal has htm hk hauth⟩
  obtain ⟨h1, -, h3⟩ := hi.sound.deadlines a ha
  exact ⟨h1, h3⟩

/-- The device token of a new broker ends with the login session that asked for it. -/
theorem login_deadlines_registered :
    ∃ t, sampleServer.db.tokens.get 13 = some t ∧ t.kind = .device ∧ t.expiresAt = 5001 ∧
      RenewedWithin sampleConfig sampleActs t 2 := by
  refine ⟨⟨13, .device, 1, some 3, none, 1, 5001, some 2⟩, by decide +kernel, rfl, rfl, ?_⟩
  refine (login_deadlines sampleConfig sampleActs ?_).2.2.2.2.2.2 _ ?_ rfl 2 rfl
  · refine ⟨⟨⟨?_, ?_⟩, rfl⟩, ⟨⟨?_, ?_⟩, rfl⟩, ⟨⟨?_, ?_⟩, rfl⟩, trivial⟩ <;> decide +kernel
  · exact mem_of_get (k := 13) (by decide +kernel)

end OhecoBroker.Control
