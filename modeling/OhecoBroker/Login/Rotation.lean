/-
The disk, the network and the server's row of a login family, and what each step of a rotation
does to them.

* `Level`, `Ahead`, `Committed`: the row is where the profile is, or one generation ahead with the
  receipt of the journal's attempt;
* `Disk`: the profile, the journal, the requests and the row agree;
* `Disk.prepare`, `Disk.send`, `Disk.save`, `Disk.dropJournal`: the steps of the client;
* `Disk.rotate`, `Disk.refresh`: **a request that the server grants, for the first time or again,
  brings a receipt, and the row still agrees with the disk**.
-/
import OhecoBroker.Login.Profile

namespace OhecoBroker.Login

open Control Lib

variable {cfg : Config} {sid : Uuid}

/-! ### The profile, the journal and the server's row -/

/-- The server has handled the attempt that follows the profile. -/
def Committed (sid : Uuid) (db : Db) (profile : Credentials) : Prop :=
  ∀ a, db.authSessions.get sid = some a → a.generation = profile.generation + 1

/-- The row is at the profile's generation and takes its refresh secret. -/
structure Level (cfg : Config) (profile : Credentials) (a : AuthSession) : Prop where
  generation : a.generation = profile.generation
  refresh : a.refreshHash = cfg.tokenHash profile.refreshToken
  previous : a.previousRefresh ≠ some a.refreshHash

/-- The row is one generation ahead and keeps the journal's receipt. -/
structure Ahead (cfg : Config) (profile : Credentials) (p : Pending) (a : AuthSession) :
    Prop where
  generation : a.generation = profile.generation + 1
  previous : a.previousRefresh = some (cfg.tokenHash profile.refreshToken)
  receipt : a.Receipt p.request p.expectedGeneration (cfg.tokenHash p.nextToken)
    (cfg.tokenHash p.nextRefreshToken)
  refresh : a.refreshHash = cfg.tokenHash p.nextRefreshToken
  tokenExpiry : 0 < a.receiptTokenExpiry
  refreshExpiry : 0 < a.receiptRefreshExpiry

/-- Candidates and request are new to the server. -/
structure Unused (cfg : Config) (db : Db) (p : Pending) (a : AuthSession) : Prop where
  token : db.uses (cfg.tokenHash p.nextToken) = false
  refresh : db.uses (cfg.tokenHash p.nextRefreshToken) = false
  request : a.request ≠ some p.request

/-- The disk, the network and the server's row agree. -/
structure Disk (cfg : Config) (sid : Uuid) (db : Db) (profile : Credentials)
    (journal : Option Pending) (requests : List RefreshRequest)
    (answers : List (RefreshRequest × Option AuthReceipt)) : Prop where
  valid : credentialsValid sid profile = true
  bound : ∀ a, db.authSessions.get sid = some a → a.generation ≤ maxGeneration
  row : ∀ a, db.authSessions.get sid = some a → Level cfg profile a ∨
    ∃ p, journal = some p ∧ p.expectedGeneration = profile.generation ∧ Ahead cfg profile p a
  past : ∀ p, journal = some p → p.expectedGeneration ≤ profile.generation
  attempt : ∀ p, journal = some p → p.expectedGeneration = profile.generation →
    pendingValid sid p profile = true ∧
    ∀ a, db.authSessions.get sid = some a → a.generation = profile.generation → Unused cfg db p a
  sent : ∀ r ∈ requests, ∃ c p, r = refreshRequest sid c p ∧
    p.expectedGeneration ≤ profile.generation ∧
    (p.expectedGeneration = profile.generation →
      journal = some p ∧ c.refreshToken = profile.refreshToken)
  answered : ∀ r x, (r, x) ∈ answers → r ∈ requests
  receipts : ∀ p r, (refreshRequest sid profile p, some r) ∈ answers →
    p.expectedGeneration = profile.generation →
    Committed sid db profile ∧ r.authSession = sid ∧ r.generation = profile.generation + 1 ∧
    r.generation ≤ maxGeneration ∧ 0 < r.tokenExpiresAt ∧ 0 < r.refreshExpiresAt

section Disk

variable {db : Db} {profile : Credentials} {journal : Option Pending}
  {requests : List RefreshRequest} {answers : List (RefreshRequest × Option AuthReceipt)}

variable {p : Pending} {db' : Db} {r : RefreshRequest}

lemma refreshRequest_inj {c c' : Credentials} {p' : Pending}
    (h : refreshRequest sid c p = refreshRequest sid c' p') :
    p = p' ∧ c.refreshToken = c'.refreshToken := by
  cases p
  cases p'
  simp only [refreshRequest, RefreshRequest.full, RefreshRequest.mk.injEq, Option.some.injEq] at h
  obtain ⟨-, rfl, rfl, rfl, rfl, hc⟩ := h
  exact ⟨rfl, hc⟩

lemma Disk.dropJournal (h : Disk cfg sid db profile journal requests answers)
    (hold : ∀ p, journal = some p → p.expectedGeneration < profile.generation) :
    Disk cfg sid db profile none requests answers where
  __ := h
  row a ha := by
    rcases h.row a ha with hl | ⟨p, hp, he, -⟩
    · exact .inl hl
    · exact absurd he (hold p hp).ne
  past := (by intros; contradiction)
  attempt := (by intros; contradiction)
  sent r hr := by
    obtain ⟨c, p, rfl, hle, hcur⟩ := h.sent r hr
    exact ⟨c, p, rfl, hle, fun he => absurd he (hold p (hcur he).1).ne⟩

lemma Disk.prepare (h : Disk cfg sid db profile none requests answers)
    (he : p.expectedGeneration = profile.generation) (hv : pendingValid sid p profile = true)
    (hu : ∀ a, db.authSessions.get sid = some a → Unused cfg db p a) :
    Disk cfg sid db profile (some p) requests answers where
  __ := h
  row a ha := by
    rcases h.row a ha with hl | ⟨q, hq, -⟩
    · exact .inl hl
    · cases hq
  past q hq := by
    cases hq
    exact he.le
  attempt q hq _ := by
    cases hq
    exact ⟨hv, fun a ha _ => hu a ha⟩
  sent r hr := by
    obtain ⟨c, q, rfl, hle, hcur⟩ := h.sent r hr
    exact ⟨c, q, rfl, hle, fun hq => (by cases (hcur hq).1)⟩

/-- The request of the journal goes out. -/
lemma Disk.send (h : Disk cfg sid db profile journal requests answers)
    (hj : journal = some p) (he : p.expectedGeneration = profile.generation) :
    Disk cfg sid db profile journal (refreshRequest sid profile p :: requests) answers where
  __ := h
  sent r hr := by
    rcases List.mem_cons.mp hr with rfl | hr
    · exact ⟨profile, p, rfl, he.le, fun _ => ⟨hj, rfl⟩⟩
    · exact h.sent r hr
  answered r x hx := List.mem_cons_of_mem _ (h.answered r x hx)

lemma Disk.save (hH : Function.Injective cfg.tokenHash)
    (h : Disk cfg sid db profile journal requests answers)
    (hj : journal = some p) (he : p.expectedGeneration = profile.generation)
    (hc : Committed sid db profile) {after : Credentials} (hv : credentialsValid sid after = true)
    (hg : after.generation = profile.generation + 1)
    (hr : after.refreshToken = p.nextRefreshToken) :
    Disk cfg sid db after journal requests answers where
  valid := hv
  __ := h
  row a ha := by
    rcases h.row a ha with hl | ⟨q, hq, -, hq'⟩
    · have := hl.generation
      have := hc a ha
      omega
    obtain rfl : p = q := Option.some.inj (hj.symm.trans hq)
    refine .inl ⟨hq'.generation.trans hg.symm, hr ▸ hq'.refresh, ?_⟩
    rw [hq'.previous, hq'.refresh]
    intro heq
    obtain ⟨-, -, -, -, -, -, -, hne⟩ := pendingValid_iff.mp (h.attempt p hj he).1
    exact hne (hH (Option.some.inj heq)).symm
  past q hq := by
    have := h.past q hq
    omega
  attempt q hq hq' := by
    have := h.past q hq
    omega
  sent r hr' := by
    obtain ⟨c, q, rfl, hle, -⟩ := h.sent r hr'
    exact ⟨c, q, rfl, by omega, fun hq => by omega⟩
  receipts q r hqr hq := by
    -- whatever was answered was asked before this save, at an earlier generation
    obtain ⟨c, q', hq', hle, -⟩ := h.sent _ (h.answered _ _ hqr)
    obtain ⟨rfl, -⟩ := refreshRequest_inj hq'
    omega

/-- The server may revoke or drop the row, and draws no candidate of the journal. -/
structure Elsewhere (cfg : Config) (sid : Uuid) (db : Db) (journal : Option Pending) (db' : Db) :
    Prop where
  row : ∀ a', db'.authSessions.get sid = some a' →
    ∃ a reason, db.authSessions.get sid = some a ∧ a' = { a with revoked := reason }
  unused : ∀ p, journal = some p → ∀ h ∈ [cfg.tokenHash p.nextToken,
    cfg.tokenHash p.nextRefreshToken], db.uses h = false → db'.uses h = false

lemma Committed.elsewhere (hc : Committed sid db profile)
    (he : Elsewhere cfg sid db journal db') : Committed sid db' profile := by
  intro a' ha'
  obtain ⟨a, reason, ha, rfl⟩ := he.row a' ha'
  exact hc a ha

/-- The server does something else. -/
lemma Disk.elsewhere (h : Disk cfg sid db profile journal requests answers)
    (he : Elsewhere cfg sid db journal db') :
    Disk cfg sid db' profile journal requests answers where
  __ := h
  bound a' ha' := by
    obtain ⟨a, reason, ha, rfl⟩ := he.row a' ha'
    exact h.bound a ha
  row a' ha' := by
    obtain ⟨a, reason, ha, rfl⟩ := he.row a' ha'
    rcases h.row a ha with hl | ⟨p, hp, hp', hq⟩
    · exact .inl ⟨hl.generation, hl.refresh, hl.previous⟩
    · exact .inr ⟨p, hp, hp', hq.generation, hq.previous,
        ⟨hq.receipt.request, hq.receipt.expected, hq.receipt.nextToken, hq.receipt.nextRefresh⟩,
        hq.refresh, hq.tokenExpiry, hq.refreshExpiry⟩
  attempt p hp hp' := by
    obtain ⟨hv, hu⟩ := h.attempt p hp hp'
    refine ⟨hv, fun a' ha' hg => ?_⟩
    obtain ⟨a, reason, ha, rfl⟩ := he.row a' ha'
    have hun := hu a ha hg
    exact ⟨he.unused p hp _ (by simp) hun.token, he.unused p hp _ (by simp) hun.refresh,
      hun.request⟩
  receipts p r hpr hp := by
    obtain ⟨hc, hrest⟩ := h.receipts p r hpr hp
    exact ⟨hc.elsewhere he, hrest⟩

/-! ### The server handles a request -/

/-- The server refuses a request. -/
lemma Disk.answer_none (h : Disk cfg sid db profile journal requests answers) (hr : r ∈ requests) :
    Disk cfg sid db profile journal requests ((r, none) :: answers) where
  __ := h
  answered q x hx := by
    rcases List.mem_cons.mp hx with hx | hx
    · cases hx
      exact hr
    · exact h.answered q x hx
  receipts p x hx := by
    rcases List.mem_cons.mp hx with hx | hx
    · cases hx
    · exact h.receipts p x hx

lemma Disk.answer_some (h : Disk cfg sid db profile journal requests answers)
    (hr : r ∈ requests) {x : AuthReceipt}
    (hx : ∀ p, r = refreshRequest sid profile p → p.expectedGeneration = profile.generation →
      Committed sid db profile ∧ x.authSession = sid ∧ x.generation = profile.generation + 1 ∧
      x.generation ≤ maxGeneration ∧ 0 < x.tokenExpiresAt ∧ 0 < x.refreshExpiresAt) :
    Disk cfg sid db profile journal requests ((r, some x) :: answers) where
  __ := h
  answered q y hy := by
    rcases List.mem_cons.mp hy with hy | hy
    · cases hy
      exact hr
    · exact h.answered q y hy
  receipts p y hy hp := by
    rcases List.mem_cons.mp hy with hy | hy
    · obtain ⟨hr', hxy⟩ := Prod.mk.inj hy
      cases hxy
      exact hx p hr'.symm hp
    · exact h.receipts p y hy hp

lemma Ahead.rotated {now : ℕ} (hnow : 0 < now) {a : AuthSession}
    (ha : a.generation = profile.generation)
    (hp : p.expectedGeneration = profile.generation) :
    Ahead cfg profile p (a.rotated cfg now p.request (cfg.tokenHash profile.refreshToken)
      (cfg.tokenHash p.nextToken) (cfg.tokenHash p.nextRefreshToken)) where
  generation := congrArg (· + 1) ha
  previous := rfl
  receipt := ⟨rfl, ha.trans hp.symm, rfl, rfl⟩
  refresh := rfl
  tokenExpiry := by
    have := cfg.refreshExpiry_pos hnow a.absoluteExpiry
    show 0 < min _ _
    omega
  refreshExpiry := cfg.refreshExpiry_pos hnow a.absoluteExpiry

lemma Disk.rotate (h : Disk cfg sid db profile journal requests answers) {a : AuthSession}
    (hp : journal = some p) (he : p.expectedGeneration = profile.generation)
    (hmax : profile.generation < maxGeneration) (ha : Ahead cfg profile p a)
    (hrow : db'.authSessions.get sid = some a) :
    Disk cfg sid db' profile journal requests answers := by
  have hcom : Committed sid db' profile := by
    intro b hb
    obtain rfl := Option.some.inj (hrow.symm.trans hb)
    exact ha.generation
  exact {
    valid := h.valid
    bound := fun b hb => by
      have := hcom b hb
      omega
    row := fun b hb => by
      obtain rfl := Option.some.inj (hrow.symm.trans hb)
      exact .inr ⟨p, hp, he, ha⟩
    past := h.past
    attempt := fun q hq hq' => ⟨(h.attempt q hq hq').1, fun b hb hg => by
      have := hcom b hb
      omega⟩
    sent := h.sent
    answered := h.answered
    receipts := fun q r hqr hq => ⟨hcom, (h.receipts q r hqr hq).2⟩ }

lemma Disk.refresh {now : ℕ} (hnow : 0 < now)
    (h : Disk cfg sid db profile journal requests answers)
    (hr : r ∈ requests) {d : Done} (hd : refreshAuth cfg db now r = .ok d) :
    ∃ x, d.reply = .receipt x ∧
      Disk cfg sid d.db profile journal requests ((r, some x) :: answers) ∧
      (Committed sid db profile → Committed sid d.db profile) ∧
      ∃ a, d.db.authSessions.get sid = some a := by
  obtain ⟨c, p, rfl, hle, hcur⟩ := h.sent r hr
  obtain ⟨id, request, expected, nt, nr, proof, a, heq, -, ha, -, hcase⟩ := refreshAuth_cases hd
  simp only [refreshRequest, RefreshRequest.full, RefreshRequest.mk.injEq, Option.some.injEq] at heq
  obtain ⟨rfl, rfl, rfl, rfl, rfl, rfl⟩ := heq
  rcases hcase with ⟨hprev, hrec, hgen, rfl⟩ | ⟨-, hproof, hgen, -, hmax, -, -, hrot⟩
  · refine ⟨a.receipt, rfl, h.answer_some hr fun q hq hq' => ?_, id, a, ha⟩
    obtain ⟨rfl, -⟩ := refreshRequest_inj hq
    have hga : a.generation = profile.generation + 1 := by
      have := hrec.expected
      omega
    rcases h.row a ha with hl | ⟨q, hq, -, hah⟩
    · have := hl.generation
      omega
    have hid : a.id = sid := Table.key_of_get ha
    refine ⟨fun b hb => ?_, hid, hga, h.bound a ha, hah.tokenExpiry, hah.refreshExpiry⟩
    obtain rfl := Option.some.inj (ha.symm.trans hb)
    exact hga
  have hlevel : a.generation = profile.generation := by
    rcases h.row a ha with hl | ⟨q, -, -, hah⟩
    · exact hl.generation
    · have := hah.generation
      omega
  have he : p.expectedGeneration = profile.generation := hgen.trans hlevel
  obtain ⟨hj, hc⟩ := hcur he
  have hid : a.id = sid := Table.key_of_get ha
  have hrow : d.db.authSessions.get sid = some (a.rotated cfg now p.request
      (cfg.tokenHash profile.refreshToken) (cfg.tokenHash p.nextToken)
      (cfg.tokenHash p.nextRefreshToken)) := by
    rw [rotateAuth_authSessions (hid ▸ ha) hrot, if_pos hid.symm, hc]
  have hahead : Ahead cfg profile p _ := Ahead.rotated hnow hlevel he
  have hdisk := h.rotate hj he (by omega) hahead hrow
  have hcom : Committed sid d.db profile := by
    intro b hb
    obtain rfl := Option.some.inj (hrow.symm.trans hb)
    exact hahead.generation
  obtain ⟨T, -, rfl⟩ := rotateAuth_ok hrot
  refine ⟨_, rfl, hdisk.answer_some hr fun q hq hq' => ?_, fun _ => hcom, _, hrow⟩
  refine ⟨hcom, hid, congrArg (· + 1) hlevel, ?_, ?_, ?_⟩
  · show a.generation + 1 ≤ maxGeneration
    omega
  · exact hahead.tokenExpiry
  · exact hahead.refreshExpiry

end Disk

end OhecoBroker.Login
