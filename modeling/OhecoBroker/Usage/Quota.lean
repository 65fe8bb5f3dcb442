/-
Relay usage is conserved, and the quota cache says what was recorded.

* `pendingDaily`, `recordedDaily`: the bytes of a tenant, a broker and a day;
* `fits`: no sum of 64 bits overflows in a step;
* `Server.Sound`, `step_sound`: what was recorded is durable or pending, and a known cache is
  exact, from step to step;
* `usage_conserved`: **in every run in which no sum overflows, every recorded byte is durable or
  pending, and the quota is decided by what was recorded**.
-/
import OhecoBroker.Usage.Flush

namespace OhecoBroker.Usage

open Lib List

/-! ### The invariant -/

namespace Server

variable {s : Server}

def pendingDaily (s : Server) (tenant day : Text) : ℤ :=
  shares (ofDay tenant day) s.pendingUsage.rows

def pendingBroker (s : Server) (tenant broker day : Text) : ℤ :=
  shares (ofBroker tenant broker day) s.pendingUsage.rows

def recordedDaily (s : Server) (tenant day : Text) : ℤ :=
  (s.recorded.map fun r => if (tenant, day) = (r.1, r.2.2.1) then r.2.2.2 else 0).sum

def recordedBroker (s : Server) (tenant broker day : Text) : ℤ :=
  (s.recorded.map fun r => if (tenant, broker, day) = (r.1, r.2.1, r.2.2.1) then r.2.2.2 else 0).sum

/-- No sum of 64 bits overflows. -/
def fits (s : Server) : Event → Prop
  | .record tenant broker t n =>
    0 < n → s.pending (usageKey tenant.text broker.text t) + n ≤ maxInt64
  | .flush order left cutoff =>
    (flushTx s.db order cutoff left).isSome → s.db.Room s.pendingUsage.rows
  | _ => True

/-- What was recorded is durable or pending; a known cache is exact. -/
structure Sound (cfg : Config) (base : Db) (s : Server) : Prop where
  cfg_eq : s.cfg = cfg
  rows : ∀ row ∈ s.pendingUsage.rows, WellFormed row
  counted : s.db.Counted
  daily : ∀ tenant day, bytesOf s.db.usageDaily (tenant, day) + s.pendingDaily tenant day =
    bytesOf base.usageDaily (tenant, day) + s.recordedDaily tenant day
  broker : ∀ tenant broker day, broker ≠ [] →
    bytesOf s.db.brokerUsageDaily (tenant, broker, day) + s.pendingBroker tenant broker day =
      bytesOf base.brokerUsageDaily (tenant, broker, day) + s.recordedBroker tenant broker day
  exact : s.cfg.tenantDailyByteQuota ≠ 0 → ∀ cache ∈ s.turnQuotaCache, cache.known →
    ∀ tenant, cache.totals tenant = min maxInt64
      (bytesOf s.db.usageDaily (tenant, cache.day) + s.pendingDaily tenant cache.day)
  fresh : s.cfg.tenantDailyByteQuota ≠ 0 → ∀ cache ∈ s.turnQuotaCache, cache.known →
    s.refreshed = some (cache.loadedAt, true) ∧ cache.loadedAt ≤ s.now

variable {cfg : Config} {base : Db}

lemma pending_nonneg (h : ∀ row ∈ s.pendingUsage.rows, WellFormed row) (key : Text) :
    0 ≤ s.pending key := by
  rw [pending]
  cases hget : s.pendingUsage.get key with
  | none => exact le_rfl
  | some row => exact (h row (Table.mem_of_get hget)).nonneg

lemma shares_assign (p : Text → Text → Text → Bool) (tenant broker : Id) (t : Instant) (n : ℤ) :
    shares p (s.pendingUsage.assign (usageKey tenant.text broker.text t,
      s.pending (usageKey tenant.text broker.text t) + n)).rows =
      shares p s.pendingUsage.rows + share p (usageKey tenant.text broker.text t, n) := by
  have hsum := s.pendingUsage.sum_assign (usageKey tenant.text broker.text t,
    s.pending (usageKey tenant.text broker.text t) + n) (share p)
  have hold : ((s.pendingUsage.get (usageKey tenant.text broker.text t)).map (share p)).getD 0 =
      share p (usageKey tenant.text broker.text t,
        s.pending (usageKey tenant.text broker.text t)) := by
    rw [pending]
    cases hget : s.pendingUsage.get (usageKey tenant.text broker.text t) with
    | none => simp [share_usageKey]
    | some row =>
      exact congrArg (share p) (Prod.ext (Table.key_of_get hget) rfl)
  rw [hold, share_usageKey, share_usageKey] at hsum
  rw [shares, shares, share_usageKey]
  by_cases hp : p tenant.text broker.text (bucketOf t) = true
  · rw [if_pos hp, if_pos hp] at hsum
    rw [if_pos hp]
    omega
  · rw [if_neg hp, if_neg hp, add_zero, zero_add] at hsum
    rw [if_neg hp, add_zero, hsum]

lemma recordTURNQuotaUsageLocked_eq (s : Server) (tenant day : Text) (n : ℤ) :
    ∃ cache, s.recordTURNQuotaUsageLocked tenant day n = { s with turnQuotaCache := cache } := by
  rw [recordTURNQuotaUsageLocked]
  split
  · exact ⟨_, rfl⟩
  split
  · split
    · exact ⟨_, rfl⟩
    · exact ⟨_, rfl⟩
  · exact ⟨_, rfl⟩

lemma recordTURNQuotaUsageLocked_cache {tenant day : Text} {n : ℤ} {cache : TurnQuotaCache}
    (hquota : s.cfg.tenantDailyByteQuota ≠ 0) (hn : 0 < n)
    (h : cache ∈ (s.recordTURNQuotaUsageLocked tenant day n).turnQuotaCache)
    (hknown : cache.known) :
    ∃ old ∈ s.turnQuotaCache, old.known ∧ cache.day = old.day ∧ cache.loadedAt = old.loadedAt ∧
      cache.totals = if old.day = day then
        Function.update old.totals tenant (addTURNQuotaBytes (old.totals tenant) n)
      else old.totals := by
  rw [recordTURNQuotaUsageLocked, if_neg (by omega)] at h
  cases hold : s.turnQuotaCache with
  | none =>
    simp only [hold] at h
    cases h
  | some old =>
    simp only [hold] at h
    by_cases hday : old.known ∧ old.day = day
    · rw [if_pos hday] at h
      cases h
      exact ⟨old, rfl, hknown, rfl, rfl, (if_pos hday.2).symm⟩
    · rw [if_neg hday] at h
      cases hold.symm.trans h
      exact ⟨cache, rfl, hknown, rfl, rfl, (if_neg fun he => hday ⟨hknown, he⟩).symm⟩

def pend (s : Server) (tenant broker : Id) (t : Instant) (n : ℤ) : Server := { s with
  pendingUsage := s.pendingUsage.assign (usageKey tenant.text broker.text t,
    s.pending (usageKey tenant.text broker.text t) + n)
  recorded := s.recorded ++ [(tenant.text, broker.text, (bucketOf t).take 10, n)] }

section Record

variable {tenant broker : Id} {t : Instant} {n : ℤ}

lemma recordRelayUsage_eq (h : ∀ row ∈ s.pendingUsage.rows, WellFormed row) (hn : 0 < n)
    (hle : s.pending (usageKey tenant.text broker.text t) + n ≤ maxInt64) :
    s.recordRelayUsage tenant.text broker.text t n =
      (s.pend tenant broker t n).recordTURNQuotaUsageLocked tenant.text
        ((bucketOf t).take 10) n := by
  have h0 := pending_nonneg h (usageKey tenant.text broker.text t)
  rw [recordRelayUsage, if_neg hn.not_ge]
  simp only [wrap64_of_le (add_nonneg h0 hn.le) hle]
  rfl

lemma pend_wellFormed (h : ∀ row ∈ s.pendingUsage.rows, WellFormed row) (hn : 0 < n)
    (hle : s.pending (usageKey tenant.text broker.text t) + n ≤ maxInt64) :
    ∀ row ∈ (s.pend tenant broker t n).pendingUsage.rows, WellFormed row := by
  intro row hrow
  rcases Table.mem_assign.mp hrow with rfl | ⟨hrow, -⟩
  · exact ⟨⟨tenant, broker, t, rfl⟩, add_nonneg (pending_nonneg h _) hn.le, hle⟩
  · exact h row hrow

lemma pend_recordedDaily (tenant' day : Text) :
    (s.pend tenant broker t n).recordedDaily tenant' day = s.recordedDaily tenant' day +
      share (ofDay tenant' day) (usageKey tenant.text broker.text t, n) := by
  rw [ofDay_ite, recordedDaily, pend, map_append, sum_append, map_singleton,
    sum_singleton, recordedDaily]

lemma pend_recordedBroker (tenant' broker' day : Text) :
    (s.pend tenant broker t n).recordedBroker tenant' broker' day =
      s.recordedBroker tenant' broker' day +
        share (ofBroker tenant' broker' day) (usageKey tenant.text broker.text t, n) := by
  rw [ofBroker_ite, recordedBroker, pend, map_append, sum_append, map_singleton,
    sum_singleton, recordedBroker]

lemma counted_exact {old : TurnQuotaCache} (h : Sound cfg base s) (hn : 0 < n) (tenant' : Text)
    (hexact : ∀ tenant', old.totals tenant' = min maxInt64
      (bytesOf s.db.usageDaily (tenant', old.day) + s.pendingDaily tenant' old.day)) :
    (if old.day = (bucketOf t).take 10 then
        Function.update old.totals tenant.text (addTURNQuotaBytes (old.totals tenant.text) n)
      else old.totals) tenant' = min maxInt64 (bytesOf s.db.usageDaily (tenant', old.day) +
        (s.pend tenant broker t n).pendingDaily tenant' old.day) := by
  have hbytes := (h.counted.daily.bytesOf_bounds (tenant', old.day)).1
  have hshares : 0 ≤ s.pendingDaily tenant' old.day := shares_nonneg h.rows _
  have hmax : (0 : ℤ) ≤ maxInt64 := by decide
  have hpend : (s.pend tenant broker t n).pendingDaily tenant' old.day =
      s.pendingDaily tenant' old.day +
        if (tenant', old.day) = (tenant.text, (bucketOf t).take 10) then n else 0 :=
    (shares_assign _ tenant broker t n).trans (congrArg _ (ofDay_ite _ _ _ _ _ _))
  have hold := hexact tenant'
  rw [hpend, ← add_assoc]
  by_cases hday : old.day = (bucketOf t).take 10
  · rw [if_pos hday]
    by_cases ht : tenant' = tenant.text
    · rw [ht] at hold hbytes hshares ⊢
      rw [Function.update_self, if_pos (by rw [hday]),
        addTURNQuotaBytes_eq (by omega) (by omega) hn.le, hold]
      omega
    · rw [Function.update_of_ne ht, if_neg (by simp [ht]), add_zero, hold]
  · rw [if_neg hday, if_neg (by simp [hday]), add_zero, hold]

lemma record_sound (h : Sound cfg base s) (hfits : s.fits (.record tenant broker t n)) :
    Sound cfg base (s.recordRelayUsage tenant.text broker.text t n) := by
  by_cases hn : n ≤ 0
  · rw [recordRelayUsage, if_pos hn]
    exact h
  have hn : 0 < n := not_le.mp hn
  have hcache := @recordTURNQuotaUsageLocked_cache (s.pend tenant broker t n) tenant.text
    ((bucketOf t).take 10) n
  obtain ⟨cache', he⟩ := recordTURNQuotaUsageLocked_eq (s.pend tenant broker t n) tenant.text
    ((bucketOf t).take 10) n
  rw [recordRelayUsage_eq h.rows hn (hfits hn)]
  rw [he] at hcache ⊢
  refine ⟨h.cfg_eq, pend_wellFormed h.rows hn (hfits hn), h.counted, fun tenant' day => ?_,
    fun tenant' broker' day hb => ?_, fun hquota cache hmem hknown tenant' => ?_,
    fun hquota cache hmem hknown => ?_⟩
  · calc
      bytesOf s.db.usageDaily (tenant', day) + (s.pend tenant broker t n).pendingDaily tenant' day
      _ = bytesOf s.db.usageDaily (tenant', day) + (s.pendingDaily tenant' day +
            share (ofDay tenant' day) (usageKey tenant.text broker.text t, n)) :=
          congrArg _ (shares_assign _ tenant broker t n)
      _ = bytesOf base.usageDaily (tenant', day) +
            (s.pend tenant broker t n).recordedDaily tenant' day := by
          rw [← add_assoc, h.daily, pend_recordedDaily, add_assoc]
  · calc bytesOf s.db.brokerUsageDaily (tenant', broker', day) +
          (s.pend tenant broker t n).pendingBroker tenant' broker' day
      _ = bytesOf s.db.brokerUsageDaily (tenant', broker', day) +
            (s.pendingBroker tenant' broker' day +
              share (ofBroker tenant' broker' day) (usageKey tenant.text broker.text t, n)) :=
          congrArg _ (shares_assign _ tenant broker t n)
      _ = bytesOf base.brokerUsageDaily (tenant', broker', day) +
            (s.pend tenant broker t n).recordedBroker tenant' broker' day := by
          rw [← add_assoc, h.broker _ _ _ hb, pend_recordedBroker, add_assoc]
  · obtain ⟨old, hmem', hknown', hday, -, htotals⟩ := hcache hquota hn hmem hknown
    rw [htotals, hday]
    exact counted_exact h hn tenant' (h.exact hquota old hmem' hknown')
  · obtain ⟨old, hmem', hknown', -, hloaded, -⟩ := hcache hquota hn hmem hknown
    rw [hloaded]
    exact h.fresh hquota old hmem' hknown'

end Record

lemma flush_sound (h : Sound cfg base s) {order : List (Text × ℤ)} {left : ℕ} {cutoff : Instant}
    (horder : order.Perm s.pendingUsage.rows) (hfits : s.fits (.flush order left cutoff)) :
    Sound cfg base (s.flushUsage order left cutoff) := by
  rw [flushUsage]
  split
  · exact h
  cases htx : flushTx s.db order cutoff left with
  | none => exact h
  | some r =>
    obtain ⟨db', left'⟩ := r
    have hroom := hfits (by rw [htx]; rfl)
    have hroom' : s.db.Room order := by
      refine ⟨fun tenant day => ?_, fun tenant broker day hb => ?_⟩
      · exact shares_perm horder _ ▸ hroom.daily tenant day
      · exact shares_perm horder _ ▸ hroom.broker tenant broker day hb
    obtain ⟨hcounted, hgained⟩ := flushTx_spec h.counted
      (fun row hrow => h.rows row (horder.subset hrow)) hroom' htx
    -- what left the map is in the table
    have hmoved : ∀ tenant day, bytesOf db'.usageDaily (tenant, day) +
        shares (ofDay tenant day) [] =
          bytesOf s.db.usageDaily (tenant, day) + s.pendingDaily tenant day := by
      intro tenant day
      rw [hgained.daily, shares_perm horder]
      exact add_zero _
    refine ⟨h.cfg_eq, fun row hrow => absurd hrow not_mem_nil, hcounted,
      fun tenant day => (hmoved tenant day).trans (h.daily tenant day),
      fun tenant broker day hb => ?_, fun hquota cache hmem hknown tenant => ?_, h.fresh⟩
    · refine Eq.trans ?_ (h.broker tenant broker day hb)
      show bytesOf db'.brokerUsageDaily _ + 0 = _
      rw [hgained.broker _ _ _ hb, shares_perm horder, add_zero]
      rfl
    · rw [h.exact hquota cache hmem hknown tenant, ← hmoved]
      rfl

lemma refresh_sound (h : Sound cfg base s) {order : List (Text × ℤ)}
    (horder : order.Perm s.pendingUsage.rows) (t : Instant) (ok : Bool) (took : ℕ) :
    Sound cfg base (s.refreshTURNQuotaUsage t ok order took) := by
  have hfailed : Sound cfg base { s with
      turnQuotaCache := some { s.turnQuotaCache.getD {} with known := false }
      now := s.now + took, refreshed := some (s.now + took, false) } := by
    refine ⟨h.cfg_eq, h.rows, h.counted, h.daily, h.broker, ?_, ?_⟩
    · rintro - cache ⟨⟩ hknown
      cases hknown
    · rintro - cache ⟨⟩ hknown
      cases hknown
  rw [refreshTURNQuotaUsage]
  split
  · exact h
  cases ok with
  | false => exact hfailed
  | true =>
    simp only [if_true]
    split
    · rename_i totals htotals
      obtain ⟨durable, hload, hadd⟩ := Option.bind_eq_some_iff.mp htotals
      have hdurable := loadTotals_eq hload
      have hbounds : ∀ tenant, 0 ≤ durable tenant ∧ durable tenant ≤ maxInt64 := by
        intro tenant
        rw [hdurable]
        exact h.counted.daily.bytesOf_bounds _
      refine ⟨h.cfg_eq, h.rows, h.counted, h.daily, h.broker, ?_, ?_⟩
      · rintro - cache ⟨⟩ - tenant
        show totals tenant = _
        rw [foldlM_addPending (fun row hrow => h.rows row (horder.subset hrow)) hbounds hadd,
          hdurable, shares_perm horder]
        rfl
      · rintro - cache ⟨⟩ -
        exact ⟨rfl, le_rfl⟩
    · exact hfailed

/-- Every section keeps the books. -/
lemma step_sound (h : Sound cfg base s) {e : Event} (hfits : s.fits e) :
    Sound cfg base (s.step e) := by
  cases e with
  | record tenant broker t n => exact record_sound h hfits
  | flush order left cutoff =>
    rw [step]
    split
    · rename_i horder
      exact flush_sound h horder hfits
    · exact h
  | refresh t ok order took =>
    rw [step]
    split
    · rename_i horder
      exact refresh_sound h horder t ok took
    · exact h
  | elapse time =>
    refine ⟨h.cfg_eq, h.rows, h.counted, h.daily, h.broker, h.exact, fun hquota cache hc hk => ?_⟩
    obtain ⟨hlast, hle⟩ := h.fresh hquota cache hc hk
    exact ⟨hlast, hle.trans (Nat.le_add_right _ _)⟩

end Server

/-! ### Every run -/

/-- A server that has recorded nothing. -/
lemma sound_fresh (cfg : Config) {base : Db} (hbase : base.Counted) (now : ℕ) :
    Server.Sound cfg base { cfg, db := base, now } where
  cfg_eq := rfl
  rows _ h := absurd h not_mem_nil
  counted := hbase
  daily _ _ := rfl
  broker _ _ _ _ := rfl
  exact := by
    rintro - cache ⟨⟩ hknown
    cases hknown
  fresh := by
    rintro - cache ⟨⟩ hknown
    cases hknown

/-- **Relay usage is conserved and the quota cache is exact.** While no sum of 64 bits overflows,
what was recorded on a day is in the daily table or pending, a known cache holds the sum of both,
and traffic is authorised only below the quota and less than five seconds after a refresh. -/
theorem usage_conserved (cfg : Config) (base : Db) (hbase : base.Counted) (now : ℕ)
    (es : List Event) (hes : Along Server.step Server.fits { cfg, db := base, now } es) :
    let s := run Server.step { cfg, db := base, now } es
    (∀ tenant day, bytesOf s.db.usageDaily (tenant, day) + s.pendingDaily tenant day =
      bytesOf base.usageDaily (tenant, day) + s.recordedDaily tenant day) ∧
    (∀ tenant broker day, broker ≠ [] →
      bytesOf s.db.brokerUsageDaily (tenant, broker, day) + s.pendingBroker tenant broker day =
        bytesOf base.brokerUsageDaily (tenant, broker, day) +
          s.recordedBroker tenant broker day) ∧
    (cfg.tenantDailyByteQuota ≠ 0 →
      (∀ cache ∈ s.turnQuotaCache, cache.known → ∀ tenant, cache.totals tenant = min maxInt64
        (bytesOf s.db.usageDaily (tenant, cache.day) + s.pendingDaily tenant cache.day)) ∧
      ∀ t tenant, s.authorizeTURNQuota t tenant = true →
        bytesOf s.db.usageDaily (tenant, dayOf t) + s.pendingDaily tenant (dayOf t) <
          cfg.tenantDailyByteQuota ∧
        ∃ loaded, s.refreshed = some (loaded, true) ∧ loaded ≤ s.now ∧
          s.now - loaded < turnQuotaSnapshotMaxAge) := by
  intro s
  have hs : Server.Sound cfg base s :=
    along_invariant (I := Server.Sound cfg base) (fun _ _ h he => Server.step_sound h he)
      (sound_fresh cfg hbase now) hes
  refine ⟨hs.daily, hs.broker, fun hquota => ?_⟩
  rw [← hs.cfg_eq] at hquota ⊢
  refine ⟨hs.exact hquota, fun t tenant hauth => ?_⟩
  rw [Server.authorizeTURNQuota, Bool.or_eq_true, decide_eq_true_eq, or_iff_right hquota,
    Option.any_eq_true] at hauth
  obtain ⟨cache, hcache, hauth⟩ := hauth
  simp only [Bool.and_eq_true, decide_eq_true_eq] at hauth
  obtain ⟨⟨⟨⟨hknown, hday⟩, -⟩, hage⟩, hbelow⟩ := hauth
  have hexact := hs.exact hquota cache hcache hknown tenant
  have hlimit := s.cfg.int64
  rw [hday] at hexact
  obtain ⟨hlast, hle⟩ := hs.fresh hquota cache hcache hknown
  refine ⟨?_, cache.loadedAt, hlast, hle, hage⟩
  rw [hexact] at hbelow
  omega

/-- 600 bytes are recorded; a flush fails at its third call and the next one commits. -/
theorem usage_conserved_flushed :
    let cfg : Config := ⟨1000, by decide⟩
    let tenant : Id := ⟨['a'], by decide⟩
    let broker : Id := ⟨['b'], by decide⟩
    let t : Instant := ⟨2026, 1, 2, 3, 4, 5⟩
    let rows := [(usageKey tenant.text broker.text t, (600 : ℤ))]
    let es : List Event := [.record tenant broker t 600, .refresh t true rows 7,
      .flush rows 2 t, .flush rows 20 t, .elapse 1000]
    let s := run Server.step { cfg } es
    (bytesOf s.db.usageDaily (['a'], dayOf t) = 600 ∧ s.authorizeTURNQuota t ['a'] = true) ∧
      bytesOf s.db.usageDaily (['a'], dayOf t) + s.pendingDaily ['a'] (dayOf t) =
        bytesOf ({} : Db).usageDaily (['a'], dayOf t) + s.recordedDaily ['a'] (dayOf t) := by
  refine ⟨by decide +kernel, ?_⟩
  refine (usage_conserved ⟨1000, by decide⟩ {} ⟨fun _ h => absurd h not_mem_nil,
    fun _ h => absurd h not_mem_nil⟩ 0 _ ?_).1 _ _
  refine ⟨fun _ => by decide +kernel, trivial, fun h => absurd h (by decide +kernel), fun _ => ?_,
    trivial, trivial⟩
  refine ⟨fun tenant day => ?_, fun tenant broker day _ => ?_⟩
  · show 0 + shares _ [(usageKey _ _ _, 600)] ≤ _
    rw [shares_singleton, ofDay_ite]
    split <;> decide
  · show 0 + shares _ [(usageKey _ _ _, 600)] ≤ _
    rw [shares_singleton, ofBroker_ite]
    split <;> decide

end OhecoBroker.Usage
