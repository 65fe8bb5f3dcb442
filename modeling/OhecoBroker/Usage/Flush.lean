/-
What a flush moves and what a refresh reads.

* `Counts`, `upsert_spec`: a usage table, and one statement on it;
* `shares`, `ofDay`, `ofBroker`: what a pending key counts for a tenant, a broker and a day;
* `Db.Gained`, `flushTx_spec`: **a flush that commits moves every pending byte to the daily
  tables, once**;
* `loadTotals_eq`: a refresh counts durable and pending bytes.
-/
import OhecoBroker.Usage.Ledger

namespace OhecoBroker.Usage

open Lib List Option

/-! ### Transactions -/

lemma Tx.bind_eq_some {α β : Type} {x : Tx α} {f : α → Tx β} {left : ℕ} {r : β × ℕ}
    (h : (x >>= f) left = some r) : ∃ a left', x left = some (a, left') ∧ f a left' = some r := by
  obtain ⟨⟨a, left'⟩, hx, hf⟩ := bind_eq_some_iff.mp h
  exact ⟨a, left', hx, hf⟩

lemma Tx.call_bind_eq_some {β : Type} {x : Tx β} {left : ℕ} {r : β × ℕ}
    (h : (call >>= fun _ => x) left = some r) : ∃ left', x left' = some r := by
  obtain ⟨-, left', -, hx⟩ := Tx.bind_eq_some h
  exact ⟨left', hx⟩

lemma Tx.pure_eq_some {α : Type} {a b : α} {left left' : ℕ}
    (h : (pure a : Tx α) left = some (b, left')) : b = a := by
  cases h
  rfl

section Amounts

variable {κ : Type} [DecidableEq κ] {t t' : Rows κ} {k : κ} {n : ℤ} {left left' : ℕ}

def bytesOf (t : Rows κ) (k : κ) : ℤ := ((t.get k).bind (·.2.scan)).getD 0

omit [DecidableEq κ] in
/-- Every row holds a count of bytes. -/
def Counts (t : Rows κ) : Prop :=
  ∀ r ∈ t, ∃ b, r.2 = .integer b ∧ 0 ≤ b ∧ b ≤ maxInt64

lemma bytesOf_of_get {r : κ × Value} {b : ℤ} (h : t.get k = some r) (hb : r.2 = .integer b) :
    bytesOf t k = b := by
  rw [bytesOf, h, bind_some, hb, Value.scan, getD_some]

lemma bytesOf_of_none (h : t.get k = none) : bytesOf t k = 0 := by
  rw [bytesOf, h, bind_none, getD_none]

lemma Counts.bytesOf_bounds (ht : Counts t) (k : κ) : 0 ≤ bytesOf t k ∧ bytesOf t k ≤ maxInt64 := by
  cases h : t.get k with
  | none =>
    rw [bytesOf_of_none h]
    exact ⟨le_rfl, by decide⟩
  | some r =>
    obtain ⟨b, hb, hbounds⟩ := ht r (Table.mem_of_get h)
    exact bytesOf_of_get h hb ▸ hbounds

/-- An addition that fits stays an integer. -/
lemma Value.add_integer {b : ℤ} (hb : 0 ≤ b) (hn : 0 ≤ n) (hroom : b + n ≤ maxInt64) :
    (Value.integer b).add n = .integer (b + n) := by
  have hlt : b + n ≤ 2 ^ 63 - 1 := hroom
  exact if_pos ⟨by omega, by omega⟩

/-- One statement adds its bytes to one key. -/
lemma upsert_spec (ht : Counts t) (hn : 0 ≤ n) (hroom : bytesOf t k + n ≤ maxInt64)
    (h : upsert t k n left = some (t', left')) :
    Counts t' ∧ ∀ k', bytesOf t' k' = bytesOf t k' + if k' = k then n else 0 := by
  obtain ⟨left₁, h⟩ := Tx.call_bind_eq_some h
  obtain ⟨left₂, h⟩ := Tx.call_bind_eq_some h
  by_cases hany : t.any (fun r => r.1 = k) = true
  · rw [if_pos hany] at h
    rw [Tx.pure_eq_some h]
    obtain ⟨r, hr, hrk⟩ := Table.any_eq_true.mp hany
    have hrk : r.1 = k := of_decide_eq_true hrk
    obtain ⟨b, hb, hb0, -⟩ := ht r hr
    have hget : t.get k = some r := hrk ▸ Table.get_of_mem hr
    rw [bytesOf_of_get hget hb] at hroom
    have hsum := Value.add_integer hb0 hn hroom
    constructor
    · intro q hq
      obtain ⟨p, hp, rfl⟩ := Table.mem_update.mp hq
      by_cases hpk : p.1 = k
      · have hpr : p = r := Table.eq_of_key_eq hp hr (hpk.trans hrk.symm)
        rw [if_pos (decide_eq_true hpk)]
        exact ⟨b + n, by simp only [hpr, hb, hsum], by omega, hroom⟩
      · rw [if_neg (by simpa using hpk)]
        exact ht p hp
    intro k'
    have hnew := t.get_update (fun r => r.1 = k) (fun r => (r.1, r.2.add n)) (fun _ => rfl) k'
    by_cases hk : k' = k
    · subst hk
      rw [hget, map_some, if_pos (decide_eq_true hrk)] at hnew
      rw [if_pos rfl, bytesOf_of_get hget hb]
      exact bytesOf_of_get hnew (by simp only [hb, hsum])
    rw [if_neg hk, add_zero, bytesOf, hnew, bytesOf]
    cases hget' : t.get k' with
    | none => rfl
    | some q =>
      have hq : q.1 ≠ k := fun he => hk ((Table.key_of_get hget').symm.trans he)
      rw [map_some, if_neg (by simpa using hq)]
  · rw [if_neg hany] at h
    obtain ⟨left₃, h⟩ := Tx.call_bind_eq_some h
    obtain ⟨t'', hins, he⟩ := bind_eq_some_iff.mp h
    obtain rfl : t'' = t' := congrArg Prod.fst (Option.some.inj he)
    have hfree : t.get k = none := (Table.insert_eq_some hins).1
    rw [bytesOf_of_none hfree, zero_add] at hroom
    constructor
    · intro q hq
      rcases (Table.mem_insert hins).mp hq with rfl | hq
      · exact ⟨n, rfl, hn, hroom⟩
      · exact ht q hq
    intro k'
    have hnew := Table.get_insert hins k'
    by_cases hk : k' = k
    · subst hk
      rw [if_pos rfl] at hnew ⊢
      rw [bytesOf_of_none hfree, zero_add]
      exact bytesOf_of_get hnew rfl
    · rw [if_neg (Ne.symm hk)] at hnew
      rw [if_neg hk, add_zero, bytesOf, hnew, bytesOf]

end Amounts

/-! ### The part of a pending key -/

/-- The bytes of a pending key that satisfies `p`. -/
def share (p : Text → Text → Text → Bool) (row : Text × ℤ) : ℤ :=
  match splitN '|' 3 row.1 with
  | [tenant, broker, bucket] => if p tenant broker bucket then row.2 else 0
  | _ => 0

/-- The keys of a tenant and a day. -/
def ofDay (tenant day : Text) : Text → Text → Text → Bool :=
  fun tenant' _ bucket => tenant = tenant' && day = bucket.take 10

/-- The keys of a tenant, a broker and a day. -/
def ofBroker (tenant broker day : Text) : Text → Text → Text → Bool :=
  fun tenant' broker' bucket => tenant = tenant' && broker = broker' && day = bucket.take 10

/-- Made by `recordRelayUsage` without overflow. -/
structure WellFormed (row : Text × ℤ) : Prop where
  key : ∃ (tenant broker : Id) (t : Instant), row.1 = usageKey tenant.text broker.text t
  nonneg : 0 ≤ row.2
  le : row.2 ≤ maxInt64

/-- The share of a key that the server made. -/
lemma share_usageKey (p : Text → Text → Text → Bool) (tenant broker : Id) (t : Instant) (n : ℤ) :
    share p (usageKey tenant.text broker.text t, n) =
      if p tenant.text broker.text (bucketOf t) then n else 0 := by
  simp only [share, splitN_usageKey]

lemma WellFormed.share_nonneg {row : Text × ℤ} (h : WellFormed row)
    (p : Text → Text → Text → Bool) : 0 ≤ share p row := by
  obtain ⟨tenant, broker, t, hkey⟩ := h.key
  have hrow : row = (usageKey tenant.text broker.text t, row.2) := Prod.ext hkey rfl
  rw [hrow, share_usageKey]
  by_cases hp : p tenant.text broker.text (bucketOf t) = true
  · rw [if_pos hp]
    exact h.nonneg
  · rw [if_neg hp]

/-- The bytes of the pending keys that satisfy `p`. -/
def shares (p : Text → Text → Text → Bool) (rows : List (Text × ℤ)) : ℤ :=
  (rows.map (share p)).sum

lemma shares_cons (p : Text → Text → Text → Bool) (row : Text × ℤ) (rows : List (Text × ℤ)) :
    shares p (row :: rows) = share p row + shares p rows := by
  rw [shares, map_cons, sum_cons, shares]

lemma shares_nonneg {rows : List (Text × ℤ)} (h : ∀ row ∈ rows, WellFormed row)
    (p : Text → Text → Text → Bool) : 0 ≤ shares p rows := by
  refine sum_nonneg fun x hx => ?_
  obtain ⟨row, hrow, rfl⟩ := mem_map.mp hx
  exact (h row hrow).share_nonneg p

/-- The order of the walk does not matter. -/
lemma shares_perm {rows rows' : List (Text × ℤ)} (h : rows.Perm rows')
    (p : Text → Text → Text → Bool) : shares p rows = shares p rows' :=
  (h.map (share p)).sum_eq

/-! ### A flush -/

/-- The rows of both daily tables hold counts. -/
structure Db.Counted (db : Db) : Prop where
  daily : Counts db.usageDaily
  broker : Counts db.brokerUsageDaily

/-- The bytes of `rows` still fit in the daily tables. -/
structure Db.Room (db : Db) (rows : List (Text × ℤ)) : Prop where
  daily : ∀ tenant day,
    bytesOf db.usageDaily (tenant, day) + shares (ofDay tenant day) rows ≤ maxInt64
  broker : ∀ tenant broker day, broker ≠ [] →
    bytesOf db.brokerUsageDaily (tenant, broker, day) +
      shares (ofBroker tenant broker day) rows ≤ maxInt64

/-- `db'` holds the bytes of `db` and those of `rows`. -/
structure Db.Gained (db db' : Db) (rows : List (Text × ℤ)) : Prop where
  daily : ∀ tenant day, bytesOf db'.usageDaily (tenant, day) =
    bytesOf db.usageDaily (tenant, day) + shares (ofDay tenant day) rows
  broker : ∀ tenant broker day, broker ≠ [] → bytesOf db'.brokerUsageDaily (tenant, broker, day) =
    bytesOf db.brokerUsageDaily (tenant, broker, day) + shares (ofBroker tenant broker day) rows

lemma shares_singleton (p : Text → Text → Text → Bool) (row : Text × ℤ) :
    shares p [row] = share p row := by
  rw [shares, map_singleton, sum_singleton]

lemma ofDay_ite (tenant day : Text) (tenant' broker' : Id) (t : Instant) (n : ℤ) :
    share (ofDay tenant day) (usageKey tenant'.text broker'.text t, n) =
      if (tenant, day) = (tenant'.text, (bucketOf t).take 10) then n else 0 := by
  rw [share_usageKey]
  simp only [ofDay, Prod.mk.injEq, Bool.and_eq_true, decide_eq_true_eq]

lemma ofBroker_ite (tenant broker day : Text) (tenant' broker' : Id) (t : Instant) (n : ℤ) :
    share (ofBroker tenant broker day) (usageKey tenant'.text broker'.text t, n) =
      if (tenant, broker, day) = (tenant'.text, broker'.text, (bucketOf t).take 10) then n
      else 0 := by
  rw [share_usageKey]
  simp only [ofBroker, Prod.mk.injEq, Bool.and_eq_true, decide_eq_true_eq, and_assoc]

variable {db db' : Db} {row : Text × ℤ} {rows : List (Text × ℤ)} {left left' : ℕ}

lemma flushKey_spec (hdb : db.Counted) (hrow : WellFormed row) (hroom : db.Room [row])
    (h : flushKey db row left = some (db', left')) : db'.Counted ∧ db.Gained db' [row] := by
  obtain ⟨tenant, broker, t, hkey⟩ := hrow.key
  have hn := hrow.nonneg
  obtain ⟨key, n⟩ := row
  subst hkey
  have hdaily : bytesOf db.usageDaily (tenant.text, (bucketOf t).take 10) + n ≤ maxInt64 := by
    simpa only [shares_singleton, ofDay_ite, if_true] using
      hroom.daily tenant.text ((bucketOf t).take 10)
  simp only [flushKey, splitN_usageKey] at h
  obtain ⟨usageDaily, left₁, h₁, h⟩ := Tx.bind_eq_some h
  obtain ⟨usageBuckets, left₂, -, h⟩ := Tx.bind_eq_some h
  obtain ⟨hcounts, hbytes⟩ := upsert_spec hdb.daily hn hdaily h₁
  have hgained : ∀ tenant' day, bytesOf usageDaily (tenant', day) =
      bytesOf db.usageDaily (tenant', day) +
        shares (ofDay tenant' day) [(usageKey tenant.text broker.text t, n)] := by
    intro tenant' day
    rw [hbytes, shares_singleton, ofDay_ite]
  by_cases hbroker : broker.text ≠ []
  · rw [if_pos hbroker] at h
    have hroom' : bytesOf db.brokerUsageDaily
        (tenant.text, broker.text, (bucketOf t).take 10) + n ≤ maxInt64 := by
      simpa only [shares_singleton, ofBroker_ite, if_true] using
        hroom.broker tenant.text broker.text ((bucketOf t).take 10) hbroker
    obtain ⟨brokerUsageDaily, left₃, h₃, h⟩ := Tx.bind_eq_some h
    obtain ⟨brokerUsageBuckets, left₄, -, h⟩ := Tx.bind_eq_some h
    obtain ⟨hcounts', hbytes'⟩ := upsert_spec hdb.broker hn hroom' h₃
    rw [Tx.pure_eq_some h]
    refine ⟨⟨hcounts, hcounts'⟩, hgained, fun tenant' broker' day _ => ?_⟩
    rw [shares_singleton, ofBroker_ite]
    exact hbytes' _
  rw [if_neg hbroker] at h
  rw [Tx.pure_eq_some h]
  refine ⟨⟨hcounts, hdb.broker⟩, hgained, fun tenant' broker' day hbroker' => ?_⟩
  have hne : broker' ≠ broker.text := fun he => hbroker (he ▸ hbroker')
  rw [shares_singleton, ofBroker_ite, if_neg (by simp [hne]), add_zero]

lemma flushKeys_spec (hdb : db.Counted) (hrows : ∀ row ∈ rows, WellFormed row)
    (hroom : db.Room rows) (h : rows.foldlM flushKey db left = some (db', left')) :
    db'.Counted ∧ db.Gained db' rows := by
  induction rows generalizing db left with
  | nil =>
    rw [Tx.pure_eq_some h]
    exact ⟨hdb, fun _ _ => (add_zero _).symm, fun _ _ _ _ => (add_zero _).symm⟩
  | cons row rows ih =>
    obtain ⟨hrow, hrest⟩ := forall_mem_cons.mp hrows
    rw [foldlM_cons] at h
    obtain ⟨db₁, left₁, h₁, h⟩ := Tx.bind_eq_some h
    have hfirst : db.Room [row] := by
      constructor
      · intro tenant day
        have hall := hroom.daily tenant day
        have h0 := shares_nonneg hrest (ofDay tenant day)
        rw [shares_cons] at hall
        rw [shares_singleton]
        omega
      intro tenant broker day hbroker
      have hall := hroom.broker tenant broker day hbroker
      have h0 := shares_nonneg hrest (ofBroker tenant broker day)
      rw [shares_cons] at hall
      rw [shares_singleton]
      omega
    obtain ⟨hdb₁, hgained₁⟩ := flushKey_spec hdb hrow hfirst h₁
    have hdaily : ∀ tenant day (x : ℤ), bytesOf db₁.usageDaily (tenant, day) + x =
        bytesOf db.usageDaily (tenant, day) + (share (ofDay tenant day) row + x) := by
      intro tenant day x
      rw [hgained₁.daily, shares_singleton, add_assoc]
    have hbrokers : ∀ tenant broker day (x : ℤ), broker ≠ [] →
        bytesOf db₁.brokerUsageDaily (tenant, broker, day) + x =
          bytesOf db.brokerUsageDaily (tenant, broker, day) +
            (share (ofBroker tenant broker day) row + x) := by
      intro tenant broker day x hbroker
      rw [hgained₁.broker _ _ _ hbroker, shares_singleton, add_assoc]
    obtain ⟨hdb', hgained'⟩ := ih hdb₁ hrest
      ⟨fun tenant day => by
        rw [hdaily, ← shares_cons]
        exact hroom.daily tenant day,
      fun tenant broker day hbroker => by
        rw [hbrokers _ _ _ _ hbroker, ← shares_cons]
        exact hroom.broker tenant broker day hbroker⟩ h
    refine ⟨hdb', fun tenant day => ?_, fun tenant broker day hbroker => ?_⟩
    · rw [hgained'.daily, hdaily, shares_cons]
    · rw [hgained'.broker _ _ _ hbroker, hbrokers _ _ _ _ hbroker, shares_cons]

lemma flushTx_spec {cutoff : Instant} (hdb : db.Counted) (hrows : ∀ row ∈ rows, WellFormed row)
    (hroom : db.Room rows) (h : flushTx db rows cutoff left = some (db', left')) :
    db'.Counted ∧ db.Gained db' rows := by
  obtain ⟨left₁, h⟩ := Tx.call_bind_eq_some h
  obtain ⟨db₁, left₂, h₁, h⟩ := Tx.bind_eq_some h
  obtain ⟨left₃, h⟩ := Tx.call_bind_eq_some h
  obtain ⟨left₄, h⟩ := Tx.call_bind_eq_some h
  obtain ⟨left₅, h⟩ := Tx.call_bind_eq_some h
  rw [Tx.pure_eq_some h]
  -- the last statements delete minutes only
  obtain ⟨hdb₁, hgained⟩ := flushKeys_spec hdb hrows hroom h₁
  exact ⟨⟨hdb₁.daily, hdb₁.broker⟩, hgained.daily, hgained.broker⟩

/-! ### A refresh -/

variable {day : Text} {totals : Text → ℤ}

lemma foldlM_scan {rows : List ((Text × Text) × Value)} {totals' : Text → ℤ}
    (hnodup : (rows.map Prod.fst).Nodup) (hday : ∀ r ∈ rows, r.1.2 = day)
    (h : rows.foldlM (fun totals r => r.2.scan.map (Function.update totals r.1.1)) totals =
      some totals') (tenant : Text) :
    totals' tenant = ((rows.find? (·.1 = (tenant, day))).bind (·.2.scan)).getD (totals tenant) := by
  induction rows generalizing totals with
  | nil =>
    cases h
    rfl
  | cons r rows ih =>
    rw [foldlM_cons] at h
    obtain ⟨totals₁, h₁, h⟩ := bind_eq_some_iff.mp h
    obtain ⟨b, hb, rfl⟩ := map_eq_some_iff.mp h₁
    obtain ⟨hr, hrest⟩ := forall_mem_cons.mp hday
    rw [map_cons, nodup_cons] at hnodup
    rw [ih hnodup.2 hrest h]
    by_cases hkey : r.1 = (tenant, day)
    · have hnone : rows.find? (·.1 = (tenant, day)) = none := by
        refine List.find?_eq_none.mpr fun q hq hqk => hnodup.1 ?_
        exact mem_map.mpr ⟨q, hq, (of_decide_eq_true hqk).trans hkey.symm⟩
      rw [hnone, List.find?_cons_of_pos (by simpa using hkey), bind_some, hb,
        getD_some, bind_none, getD_none, hkey, Function.update_self]
    · have hne : tenant ≠ r.1.1 := fun he => hkey (Prod.ext he.symm hr)
      rw [List.find?_cons_of_neg (by simpa using hkey), Function.update_of_ne hne]

/-- A refresh reads what the daily table holds. -/
lemma loadTotals_eq {t : Rows (Text × Text)}
    (h : loadTotals day t.rows = some totals) (tenant : Text) :
    totals tenant = bytesOf t (tenant, day) := by
  have hnodup : ((t.rows.filter fun r => r.1.2 = day).map Prod.fst).Nodup :=
    t.nodup.sublist (filter_sublist.map Prod.fst)
  have hday : ∀ r ∈ t.rows.filter (fun r => r.1.2 = day), r.1.2 = day := fun r hr =>
    of_decide_eq_true (mem_filter.mp hr).2
  rw [foldlM_scan hnodup hday h tenant, bytesOf, Table.get, List.find?_filter]
  congr 3
  funext r
  by_cases hkey : r.1 = (tenant, day) <;> simp [hkey]

lemma foldlM_addPending {totals' : Text → ℤ} (hrows : ∀ row ∈ rows, WellFormed row)
    (htotals : ∀ tenant, 0 ≤ totals tenant ∧ totals tenant ≤ maxInt64)
    (h : rows.foldlM (addPending day) totals = some totals') (tenant : Text) :
    totals' tenant = min maxInt64 (totals tenant + shares (ofDay tenant day) rows) := by
  induction rows generalizing totals with
  | nil =>
    cases h
    rw [shares, map_nil, sum_nil, add_zero, min_eq_right (htotals tenant).2]
  | cons row rows ih =>
    obtain ⟨hrow, hrest⟩ := forall_mem_cons.mp hrows
    rw [foldlM_cons] at h
    obtain ⟨totals₁, h₁, h⟩ := bind_eq_some_iff.mp h
    have hnext : ∀ tenant, totals₁ tenant =
        min maxInt64 (totals tenant + share (ofDay tenant day) row) := by
      intro tenant
      obtain ⟨tenant', broker', t, hkey⟩ := hrow.key
      have hn := hrow.nonneg
      obtain ⟨key, n⟩ := row
      subst hkey
      simp only [addPending, splitN_usageKey, ite_none_left_eq_some] at h₁
      obtain ⟨-, h₁⟩ := h₁
      rw [ofDay_ite]
      by_cases hday : (bucketOf t).take 10 = day
      · rw [if_pos hday] at h₁
        cases h₁
        by_cases htenant : tenant = tenant'.text
        · rw [htenant, Function.update_self, if_pos (by rw [hday])]
          exact addTURNQuotaBytes_eq (htotals _).1 (htotals _).2 hn
        · rw [Function.update_of_ne htenant, if_neg (by simp [htenant]), add_zero,
            min_eq_right (htotals tenant).2]
      · rw [if_neg hday] at h₁
        cases h₁
        rw [if_neg (by simp [Ne.symm hday]), add_zero, min_eq_right (htotals tenant).2]
    have hbounds : ∀ tenant, 0 ≤ totals₁ tenant ∧ totals₁ tenant ≤ maxInt64 := by
      intro tenant
      have h0 := hrow.share_nonneg (ofDay tenant day)
      have hmax : (0 : ℤ) ≤ maxInt64 := by decide
      rw [hnext]
      exact ⟨le_min hmax (add_nonneg (htotals tenant).1 h0), min_le_left _ _⟩
    have hrest0 := shares_nonneg hrest (ofDay tenant day)
    rw [ih hrest hbounds h, hnext, shares_cons]
    omega

end OhecoBroker.Usage
