/-
The byte rates of the TURN manager, second by second.  A tenant whose record was removed and made
again has an empty meter, whatever it was granted before; its rate therefore needs a condition on
the mints that make a record.

* `Rates`, `Rates.Kept`: the meters say what was granted in the current second;
* `makesRecord`, `afresh`: a mint that makes a record makes it in a second in which its tenant was
  granted nothing;
* `step_kept`: every section keeps the meters right;
* `rate_doubled`: a tenant that ends and mints again within one second gets its rate twice;
* `rates_of_afresh`: **the rate of the manager holds in every second of every run, and the rate of
  a tenant in every run in which its records are made afresh**.
-/
import OhecoBroker.Lib.Meter
import OhecoBroker.Turn.Manager

namespace OhecoBroker.Turn

open Lib

/-! ### Meters -/

def grants (log : List (ℕ × String × ℕ)) : List (ℕ × ℕ) := log.map fun g => (g.1, g.2.2)

def grantsTo (log : List (ℕ × String × ℕ)) (id : String) : List (ℕ × ℕ) :=
  grants (log.filter fun g => g.2.1 = id)

lemma grants_append (log log' : List (ℕ × String × ℕ)) :
    grants (log ++ log') = grants log ++ grants log' := List.map_append

lemma grantsTo_self (log : List (ℕ × String × ℕ)) (w : ℕ) (id : String) (n : ℕ) :
    grantsTo (log ++ [(w, id, n)]) id = grantsTo log id ++ [(w, n)] := by
  simp [grantsTo, grants]

lemma grantsTo_of_ne {log : List (ℕ × String × ℕ)} {w n : ℕ} {id key : String} (h : id ≠ key) :
    grantsTo (log ++ [(w, id, n)]) key = grantsTo log key := by
  simp [grantsTo, grants, h]

lemma grantsTo_past {log : List (ℕ × String × ℕ)} {w : ℕ} (h : ∀ g ∈ log, g.1 ≤ w) (id : String) :
    ∀ g ∈ grantsTo log id, g.1 ≤ w := by
  intro g hg
  obtain ⟨x, hx, rfl⟩ := List.mem_map.mp hg
  exact h x (List.mem_filter.mp hx).1

/-- The meters of the manager. -/
structure Rates where
  cfg : TURNConfig
  second : ℕ
  meters : String → Option Meter
  meter : Meter
  log : List (ℕ × String × ℕ)

def TurnTenant.meter (t : TurnTenant) : Meter := ⟨t.window, t.bytes⟩

def TurnManager.rates (m : TurnManager) : Rates :=
  ⟨m.cfg, m.unix, fun id => (m.tenants id).map TurnTenant.meter, ⟨m.window, m.bytes⟩, m.reserved⟩

namespace Rates

/-- The meters say what was granted in the current second, within the limits. -/
structure Kept (cfg : TURNConfig) (ok : Prop) (l : Rates) : Prop where
  same : l.cfg = cfg
  past : ∀ g ∈ l.log, g.1 ≤ l.second
  all : 0 < cfg.maxBytesPerSecond → l.meter.Tracks (grants l.log) l.second
  allLimit : 0 < cfg.maxBytesPerSecond → ∀ w, total (grants l.log) w ≤ cfg.maxBytesPerSecond
  each : ok → 0 < cfg.maxBytesPerSecondPerTenant →
    ∀ id, ∀ x ∈ l.meters id, x.Tracks (grantsTo l.log id) l.second
  eachLimit : ok → 0 < cfg.maxBytesPerSecondPerTenant →
    ∀ id w, total (grantsTo l.log id) w ≤ cfg.maxBytesPerSecondPerTenant

variable {cfg : TURNConfig} {ok : Prop} {l : Rates}

lemma Kept.later (h : Kept cfg ok l) {w : ℕ} (hw : l.second ≤ w) :
    Kept cfg ok { l with second := w } :=
  { h with
    past := fun g hg => (h.past g hg).trans hw
    all := fun hmax => (h.all hmax).later hw
    each := fun hok hmax id x hx => (h.each hok hmax id x hx).later hw }

lemma Kept.meters (h : Kept cfg ok l) {meters : String → Option Meter}
    (hm : ∀ id, ∀ x ∈ meters id, x ∈ l.meters id ∨
      (x = ⟨0, 0⟩ ∧ (ok → total (grantsTo l.log id) l.second = 0))) :
    Kept cfg ok { l with meters } := by
  refine { h with each := fun hok hmax id x hx => ?_ }
  rcases hm id x hx with hold | ⟨rfl, hnone⟩
  · exact h.each hok hmax id x hold
  · exact Meter.Tracks.fresh (grantsTo_past h.past id) (hnone hok)

lemma Kept.refuse (h : Kept cfg ok l) {id : String} {x : Meter} (hx : l.meters id = some x) :
    Kept cfg ok { l with
      meter := ⟨l.second, l.meter.spent l.second⟩
      meters := Function.update l.meters id (some ⟨l.second, x.spent l.second⟩) } := by
  refine
    { h with
      all := fun hmax => (h.all hmax).roll
      each := fun hok hmax key y hy => ?_ }
  by_cases hkey : key = id
  · subst hkey
    simp only [Function.update_self, Option.mem_some_iff] at hy
    rw [← hy]
    exact (h.each hok hmax key x hx).roll
  · simp only [Function.update_of_ne hkey] at hy
    exact h.each hok hmax key y hy

/-- A granted one is booked at both meters. -/
lemma Kept.grant (h : Kept cfg ok l) {id : String} {x : Meter} (hx : l.meters id = some x) {n : ℕ}
    (hall : 0 < cfg.maxBytesPerSecond → l.meter.spent l.second + n ≤ cfg.maxBytesPerSecond)
    (heach : 0 < cfg.maxBytesPerSecondPerTenant →
      x.spent l.second + n ≤ cfg.maxBytesPerSecondPerTenant)
    {meter y : Meter}
    (hmeter : 0 < cfg.maxBytesPerSecond → meter = ⟨l.second, l.meter.spent l.second + n⟩)
    (hy : 0 < cfg.maxBytesPerSecondPerTenant → y = ⟨l.second, x.spent l.second + n⟩) :
    Kept cfg ok { l with
      meter
      meters := Function.update l.meters id (some y)
      log := l.log ++ [(l.second, id, n)] } := by
  refine
    { same := h.same
      past := fun g hg => ?_
      all := fun hmax => ?_
      allLimit := fun hmax => ?_
      each := fun hok hmax key z hz => ?_
      eachLimit := fun hok hmax key w => ?_ }
  · rcases List.mem_append.mp hg with hg | hg
    · exact h.past g hg
    · rw [List.mem_singleton.mp hg]
  · simp only [hmeter hmax, grants_append]
    exact (h.all hmax).grant n
  · simp only [grants_append]
    exact (h.all hmax).total_grant_le (h.allLimit hmax) (hall hmax)
  · by_cases hkey : key = id
    · subst hkey
      simp only [Function.update_self, Option.mem_some_iff] at hz
      simp only [← hz, hy hmax, grantsTo_self]
      exact (h.each hok hmax key x hx).grant n
    · simp only [Function.update_of_ne hkey] at hz
      simp only [grantsTo_of_ne (Ne.symm hkey)]
      exact h.each hok hmax key z hz
  · by_cases hkey : key = id
    · subst hkey
      simp only [grantsTo_self]
      exact (h.each hok hmax key x hx).total_grant_le (h.eachLimit hok hmax key) (heach hmax) w
    · simp only [grantsTo_of_ne (Ne.symm hkey)]
      exact h.eachLimit hok hmax key w

end Rates

/-! ### The sections -/

namespace TurnManager

open Rates

variable {cfg : TURNConfig} {ok : Prop} {m : TurnManager}

/-- Nothing refuses the mint under `m.mu`. -/
def makesRecord (m : TurnManager) (tenant : String) (expires : ℕ) : Prop :=
  m.closed = false ∧ m.now < expires ∧ m.creds.length < m.cfg.maxCredentials ∧
    m.tenants tenant = none

/-- A new record is made in a second in which its tenant was granted nothing. -/
def afresh (m : TurnManager) : Event → Prop
  | .mint i allowed random => match m.calls[i]? with
    | some (.minting tenant _ _ expires) =>
      allowed = true → random = true → m.makesRecord tenant expires →
        total (grantsTo m.reserved tenant) m.unix = 0
    | _ => True
  | _ => True

/-- The record of one tenant changes. -/
lemma kept_record (h : Kept cfg ok m.rates) {id : String} (record : Option TurnTenant)
    (hr : ∀ t' ∈ record, (∃ t, m.tenants id = some t ∧ t'.meter = t.meter) ∨
      (t'.meter = ⟨0, 0⟩ ∧ (ok → total (grantsTo m.reserved id) m.unix = 0))) :
    Kept cfg ok { m.rates with
      meters := fun key => (Function.update m.tenants id record key).map TurnTenant.meter } := by
  refine h.meters fun key x hx => ?_
  obtain ⟨t', ht', rfl⟩ := Option.map_eq_some_iff.mp hx
  by_cases hkey : key = id
  · subst hkey
    rw [Function.update_self] at ht'
    rcases hr t' ht' with ⟨t, ht, hsame⟩ | hnew
    · exact .inl (Option.map_eq_some_iff.mpr ⟨t, ht, hsame.symm⟩)
    · exact .inr hnew
  · rw [Function.update_of_ne hkey] at ht'
    exact .inl (Option.map_eq_some_iff.mpr ⟨t', ht', rfl⟩)

lemma cleanTenant_kept (h : Kept cfg ok m.rates) {id : String} {t t' : TurnTenant}
    (ht : m.tenants id = some t) (hsame : t'.meter = t.meter) :
    Kept cfg ok (m.cleanTenant id t').rates := by
  refine kept_record h _ fun u hu => .inl ?_
  split at hu
  · cases hu
  · cases hu
    exact ⟨t, ht, hsame⟩

lemma mint_kept (h : Kept cfg ok m.rates) {tenant : String} (broker session : String) (expires : ℕ)
    (hok : ok → m.makesRecord tenant expires → total (grantsTo m.reserved tenant) m.unix = 0) :
    Kept cfg ok (m.mint tenant broker session expires).rates := by
  unfold mint
  dsimp only
  split
  · exact h
  rename_i hopen
  split
  · exact h
  rename_i hroom
  refine kept_record h _ fun u hu => ?_
  cases hu
  cases ht : m.tenants tenant with
  | none =>
    have hmakes : m.makesRecord tenant expires := by
      simp only [not_or, Bool.not_eq_true, not_not] at hopen
      exact ⟨hopen.1, hopen.2, not_le.mp fun hfull => hroom (.inl hfull), ht⟩
    exact .inr ⟨rfl, fun hk => hok hk hmakes⟩
  | some t => exact .inl ⟨t, rfl, rfl⟩

lemma removeCredential_kept (h : Kept cfg ok m.rates) (c : ℕ) :
    Kept cfg ok (m.removeCredential c).rates := by
  unfold removeCredential
  split
  · dsimp only
    split
    · exact h
    · rename_i t ht
      exact cleanTenant_kept (m := { m with creds := m.creds.erase c }) h ht rfl
  · exact h

lemma allocationDeleted_kept (h : Kept cfg ok m.rates) (src : String) (username : ℕ) :
    Kept cfg ok (m.allocationDeleted src username).rates := by
  unfold allocationDeleted
  split
  · exact h
  dsimp only
  split
  · exact h
  split
  · exact h
  split
  · exact h
  · rename_i t ht
    exact cleanTenant_kept (m := { m with clients := m.clients.delete (·.1 = src) }) h ht rfl

lemma allocationCreated_kept (h : Kept cfg ok m.rates) (src : String) (username : ℕ)
    (addr : String) : Kept cfg ok (m.allocationCreated src username addr).rates := by
  unfold allocationCreated
  split
  · exact h
  dsimp only
  split
  · exact h
  split
  · exact h
  rename_i t ht
  have hkept := kept_record h (some { t with allocations := t.allocations + 1 })
    fun t' ht' => .inl ⟨t, ht, by rw [← Option.some.inj ht']; rfl⟩
  split
  · exact hkept
  · exact hkept

lemma relayClose_kept (h : Kept cfg ok m.rates) (r : ℕ) : Kept cfg ok (m.relayClose r).rates := by
  unfold relayClose
  dsimp only
  split <;> exact h

lemma roll_window (m : TurnManager) : (if m.window ≠ m.unix then
    { m with window := m.unix, bytes := 0 } else m) =
    { m with window := m.unix, bytes := Meter.spent ⟨m.window, m.bytes⟩ m.unix } := by
  by_cases h : m.window = m.unix
  · rw [if_neg (not_not.mpr h), Meter.spent, if_pos h, ← h]
  · rw [if_pos h, Meter.spent, if_neg h]

lemma roll_meter (t : TurnTenant) (w : ℕ) :
    (if t.window ≠ w then { t with window := w, bytes := 0 } else t) =
      { t with window := w, bytes := t.meter.spent w } := by
  by_cases h : t.window = w
  · rw [if_neg (not_not.mpr h), Meter.spent, TurnTenant.meter, if_pos h, ← h]
  · rw [if_pos h, Meter.spent, TurnTenant.meter, if_neg h]

lemma meters_update (m : TurnManager) (id : String) (t : TurnTenant) :
    (fun key => (Function.update m.tenants id (some t) key).map TurnTenant.meter) =
      Function.update m.rates.meters id (some t.meter) := by
  funext key
  by_cases hkey : key = id
  · subst hkey
    simp
  · simp [hkey, rates]

def spent (m : TurnManager) : ℕ := Meter.spent ⟨m.window, m.bytes⟩ m.unix

def spentBy (m : TurnManager) (id : String) : ℕ :=
  ((m.tenants id).map fun t => t.meter.spent m.unix).getD 0

lemma reserveBytes_record {c n : ℕ} {t : TurnTenant} (hopen : m.closed = false)
    (ht : m.tenants (m.cred c).tenant = some t) :
    m.reserveBytes c n =
      if (0 < m.cfg.maxBytesPerSecond ∧ (m.cfg.maxBytesPerSecond : ℤ) - m.spent < n) ∨
          (0 < m.cfg.maxBytesPerSecondPerTenant ∧
            (m.cfg.maxBytesPerSecondPerTenant : ℤ) - t.meter.spent m.unix < n) then
        ({ m with
          window := m.unix, bytes := m.spent
          tenants := Function.update m.tenants (m.cred c).tenant
            (some { t with window := m.unix, bytes := t.meter.spent m.unix }) }, false)
      else
        ({ m with
          window := m.unix
          bytes := if 0 < m.cfg.maxBytesPerSecond then m.spent + n else m.spent
          tenants := Function.update m.tenants (m.cred c).tenant
            (some { t with
              window := m.unix
              bytes := if 0 < m.cfg.maxBytesPerSecondPerTenant then t.meter.spent m.unix + n
                else t.meter.spent m.unix })
          reserved := m.reserved ++ [(m.unix, (m.cred c).tenant, n)] }, true) := by
  unfold reserveBytes
  dsimp only
  rw [if_neg (by simp [hopen]), ht]
  simp only [roll_window, roll_meter]
  by_cases hroom : (0 < m.cfg.maxBytesPerSecond ∧ (m.cfg.maxBytesPerSecond : ℤ) - m.spent < n) ∨
      (0 < m.cfg.maxBytesPerSecondPerTenant ∧
        (m.cfg.maxBytesPerSecondPerTenant : ℤ) - t.meter.spent m.unix < n)
  · rw [if_pos hroom]
    exact if_pos hroom
  · rw [if_neg hroom]
    refine (if_neg hroom).trans ?_
    split_ifs <;> rfl

lemma reserveBytes_kept (h : Kept cfg ok m.rates) (c n : ℕ) :
    Kept cfg ok (m.reserveBytes c n).1.rates := by
  cases hopen : m.closed with
  | true =>
    unfold reserveBytes
    dsimp only
    rw [if_pos hopen]
    exact h
  | false =>
    cases ht : m.tenants (m.cred c).tenant with
    | none =>
      unfold reserveBytes
      dsimp only
      rw [if_neg (by simp [hopen]), ht]
      exact h
    | some t =>
      have hx : m.rates.meters (m.cred c).tenant = some t.meter := by simp [rates, ht]
      have hcfg : m.cfg = cfg := h.same
      rw [reserveBytes_record hopen ht]
      split
      · have hrefuse := h.refuse hx
        simp only [rates, meters_update]
        exact hrefuse
      rename_i hroom
      rw [hcfg] at hroom
      simp only [rates, meters_update]
      refine h.grant hx ?_ ?_ ?_ ?_
      · intro hmax
        have hle : ¬ (cfg.maxBytesPerSecond : ℤ) - m.spent < n := fun hlt =>
          hroom (.inl ⟨hmax, hlt⟩)
        show m.spent + n ≤ _
        omega
      · intro hmax
        have hle : ¬ (cfg.maxBytesPerSecondPerTenant : ℤ) - t.meter.spent m.unix < n :=
          fun hlt => hroom (.inr ⟨hmax, hlt⟩)
        show t.meter.spent m.unix + n ≤ _
        omega
      · intro hmax
        rw [if_pos (hcfg ▸ hmax)]
        rfl
      · intro hmax
        rw [if_pos (hcfg ▸ hmax)]
        rfl

lemma step_kept (h : Kept cfg ok m.rates) {e : Event} (he : ok → m.afresh e) :
    Kept cfg ok (m.step e).rates := by
  cases e with
  | elapse ns => exact h.later (Nat.div_le_div_right (Nat.le_add_right _ _))
  | mintCall tenant broker session expires =>
    simp only [step, mintCall]
    split_ifs <;> exact h
  | mint i allowed random =>
    simp only [step]
    split
    · rename_i hcall
      split
      · rename_i hgo
        refine mint_kept (m := m.pop i) h _ _ _ fun hok => ?_
        have hfresh := he hok
        simp only [afresh, hcall] at hfresh
        exact hfresh hgo.1 hgo.2
      · exact h
    · exact h
  | renewSession session expires =>
    simp only [step, renewSession]
    split_ifs <;> exact h
  | renewLock i c =>
    simp only [step]
    split
    · split_ifs <;> exact h
    · exact h
  | renewAnswer i allowed =>
    simp only [step]
    split
    · split_ifs <;> exact h
    · exact h
  | renewStore i =>
    simp only [step, renewStore]
    split
    · split <;> exact h
    · exact h
  | ask c =>
    simp only [step]
    split_ifs <;> exact h
  | answer i allowed =>
    simp only [step]
    split <;> exact h
  | expire c =>
    simp only [step, expireCredential]
    split
    · split <;> exact h
    · exact h
  | revoke which => exact h
  | revokeLock i c =>
    simp only [step]
    split
    · split <;> exact h
    · exact h
  | remove i =>
    simp only [step]
    split
    · exact removeCredential_kept h _
    · exact h
  | closeNext i =>
    simp only [step, revokeRest]
    split
    · exact relayClose_kept h _
    · split_ifs <;> exact h
    · exact h
  | close r => exact relayClose_kept h r
  | quota username src =>
    simp only [step]
    split <;> exact h
  | allocateCall =>
    simp only [step, allocateCall]
    split <;> exact h
  | allocate i advertised =>
    simp only [step]
    split
    · split <;> exact h
    · exact h
    · exact h
  | allocated i =>
    simp only [step]
    split <;> exact h
  | created src username addr => exact allocationCreated_kept h src username addr
  | deleted src username => exact allocationDeleted_kept h src username
  | reserve c n => exact reserveBytes_kept h c n
  | shut => exact h

/-- A refusal books nothing. -/
lemma reserveBytes_refused {c n : ℕ} (h : (m.reserveBytes c n).2 = false) :
    (m.reserveBytes c n).1.reserved = m.reserved ∧ (m.reserveBytes c n).1.spent = m.spent ∧
      ∀ id, (m.reserveBytes c n).1.spentBy id = m.spentBy id := by
  cases hopen : m.closed with
  | true =>
    have hsame : m.reserveBytes c n = (m, false) := by
      unfold reserveBytes
      dsimp only
      rw [if_pos hopen]
    rw [hsame]
    exact ⟨rfl, rfl, fun _ => rfl⟩
  | false =>
    cases ht : m.tenants (m.cred c).tenant with
    | none =>
      have hsame : m.reserveBytes c n = (m, false) := by
        unfold reserveBytes
        dsimp only
        rw [if_neg (by simp [hopen]), ht]
      rw [hsame]
      exact ⟨rfl, rfl, fun _ => rfl⟩
    | some t =>
      rw [reserveBytes_record hopen ht] at h ⊢
      split at h
      · rename_i hroom
        rw [if_pos hroom]
        refine ⟨rfl, Meter.spent_self _ _, fun id => ?_⟩
        by_cases hid : id = (m.cred c).tenant
        · subst hid
          simp only [spentBy, Function.update_self, ht, Option.map_some, Option.getD_some]
          exact Meter.spent_self _ _
        · simp only [spentBy, Function.update_of_ne hid]
          rfl
      · cases h

end TurnManager

/-! ### Every run -/

lemma kept_fresh (cfg : TURNConfig) (ok : Prop) (now : ℕ) :
    Rates.Kept cfg ok (TurnManager.rates { cfg, now }) where
  same := rfl
  past _ h := absurd h List.not_mem_nil
  all _ := ⟨Nat.zero_le _, fun _ h => absurd h List.not_mem_nil, ite_self _⟩
  allLimit _ _ := Nat.zero_le _
  each _ _ _ _ h := absurd h (by rintro ⟨⟩)
  eachLimit _ _ _ _ := Nat.zero_le _

/-- A tenant ends its credential, mints another one in the same second, and is granted twice its
rate. -/
theorem rate_doubled :
    let cfg : TURNConfig := ⟨8, 4, 8, 4, 0, 100, 3600000000000, by decide⟩
    let es : List Event :=
      [.mintCall "t" "b" "s" 6000000000, .mint 0 true true, .quota 0 "c:1", .allocateCall,
        .allocate 0 (some "a:1"), .allocated 0, .created "c:1" 0 "a:1", .reserve 0 100,
        .revoke (.session "s"), .revokeLock 0 0, .remove 0, .closeNext 0, .closeNext 0,
        .deleted "c:1" 0,
        .mintCall "t" "b" "r" 6000000000, .mint 0 true true, .quota 1 "c:1", .allocateCall,
        .allocate 0 (some "a:1"), .allocated 0, .created "c:1" 1 "a:1", .reserve 1 100]
    let m := run TurnManager.step { cfg, now := 5000000000 } es
    m.reserved = [(5, "t", 100), (5, "t", 100)] ∧ cfg.maxBytesPerSecondPerTenant < 200 := by
  decide +kernel

/-- **The byte rates hold in every second**: the rate of the manager in every run, the rate of a
tenant in every run in which its records are made afresh. -/
theorem rates_of_afresh (cfg : TURNConfig) (now : ℕ) (es : List Event) :
    let m := run TurnManager.step { cfg, now } es
    (0 < cfg.maxBytesPerSecond → ∀ w, total (grants m.reserved) w ≤ cfg.maxBytesPerSecond) ∧
    (∀ c n, (m.reserveBytes c n).2 = false →
      (m.reserveBytes c n).1.reserved = m.reserved ∧ (m.reserveBytes c n).1.spent = m.spent ∧
        ∀ id, (m.reserveBytes c n).1.spentBy id = m.spentBy id) ∧
    (Along TurnManager.step TurnManager.afresh { cfg, now } es →
      0 < cfg.maxBytesPerSecondPerTenant →
      ∀ w id, total (grantsTo m.reserved id) w ≤ cfg.maxBytesPerSecondPerTenant) := by
  intro m
  have hall : Rates.Kept cfg False m.rates :=
    run_invariant (I := fun m : TurnManager => Rates.Kept cfg False m.rates)
      (fun _ _ h => TurnManager.step_kept h False.elim) es (kept_fresh cfg False now)
  refine ⟨hall.allLimit, fun c n => TurnManager.reserveBytes_refused, fun hes hmax w id => ?_⟩
  have heach : Rates.Kept cfg True m.rates :=
    along_invariant (I := fun m : TurnManager => Rates.Kept cfg True m.rates)
      (fun _ _ h he => TurnManager.step_kept h fun _ => he) (kept_fresh cfg True now) hes
  exact heach.eachLimit trivial hmax id w

/-- The tenant comes back a second later. -/
theorem rates_of_afresh_later :
    let cfg : TURNConfig := ⟨8, 4, 8, 4, 0, 100, 3600000000000, by decide⟩
    let es : List Event :=
      [.mintCall "t" "b" "s" 9000000000, .mint 0 true true, .reserve 0 100,
        .revoke (.session "s"), .revokeLock 0 0, .remove 0, .closeNext 0, .elapse 1000000000,
        .mintCall "t" "b" "r" 9000000000, .mint 0 true true, .reserve 1 100]
    let m := run TurnManager.step { cfg, now := 5000000000 } es
    m.reserved = [(5, "t", 100), (6, "t", 100)] ∧
      ∀ w id, total (grantsTo m.reserved id) w ≤ 100 := by
  refine ⟨by decide +kernel, ?_⟩
  refine (rates_of_afresh ⟨8, 4, 8, 4, 0, 100, 3600000000000, by decide⟩ 5000000000 _).2.2 ?_
    (by decide)
  exact ⟨trivial, fun _ _ _ => by decide +kernel, trivial, trivial, trivial, trivial, trivial,
    trivial, trivial, fun _ _ _ => by decide +kernel, trivial, trivial⟩

end OhecoBroker.Turn
