/-
The counters of the TURN manager equal what they count.

* `Ledger`, `Ledger.Tally`, `Ledger.Exact`: what is counted, the record that counts it, and that
  it is exact and within the limits;
* `Ledger.Exact.mint`, `Ledger.Exact.remove`, `Ledger.Exact.attach`, `Ledger.Exact.detach`:
  credentials and allocations come and go;
* `step_exact`, `counters_exact`: **the counters are exact in every run, and the limits hold**.
-/
import OhecoBroker.Turn.Manager

namespace OhecoBroker.Turn

open Lib List Option

/-! ### What is counted -/

/-- The maps of the manager and the tenants of its credentials. -/
structure Ledger where
  cfg : TURNConfig
  nextCred : ℕ
  creds : List ℕ
  tenant : ℕ → String
  counters : String → Option (ℤ × ℤ)
  relay : ℕ → TurnRelay
  nextRelay : ℕ
  relays : Table (Prod.fst : String × ℕ → String)
  clients : Table (Prod.fst : String × ℕ → String)
  granted : List String

def TurnManager.ledger (m : TurnManager) : Ledger :=
  { cfg := m.cfg, nextCred := m.nextCred, creds := m.creds
    tenant := fun c => (m.cred c).tenant
    counters := fun id => (m.tenants id).map fun t => (t.credentials, t.allocations)
    relay := m.relay, nextRelay := m.nextRelay, relays := m.relays, clients := m.clients
    granted := m.granted }

namespace Ledger

def credentials (l : Ledger) (id : String) : ℕ := l.creds.countP fun c => l.tenant c = id

def owns (l : Ledger) (id : String) (x : String × ℕ) : Bool :=
  (l.relay x.2).credential.any fun c => l.tenant c = id

def allocations (l : Ledger) (id : String) : ℕ := l.clients.count (l.owns id)

/-- The counters of a tenant, both `0` without a record. -/
def Tally (x : Option (ℤ × ℤ)) (a b : ℕ) : Prop :=
  match x with
  | none => a = 0 ∧ b = 0
  | some (credentials, allocations) => credentials = a ∧ allocations = b ∧ 0 < a + b

/-- Counters are exact, and the limits hold. -/
structure Exact (cfg : TURNConfig) (l : Ledger) : Prop where
  same : l.cfg = cfg
  tally : ∀ id, Tally (l.counters id) (l.credentials id) (l.allocations id)
  nodup : l.creds.Nodup
  creds : ∀ c ∈ l.creds, c < l.nextCred
  relays : ∀ x ∈ l.relays, x.2 < l.nextRelay
  clients : ∀ x ∈ l.clients, x.2 < l.nextRelay ∧ (l.relay x.2).client = some x.1 ∧
    ∀ c ∈ (l.relay x.2).credential, c < l.nextCred
  granted : ∀ src ∈ l.granted, l.clients.get src = none
  limit : l.creds.length ≤ l.cfg.maxCredentials
  tenantLimit : ∀ id, l.credentials id ≤ l.cfg.maxCredentialsPerTenant

variable {cfg : TURNConfig} {l : Ledger}

/-- A record with nothing to count may go. -/
lemma Tally.clean {credentials allocations : ℤ} {a b : ℕ} (ha : credentials = a)
    (hb : allocations = b) :
    Tally (if credentials = 0 ∧ allocations = 0 then none else some (credentials, allocations))
      a b := by
  split
  · rename_i h
    simp only [Tally]
    omega
  · rename_i h
    refine ⟨ha, hb, ?_⟩
    omega

lemma allocations_congr (l' : Ledger) (hrelay : l'.relay = l.relay)
    (hclients : l'.clients = l.clients)
    (htenant : ∀ x ∈ l.clients, ∀ c ∈ (l.relay x.2).credential, l'.tenant c = l.tenant c)
    (id : String) : l'.allocations id = l.allocations id := by
  rw [allocations, allocations, hclients]
  refine countP_congr fun x hx => ?_
  simp only [owns, hrelay]
  cases hc : (l.relay x.2).credential with
  | none => rfl
  | some c => simp only [any_some, htenant x hx c hc]

/-! ### Credentials -/

/-- A credential is listed and counted. -/
lemma Exact.mint (h : Exact cfg l) (id : String) (hlimit : l.creds.length < l.cfg.maxCredentials)
    (htenant : ∀ x ∈ l.counters id, x.1 < l.cfg.maxCredentialsPerTenant) :
    Exact cfg { l with
      nextCred := l.nextCred + 1
      creds := l.creds ++ [l.nextCred]
      tenant := Function.update l.tenant l.nextCred id
      counters := Function.update l.counters id
        (some (((l.counters id).getD (0, 0)).1 + 1, ((l.counters id).getD (0, 0)).2)) } := by
  have hold : ∀ c, c < l.nextCred → Function.update l.tenant l.nextCred id c = l.tenant c :=
    fun c hc => Function.update_of_ne hc.ne _ _
  have hcount (key : String) :
      (l.creds ++ [l.nextCred]).countP
        (fun c => Function.update l.tenant l.nextCred id c = key) =
      l.credentials key + (if id = key then 1 else 0) := by
    have hsame : l.creds.countP (fun c => Function.update l.tenant l.nextCred id c = key) =
        l.credentials key :=
      countP_congr fun c hc => by rw [hold c (h.creds c hc)]
    rw [countP_append, hsame, countP_singleton, Function.update_self]
    simp only [decide_eq_true_eq]
  have halloc (key : String) :
      allocations { l with tenant := Function.update l.tenant l.nextCred id } key =
        l.allocations key :=
    allocations_congr (l := l) { l with tenant := Function.update l.tenant l.nextCred id } rfl rfl
      (fun x hx c hc => hold c ((h.clients x hx).2.2 c hc)) key
  have htally := h.tally id
  refine
    { h with
      tally := fun key => ?_
      nodup := ?_
      creds := fun c hc => ?_
      clients := fun x hx => ?_
      limit := ?_
      tenantLimit := fun key => ?_ }
  · show Tally (Function.update l.counters _ _ key) (List.countP _ _)
        (allocations { l with tenant := _ } key)
    rw [hcount, halloc]
    by_cases hkey : key = id
    · subst hkey
      simp only [Function.update_self, if_true]
      cases hx : l.counters key with
      | none =>
        rw [hx] at htally
        simp only [Tally] at htally
        simp only [getD_none, Tally]
        omega
      | some x =>
        rw [hx] at htally
        simp only [Tally] at htally
        simp only [getD_some, Tally]
        omega
    · rw [if_neg (Ne.symm hkey), Function.update_of_ne hkey]
      exact h.tally key
  · refine List.Nodup.append h.nodup (nodup_singleton _) ?_
    rw [disjoint_singleton]
    exact fun hmem => absurd (h.creds _ hmem) (lt_irrefl _)
  · rcases mem_append.mp hc with hc | hc
    · exact (h.creds c hc).trans (Nat.lt_succ_self _)
    · rw [mem_singleton.mp hc]
      exact Nat.lt_succ_self _
  · obtain ⟨hr, hclient, hcred⟩ := h.clients x hx
    exact ⟨hr, hclient, fun c hc => (hcred c hc).trans (Nat.lt_succ_self _)⟩
  · rw [length_append, length_singleton]
    exact hlimit
  · show List.countP _ _ ≤ l.cfg.maxCredentialsPerTenant
    rw [hcount]
    have hkeep := h.tenantLimit key
    by_cases hkey : id = key
    · subst hkey
      rw [if_pos rfl]
      cases hx : l.counters id with
      | none =>
        rw [hx] at htally
        simp only [Tally] at htally
        have := l.cfg.positive
        omega
      | some x =>
        rw [hx] at htally
        simp only [Tally] at htally
        have hlt := htenant x hx
        omega
    · rw [if_neg hkey]
      exact hkeep

lemma Exact.remove (h : Exact cfg l) {c : ℕ} (hc : c ∈ l.creds) {a b : ℤ}
    (hx : l.counters (l.tenant c) = some (a, b)) :
    Exact cfg { l with
      creds := l.creds.erase c
      counters := Function.update l.counters (l.tenant c)
        (if a - 1 = 0 ∧ b = 0 then none else some (a - 1, b)) } := by
  have hcount (key : String) : (l.creds.erase c).countP (fun d => l.tenant d = key) =
      l.credentials key - (if l.tenant c = key then 1 else 0) := by
    rw [countP_erase]
    simp [credentials, hc]
  have htally := h.tally (l.tenant c)
  rw [hx] at htally
  simp only [Tally] at htally
  have hpos : 0 < l.credentials (l.tenant c) :=
    countP_pos_iff.mpr ⟨c, hc, by simp⟩
  refine
    { h with
      tally := fun key => ?_
      nodup := h.nodup.erase c
      creds := fun d hd => h.creds d (mem_of_mem_erase hd)
      limit := (length_erase_le).trans h.limit
      tenantLimit := fun key => ?_ }
  · show Tally (Function.update l.counters _ _ key) (List.countP _ _) (l.allocations key)
    rw [hcount]
    by_cases hkey : key = l.tenant c
    · subst hkey
      rw [Function.update_self, if_pos rfl]
      exact Tally.clean (by omega) htally.2.1
    · rw [if_neg (Ne.symm hkey), Function.update_of_ne hkey]
      exact h.tally key
  · show List.countP _ _ ≤ _
    rw [hcount]
    exact (Nat.sub_le _ _).trans (h.tenantLimit key)

/-! ### Allocations -/

lemma Exact.attach (h : Exact cfg l) {src : String} {r : ℕ} (c : Option ℕ)
    (hfree : l.clients.get src = none) (hr : r < l.nextRelay) (hun : (l.relay r).client = none)
    (hc : ∀ d ∈ c, d < l.nextCred) (counters : String → Option (ℤ × ℤ))
    (htally : ∀ key, Tally (counters key) (l.credentials key)
      (l.allocations key + if c.any (fun d => l.tenant d = key) then 1 else 0)) :
    Exact cfg { l with
      relay := Function.update l.relay r { l.relay r with credential := c, client := some src }
      clients := l.clients.assign (src, r)
      granted := l.granted.filter (· ≠ src)
      counters } := by
  have hold : ∀ x ∈ l.clients, Function.update l.relay r
      { l.relay r with credential := c, client := some src } x.2 = l.relay x.2 := by
    refine fun x hx => Function.update_of_ne ?_ _ _
    rintro rfl
    rw [(h.clients x hx).2.1] at hun
    cases hun
  refine
    { h with
      tally := fun key => ?_
      clients := fun x hx => ?_
      granted := fun s hs => ?_ }
  · show Tally (counters key) (l.credentials key) (Table.count (l.clients.assign (src, r)) _)
    have hcount := l.clients.count_assign (src, r) (owns { l with
      relay := Function.update l.relay r
        { l.relay r with credential := c, client := some src } } key) hfree
    have hsame : l.clients.count (owns { l with
        relay := Function.update l.relay r
          { l.relay r with credential := c, client := some src } } key) = l.allocations key :=
      countP_congr fun x hx => by simp only [owns, hold x hx]
    rw [hsame] at hcount
    simp only [owns, Function.update_self] at hcount
    have hkey := htally key
    rw [← hcount] at hkey
    exact hkey
  · rcases Table.mem_assign.mp hx with rfl | ⟨hx, -⟩
    · simp only [Function.update_self]
      exact ⟨hr, trivial, hc⟩
    · simp only [hold x hx]
      exact h.clients x hx
  obtain ⟨hs, hne⟩ := mem_filter.mp hs
  have hne' : src ≠ s := fun he => by simp [he] at hne
  show Table.get (l.clients.assign (src, r)) s = none
  rw [Table.get_assign, if_neg hne']
  exact h.granted s hs

lemma Exact.detach (h : Exact cfg l) {src : String} {x : String × ℕ}
    (hx : l.clients.get src = some x) (counters : String → Option (ℤ × ℤ))
    (htally : ∀ key, Tally (counters key) (l.credentials key)
      (l.allocations key - if l.owns key x then 1 else 0)) :
    Exact cfg { l with clients := l.clients.delete (·.1 = src), counters } := by
  refine
    { h with
      tally := fun key => ?_
      clients := fun y hy => h.clients y (Table.mem_delete.mp hy).1
      granted := fun s hs => ?_ }
  · have hcount := l.clients.count_delete_key src (l.owns key)
    rw [hx] at hcount
    simp only [any_some] at hcount
    have hkey := htally key
    have hsub : (l.clients.delete (·.1 = src)).count (l.owns key) =
        l.allocations key - if l.owns key x = true then 1 else 0 := by
      rw [allocations, ← hcount, Nat.add_sub_cancel]
    rw [← hsub] at hkey
    exact hkey
  · show Table.get (l.clients.delete (·.1 = src)) s = none
    rw [Table.get_delete, h.granted s hs]
    rfl

lemma Exact.allocate (h : Exact cfg l) (advertised : String) :
    Exact cfg { l with
      relay := Function.update l.relay l.nextRelay { advertised }
      relays := l.relays.assign (advertised, l.nextRelay)
      nextRelay := l.nextRelay + 1 } := by
  have hold : ∀ x ∈ l.clients,
      Function.update l.relay l.nextRelay { advertised } x.2 = l.relay x.2 :=
    fun x hx => Function.update_of_ne (h.clients x hx).1.ne _ _
  refine
    { h with
      tally := fun key => ?_
      relays := fun x hx => ?_
      clients := fun x hx => ?_ }
  · have hsame : l.clients.count (owns { l with
        relay := Function.update l.relay l.nextRelay { advertised } } key) = l.allocations key :=
      countP_congr fun x hx => by simp only [owns, hold x hx]
    have hkey := h.tally key
    rw [← hsame] at hkey
    exact hkey
  · rcases Table.mem_assign.mp hx with rfl | ⟨hx, -⟩
    · exact Nat.lt_succ_self _
    · exact (h.relays x hx).trans (Nat.lt_succ_self _)
  · simp only [hold x hx]
    obtain ⟨hr, hrest⟩ := h.clients x hx
    exact ⟨hr.trans (Nat.lt_succ_self _), hrest⟩

end Ledger

/-! ### The sections -/

namespace TurnManager

open Ledger

variable {cfg : TURNConfig} {m : TurnManager} {c r : ℕ}

lemma map_update (m : TurnManager) (id : String) (t : Option TurnTenant) :
    (fun key => (Function.update m.tenants id t key).map fun t => (t.credentials, t.allocations)) =
      Function.update m.ledger.counters id (t.map fun t => (t.credentials, t.allocations)) := by
  funext key
  by_cases hkey : key = id
  · subst hkey
    simp
  · simp [hkey, ledger]

lemma ledger_cred (m : TurnManager) (c : ℕ) {x : TurnCredential}
    (hx : x.tenant = (m.cred c).tenant) :
    ({ m with cred := Function.update m.cred c x }).ledger = m.ledger := by
  simp only [ledger, Ledger.mk.injEq, true_and, and_true]
  funext d
  by_cases hd : d = c
  · subst hd
    simp [hx]
  · simp [hd]

/-- A revocation counts nothing. -/
lemma setRevoked_ledger (m : TurnManager) (c : ℕ) : (m.setRevoked c).ledger = m.ledger :=
  ledger_cred m c rfl

lemma renewStore_ledger (m : TurnManager) (c expires : ℕ) :
    (m.renewStore c expires).ledger = m.ledger := by
  unfold renewStore
  dsimp only
  split
  · exact ledger_cred m c rfl
  · rfl

lemma ledger_tenant {id : String} {t t' : TurnTenant} (ht : m.tenants id = some t)
    (hc : t'.credentials = t.credentials) (ha : t'.allocations = t.allocations) :
    ({ m with tenants := Function.update m.tenants id (some t') }).ledger = m.ledger := by
  simp only [ledger, map_update, Ledger.mk.injEq, true_and, and_true]
  funext key
  by_cases hkey : key = id
  · subst hkey
    simp [ht, hc, ha]
  · simp [hkey]

lemma reserveBytes_ledger (m : TurnManager) (c n : ℕ) :
    (m.reserveBytes c n).1.ledger = m.ledger := by
  unfold reserveBytes
  dsimp only
  split
  · rfl
  split
  · rfl
  rename_i t ht
  split
  · split_ifs <;> exact ledger_tenant ht rfl rfl
  · split_ifs <;> exact ledger_tenant ht rfl rfl

lemma mint_exact (h : Exact cfg m.ledger) (tenant broker session : String) (expires : ℕ) :
    Exact cfg (m.mint tenant broker session expires).ledger := by
  unfold mint
  split
  · exact h
  dsimp only
  split
  · exact h
  rename_i hlimit
  simp only [not_or, not_le, Bool.not_eq_true] at hlimit
  have hmint := h.mint tenant hlimit.1 fun x hx => by
    obtain ⟨t, ht, rfl⟩ := map_eq_some_iff.mp hx
    have hany := hlimit.2
    rw [ht, any_some, decide_eq_false_iff_not, not_le] at hany
    exact hany
  have hrecord : (((m.ledger.counters tenant).getD (0, 0)).1 + 1,
      ((m.ledger.counters tenant).getD (0, 0)).2) =
      (((m.tenants tenant).getD {}).credentials + 1, ((m.tenants tenant).getD {}).allocations) := by
    simp only [ledger]
    cases m.tenants tenant <;> rfl
  have htenant : (fun d => (Function.update m.cred m.nextCred
      { tenant, broker, session, expires } d).tenant) =
      Function.update m.ledger.tenant m.nextCred tenant := by
    funext d
    by_cases hd : d = m.nextCred
    · subst hd
      simp
    · simp [hd, ledger]
  rw [hrecord] at hmint
  simp only [ledger, map_update, htenant] at hmint ⊢
  exact hmint

lemma cleanTenant_ledger (m : TurnManager) (id : String) (t : TurnTenant) :
    (m.cleanTenant id t).ledger = { m.ledger with
      counters := Function.update m.ledger.counters id
        (if t.credentials = 0 ∧ t.allocations = 0 then none
         else some (t.credentials, t.allocations)) } := by
  have hmap : (if t.credentials = 0 ∧ t.allocations = 0 then none else some t).map
      (fun t => (t.credentials, t.allocations)) =
      if t.credentials = 0 ∧ t.allocations = 0 then none
      else some (t.credentials, t.allocations) := by
    split <;> rfl
  simp only [cleanTenant, ledger, map_update, hmap]

lemma removeCredential_exact (h : Exact cfg m.ledger) (c : ℕ) :
    Exact cfg (m.removeCredential c).ledger := by
  unfold removeCredential
  split
  · rename_i hc
    dsimp only
    have htally := h.tally (m.cred c).tenant
    have hpos : 0 < m.ledger.credentials (m.cred c).tenant :=
      countP_pos_iff.mpr ⟨c, hc, by simp [ledger]⟩
    cases ht : m.tenants (m.cred c).tenant with
    | none =>
      have hnone : m.ledger.counters (m.cred c).tenant = none := by simp [ledger, ht]
      rw [hnone] at htally
      simp only [Tally] at htally
      omega
    | some t =>
      have hsome : m.ledger.counters (m.ledger.tenant c) = some (t.credentials, t.allocations) := by
        simp [ledger, ht]
      have hremove := h.remove hc hsome
      simp only
      rw [cleanTenant_ledger]
      exact hremove
  · exact h

lemma allocationDeleted_exact (h : Exact cfg m.ledger) (src : String) (username : ℕ) :
    Exact cfg (m.allocationDeleted src username).ledger := by
  unfold allocationDeleted
  split
  · exact h
  rename_i a r hget
  dsimp only
  split
  · rename_i hcred
    refine h.detach hget m.ledger.counters fun key => ?_
    simp only [owns, ledger, hcred, any_none, Bool.false_eq_true, if_false, Nat.sub_zero]
    exact h.tally key
  rename_i c hcred
  split
  · exact h
  have htally := h.tally (m.cred c).tenant
  have hpos : 0 < m.ledger.allocations (m.cred c).tenant := by
    refine countP_pos_iff.mpr ⟨_, Table.mem_of_get hget, ?_⟩
    simp [owns, ledger, hcred]
  have howns (key : String) : m.ledger.owns key (a, r) = decide ((m.cred c).tenant = key) := by
    show (m.relay r).credential.any _ = _
    rw [hcred]
    rfl
  split
  · rename_i ht
    have hnone : m.ledger.counters (m.cred c).tenant = none := by simp [ledger, ht]
    rw [hnone] at htally
    simp only [Tally] at htally
    omega
  rename_i t ht
  have hsome : m.ledger.counters (m.cred c).tenant = some (t.credentials, t.allocations) := by
    simp [ledger, ht]
  rw [hsome] at htally
  simp only [Tally] at htally
  rw [cleanTenant_ledger]
  refine h.detach hget _ fun key => ?_
  rw [howns]
  by_cases hkey : key = (m.cred c).tenant
  · subst hkey
    rw [Function.update_self, if_pos (decide_eq_true rfl)]
    exact Tally.clean htally.1 (by simp only; omega)
  · rw [Function.update_of_ne hkey, if_neg (by simpa using Ne.symm hkey), Nat.sub_zero]
    exact h.tally key

lemma relayClose_exact (h : Exact cfg m.ledger) (r : ℕ) : Exact cfg (m.relayClose r).ledger := by
  unfold relayClose
  dsimp only
  split
  · exact { h with relays := fun x hx => h.relays x (Table.mem_delete.mp hx).1 }
  · exact h

lemma allocationCreated_exact (h : Exact cfg m.ledger) {src addr : String} {username : ℕ}
    (hsrc : src ∈ m.granted) (hun : ∀ x ∈ m.relays.get addr, (m.relay x.2).client = none) :
    Exact cfg (m.allocationCreated src username addr).ledger := by
  have hfree : m.clients.get src = none := h.granted src hsrc
  unfold allocationCreated
  split
  · exact h
  rename_i a r hget
  have hclient : (m.relay r).client = none := hun (a, r) hget
  have hr : r < m.nextRelay := h.relays _ (Table.mem_of_get hget)
  dsimp only
  by_cases hmem : username ∈ m.creds
  · simp only [if_pos hmem]
    have hlt : username < m.nextCred := h.creds _ hmem
    have htally := h.tally (m.cred username).tenant
    have hpos : 0 < m.ledger.credentials (m.cred username).tenant :=
      countP_pos_iff.mpr ⟨username, hmem, by simp [ledger]⟩
    have howns (key : String) : ((some username).any fun d => decide (m.ledger.tenant d = key)) =
        decide ((m.cred username).tenant = key) := rfl
    cases ht : m.tenants (m.cred username).tenant with
    | none =>
      have hnone : m.ledger.counters (m.cred username).tenant = none := by simp [ledger, ht]
      rw [hnone] at htally
      simp only [Tally] at htally
      omega
    | some t =>
      have hsome : m.ledger.counters (m.cred username).tenant =
          some (t.credentials, t.allocations) := by
        simp [ledger, ht]
      rw [hsome] at htally
      simp only [Tally] at htally
      have hattach := h.attach (some username) hfree hr hclient (by simpa [ledger] using hlt)
        (Function.update m.ledger.counters (m.cred username).tenant
          (some (t.credentials, t.allocations + 1))) fun key => by
          rw [howns]
          by_cases hkey : key = (m.cred username).tenant
          · subst hkey
            rw [Function.update_self, if_pos (decide_eq_true rfl)]
            simp only [Tally]
            omega
          · rw [Function.update_of_ne hkey, if_neg (by simpa using Ne.symm hkey), Nat.add_zero]
            exact h.tally key
      simp only
      split
      · simp only [push, ledger, map_update, map_some]
        exact hattach
      · simp only [ledger, map_update, map_some]
        exact hattach
  · simp only [if_neg hmem]
    exact h.attach none hfree hr hclient (by intros; contradiction) m.ledger.counters fun key => by
      simpa using h.tally key

lemma step_exact (h : Exact cfg m.ledger) {e : Event} (he : m.pion e) :
    Exact cfg (m.step e).ledger := by
  cases e with
  | elapse ns => exact h
  | mintCall tenant broker session expires =>
    simp only [step, mintCall]
    split_ifs <;> exact h
  | mint i allowed random =>
    simp only [step]
    split
    · split
      · exact mint_exact (m := m.pop i) h _ _ _ _
      · exact h
    · exact h
  | renewSession session expires =>
    simp only [step, renewSession]
    split_ifs <;> exact h
  | renewLock i c =>
    simp only [step]
    split
    · split_ifs <;> exact h
    · exact h
  | renewAnswer i allowed =>
    simp only [step]
    split
    · split_ifs <;> exact h
    · exact h
  | renewStore i =>
    simp only [step]
    split
    · exact (renewStore_ledger m _ _).symm ▸ h
    · exact h
  | ask c =>
    simp only [step]
    split_ifs <;> exact h
  | answer i allowed =>
    simp only [step]
    split <;> exact h
  | expire c =>
    simp only [step, expireCredential]
    split
    · split
      · exact h
      · exact (setRevoked_ledger m c).symm ▸ h
    · exact h
  | revoke which => exact h
  | revokeLock i c =>
    simp only [step]
    split
    · split
      · exact (setRevoked_ledger m c).symm ▸ h
      · exact h
    · exact h
  | remove i =>
    simp only [step]
    split
    · exact removeCredential_exact h _
    · exact h
  | closeNext i =>
    simp only [step, revokeRest]
    split
    · exact relayClose_exact h _
    · split_ifs <;> exact h
    · exact h
  | close r => exact relayClose_exact h r
  | quota username src =>
    simp only [step]
    split
    · rename_i hquota
      refine { h with granted := forall_mem_cons.mpr ⟨?_, h.granted⟩ }
      simp only [quota, Bool.and_eq_true, isNone_iff_eq_none] at hquota
      exact hquota.1.1.2
    · exact h
  | allocateCall =>
    simp only [step, allocateCall]
    split <;> exact h
  | allocate i advertised =>
    simp only [step]
    split
    · split
      · exact h
      · exact h.allocate _
    · exact h
    · exact h
  | allocated i =>
    simp only [step]
    split <;> exact h
  | created src username addr => exact allocationCreated_exact h he.1 he.2
  | deleted src username => exact allocationDeleted_exact h src username
  | reserve c n => exact (reserveBytes_ledger m c n).symm ▸ h
  | shut => exact h

end TurnManager

/-! ### Every run -/

/-- A new manager counts nothing. -/
lemma exact_fresh (cfg : TURNConfig) (now : ℕ) :
    Ledger.Exact cfg (TurnManager.ledger { cfg, now }) where
  same := rfl
  tally _ := ⟨rfl, rfl⟩
  nodup := nodup_nil
  creds _ h := absurd h not_mem_nil
  relays _ h := absurd h not_mem_nil
  clients _ h := absurd h not_mem_nil
  granted _ h := absurd h not_mem_nil
  limit := Nat.zero_le _
  tenantLimit _ := Nat.zero_le _

/-- **The counters equal what they count.** While Pion keeps its promises, a tenant's record
counts its credentials and allocations, exists exactly when one of them does, and the limits hold.
-/
theorem counters_exact (cfg : TURNConfig) (now : ℕ) (es : List Event)
    (hes : Along TurnManager.step TurnManager.pion { cfg, now } es) :
    let m := run TurnManager.step { cfg, now } es
    let credentials (id : String) := m.creds.countP fun c => (m.cred c).tenant = id
    let allocations (id : String) := m.clients.count fun x =>
      (m.relay x.2).credential.any fun c => (m.cred c).tenant = id
    (∀ id t, m.tenants id = some t →
      t.credentials = credentials id ∧ t.allocations = allocations id) ∧
    (∀ id, (m.tenants id).isSome = true ↔ 0 < credentials id ∨ 0 < allocations id) ∧
    m.creds.length ≤ cfg.maxCredentials ∧
    ∀ id, credentials id ≤ cfg.maxCredentialsPerTenant := by
  intro m credentials allocations
  have h : Ledger.Exact cfg m.ledger := along_invariant (I := fun m => Ledger.Exact cfg m.ledger)
    (fun _ _ h he => TurnManager.step_exact h he) (exact_fresh cfg now) hes
  have htally (id : String) :
      Ledger.Tally ((m.tenants id).map fun t => (t.credentials, t.allocations))
        (credentials id) (allocations id) := h.tally id
  refine ⟨fun id t ht => ?_, fun id => ?_, h.same ▸ h.limit, fun id => h.same ▸ h.tenantLimit id⟩
  · have hid := htally id
    rw [ht] at hid
    exact ⟨hid.1, hid.2.1⟩
  have hid := htally id
  cases ht : m.tenants id with
  | none =>
    rw [ht] at hid
    simp only [map_none, Ledger.Tally] at hid
    simp only [isSome_none, Bool.false_eq_true, false_iff]
    omega
  | some t =>
    rw [ht] at hid
    simp only [map_some, Ledger.Tally] at hid
    simp only [isSome_some, true_iff]
    omega

/-- The credential of an allocation is revoked; one credential and the allocation are left. -/
theorem counters_exact_revoked :
    let cfg : TURNConfig := ⟨8, 4, 8, 4, 0, 0, 3600000000000, by decide⟩
    let es : List Event :=
      [.mintCall "t" "b" "s" 10, .mint 0 true true, .mintCall "t" "b" "r" 10, .mint 0 true true,
        .quota 0 "c:1", .allocateCall, .allocate 0 (some "a:1"), .allocated 0,
        .created "c:1" 0 "a:1", .revoke (.session "s"), .revokeLock 0 0, .remove 0]
    let m := run TurnManager.step { cfg } es
    m.tenants "t" = some { credentials := 1, allocations := 1 } ∧ m.creds = [1] ∧
      m.creds.length ≤ 8 := by
  refine ⟨by decide +kernel, by decide +kernel, ?_⟩
  refine (counters_exact ⟨8, 4, 8, 4, 0, 0, 3600000000000, by decide⟩ 0 _ ?_).2.2.1
  exact ⟨trivial, trivial, trivial, trivial, trivial, trivial, trivial, trivial,
    ⟨by decide +kernel, by decide +kernel⟩, trivial, trivial, trivial, trivial⟩

end OhecoBroker.Turn
