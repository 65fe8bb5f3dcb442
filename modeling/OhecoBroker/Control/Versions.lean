/-
Credentials of an older version.  A change of the password and a suspension raise the version of a
tenant's credentials; what was issued before is refused from then on.

* `Refused`, `Db.past.refuses`: what the checks of the service refuse, and that they refuse it to
  credentials of a version left behind;
* `Server.Inv.tenants`: along a run tenants keep their version and stay active, or move on;
* `suspended_stays_refused`: **no later change of the account brings old credentials back**.
-/
import OhecoBroker.Control.Isolation
import OhecoBroker.Control.Tombstones

namespace OhecoBroker.Control

open Lib

variable {cfg : Config} {now v : ℕ} {db : Db} {tenant : Uuid}

lemma Db.past.version_ne (h : db.past tenant v) {n : Tenant} (hn : db.tenants.get tenant = some n) :
    n.version ≠ v := by
  obtain ⟨m, hm, hid, hlt⟩ := h
  obtain ⟨hmem, hkey⟩ := Table.get_eq_some.mp hn
  obtain rfl := Table.eq_of_key_eq hm hmem (hid.trans hkey.symm)
  exact hlt.ne'

/-- What the checks refuse: a bearer, at the door (`auth`, `readAccount`) and inside a
transaction; a login session; a lineage. -/
structure Refused (db : Db) (now : ℕ) (tenant : Uuid) (version : ℕ) : Prop where
  bearer : ∀ hash pending kinds p, p.tenant = tenant → p.version = version →
    authWithPending db now (some hash) pending kinds ≠ .ok p
  transaction : ∀ hash p u, p.tenant = tenant → p.version = version →
    txPrincipal db now hash p ≠ .ok u
  login : ∀ a pending u, a.tenant = tenant → a.version = version →
    checkAuthSession db now a pending ≠ .ok u
  lineage : ∀ c u, c.tenant = tenant → c.version = version → checkConnection db now c ≠ .ok u
  sessions : ∀ s c u, s.connection = some c.id → db.connections.get c.id = some c →
    c.tenant = tenant → c.version = version → managedSession db now s ≠ .ok u

lemma Db.past.login (h : db.past tenant v) {a : AuthSession} {pending : Bool} {u : Unit}
    (ht : a.tenant = tenant) (hv : a.version = v) : checkAuthSession db now a pending ≠ .ok u :=
  fun ha => not_past ha (ht ▸ hv ▸ h)

/-- No lineage of an older version passes. -/
lemma Db.past.lineage (h : db.past tenant v) {c : ConnectionRecord} {u : Unit}
    (ht : c.tenant = tenant) (hv : c.version = v) : checkConnection db now c ≠ .ok u := by
  intro hc
  obtain ⟨-, ⟨n, hn, hnv, -⟩, -⟩ := checkConnection_eq_ok.mp hc
  exact h.version_ne (ht ▸ hn) (hnv.trans hv)

theorem Db.past.refuses (h : db.past tenant v) (now : ℕ) : Refused db now tenant v where
  bearer hash pending kinds p ht hv hp := by
    obtain ⟨t, n, -, -, -, -, hn, hnv, -, rfl⟩ := authWithPending_eq_ok.mp hp
    exact h.version_ne (ht ▸ hn) (hnv.trans hv)
  transaction hash p u ht hv hp := by
    obtain ⟨hlogin, htoken⟩ := txPrincipal_eq_ok.mp hp
    by_cases hk : p.authSession ≠ none ∧ p.kind = .account
    · -- an account bearer with a login session goes by that session alone
      obtain ⟨i, hi⟩ := Option.ne_none_iff_exists'.mp hk.1
      obtain ⟨a, ha⟩ := checkLogin_eq_ok.mp hlogin i hi
      obtain ⟨-, hat, hav, hcheck⟩ := authAuthority_eq_ok.mp ha
      exact h.login (hat.trans ht) (hav.trans hv) hcheck
    · obtain ⟨t, -, rfl, -, hactive⟩ := htoken hk
      obtain ⟨n, hn, hnv, -⟩ := txActive_eq_ok.mp hactive
      exact h.version_ne (ht ▸ hn) (hnv.trans hv)
  login a pending u ht hv := h.login ht hv
  lineage c u ht hv := h.lineage ht hv
  sessions s c u hs hc ht hv hok := by
    rw [managedSession, hs] at hok
    simp only [hc, found_some, ok_bind] at hok
    obtain ⟨w, hw, -⟩ := bind_eq_ok.mp hok
    exact h.lineage ht hv hw

/-! ### Runs -/

section Run

variable {s : Server} {as : List Act}

lemma TenantsMove.trans {T T' T'' : Table Tenant.id} (h : TenantsMove T T')
    (h' : TenantsMove T' T'') : TenantsMove T T'' := by
  intro n hn
  obtain ⟨n', hn', hid', hv'⟩ := h n hn
  obtain ⟨n'', hn'', hid'', hv''⟩ := h' n' hn'
  refine ⟨n'', hn'', hid''.trans hid', ?_⟩
  rcases hv' with hlt | ⟨heq, hactive⟩
  · exact .inl (by omega)
  · rcases hv'' with hlt | ⟨heq', hactive'⟩
    · exact .inl (heq ▸ hlt)
    · exact .inr ⟨heq'.trans heq, fun h => hactive' (hactive h)⟩

lemma Moves.tenants {D : Draws} {db' : Db} (hs : Sound cfg now db) (m : Moves cfg now D db db') :
    TenantsMove db.tenants db'.tenants := by
  induction m with
  | refl => exact .refl _
  | tail hm m ih => exact ih.trans (m.effects (Moves.sound hs hm)).tenants

lemma Server.Inv.tenants (hi : s.Inv cfg) (has : Along (Server.act cfg) (Admissible cfg) s as) :
    TenantsMove s.db.tenants (run (Server.act cfg) s as).db.tenants := by
  induction as generalizing s with
  | nil => exact .refl _
  | cons a as ih =>
    obtain ⟨ha, has⟩ := has
    exact (Moves.tenants (hi.sound.tick ha.le) (hi.moves ha)).trans (ih (hi.act ha) has)

/-- **Old credentials do not come back.** Once a tenant was suspended or has a higher version, the
credentials of the old one are refused, also when the account is enabled again. -/
theorem suspended_stays_refused (hs : s.Reachable cfg) {n m : Tenant} (hn : n ∈ s.db.tenants)
    (hactive : n.status = .active) {before after : List Act}
    (has : Along (Server.act cfg) (Admissible cfg) s (before ++ after))
    (hm : m ∈ (run (Server.act cfg) s before).db.tenants) (hid : m.id = n.id)
    (hoff : m.status ≠ .active ∨ n.version < m.version) (now : ℕ) :
    Refused (run (Server.act cfg) s (before ++ after)).db now n.id n.version := by
  obtain ⟨hbefore, hafter⟩ := along_append.mp has
  obtain ⟨n', hn', hid', hv⟩ := hs.inv.tenants hbefore n hn
  obtain rfl := Table.eq_of_key_eq hn' hm (hid'.trans hid.symm)
  have hlt : n.version < n'.version := by
    rcases hv with hlt | ⟨heq, hkeep⟩
    · exact hlt
    · exact hoff.resolve_left fun h => h (hkeep hactive)
  have hpast : (run (Server.act cfg) s before).db.past n.id n.version := ⟨n', hn', hid', hlt⟩
  rw [run_append]
  exact (((hs.run hbefore).inv.tenants hafter).past hpast le_rfl).refuses now

def disabledActs : List Act :=
  [.call 4 (.adminAction ⟨1, "tenant", "tenant@example.invalid", "hash", .active, true, 1⟩ .disable
    ⟨20, 21, 22⟩)]

def enabledActs : List Act :=
  [.call 5 (.adminAction ⟨1, "tenant", "tenant@example.invalid", "hash", .disabled, true, 2⟩ .enable
    ⟨30, 31, 32⟩)]

theorem suspended_stays_refused_enabled :
    (∃ n ∈ (run (Server.act sampleConfig) sampleServer (disabledActs ++ enabledActs)).db.tenants,
      n.id = 1 ∧ n.status = .active) ∧
    Refused (run (Server.act sampleConfig) sampleServer (disabledActs ++ enabledActs)).db
      6 1 1 := by
  refine ⟨⟨⟨1, "tenant", "tenant@example.invalid", "hash", .active, true, 2⟩, ?_, rfl, rfl⟩, ?_⟩
  · decide +kernel
  have has : Along (Server.act sampleConfig) (Admissible sampleConfig) sampleServer
      (disabledActs ++ enabledActs) := by
    refine ⟨⟨?_, ?_⟩, ⟨?_, ?_⟩, trivial⟩ <;> decide +kernel
  refine suspended_stays_refused
    (n := ⟨1, "tenant", "tenant@example.invalid", "hash", .active, true, 1⟩)
    (m := ⟨1, "tenant", "tenant@example.invalid", "hash", .disabled, true, 2⟩)
    sampleServer_reachable ?_ rfl has ?_ rfl (.inl (by decide)) 6
  · decide +kernel
  · decide +kernel

end Run

end OhecoBroker.Control
