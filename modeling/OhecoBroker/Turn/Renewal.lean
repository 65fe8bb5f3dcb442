/-
Renewals, timers and revocation of TURN credentials.

* `Leases`, `Leases.Holds`: the credentials, who holds their gates, and what a call relies on;
* `Leases.Change`, `step_changes`: every section is a sequence of changes;
* `Leases.Change.dead`, `Leases.Change.later`, `Leases.Change.limit`: what changes keep;
* `renewal_sound`: **an expired or revoked credential is never authorised again, deadlines only
  grow and stay within the limit, and a timer revokes only what has expired**.
-/
import OhecoBroker.Turn.Manager

namespace OhecoBroker.Turn

open Lib List
open Relation

/-! ### What a section can do -/

/-- The credentials and who holds their gates. -/
structure Leases where
  cfg : TURNConfig
  now : ℕ
  cred : ℕ → TurnCredential
  nextCred : ℕ
  calls : List Call

def TurnManager.leases (m : TurnManager) : Leases := ⟨m.cfg, m.now, m.cred, m.nextCred, m.calls⟩

namespace Leases

/-- An unrevoked credential behind its gate, a deadline within the limit. -/
structure Holds (l : Leases) (k : Call) : Prop where
  unrevoked : ∀ c, k.holds c = true → (l.cred c).revoked = false
  limit : ∀ tenant broker session expires, k = .minting tenant broker session expires →
    expires ≤ l.now + l.cfg.maxCredentialTTL

/-- One change. -/
inductive Change (l : Leases) : Leases → Prop
  | elapse (ns : ℕ) : Change l { l with now := l.now + ns }
  | calls {ks : List Call} (h : ∀ k ∈ ks, k ∈ l.calls ∨ l.Holds k) : Change l { l with calls := ks }
  | mint {tenant broker session : String} {expires : ℕ}
      (h : .minting tenant broker session expires ∈ l.calls) :
      Change l { l with
        cred := Function.update l.cred l.nextCred { tenant, broker, session, expires }
        nextCred := l.nextCred + 1 }
  | renew {c deadline : ℕ} (hnow : l.now < (l.cred c).expires)
      (hlater : (l.cred c).expires < deadline)
      (hlimit : deadline ≤ l.now + l.cfg.maxCredentialTTL) :
      Change l { l with cred := Function.update l.cred c { l.cred c with expires := deadline } }
  | revoke {c : ℕ} (h : ∀ k ∈ l.calls, k.holds c = false) :
      Change l { l with cred := Function.update l.cred c { l.cred c with revoked := true } }

/-- A sequence of changes. -/
abbrev Changes : Leases → Leases → Prop := ReflTransGen Change

end Leases

namespace TurnManager

open Leases

variable {m : TurnManager} {i c : ℕ} {k : Call}

lemma holds_idle (hk : ∀ c, k.holds c = false)
    (hmint : ∀ tenant broker session expires, k ≠ .minting tenant broker session expires) :
    m.leases.Holds k where
  unrevoked c h := absurd ((hk c).symm.trans h) (by rintro ⟨⟩)
  limit tenant broker session expires h := absurd h (hmint tenant broker session expires)

lemma push_changes (hk : m.leases.Holds k) : Changes m.leases (m.push k).leases := by
  refine .single (.calls fun k' hk' => ?_)
  rcases mem_append.mp hk' with hk' | hk'
  · exact .inl hk'
  · rw [mem_singleton.mp hk']
    exact .inr hk

lemma goOn_changes (hk : m.leases.Holds k) : Changes m.leases (m.goOn i k).leases := by
  refine .single (.calls fun k' hk' => ?_)
  rcases mem_or_eq_of_mem_set hk' with hk' | rfl
  · exact .inl hk'
  · exact .inr hk

lemma pop_changes : Changes m.leases (m.pop i).leases :=
  .single (.calls fun _ hk => .inl (mem_of_mem_eraseIdx hk))

lemma removeCredential_leases (m : TurnManager) (c : ℕ) :
    (m.removeCredential c).leases = m.leases := by
  unfold removeCredential
  dsimp only
  split
  · split <;> rfl
  · rfl

lemma relayClose_leases (m : TurnManager) (r : ℕ) : (m.relayClose r).leases = m.leases := by
  unfold relayClose
  dsimp only
  split <;> rfl

lemma allocationDeleted_leases (m : TurnManager) (src : String) (username : ℕ) :
    (m.allocationDeleted src username).leases = m.leases := by
  unfold allocationDeleted
  split
  · rfl
  dsimp only
  split
  · rfl
  · split
    · rfl
    · split <;> rfl

lemma reserveBytes_leases (m : TurnManager) (c n : ℕ) :
    (m.reserveBytes c n).1.leases = m.leases := by
  unfold reserveBytes
  dsimp only
  split
  · rfl
  · split
    · rfl
    · split_ifs <;> rfl

lemma allocationCreated_changes (m : TurnManager) (src : String) (username : ℕ) (addr : String) :
    Changes m.leases (m.allocationCreated src username addr).leases := by
  unfold allocationCreated
  split
  · exact .refl
  rename_i r _
  dsimp only
  have hclosing {m' : TurnManager} (h : m'.leases = m.leases) :
      Changes m.leases (m'.push (.closing [r] [])).leases := by
    rw [← h]
    exact push_changes (holds_idle (fun _ => rfl) (by simp))
  split
  · exact hclosing rfl
  split
  · exact hclosing rfl
  · split
    · exact hclosing rfl
    · exact .refl

lemma mint_changes {tenant broker session : String} {expires : ℕ}
    (h : m.calls[i]? = some (.minting tenant broker session expires)) :
    Changes m.leases ((m.pop i).mint tenant broker session expires).leases := by
  unfold mint
  dsimp only
  split
  · exact pop_changes
  split
  · exact pop_changes
  · refine .tail (.single (.mint (mem_of_getElem? h))) (.calls fun _ hk => .inl ?_)
    exact mem_of_mem_eraseIdx hk

lemma authorizedBefore_unrevoked (h : m.authorizedBefore c = true) :
    (m.cred c).revoked = false := by
  simp only [authorizedBefore, Bool.and_eq_true, Bool.not_eq_true'] at h
  exact h.1

/-- A call that holds one gate. -/
lemma holds_gate (hk : ∀ d, k.holds d = true → d = c)
    (hmint : ∀ tenant broker session expires, k ≠ .minting tenant broker session expires)
    (hc : (m.cred c).revoked = false) : m.leases.Holds k where
  unrevoked d h := hk d h ▸ hc
  limit tenant broker session expires h := absurd h (hmint tenant broker session expires)

/-- A revocation needs the gate. -/
lemma setRevoked_changes (h : m.gateFree c = true) : Changes m.leases (m.setRevoked c).leases := by
  refine .single (.revoke (c := c) fun k hk => ?_)
  simpa using all_eq_true.mp h k hk

lemma step_changes (m : TurnManager) (hm : ∀ k ∈ m.calls, m.leases.Holds k) (e : Event) :
    Changes m.leases (m.step e).leases := by
  cases e with
  | elapse ns => exact .single (.elapse ns)
  | mintCall tenant broker session expires =>
    simp only [step, mintCall]
    split_ifs with hname hexpires
    · exact .refl
    · exact .refl
    · refine push_changes ⟨(by intro _ h; cases h), fun _ _ _ e he => ?_⟩
      injection he with _ _ _ he
      simp only [leases, ← he]
      omega
  | mint i allowed random =>
    simp only [step]
    split
    · rename_i hcall
      split
      · exact mint_changes hcall
      · exact pop_changes
    · exact .refl
  | renewSession session expires =>
    simp only [step, renewSession]
    split_ifs
    · exact .refl
    · exact .refl
    · exact push_changes (holds_idle (fun _ => rfl) (by simp))
  | renewLock i c =>
    simp only [step]
    split
    · split
      · split
        · rename_i hauth
          exact goOn_changes (holds_gate (c := c) (fun d hd => by simpa [Call.holds] using hd)
            (by simp) (authorizedBefore_unrevoked hauth))
        · exact goOn_changes (holds_idle (fun _ => rfl) (by simp))
      · exact .refl
    · exact .refl
  | renewAnswer i allowed =>
    simp only [step]
    split
    · rename_i c cs expires hcall
      have hheld := (hm _ (mem_of_getElem? hcall)).unrevoked c (by simp [Call.holds])
      split
      · exact goOn_changes (holds_gate (c := c) (fun d hd => by simpa [Call.holds] using hd)
          (by simp) hheld)
      · exact goOn_changes (holds_idle (fun _ => rfl) (by simp))
    · exact .refl
  | renewStore i =>
    simp only [step]
    split
    · rename_i c cs expires hcall
      unfold renewStore
      dsimp only
      split
      · rename_i hrenew
        refine .tail (.single (.renew hrenew.2.2.1 hrenew.2.2.2 (min_le_right _ _)))
          (.calls fun k hk => ?_)
        rcases mem_or_eq_of_mem_set hk with hk | rfl
        · exact .inl hk
        · exact .inr ⟨(by intro _ h; cases h), (by simp)⟩
      · exact goOn_changes (holds_idle (fun _ => rfl) (by simp))
    · exact .refl
  | ask c =>
    simp only [step]
    split
    · rename_i hauth
      exact push_changes (holds_gate (c := c) (fun d hd => by simpa [Call.holds] using hd) (by simp)
        (authorizedBefore_unrevoked hauth.2))
    · exact .refl
  | answer i allowed =>
    simp only [step]
    split
    · exact pop_changes
    · exact .refl
  | expire c =>
    simp only [step, expireCredential]
    split
    · rename_i hfree
      split
      · exact .refl
      · exact (setRevoked_changes hfree.2).trans
          (push_changes (holds_idle (fun _ => rfl) (by simp)))
    · exact .refl
  | revoke which => exact push_changes (holds_idle (fun _ => rfl) (by simp))
  | revokeLock i c =>
    simp only [step]
    split
    · split
      · rename_i hfree
        exact (setRevoked_changes hfree.2).trans
          (goOn_changes (holds_idle (fun _ => rfl) (by simp)))
      · exact .refl
    · exact .refl
  | remove i =>
    simp only [step]
    split
    · rename_i c cs hcall
      rw [← removeCredential_leases m c]
      exact goOn_changes (holds_idle (fun _ => rfl) (by simp))
    · exact .refl
  | closeNext i =>
    simp only [step, revokeRest]
    split
    · rename_i r rs cs hcall
      rw [← relayClose_leases m r]
      exact goOn_changes (holds_idle (fun _ => rfl) (by simp))
    · split
      · exact pop_changes
      · exact goOn_changes (holds_idle (fun _ => rfl) (by simp))
    · exact .refl
  | close r => exact (relayClose_leases m r).symm ▸ .refl
  | quota username src =>
    simp only [step]
    split <;> exact .refl
  | allocateCall =>
    simp only [step, allocateCall]
    split
    · exact .refl
    · exact push_changes (m := { m with opening := m.opening + 1 })
        (holds_idle (fun _ => rfl) (by simp))
  | allocate i advertised =>
    simp only [step]
    split
    · split
      · exact pop_changes (m := { m with opening := m.opening - 1 })
      · exact goOn_changes (m := m.allocate _) (holds_idle (fun _ => rfl) (by simp))
    · exact pop_changes (m := { m with opening := m.opening - 1 })
    · exact .refl
  | allocated i =>
    simp only [step]
    split
    · exact pop_changes (m := { m with opening := m.opening - 1 })
    · exact .refl
  | created src username addr => exact allocationCreated_changes m src username addr
  | deleted src username => exact (allocationDeleted_leases m src username).symm ▸ .refl
  | reserve c n => exact (reserveBytes_leases m c n).symm ▸ .refl
  | shut => exact .refl

end TurnManager

/-! ### What the changes keep -/

namespace Leases

variable {l l' : Leases} {c : ℕ}

/-- The credential has expired or is revoked. -/
def Dead (l : Leases) (c : ℕ) : Prop :=
  c < l.nextCred ∧ ((l.cred c).revoked = true ∨ (l.cred c).expires ≤ l.now)

lemma Change.holds (h : Change l l') (hl : ∀ k ∈ l.calls, l.Holds k) :
    ∀ k ∈ l'.calls, l'.Holds k := by
  cases h with
  | elapse ns =>
    exact fun k hk => ⟨(hl k hk).unrevoked, fun _ _ _ e he =>
      ((hl k hk).limit _ _ _ e he).trans (by simp only; omega)⟩
  | calls h =>
    intro k hk
    have hk' : l.Holds k := (h k hk).elim (hl k) fun h => h
    exact ⟨hk'.unrevoked, hk'.limit⟩
  | mint h =>
    refine fun k hk => ⟨fun c hc => ?_, (hl k hk).limit⟩
    by_cases hnew : c = l.nextCred
    · simp [hnew]
    · simp only [Function.update_of_ne hnew]
      exact (hl k hk).unrevoked c hc
  | @renew d deadline hnow hlater hlimit =>
    refine fun k hk => ⟨fun c hc => ?_, (hl k hk).limit⟩
    have hold := (hl k hk).unrevoked c hc
    by_cases hcd : c = d
    · subst hcd
      simpa using hold
    · simpa only [Function.update_of_ne hcd] using hold
  | @revoke d h =>
    refine fun k hk => ⟨fun c hc => ?_, (hl k hk).limit⟩
    have hcd : c ≠ d := by
      rintro rfl
      exact absurd ((h k hk).symm.trans hc) (by rintro ⟨⟩)
    simpa only [Function.update_of_ne hcd] using (hl k hk).unrevoked c hc

/-- A dead credential stays dead. -/
lemma Change.dead (h : Change l l') (hc : l.Dead c) : l'.Dead c := by
  obtain ⟨hlt, hdead⟩ := hc
  cases h with
  | elapse ns => exact ⟨hlt, hdead.imp_right fun he => he.trans (Nat.le_add_right _ _)⟩
  | calls h => exact ⟨hlt, hdead⟩
  | mint h =>
    refine ⟨hlt.trans (Nat.lt_succ_self _), ?_⟩
    simp only [Function.update_of_ne hlt.ne]
    exact hdead
  | @renew d deadline hnow hlater hlimit =>
    refine ⟨hlt, ?_⟩
    by_cases hcd : c = d
    · subst hcd
      rcases hdead with hrevoked | hexpired
      · exact .inl (by simpa using hrevoked)
      · omega
    · simp only [Function.update_of_ne hcd]
      exact hdead
  | @revoke d h =>
    refine ⟨hlt, ?_⟩
    by_cases hcd : c = d
    · subst hcd
      exact .inl (by simp)
    · simp only [Function.update_of_ne hcd]
      exact hdead

/-- Deadlines only grow. -/
lemma Change.later (h : Change l l') (hc : c < l.nextCred) :
    c < l'.nextCred ∧ (l.cred c).expires ≤ (l'.cred c).expires := by
  cases h with
  | elapse ns => exact ⟨hc, le_rfl⟩
  | calls h => exact ⟨hc, le_rfl⟩
  | mint h =>
    refine ⟨hc.trans (Nat.lt_succ_self _), ?_⟩
    simp only [Function.update_of_ne hc.ne, le_refl]
  | @renew d deadline hnow hlater hlimit =>
    refine ⟨hc, ?_⟩
    by_cases hcd : c = d
    · subst hcd
      simpa using hlater.le
    · simp only [Function.update_of_ne hcd, le_refl]
  | @revoke d h =>
    refine ⟨hc, ?_⟩
    by_cases hcd : c = d
    · subst hcd
      simp
    · simp only [Function.update_of_ne hcd, le_refl]

lemma Change.limit (h : Change l l') (hl : ∀ k ∈ l.calls, l.Holds k) (c : ℕ) :
    l'.cfg = l.cfg ∧ l.now ≤ l'.now ∧ ((l'.cred c).expires = (l.cred c).expires ∨
      (l'.cred c).expires ≤ l'.now + l.cfg.maxCredentialTTL) := by
  cases h with
  | elapse ns => exact ⟨rfl, Nat.le_add_right _ _, .inl rfl⟩
  | calls h => exact ⟨rfl, le_rfl, .inl rfl⟩
  | mint h =>
    refine ⟨rfl, le_rfl, ?_⟩
    by_cases hnew : c = l.nextCred
    · subst hnew
      refine .inr ?_
      simpa using (hl _ h).limit _ _ _ _ rfl
    · simp only [Function.update_of_ne hnew, true_or]
  | @renew d deadline hnow hlater hlimit =>
    refine ⟨rfl, le_rfl, ?_⟩
    by_cases hcd : c = d
    · subst hcd
      exact .inr (by simpa using hlimit)
    · simp only [Function.update_of_ne hcd, true_or]
  | @revoke d h =>
    refine ⟨rfl, le_rfl, .inl ?_⟩
    by_cases hcd : c = d
    · subst hcd
      simp
    · simp only [Function.update_of_ne hcd]

lemma Changes.holds (h : Changes l l') (hl : ∀ k ∈ l.calls, l.Holds k) :
    ∀ k ∈ l'.calls, l'.Holds k := by
  induction h with
  | refl => exact hl
  | tail _ hchange ih => exact hchange.holds ih

lemma Changes.dead (h : Changes l l') (hc : l.Dead c) : l'.Dead c := by
  induction h with
  | refl => exact hc
  | tail _ hchange ih => exact hchange.dead ih

lemma Changes.later (h : Changes l l') (hc : c < l.nextCred) :
    c < l'.nextCred ∧ (l.cred c).expires ≤ (l'.cred c).expires := by
  induction h with
  | refl => exact ⟨hc, le_rfl⟩
  | tail _ hchange ih =>
    obtain ⟨hlt, hle⟩ := hchange.later ih.1
    exact ⟨hlt, ih.2.trans hle⟩

lemma Changes.limit (h : Changes l l') (hl : ∀ k ∈ l.calls, l.Holds k) (c : ℕ) :
    l'.cfg = l.cfg ∧ l.now ≤ l'.now ∧ ((l'.cred c).expires = (l.cred c).expires ∨
      (l'.cred c).expires ≤ l'.now + l.cfg.maxCredentialTTL) := by
  induction h with
  | refl => exact ⟨rfl, le_rfl, .inl rfl⟩
  | tail hchanges hchange ih =>
    obtain ⟨hcfg, hnow, hset⟩ := hchange.limit (Changes.holds hchanges hl) c
    obtain ⟨hcfg', hnow', hset'⟩ := ih
    refine ⟨hcfg.trans hcfg', hnow'.trans hnow, ?_⟩
    rw [hcfg'] at hset
    rcases hset with hsame | hset
    · rw [hsame]
      exact hset'.imp_right fun hle => hle.trans (Nat.add_le_add_right hnow _)
    · exact .inr hset

end Leases

/-! ### Every run -/

namespace TurnManager

open Leases

variable {m : TurnManager} {c : ℕ}

lemma authorized_alive (hm : ∀ k ∈ m.calls, m.leases.Holds k) {e : Event}
    (h : m.authorized e = some (c, true)) :
    (m.cred c).revoked = false ∧ m.now < (m.cred c).expires := by
  have hafter {i d : ℕ} {k : Call} {allowed : Bool} (hcall : m.calls[i]? = some k)
      (hk : k.holds d = true) (hd : (d, m.authorizedAfter d allowed) = (c, true)) :
      (m.cred c).revoked = false ∧ m.now < (m.cred c).expires := by
    simp only [Prod.mk.injEq, authorizedAfter, Bool.and_eq_true, decide_eq_true_eq] at hd
    obtain ⟨rfl, -, hlive⟩ := hd
    exact ⟨(hm k (mem_of_getElem? hcall)).unrevoked d hk, hlive⟩
  cases e with
  | ask d =>
    simp only [authorized] at h
    split at h
    · simp at h
    · cases h
  | answer i allowed =>
    simp only [authorized] at h
    split at h
    · rename_i d hcall
      exact hafter hcall (by simp [Call.holds]) (Option.some.inj h)
    · cases h
  | renewLock i d =>
    simp only [authorized] at h
    split at h
    · split at h
      · simp at h
      · cases h
    · cases h
  | renewAnswer i allowed =>
    simp only [authorized] at h
    split at h
    · rename_i d _ _ hcall
      exact hafter hcall (by simp [Call.holds]) (Option.some.inj h)
    · cases h
  | _ => cases h

lemma run_holds (hm : ∀ k ∈ m.calls, m.leases.Holds k) (es : List Event) :
    ∀ k ∈ (run step m es).calls, (run step m es).leases.Holds k :=
  run_invariant (I := fun m : TurnManager => ∀ k ∈ m.calls, m.leases.Holds k)
    (fun m e h => (step_changes m h e).holds h) es hm

/-- A run is a sequence of changes. -/
lemma run_changes (hm : ∀ k ∈ m.calls, m.leases.Holds k) (es : List Event) :
    Changes m.leases (run step m es).leases := by
  induction es generalizing m with
  | nil => exact .refl
  | cons e es ih =>
    have hstep := step_changes m hm e
    exact hstep.trans (ih (hstep.holds hm))

end TurnManager

/-- **Renewal neither revives nor kills wrongly.** A revoked or expired credential is never
authorised again; its deadline never decreases and is set at most `MaxCredentialTTL` ahead; and a
timer revokes it only once the clock has reached the deadline in force. -/
theorem renewal_sound (cfg : TURNConfig) (now : ℕ) (es : List Event) :
    let m := run TurnManager.step { cfg, now } es
    (∀ c < m.nextCred, (m.cred c).revoked = true ∨ (m.cred c).expires ≤ m.now →
      ∀ es' e, (run TurnManager.step m es').authorized e ≠ some (c, true)) ∧
    (∀ c < m.nextCred, ∀ es', (m.cred c).expires ≤ ((run TurnManager.step m es').cred c).expires) ∧
    (∀ c e, ((m.step e).cred c).expires ≠ (m.cred c).expires →
      ((m.step e).cred c).expires ≤ (m.step e).now + cfg.maxCredentialTTL) ∧
    (∀ c, (m.cred c).revoked = false → ((m.step (.expire c)).cred c).revoked = true →
      (m.cred c).expires ≤ m.now) := by
  intro m
  have hfresh : ∀ k ∈ ({ cfg, now } : TurnManager).calls,
      ({ cfg, now } : TurnManager).leases.Holds k := fun _ hk => absurd hk not_mem_nil
  have hm : ∀ k ∈ m.calls, m.leases.Holds k := TurnManager.run_holds hfresh es
  refine ⟨fun c hc hdead es' e hauth => ?_, fun c hc es' => ?_, fun c e hset => ?_,
    fun c hold hnew => ?_⟩
  · have hlater := (TurnManager.run_changes hm es').dead (c := c) ⟨hc, hdead⟩
    obtain ⟨hrevoked, hexpires⟩ := TurnManager.authorized_alive (TurnManager.run_holds hm es') hauth
    rcases hlater.2 with h | h
    · exact absurd (hrevoked.symm.trans h) (by rintro ⟨⟩)
    · exact absurd hexpires (not_lt.mpr h)
  · exact ((TurnManager.run_changes hm es').later hc).2
  · have hcfg : m.cfg = cfg := ((TurnManager.run_changes hfresh es).limit hfresh 0).1
    have hlimit := ((TurnManager.step_changes m hm e).limit hm c).2.2.resolve_left hset
    exact hcfg ▸ hlimit
  · by_contra hlt
    have hsame : m.step (.expire c) = m := by
      have hlive : m.expireCredential c = m := if_pos (.inr (not_le.mp hlt))
      simp only [TurnManager.step, hlive, ite_self]
    rw [hsame, hold] at hnew
    cases hnew

end OhecoBroker.Turn
