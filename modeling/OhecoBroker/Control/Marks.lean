/-
What the handlers of the control server do to the rows of lineages.

* `Call.revokes`: the lineages on which a handler calls `revokeConnections`;
* `Marks`: rows of a given kind are marked as revoked or go, and nothing else happens;
* `revokeAuthSession_marks`, `updateCapabilities_marks`, `logout_marks`: single handlers;
* `Call.exec_marks`: every handler but `connectionSession` only marks or removes, and only rows it
  revokes.
-/
import OhecoBroker.Control.Server

namespace OhecoBroker.Control

open Lib

variable {cfg : Config} {now : ℕ} {db db' : Db} {d : Done}

/-! ### The connections a handler revokes -/

def AdminChange.revokes (db : Db) (c : ConnectionRecord) : AdminChange → Bool
  | .account u => c.tenant = u.id
  | .capabilities u => c.tenant = u.id && (db.tenants.get u.id).any fun t =>
    (u.apply t).status ≠ .active || (!(u.apply t).relayEnabled && c.relay = .force)

def Db.logsOut (db : Db) (c : ConnectionRecord) (hash : Hash) : Bool :=
  match db.loginOf hash with
  | some i => db.restsOn i c
  | none => c.accountHash = hash

/-- The connections on which a handler calls `revokeConnections`. -/
def Call.revokes (db : Db) (c : ConnectionRecord) : Call → Bool
  | .logout hash => hash.any (db.logsOut c)
  | .logoutAuth hash => (hash.bind db.authSessionOf).any fun a => db.restsOn a.id c
  | .deleteAuthSession _ _ i => db.restsOn i c
  | .updateAccount u _ => c.tenant = u.id
  | .adminUpdate t name email status relay ok _ =>
    (adminUpdateTenant t name email status relay ok).toOption.any (·.revokes db c)
  | .adminAction t verb _ => (Control.adminAction t verb).toOption.any (·.revokes db c)
  | .deleteBroker _ _ b | .rotateDevice _ _ b _ | .offlineBroker _ _ b => c.broker = b.id
  | .deleteConnection _ _ i | .deleteSessionLineage _ _ _ i => c.id = i
  | _ => false

/-! ### Marking and removing -/

/-- Only rows that satisfy `R` are marked as revoked or go, and nothing else happens. -/
structure Marks (R : ConnectionRecord → Bool) (C C' : Table ConnectionRecord.id) : Prop where
  back : ∀ c' ∈ C', ∃ c ∈ C, c' = c ∨ ∃ reason, c' = { c with revoked := some reason }
  keep : ∀ c ∈ C, R c = false → c ∈ C'

section Marks

variable {R : ConnectionRecord → Bool} {C C₁ C' : Table ConnectionRecord.id}

lemma Marks.refl : Marks R C C where
  back c' hc' := ⟨c', hc', .inl rfl⟩
  keep _ hc _ := hc

lemma Marks.of_eq (h : C' = C) : Marks R C C' := by
  rw [h]
  exact .refl

lemma Marks.trans (h : Marks R C C₁) (h' : Marks R C₁ C') : Marks R C C' where
  back c' hc' := by
    obtain ⟨c₁, hc₁, hm'⟩ := h'.back c' hc'
    obtain ⟨c, hc, hm⟩ := h.back c₁ hc₁
    refine ⟨c, hc, ?_⟩
    rcases hm' with rfl | ⟨reason, rfl⟩
    · exact hm
    · rcases hm with rfl | ⟨_, rfl⟩
      · exact .inr ⟨reason, rfl⟩
      · exact .inr ⟨reason, rfl⟩
  keep c hc hr := h'.keep c (h.keep c hc hr) hr

/-- `revokeConnections` marks the rows it is called for. -/
lemma Marks.revokeConnections {p : ConnectionRecord → Bool} {reason : Reason}
    (hp : ∀ c, R c = false → p c = false) :
    Marks R db.connections (revokeConnections db p reason).connections where
  back c' hc' := by
    simp only [Control.revokeConnections, Db.updateConnections_connections, Table.mem_update] at hc'
    obtain ⟨c, hc, rfl⟩ := hc'
    refine ⟨c, hc, ?_⟩
    split_ifs
    · exact .inr ⟨reason, rfl⟩
    · exact .inl rfl
  keep c hc hr := by
    simp only [Control.revokeConnections, Db.updateConnections_connections, Table.mem_update]
    exact ⟨c, hc, by simp [hp c hr]⟩

lemma Marks.delete {p : ConnectionRecord → Bool} (hp : ∀ c, R c = false → p c = false) :
    Marks R C (C.delete p) where
  back c' hc' := ⟨c', (Table.mem_delete.mp hc').1, .inl rfl⟩
  keep c hc hr := Table.mem_delete.mpr ⟨hc, hp c hr⟩

end Marks

/-! ### Credentials do not touch connections -/

/-- A new token touches no lineage. -/
lemma issue_connections {t : Secret} {kind : Kind} {tenant : Uuid} {broker session : Option Uuid}
    {version expiry : ℕ} (h : issue cfg db t kind tenant broker session version expiry = .ok db') :
    db'.connections = db.connections := by
  simp only [issue, bind_eq_ok, found_eq_ok, pure_eq_ok] at h
  obtain ⟨T, -, rfl⟩ := h
  rfl

variable {draw : AuthDraw} {p : Principal}

lemma firstCredentials_connections {refreshed : Bool} {tenant : Uuid} {version : ℕ} {reply : Reply}
    (h : firstCredentials cfg db now refreshed draw tenant version = .ok (db', reply)) :
    db'.connections = db.connections := by
  cases refreshed with
  | true =>
    simp only [firstCredentials, if_true, bind_eq_ok, pure_eq_ok, Prod.mk.injEq, Prod.exists] at h
    obtain ⟨db₁, c, hi, rfl, -⟩ := h
    obtain ⟨a, t, A, T, -, -, rfl, -⟩ := issueAuthSession_eq_ok hi
    rfl
  | false =>
    simp only [firstCredentials, Bool.false_eq_true, if_false, bind_eq_ok, pure_eq_ok,
      Prod.mk.injEq] at h
    obtain ⟨db₁, hi, rfl, -⟩ := h
    exact issue_connections hi

lemma issueDevice_connections {t : Secret} {broker : Uuid}
    (h : issueDevice cfg db now t p broker = .ok db') : db'.connections = db.connections := by
  unfold issueDevice at h
  split at h
  · exact issue_connections h
  simp only [bind_eq_ok, pure_eq_ok] at h
  obtain ⟨a, -, db₁, h1, rfl⟩ := h
  show db₁.connections = db.connections
  exact issue_connections h1

lemma refreshAuth_connections {r : RefreshRequest} (h : refreshAuth cfg db now r = .ok d) :
    d.db.connections = db.connections := by
  obtain ⟨id, request, expected, nt, nr, proof, a, -, -, -, -, hcase⟩ := refreshAuth_cases h
  rcases hcase with ⟨-, -, -, rfl⟩ | ⟨-, -, -, -, -, -, -, hr⟩
  · rfl
  · simp only [rotateAuth, bind_eq_ok, found_eq_ok, reject_eq_ok, exists_unit, pure_eq_ok] at hr
    obtain ⟨T, -, -, rfl⟩ := hr
    rfl

lemma sendMessage_connections {hash : Hash} {v : Session} {sequence : ℕ}
    {data : String} (h : sendMessage cfg db now hash p v sequence data = .ok d) :
    d.db.connections = db.connections := by
  simp only [sendMessage, bind_eq_ok, reject_eq_ok, exists_unit] at h
  obtain ⟨-, -, -, h⟩ := h
  split at h
  · simp only [bind_eq_ok, reject_eq_ok, exists_unit, pure_eq_ok] at h
    obtain ⟨-, rfl⟩ := h
    rfl
  · simp only [bind_eq_ok, found_eq_ok, reject_eq_ok, exists_unit, pure_eq_ok] at h
    obtain ⟨-, M, -, rfl⟩ := h
    rfl

lemma heartbeat_connections {hash : Hash} {b : Broker}
    (h : heartbeat cfg db now hash p b = .ok d) : d.db.connections = db.connections := by
  simp only [heartbeat, bind_eq_ok, exists_unit, pure_eq_ok] at h
  obtain ⟨-, db₁, h1, rfl⟩ := h
  unfold extendDevice at h1
  split at h1
  · cases h1
    rfl
  · simp only [bind_eq_ok, pure_eq_ok] at h1
    obtain ⟨a, -, rfl⟩ := h1
    rfl

/-! ### What each handler marks -/

lemma revokeAuthSession_marks {a : AuthSession} {R : ConnectionRecord → Bool}
    (hR : ∀ c, R c = false → db.restsOn a.id c = false) :
    Marks R db.connections (revokeAuthSession db a).1.connections := by
  have h₁ : Marks R db.connections
      (revokeConnections db (db.restsOn a.id) .accountLogout).connections := .revokeConnections hR
  exact h₁

lemma dropBroker_marks {i : Uuid} :
    Marks (fun c => c.broker = i) db.connections (dropBroker db i).connections := by
  have h₁ : Marks (fun c => c.broker = i) db.connections
      (revokeConnections db (fun c => c.broker = i) .brokerRevoked).connections :=
    .revokeConnections fun _ h => h
  exact h₁

lemma updateAccountCredentials_marks {u : AccountUpdate}
    (h : updateAccountCredentials cfg db now u draw = .ok d) :
    Marks (fun c => c.tenant = u.id) db.connections d.db.connections := by
  simp only [updateAccountCredentials, bind_eq_ok, found_eq_ok, reject_eq_ok, exists_unit,
    pure_eq_ok, Prod.exists] at h
  obtain ⟨-, t, -, -, -, db₁, reply, hrep, rfl⟩ := h
  have h₁ : Marks (fun c => c.tenant = u.id) db.connections
      (revokeConnections db (fun c => c.tenant = u.id) .tenantReset).connections :=
    .revokeConnections fun _ h => h
  unfold replacementCredentials at hrep
  split at hrep
  · have he := firstCredentials_connections hrep
    exact h₁.trans (.of_eq he)
  · simp only [Except.ok.injEq, Prod.mk.injEq] at hrep
    obtain ⟨rfl, -⟩ := hrep
    exact h₁

lemma updateCapabilities_marks {u : CapabilityUpdate} (h : updateCapabilities db u = .ok d) :
    Marks (fun c => (AdminChange.capabilities u).revokes db c) db.connections
      d.db.connections := by
  simp only [updateCapabilities, bind_eq_ok, found_eq_ok, reject_eq_ok, exists_unit,
    pure_eq_ok] at h
  obtain ⟨t, ht, -, rfl⟩ := h
  have hid : (u.apply t).id = u.id := (u.apply_id t).trans (Table.key_of_get ht)
  have hR : ∀ c, (AdminChange.capabilities u).revokes db c = false → c.tenant ≠ u.id ∨
      ((u.apply t).status = .active ∧ ((u.apply t).relayEnabled = true ∨ c.relay ≠ .force)) := by
    intro c hr
    simpa only [AdminChange.revokes, ht, Option.any_some, Bool.and_eq_false_iff,
      Bool.or_eq_false_iff, decide_eq_false_iff_not, Bool.not_eq_false', not_not] using hr
  have h₁ : Marks (fun c => (AdminChange.capabilities u).revokes db c) db.connections
      (revokeInactive (db.updateTenants (fun n => n.id = u.id) u.apply u.apply_id)
        (u.apply t)).connections := by
    unfold revokeInactive
    split_ifs with hact
    · exact .refl
    · have hout : ∀ c, (AdminChange.capabilities u).revokes db c = false →
          decide (c.tenant = (u.apply t).id) = false := by
        intro c hr
        rw [hid]
        exact decide_eq_false ((hR c hr).resolve_right fun h => hact h.1)
      have h₂ : Marks (fun c => (AdminChange.capabilities u).revokes db c) db.connections
          (revokeConnections db (fun c => c.tenant = (u.apply t).id) .tenantDisabled).connections :=
        .revokeConnections hout
      exact h₂
  refine h₁.trans ?_
  unfold revokeRelay
  split_ifs with hrel
  · exact .refl
  · refine Marks.revokeConnections
      (p := fun c => c.tenant = (u.apply t).id && c.relay = .force) fun c hr => ?_
    rw [hid, Bool.and_eq_false_iff, decide_eq_false_iff_not, decide_eq_false_iff_not]
    exact (hR c hr).imp_right fun h => h.2.resolve_left hrel

lemma AdminChange.commit_marks {ch : AdminChange} (h : ch.commit cfg db now draw = .ok d) :
    Marks (ch.revokes db ·) db.connections d.db.connections := by
  cases ch with
  | account u => exact updateAccountCredentials_marks h
  | capabilities u => exact updateCapabilities_marks h

lemma revokes_of_ok {x : Except Failure AdminChange} {ch : AdminChange} (hx : x = .ok ch) :
    (fun c => x.toOption.any (·.revokes db c)) = (ch.revokes db ·) := by
  rw [hx]
  rfl

lemma logout_marks {hash : Option Hash} (h : logout db hash = .ok d) :
    Marks (fun c => hash.any (db.logsOut c)) db.connections d.db.connections := by
  simp only [logout, bind_eq_ok, found_eq_ok] at h
  obtain ⟨hash, rfl, h⟩ := h
  cases hl : db.loginOf hash with
  | some i =>
    simp only [hl, bind_eq_ok, found_eq_ok, pure_eq_ok] at h
    obtain ⟨a, ha, rfl⟩ := h
    obtain rfl := Table.key_of_get ha
    refine revokeAuthSession_marks fun c hr => ?_
    simpa only [Option.any_some, Db.logsOut, hl] using hr
  | none =>
    simp only [hl, pure_eq_ok] at h
    obtain rfl := h
    have hR : ∀ c, (some hash).any (db.logsOut c) = false →
        decide (c.accountHash = hash) = false := by
      intro c hr
      simpa only [Option.any_some, Db.logsOut, hl] using hr
    have h₁ : Marks (fun c => (some hash).any (db.logsOut c)) db.connections
        (revokeConnections db (fun c => c.accountHash = hash) .accountLogout).connections :=
      .revokeConnections hR
    exact h₁

/-- A lineage that is closed by name. -/
lemma closed_marks {o : ConnectionRecord} {reason : Reason} :
    Marks (fun c => c.id = o.id) db.connections
      (revokeConnections db (fun r => r.id = o.id) reason).connections :=
  .revokeConnections fun _ h => h

theorem Call.exec_marks {call : Call} (h : call.exec cfg db now = .ok d) :
    Marks (call.revokes db ·) db.connections d.db.connections ∨
      ∃ hash p sid id r, call = .connectionSession hash p sid id r := by
  cases call with
  | register =>
    simp only [exec, registerAccount, bind_eq_ok, found_eq_ok, reject_eq_ok, exists_unit,
      pure_eq_ok, Prod.exists] at h
    obtain ⟨-, -, hash, -, -, T, -, db₁, reply, hf, rfl⟩ := h
    have he := firstCredentials_connections hf
    exact .inl (.of_eq he)
  | accountToken =>
    simp only [exec, Control.accountToken, bind_eq_ok, pure_eq_ok, Prod.exists] at h
    obtain ⟨db₁, reply, hf, rfl⟩ := h
    exact .inl (.of_eq (firstCredentials_connections hf))
  | loginAuth =>
    simp only [exec, Control.loginAuth, bind_eq_ok, found_eq_ok, reject_eq_ok, exists_unit,
      pure_eq_ok, Prod.exists] at h
    obtain ⟨-, -, -, db₁, reply, hf, rfl⟩ := h
    exact .inl (.of_eq (firstCredentials_connections hf))
  | refresh => exact .inl (.of_eq (refreshAuth_connections h))
  | logout => exact .inl (logout_marks h)
  | logoutAuth hash =>
    simp only [exec, Control.logoutAuth, bind_eq_ok, found_eq_ok, pure_eq_ok] at h
    obtain ⟨hash, rfl, a, ha, rfl⟩ := h
    refine .inl (revokeAuthSession_marks fun c hr => ?_)
    have hr : (db.authSessionOf hash).any (fun a => db.restsOn a.id c) = false := hr
    rwa [ha, Option.any_some] at hr
  | deleteAuthSession =>
    simp only [exec, Control.deleteAuthSession, bind_eq_ok, found_eq_ok, reject_eq_ok,
      exists_unit, pure_eq_ok] at h
    obtain ⟨-, a, ha, -, rfl⟩ := h
    obtain rfl := Table.key_of_get ha
    exact .inl (revokeAuthSession_marks fun _ hr => hr)
  | updateAccount => exact .inl (updateAccountCredentials_marks h)
  | adminUpdate =>
    obtain ⟨ch, hc, h⟩ := bind_eq_ok.mp h
    have hm := AdminChange.commit_marks h
    rw [← revokes_of_ok hc] at hm
    exact .inl hm
  | adminAction =>
    obtain ⟨ch, hc, h⟩ := bind_eq_ok.mp h
    have hm := AdminChange.commit_marks h
    rw [← revokes_of_ok hc] at hm
    exact .inl hm
  | registerBroker =>
    simp only [exec, Control.registerBroker, bind_eq_ok, found_eq_ok, reject_eq_ok, exists_unit,
      pure_eq_ok] at h
    obtain ⟨-, -, -, -, B, -, db₁, h1, rfl⟩ := h
    have he := issueDevice_connections h1
    exact .inl (.of_eq he)
  | renameBroker =>
    simp only [exec, Control.renameBroker, bind_eq_ok, reject_eq_ok, exists_unit, pure_eq_ok] at h
    obtain ⟨-, -, -, rfl⟩ := h
    exact .inl .refl
  | deleteBroker hash p b =>
    simp only [exec, Control.deleteBroker, bind_eq_ok, exists_unit, pure_eq_ok] at h
    obtain ⟨-, rfl⟩ := h
    have h₁ : Marks (fun c => c.broker = b.id) db.connections
        (revokeConnections db (fun c => c.broker = b.id) .brokerDeleted).connections :=
      .revokeConnections fun _ h => h
    exact .inl (h₁.trans (.delete fun _ h => h))
  | rotateDevice =>
    simp only [exec, Control.rotateDevice, bind_eq_ok, found_eq_ok, reject_eq_ok, exists_unit,
      pure_eq_ok] at h
    obtain ⟨-, live, -, -, db₁, h1, rfl⟩ := h
    have he := issueDevice_connections h1
    exact .inl (dropBroker_marks.trans (.of_eq he))
  | heartbeat => exact .inl (.of_eq (heartbeat_connections h))
  | offlineBroker =>
    simp only [exec, Control.offlineBroker, bind_eq_ok, exists_unit, pure_eq_ok] at h
    obtain ⟨-, rfl⟩ := h
    have hm := @dropBroker_marks db
    exact .inl hm
  | createSession =>
    simp only [exec, Control.createSession, bind_eq_ok, found_eq_ok, reject_eq_ok, exists_unit,
      pure_eq_ok] at h
    obtain ⟨-, live, -, -, -, -, -, db₁, h1, rfl⟩ := h
    obtain ⟨S, T, -, -, rfl⟩ := openSession_eq_ok h1
    exact .inl .refl
  | sessionHeartbeat =>
    simp only [exec, Control.sessionHeartbeat, bind_eq_ok, found_eq_ok, reject_eq_ok, exists_unit,
      pure_eq_ok] at h
    obtain ⟨-, -, b, -, -, s, -, -, rfl⟩ := h
    exact .inl .refl
  | deleteSession =>
    simp only [exec, Control.deleteSession, bind_eq_ok, exists_unit, pure_eq_ok] at h
    obtain ⟨-, rfl⟩ := h
    exact .inl .refl
  | sendMessage => exact .inl (.of_eq (sendMessage_connections h))
  | approveSession =>
    simp only [exec, Control.approveSession, bind_eq_ok, exists_unit, pure_eq_ok] at h
    obtain ⟨-, -, -, rfl⟩ := h
    exact .inl .refl
  | connectionSession hash p sid id r => exact .inr ⟨hash, p, sid, id, r, rfl⟩
  | deleteConnection =>
    simp only [exec, Control.deleteConnection, bind_eq_ok, found_eq_ok, reject_eq_ok, exists_unit,
      pure_eq_ok] at h
    obtain ⟨-, o, ho, -, rfl⟩ := h
    obtain rfl := Table.key_of_get ho
    exact .inl closed_marks
  | deleteSessionLineage =>
    simp only [exec, Control.deleteSessionLineage, bind_eq_ok, found_eq_ok, reject_eq_ok,
      exists_unit, pure_eq_ok] at h
    obtain ⟨-, o, ho, -, rfl⟩ := h
    obtain rfl := Table.key_of_get ho
    exact .inl closed_marks

end OhecoBroker.Control
