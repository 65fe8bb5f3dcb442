/-
Who sits at a peer that only takes flows of the other side, and what each one may do: the table of
flows without their memory, with a book of what was accepted, started, resolved and connected so
far.

* `Seat`, `Book`, `Roster`: the flows, the book and the peer;
* `Seat.Sound`, `Book.Sound`, `Roster.Sound`: what the flags of a flow say about its past, that
  every resolution and every `connect` goes back to one accepted `OPEN`, and that the flows that
  count are within the limit and have distinct ids;
* `Roster.Sound.enter`, `Roster.Sound.leave`, `Roster.Sound.accept`, `Roster.Sound.start`,
  `Roster.Sound.connect`, `Roster.Sound.attach`: what keeps it so.
-/
import OhecoBroker.Flows.Moves
import OhecoBroker.Lib.Shares

namespace OhecoBroker.Flows

open Lib List
open Mapping

/-! ### Flows without their memory -/

/-- A flow without its memory. -/
structure Seat where
  key : ℕ
  proof : Bool
  replyReady : Bool
  flow : Flow

/-- What was accepted, started, resolved and connected so far. -/
structure Book where
  nextKey : ℕ
  verified : Bool
  opens : List (ℕ × Bool)
  resumes : List ℕ
  started : List ℕ
  resolutions : List ℕ
  connects : List ℕ
  attached : List (Flow × ℕ)

/-- A peer without the memory of its flows. -/
structure Roster where
  peer : Peer
  seats : List Seat
  jobs : List (ℕ × JobState)
  book : Book

def Entry.seat (r : Entry) : Seat := ⟨r.key, r.proof, r.proofReplyReady, r.flow⟩

/-- Who waits, and how far. -/
def Store.tasks (s : Store) : List (ℕ × JobState) := s.jobs.map fun j => (j.owner, j.state)

def Table.book (t : Table) : Book :=
  { nextKey := t.nextKey, verified := t.verified, opens := t.opens, resumes := t.resumes
    started := t.started, resolutions := t.resolutions, connects := t.connects
    attached := t.attached }

def Table.roster (t : Table) : Roster := ⟨t.peer, t.flows.map Entry.seat, t.store.tasks, t.book⟩

/-- A flow that counts: not the proof stream, not a placeholder, not dead. -/
def Seat.live (s : Seat) : Bool := !s.proof && !s.flow.transient && s.flow.phase != .dead

def liveIds (seats : List Seat) : List UInt64 := (seats.filter Seat.live).map fun s => s.flow.id

def Book.openKeys (b : Book) : List ℕ := b.opens.map Prod.fst

/-! ### Soundness -/

def kindOf (f : Flow) : ℕ := field f.control 4 1

/-- What the flags of a flow say about its past. -/
structure Seat.Sound (b : Book) (s : Seat) : Prop where
  key : s.key < b.nextKey
  isLocal : s.flow.isLocal = false
  pendingOpen : s.flow.pendingOpen = false
  dead : s.flow.phase = .dead → s.flow.fd = false
  placeholder : s.flow.transient = true → s.flow.fd = false ∧ s.flow.phase ≠ .resolving
  odd : s.proof = false → s.flow.transient = false → s.flow.id.toNat % 2 = 1
  header : s.proof = false → s.flow.phase = .control → s.flow.controlNeed = controlHeader →
    s.flow.transient = true ∧ s.key ∉ b.openKeys ∧ s.key ∉ b.resumes
  body : s.proof = false → s.flow.phase = .control → s.flow.controlNeed ≠ controlHeader →
    controlHeader ≤ s.flow.control.length ∧
      ((kindOf s.flow = ControlKind.open.code ∧ s.flow.transient = false ∧ s.key ∈ b.openKeys) ∨
        (kindOf s.flow = ControlKind.resume.code ∧ s.flow.transient = true))
  started : s.key ∈ b.started → s.flow.phase ≠ .control
  connected : s.key ∈ b.connects → s.flow.phase ≠ .control ∧ s.flow.phase ≠ .resolving
  replied : s.proof = true → s.replyReady = true → s.flow.phase ≠ .dead → b.verified = true

/-- Every resolution and every `connect` goes back to one accepted `OPEN`. -/
structure Book.Sound (b : Book) (jobs : List (ℕ × JobState)) : Prop where
  flags : ∀ x ∈ b.opens, x.2 = true
  opens : b.openKeys.Nodup
  known : ∀ k ∈ b.openKeys, k < b.nextKey
  resumes : ∀ k ∈ b.resumes, k < b.nextKey ∧ k ∉ b.openKeys
  started : b.started.Nodup ∧ b.started ⊆ b.openKeys
  owners : (jobs.map Prod.fst).Nodup ∧ jobs.map Prod.fst ⊆ b.started
  taken : ∀ j ∈ jobs, j.2 = .queued ↔ j.1 ∉ b.resolutions
  resolutions : b.resolutions.Nodup ∧ b.resolutions ⊆ b.started
  connects : b.connects.Nodup ∧ b.connects ⊆ b.resolutions
  attached : ∀ x ∈ b.attached, x.1.suspended = true ∧ x.1.wireVersion = 2 ∧
    x.1.protocol = protoTcp ∧ x.1.fd = true ∧ x.2 < x.1.graceDeadlineUs

/-- The peer takes only flows of the other side. -/
structure Roster.Sound (m : Roster) : Prop where
  server : m.peer.isServer = true
  verified : m.peer.ready = true → m.book.verified = true
  keys : (m.seats.map Seat.key).Nodup
  seats : ∀ s ∈ m.seats, s.Sound m.book
  count : (liveIds m.seats).length ≤ mLimit m.peer.maxFlows 128 512
  ids : (liveIds m.seats).Nodup
  book : m.book.Sound m.jobs

variable {m : Roster} {b : Book} {s q : Seat} {f : Flow} {k : ℕ}

/-! ### A flow that goes on -/

lemma kindOf_longer {g : Flow} (h : f.control <+: g.control)
    (hlen : controlHeader ≤ f.control.length) : kindOf g = kindOf f := by
  obtain ⟨rest, hrest⟩ := h
  simp only [controlHeader] at hlen
  simp only [kindOf, field, ← hrest]
  rw [drop_append_of_le_length (by omega), take_append_of_le_length (by simp; omega)]

/-- A flow that goes on keeps its seat sound. -/
lemma Seat.Sound.carried (h : s.Sound b) (hf : Carried s.flow f) :
    Seat.Sound b { s with flow := f } := by
  have hcontrol : f.phase = .control → s.flow.phase = .control := fun hc =>
    (hf.phase.resolve_right fun hn => hn.1 hc).symm.trans hc
  have hresolving : f.phase = .resolving → s.flow.phase = .resolving := fun hc =>
    (hf.phase.resolve_right fun hn => hn.2 hc).symm.trans hc
  refine
    { key := h.key
      isLocal := hf.isLocal.trans h.isLocal
      pendingOpen := ?_
      dead := fun hd => ?_
      placeholder := fun ht => ?_
      odd := fun hp ht => ?_
      header := fun hp hc hn => ?_
      body := fun hp hc hn => ?_
      started := fun hk hc => h.started hk (hcontrol hc)
      connected := fun hk =>
        ⟨fun hc => (h.connected hk).1 (hcontrol hc), fun hc => (h.connected hk).2 (hresolving hc)⟩
      replied := fun hp hr hlive => h.replied hp hr fun hd => ?_ }
  · rw [Bool.eq_false_iff]
    exact fun hp => absurd (hf.pendingOpen hp) (by simp [h.pendingOpen])
  · rw [Bool.eq_false_iff]
    intro hfd
    -- A flow with a socket was neither dead nor a placeholder before.
    rcases hf.closed hd hfd with hdead | ht
    · exact absurd (hf.fd hfd) (by simp [h.dead hdead])
    · exact absurd (hf.fd hfd) (by simp [(h.placeholder ht).1])
  · obtain ⟨hfd, hph⟩ := h.placeholder (hf.transient ▸ ht)
    refine ⟨?_, fun hr => hph (hresolving hr)⟩
    rw [Bool.eq_false_iff]
    exact fun hg => absurd (hf.fd hg) (by simp [hfd])
  · have hold : s.flow.transient = false := hf.transient ▸ ht
    simp only [hf.id hold]
    exact h.odd hp hold
  · simp only [hf.transient]
    exact h.header hp (hcontrol hc) ((hf.need hc).symm.trans hn)
  · obtain ⟨hlen, hkind⟩ := h.body hp (hcontrol hc) fun hn' => hn ((hf.need hc).trans hn')
    have hpre := hf.control hc
    refine ⟨hlen.trans hpre.length_le, ?_⟩
    simp only [kindOf_longer hpre hlen, hf.transient]
    exact hkind
  · rcases hf.dead hd with hdead | hfd
    · exact hlive hdead
    · exact absurd hfd (by simp [h.dead hd])

lemma Seat.Sound.live_of_carried (h : s.Sound b) (hf : Carried s.flow f)
    (hl : Seat.live { s with flow := f } = true) : s.live = true ∧ f.id = s.flow.id := by
  simp only [Seat.live, Bool.and_eq_true, Bool.not_eq_true', bne_iff_ne] at hl ⊢
  obtain ⟨⟨hp, ht⟩, hlive⟩ := hl
  have hold : s.flow.transient = false := hf.transient ▸ ht
  refine ⟨⟨⟨hp, hold⟩, fun hd => ?_⟩, hf.id hold⟩
  rcases hf.dead hd with hdead | hfd
  · exact hlive hdead
  · exact absurd hfd (by simp [h.dead hd])

/-! ### One seat changes -/

lemma Roster.Sound.sound_of (h : m.Sound) (hk : m.seats[k]? = some s) : s.Sound m.book :=
  h.seats s (mem_of_getElem? hk)

lemma Roster.Sound.others (h : m.Sound) (hk : m.seats[k]? = some s)
    {q' : Seat} (hq : q ∈ m.seats.set k q') : q = q' ∨ (q ∈ m.seats ∧ q.key ≠ s.key) := by
  obtain ⟨i, hi⟩ := mem_iff_getElem?.mp hq
  by_cases hik : i = k
  · subst hik
    have hset : (m.seats.set i q')[i]? = some q' := by
      obtain ⟨hlt, -⟩ := List.getElem?_eq_some_iff.mp hk
      simp [hlt]
    exact .inl (Option.some.inj (hi.symm.trans hset))
  rw [List.getElem?_set_ne (Ne.symm hik)] at hi
  refine .inr ⟨mem_of_getElem? hi, fun hkey => hik ?_⟩
  have hik' : (m.seats.map Seat.key)[i]? = (m.seats.map Seat.key)[k]? := by
    simp [hi, hk, hkey]
  have hlt : i < (m.seats.map Seat.key).length := by
    simpa using (List.getElem?_eq_some_iff.mp hi).1
  exact (List.getElem?_inj hlt h.keys).mp hik'

lemma Roster.Sound.keys_set (h : m.Sound) (hk : m.seats[k]? = some s) (hkey : q.key = s.key) :
    ((m.seats.set k q).map Seat.key).Nodup := by
  obtain ⟨hlt, hs⟩ := List.getElem?_eq_some_iff.mp hk
  have hsame : (m.seats.set k q).map Seat.key = m.seats.map Seat.key := by
    refine ext_getElem? fun i => ?_
    by_cases hik : i = k
    · subst hik
      simp [hlt, hs, hkey]
    · rw [map_set, List.getElem?_set_ne (Ne.symm hik)]
  rw [hsame]
  exact h.keys

structure Book.Same (b b' : Book) (key : ℕ) : Prop where
  nextKey : b.nextKey ≤ b'.nextKey
  verified : b.verified = true → b'.verified = true
  opens : key ∈ b'.openKeys ↔ key ∈ b.openKeys
  resumes : key ∈ b'.resumes ↔ key ∈ b.resumes
  started : key ∈ b'.started ↔ key ∈ b.started
  connects : key ∈ b'.connects ↔ key ∈ b.connects

variable {b' : Book} {js : List (ℕ × JobState)}

lemma Seat.Sound.same (h : s.Sound b) (hb : b.Same b' s.key) : s.Sound b' :=
  { h with
    key := h.key.trans_le hb.nextKey
    header := by
      rw [hb.opens, hb.resumes]
      exact h.header
    body := by
      rw [hb.opens]
      exact h.body
    started := fun hk => h.started (hb.started.mp hk)
    connected := fun hk => h.connected (hb.connects.mp hk)
    replied := fun hp hr hl => hb.verified (h.replied hp hr hl) }

lemma Roster.Sound.replace (h : m.Sound) (hk : m.seats[k]? = some s)
    (hkey : q.key = s.key) (hq : q.Sound b')
    (hsame : ∀ key, key ≠ s.key → m.book.Same b' key)
    (hver : m.book.verified = true → b'.verified = true)
    (hcount : (liveIds (m.seats.set k q)).length ≤ mLimit m.peer.maxFlows 128 512)
    (hids : (liveIds (m.seats.set k q)).Nodup) (hb : b'.Sound js) :
    Roster.Sound { m with seats := m.seats.set k q, jobs := js, book := b' } where
  server := h.server
  verified hr := hver (h.verified hr)
  keys := h.keys_set hk hkey
  seats x hx := by
    rcases h.others hk hx with rfl | ⟨hx, hne⟩
    · exact hq
    · exact (h.seats x hx).same (hsame x.key hne)
  count := hcount
  ids := hids
  book := hb

lemma Book.Same.refl (b : Book) (key : ℕ) : b.Same b key :=
  ⟨le_rfl, fun h => h, .rfl, .rfl, .rfl, .rfl⟩

lemma Roster.Sound.seat (h : m.Sound) (hk : m.seats[k]? = some s) (hf : Carried s.flow f) :
    Roster.Sound { m with seats := m.seats.set k { s with flow := f } } := by
  have hs := h.sound_of hk
  have hsub : List.Sublist (liveIds (m.seats.set k { s with flow := f })) (liveIds m.seats) :=
    filter_map_set_sublist hk fun hl => hs.live_of_carried hf hl
  exact h.replace hk rfl (hs.carried hf) (fun _ _ => .refl _ _) (fun hv => hv)
    (hsub.length_le.trans h.count) (h.ids.sublist hsub) h.book

/-! ### Flows come and go -/

/-- A flow that does not count takes a new seat. -/
lemma Roster.Sound.enter (h : m.Sound) (hkey : s.key = m.book.nextKey)
    (hs : s.Sound { m.book with nextKey := m.book.nextKey + 1 }) (hl : s.live = false) :
    Roster.Sound { m with
      seats := s :: m.seats, book := { m.book with nextKey := m.book.nextKey + 1 } } := by
  have hids : liveIds (s :: m.seats) = liveIds m.seats := by simp [liveIds, hl]
  refine
    { server := h.server
      verified := h.verified
      keys := ?_
      seats := forall_mem_cons.mpr ⟨hs, fun q hq => ?_⟩
      count := hids ▸ h.count
      ids := hids ▸ h.ids
      book := ?_ }
  · rw [map_cons, nodup_cons]
    refine ⟨fun hmem => ?_, h.keys⟩
    obtain ⟨q, hq, hqk⟩ := mem_map.mp hmem
    have hlt := (h.seats q hq).key
    omega
  · exact (h.seats q hq).same ⟨Nat.le_succ _, fun hv => hv, .rfl, .rfl, .rfl, .rfl⟩
  exact
    { h.book with
      known := fun k hk => (h.book.known k hk).trans (Nat.lt_succ_self _)
      resumes := fun k hk =>
        ⟨(h.book.resumes k hk).1.trans (Nat.lt_succ_self _), (h.book.resumes k hk).2⟩ }

lemma Roster.Sound.leave (h : m.Sound) {seats : List Seat} (hsub : List.Sublist seats m.seats) :
    Roster.Sound { m with seats } := by
  have hids : List.Sublist (liveIds seats) (liveIds m.seats) := (hsub.filter _).map _
  exact
    { server := h.server
      verified := h.verified
      keys := h.keys.sublist (hsub.map _)
      seats := fun q hq => h.seats q (hsub.subset hq)
      count := hids.length_le.trans h.count
      ids := h.ids.sublist hids
      book := h.book }

lemma Roster.Sound.jobs (h : m.Sound) (hjs : m.book.Sound js) :
    Roster.Sound { m with jobs := js } :=
  ⟨h.server, h.verified, h.keys, h.seats, h.count, h.ids, hjs⟩

/-- The peer may stop, fail and detach. -/
lemma Roster.Sound.peer (h : m.Sound) {p : Peer} (hp : Steady m.peer p) :
    Roster.Sound { m with peer := p } where
  server := hp.isServer.trans h.server
  verified hr := h.verified (hp.ready hr)
  __ := h
  count := by
    rw [show ({ m with peer := p } : Roster).peer.maxFlows = m.peer.maxFlows from hp.maxFlows]
    exact h.count

/-! ### Headers -/

lemma Roster.Sound.accept (h : m.Sound) (hk : m.seats[k]? = some s) (hp : s.proof = false)
    (hc : s.flow.phase = .control) (hlen : s.flow.control.length = controlHeader)
    (hn : s.flow.controlNeed = controlHeader) (hkind : kindOf s.flow = ControlKind.open.code)
    {flag : Bool} (hflag : flag = true)
    (hf : f = { s.flow with
      transient := false, id := f.id, protocol := f.protocol, wireVersion := f.wireVersion
      controlNeed := f.controlNeed })
    (hneed : controlHeader < f.controlNeed) (hodd : f.id.toNat % 2 = 1)
    (hnew : f.id ∉ liveIds m.seats)
    (hroom : (liveIds m.seats).length < mLimit m.peer.maxFlows 128 512) :
    Roster.Sound { m with
      seats := m.seats.set k { s with flow := f }
      book := { m.book with opens := m.book.opens ++ [(s.key, flag)] } } := by
  have hs := h.sound_of hk
  obtain ⟨htransient, hopen, hresume⟩ := hs.header hp hc hn
  have hphase : f.phase = .control := by rw [hf]; exact hc
  have hcontrol : f.control = s.flow.control := by rw [hf]
  have htrans : f.transient = false := by rw [hf]
  have hperm : List.Perm (liveIds (m.seats.set k { s with flow := f })) (f.id :: liveIds m.seats) :=
    filter_map_set_perm hk (by simp [Seat.live, htransient])
      (by simp [Seat.live, hp, htrans, hphase])
  have hkeys : Book.openKeys { m.book with opens := m.book.opens ++ [(s.key, flag)] } =
      m.book.openKeys ++ [s.key] := by
    simp [Book.openKeys]
  refine h.replace hk rfl ?_ (fun key hne => ?_) (fun hv => hv) ?_ ?_ ?_
  · exact
      { key := hs.key
        isLocal := by rw [hf]; exact hs.isLocal
        pendingOpen := by rw [hf]; exact hs.pendingOpen
        dead := fun hd => absurd (hphase.symm.trans hd) (by rintro ⟨⟩)
        placeholder := fun ht => absurd (htrans.symm.trans ht) (by rintro ⟨⟩)
        odd := fun _ _ => hodd
        header := fun _ _ hn' => absurd hn' hneed.ne'
        body := fun _ _ _ => by
          rw [hkeys]
          refine ⟨by rw [hcontrol, hlen], .inl ⟨?_, htrans, by simp⟩⟩
          rw [kindOf, hcontrol]
          exact hkind
        started := fun hst => absurd hc (hs.started hst)
        connected := fun hco => absurd hc (hs.connected hco).1
        replied := fun hp' => absurd (hp.symm.trans hp') (by rintro ⟨⟩) }
  · exact ⟨le_rfl, fun hv => hv, by rw [hkeys]; simp [hne], .rfl, .rfl, .rfl⟩
  · rw [hperm.length_eq, length_cons]
    omega
  · rw [hperm.nodup_iff, nodup_cons]
    exact ⟨hnew, h.ids⟩
  · refine
      { h.book with
        flags := fun x hx => ?_
        opens := ?_
        known := fun x hx => ?_
        resumes := fun x hx => ?_
        started := ?_ }
    · rcases mem_append.mp hx with hx | hx
      · exact h.book.flags x hx
      · rw [mem_singleton.mp hx]
        exact hflag
    · rw [hkeys]
      refine List.Nodup.append h.book.opens (nodup_singleton _) ?_
      simpa using hopen
    · rw [hkeys] at hx
      rcases mem_append.mp hx with hx | hx
      · exact h.book.known x hx
      · rw [mem_singleton.mp hx]
        exact hs.key
    · rw [hkeys, mem_append, mem_singleton, not_or]
      refine ⟨(h.book.resumes x hx).1, (h.book.resumes x hx).2, ?_⟩
      rintro rfl
      exact hresume hx
    · rw [hkeys]
      exact ⟨h.book.started.1, List.Subset.trans h.book.started.2 (subset_append_left _ _)⟩

lemma Roster.Sound.resume (h : m.Sound) (hk : m.seats[k]? = some s) (hp : s.proof = false)
    (hc : s.flow.phase = .control) (hlen : s.flow.control.length = controlHeader)
    (hn : s.flow.controlNeed = controlHeader) (hkind : kindOf s.flow = ControlKind.resume.code)
    (hf : f = { s.flow with
      id := f.id, protocol := f.protocol, wireVersion := f.wireVersion
      controlNeed := f.controlNeed })
    (hneed : controlHeader < f.controlNeed) :
    Roster.Sound { m with
      seats := m.seats.set k { s with flow := f }
      book := { m.book with resumes := m.book.resumes ++ [s.key] } } := by
  have hs := h.sound_of hk
  obtain ⟨htransient, hopen, hresume⟩ := hs.header hp hc hn
  have hphase : f.phase = .control := by rw [hf]; exact hc
  have hcontrol : f.control = s.flow.control := by rw [hf]
  have htrans : f.transient = true := by rw [hf]; exact htransient
  have hsub : List.Sublist (liveIds (m.seats.set k { s with flow := f })) (liveIds m.seats) :=
    filter_map_set_sublist hk fun hl => by simp [Seat.live, htrans] at hl
  refine h.replace hk rfl ?_ (fun key hne => ?_) (fun hv => hv) (hsub.length_le.trans h.count)
    (h.ids.sublist hsub) ?_
  · exact
      { key := hs.key
        isLocal := by rw [hf]; exact hs.isLocal
        pendingOpen := by rw [hf]; exact hs.pendingOpen
        dead := fun hd => absurd (hphase.symm.trans hd) (by rintro ⟨⟩)
        placeholder := fun _ => ⟨by rw [hf]; exact (hs.placeholder htransient).1, by simp [hphase]⟩
        odd := fun _ ht => absurd (htrans.symm.trans ht) (by rintro ⟨⟩)
        header := fun _ _ hn' => absurd hn' hneed.ne'
        body := fun _ _ _ => by
          refine ⟨by rw [hcontrol, hlen], .inr ⟨?_, htrans⟩⟩
          rw [kindOf, hcontrol]
          exact hkind
        started := fun hst => absurd hc (hs.started hst)
        connected := fun hco => absurd hc (hs.connected hco).1
        replied := fun hp' => absurd (hp.symm.trans hp') (by rintro ⟨⟩) }
  · exact ⟨le_rfl, fun hv => hv, .rfl, by simp [hne], .rfl, .rfl⟩
  refine { h.book with resumes := fun x hx => ?_ }
  rcases mem_append.mp hx with hx | hx
  · exact h.book.resumes x hx
  · rw [mem_singleton.mp hx]
    exact ⟨hs.key, hopen⟩

/-! ### Targets -/

lemma Roster.Sound.start (h : m.Sound) (hk : m.seats[k]? = some s) (hp : s.proof = false)
    (hc : s.flow.phase = .control) (hn : s.flow.controlNeed ≠ controlHeader)
    (hkind : kindOf s.flow ≠ ControlKind.resume.code) :
    Roster.Sound { m with
      seats := m.seats.set k { s with flow := { s.flow with phase := .resolving } }
      jobs := (s.key, .queued) :: m.jobs
      book := { m.book with started := m.book.started ++ [s.key] } } := by
  have hs := h.sound_of hk
  obtain ⟨-, hbody⟩ := hs.body hp hc hn
  obtain ⟨-, htransient, hopen⟩ := hbody.resolve_right fun hr => hkind hr.1
  have hstarted : s.key ∉ m.book.started := fun hst => hs.started hst hc
  have hsub : List.Sublist
      (liveIds (m.seats.set k { s with flow := { s.flow with phase := .resolving } }))
      (liveIds m.seats) :=
    filter_map_set_sublist hk fun _ => ⟨by simp [Seat.live, hp, htransient, hc], rfl⟩
  refine h.replace hk rfl ?_ (fun key hne => ?_) (fun hv => hv) (hsub.length_le.trans h.count)
    (h.ids.sublist hsub) ?_
  · exact
      { key := hs.key
        isLocal := hs.isLocal
        pendingOpen := hs.pendingOpen
        dead := (by rintro ⟨⟩)
        placeholder := fun ht => absurd (htransient.symm.trans ht) (by rintro ⟨⟩)
        odd := hs.odd
        header := fun _ hc' => absurd hc' (by rintro ⟨⟩)
        body := fun _ hc' => absurd hc' (by rintro ⟨⟩)
        started := fun _ => (by rintro ⟨⟩)
        connected := fun hco => absurd hc (hs.connected hco).1
        replied := fun hp' => absurd (hp.symm.trans hp') (by rintro ⟨⟩) }
  · exact ⟨le_rfl, fun hv => hv, .rfl, .rfl, by simp [hne], .rfl⟩
  have hgrow : m.book.started ⊆ m.book.started ++ [s.key] := subset_append_left _ _
  refine
    { h.book with
      started := ⟨?_, ?_⟩
      owners := ⟨?_, ?_⟩
      taken := ?_
      resolutions := ⟨h.book.resolutions.1, List.Subset.trans h.book.resolutions.2 hgrow⟩ }
  · exact List.Nodup.append h.book.started.1 (nodup_singleton _) (by simpa using hstarted)
  · exact append_subset.mpr ⟨h.book.started.2, cons_subset.mpr ⟨hopen, nil_subset _⟩⟩
  · rw [map_cons, nodup_cons]
    exact ⟨fun ho => hstarted (h.book.owners.2 ho), h.book.owners.1⟩
  · rw [map_cons]
    exact cons_subset.mpr ⟨by simp, List.Subset.trans h.book.owners.2 hgrow⟩
  · refine forall_mem_cons.mpr ⟨?_, h.book.taken⟩
    simpa using fun hr => hstarted (h.book.resolutions.2 hr)

/-- A target is connected once its resolution is done. -/
lemma Roster.Sound.connect (h : m.Sound) (hk : m.seats[k]? = some s)
    (hr : s.flow.phase = .resolving) (hjob : (s.key, JobState.done) ∈ m.jobs)
    (hf : Connected s.flow f) :
    Roster.Sound { m with
      seats := m.seats.set k { s with flow := f }
      book := { m.book with connects := m.book.connects ++ [s.key] } } := by
  have hs := h.sound_of hk
  have htransient : s.flow.transient = false := by
    rw [Bool.eq_false_iff]
    exact fun ht => (hs.placeholder ht).2 hr
  have hresolved : s.key ∈ m.book.resolutions := by
    by_contra hres
    exact absurd ((h.book.taken _ hjob).mpr hres) (by rintro ⟨⟩)
  have hnew : s.key ∉ m.book.connects := fun hco => (hs.connected hco).2 hr
  have hcontrol : f.phase ≠ .control := by rcases hf.phase with hp | hp <;> simp [hp]
  have hsub : List.Sublist (liveIds (m.seats.set k { s with flow := f })) (liveIds m.seats) := by
    refine filter_map_set_sublist hk fun hl => ⟨?_, hf.id⟩
    simp only [Seat.live, Bool.and_eq_true, hf.transient] at hl ⊢
    exact ⟨hl.1, by simp [hr]⟩
  refine h.replace hk rfl ?_ (fun key hne => ?_) (fun hv => hv) (hsub.length_le.trans h.count)
    (h.ids.sublist hsub) ?_
  · exact
      { key := hs.key
        isLocal := hf.isLocal.trans hs.isLocal
        pendingOpen := hf.pendingOpen.trans hs.pendingOpen
        dead := fun hd => by rcases hf.phase with hp | hp <;> simp [hp] at hd
        placeholder := fun ht => absurd ((hf.transient.trans htransient).symm.trans ht)
          (by rintro ⟨⟩)
        odd := fun hp _ => by
          simp only [hf.id]
          exact hs.odd hp htransient
        header := fun _ hc => absurd hc hcontrol
        body := fun _ hc => absurd hc hcontrol
        started := fun _ => hcontrol
        connected := fun _ => ⟨hcontrol, by rcases hf.phase with hp | hp <;> simp [hp]⟩
        replied := fun hp hrep _ => hs.replied hp hrep (by simp [hr]) }
  · exact ⟨le_rfl, fun hv => hv, .rfl, .rfl, .rfl, by simp [hne]⟩
  refine { h.book with connects := ⟨?_, ?_⟩ }
  · exact List.Nodup.append h.book.connects.1 (nodup_singleton _) (by simpa using hnew)
  · exact append_subset.mpr
      ⟨h.book.connects.2, cons_subset.mpr ⟨hresolved, nil_subset _⟩⟩

/-- A queued job is taken once. -/
lemma Book.Sound.take (h : b.Sound js) {owner : ℕ} (hq : (owner, JobState.queued) ∈ js) :
    Book.Sound { b with resolutions := b.resolutions ++ [owner] }
      (js.map fun j => if j.1 = owner then (j.1, .running) else j) := by
  have hnew : owner ∉ b.resolutions := (h.taken _ hq).mp rfl
  have howners : (js.map fun j => if j.1 = owner then (j.1, JobState.running) else j).map Prod.fst =
      js.map Prod.fst := by
    rw [map_map]
    refine map_congr_left fun j _ => ?_
    simp only [Function.comp_apply]
    split <;> rfl
  have hstarted : owner ∈ b.started := h.owners.2 (mem_map.mpr ⟨_, hq, rfl⟩)
  refine
    { h with
      owners := howners ▸ h.owners
      taken := fun j hj => ?_
      resolutions := ⟨?_, ?_⟩
      connects := ⟨h.connects.1, List.Subset.trans h.connects.2 (subset_append_left _ _)⟩ }
  · obtain ⟨i, hi, rfl⟩ := mem_map.mp hj
    have htaken := h.taken i hi
    by_cases howner : i.1 = owner
    · simp [howner]
    · simp [howner, htaken]
  · exact List.Nodup.append h.resolutions.1 (nodup_singleton _) (by simpa using hnew)
  · exact append_subset.mpr
      ⟨h.resolutions.2, cons_subset.mpr ⟨hstarted, nil_subset _⟩⟩

lemma Book.Sound.done (h : b.Sound js) (owner : ℕ) :
    b.Sound (js.map fun j => if j.1 = owner ∧ j.2 = .running then (j.1, .done) else j) := by
  have howners : (js.map fun j =>
      if j.1 = owner ∧ j.2 = .running then (j.1, JobState.done) else j).map Prod.fst =
      js.map Prod.fst := by
    rw [map_map]
    refine map_congr_left fun j _ => ?_
    simp only [Function.comp_apply]
    split <;> rfl
  refine { h with owners := howners ▸ h.owners, taken := fun j hj => ?_ }
  obtain ⟨i, hi, rfl⟩ := mem_map.mp hj
  have htaken := h.taken i hi
  split
  · rename_i hrun
    simpa [hrun.2] using htaken
  · exact htaken

lemma Book.Sound.reap {js' : List (ℕ × JobState)} (h : b.Sound js) (hsub : List.Sublist js' js) :
    b.Sound js' :=
  { h with
    owners := ⟨h.owners.1.sublist (hsub.map _), fun _ hk => h.owners.2 ((hsub.map _).subset hk)⟩
    taken := fun j hj => h.taken j (hsub.subset hj) }

/-- A change of the book that no seat sees. -/
lemma Roster.Sound.rebook (h : m.Sound)
    (hsame : ∀ key, m.book.Same b' key) (hver : m.book.verified = true → b'.verified = true)
    (hb : b'.Sound js) : Roster.Sound { m with jobs := js, book := b' } where
  __ := h
  verified hr := hver (h.verified hr)
  seats s hs := (h.seats s hs).same (hsame s.key)
  book := hb

/-! ### Resumption -/

lemma carried_dead (ht : f.transient = true) :
    Carried f { f with stream := false, phase := .dead, closeRequested := true } where
  id h := absurd (ht.symm.trans h) (by rintro ⟨⟩)
  isLocal := rfl
  transient := rfl
  pendingOpen h := h
  phase := .inr ⟨(by rintro ⟨⟩), (by rintro ⟨⟩)⟩
  control := (by rintro ⟨⟩)
  need := (by rintro ⟨⟩)
  dead _ := .inl rfl
  fd h := h
  closed _ _ := .inr ht

lemma Roster.Sound.attach (h : m.Sound) {o : ℕ} {g : Flow} (hk : m.seats[k]? = some s)
    (hp : s.proof = false) (hc : s.flow.phase = .control) (hn : s.flow.controlNeed ≠ controlHeader)
    (hkind : kindOf s.flow ≠ ControlKind.open.code) (ho : m.seats[o]? = some q)
    (ht : q.flow.transient = false) (hres : resumable m.peer q.flow) (hg : Carried q.flow g) :
    Roster.Sound { m with
      seats := (m.seats.set o { q with flow := g }).set k
        { s with flow := { s.flow with stream := false, phase := .dead, closeRequested := true } }
      book := { m.book with attached := m.book.attached ++ [(q.flow, m.peer.now)] } } := by
  obtain ⟨-, hbody⟩ := (h.sound_of hk).body hp hc hn
  have htransient := (hbody.resolve_left fun hopen => hkind hopen.1).2
  have hne : o ≠ k := by
    rintro rfl
    obtain rfl := Option.some.inj (hk.symm.trans ho)
    exact absurd (htransient.symm.trans ht) (by rintro ⟨⟩)
  have hold := h.seat ho hg
  have hnew := hold.seat (k := k) (s := s) (by
    rw [List.getElem?_set_ne hne]
    exact hk) (carried_dead htransient)
  refine hnew.rebook (fun _ => ⟨le_rfl, fun hv => hv, .rfl, .rfl, .rfl, .rfl⟩) (fun hv => hv) ?_
  refine { h.book with attached := fun x hx => ?_ }
  rcases mem_append.mp hx with hx | hx
  · exact h.book.attached x hx
  · rw [mem_singleton.mp hx]
    exact hres.2

/-! ### The proof of the connection -/

/-- The proof of the other side matched. -/
lemma Roster.Sound.verify (h : m.Sound) (hk : m.seats[k]? = some s) (hp : s.proof = true)
    (hf : Carried s.flow f) :
    Roster.Sound { m with
      seats := m.seats.set k { s with replyReady := true, flow := f }
      book := { m.book with verified := true } } := by
  have hs := h.sound_of hk
  have hsub : List.Sublist (liveIds (m.seats.set k { s with replyReady := true, flow := f }))
      (liveIds m.seats) :=
    filter_map_set_sublist hk fun hl => by simp [Seat.live, hp] at hl
  have hsame (key : ℕ) : m.book.Same { m.book with verified := true } key :=
    ⟨le_rfl, fun _ => rfl, .rfl, .rfl, .rfl, .rfl⟩
  refine h.replace hk rfl ?_ (fun key _ => hsame key) (fun _ => rfl)
    (hsub.length_le.trans h.count) (h.ids.sublist hsub) { h.book with }
  exact { (hs.carried hf).same (hsame s.key) with replied := fun _ _ _ => rfl }

lemma Roster.Sound.proofNeed (h : m.Sound) (hk : m.seats[k]? = some s) (hp : s.proof = true)
    (n : ℕ) :
    Roster.Sound { m with
      seats := m.seats.set k { s with flow := { s.flow with controlNeed := n } } } := by
  have hs := h.sound_of hk
  have hsub : List.Sublist
      (liveIds (m.seats.set k { s with flow := { s.flow with controlNeed := n } }))
      (liveIds m.seats) :=
    filter_map_set_sublist hk fun hl => by simp [Seat.live, hp] at hl
  refine h.replace hk rfl ?_ (fun _ _ => .refl _ _) (fun hv => hv)
    (hsub.length_le.trans h.count) (h.ids.sublist hsub) h.book
  exact
    { hs with
      header := fun hp' => absurd (hp.symm.trans hp') (by rintro ⟨⟩)
      body := fun hp' => absurd (hp.symm.trans hp') (by rintro ⟨⟩) }

lemma Roster.Sound.ready (h : m.Sound) (hk : m.seats[k]? = some s) (hp : s.proof = true)
    (hr : s.replyReady = true) (hlive : s.flow.phase ≠ .dead) :
    Roster.Sound { m with peer := { m.peer with ready := true, proofReady := true } } :=
  { h with verified := fun _ => (h.sound_of hk).replied hp hr hlive }

lemma Roster.Sound.detached (h : m.Sound) {p : Peer} (hp : Steady m.peer p) (hr : p.ready = false)
    (hd : ∀ s ∈ m.seats, s.proof = true → s.flow.phase = .dead) :
    Roster.Sound { m with peer := p, book := { m.book with verified := false } } := by
  have hnew := h.peer hp
  refine
    { server := hnew.server
      verified := fun hready => absurd (hr.symm.trans hready) (by rintro ⟨⟩)
      keys := h.keys
      seats := fun s hs => ?_
      count := hnew.count
      ids := h.ids
      book := { h.book with } }
  exact { h.seats s hs with replied := fun hpr _ hlive => absurd (hd s hs hpr) hlive }

end OhecoBroker.Flows
