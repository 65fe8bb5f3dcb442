/-
A peer that only takes flows of the other side admits them by the rules, whatever it is sent.  The
rules are proved about the roster, and carried over to the table here.

* `put_roster`, `seat_get`, `data_live`: the table and its roster see the same flows;
* `Roster.Sound.move`, `Roster.Sound.step`, `Roster.Sound.run`: every move, every step and every
  run keeps the roster sound;
* `admission_sound`: **at most `max_flows` flows count, with distinct odd ids; every target goes
  back to one accepted `OPEN`, and `RESUME` opens none**.
-/
import OhecoBroker.Flows.Roster

namespace OhecoBroker.Flows

open Lib
open Mapping
open Relation

variable {z : Sizes} {t t' : Table} {k : ℕ} {r q : Entry} {s s' : Store}

/-! ### What the roster sees of a store -/

/-- A free leaves the jobs alone. -/
lemma mFree_tasks (s : Store) (b : Option ℕ) (n : ℕ) : (mFree s b n).tasks = s.tasks := by
  cases b <;> rfl

/-- A detached job is still under way. -/
lemma mResolveDetach_tasks (s : Store) (r : Entry) : (mResolveDetach s r).1.tasks = s.tasks := by
  unfold mResolveDetach
  split
  · rfl
  simp only [Store.tasks, List.map_map]
  refine List.map_congr_left fun j _ => ?_
  simp only [Function.comp_apply]
  split <;> rfl

lemma dropPackets_tasks (z : Sizes) (s : Store) (qs : List PacketBlock) :
    (dropPackets z s qs).tasks = s.tasks := by
  induction qs generalizing s with
  | nil => rfl
  | cons q qs ih => rw [dropPackets, ih, mFree_tasks]

lemma dropAssemblies_tasks (s : Store) (as : List (Option AssemblyBlock)) :
    (dropAssemblies s as).tasks = s.tasks := by
  induction as generalizing s with
  | nil => rfl
  | cons a as ih => rw [dropAssemblies, ih, mFree_tasks]

lemma mDropUdp_tasks (z : Sizes) (s : Store) (r : Entry) : (mDropUdp z s r).1.tasks = s.tasks := by
  rw [mDropUdp, dropAssemblies_tasks, dropPackets_tasks]

lemma mReleaseIo_tasks (z : Sizes) (s : Store) (r : Entry) :
    (mReleaseIo z s r).1.tasks = s.tasks := by
  simp only [mReleaseIo, mDropUdp_tasks, mFree_tasks, mResolveDetach_tasks]

lemma mTcpBuffers_tasks (z : Sizes) (n : ℕ) (s : Store) (r : Entry) (a b : Bool) :
    (mTcpBuffers z n s r a b).1.tasks = s.tasks := by
  simp only [mTcpBuffers]
  split
  · rw [mReleaseIo_tasks]
    simp only [Store.tasks, allocBuffer_jobs]
  · simp only [Store.tasks, allocBuffer_jobs]

lemma mAlloc_tasks {maxFlows n : ℕ} {calloc : Bool} (h : mAlloc z maxFlows s n calloc = some s') :
    s'.tasks = s.tasks := by
  rw [(mAlloc_spec h).2]
  rfl

/-! ### What the roster sees of a table -/

lemma put_roster (t : Table) (k : ℕ) (s : Store) (q : Entry) :
    (t.put k s q).roster =
      { t.roster with seats := t.roster.seats.set k q.seat, jobs := s.tasks } := by
  simp only [Table.roster, Table.put, List.map_set]
  rfl

lemma seat_get (hk : t.flows[k]? = some r) : t.roster.seats[k]? = some r.seat := by
  simp [Table.roster, hk]

lemma Entry.bare_carried (r : Entry) : Carried r.flow r.bare.flow :=
  { Carried.refl r.flow with
    fd := (by rintro ⟨⟩)
    closed := (by intros; contradiction) }

lemma Roster.Sound.put (h : t.roster.Sound) (hk : t.flows[k]? = some r) {f : Flow}
    (hf : Carried r.flow f) (hs : s.tasks = t.store.tasks)
    (hq : q.seat = { r.seat with flow := f }) : (t.put k s q).roster.Sound := by
  rw [put_roster, hs, hq]
  exact h.seat (seat_get hk) hf

/-- A change of the blocks alone. -/
lemma Roster.Sound.payload (h : t.roster.Sound) (hk : t.flows[k]? = some r)
    (hs : s.tasks = t.store.tasks) (hq : q.seat = r.seat) : (t.put k s q).roster.Sound :=
  h.put hk (.refl r.flow) hs hq

lemma Roster.Sound.release (h : t.roster.Sound) (hk : t.flows[k]? = some r) :
    (t.release z k r).roster.Sound := by
  simp only [Table.release, mReleaseIo_snd]
  exact h.put hk r.bare_carried (mReleaseIo_tasks z t.store r) rfl

lemma mTcpBuffers_seat (z : Sizes) (n : ℕ) (s : Store) (r : Entry) (a b : Bool) :
    ∃ f, Carried r.flow f ∧ (mTcpBuffers z n s r a b).2.1.seat = { r.seat with flow := f } := by
  simp only [mTcpBuffers]
  split
  · rw [mReleaseIo_snd]
    exact ⟨_, r.bare_carried, rfl⟩
  · exact ⟨r.flow, .refl _, rfl⟩

lemma data_live (t : Table) : mDataFlowCount t.data = (liveIds t.roster.seats).length := by
  simp only [mDataFlowCount, Table.data, liveIds, Table.roster, List.length_map,
    List.countP_eq_length_filter, List.filter_map, List.filter_filter]
  congr 1
  refine List.filter_congr fun r _ => ?_
  simp only [Function.comp_apply, Seat.live, Entry.seat]
  cases r.proof <;> cases r.flow.transient <;> cases r.flow.phase <;> rfl

lemma find_none {id : UInt64} (h : mFind t.data id.toNat = none) : id ∉ liveIds t.roster.seats := by
  intro hmem
  simp only [liveIds, Table.roster, List.mem_map, List.mem_filter] at hmem
  obtain ⟨-, ⟨⟨r, hr, rfl⟩, hlive⟩, hid⟩ := hmem
  simp only [Seat.live, Entry.seat, Bool.and_eq_true, Bool.not_eq_true', bne_iff_ne] at hlive
  have hdata : r.flow ∈ t.data :=
    List.mem_map.mpr ⟨r, List.mem_filter.mpr ⟨hr, by simp [hlive.1.1]⟩, rfl⟩
  refine List.find?_eq_none.mp h r.flow hdata ?_
  simpa using ⟨hlive.1.2, hlive.2, congrArg UInt64.toNat hid⟩

/-! ### Moves -/

/-- A flow that is freed leaves its seat. -/
lemma Roster.Sound.free (h : t.roster.Sound) : (t.mFlowFree z k).roster.Sound := by
  unfold Table.mFlowFree
  split
  · exact h
  rename_i r hk
  have hsub : List.Sublist ((t.flows.eraseIdx k).map Entry.seat) t.roster.seats :=
    (List.eraseIdx_sublist _ _).map _
  have hleave := h.leave hsub
  have htasks : (mFree (mReleaseIo z t.store r).1 (some (mReleaseIo z t.store r).2.record)
      z.flow).tasks = t.store.tasks := by
    rw [mFree_tasks, mReleaseIo_tasks]
  simp only [Table.roster, htasks]
  exact hleave

lemma Roster.Sound.udpEnqueue (h : t.roster.Sound) (len : ℕ) (calloc : Bool) :
    (t.mUdpEnqueue z k len calloc).roster.Sound := by
  unfold Table.mUdpEnqueue
  split
  · exact h
  rename_i r hk
  split
  · exact h
  split
  · exact h
  · rename_i s hs
    exact h.payload hk (mAlloc_tasks hs) rfl

lemma Roster.Sound.udpPop (h : t.roster.Sound) : (t.mUdpPop z k).roster.Sound := by
  unfold Table.mUdpPop
  split
  · exact h
  rename_i r hk
  split
  · exact h
  · exact h.payload hk (mFree_tasks _ _ _) rfl

lemma Roster.Sound.assemblyNew (h : t.roster.Sound) (slot total : ℕ) (calloc : Bool) :
    (t.mAssemblyNew z k slot total calloc).roster.Sound := by
  unfold Table.mAssemblyNew
  split
  · exact h
  rename_i r hk
  split
  · exact h
  split
  · exact h
  · rename_i s hs
    exact h.payload hk (mAlloc_tasks hs) rfl

lemma Roster.Sound.assemblyDrop (h : t.roster.Sound) (slot : ℕ) :
    (t.mAssemblyDrop k slot).roster.Sound := by
  unfold Table.mAssemblyDrop
  split
  · exact h
  rename_i r hk
  split
  · exact h.payload hk (mFree_tasks _ _ _) rfl
  · exact h

lemma Roster.Sound.resolverTake (h : t.roster.Sound) (owner : ℕ) :
    (t.resolverTake owner).roster.Sound := by
  unfold Table.resolverTake
  split
  · rename_i hany
    obtain ⟨j, hj, howner⟩ := List.any_eq_true.mp hany
    simp only [Bool.and_eq_true, beq_iff_eq] at howner
    have hqueued : (owner, JobState.queued) ∈ t.roster.jobs :=
      List.mem_map.mpr ⟨j, hj, by rw [howner.1, howner.2]⟩
    have hsame (key : ℕ) :
        t.book.Same { t.book with resolutions := t.resolutions ++ [owner] } key :=
      ⟨le_rfl, fun hv => hv, .rfl, .rfl, .rfl, .rfl⟩
    have hrebook := h.rebook hsame (fun hv => hv) (h.book.take hqueued)
    have htasks : (t.roster.jobs.map fun j =>
        if j.1 = owner then (j.1, JobState.running) else j) =
        (t.store.jobs.map fun j => if j.owner = owner then { j with state := .running } else j).map
          fun j => (j.owner, j.state) := by
      simp only [Table.roster, Store.tasks, List.map_map]
      refine List.map_congr_left fun j _ => ?_
      simp only [Function.comp_apply]
      split <;> rfl
    rw [htasks] at hrebook
    exact hrebook
  · exact h

/-- The end of a resolution starts nothing. -/
lemma Roster.Sound.resolverDone (h : t.roster.Sound) (owner : ℕ) (result : ℤ) (family : Bool) :
    (t.resolverDone owner result family).roster.Sound := by
  have hjobs := h.jobs (h.book.done owner)
  have htasks : (t.roster.jobs.map fun j =>
      if j.1 = owner ∧ j.2 = .running then (j.1, JobState.done) else j) =
      (t.store.jobs.map fun j => if j.owner = owner ∧ j.state = .running then
        { j with state := .done, result, family } else j).map fun j => (j.owner, j.state) := by
    simp only [Table.roster, Store.tasks, List.map_map]
    refine List.map_congr_left fun j _ => ?_
    simp only [Function.comp_apply]
    split <;> rfl
  rw [htasks] at hjobs
  exact hjobs

lemma Roster.Sound.reaped (h : t.roster.Sound) : (t.mResolveReap z).roster.Sound := by
  have hsub : List.Sublist
      ((t.store.jobs.filter fun j => !j.idle).map fun j => (j.owner, j.state)) t.roster.jobs :=
    List.filter_sublist.map _
  have hjobs := h.jobs (h.book.reap hsub)
  simp only [Table.mResolveReap, Table.roster, Store.tasks, Table.reapBlocks_jobs]
  exact hjobs

lemma Roster.Sound.cleanup (h : t.roster.Sound) : (t.cleanup z).roster.Sound :=
  (h.leave (List.nil_sublist _)).jobs (h.book.reap (List.nil_sublist _))

lemma Roster.Sound.entered (h : t.roster.Sound) {calloc b : Bool}
    (hs : mControlAlloc t.store z.flow calloc = some s) (hr : Entered z False t r) :
    Table.roster { t with
      store := s, nextKey := t.nextKey + 1, proofStarted := b
      flows := r :: t.flows } |>.Sound := by
  obtain ⟨-, rfl⟩ := mControlAlloc_spec hs
  have hlocal : r.flow.isLocal = false := by
    rw [Bool.eq_false_iff]
    exact hr.own
  have hkeys : r.key ∉ t.book.openKeys := fun hk => by
    have hlt := h.book.known _ hk
    rw [hr.key] at hlt
    exact absurd hlt (lt_irrefl _)
  have hresumes : r.key ∉ t.book.resumes := fun hk => by
    have hlt := (h.book.resumes _ hk).1
    rw [hr.key] at hlt
    exact absurd hlt (lt_irrefl _)
  have hstarted : r.key ∉ t.book.started := fun hk => hkeys (h.book.started.2 hk)
  refine h.enter (s := r.seat) hr.key ?_ ?_
  · exact
      { key := hr.key.trans_lt (Nat.lt_succ_self _)
        isLocal := hlocal
        pendingOpen := hr.pendingOpen
        dead := fun _ => hr.fd
        placeholder := fun _ => ⟨hr.fd, by simp [Entry.seat, hr.phase]⟩
        odd := fun hp ht => absurd ((hr.incoming hp hlocal).symm.trans ht) (by rintro ⟨⟩)
        header := fun hp _ _ => ⟨hr.incoming hp hlocal, hkeys, hresumes⟩
        body := fun _ _ hn => absurd hr.need hn
        started := fun hk => absurd hk hstarted
        connected := fun hk =>
          absurd (h.book.resolutions.2 (h.book.connects.2 hk)) hstarted
        replied := fun _ hrep => absurd (hr.replyReady.symm.trans hrep) (by rintro ⟨⟩) }
  simp only [Seat.live, Entry.seat]
  cases hp : r.proof
  · simp [hr.incoming hp hlocal]
  · rfl

/-- **Every move keeps the roster sound.** -/
lemma Roster.Sound.move (h : t.roster.Sound) (hm : Move z False t t') : t'.roster.Sound := by
  cases hm with
  | peer hp => exact h.peer hp
  | flowId n => exact h
  | proofStarted b => exact h
  | resolvers => exact h
  | flow hk hf => exact h.put hk hf rfl rfl
  | reopen hk hf =>
    have hs := h.sound_of (seat_get hk)
    rcases hf.own with hl | hp
    · exact absurd (hs.isLocal.symm.trans hl) (by rintro ⟨⟩)
    · exact absurd (hs.pendingOpen.symm.trans hp) (by rintro ⟨⟩)
  | @need k r n hk hp =>
    have hs := h.sound_of (seat_get hk)
    have hproof : r.proof = true := hp.resolve_right fun hl =>
      absurd (hs.isLocal.symm.trans hl) (by rintro ⟨⟩)
    rw [put_roster]
    exact h.proofNeed (seat_get hk) hproof n
  | enter _ hs hr => exact h.entered hs hr
  | release hk => exact h.release hk
  | dropUdp hk => exact h.payload hk (mDropUdp_tasks _ _ _) rfl
  | free k => exact h.free
  | cleanup => exact h.cleanup
  | openHeader hk hp hl hc hn hkind hf =>
    obtain ⟨hready, hproof, hneed, hodd, hg⟩ := Table.mHeaderCheck_incoming hl hf
    obtain ⟨-, hfind, hcount, hf⟩ := hg.resolve_left fun hr =>
      absurd (hkind.symm.trans hr.1) (by rintro ⟨⟩)
    have hserver : t.peer.isServer = true := h.server
    rw [hserver] at hodd
    have hverified : t.verified = true := h.verified hready
    have hflag : (t.peer.ready && t.peer.proofReady && t.verified) = true := by
      rw [hready, hproof, hverified]
      rfl
    have haccept := h.accept (seat_get hk) hp hc hn.1 hn.2 hkind hflag hf hneed hodd
      (find_none hfind) (data_live t ▸ hcount)
    simp only [Table.roster, Table.put, List.map_set]
    exact haccept
  | resumeHeader hk hp hl hc hn hkind hf =>
    obtain ⟨-, -, hneed, -, hg⟩ := Table.mHeaderCheck_incoming hl hf
    obtain ⟨-, hf⟩ := hg.resolve_right fun hr => absurd (hkind.symm.trans hr.1) (by rintro ⟨⟩)
    have hresume := h.resume (seat_get hk) hp hc hn.1 hn.2 hkind hf hneed
    simp only [Table.roster, Table.put, List.map_set]
    exact hresume
  | @start k r s calloc job hk hr hkind hs howner hblock hstate =>
    have hstart := h.start (seat_get hk) hr.proof hr.phase hr.need hkind
    obtain ⟨-, rfl⟩ := mAlloc_spec hs
    simp only [Table.roster, Table.put, List.map_set, Store.tasks, List.map_cons, howner, hstate]
    exact hstart
  | detachJob hk =>
    refine h.payload hk (mResolveDetach_tasks _ _) ?_
    rw [mResolveDetach_snd]
    rfl
  | @buffers k r x a b hk hr hx =>
    obtain ⟨f, hf, hseat⟩ := mTcpBuffers_seat z t.peer.maxFlows x.1 x.2 a b
    have hsnd : x.2 = { r with resolve := false } := by rw [← hx, mResolveDetach_snd]
    refine h.put hk (f := f) ?_ ?_ ?_
    · rw [hsnd] at hf
      exact hf
    · rw [mTcpBuffers_tasks, ← hx, mResolveDetach_tasks]
    · rw [hseat, hsnd]
      rfl
  | @connect k r f job hk hr hjob howner hdone hf =>
    have hmem : (r.key, JobState.done) ∈ t.roster.jobs :=
      List.mem_map.mpr ⟨job, hjob, by rw [howner, hdone]⟩
    have hconnect := h.connect (seat_get hk) hr hmem hf
    simp only [Table.roster, Table.put, List.map_set]
    exact hconnect
  | resolverTake owner => exact h.resolverTake owner
  | resolverDone owner result family => exact h.resolverDone owner result family
  | reap => exact h.reaped
  | udpEnqueue k len calloc => exact h.udpEnqueue len calloc
  | udpPop k => exact h.udpPop
  | assemblyNew k slot total calloc => exact h.assemblyNew slot total calloc
  | assemblyDrop k slot => exact h.assemblyDrop slot
  | attach hk hr hkind ho hq ht hres hg =>
    have hattach := h.attach (seat_get hk) hr.proof hr.phase hr.need hkind (seat_get ho) ht hres hg
    simp only [Table.roster, Table.put, List.map_set]
    exact hattach
  | verify hk hp hf =>
    have hverify := h.verify (seat_get hk) hp hf
    simp only [Table.roster, Table.put, List.map_set]
    exact hverify
  | ready hk hp hr hlive => exact h.ready (seat_get hk) hp hr hlive
  | detached hp hr hd =>
    exact h.detached hp hr fun s hs hproof => by
      obtain ⟨r, hmem, rfl⟩ := List.mem_map.mp hs
      exact hd r hmem hproof

lemma Roster.Sound.moves (h : t.roster.Sound) (hm : Moves z False t t') : t'.roster.Sound := by
  induction hm with
  | refl => exact h
  | tail _ hmove ih => exact ih.move hmove

/-! ### Runs -/

def Event.incoming : Event → Prop
  | .localFlow _ => False
  | _ => True

lemma Roster.Sound.step (h : t.roster.Sound) {e : Event} (he : e.incoming) :
    (t.step z e).roster.Sound := by
  have hmoves := Table.step_moves z t e
  cases e with
  | localFlow env => exact he.elim
  | handshake proof calloc created first =>
    have hserver : t.peer.isServer = true := h.server
    have hsame : t.step z (.handshake proof calloc created first) = t := by
      simp only [Table.step, Table.handshake]
      rw [if_pos (.inr (.inl hserver))]
    rw [hsame]
    exact h
  | _ => exact h.moves hmoves

lemma Roster.Sound.run (h : t.roster.Sound) {es : List Event} (hes : ∀ e ∈ es, e.incoming) :
    (run (Table.step z) t es).roster.Sound := by
  induction es generalizing t with
  | nil => exact h
  | cons e es ih =>
    obtain ⟨he, hes⟩ := List.forall_mem_cons.mp hes
    exact ih (h.step he) hes

lemma Roster.Sound.fresh {p : Peer} (hs : p.isServer = true) (hr : p.ready = false) :
    (Table.roster { peer := p }).Sound where
  server := hs
  verified h := absurd (hr.symm.trans h) (by rintro ⟨⟩)
  keys := List.nodup_nil
  seats _ h := absurd h List.not_mem_nil
  count := Nat.zero_le _
  ids := List.nodup_nil
  book :=
    { flags := fun _ h => absurd h List.not_mem_nil
      opens := List.nodup_nil
      known := fun _ h => absurd h List.not_mem_nil
      resumes := fun _ h => absurd h List.not_mem_nil
      started := ⟨List.nodup_nil, List.nil_subset _⟩
      owners := ⟨List.nodup_nil, List.nil_subset _⟩
      taken := fun _ h => absurd h List.not_mem_nil
      resolutions := ⟨List.nodup_nil, List.nil_subset _⟩
      connects := ⟨List.nodup_nil, List.nil_subset _⟩
      attached := fun _ h => absurd h List.not_mem_nil }

/-- Not the proof stream, no placeholder, not dead. -/
def Table.liveFlows (t : Table) : List Entry :=
  t.flows.filter fun r => r.proof = false ∧ r.flow.transient = false ∧ r.flow.phase ≠ .dead

lemma Table.liveFlows_ids (t : Table) :
    t.liveFlows.map (fun r => r.flow.id) = liveIds t.roster.seats := by
  simp only [Table.liveFlows, liveIds, Table.roster, List.filter_map, List.map_map]
  congr 1
  refine List.filter_congr fun r _ => ?_
  simp only [Function.comp_apply, Seat.live, Entry.seat]
  cases r.proof <;> cases r.flow.transient <;> cases r.flow.phase <;> rfl

/-- **Admission is sound for any client.** At most `max_flows` flows are live, with distinct odd
ids; a flow was resolved and connected at most once, after one `OPEN` accepted while the
connection was ready and proved; a flow with a `RESUME` is none of them; and a stream is attached
only to a suspended flow inside its grace. -/
theorem admission_sound (z : Sizes) (p : Peer) (hs : p.isServer = true) (hr : p.ready = false)
    (es : List Event) (hes : ∀ e ∈ es, e.incoming) :
    let t := run (Table.step z) { peer := p } es
    (t.liveFlows.length ≤ t.limit ∧ (t.liveFlows.map fun r => r.flow.id).Nodup ∧
      ∀ r ∈ t.liveFlows, r.flow.id.toNat % 2 = 1) ∧
    ((t.opens.map Prod.fst).Nodup ∧ (∀ x ∈ t.opens, x.2 = true) ∧
      t.started.Nodup ∧ t.started ⊆ t.opens.map Prod.fst ∧
      t.resolutions.Nodup ∧ t.resolutions ⊆ t.started ∧
      t.connects.Nodup ∧ t.connects ⊆ t.resolutions) ∧
    (∀ k ∈ t.resumes, k ∉ t.opens.map Prod.fst) ∧
    ∀ x ∈ t.attached, x.1.suspended = true ∧ x.1.wireVersion = 2 ∧ x.1.protocol = protoTcp ∧
      x.1.fd = true ∧ x.2 < x.1.graceDeadlineUs := by
  intro t
  have h : t.roster.Sound := (Roster.Sound.fresh hs hr).run hes
  have hids := t.liveFlows_ids
  have hlen : t.liveFlows.length = (liveIds t.roster.seats).length := by
    rw [← hids, List.length_map]
  refine ⟨⟨hlen ▸ h.count, hids ▸ h.ids, fun r hmem => ?_⟩, ?_, fun k hk => (h.book.resumes k hk).2,
    h.book.attached⟩
  · obtain ⟨hmem, hlive⟩ := List.mem_filter.mp hmem
    simp only [decide_eq_true_eq] at hlive
    exact (h.seats r.seat (List.mem_map_of_mem hmem)).odd hlive.1 hlive.2.1
  · exact ⟨h.book.opens, h.book.flags, h.book.started.1, h.book.started.2,
      h.book.resolutions.1, h.book.resolutions.2, h.book.connects.1, h.book.connects.2⟩

/-- An `OPEN` for flow 1 comes in, and its target is resolved and connected. -/
theorem admission_sound_opened :
    let z : Sizes := ⟨4096, 512, 48, by decide⟩
    let proof : List UInt8 := List.replicate 32 1
    let sent : SendResult := { ret := .sent 48 }
    let es : List Event :=
      [.connect false 2, .create true true true true,
        .control 0 { expected := some proof, answer := some proof, flush := sent, fin := sent }
          [.data (mHeader .proof 0 32 0) false, .data proof false],
        .create true false true true,
        .control 0 {} [.data (mHeader .open protoTcp 3 1) false, .data [0, 80, 104] false],
        .resolverTake 1, .resolverDone 1 0 true, .resolveTick 0 {}]
    let t := run (Table.step z) { peer := { isServer := true } } es
    t.opens = [(1, true)] ∧ t.connects = [1] ∧
      t.liveFlows.map (fun r => r.flow.id) = [1] ∧ t.liveFlows.length ≤ t.limit := by
  refine ⟨by decide +kernel, by decide +kernel, by decide +kernel, ?_⟩
  exact (admission_sound _ _ rfl rfl _ (by simp [Event.incoming])).1.1

end OhecoBroker.Flows
