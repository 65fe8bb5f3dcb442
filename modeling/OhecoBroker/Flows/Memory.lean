/-
The memory budget of a peer is exact, and its reserve holds.  Every block is freed with the size
it was allocated with; `m_alloc` stops short of a reserve that only records of flows may use,
which is what the resumption of retained flows needs.

* `Table.live`, `Table.held`: the live blocks, and those of flows with more than a record;
* `Frees`, `mFree_frees`: frees with the right size, of a given sum;
* `Entry.Sized`, `Budget`: the invariant; `Budget.put`, `Budget.release`, `Budget.alloc`,
  `Budget.buffers`: the moves that change it;
* `Budget.move`, `Budget.run`: every move and every run keeps the budget;
* `memory_exact`: **the counter is exact, and retained flows leave room for resumption**.
-/
import OhecoBroker.Flows.Moves
import OhecoBroker.Lib.Shares

namespace OhecoBroker.Flows

open Lib List
open Mapping

/-! ### Blocks -/

def blockSize (b : Option ℕ) : ℕ := b.getD 0

def Entry.payload (r : Entry) : ℕ :=
  blockSize r.tx + blockSize r.rx + (r.packets.map PacketBlock.block).sum +
    (r.assembly.map fun a => blockSize (a.map AssemblyBlock.block)).sum

/-- The blocks of a flow. -/
def Entry.bytes (r : Entry) : ℕ := r.record + r.payload

/-- The blocks of a flow with more than its record. -/
def Entry.held (r : Entry) : ℕ := if r.payload = 0 then 0 else r.bytes

def Store.jobBytes (s : Store) : ℕ := (s.jobs.map Job.block).sum

/-- The sum of the sizes of the live blocks. -/
def Table.live (t : Table) : ℕ := (t.flows.map Entry.bytes).sum + t.store.jobBytes

/-- What flows with payload and jobs hold. -/
def Table.held (t : Table) : ℕ := (t.flows.map Entry.held).sum + t.store.jobBytes

/-- Freed with the size it was allocated with, and the counter covered it. -/
def Freed.Exact (x : Freed) : Prop := x.size = x.block ∧ x.size ≤ x.memory

variable {z : Sizes} {r q : Entry} {s s' : Store} {n : ℕ} {f : Flow} {calloc : Bool}

lemma Entry.held_le_bytes (r : Entry) : r.held ≤ r.bytes := by
  unfold Entry.held
  split <;> omega

/-- A flow that owns less holds no more. -/
lemma Entry.held_mono (hrec : q.record = r.record) (h : q.payload ≤ r.payload) :
    q.held ≤ r.held := by
  simp only [Entry.held, Entry.bytes, hrec]
  split_ifs <;> omega

lemma Table.held_le_live (t : Table) : t.held ≤ t.live := by
  have hsum : (t.flows.map Entry.held).sum ≤ (t.flows.map Entry.bytes).sum :=
    sum_le_sum fun r _ => r.held_le_bytes
  simp only [Table.held, Table.live]
  omega

/-! ### Exact frees -/

/-- From `s` to `s'` blocks of `n` bytes in all are freed. -/
structure Frees (s s' : Store) (n : ℕ) : Prop where
  memory : s'.memory + n = s.memory
  blocks : s'.jobs.map Job.block = s.jobs.map Job.block
  freed : (∀ x ∈ s.freed, x.Exact) → ∀ x ∈ s'.freed, x.Exact

lemma Frees.refl (s : Store) : Frees s s 0 := ⟨rfl, rfl, fun h => h⟩

lemma Frees.trans {s'' : Store} {m : ℕ} (h : Frees s s' n) (h' : Frees s' s'' m) :
    Frees s s'' (n + m) where
  memory := by rw [← h.memory, ← h'.memory]; omega
  blocks := h'.blocks.trans h.blocks
  freed hx := h'.freed (h.freed hx)

lemma Frees.jobBytes (h : Frees s s' n) : s'.jobBytes = s.jobBytes := by
  rw [Store.jobBytes, h.blocks, Store.jobBytes]

lemma mFree_frees {b : Option ℕ} (hb : ∀ x ∈ b, x = n)
    (hmax : s.memory ≤ memoryMax) (hle : blockSize b ≤ s.memory) :
    Frees s (mFree s b n) (blockSize b) := by
  cases b with
  | none => exact .refl s
  | some x =>
    obtain rfl := hb x rfl
    simp only [blockSize, Option.getD_some, mFree] at hle ⊢
    refine ⟨?_, ?_, fun hx y hy => ?_⟩
    · simp only [memoryMax] at hmax ⊢
      omega
    · rfl
    rcases mem_append.mp hy with hy | hy
    · exact hx y hy
    · rw [mem_singleton.mp hy]
      exact ⟨rfl, hle⟩

lemma dropPackets_frees {qs : List PacketBlock}
    (hq : ∀ q ∈ qs, q.block = z.packet + q.len) (hmax : s.memory ≤ memoryMax)
    (hle : (qs.map PacketBlock.block).sum ≤ s.memory) :
    Frees s (dropPackets z s qs) (qs.map PacketBlock.block).sum := by
  induction qs generalizing s with
  | nil => exact .refl s
  | cons q qs ih =>
    obtain ⟨hq, hqs⟩ := forall_mem_cons.mp hq
    simp only [map_cons, sum_cons] at hle ⊢
    have hfree : Frees s (mFree s (some q.block) (z.packet + q.len)) q.block :=
      mFree_frees (by simp [hq]) hmax (by simp only [blockSize, Option.getD_some]; omega)
    have hmem := hfree.memory
    exact hfree.trans (ih hqs (by omega) (by omega))

lemma dropAssemblies_frees {as : List (Option AssemblyBlock)}
    (ha : ∀ a ∈ as, ∀ x ∈ a, x.block = assemblySize x.total) (hmax : s.memory ≤ memoryMax)
    (hle : (as.map fun a => blockSize (a.map AssemblyBlock.block)).sum ≤ s.memory) :
    Frees s (dropAssemblies s as)
      (as.map fun a => blockSize (a.map AssemblyBlock.block)).sum := by
  induction as generalizing s with
  | nil => exact .refl s
  | cons a as ih =>
    obtain ⟨ha, has⟩ := forall_mem_cons.mp ha
    simp only [map_cons, sum_cons] at hle ⊢
    have hfree := mFree_frees (s := s) (b := a.map AssemblyBlock.block)
      (n := assemblySize (a.elim 0 AssemblyBlock.total)) (by
        cases a with
        | none => simp
        | some x => simpa using ha x rfl) hmax (by omega)
    have hmem := hfree.memory
    exact hfree.trans (ih has (by omega) (by omega))

/-! ### The invariant -/

/-- Every block has the size it will be freed with. -/
structure Entry.Sized (z : Sizes) (r : Entry) : Prop where
  record : r.record = z.flow
  tx : ∀ x ∈ r.tx, x = streamBuffer
  rx : ∀ x ∈ r.rx, x = streamBuffer
  packets : ∀ q ∈ r.packets, q.block = z.packet + q.len
  assembly : ∀ a ∈ r.assembly, ∀ x ∈ a, x.block = assemblySize x.total
  unbuffered : (r.flow.phase = .resolving ∧ r.resolve = true) ∨
    (r.flow.isLocal = false ∧ r.flow.phase = .control) → r.tx = none ∧ r.rx = none
  pending : r.flow.pendingOpen = true → r.flow.isLocal = true

structure Budget (z : Sizes) (t : Table) : Prop where
  sized : ∀ r ∈ t.flows, r.Sized z
  jobs : ∀ j ∈ t.store.jobs, j.block = z.job
  memory : t.store.memory = t.live
  bound : t.store.memory ≤ memoryMax
  freed : ∀ x ∈ t.store.freed, x.Exact
  reserved : t.held ≤ memoryMax - reserve z t.peer.maxFlows

variable {own : Prop} {t t' : Table} {k : ℕ}

lemma Budget.congr (h : Budget z t) (hf : t'.flows = t.flows) (hs : t'.store = t.store)
    (hp : t'.peer.maxFlows = t.peer.maxFlows) : Budget z t' where
  sized := hf ▸ h.sized
  jobs := hs ▸ h.jobs
  memory := by rw [Table.live, hf, hs]; exact h.memory
  bound := hs ▸ h.bound
  freed := hs ▸ h.freed
  reserved := by rw [Table.held, hf, hs, hp]; exact h.reserved

lemma Budget.put (h : Budget z t) (hk : t.flows[k]? = some r) (hq : q.Sized z)
    (hjobs : ∀ j ∈ s.jobs, j.block = z.job) (hfreed : ∀ x ∈ s.freed, x.Exact)
    (hmem : s.memory + r.bytes + t.store.jobBytes = t.store.memory + q.bytes + s.jobBytes)
    (hbound : s.memory ≤ memoryMax)
    (hres : s.memory ≤ memoryMax - reserve z t.peer.maxFlows ∨
      (q.held ≤ r.held ∧ s.jobBytes ≤ t.store.jobBytes)) : Budget z (t.put k s q) := by
  have hsum := sum_map_set (b := q) Entry.bytes hk
  have hlive : s.memory = (t.put k s q).live := by
    have := h.memory
    simp only [Table.live, Table.put] at this ⊢
    omega
  refine
    { sized := fun e he => ?_
      jobs := hjobs
      memory := hlive
      bound := hbound
      freed := hfreed
      reserved := ?_ }
  · rcases mem_or_eq_of_mem_set he with he | rfl
    · exact h.sized e he
    · exact hq
  rcases hres with hres | ⟨hheld, hless⟩
  · exact (Table.held_le_live _).trans (hlive ▸ hres)
  have hold := h.reserved
  have hset := sum_map_set (b := q) Entry.held hk
  simp only [Table.held, Table.put] at hold ⊢
  omega

lemma Budget.sized_of (h : Budget z t) (hk : t.flows[k]? = some r) : r.Sized z :=
  h.sized r (mem_of_getElem? hk)

/-- The counter covers every single flow. -/
lemma Budget.bytes_le (h : Budget z t) (hk : t.flows[k]? = some r) : r.bytes ≤ t.store.memory := by
  have hmem := h.memory
  have hle : r.bytes ≤ (t.flows.map Entry.bytes).sum :=
    single_le_sum (fun _ _ => Nat.zero_le _) _
      (mem_map_of_mem (mem_of_getElem? hk))
  simp only [Table.live] at hmem
  omega

/-! ### Moves of the state of a flow -/

lemma Entry.Sized.flow (h : r.Sized z)
    (hbuf : (f.phase = .resolving ∧ r.resolve = true) ∨ (f.isLocal = false ∧ f.phase = .control) →
      r.tx = none ∧ r.rx = none)
    (hp : f.pendingOpen = true → f.isLocal = true) : Entry.Sized z { r with flow := f } :=
  { h with unbuffered := hbuf, pending := hp }

lemma Entry.Sized.carried (h : r.Sized z) (hf : Carried r.flow f) :
    Entry.Sized z { r with flow := f } := by
  refine h.flow (fun hph => h.unbuffered ?_) fun hp =>
    hf.isLocal.trans (h.pending (hf.pendingOpen hp))
  rcases hf.phase with hsame | hother
  · rwa [hsame, hf.isLocal] at hph
  · rcases hph with ⟨hph, -⟩ | ⟨-, hph⟩
    · exact absurd hph hother.2
    · exact absurd hph hother.1

lemma Budget.flow (h : Budget z t) (hk : t.flows[k]? = some r)
    (hq : Entry.Sized z { r with flow := f }) : Budget z (t.put k t.store { r with flow := f }) :=
  h.put hk hq h.jobs h.freed rfl h.bound (.inr ⟨le_rfl, le_rfl⟩)

/-! ### Moves that free -/

/-- A flow gives back some of its blocks. -/
lemma Budget.frees (h : Budget z t) (hk : t.flows[k]? = some r)
    (hf : Frees t.store s n) (hq : q.Sized z) (hjobs : ∀ j ∈ s.jobs, j.block = z.job)
    (hbytes : q.payload + n = r.payload) : Budget z (t.put k s q) := by
  have hrec : q.record = r.record := hq.record.trans (h.sized_of hk).record.symm
  have hmem := hf.memory
  have hbound := h.bound
  refine h.put hk hq hjobs (hf.freed h.freed) ?_ (by omega)
    (.inr ⟨Entry.held_mono hrec (by omega), hf.jobBytes.le⟩)
  rw [hf.jobBytes]
  simp only [Entry.bytes, hrec]
  omega

lemma mem_jobs_of_blocks (hb : s'.jobs.map Job.block = s.jobs.map Job.block)
    (h : ∀ j ∈ s.jobs, j.block = z.job) : ∀ j ∈ s'.jobs, j.block = z.job := by
  have hmap : ∀ b ∈ s'.jobs.map Job.block, b = z.job := by
    rw [hb]
    simpa using h
  simpa using hmap

lemma mResolveDetach_blocks (s : Store) (r : Entry) :
    (mResolveDetach s r).1.jobs.map Job.block = s.jobs.map Job.block := by
  unfold mResolveDetach
  split
  · rfl
  simp only [map_map]
  refine map_congr_left fun j _ => ?_
  simp only [Function.comp_apply]
  split <;> rfl

lemma mResolveDetach_frees (s : Store) (r : Entry) : Frees s (mResolveDetach s r).1 0 := by
  refine ⟨?_, mResolveDetach_blocks s r, ?_⟩ <;>
    (unfold mResolveDetach; split)
  · rfl
  · rfl
  · exact fun h => h
  · exact fun h => h

/-- A flow gives back all of its blocks. -/
lemma mReleaseIo_frees (h : r.Sized z) (hmax : s.memory ≤ memoryMax) (hle : r.payload ≤ s.memory) :
    Frees s (mReleaseIo z s r).1 r.payload := by
  have hdetach := mResolveDetach_frees s r
  have hmem := hdetach.memory
  simp only [Entry.payload] at hle ⊢
  simp only [mReleaseIo, mDropUdp, mResolveDetach_snd]
  have htx := mFree_frees (s := (mResolveDetach s r).1) h.tx (by omega) (by omega)
  have hmem₁ := htx.memory
  have hrx := mFree_frees (s := mFree (mResolveDetach s r).1 r.tx streamBuffer) h.rx
    (by omega) (by omega)
  have hmem₂ := hrx.memory
  have hpackets := dropPackets_frees
    (s := mFree (mFree (mResolveDetach s r).1 r.tx streamBuffer) r.rx streamBuffer) h.packets
    (by omega) (by omega)
  have hmem₃ := hpackets.memory
  have hassembly := dropAssemblies_frees
    (s := dropPackets z (mFree (mFree (mResolveDetach s r).1 r.tx streamBuffer) r.rx streamBuffer)
      r.packets) h.assembly (by omega) (by omega)
  have hall := (((hdetach.trans htx).trans hrx).trans hpackets).trans hassembly
  rwa [Nat.zero_add] at hall

lemma Entry.bare_payload (r : Entry) : r.bare.payload = 0 := by
  simp [Entry.payload, Entry.bare, blockSize]

lemma Entry.Sized.bare (h : r.Sized z) : r.bare.Sized z where
  __ := h
  tx := (by intros; contradiction)
  rx := (by intros; contradiction)
  packets := (by intros; contradiction)
  assembly a ha x hx := by
    rw [eq_of_mem_replicate ha] at hx
    cases hx
  unbuffered _ := ⟨rfl, rfl⟩

lemma Budget.release (h : Budget z t) (hk : t.flows[k]? = some r) : Budget z (t.release z k r) := by
  have hr := h.sized_of hk
  have hle := h.bytes_le hk
  simp only [Entry.bytes] at hle
  have hfrees := mReleaseIo_frees hr h.bound (by omega)
  simp only [Table.release, mReleaseIo_snd]
  exact h.frees hk hfrees hr.bare (mem_jobs_of_blocks hfrees.blocks h.jobs)
    (by rw [Entry.bare_payload, Nat.zero_add])

lemma Budget.dropUdp (h : Budget z t) (hk : t.flows[k]? = some r) :
    Budget z (t.put k (mDropUdp z t.store r).1 (mDropUdp z t.store r).2) := by
  have hr := h.sized_of hk
  have hle := h.bytes_le hk
  have hbound := h.bound
  simp only [Entry.bytes, Entry.payload] at hle
  have hpackets := dropPackets_frees (s := t.store) hr.packets h.bound (by omega)
  have hmem := hpackets.memory
  have hfrees := hpackets.trans (dropAssemblies_frees (s := dropPackets z t.store r.packets)
    hr.assembly (by omega) (by omega))
  refine h.frees hk hfrees ?_ (mem_jobs_of_blocks hfrees.blocks h.jobs) ?_
  · exact { hr with packets := (by intros; contradiction), assembly := hr.bare.assembly }
  · simp only [mDropUdp, Entry.payload, map_nil, sum_nil, map_replicate,
      Option.map_none, blockSize, Option.getD_none, sum_replicate, smul_zero]
    omega

lemma Budget.detachJob (h : Budget z t) (hk : t.flows[k]? = some r) :
    Budget z (t.put k (mResolveDetach t.store r).1 (mResolveDetach t.store r).2) := by
  have hfrees := mResolveDetach_frees t.store r
  rw [mResolveDetach_snd]
  refine h.frees hk hfrees ?_ (mem_jobs_of_blocks hfrees.blocks h.jobs) rfl
  have hr := h.sized_of hk
  refine { hr with unbuffered := fun hph => hr.unbuffered ?_ }
  exact hph.imp_left fun hres => absurd hres.2 Bool.false_ne_true

lemma Budget.free (h : Budget z t) : Budget z (t.mFlowFree z k) := by
  unfold Table.mFlowFree
  split
  · exact h
  rename_i r hk
  have hr := h.sized_of hk
  have hle := h.bytes_le hk
  have hbound := h.bound
  simp only [Entry.bytes] at hle
  have hrelease := mReleaseIo_frees (s := t.store) hr h.bound (by omega)
  have hmem := hrelease.memory
  have hrecord := mFree_frees (s := (mReleaseIo z t.store r).1) (b := some r.record)
    (by simpa using hr.record) (by omega) (by simp only [blockSize, Option.getD_some]; omega)
  have hfrees := hrelease.trans hrecord
  have hall := hfrees.memory
  simp only [blockSize, Option.getD_some] at hall
  have hlive := sum_map_eraseIdx Entry.bytes hk
  have hheld := sum_map_eraseIdx Entry.held hk
  have hreserved := h.reserved
  have hmemory := h.memory
  simp only [Table.live, Table.held, Entry.bytes] at hlive hheld hreserved hmemory
  refine
    { sized := fun e he => h.sized e (mem_of_mem_eraseIdx he)
      jobs := ?_
      memory := ?_
      bound := ?_
      freed := ?_
      reserved := ?_ }
  all_goals simp only [mReleaseIo_snd, Table.live, Table.held, Entry.bare, hfrees.jobBytes]
  · exact mem_jobs_of_blocks hfrees.blocks h.jobs
  · omega
  · omega
  · exact hfrees.freed h.freed
  · omega

lemma freeAll_frees {rs : List Entry} (hr : ∀ r ∈ rs, r.Sized z) (hmax : s.memory ≤ memoryMax)
    (hle : (rs.map Entry.bytes).sum ≤ s.memory) :
    Frees s (Table.freeAll z s rs) (rs.map Entry.bytes).sum := by
  induction rs generalizing s with
  | nil => exact .refl s
  | cons r rs ih =>
    obtain ⟨hr, hrs⟩ := forall_mem_cons.mp hr
    simp only [map_cons, sum_cons, Entry.bytes] at hle ⊢
    have hrelease := mReleaseIo_frees (s := s) hr hmax (by omega)
    have hmem := hrelease.memory
    have hrecord := mFree_frees (s := (mReleaseIo z s r).1) (b := some r.record)
      (by simpa using hr.record) (by omega) (by simp only [blockSize, Option.getD_some]; omega)
    have hfrees := hrelease.trans hrecord
    have hall := hfrees.memory
    simp only [blockSize, Option.getD_some] at hall
    have hrest := hfrees.trans (ih hrs (by omega) (by omega))
    simp only [Table.freeAll, mReleaseIo_snd, Entry.bare]
    rw [Nat.add_comm r.record]
    exact hrest

/-- The jobs at the end of a peer. -/
lemma freeJobs_frees {js : List Job} (hj : ∀ j ∈ js, j.block = z.job)
    (hmax : s.memory ≤ memoryMax) (hle : (js.map Job.block).sum ≤ s.memory) :
    Frees s (Table.freeJobs z s js) (js.map Job.block).sum := by
  induction js generalizing s with
  | nil => exact .refl s
  | cons j js ih =>
    obtain ⟨hj, hjs⟩ := forall_mem_cons.mp hj
    simp only [map_cons, sum_cons] at hle ⊢
    have hfree : Frees s (mFree s (some j.block) z.job) j.block :=
      mFree_frees (by simpa using hj) hmax (by simp only [blockSize, Option.getD_some]; omega)
    have hmem := hfree.memory
    exact hfree.trans (ih hjs (by omega) (by omega))

/-- At the end every block is freed. -/
lemma Budget.cleanup (h : Budget z t) : Budget z (t.cleanup z) := by
  have hbound := h.bound
  have hmemory := h.memory
  simp only [Table.live] at hmemory
  have hflows := freeAll_frees (s := t.store) h.sized h.bound (by omega)
  have hmem := hflows.memory
  have hbytes := hflows.jobBytes
  have hjobs := freeJobs_frees (s := Table.freeAll z t.store t.flows)
    (mem_jobs_of_blocks hflows.blocks h.jobs) (by omega)
    (by simp only [Store.jobBytes] at hbytes hmemory; omega)
  have hall := (hflows.trans hjobs).memory
  have hzero : (Table.freeJobs z (Table.freeAll z t.store t.flows)
      (Table.freeAll z t.store t.flows).jobs).memory = 0 := by
    simp only [Store.jobBytes] at hbytes hmemory
    omega
  have hfreed := (hflows.trans hjobs).freed h.freed
  simp only [Table.cleanup]
  generalize Table.freeJobs z (Table.freeAll z t.store t.flows)
    (Table.freeAll z t.store t.flows).jobs = s at hzero hfreed ⊢
  exact
    { sized := fun _ hr => absurd hr not_mem_nil
      jobs := fun _ hj => absurd hj not_mem_nil
      memory := hzero
      bound := by simp only [hzero, Nat.zero_le]
      freed := hfreed
      reserved := Nat.zero_le _ }

lemma reapBlocks_frees {js : List Job} (hj : ∀ j ∈ js, j.block = z.job)
    (hmax : s.memory ≤ memoryMax) (hle : (js.map Job.block).sum ≤ s.memory) :
    Frees s (Table.reapBlocks z s js) ((js.filter Job.idle).map Job.block).sum := by
  induction js generalizing s with
  | nil => exact .refl s
  | cons j js ih =>
    obtain ⟨hj, hjs⟩ := forall_mem_cons.mp hj
    simp only [map_cons, sum_cons] at hle
    simp only [Table.reapBlocks, filter_cons]
    split
    · have hfree : Frees s (mFree s (some j.block) z.job) j.block :=
        mFree_frees (by simpa using hj) hmax (by simp only [blockSize, Option.getD_some]; omega)
      have hmem := hfree.memory
      rw [map_cons, sum_cons]
      exact hfree.trans (ih hjs (by omega) (by omega))
    · exact ih hjs hmax (by omega)

lemma sum_filter_add_filter_not (js : List Job) (p : Job → Bool) :
    ((js.filter p).map Job.block).sum + ((js.filter fun j => !p j).map Job.block).sum =
      (js.map Job.block).sum := by
  induction js with
  | nil => rfl
  | cons j js ih =>
    simp only [filter_cons, map_cons, sum_cons]
    cases p j
    · simp only [Bool.not_false, if_true, Bool.false_eq_true, if_false, map_cons,
        sum_cons]
      omega
    · simp only [Bool.not_true, if_true, Bool.false_eq_true, if_false, map_cons,
        sum_cons]
      omega

/-- A reaped job gives back its block. -/
lemma Budget.reap (h : Budget z t) : Budget z (t.mResolveReap z) := by
  have hmemory := h.memory
  have hbound := h.bound
  have hreserved := h.reserved
  have hsplit := sum_filter_add_filter_not t.store.jobs Job.idle
  simp only [Table.live, Table.held, Store.jobBytes] at hmemory hreserved
  have hfrees := reapBlocks_frees (s := t.store) h.jobs h.bound (by omega)
  have hmem := hfrees.memory
  refine
    { sized := h.sized
      jobs := fun j hj => ?_
      memory := ?_
      bound := ?_
      freed := hfrees.freed h.freed
      reserved := ?_ }
  all_goals simp only [Table.mResolveReap, Table.reapBlocks_jobs, Table.live, Table.held,
    Store.jobBytes] at *
  · exact h.jobs j (mem_filter.mp hj).1
  · omega
  · omega
  · omega

lemma Budget.store (h : Budget z t) (hs : Frees t.store s 0) : Budget z { t with store := s } where
  sized := h.sized
  jobs := mem_jobs_of_blocks hs.blocks h.jobs
  memory := by
    simp only [Table.live, hs.jobBytes]
    exact hs.memory.trans h.memory
  bound := hs.memory.le.trans h.bound
  freed := hs.freed h.freed
  reserved := by
    simp only [Table.held, hs.jobBytes]
    exact h.reserved

lemma map_block (js : List Job) {p : Job → Prop} [DecidablePred p] {g : Job → Job}
    (hg : ∀ j, (g j).block = j.block) :
    (js.map fun j => if p j then g j else j).map Job.block = js.map Job.block := by
  rw [map_map]
  refine map_congr_left fun j _ => ?_
  simp only [Function.comp_apply]
  split
  · exact hg j
  · rfl

/-! ### Moves that allocate -/

lemma Budget.enter (h : Budget z t) {b : Bool}
    (hs : mControlAlloc t.store z.flow calloc = some s) (hr : Entered z own t r) :
    Budget z { t with
      store := s, nextKey := t.nextKey + 1, proofStarted := b, flows := r :: t.flows } := by
  obtain ⟨hle, rfl⟩ := mControlAlloc_spec hs
  have hpayload : r.payload = 0 := by
    simp [Entry.payload, hr.tx, hr.rx, hr.packets, hr.assembly, blockSize]
  have hmemory := h.memory
  have hreserved := h.reserved
  simp only [Table.live, Table.held] at hmemory hreserved
  refine
    { sized := forall_mem_cons.mpr ⟨?_, h.sized⟩
      jobs := h.jobs
      memory := ?_
      bound := hle
      freed := h.freed
      reserved := ?_ }
  · exact
      { record := hr.record
        tx := by simp [hr.tx]
        rx := by simp [hr.rx]
        packets := by simp [hr.packets]
        assembly := by simp [hr.assembly]
        unbuffered := fun _ => ⟨hr.tx, hr.rx⟩
        pending := by simp [hr.pendingOpen] }
  · simp only [Table.live, map_cons, sum_cons, Entry.bytes, hr.record, hpayload,
      Store.jobBytes] at hmemory ⊢
    omega
  · simp only [Table.held, map_cons, sum_cons, Entry.held, hpayload, if_true,
      Store.jobBytes] at hreserved ⊢
    omega

lemma Budget.alloc (h : Budget z t) (hk : t.flows[k]? = some r)
    (hs : mAlloc z t.peer.maxFlows t.store n calloc = some s) (hq : q.Sized z)
    (hbytes : q.payload = r.payload + n) : Budget z (t.put k s q) := by
  obtain ⟨hle, rfl⟩ := mAlloc_spec hs
  have hrec : q.record = r.record := hq.record.trans (h.sized_of hk).record.symm
  refine h.put hk hq h.jobs h.freed ?_ (by simp only; omega) (.inl hle)
  simp only [Entry.bytes, hrec, hbytes, Store.jobBytes]
  omega

lemma Budget.start (h : Budget z t) (hk : t.flows[k]? = some r) (hr : Complete r)
    (hs : mAlloc z t.peer.maxFlows t.store z.job calloc = some s) {job : Job}
    (hblock : job.block = z.job) :
    Budget z (t.put k { s with jobs := job :: s.jobs }
      { r with resolve := true, flow := { r.flow with phase := .resolving } }) := by
  obtain ⟨hle, rfl⟩ := mAlloc_spec hs
  have hsized := h.sized_of hk
  refine h.put hk ?_ (forall_mem_cons.mpr ⟨hblock, h.jobs⟩) h.freed ?_ (by simp only; omega)
    (.inl hle)
  · exact { hsized with unbuffered := fun _ => hsized.unbuffered (.inr ⟨hr.isLocal, hr.phase⟩) }
  · simp only [Entry.bytes, Entry.payload, Store.jobBytes, map_cons, sum_cons, hblock]
    omega

lemma Budget.udpEnqueue (h : Budget z t) (len : ℕ) (calloc : Bool) :
    Budget z (t.mUdpEnqueue z k len calloc) := by
  unfold Table.mUdpEnqueue
  split
  · exact h
  rename_i r hk
  split
  · exact h
  split
  · exact h
  rename_i s hs
  have hr := h.sized_of hk
  refine h.alloc hk hs { hr with packets := fun q hq => ?_ } ?_
  · rcases mem_append.mp hq with hq | hq
    · exact hr.packets q hq
    · rw [mem_singleton.mp hq]
  · simp only [Entry.payload, map_append, sum_append, map_cons, sum_cons,
      map_nil, sum_nil]
    omega

lemma Budget.udpPop (h : Budget z t) : Budget z (t.mUdpPop z k) := by
  unfold Table.mUdpPop
  split
  · exact h
  rename_i r hk
  split
  · exact h
  rename_i q qs hq
  have hr := h.sized_of hk
  have hpackets := hr.packets
  have hle := h.bytes_le hk
  rw [hq] at hpackets
  obtain ⟨hblock, hrest⟩ := forall_mem_cons.mp hpackets
  simp only [Entry.bytes, Entry.payload, hq, map_cons, sum_cons] at hle
  have hfrees := mFree_frees (s := t.store) (b := some q.block) (n := z.packet + q.len)
    (by simpa using hblock) h.bound (by simp only [blockSize, Option.getD_some]; omega)
  refine h.frees hk hfrees { hr with packets := hrest } (mem_jobs_of_blocks hfrees.blocks h.jobs) ?_
  simp only [Entry.payload, hq, map_cons, sum_cons, blockSize, Option.getD_some]
  omega

lemma Budget.assemblyNew (h : Budget z t) (slot total : ℕ) (calloc : Bool) :
    Budget z (t.mAssemblyNew z k slot total calloc) := by
  unfold Table.mAssemblyNew
  split
  · exact h
  rename_i r hk
  split
  · exact h
  rename_i hslot
  simp only [not_or, not_not] at hslot
  split
  · exact h
  rename_i s hs
  have hr := h.sized_of hk
  refine h.alloc hk hs { hr with assembly := fun a ha x hx => ?_ } ?_
  · rcases mem_or_eq_of_mem_set ha with ha | rfl
    · exact hr.assembly a ha x hx
    · rw [← Option.some.inj hx]
  have hsum := sum_map_set (b := some ⟨total, assemblySize total⟩)
    (fun a => blockSize (a.map AssemblyBlock.block)) hslot.2.1
  simp only [Option.map_none, Option.map_some, blockSize, Option.getD_none,
    Option.getD_some] at hsum
  simp only [Entry.payload, blockSize]
  omega

lemma Budget.assemblyDrop (h : Budget z t) (slot : ℕ) : Budget z (t.mAssemblyDrop k slot) := by
  unfold Table.mAssemblyDrop
  split
  · exact h
  rename_i r hk
  split
  · rename_i a ha
    have hr := h.sized_of hk
    have hle := h.bytes_le hk
    have hsum := sum_map_set (b := none) (fun a => blockSize (a.map AssemblyBlock.block)) ha
    simp only [Option.map_none, Option.map_some, blockSize, Option.getD_none,
      Option.getD_some] at hsum
    simp only [Entry.bytes, Entry.payload, blockSize] at hle
    have hfrees := mFree_frees (s := t.store) (b := some a.block) (n := assemblySize a.total)
      (by simpa using hr.assembly _ (mem_of_getElem? ha) a rfl) h.bound
      (by simp only [blockSize, Option.getD_some]; omega)
    refine h.frees hk hfrees { hr with assembly := fun b hb x hx => ?_ }
      (mem_jobs_of_blocks hfrees.blocks h.jobs) ?_
    · rcases mem_or_eq_of_mem_set hb with hb | rfl
      · exact hr.assembly b hb x hx
      · cases hx
    · simp only [Entry.payload, blockSize, Option.getD_some]
      omega
  · exact h

lemma Budget.allocBuffer (h : Budget z t) (hk : t.flows[k]? = some r) {q : Option ℕ → Entry}
    (hq : ∀ b, (∀ x ∈ b, x = streamBuffer) → (q b).Sized z)
    (hbytes : ∀ b, (q b).payload = r.payload + blockSize b) (calloc : Bool) :
    Budget z (t.put k (allocBuffer z t.peer.maxFlows t.store calloc).1
      (q (allocBuffer z t.peer.maxFlows t.store calloc).2)) := by
  unfold Flows.allocBuffer
  split
  · have hnone := hbytes none
    have hsized := hq none (by intros; contradiction)
    have hrec : (q none).record = r.record := hsized.record.trans (h.sized_of hk).record.symm
    refine h.put hk hsized h.jobs h.freed ?_ h.bound
      (.inr ⟨Entry.held_mono hrec (by simp [hnone, blockSize]), le_rfl⟩)
    simp only [Entry.bytes, hrec, hnone, blockSize, Option.getD_none]
    omega
  · rename_i s hs
    exact h.alloc hk hs (hq _ (by simp)) (hbytes _)

lemma Budget.buffers (h : Budget z t) {x : Store × Entry} (a b : Bool) (hk : t.flows[k]? = some r)
    (hr : (r.flow.phase = .resolving ∧ r.resolve = true) ∨
      (r.flow.isLocal = true ∧ r.flow.phase = .control ∧ r.tx = none ∧ r.rx = none))
    (hx : mResolveDetach t.store r = x) :
    Budget z (t.put k (mTcpBuffers z t.peer.maxFlows x.1 x.2 a b).1
      (mTcpBuffers z t.peer.maxFlows x.1 x.2 a b).2.1) := by
  have hsized := h.sized_of hk
  have hnone : r.tx = none ∧ r.rx = none := by
    rcases hr with hr | hr
    · exact hsized.unbuffered (.inl hr)
    · exact hr.2.2
  obtain ⟨s₀, r₀⟩ := x
  have hr₀ : r₀ = { r with resolve := false } := by
    rw [← mResolveDetach_snd t.store r, hx]
  have hdetach := h.detachJob hk
  rw [hx] at hdetach
  have hk₀ : (t.put k s₀ r₀).flows[k]? = some r₀ := Table.put_get hk
  -- In neither case does the flow have to be without buffers any longer.
  have hwith {tx rx : Option ℕ} (htx : ∀ x ∈ tx, x = streamBuffer)
      (hrx : ∀ x ∈ rx, x = streamBuffer) : Entry.Sized z { r₀ with tx, rx } := by
    rw [hr₀]
    refine { hsized with tx := htx, rx := hrx, unbuffered := fun hph => ?_ }
    rcases hph with ⟨-, hres⟩ | ⟨hl, hc⟩
    · exact absurd hres Bool.false_ne_true
    · rcases hr with ⟨hphase, -⟩ | ⟨hlocal, -⟩
      · exact absurd (hphase.symm.trans hc) (by rintro ⟨⟩)
      · exact absurd (hlocal.symm.trans hl) (by rintro ⟨⟩)
  have htx := hdetach.allocBuffer hk₀ (q := fun b => { r₀ with tx := b, rx := none })
    (fun b hb => hwith hb (by intros; contradiction)) (fun b => by
      simp only [Entry.payload, hr₀, hnone, blockSize, Option.getD_none]
      omega) a
  rw [Table.put_put] at htx
  have htxSized := htx.sized_of (Table.put_get hk)
  have hrx := htx.allocBuffer (Table.put_get hk) (q := fun b =>
      { r₀ with tx := (Flows.allocBuffer z t.peer.maxFlows s₀ a).2, rx := b })
    (fun b hb => hwith htxSized.tx hb) (fun b => by
      simp only [Entry.payload, blockSize, Option.getD_none, Table.put]
      omega) b
  rw [Table.put_put] at hrx
  simp only [mTcpBuffers]
  split
  · have hrelease := hrx.release (Table.put_get hk)
    simp only [Table.release, Table.put_put, Table.put_store] at hrelease
    exact hrelease
  · exact hrx

/-! ### Every move and every run -/

/-- **Every move keeps the budget.** -/
lemma Budget.move (h : Budget z t) (hm : Move z own t t') : Budget z t' := by
  cases hm with
  | peer hp => exact h.congr rfl rfl hp.maxFlows
  | flowId n => exact h.congr rfl rfl rfl
  | proofStarted b => exact h.congr rfl rfl rfl
  | resolvers => exact h.store ⟨rfl, rfl, fun h => h⟩
  | flow hk hf => exact h.flow hk ((h.sized_of hk).carried hf)
  | @reopen k r f hk hf =>
    have hr := h.sized_of hk
    have hl : f.isLocal = true := hf.isLocal.trans (hf.own.elim (fun h => h) hr.pending)
    refine h.flow hk (hr.flow (fun hph => ?_) fun _ => hl)
    rcases hph with ⟨hph, -⟩ | ⟨hfl, -⟩
    · exact absurd hph hf.phase
    · exact absurd (hl.symm.trans hfl) (by rintro ⟨⟩)
  | need n hk _ =>
    have hr := h.sized_of hk
    exact h.flow hk (hr.flow hr.unbuffered hr.pending)
  | enter _ hs hr => exact h.enter hs hr
  | release hk => exact h.release hk
  | dropUdp hk => exact h.dropUdp hk
  | free k => exact h.free
  | cleanup => exact h.cleanup
  | @openHeader k r f hk hp hl hc hn hkind hf =>
    have hr := h.sized_of hk
    have hbuf := hr.unbuffered (.inr ⟨hl, hc⟩)
    obtain ⟨-, -, -, -, hg⟩ := Table.mHeaderCheck_incoming hl hf
    refine (h.flow hk (f := f) (hr.flow (fun _ => hbuf) ?_)).congr rfl rfl rfl
    rcases hg with ⟨-, hg⟩ | ⟨-, -, -, hg⟩ <;> rw [hg] <;> exact hr.pending
  | @resumeHeader k r f hk hp hl hc hn hkind hf =>
    have hr := h.sized_of hk
    have hbuf := hr.unbuffered (.inr ⟨hl, hc⟩)
    obtain ⟨-, -, -, -, hg⟩ := Table.mHeaderCheck_incoming hl hf
    refine (h.flow hk (f := f) (hr.flow (fun _ => hbuf) ?_)).congr rfl rfl rfl
    rcases hg with ⟨-, hg⟩ | ⟨-, -, -, hg⟩ <;> rw [hg] <;> exact hr.pending
  | start hk hr _ hs _ hblock _ => exact (h.start hk hr hs hblock).congr rfl rfl rfl
  | detachJob hk => exact h.detachJob hk
  | buffers a b hk hr hx => exact h.buffers a b hk hr hx
  | @connect k r f job hk hr hjob howner hdone hf =>
    have hsized := h.sized_of hk
    refine (h.flow hk (f := f) (hsized.flow (fun hph => ?_) fun hp => ?_)).congr rfl rfl rfl
    · rcases hf.phase with hp | hp <;> simp [hp] at hph
    · exact hf.isLocal.trans (hsized.pending (hf.pendingOpen ▸ hp))
  | resolverTake owner =>
    unfold Table.resolverTake
    split
    · have hblocks := map_block t.store.jobs (p := fun j => j.owner = owner)
        (g := fun j => { j with state := .running }) fun _ => rfl
      exact (h.store (s := { t.store with jobs := _ }) ⟨rfl, hblocks, fun h => h⟩).congr rfl rfl rfl
    · exact h
  | resolverDone owner result family =>
    exact h.store ⟨rfl, map_block _ (g := fun j => { j with state := .done, result, family })
      fun _ => rfl, fun h => h⟩
  | reap => exact h.reap
  | udpEnqueue k len calloc => exact h.udpEnqueue len calloc
  | udpPop k => exact h.udpPop
  | assemblyNew k slot total calloc => exact h.assemblyNew slot total calloc
  | assemblyDrop k slot => exact h.assemblyDrop slot
  | @attach k o r q g hk hr hkind ho hq ht hres hg =>
    have hdead : Entry.Sized z { r with
        flow := { r.flow with stream := false, phase := .dead, closeRequested := true } } :=
      (h.sized_of hk).flow (fun hph => by simp at hph) (h.sized_of hk).pending
    have hold := h.flow ho ((h.sized_of ho).carried hg)
    refine Budget.congr (t := (t.put o t.store { q with flow := g }).put k t.store _) ?_ rfl rfl rfl
    by_cases hne : k = o
    · subst hne
      rw [Table.put_put]
      exact h.flow hk hdead
    · exact hold.flow (Table.put_get_of_ne hk (Ne.symm hne)) hdead
  | @verify k r f hk hp hf =>
    have hq : Entry.Sized z { r with proofReplyReady := true, flow := f } :=
      { (h.sized_of hk).carried hf with }
    exact (h.put hk hq h.jobs h.freed rfl h.bound (.inr ⟨le_rfl, le_rfl⟩)).congr rfl rfl rfl
  | ready hk hp hr hlive => exact h.congr rfl rfl rfl
  | detached hp hr hd => exact h.congr rfl rfl hp.maxFlows

/-- A sequence of moves keeps the budget. -/
lemma Budget.moves (h : Budget z t) (hm : Moves z own t t') : Budget z t' := by
  induction hm with
  | refl => exact h
  | tail _ hmove ih => exact ih.move hmove

/-- A new peer holds nothing. -/
lemma Budget.fresh (z : Sizes) (p : Peer) : Budget z { peer := p } where
  sized _ hr := absurd hr not_mem_nil
  jobs _ hj := absurd hj not_mem_nil
  memory := rfl
  bound := Nat.zero_le _
  freed _ hx := absurd hx not_mem_nil
  reserved := Nat.zero_le _

/-- Every run keeps the budget. -/
lemma Budget.run (z : Sizes) (p : Peer) (es : List Event) :
    Budget z (run (Table.step z) { peer := p } es) :=
  run_invariant (fun t e (h : Budget z t) => h.moves (Table.step_moves z t e)) es (Budget.fresh z p)

/-! ### Room for resumptions -/

/-- `m_flow_new`, `n` times in a row. -/
def Table.mFlowNews (z : Sizes) (t : Table) : ℕ → Option Table
  | 0 => some t
  | n + 1 => (t.mFlowNew z true).bind fun t => t.mFlowNews z n

lemma mFlowNews_isSome (hlen : t.flows.length + n ≤ 2 * t.limit + 2)
    (hmem : t.store.memory + n * z.flow ≤ memoryMax) : (t.mFlowNews z n).isSome = true := by
  induction n generalizing t with
  | zero => rfl
  | succ n ih =>
    rw [Nat.succ_mul] at hmem
    have halloc : mControlAlloc t.store z.flow true =
        some { t.store with memory := t.store.memory + z.flow } := by
      simp only [mControlAlloc, Bool.true_eq_false, or_false]
      rw [if_neg (by omega)]
    simp only [Table.mFlowNews, Table.mFlowNew, halloc]
    rw [if_neg (by omega), Option.bind_some]
    refine ih ?_ ?_
    · simp only [length_cons, Table.limit] at hlen ⊢
      omega
    · simp only
      omega

lemma Table.limit_le (t : Table) : t.limit ≤ 512 := by
  unfold Table.limit mLimit
  split_ifs <;> omega

lemma Table.held_eq_live (h : ∀ r ∈ t.flows, r.payload ≠ 0) : t.held = t.live := by
  have hmap : t.flows.map Entry.held = t.flows.map Entry.bytes :=
    map_congr_left fun r hr => if_neg (h r hr)
  rw [Table.held, Table.live, hmap]

lemma Budget.room (h : Budget z t) (hn : t.flows.length ≤ t.limit)
    (hbuf : ∀ r ∈ t.flows, r.tx.isSome = true ∧ r.rx.isSome = true) :
    (t.mFlowNews z (t.flows.length + 1)).isSome = true := by
  have hheld : t.held = t.live := by
    refine Table.held_eq_live fun r hr hzero => ?_
    obtain ⟨x, hx⟩ := Option.isSome_iff_exists.mp (hbuf r hr).1
    have hsize := (h.sized r hr).tx x hx
    simp only [Entry.payload, hx, blockSize, Option.getD_some, hsize, streamBuffer] at hzero
    omega
  have hmem : t.store.memory ≤ memoryMax - (t.limit + 2) * z.flow := by
    rw [h.memory, ← hheld]
    exact h.reserved
  have hfit : (t.limit + 2) * z.flow ≤ memoryMax :=
    (Nat.mul_le_mul_right z.flow (by have := t.limit_le; omega)).trans z.fits
  have hnew : (t.flows.length + 1) * z.flow ≤ (t.limit + 2) * z.flow :=
    Nat.mul_le_mul_right z.flow (by omega)
  exact mFlowNews_isSome (by omega) (by omega)

/-- **The budget of a peer is exact, and its reserve holds.** The counter is the sum of the live
blocks and at most 16 MiB; every free took off the size of its block; and one more `m_flow_new`
than there are flows succeeds. -/
theorem memory_exact (z : Sizes) (p : Peer) (es : List Event) :
    let t := run (Table.step z) { peer := p } es
    t.store.memory = t.live ∧ t.store.memory ≤ memoryMax ∧
      (∀ x ∈ t.store.freed, x.size = x.block ∧ x.size ≤ x.memory) ∧
      (t.flows.length ≤ t.limit →
        (∀ r ∈ t.flows, r.tx.isSome = true ∧ r.rx.isSome = true) →
          (t.mFlowNews z (t.flows.length + 1)).isSome = true) := by
  have h := Budget.run z p es
  exact ⟨h.memory, h.bound, h.freed, h.room⟩

/-- Two retained flows of a client that waits for a connection, and a freed one. -/
theorem memory_exact_retained :
    let z : Sizes := ⟨4096, 512, 48, by decide⟩
    let env : Table.LocalEnv := { target := ⟨[104], 80⟩, protocol := protoTcp, fd := true }
    let es : List Event := [.localFlow env, .localFlow env, .localFlow env, .abort 0, .free 0]
    let t := run (Table.step z) { peer := { isServer := false } } es
    t.flows.length = 2 ∧ t.store.freed.length = 3 ∧
      (t.mFlowNews z 3).isSome = true := by
  refine ⟨by decide +kernel, by decide +kernel, ?_⟩
  exact (memory_exact _ _ _).2.2.2 (by decide +kernel) (by decide +kernel)

end OhecoBroker.Flows
