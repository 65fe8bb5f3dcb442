/-
What `m_udp_read` puts together, whatever datagrams arrive.

* `Fragment.Wf`, `Piece`, `Came`: fragments that pass the checks, and a payload all of whose
  pieces arrived;
* `Assembly.Made`, `Assembly.Made.put`: assemblies;
* `PlaceStep`, `ReadStep`, `Flow.read_step`: what a fragment does to its flow;
* `Flow.Sound`, `Flow.Sound.read`: **`m_udp_read` keeps the invariant, for any fragment**.
-/
import OhecoBroker.Udp.Flow

namespace OhecoBroker.Udp

open Lib List
open Mapping (Phase field protoUdp udpMax uint64Max)

/-! ### Fragments -/

/-- The shape of a fragment that passes the checks. -/
structure Fragment.Wf (g : Fragment) : Prop where
  max : g.total ≤ udpMax
  aligned : g.offset = fragmentSize * (g.offset / fragmentSize)
  inside : g.offset < g.total ∨ (g.total = 0 ∧ g.offset = 0)
  size : g.bytes.length = pieceSize fragmentSize g.total (g.offset / fragmentSize)

/-- What passes the checks has the shape. -/
lemma parse_wf {v : List UInt8} (h : parse v = some g) : g.Wf := by
  simp only [parse, Option.ite_none_left_eq_some] at h
  obtain ⟨-, hok, h⟩ := h
  cases h
  simp only [not_or, not_and, not_lt, not_not, ne_eq] at hok
  obtain ⟨-, -, hmax, hle, -, hsize, hmod, hpiece, hend⟩ := hok
  have hal : field v 22 2 = fragmentSize * (field v 22 2 / fragmentSize) := by
    have := Nat.div_add_mod (field v 22 2) fragmentSize
    omega
  refine ⟨hmax, hal, ?_, ?_⟩
  · show field v 22 2 < field v 20 2 ∨ field v 20 2 = 0 ∧ field v 22 2 = 0
    rcases Nat.eq_zero_or_pos (field v 20 2) with h0 | h0
    · omega
    · have := hend (by omega)
      omega
  show (v.drop dataHeader).length = pieceSize fragmentSize (field v 20 2)
    (field v 22 2 / fragmentSize)
  rw [length_drop, ← hsize, hpiece, pieceSize, ← hal]
  split <;> omega

def fragments (arrived : List (List UInt8)) : List Fragment := arrived.filterMap parse

def Piece (gs : List Fragment) (flow packet : ℕ) (data : List UInt8) (i : ℕ) : Prop :=
  ∃ g ∈ gs, g.flow = flow ∧ g.packet = packet ∧ g.total = data.length ∧
    g.offset = fragmentSize * i ∧
    g.bytes = slice data (fragmentSize * i) (pieceSize fragmentSize data.length i)

/-- Every piece arrived in a fragment of its packet. -/
structure Came (gs : List Fragment) (flow packet : ℕ) (data : List UInt8) : Prop where
  announced : ∃ g ∈ gs, g.flow = flow ∧ g.packet = packet ∧ g.total = data.length
  pieces : ∀ i, fragmentSize * i < data.length → Piece gs flow packet data i

variable {gs gs' : List Fragment} {i j k : ℕ} {a : Assembly} {f : Flow} {g : Fragment}

lemma Piece.mono {flow packet : ℕ} {data : List UInt8}
    (h : Piece gs flow packet data i) (hgs : gs ⊆ gs') : Piece gs' flow packet data i := by
  obtain ⟨g, hg, h⟩ := h
  exact ⟨g, hgs hg, h⟩

lemma Came.mono {flow packet : ℕ} {data : List UInt8}
    (h : Came gs flow packet data) (hgs : gs ⊆ gs') : Came gs' flow packet data := by
  obtain ⟨g, hg, hann⟩ := h.announced
  exact ⟨⟨g, hgs hg, hann⟩, fun i hi => (h.pieces i hi).mono hgs⟩

/-! ### Assemblies -/

structure Assembly.Made (gs : List Fragment) (flow : ℕ) (a : Assembly) : Prop where
  length : a.data.length = a.total
  max : a.total ≤ udpMax
  received : a.received = filledSize fragmentSize a.total 128 a.bits.getLsbD
  pieces : ∀ i, a.bits.getLsbD i = true → Piece gs flow a.id a.data i

lemma Assembly.Made.mono {flow : ℕ} (h : a.Made gs flow) (hgs : gs ⊆ gs') : a.Made gs' flow :=
  { h with pieces := fun i hi => (h.pieces i hi).mono hgs }

/-- A new assembly has no fragment. -/
lemma made_new (gs : List Fragment) (flow id : ℕ) {total : ℕ} (hmax : total ≤ udpMax) :
    ({ id, total, data := List.replicate total 0 } : Assembly).Made gs flow where
  length := length_replicate
  max := hmax
  received := by
    have hzero : (0 : BitVec 128).getLsbD = fun _ => false := funext fun i => BitVec.getLsbD_zero
    rw [hzero, filledSize_empty]
  pieces i hi := by simp at hi

def Assembly.put (now : ℕ) (a : Assembly) (g : Fragment) : Assembly :=
  { a with
    data := overwrite a.data g.offset g.bytes
    bits := a.bits ||| 1#128 <<< (g.offset / fragmentSize)
    received := a.received + g.bytes.length
    updated := now }

/-- The index of a fragment has a bit. -/
lemma Fragment.Wf.index_lt (h : g.Wf) : g.offset / fragmentSize < 128 := by
  have hin := h.inside
  have hmax := h.max
  simp only [fragmentSize, udpMax] at *
  omega

lemma Assembly.put_bits (now : ℕ) (a : Assembly) (g : Fragment) (hj : j < 128) :
    (a.put now g).bits.getLsbD j =
      (a.bits.getLsbD j || decide (g.offset / fragmentSize = j)) :=
  ReplayWindow.getLsbD_or_shiftLeft a.bits hj

lemma Assembly.put_bit (now : ℕ) (a : Assembly) (hg : g.Wf) :
    (a.put now g).bits.getLsbD (g.offset / fragmentSize) = true := by
  rw [a.put_bits now g hg.index_lt, decide_eq_true rfl, Bool.or_true]

/-- A fragment lies in its payload. -/
lemma Fragment.Wf.fits (h : g.Wf) : g.offset + g.bytes.length ≤ g.total := by
  have hin := h.inside
  have hal := h.aligned
  rw [h.size, pieceSize, ← hal]
  omega

/-- The other fragments stay as they are. -/
lemma slice_put (now : ℕ) (hg : g.Wf)
    (hlen : a.data.length = g.total) (hi : i ≠ g.offset / fragmentSize) :
    slice (a.put now g).data (fragmentSize * i) (pieceSize fragmentSize g.total i) =
      slice a.data (fragmentSize * i) (pieceSize fragmentSize g.total i) := by
  refine slice_overwrite_of_disjoint (hlen ▸ hg.fits) ?_
  have hal := hg.aligned
  have hsize := hg.size
  simp only [pieceSize, fragmentSize] at *
  omega

lemma Assembly.Made.put {flow : ℕ}
    (h : a.Made gs flow) (now : ℕ) (hg : g.Wf) (hmem : g ∈ gs) (hflow : g.flow = flow)
    (hid : a.id = g.packet) (htotal : a.total = g.total)
    (hnew : a.bits.getLsbD (g.offset / fragmentSize) = false) :
    (a.put now g).Made gs flow := by
  have hlen : a.data.length = g.total := h.length.trans htotal
  have hlen' : (a.put now g).data.length = g.total :=
    (length_overwrite (hlen ▸ hg.fits)).trans hlen
  refine ⟨hlen'.trans htotal.symm, h.max, ?_, fun i hi => ?_⟩
  · show a.received + g.bytes.length = filledSize fragmentSize a.total 128 _
    rw [filledSize_insert hg.index_lt hnew fun j hj => a.put_bits now g hj, h.received, hg.size,
      htotal]
  have hi' : i < 128 := by
    by_contra hge
    rw [BitVec.getLsbD_of_ge _ _ (Nat.not_lt.mp hge)] at hi
    cases hi
  rw [a.put_bits now g hi'] at hi
  by_cases heq : g.offset / fragmentSize = i
  · -- the piece is the fragment itself
    subst heq
    refine ⟨g, hmem, hflow, hid.symm, hlen'.symm, hg.aligned, ?_⟩
    rw [hlen', ← hg.size, ← hg.aligned]
    exact (slice_overwrite (hlen ▸ hg.fits)).symm
  simp only [heq, decide_false, Bool.or_false] at hi
  obtain ⟨k, hk, hkf, hkp, hkt, hko, hkb⟩ := h.pieces i hi
  refine ⟨k, hk, hkf, hkp, hkt.trans (hlen.trans hlen'.symm), hko, ?_⟩
  rw [hkb, hlen, hlen', slice_put now hg hlen (Ne.symm heq)]

lemma Assembly.Made.came {flow : ℕ} (h : a.Made gs flow)
    (hi : a.bits.getLsbD i = true) (hall : a.received = a.total) : Came gs flow a.id a.data := by
  have hmax := h.max
  have hbits : ∀ i < 128, fragmentSize * i < a.total → a.bits.getLsbD i = true :=
    (filledSize_eq_iff (by decide) (by simp only [fragmentSize, udpMax] at *; omega)).mp
      (h.received.symm.trans hall)
  obtain ⟨g, hg, hflow, hid, htotal, -⟩ := h.pieces i hi
  refine ⟨⟨g, hg, hflow, hid, htotal⟩, fun j hj => ?_⟩
  rw [h.length] at hj
  refine h.pieces j (hbits j ?_ hj)
  simp only [fragmentSize, udpMax] at *
  omega

/-- Some fragment is there, some is missing. -/
structure Assembly.Begun (gs : List Fragment) (flow : ℕ) (a : Assembly) : Prop where
  made : a.Made gs flow
  some : ∃ i, a.bits.getLsbD i = true
  missing : a.received ≠ a.total

/-! ### Slots -/

def Holds (slots : List (Option Assembly)) (j : ℕ) (a : Assembly) : Prop :=
  slots[j]? = some (some a)

lemma holds_filter {slots : List (Option Assembly)} {p : Assembly → Bool} :
    Holds (slots.map (Option.filter p)) j a ↔ Holds slots j a ∧ p a = true := by
  unfold Holds
  rw [List.getElem?_map]
  cases slots[j]? with
  | none => simp
  | some slot => simp only [Option.map_some, Option.some.injEq, Option.filter_eq_some_iff]

lemma holds_sweep {slots : List (Option Assembly)} {now high : ℕ} :
    Holds (sweep now high slots) j a ↔ Holds slots j a ∧ ¬ a.Stale now high := by
  rw [sweep, holds_filter, decide_eq_true_eq]

lemma not_holds_replicate {n : ℕ} : ¬ Holds (List.replicate n none) j a := by
  intro h
  simpa using eq_of_mem_replicate (mem_of_getElem? h)

lemma holds_set_none {slots : List (Option Assembly)} :
    Holds (slots.set k none) j a ↔ Holds slots j a ∧ j ≠ k := by
  unfold Holds
  rw [List.getElem?_set]
  by_cases h : k = j
  · subst h
    by_cases hk : k < slots.length <;> simp [hk]
  · simp [h, Ne.symm h]

lemma holds_set_some {slots : List (Option Assembly)} {b : Assembly} (hk : k < slots.length) :
    Holds (slots.set k (some b)) j a ↔ (j = k ∧ a = b) ∨ (Holds slots j a ∧ j ≠ k) := by
  unfold Holds
  rw [List.getElem?_set]
  by_cases h : k = j
  · subst h
    simp [hk, eq_comm]
  · simp [h, Ne.symm h]

/-- What the scan adds to what it had found before place `i`. -/
structure ScanSpec (packet : ℕ) (slots : List (Option Assembly)) (i : ℕ)
    (acc res : Option (ℕ × Assembly) × Option ℕ) : Prop where
  found : ∀ k a, res.1 = some (k, a) →
    acc.1 = some (k, a) ∨ (a.id = packet ∧ ∃ j, k = i + j ∧ Holds slots j a)
  missing : res.1 = none → ∀ j a, Holds slots j a → a.id ≠ packet
  free : ∀ k, res.2 = some k → acc.2 = some k ∨ ∃ j, k = i + j ∧ slots[j]? = some none
  full : res.2 = none → ∀ j : ℕ, slots[j]? ≠ some none

lemma scan_acc (packet : ℕ) (slots : List (Option Assembly)) (i : ℕ)
    (acc : Option (ℕ × Assembly) × Option ℕ) :
    ((scan packet slots i acc).1 = none → acc.1 = none) ∧
      ((scan packet slots i acc).2 = none → acc.2 = none) := by
  induction slots generalizing i acc with
  | nil => exact ⟨id, id⟩
  | cons slot slots ih =>
    cases slot with
    | none =>
      obtain ⟨h1, h2⟩ := ih (i + 1) (acc.1, acc.2 <|> some i)
      refine ⟨h1, fun h => ?_⟩
      have := h2 h
      cases hacc : acc.2 with
      | none => rfl
      | some k => simp [hacc] at this
    | some b =>
      obtain ⟨h1, h2⟩ := ih (i + 1) (if b.id = packet then some (i, b) else acc.1, acc.2)
      refine ⟨fun h => ?_, h2⟩
      have := h1 h
      by_cases hb : b.id = packet
      · simp [hb] at this
      · simpa [hb] using this

lemma scan_spec (packet : ℕ) (slots : List (Option Assembly)) (i : ℕ)
    (acc : Option (ℕ × Assembly) × Option ℕ) :
    ScanSpec packet slots i acc (scan packet slots i acc) := by
  induction slots generalizing i acc with
  | nil => exact ⟨fun _ _ h => .inl h, fun _ j a h => by simp [Holds] at h,
      fun _ h => .inl h, fun _ j h => by simp at h⟩
  | cons slot slots ih =>
    have hshift {j : ℕ} : i + 1 + j = i + (j + 1) := by omega
    cases slot with
    | none =>
      obtain ⟨hfound, hmissing, hfree, hfull⟩ := ih (i + 1) (acc.1, acc.2 <|> some i)
      refine ⟨fun k a h => ?_, fun h j a hj => ?_, fun k h => ?_, fun h j hj => ?_⟩
      · refine (hfound k a h).imp_right ?_
        rintro ⟨hid, j, rfl, hj⟩
        exact ⟨hid, j + 1, hshift, hj⟩
      · cases j with
        | zero => simp [Holds] at hj
        | succ j => exact hmissing h j a hj
      · rcases hfree k h with hacc | ⟨j, rfl, hj⟩
        · cases h2 : acc.2 with
          | none =>
            simp only [h2, Option.orElse_eq_orElse, Option.orElse_none, Option.some.injEq] at hacc
            exact .inr ⟨0, hacc.symm, rfl⟩
          | some k' =>
            left
            simpa [h2] using hacc
        · exact .inr ⟨j + 1, hshift, hj⟩
      · have hacc := (scan_acc packet slots (i + 1) (acc.1, acc.2 <|> some i)).2 h
        cases h2 : acc.2 <;> simp [h2] at hacc
    | some b =>
      obtain ⟨hfound, hmissing, hfree, hfull⟩ :=
        ih (i + 1) (if b.id = packet then some (i, b) else acc.1, acc.2)
      refine ⟨fun k a h => ?_, fun h j a hj => ?_, fun k h => ?_, fun h j hj => ?_⟩
      · rcases hfound k a h with hacc | ⟨hid, j, rfl, hj⟩
        · by_cases hb : b.id = packet
          · simp only [hb, if_true, Option.some.injEq, Prod.mk.injEq] at hacc
            obtain ⟨rfl, rfl⟩ := hacc
            exact .inr ⟨hb, 0, rfl, rfl⟩
          · left
            simpa [hb] using hacc
        · exact .inr ⟨hid, j + 1, hshift, hj⟩
      · have hacc := (scan_acc packet slots (i + 1) _).1 h
        cases j with
        | zero =>
          obtain rfl : b = a := by simpa [Holds] using hj
          intro hb
          simp [hb] at hacc
        | succ j => exact hmissing h j a hj
      · refine (hfree k h).imp_right ?_
        rintro ⟨j, rfl, hj⟩
        exact ⟨j + 1, hshift, hj⟩
      · cases j with
        | zero => simp at hj
        | succ j => exact hfull h j hj

/-! ### What a fragment does to its flow -/

inductive PlaceStep (env : ReadEnv) (f : Flow) (k : ℕ) (a : Assembly) (g : Fragment) : Flow → Prop
  | conflict (h : a.total ≠ g.total ∨ (a.bits.getLsbD (g.offset / fragmentSize) = true ∧
      slice a.data g.offset g.bytes.length ≠ g.bytes)) : PlaceStep env f k a g (f.settle k g.packet)
  | duplicate (h : a.bits.getLsbD (g.offset / fragmentSize) = true) : PlaceStep env f k a g f
  | stored (htotal : a.total = g.total) (hnew : a.bits.getLsbD (g.offset / fragmentSize) = false)
      (hmore : (a.put env.now g).received ≠ g.total) :
      PlaceStep env f k a g { f with assembly := f.assembly.set k (some (a.put env.now g)) }
  | complete (htotal : a.total = g.total) (hnew : a.bits.getLsbD (g.offset / fragmentSize) = false)
      (hall : (a.put env.now g).received = g.total) (closeRequested : Bool) :
      PlaceStep env f k a g (Flow.settle { f with
        handed := f.handed ++ [(g.packet, (a.put env.now g).data)], closeRequested } k g.packet)

/-- What a fragment does with its assembly. -/
lemma Flow.place_step (env : ReadEnv) (f : Flow) (k : ℕ) (a : Assembly) (g : Fragment) :
    PlaceStep env f k a g (f.place env k a g) := by
  unfold Flow.place
  split
  · next h => exact .conflict (.inl h)
  rename_i htotal
  have htotal : a.total = g.total := not_not.mp htotal
  split
  · next hbit =>
    split
    · next h => exact .conflict (.inr ⟨hbit, h.2⟩)
    · exact .duplicate hbit
  next hbit =>
  have hnew : a.bits.getLsbD (g.offset / fragmentSize) = false := by simpa using hbit
  simp only
  split
  · next h => exact .stored htotal hnew h
  · next h => exact .complete htotal hnew (not_not.mp h) _

def Flow.swept (env : ReadEnv) (g : Fragment) (f : Flow) : Flow :=
  { f with
    window := f.window.advance g.packet
    assembly := sweep env.now (f.window.advance g.packet).high f.assembly }

def Fragment.start (g : Fragment) : Assembly :=
  { id := g.packet, total := g.total, data := List.replicate g.total 0 }

/-- The assembly of the packet, or a new one in a free slot. -/
def Slot (env : ReadEnv) (slots : List (Option Assembly)) (g : Fragment) (k : ℕ) (a : Assembly) :
    Prop :=
  (Holds slots k a ∧ a.id = g.packet) ∨
    ((∀ j b, Holds slots j b → b.id ≠ g.packet) ∧ slots[k]? = some none ∧ a = g.start ∧
      env.alloc = true)

/-- What `m_udp_read` does to the flow of a fragment. -/
inductive ReadStep (env : ReadEnv) (g : Fragment) (f : Flow) : Flow → Prop
  | refused (h : ¬ f.accepts) : ReadStep env g f f
  | closed (ha : f.accepts) (hc : (f.window.advance g.packet).Closed g.packet) :
      ReadStep env g f { f with window := f.window.advance g.packet }
  | noRoom (ha : f.accepts) (ho : ¬ (f.window.advance g.packet).Closed g.packet)
      (hmissing : ∀ j a, Holds (f.swept env g).assembly j a → a.id ≠ g.packet)
      (hroom : env.alloc = false ∨ ∀ j : ℕ, (f.swept env g).assembly[j]? ≠ some none) :
      ReadStep env g f (f.swept env g)
  | placed {f' : Flow} (k : ℕ) (a : Assembly) (ha : f.accepts)
      (ho : ¬ (f.window.advance g.packet).Closed g.packet)
      (hslot : Slot env (f.swept env g).assembly g k a)
      (h : PlaceStep env (f.swept env g) k a g f') : ReadStep env g f f'

/-- **A fragment takes one of these steps.** -/
lemma Flow.read_step (env : ReadEnv) (g : Fragment) (f : Flow) :
    ReadStep env g f (f.read env g) := by
  unfold Flow.read
  split
  · next h => exact .refused h
  rename_i h
  have ha : f.accepts := not_not.mp h
  simp only
  split
  · next hc => exact .closed ha hc
  rename_i ho
  have hspec := scan_spec g.packet
    (sweep env.now (f.window.advance g.packet).high f.assembly) 0 (none, none)
  rcases hres : scan g.packet (sweep env.now (f.window.advance g.packet).high f.assembly) 0
    (none, none) with ⟨found, empty⟩
  rw [hres] at hspec
  cases found with
  | some ka =>
    obtain ⟨k, a⟩ := ka
    obtain ⟨hid, j, rfl, hj⟩ := (hspec.found k a rfl).resolve_left (by rintro ⟨⟩)
    rw [Nat.zero_add]
    exact .placed j a ha ho (.inl ⟨hj, hid⟩) (Flow.place_step env _ j a g)
  | none =>
    cases empty with
    | none => exact .noRoom ha ho (hspec.missing rfl) (.inr (hspec.full rfl))
    | some k =>
      obtain ⟨j, rfl, hj⟩ := (hspec.free k rfl).resolve_left (by rintro ⟨⟩)
      rw [Nat.zero_add]
      simp only
      split
      · next halloc => exact .noRoom ha ho (hspec.missing rfl) (.inl halloc)
      next halloc =>
      exact .placed j g.start ha ho
        (.inr ⟨hspec.missing rfl, hj, rfl, by simpa using halloc⟩)
        (Flow.place_step env _ j g.start g)

/-! ### The invariant -/

/-- The receiving half of a flow, when the fragments of `gs` arrived. -/
structure Flow.Sound (gs : List Fragment) (f : Flow) : Prop where
  begun : ∀ j a, Holds f.assembly j a → a.Begun gs f.id.toNat
  distinct : ∀ i j a b, Holds f.assembly i a → Holds f.assembly j b → a.id = b.id → i = j
  handed : ∀ x ∈ f.handed, x.1 ≤ f.window.high ∧ f.window.Closed x.1 ∧ Came gs f.id.toNat x.1 x.2
  once : (f.handed.map Prod.fst).Nodup

lemma Flow.Sound.mono (h : f.Sound gs) (hgs : gs ⊆ gs') : f.Sound gs' where
  begun j a hj := { h.begun j a hj with made := (h.begun j a hj).made.mono hgs }
  __ := h
  handed x hx := ⟨(h.handed x hx).1, (h.handed x hx).2.1, (h.handed x hx).2.2.mono hgs⟩

variable {env : ReadEnv}

lemma Flow.Sound.shrink {f' : Flow} (h : f.Sound gs) (hid : f'.id = f.id)
    (hhanded : f'.handed = f.handed)
    (hslots : ∀ j a, Holds f'.assembly j a → Holds f.assembly j a)
    (hwindow : ∀ n ≤ f.window.high, f.window.Closed n →
      n ≤ f'.window.high ∧ f'.window.Closed n) : f'.Sound gs where
  begun j a hj := hid ▸ h.begun j a (hslots j a hj)
  distinct i j a b hi hj := h.distinct i j a b (hslots i a hi) (hslots j b hj)
  handed x hx := by
    obtain ⟨hle, hclosed, hcame⟩ := h.handed x (hhanded ▸ hx)
    obtain ⟨hle', hclosed'⟩ := hwindow x.1 hle hclosed
    exact ⟨hle', hclosed', hid ▸ hcame⟩
  once := hhanded ▸ h.once

lemma Flow.Sound.swept (h : f.Sound gs) : (f.swept env g).Sound gs := by
  refine h.shrink rfl rfl (fun j a hj => (holds_sweep.mp hj).1) fun n hn hc => ⟨?_, hc.advance hn _⟩
  exact hn.trans ((le_max_left _ _).trans (ReplayWindow.high_advance _ _).ge)

lemma Flow.Sound.settle (h : f.Sound gs) (k packet : ℕ) : (f.settle k packet).Sound gs :=
  h.shrink rfl rfl (fun _ _ hj => (holds_set_none.mp hj).1) fun _ hn hc => ⟨hn, hc.mark _⟩

lemma Flow.Sound.hand (h : f.Sound gs) {packet : ℕ} {data : List UInt8}
    (hle : packet ≤ f.window.high) (ho : ¬ f.window.Closed packet)
    (hcame : Came gs f.id.toNat packet data) (k : ℕ) (closeRequested : Bool) :
    Flow.Sound gs
      (Flow.settle { f with handed := f.handed ++ [(packet, data)], closeRequested } k packet)
    where
  begun j a hj := h.begun j a (holds_set_none.mp hj).1
  distinct i j a b hi hj := h.distinct i j a b (holds_set_none.mp hi).1 (holds_set_none.mp hj).1
  handed x hx := by
    rcases mem_append.mp hx with hx | hx
    · obtain ⟨hxle, hclosed, hxcame⟩ := h.handed x hx
      exact ⟨hxle, hclosed.mark _, hxcame⟩
    · obtain rfl := mem_singleton.mp hx
      exact ⟨hle, ReplayWindow.closed_mark _ _, hcame⟩
  once := by
    show (List.map Prod.fst (f.handed ++ [(packet, data)])).Nodup
    rw [map_append, map_singleton, nodup_append]
    refine ⟨h.once, nodup_singleton _, ?_⟩
    rintro n hn m hm rfl
    obtain ⟨x, hx, rfl⟩ := mem_map.mp hn
    have hpacket : x.1 = packet := mem_singleton.mp hm
    exact ho (hpacket ▸ (h.handed x hx).2.1)

lemma Slot.lt {slots : List (Option Assembly)} (h : Slot env slots g k a) : k < slots.length := by
  rcases h with ⟨h, -⟩ | ⟨-, h, -⟩
  · exact (List.getElem?_eq_some_iff.mp h).1
  · exact (List.getElem?_eq_some_iff.mp h).1

lemma Slot.id {slots : List (Option Assembly)} (h : Slot env slots g k a) : a.id = g.packet := by
  rcases h with ⟨-, h⟩ | ⟨-, -, rfl, -⟩
  · exact h
  · rfl

/-- A packet has one assembly. -/
lemma Flow.Sound.other (h : f.Sound gs) {b : Assembly}
    (hslot : Slot env f.assembly g k a) (hb : Holds f.assembly j b) (hid : b.id = g.packet) :
    j = k := by
  rcases hslot with ⟨ha, haid⟩ | ⟨hmissing, -⟩
  · exact h.distinct j k b a hb ha (hid.trans haid.symm)
  · exact absurd hid (hmissing j b hb)

lemma Flow.Sound.made_slot (h : f.Sound gs) (hg : g.Wf)
    (hslot : Slot env f.assembly g k a) : a.Made gs f.id.toNat := by
  rcases hslot with ⟨ha, -⟩ | ⟨-, -, rfl, -⟩
  · exact (h.begun k a ha).made
  · exact made_new gs _ _ hg.max

lemma Flow.Sound.place {f' : Flow} (h : f.Sound gs) (hg : g.Wf)
    (hmem : g ∈ gs) (hflow : g.flow = f.id.toNat) (hle : g.packet ≤ f.window.high)
    (ho : ¬ f.window.Closed g.packet) (hslot : Slot env f.assembly g k a)
    (hstep : PlaceStep env f k a g f') : f'.Sound gs := by
  have hmade := h.made_slot hg hslot
  cases hstep with
  | conflict _ => exact h.settle k g.packet
  | duplicate _ => exact h
  | stored htotal hnew hmore =>
    have hput := hmade.put env.now hg hmem hflow hslot.id htotal hnew
    -- the new assembly is the only one of its packet
    have hids : ∀ j b, Holds f.assembly j b → j ≠ k → b.id ≠ g.packet :=
      fun j b hb hj hid => hj (h.other hslot hb hid)
    refine ⟨fun j b hb => ?_, fun i j b c hb hc hid => ?_, h.handed, h.once⟩
    · rcases (holds_set_some hslot.lt).mp hb with ⟨-, rfl⟩ | ⟨hb, -⟩
      · exact ⟨hput, ⟨_, a.put_bit env.now hg⟩, htotal ▸ hmore⟩
      · exact h.begun j b hb
    rcases (holds_set_some hslot.lt).mp hb with ⟨hi, rfl⟩ | ⟨hb', hi⟩ <;>
      rcases (holds_set_some hslot.lt).mp hc with ⟨hj, rfl⟩ | ⟨hc', hj⟩
    · exact hi.trans hj.symm
    · exact absurd (hid.symm.trans hslot.id) (hids j c hc' hj)
    · exact absurd (hid.trans hslot.id) (hids i b hb' hi)
    · exact h.distinct i j b c hb' hc' hid
  | complete htotal hnew hall closeRequested =>
    have hput := hmade.put env.now hg hmem hflow hslot.id htotal hnew
    have hcame := hput.came (a.put_bit env.now hg) (hall.trans htotal.symm)
    exact h.hand hle ho (hslot.id ▸ hcame) k closeRequested

lemma Flow.Sound.read (h : f.Sound gs) (hg : g.Wf) (hmem : g ∈ gs) (hflow : g.flow = f.id.toNat) :
    (f.read env g).Sound gs := by
  have hstep := f.read_step env g
  generalize f.read env g = f' at hstep
  have hhigh : ∀ n ≤ f.window.high, n ≤ (f.window.advance g.packet).high := fun n hn =>
    hn.trans ((le_max_left _ _).trans (ReplayWindow.high_advance _ _).ge)
  cases hstep with
  | refused _ => exact h
  | closed _ _ =>
    exact h.shrink rfl rfl (fun _ _ hj => hj) fun n hn hc => ⟨hhigh n hn, hc.advance hn _⟩
  | noRoom => exact h.swept
  | placed k a _ ho hslot hplace =>
    refine h.swept.place hg hmem hflow ?_ ho hslot hplace
    exact (le_max_right _ _).trans (ReplayWindow.high_advance _ _).ge

end OhecoBroker.Udp
