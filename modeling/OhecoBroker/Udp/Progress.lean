/-
A packet on its way into a flow.

* `Faithful`: what arrived for the packet are fragments of one payload;
* `Flow.Track`: it was given to the socket, or the flow holds the fragments admitted so far;
* `Flow.Track.swept`, `Flow.Track.other`: a fragment of another packet loses nothing;
* `Flow.Admits`, `Flow.Track.own`: **a fragment of the packet is added when it is admitted**.
-/
import OhecoBroker.Udp.Send

namespace OhecoBroker.Udp

open Lib
open Mapping (Phase field protoUdp udpMax uint64Max)

/-! ### Fragments of one payload -/

/-- What arrived are fragments of `d`. -/
def Faithful (gs : List Fragment) (flow packet : ℕ) (d : List UInt8) : Prop :=
  ∀ g ∈ gs, g.flow = flow → g.packet = packet → g = fragmentOf flow packet d g.offset

variable {gs : List Fragment} {g : Fragment} {flow packet : ℕ} {d : List UInt8}

/-- Every fragment of the packet has its length. -/
lemma Faithful.total (h : Faithful gs flow packet d) (hg : g ∈ gs)
    (hflow : g.flow = flow) (hpacket : g.packet = packet) : g.total = d.length := by
  rw [h g hg hflow hpacket]
  rfl

variable {a : Assembly}

lemma Assembly.Begun.total_eq (h : a.Begun gs flow) (hf : Faithful gs flow a.id d) :
    a.total = d.length := by
  obtain ⟨i, hi⟩ := h.some
  obtain ⟨g, hg, hflow, hpacket, htotal, -⟩ := h.made.pieces i hi
  rw [← h.made.length, ← htotal, hf.total hg hflow hpacket]

/-- An assembly in its slot misses a fragment. -/
lemma Assembly.Begun.exists_missing (h : a.Begun gs flow) (hf : Faithful gs flow a.id d) :
    ∃ i, FragmentAt d (fragmentSize * i) ∧ a.bits.getLsbD i = false := by
  by_contra hall
  have hmax := h.made.max
  refine h.missing
    (h.made.received.trans ((filledSize_eq_iff (by decide) ?_).mpr fun i _ hlt => ?_))
  · simp only [fragmentSize, udpMax] at *
    omega
  by_contra hbit
  refine hall ⟨i, ⟨Nat.mul_mod_right _ _, .inl ?_⟩, by simpa using hbit⟩
  rw [← h.total_eq hf]
  exact hlt

lemma Came.eq {data : List UInt8} (h : Came gs flow packet data) (hf : Faithful gs flow packet d) :
    data = d := by
  obtain ⟨g, hg, hflow, hpacket, htotal⟩ := h.announced
  have hlen : data.length = d.length := htotal.symm.trans (hf.total hg hflow hpacket)
  refine eq_of_slices (c := fragmentSize) (by decide) hlen fun i hi => ?_
  obtain ⟨k, hk, hkflow, hkpacket, -, hoff, hbytes⟩ := h.pieces i (hlen ▸ hi)
  rw [← hlen, ← hbytes, hf k hk hkflow hkpacket, hoff, hlen, pieceSize, min_comm]
  rfl

/-! ### Tracking -/

def Flow.Delivered (packet : ℕ) (f : Flow) : Prop := packet ∈ f.handed.map Prod.fst

def Flow.Has (packet : ℕ) (S : ℕ → Prop) (f : Flow) : Prop :=
  (∀ i, ¬ S i) ∨ ∃ j a, Holds f.assembly j a ∧ a.id = packet ∧ ∀ i, S i → a.bits.getLsbD i = true

/-- The packet after the fragments in `S`. -/
structure Flow.Track (packet : ℕ) (d : List UInt8) (S : ℕ → Prop) (f : Flow) : Prop where
  closed : packet ≤ f.window.high → f.window.high - packet < 64 → f.window.Closed packet →
    f.Delivered packet
  going : f.Delivered packet ∨ ((∃ i, FragmentAt d (fragmentSize * i) ∧ ¬ S i) ∧
    (f.phase ≠ .dead → f.window.high - packet < 64 → f.Has packet S))

variable {S S' : ℕ → Prop} {f f' : Flow} {env : ReadEnv}

lemma Flow.Has.anti (h : f.Has packet S) (hS : ∀ i, S' i → S i) : f.Has packet S' := by
  rcases h with h | ⟨j, a, hj, hid, hbits⟩
  · exact .inl fun i hi => h i (hS i hi)
  · exact .inr ⟨j, a, hj, hid, fun i hi => hbits i (hS i hi)⟩

/-- Fewer fragments are easier to keep track of. -/
lemma Flow.Track.anti (h : f.Track packet d S) (hS : ∀ i, S' i → S i) : f.Track packet d S' := by
  refine ⟨h.closed, h.going.imp_right ?_⟩
  rintro ⟨⟨i, hi, hmissing⟩, hhas⟩
  exact ⟨⟨i, hi, fun hS' => hmissing (hS i hS')⟩, fun hp hw => (hhas hp hw).anti hS⟩

lemma Flow.Track.keep (h : f.Track packet d S) (hd : f.Delivered packet → f'.Delivered packet)
    (hphase : f'.phase ≠ .dead → f.phase ≠ .dead) (hhigh : f.window.high ≤ f'.window.high)
    (hclosed : packet ≤ f'.window.high → f'.window.high - packet < 64 → f'.window.Closed packet →
      packet ≤ f.window.high ∧ f.window.Closed packet)
    (hhas : f'.window.high - packet < 64 → f.Has packet S → f'.Has packet S) :
    f'.Track packet d S := by
  refine ⟨fun hle hw hc => ?_, ?_⟩
  · obtain ⟨hle', hc'⟩ := hclosed hle hw hc
    exact hd (h.closed hle' (by omega) hc')
  · rcases h.going with hg | ⟨hmissing, hf⟩
    · exact .inl (hd hg)
    · exact .inr ⟨hmissing, fun hp hw => hhas hw (hf (hphase hp) (by omega))⟩

def Flow.Unexpired (packet now : ℕ) (f : Flow) : Prop :=
  ∀ j a, Holds f.assembly j a → a.id = packet → ¬ mExpired now a.updated packetUs

lemma Flow.Unexpired.holds_swept {j : ℕ} (h : f.Unexpired packet env.now)
    (hw : (f.window.advance g.packet).high - packet < 64) (ha : Holds f.assembly j a)
    (hid : a.id = packet) : Holds (f.swept env g).assembly j a := by
  refine holds_sweep.mpr ⟨ha, ?_⟩
  rintro (hexp | ⟨-, hfar⟩)
  · exact h j a ha hid hexp
  · rw [hid] at hfar
    omega

lemma Flow.Has.swept (h : f.Has packet S) (hnow : f.Unexpired packet env.now)
    (hw : (f.window.advance g.packet).high - packet < 64) : (f.swept env g).Has packet S := by
  rcases h with h | ⟨j, a, hj, hid, hbits⟩
  · exact .inl h
  · exact .inr ⟨j, a, hnow.holds_swept hw hj hid, hid, hbits⟩

lemma high_le_advance (r : ReplayWindow 64) (n : ℕ) : r.high ≤ (r.advance n).high :=
  (le_max_left _ _).trans (ReplayWindow.high_advance _ _).ge

lemma Flow.Track.swept (h : f.Track packet d S) (hnow : f.Unexpired packet env.now) :
    (f.swept env g).Track packet d S :=
  h.keep (fun hd => hd) (fun hp => hp) (high_le_advance _ _)
    (fun hle hw hc => ReplayWindow.closed_of_advance hc hle hw)
    fun hw hhas => hhas.swept hnow hw

lemma Flow.Track.other (h : f.Track packet d S) (hnow : f.Unexpired packet env.now)
    (hne : g.packet ≠ packet) : (f.read env g).Track packet d S := by
  have hstep := f.read_step env g
  generalize f.read env g = f' at hstep
  cases hstep with
  | refused _ => exact h
  | closed _ _ =>
    exact h.keep (fun hd => hd) (fun hp => hp) (high_le_advance _ _)
      (fun hle hw hc => ReplayWindow.closed_of_advance hc hle hw) fun _ hhas => hhas
  | noRoom => exact h.swept hnow
  | placed k a _ _ hslot hplace =>
    have hs := h.swept hnow (g := g)
    have hle : g.packet ≤ (f.swept env g).window.high :=
      (le_max_right _ _).trans (ReplayWindow.high_advance _ _).ge
    -- slot k is the slot of the other packet
    have hk : ∀ j b, Holds (f.swept env g).assembly j b → b.id = packet → j ≠ k := by
      rintro j b hb hid rfl
      rcases hslot with ⟨ha, haid⟩ | ⟨-, hnone, -⟩
      · obtain rfl : b = a := by simpa [Holds] using hb.symm.trans ha
        exact hne (haid.symm.trans hid)
      · cases hb.symm.trans hnone
    have hmark : packet ≤ (f.swept env g).window.high →
        ((f.swept env g).window.mark g.packet).Closed packet →
        packet ≤ (f.swept env g).window.high ∧ (f.swept env g).window.Closed packet := by
      intro hp hc
      exact ⟨hp, (ReplayWindow.closed_of_mark hc hle hp).resolve_left (Ne.symm hne)⟩
    have hnone : (f.swept env g).Has packet S →
        ((f.swept env g).settle k g.packet).Has packet S := by
      rintro (hS | ⟨j, b, hb, hid, hbits⟩)
      · exact .inl hS
      · exact .inr ⟨j, b, holds_set_none.mpr ⟨hb, hk j b hb hid⟩, hid, hbits⟩
    cases hplace with
    | conflict _ =>
      exact hs.keep (fun hd => hd) (fun hp => hp) le_rfl (fun hp _ => hmark hp) fun _ => hnone
    | duplicate _ => exact hs
    | stored _ _ _ =>
      refine hs.keep (fun hd => hd) (fun hp => hp) le_rfl (fun hp _ hc => ⟨hp, hc⟩) fun _ hhas => ?_
      rcases hhas with hS | ⟨j, b, hb, hid, hbits⟩
      · exact .inl hS
      · exact .inr ⟨j, b, (holds_set_some hslot.lt).mpr (.inr ⟨hb, hk j b hb hid⟩), hid, hbits⟩
    | complete _ _ _ closeRequested =>
      refine hs.keep (fun hd => ?_) (fun hp => hp) le_rfl (fun hp _ => hmark hp) fun _ => hnone
      show packet ∈ ((f.swept env g).handed ++ _).map Prod.fst
      rw [List.map_append]
      exact List.mem_append_left _ hd

/-! ### The packet's own fragments -/

/-- A fragment of the payload fits its assembly. -/
lemma Flow.Sound.agrees (h : f.Sound gs) (hf : Faithful gs f.id.toNat packet d) (hg : g.Wf)
    (hmem : g ∈ gs) (hflow : g.flow = f.id.toNat) (hpacket : g.packet = packet) {k : ℕ}
    (hslot : Slot env f.assembly g k a) :
    ¬ (a.total ≠ g.total ∨ (a.bits.getLsbD (g.offset / fragmentSize) = true ∧
      slice a.data g.offset g.bytes.length ≠ g.bytes)) := by
  have hid : a.id = packet := hslot.id.trans hpacket
  rcases hslot with ⟨ha, -⟩ | ⟨-, -, rfl, -⟩
  · have hbegun := h.begun k a ha
    have htotal : a.total = d.length := hbegun.total_eq (hid ▸ hf)
    rintro (hne | ⟨hbit, hne⟩)
    · exact hne (htotal.trans (hf.total hmem hflow hpacket).symm)
    · -- the piece that is there came in the same fragment
      obtain ⟨k', hk', hkflow, hkpacket, hktotal, hoff, hbytes⟩ := hbegun.made.pieces _ hbit
      have hsame : k' = g := by
        rw [hf k' hk' hkflow (hkpacket.trans hid), hf g hmem hflow hpacket, hoff, ← hg.aligned]
      subst hsame
      refine hne ?_
      rw [hg.size, hktotal, ← hoff] at *
      exact hbytes.symm
  · rintro (hne | ⟨hbit, -⟩)
    · exact hne rfl
    · simp [Fragment.start] at hbit

lemma Flow.Track.place {k : ℕ} (h : f.Track packet d S) (hs : f.Sound gs)
    (hf : Faithful gs f.id.toNat packet d) (hg : g.Wf) (hmem : g ∈ gs)
    (hflow : g.flow = f.id.toNat) (hpacket : g.packet = packet) (hphase : f.phase ≠ .dead)
    (hle : packet ≤ f.window.high) (ho : ¬ f.window.Closed packet)
    (hslot : Slot env f.assembly g k a) (hstep : PlaceStep env f k a g f') :
    f'.Track packet d fun i => S i ∨ i = g.offset / fragmentSize := by
  have hid : a.id = packet := hslot.id.trans hpacket
  have hhas : f.Delivered packet ∨ f.Has packet S :=
    h.going.imp_right fun hgo => hgo.2 hphase (by by_contra hfar; exact ho (.inl (by omega)))
  -- the fragments admitted so far are in the assembly of the slot
  have hbits : f.Delivered packet ∨ ∀ i, S i → a.bits.getLsbD i = true := by
    refine hhas.imp_right ?_
    rintro (hS | ⟨j, b, hb, hbid, hbits⟩)
    · exact fun i hi => absurd hi (hS i)
    · obtain rfl : j = k := hs.other hslot hb (hbid.trans hpacket.symm)
      rcases hslot with ⟨ha, -⟩ | ⟨hmissing, -⟩
      · obtain rfl : b = a := by simpa [Holds] using hb.symm.trans ha
        exact hbits
      · exact absurd (hbid.trans hpacket.symm) (hmissing j b hb)
  -- an assembly that stays in a slot misses a fragment
  have hheld {f₁ : Flow} {b : Assembly} (hs₁ : f₁.Sound gs) (hf₁ : f₁.id = f.id)
      (hb : Holds f₁.assembly k b) (hbid : b.id = packet)
      (hsub : ∀ i, S i ∨ i = g.offset / fragmentSize → b.bits.getLsbD i = true) :
      (∃ i, FragmentAt d (fragmentSize * i) ∧ ¬ (S i ∨ i = g.offset / fragmentSize)) ∧
        f₁.Has packet fun i => S i ∨ i = g.offset / fragmentSize := by
    obtain ⟨i, hi, hmissing⟩ :=
      (hs₁.begun k b hb).exists_missing (d := d) (by rw [hf₁, hbid]; exact hf)
    refine ⟨⟨i, hi, fun hSi => ?_⟩, .inr ⟨k, b, hb, hbid, hsub⟩⟩
    rw [hsub i hSi] at hmissing
    cases hmissing
  have hsound := hs.place hg hmem hflow (hpacket ▸ hle) (hpacket ▸ ho) hslot hstep
  cases hstep with
  | conflict hc => exact absurd hc (hs.agrees hf hg hmem hflow hpacket hslot)
  | duplicate hbit =>
    have ha : Holds f.assembly k a := by
      rcases hslot with ⟨ha, -⟩ | ⟨-, -, rfl, -⟩
      · exact ha
      · simp [Fragment.start] at hbit
    refine ⟨h.closed, hbits.imp_right fun hbits => ?_⟩
    obtain ⟨hmissing, hhas⟩ := hheld hs rfl ha hid fun i hi => by
      rcases hi with hi | rfl
      · exact hbits i hi
      · exact hbit
    exact ⟨hmissing, fun _ _ => hhas⟩
  | stored htotal hnew hmore =>
    refine ⟨h.closed, hbits.imp_right fun hbits => ?_⟩
    obtain ⟨hmissing, hhas⟩ := hheld hsound rfl
      ((holds_set_some hslot.lt).mpr (.inl ⟨rfl, rfl⟩)) hid fun i hi => by
        rcases hi with hi | rfl
        · have hi' : i < 128 := by
            by_contra hge
            have := hbits i hi
            rw [BitVec.getLsbD_of_ge _ _ (Nat.not_lt.mp hge)] at this
            cases this
          rw [a.put_bits env.now g hi', hbits i hi, Bool.true_or]
        · exact a.put_bit env.now hg
    exact ⟨hmissing, fun _ _ => hhas⟩
  | complete htotal hnew hall closeRequested =>
    have hdel : (Flow.settle { f with
        handed := f.handed ++ [(g.packet, (a.put env.now g).data)], closeRequested } k
        g.packet).Delivered packet := by
      show packet ∈ (f.handed ++ [(g.packet, (a.put env.now g).data)]).map Prod.fst
      rw [List.map_append]
      exact List.mem_append_right _ (by simp [hpacket])
    exact ⟨fun _ _ _ => hdel, .inl hdel⟩

/-- The flow takes datagrams, the packet is less than 64 behind, and it has an assembly or gets
one. -/
def Flow.Admits (env : ReadEnv) (packet : ℕ) (f : Flow) : Prop :=
  f.accepts ∧ (f.window.advance packet).high - packet < 64 ∧
    ((∃ j a, Holds f.assembly j a ∧ a.id = packet) ∨
      (env.alloc = true ∧
        ∃ j : ℕ, (sweep env.now (f.window.advance packet).high f.assembly)[j]? = some none))

lemma Flow.Track.own (h : f.Track packet d S) (hs : f.Sound gs)
    (hf : Faithful gs f.id.toNat packet d) (hg : g.Wf) (hmem : g ∈ gs)
    (hflow : g.flow = f.id.toNat) (hpacket : g.packet = packet)
    (hnow : f.Unexpired packet env.now) :
    (f.read env g).Track packet d S ∧ (f.Admits env packet →
      (f.read env g).Track packet d fun i => S i ∨ i = g.offset / fragmentSize) := by
  have hstep := f.read_step env g
  generalize f.read env g = f' at hstep
  subst hpacket
  have hle : g.packet ≤ (f.window.advance g.packet).high :=
    (le_max_right _ _).trans (ReplayWindow.high_advance _ _).ge
  cases hstep with
  | refused hno => exact ⟨h, fun ha => absurd ha.1 hno⟩
  | closed ha hc =>
    have hkeep : ({ f with window := f.window.advance g.packet } : Flow).Track g.packet d S :=
      h.keep (fun hd => hd) (fun hp => hp) (high_le_advance _ _)
        (fun hle hw hc => ReplayWindow.closed_of_advance hc hle hw) fun _ hhas => hhas
    refine ⟨hkeep, fun hadm => ⟨hkeep.closed, .inl ?_⟩⟩
    exact hkeep.closed hle hadm.2.1 hc
  | noRoom ha ho hmissing hroom =>
    refine ⟨h.swept hnow, fun hadm => ?_⟩
    obtain ⟨-, hw, ⟨j, a, hj, hid⟩ | ⟨halloc, j, hj⟩⟩ := hadm
    · exact absurd hid (hmissing j a (hnow.holds_swept hw hj hid))
    · rcases hroom with hno | hfull
      · cases halloc.symm.trans hno
      · exact absurd hj (hfull j)
  | placed k a ha ho hslot hplace =>
    have hphase : (f.swept env g).phase ≠ .dead := by
      show f.phase ≠ .dead
      rw [ha.1]
      exact (by rintro ⟨⟩)
    have hnew := (h.swept hnow (g := g)).place hs.swept hf hg hmem hflow rfl hphase hle ho hslot
      hplace
    exact ⟨hnew.anti fun i hi => .inl hi, fun _ => hnew⟩

end OhecoBroker.Udp
