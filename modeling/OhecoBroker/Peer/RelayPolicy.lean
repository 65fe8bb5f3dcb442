/-
The relay policy of a peer (`sdk/c/remote/peer/control.c`: `establish_ice` with relaying forced):
which candidates the ICE agent takes from a description that passed the filter.

The filter cuts a line at blanks and tabs and looks at its tokens; the agent reads the same line
with `sscanf`, which also knows vertical tab and form feed, ends a number at the first character
that is no digit and a word at the width of its field.  The two agree unless a line makes use of
the difference.

* `parseSdpCandidate_eq_some`: what the agent's parser takes, as a layout of the text;
* `Spelling`, `Spelling.parse`, `spelling_of_parse`: a candidate written out with the white space
  between its fields; the parser takes one exactly when the text spells it;
* `isRelay_of_aligned`: an accepted line whose fields both sides cut alike is read as the relay
  the filter took it for;
* `force_relay_iff`: **a relayed session installs only relayed candidates exactly when** no
  accepted line spells another candidate, as when none is misaligned.
-/
import OhecoBroker.Lib.Scanf
import OhecoBroker.Peer.Description

namespace OhecoBroker.Peer

open Lib List

variable {w line u e s t : List Char} {ls : List (List Char)} {c : IceCandidate} {k : ℕ}

/-! ### The layout of a candidate -/

/-- How a candidate line that the parser takes is laid out. -/
def Laid (s : List Char) (vs : List Scanned) : Prop :=
  (∃ rest, Reads candidateFields s vs rest ∧ Blank rest) ∨
    ∃ rest, Reads (candidateFields ++ tcpFields) s vs rest

lemma sscanf_tcpFields_eq_nil : sscanf tcpFields s = [] ↔ Blank s := by
  constructor
  · intro h
    by_contra hb
    cases hd : s.dropWhile isSpace with
    | nil => exact hb (dropWhile_eq_nil_iff.mp hd)
    | cons c t =>
      have hc : isSpace c = false := by
        simpa using starts_dropWhile isSpace s c (by rw [hd]; rfl)
      simp [tcpFields, sscanf, Directive.read, hd, hc] at h
  · intro hb
    have hnil : s.dropWhile isSpace = [] := dropWhile_eq_nil_iff.mpr hb
    simp [tcpFields, sscanf, Directive.read, hnil]

lemma Laid.sscanf {vs : List Scanned} (h : Laid s vs) :
    Lib.sscanf (candidateFields ++ tcpFields) s = vs := by
  rcases h with ⟨rest, h, hb⟩ | ⟨rest, h⟩
  · rw [sscanf_append h tcpFields, sscanf_tcpFields_eq_nil.mpr hb, append_nil]
  · have := sscanf_append h []
    rwa [append_nil, Lib.sscanf, append_nil] at this

lemma length_of_candidateOf {vs : List Scanned} (h : candidateOf vs = some c) :
    vs.length = 7 ∨ vs.length = 9 := by
  unfold candidateOf at h
  split at h
  next ext =>
    split at h
    · simp at h
    next heq =>
      unfold extWord at heq
      split at heq
      · left; rfl
      · right; rfl
      · simp at heq
  · simp at h

lemma parseSdpCandidate_eq_some :
    parseSdpCandidate u = some c ↔ ∃ vs, Laid (u.drop 12) vs ∧ candidateOf vs = some c := by
  constructor
  · intro h
    refine ⟨_, ?_, h⟩
    set s := u.drop 12
    rcases length_of_candidateOf h with hlen | hlen
    · obtain ⟨vs, rest, hr⟩ := reads_of_length candidateFields.dropLast (.str 32) tcpFields s
        rfl (le_of_eq hlen.symm)
      have hcut := sscanf_append hr tcpFields
      have hvs : vs.length = 7 := hr.length
      have hnil : sscanf tcpFields rest = [] := by
        have hsum := congrArg List.length hcut
        rw [length_append, hvs] at hsum
        have hseven : (sscanf (candidateFields.dropLast ++ [.str 32] ++ tcpFields) s).length = 7 :=
          hlen
        exact length_eq_zero_iff.mp (by omega)
      rw [hnil, append_nil] at hcut
      refine .inl ⟨rest, ?_, sscanf_tcpFields_eq_nil.mp hnil⟩
      exact hcut ▸ hr
    obtain ⟨vs, rest, hr⟩ := reads_of_length (candidateFields ++ tcpFields.dropLast)
      (.str 7) [] s rfl (le_of_eq hlen.symm)
    have hcut := sscanf_append hr []
    simp only [sscanf, append_nil] at hcut
    exact .inr ⟨rest, hcut ▸ hr⟩
  · rintro ⟨vs, hl, hc⟩
    rw [parseSdpCandidate, hl.sscanf, hc]

lemma laid_iff {vs : List Scanned} : Laid s vs ↔
    ∃ us tail ext, Reads candidateFields s us tail ∧ vs = us ++ ext ∧
      (Blank tail ∧ ext = [] ∨ ∃ rest, Reads tcpFields tail ext rest) := by
  constructor
  · rintro (⟨rest, h, hb⟩ | ⟨rest, h⟩)
    · exact ⟨vs, rest, [], h, (append_nil vs).symm, .inl ⟨hb, rfl⟩⟩
    · obtain ⟨us, tail, ext, hus, hext, rfl⟩ := reads_append.mp h
      exact ⟨us, tail, ext, hus, rfl, .inr ⟨rest, hext⟩⟩
  · rintro ⟨us, tail, ext, hus, rfl, ⟨hb, rfl⟩ | ⟨rest, hext⟩⟩
    · exact .inl ⟨tail, by rwa [append_nil], hb⟩
    · exact .inr ⟨rest, reads_append.mpr ⟨us, tail, ext, hus, hext, rfl⟩⟩

/-! ### Words, their case ignored -/

/-- The filter compares lower-case words. -/
lemma iceToken_iff {want : String} : iceToken t want = true ↔ t.map Char.toLower = want.toList := by
  simp [iceToken]

lemma toUpper_eq_of_iceToken {want : String} (h : iceToken t want = true) :
    t.map Char.toUpper = want.toList.map Char.toUpper := by
  have hlow : t.map Char.toLower = want.toList := by simpa [iceToken] using h
  rw [← hlow, map_map]
  simp [Function.comp_def]

lemma iceToken_of_toUpper {want : String} (hwant : want.toList.map Char.toLower = want.toList)
    (h : t.map Char.toUpper = want.toList.map Char.toUpper) : iceToken t want = true := by
  have hlow := congrArg (List.map Char.toLower) h
  simp only [map_map] at hlow
  simp [Function.comp_def] at hlow
  simp [iceToken, hlow, hwant]

lemma word_of_iceToken {want : String} (h : iceToken t want = true)
    (hwant : Word want.toList) : Word t := by
  have hlow : t.map Char.toLower = want.toList := by simpa [iceToken] using h
  refine ⟨fun hnil => hwant.1 (by rw [← hlow, hnil]; rfl), fun c hc => ?_⟩
  by_contra hsp
  have hlc := hwant.2 c.toLower (hlow ▸ mem_map_of_mem hc)
  simp only [Bool.not_eq_false] at hsp
  simp only [isSpace, Bool.or_eq_true, decide_eq_true_eq] at hsp
  rcases hsp with ((((rfl | rfl) | rfl) | rfl) | rfl) | rfl <;> exact absurd hlc (by decide)

lemma length_of_iceToken {want : String} (h : iceToken t want = true) :
    t.length = want.toList.length := by
  rw [← iceToken_iff.mp h, length_map]

lemma toLower_of_isDigit {c : Char} (h : c.isDigit = true) : c.toLower = c := by
  refine Char.toLower_eq_of_not_isUpper fun hup => ?_
  simp only [Char.isDigit, Char.isUpper, Bool.and_eq_true, decide_eq_true_eq,
    UInt32.le_iff_toNat_le] at h hup
  have hgap : 'A'.val.toNat ≤ '9'.val.toNat := hup.1.trans h.2
  exact absurd hgap (by decide)

lemma starts_not_isDigit_of_iceToken {want : String} (h : iceToken t want = true)
    (hwant : Starts (!Char.isDigit ·) want.toList) : Starts (!Char.isDigit ·) t := by
  rw [iceToken_iff] at h
  intro c hc
  have hlow := hwant c.toLower (by rw [← h, List.head?_map, Option.mem_def.mp hc]; rfl)
  by_contra hd
  have hd : c.isDigit = true := by simpa using hd
  simp [toLower_of_isDigit hd, hd] at hlow

lemma candidateType_isSome : (candidateType t).isSome = true ↔
    iceToken t "host" = true ∨ iceToken t "srflx" = true ∨ iceToken t "relay" = true := by
  simp only [candidateType, ← iceToken_iff]
  by_cases h₁ : iceToken t "host" = true
  · simp [h₁]
  by_cases h₂ : iceToken t "srflx" = true
  · simp [h₁, h₂]
  by_cases h₃ : iceToken t "relay" = true <;> simp [h₁, h₂, h₃]

lemma candidateType_eq_relayed : candidateType t = some .relayed ↔ iceToken t "relay" = true := by
  simp only [candidateType, ← iceToken_iff]
  split_ifs with h₁ h₂ h₃
  · simp [iceToken_iff.mp h₁, iceToken_iff]
  · simp [iceToken_iff.mp h₂, iceToken_iff]
  · simp [h₃]
  · simp [h₃]

lemma candidateTransport_isSome : (candidateTransport t w).isSome = true ↔
    iceToken t "udp" = true ∨
      iceToken t "tcp" = true ∧ w ∈ ["active".toList, "passive".toList, "so".toList] := by
  have hudp : iceToken t "udp" = true ↔ t.map Char.toUpper = "UDP".toList :=
    ⟨fun h => (toUpper_eq_of_iceToken h).trans (by decide),
      fun h => iceToken_of_toUpper (by decide) (h.trans (by decide))⟩
  have htcp : iceToken t "tcp" = true ↔ t.map Char.toUpper = "TCP".toList :=
    ⟨fun h => (toUpper_eq_of_iceToken h).trans (by decide),
      fun h => iceToken_of_toUpper (by decide) (h.trans (by decide))⟩
  rw [hudp, htcp]
  simp only [candidateTransport]
  split_ifs with h₁ h₂ h₃ h₄ h₅ <;> simp_all

lemma candidateTransport_eq_udp : candidateTransport t w = some .udp ↔ iceToken t "udp" = true := by
  have hudp : iceToken t "udp" = true ↔ t.map Char.toUpper = "UDP".toList :=
    ⟨fun h => (toUpper_eq_of_iceToken h).trans (by decide),
      fun h => iceToken_of_toUpper (by decide) (h.trans (by decide))⟩
  rw [hudp]
  simp only [candidateTransport]
  split_ifs with h₁ h₂ h₃ h₄ h₅ <;> simp_all

lemma candidateOf_eq {f a v k : List Char} {z q : ℤ} {ext : List Scanned} :
    candidateOf
        (.text f :: .number z :: .text t :: .number q :: .text a :: .text v :: .text k :: ext) =
      some c ↔
      ∃ y τ υ, extWord ext = some y ∧ candidateType k = some τ ∧ candidateTransport t y = some υ ∧
        c = ⟨τ, (q % 2 ^ 32).toNat, z, f, υ, a, v⟩ := by
  rw [candidateOf]
  cases extWord ext with
  | none => simp
  | some y =>
    cases hk : candidateType k with
    | none => simp
    | some τ => cases ht : candidateTransport t y <;> simp [ht, eq_comm]

/-! ### Candidates spelled out -/

/-- Nothing, or two words that name the kind of a TCP candidate. -/
inductive Tail : List Char → List Char → Prop
  | none {b : List Char} (hb : Blank b) : Tail b []
  | words {b x b' y rest : List Char} (hb : Blank b) (hne : b ≠ []) (hx : Word x)
      (hx7 : x.length ≤ 7) (hb' : Blank b') (hgap : b' ≠ [] ∨ x.length = 7) (hy : Word y)
      (hy7 : y.length ≤ 7) (hrest : y.length = 7 ∨ Starts isSpace rest) :
      Tail (b ++ (x ++ (b' ++ (y ++ rest)))) y

/-- The fields of a candidate and the white space in `gap` before them, which may be missing after
a field that ends by itself. -/
structure Spelling where
  gap : Fin 8 → List Char
  foundation : List Char
  component : List Char
  transport : List Char
  priority : List Char
  address : List Char
  port : List Char
  type : List Char
  tail : List Char
  tcpType : List Char
  blank : ∀ i, Blank (gap i)
  foundation_word : Word foundation ∧ foundation.length ≤ 32
  foundation_ends : gap 1 ≠ [] ∨ foundation.length = 32
  component_number : ∃ z, Numeral component z
  transport_known : iceToken transport "udp" ∨
    iceToken transport "tcp" ∧ tcpType ∈ ["active".toList, "passive".toList, "so".toList]
  transport_ends : gap 3 ≠ []
  priority_number : ∃ z, Numeral priority z
  priority_ends : gap 4 ≠ [] ∨ Starts (!Char.isDigit ·) address
  address_word : Word address ∧ address.length ≤ 256
  address_ends : gap 5 ≠ [] ∨ address.length = 256
  port_word : Word port ∧ port.length ≤ 32
  port_ends : gap 6 ≠ [] ∨ port.length = 32
  type_known : iceToken type "host" ∨ iceToken type "srflx" ∨ iceToken type "relay"
  tail_known : Tail tail tcpType

def Spelling.text (p : Spelling) : List Char :=
  p.gap 0 ++ (p.foundation ++ (p.gap 1 ++ (p.component ++ (p.gap 2 ++ (p.transport ++
    (p.gap 3 ++ (p.priority ++ (p.gap 4 ++ (p.address ++ (p.gap 5 ++ (p.port ++
      (p.gap 6 ++ ('t' :: 'y' :: 'p' :: (p.gap 7 ++ (p.type ++ p.tail)))))))))))))))

/-- Component 1, over UDP, relayed. -/
def Spelling.IsRelay (p : Spelling) : Prop :=
  Numeral p.component 1 ∧ iceToken p.transport "udp" = true ∧ iceToken p.type "relay" = true

lemma tail_iff {y : List Char} : Tail s y ↔
    (Blank s ∧ y = []) ∨
      (Starts isSpace s ∧ ∃ x rest, Reads tcpFields s [.text x, .text y] rest) := by
  constructor
  · intro h
    cases h with
    | none hb => exact .inl ⟨hb, rfl⟩
    | @words b x b' y rest hb hne hx hx7 hb' hgap hy hy7 hrest =>
      refine .inr ⟨(starts_isSpace_append hb hx).mpr hne, x, rest, reads_space_str.mpr ?_⟩
      refine ⟨b, x, _, _, rfl, rfl, hb, hx, hx7, ?_, reads_space_str.mpr ?_⟩
      · rw [starts_isSpace_append hb' hy]
        exact hgap.symm
      · exact ⟨b', y, rest, [], rfl, rfl, hb', hy, hy7, hrest, .done rest⟩
  · rintro (⟨hb, rfl⟩ | ⟨hs, x, rest, h⟩)
    · exact .none hb
    obtain ⟨b, x, _, _, rfl, heq, hb, hx, hx7, hgap, h⟩ := reads_space_str.mp h
    cases heq
    obtain ⟨b', y, _, _, rfl, heq, hb', hy, hy7, hrest, h⟩ := reads_space_str.mp h
    cases heq
    rw [starts_isSpace_append hb' hy] at hgap
    cases h
    exact .words hb ((starts_isSpace_append hb hx).mp hs) hx hx7 hb' hgap.symm hy hy7 hrest

/-- The three letters before the type are a word. -/
lemma word_typ : Word ['t', 'y', 'p'] := by simp [Word, isSpace]

/-- What follows the type is set apart from it. -/
lemma Tail.starts {y : List Char} (h : Tail s y) : Starts isSpace s := by
  cases h with
  | none hb => exact fun c hc => hb c (mem_of_mem_head? hc)
  | words hb hne hx => exact (starts_isSpace_append hb hx).mpr hne

namespace Spelling

variable (p : Spelling)

lemma transport_word : Word p.transport ∧ p.transport.length = 3 := by
  rcases p.transport_known with h | ⟨h, -⟩
  · exact ⟨word_of_iceToken h (by simp [Word, isSpace]), length_of_iceToken h⟩
  · exact ⟨word_of_iceToken h (by simp [Word, isSpace]), length_of_iceToken h⟩

lemma transport_starts : Starts (!Char.isDigit ·) p.transport := by
  rcases p.transport_known with h | ⟨h, -⟩
  · exact starts_not_isDigit_of_iceToken h (by simp [Starts])
  · exact starts_not_isDigit_of_iceToken h (by simp [Starts])

lemma type_word : Word p.type ∧ p.type.length ≤ 32 := by
  rcases p.type_known with h | h | h
  all_goals exact ⟨word_of_iceToken h (by simp [Word, isSpace]), by simp [length_of_iceToken h]⟩

lemma reads : ∃ z q, Numeral p.component z ∧ Reads candidateFields p.text
    [.text p.foundation, .number z, .text p.transport, .number q, .text p.address, .text p.port,
      .text p.type] p.tail := by
  obtain ⟨z, hz⟩ := p.component_number
  obtain ⟨q, hq⟩ := p.priority_number
  refine ⟨z, q, hz, Reads.str (p.blank 0) p.foundation_word.1 p.foundation_word.2 ?_ ?_⟩
  · rw [starts_isSpace_append (p.blank 1) hz.word]
    exact p.foundation_ends.symm
  refine reads_space_int.mpr ⟨_, _, z, _, _, rfl, rfl, p.blank 1, hz, ?_, ?_⟩
  · exact (starts_not_isDigit_append (p.blank 2) p.transport_word.1).mpr (.inr p.transport_starts)
  refine reads_space_str.mpr
    ⟨_, _, _, _, rfl, rfl, p.blank 2, p.transport_word.1, by simp [p.transport_word.2], .inr ?_, ?_⟩
  · exact (starts_isSpace_append (p.blank 3) hq.word).mpr p.transport_ends
  refine reads_space_int.mpr ⟨_, _, q, _, _, rfl, rfl, p.blank 3, hq, ?_, ?_⟩
  · exact (starts_not_isDigit_append (p.blank 4) p.address_word.1).mpr p.priority_ends
  refine reads_space_str.mpr
    ⟨_, _, _, _, rfl, rfl, p.blank 4, p.address_word.1, p.address_word.2, ?_, ?_⟩
  · rw [starts_isSpace_append (p.blank 5) p.port_word.1]
    exact p.address_ends.symm
  refine reads_space_str.mpr ⟨_, _, _, _, rfl, rfl, p.blank 5, p.port_word.1, p.port_word.2, ?_, ?_⟩
  · have htyp := starts_isSpace_append (s := p.gap 7 ++ (p.type ++ p.tail)) (p.blank 6) word_typ
    exact p.port_ends.symm.imp_right htyp.mpr
  refine .space (p.blank 6) (word_typ.starts _) (.lit (.lit (.lit (reads_space_str.mpr ?_))))
  exact ⟨_, _, _, _, rfl, rfl, p.blank 7, p.type_word.1, p.type_word.2, .inr p.tail_known.starts,
    .done _⟩

end Spelling

/-- Component 1, over UDP, relayed. -/
def IceCandidate.IsRelay (c : IceCandidate) : Prop :=
  c.component = 1 ∧ c.transport = .udp ∧ c.type = .relayed

/-- The words read behind the type are the tail. -/
lemma tail_of_reads {tail y : List Char} {ext : List Scanned} (hs : Starts isSpace tail)
    (h : Blank tail ∧ ext = [] ∨ ∃ rest, Reads tcpFields tail ext rest)
    (hy : extWord ext = some y) : Tail tail y := by
  refine tail_iff.mpr ?_
  rcases h with ⟨hb, rfl⟩ | ⟨rest, hreads⟩
  · obtain rfl : [] = y := by simpa [extWord] using hy
    exact .inl ⟨hb, rfl⟩
  obtain ⟨_, x, _, _, -, rfl, -, -, -, -, hword⟩ := reads_space_str.mp hreads
  obtain ⟨_, y', _, _, -, rfl, -, -, -, -, hdone⟩ := reads_space_str.mp hword
  cases hdone
  obtain rfl : y' = y := by simpa [extWord] using hy
  exact .inr ⟨hs, x, rest, hreads⟩

lemma spelling_of_parse (h : parseSdpCandidate u = some c) :
    ∃ p : Spelling, p.text = u.drop 12 ∧ (p.IsRelay → c.IsRelay) := by
  obtain ⟨vs, hlaid, hvs⟩ := parseSdpCandidate_eq_some.mp h
  obtain ⟨us, tail, ext, hreads, rfl, htail⟩ := laid_iff.mp hlaid
  rw [candidateFields] at hreads
  generalize u.drop 12 = s at hreads
  cases hreads with
  | @str _ _ b₀ f _ _ _ hb₀ hf hf32 hfe hreads =>
  obtain ⟨b₁, n, z, _, _, rfl, rfl, hb₁, hn, -, hreads⟩ := reads_space_int.mp hreads
  obtain ⟨b₂, t, _, _, rfl, rfl, hb₂, -, -, hte, hreads⟩ := reads_space_str.mp hreads
  obtain ⟨b₃, m, q, _, _, rfl, rfl, hb₃, hm, hme, hreads⟩ := reads_space_int.mp hreads
  obtain ⟨b₄, a, _, _, rfl, rfl, hb₄, ha, ha256, hae, hreads⟩ := reads_space_str.mp hreads
  obtain ⟨b₅, v, _, _, rfl, rfl, hb₅, hv, hv32, hve, hreads⟩ := reads_space_str.mp hreads
  cases hreads with | @space _ b₆ _ _ _ hb₆ _ hreads =>
  cases hreads with | lit hreads =>
  cases hreads with | lit hreads =>
  cases hreads with | lit hreads =>
  obtain ⟨b₇, k, _, _, rfl, rfl, hb₇, -, -, hke, hreads⟩ := reads_space_str.mp hreads
  cases hreads
  obtain ⟨y, τ, υ, hy, hτ, hυ, rfl⟩ := candidateOf_eq.mp hvs
  have htransport := candidateTransport_isSome.mp (Option.isSome_of_eq_some hυ)
  have htype := candidateType_isSome.mp (Option.isSome_of_eq_some hτ)
  have ht : t.length ≠ 32 := by
    rcases htransport with h | ⟨h, -⟩ <;> simp [length_of_iceToken h]
  have hk : k.length ≠ 32 := by
    rcases htype with h | h | h <;> simp [length_of_iceToken h]
  let p : Spelling :=
    { gap := ![b₀, b₁, b₂, b₃, b₄, b₅, b₆, b₇]
      foundation := f, component := n, transport := t, priority := m, address := a, port := v
      type := k, tail := tail, tcpType := y
      blank := by
        intro i
        fin_cases i
        exacts [hb₀, hb₁, hb₂, hb₃, hb₄, hb₅, hb₆, hb₇]
      foundation_word := ⟨hf, hf32⟩
      foundation_ends := (hfe.imp_right (starts_isSpace_append hb₁ hn.word).mp).symm
      component_number := ⟨z, hn⟩
      transport_known := htransport
      transport_ends := (starts_isSpace_append hb₃ hm.word).mp (hte.resolve_left ht)
      priority_number := ⟨q, hm⟩
      priority_ends := (starts_not_isDigit_append hb₄ ha).mp hme
      address_word := ⟨ha, ha256⟩
      address_ends := (hae.imp_right (starts_isSpace_append hb₅ hv).mp).symm
      port_word := ⟨hv, hv32⟩
      port_ends := (hve.imp_right (starts_isSpace_append hb₆ word_typ).mp).symm
      type_known := htype
      tail_known := tail_of_reads (hke.resolve_left hk) htail hy }
  refine ⟨p, rfl, fun ⟨hone, hudp, hrelay⟩ => ⟨hn.unique hone, ?_, ?_⟩⟩
  · exact Option.some_inj.mp (hυ.symm.trans (candidateTransport_eq_udp.mpr hudp))
  · exact Option.some_inj.mp (hτ.symm.trans (candidateType_eq_relayed.mpr hrelay))

/-- **A spelled candidate is parsed.** -/
lemma Spelling.parse (p : Spelling) (hu : p.text = u.drop 12) :
    ∃ c, parseSdpCandidate u = some c ∧ (c.IsRelay → p.IsRelay) := by
  obtain ⟨z, q, hz, hreads⟩ := p.reads
  obtain ⟨τ, hτ⟩ := Option.isSome_iff_exists.mp (candidateType_isSome.mpr p.type_known)
  obtain ⟨υ, hυ⟩ := Option.isSome_iff_exists.mp (candidateTransport_isSome.mpr p.transport_known)
  obtain ⟨ext, hext, htail⟩ : ∃ ext, extWord ext = some p.tcpType ∧
      (Blank p.tail ∧ ext = [] ∨ ∃ rest, Reads tcpFields p.tail ext rest) := by
    rcases tail_iff.mp p.tail_known with ⟨hb, hy⟩ | ⟨-, x, rest, h⟩
    · exact ⟨[], by rw [hy]; rfl, .inl ⟨hb, rfl⟩⟩
    · exact ⟨_, rfl, .inr ⟨rest, h⟩⟩
  refine ⟨_, parseSdpCandidate_eq_some.mpr ⟨_, laid_iff.mpr ⟨_, _, ext, hu ▸ hreads, rfl, htail⟩,
    candidateOf_eq.mpr ⟨_, τ, υ, hext, hτ, hυ, rfl⟩⟩, ?_⟩
  rintro ⟨hone, hudp, hrelay⟩
  exact ⟨hone ▸ hz, candidateTransport_eq_udp.mp (hυ.trans (congrArg some hudp)),
    candidateType_eq_relayed.mp (hτ.trans (congrArg some hrelay))⟩

/-! ### Lines both sides cut alike -/

/-- The first token and those after it. -/
lemma iceTokens_succ {ts : List (List Char)} (h : iceTokens (k + 1) s = some ts) :
    ∃ b t r us, s = b ++ (t ++ r) ∧ ts = t :: us ∧ (∀ c ∈ b, iceSpace c = true) ∧ t ≠ [] ∧
      (∀ c ∈ t, iceSpace c = false) ∧ Starts iceSpace r ∧ iceTokens k r = some us := by
  rw [iceTokens] at h
  split at h
  · simp at h
  next hne =>
  obtain ⟨us, hus, rfl⟩ := Option.map_eq_some_iff.mp h
  refine ⟨s.takeWhile iceSpace, _, _, us, ?_, rfl, fun c hc => mem_takeWhile_imp hc, hne,
    fun c hc => by simpa using mem_takeWhile_imp hc, fun c hc => ?_, hus⟩
  · rw [takeWhile_append_dropWhile, takeWhile_append_dropWhile]
  · simpa using starts_dropWhile (!iceSpace ·) _ c hc

lemma length_of_mem_iceTokens {ts : List (List Char)}
    (h : iceTokens k s = some ts) (ht : t ∈ ts) : t.length ≤ s.length := by
  induction k generalizing s ts with
  | zero =>
    obtain rfl : [] = ts := by simpa [iceTokens] using h
    simp at ht
  | succ k ih =>
    obtain ⟨b, t', r, us, rfl, rfl, -, -, -, -, hus⟩ := iceTokens_succ h
    simp only [length_append]
    rcases mem_cons.mp ht with rfl | ht
    · omega
    · have := ih hus ht
      omega

lemma run_append (he : ∀ c ∈ e, iceSpace c = true) :
    (u ++ e).takeWhile (!iceSpace ·) = u.takeWhile (!iceSpace ·) ∧
      (u ++ e).dropWhile (!iceSpace ·) = u.dropWhile (!iceSpace ·) ++ e := by
  induction u with
  | nil =>
    cases e with
    | nil => simp
    | cons c e => simp [he c (by simp)]
  | cons c u ih =>
    simp only [cons_append, takeWhile_cons, dropWhile_cons, ih.1, ih.2]
    split <;> simp

/-- White space at the end is not looked at. -/
lemma iceTokens_append (he : ∀ c ∈ e, iceSpace c = true) :
    iceTokens k (s ++ e) = iceTokens k s := by
  induction k generalizing s with
  | zero => rfl
  | succ k ih =>
    have hnil : e.dropWhile iceSpace = [] := dropWhile_eq_nil_iff.mpr he
    rw [iceTokens, iceTokens, dropWhile_append]
    cases hd : s.dropWhile iceSpace with
    | nil => simp [hnil]
    | cons c t =>
      have hne : ¬ (c :: t).isEmpty = true := by simp
      rw [if_neg hne]
      simp only [(run_append he).1, (run_append he).2, ih]

/-- No white space that only the parser knows. -/
def Plain (t : List Char) : Prop := ∀ c ∈ t, c ≠ '\x0b' ∧ c ≠ '\x0c'

lemma isSpace_eq {c : Char} (h : c ≠ '\x0b' ∧ c ≠ '\x0c') : isSpace c = iceSpace c := by
  rw [Bool.eq_iff_iff]
  simp only [isSpace, iceSpace, Bool.or_eq_true, decide_eq_true_eq]
  tauto

lemma isSpace_of_iceSpace {c : Char} (h : iceSpace c = true) : isSpace c = true := by
  simp only [isSpace, iceSpace, Bool.or_eq_true, decide_eq_true_eq] at h ⊢
  tauto

/-- A token without these is a word of the parser. -/
lemma word_of_plain (hne : t ≠ []) (ht : ∀ c ∈ t, iceSpace c = false) (hp : Plain t) : Word t :=
  ⟨hne, fun c hc => (isSpace_eq (hp c hc)).trans (ht c hc)⟩

lemma starts_isSpace {r : List Char} (h : Starts iceSpace r) : Starts isSpace r :=
  fun c hc => isSpace_of_iceSpace (h c hc)

lemma starts_not_isDigit {r : List Char} (h : Starts iceSpace r) :
    Starts (!Char.isDigit ·) r := by
  intro c hc
  have hsp := h c hc
  simp only [iceSpace, Bool.or_eq_true, decide_eq_true_eq] at hsp
  rcases hsp with ((rfl | rfl) | rfl) | rfl <;> decide

section Fields

variable {ds : List Directive} {b t r rest : List Char} {vs : List Scanned}

lemma reads_token {n : ℕ} (hb : ∀ c ∈ b, iceSpace c = true) (ht : Word t) (hn : t.length ≤ n)
    (hr : Starts iceSpace r) (h : Reads ds r vs rest) :
    Reads (.space :: .str n :: ds) (b ++ (t ++ r)) (.text t :: vs) rest :=
  reads_space_str.mpr ⟨b, t, r, vs, rfl, rfl, fun c hc => isSpace_of_iceSpace (hb c hc), ht, hn,
    .inr (starts_isSpace hr), h⟩

lemma reads_number {z : ℤ} (hb : ∀ c ∈ b, iceSpace c = true) (ht : Numeral t z)
    (hr : Starts iceSpace r) (h : Reads ds r vs rest) :
    Reads (.space :: .int :: ds) (b ++ (t ++ r)) (.number z :: vs) rest :=
  reads_space_int.mpr ⟨b, t, z, r, vs, rfl, rfl, fun c hc => isSpace_of_iceSpace (hb c hc), ht,
    starts_not_isDigit hr, h⟩

end Fields

lemma reads_of_tokens {t0 t2 t3 t4 t5 t7 : List Char} {z : ℤ}
    (htok : iceTokens 8 s = some [t0, ['1'], t2, t3, t4, t5, "typ".toList, t7])
    (h0 : t0.length ≤ 32) (h2 : Word t2 ∧ t2.length ≤ 32) (h3 : Numeral t3 z)
    (h4 : t4.length ≤ 256) (h5 : t5.length ≤ 32) (h7 : Word t7 ∧ t7.length ≤ 32)
    (hp0 : Plain t0) (hp4 : Plain t4) (hp5 : Plain t5) :
    ∃ rest, Reads candidateFields s
      [.text t0, .number 1, .text t2, .number z, .text t4, .text t5, .text t7] rest := by
  obtain ⟨b0, _, r0, _, rfl, heq, hb0, hne0, hsp0, hr0, htok⟩ := iceTokens_succ htok
  cases heq
  obtain ⟨b1, _, r1, _, rfl, heq, hb1, -, -, hr1, htok⟩ := iceTokens_succ htok
  cases heq
  obtain ⟨b2, _, r2, _, rfl, heq, hb2, hne2, hsp2, hr2, htok⟩ := iceTokens_succ htok
  cases heq
  obtain ⟨b3, _, r3, _, rfl, heq, hb3, -, -, hr3, htok⟩ := iceTokens_succ htok
  cases heq
  obtain ⟨b4, _, r4, _, rfl, heq, hb4, hne4, hsp4, hr4, htok⟩ := iceTokens_succ htok
  cases heq
  obtain ⟨b5, _, r5, _, rfl, heq, hb5, hne5, hsp5, hr5, htok⟩ := iceTokens_succ htok
  cases heq
  obtain ⟨b6, _, r6, _, rfl, heq, hb6, -, -, hr6, htok⟩ := iceTokens_succ htok
  cases heq
  obtain ⟨b7, _, r7, _, rfl, heq, hb7, hne7, hsp7, hr7, -⟩ := iceTokens_succ htok
  cases heq
  refine ⟨r7, ?_⟩
  have hone : Numeral ['1'] 1 :=
    Numeral.plain (by simp) fun c hc => by rw [mem_singleton.mp hc]; rfl
  refine Reads.str (fun c hc => isSpace_of_iceSpace (hb0 c hc)) (word_of_plain hne0 hsp0 hp0) h0
    (.inr (starts_isSpace hr0)) ?_
  refine reads_number hb1 hone hr1 (reads_token hb2 h2.1 h2.2 hr2 ?_)
  refine reads_number hb3 h3 hr3 (reads_token hb4 (word_of_plain hne4 hsp4 hp4) h4 hr4 ?_)
  refine reads_token hb5 (word_of_plain hne5 hsp5 hp5) h5 hr5 ?_
  refine .space (fun c hc => isSpace_of_iceSpace (hb6 c hc)) (by intro c hc; cases hc; decide) ?_
  exact .lit (.lit (.lit (reads_token hb7 h7.1 h7.2 hr7 (.done r7))))

/-- The filter's tokens are not the parser's fields. -/
def Misaligned (line : List Char) : Prop :=
  ∃ t0 t1 t2 t3 t4 t5 t6 t7, iceTokens 8 (line.drop 12) = some [t0, t1, t2, t3, t4, t5, t6, t7] ∧
    (¬ Plain t0 ∨ (∀ z, ¬ Numeral t3 z) ∨ ¬ Plain t4 ∨ ¬ Plain t5 ∨ 32 < t5.length)

lemma isRelay_of_aligned (hw : '\n' ∉ w)
    (hcr : embeddedCr (w ++ ['\n']) = false) (hr : obRelayCandidate (w ++ ['\n']) = true)
    (hal : ¬ Misaligned (w ++ ['\n']))
    (hc : parseSdpCandidate (lineText (w ++ ['\n'])) = some c) : c.IsRelay := by
  obtain ⟨vs, hlaid, hvs⟩ := parseSdpCandidate_eq_some.mp hc
  obtain ⟨hlen, hcand⟩ := obRelayCandidate_bounds hr
  obtain ⟨e, he, hline⟩ := line_split hw hcr
  set u := lineText (w ++ ['\n'])
  have hu : 12 ≤ u.length := by
    rw [hline, isCandidateLine_append fun c hc => he c (mem_of_mem_head? hc)] at hcand
    exact (List.isPrefixOf_iff_prefix.mp hcand).length_le
  have hsp : ∀ c ∈ e, iceSpace c = true := by
    intro c hc
    rcases he c hc with rfl | rfl <;> decide
  have htoks : iceTokens 8 ((w ++ ['\n']).drop 12) = iceTokens 8 (u.drop 12) := by
    rw [hline, drop_append_of_le_length hu, iceTokens_append hsp]
  unfold obRelayCandidate at hr
  split at hr
  · simp at hr
  split at hr
  next t0 t1 t2 t3 t4 t5 t6 t7 htok =>
    simp only [Bool.and_eq_true, decide_eq_true_eq] at hr
    obtain ⟨⟨⟨⟨h0, rfl⟩, h2⟩, rfl⟩, h7⟩ := hr
    have hmis : ¬ (¬ Plain t0 ∨ (∀ z, ¬ Numeral t3 z) ∨ ¬ Plain t4 ∨ ¬ Plain t5 ∨
        32 < t5.length) := fun h => hal ⟨_, _, _, _, _, _, _, _, htok, h⟩
    push Not at hmis
    obtain ⟨hp0, ⟨z, hz⟩, hp4, hp5, h5⟩ := hmis
    have hw2 := word_of_iceToken h2 (by simp [Word, isSpace])
    have hw7 := word_of_iceToken h7 (by simp [Word, isSpace])
    rw [htoks] at htok
    have h4 : t4.length ≤ 256 := by
      have h1 := length_of_mem_iceTokens htok (t := t4) (by simp)
      have h2 := length_filter_le (fun c => c ≠ '\r' && c ≠ '\n') (w ++ ['\n'])
      have h3 : (u.drop 12).length ≤ u.length := by simp
      unfold juiceMaxCandidateSdpStringLen at hlen
      change u.length ≤ _ at h2
      omega
    obtain ⟨rest, hreads⟩ := reads_of_tokens htok h0 ⟨hw2, by simp [length_of_iceToken h2]⟩ hz h4 h5
      ⟨hw7, by simp [length_of_iceToken h7]⟩ hp0 hp4 hp5
    have hscan := sscanf_append hreads tcpFields
    rw [hlaid.sscanf] at hscan
    rw [hscan] at hvs
    obtain ⟨y, τ, υ, -, hτ, hυ, rfl⟩ := candidateOf_eq.mp hvs
    refine ⟨rfl, ?_, ?_⟩
    · exact Option.some_inj.mp (hυ.symm.trans (candidateTransport_eq_udp.mpr h2))
    · exact Option.some_inj.mp (hτ.symm.trans (candidateType_eq_relayed.mpr h7))
  · simp at hr

/-! ### The policy -/

/-- A candidate of another component, transport or type. -/
def SpellsOther (line : List Char) : Prop :=
  ∃ p : Spelling, p.text = (lineText line).drop 12 ∧ ¬ p.IsRelay

/-- A line the filter accepts and a newline ends. -/
def Accepted (line : List Char) : Prop :=
  obRelayCandidate line = true ∧ line.getLast? = some '\n'

/-- Only relayed candidates, and every other line where it was. -/
structure ForcedRelay (source out : List Char) : Prop where
  relays : ∀ c ∈ iceParseSdp out, c.component = 1 ∧ c.transport = .udp ∧ c.type = .relayed
  others : (sdpLines out).filter (!isCandidateLine ·)
    = (sdpLines source).filter (!isCandidateLine ·)

lemma Lines.complete (h : Lines ls) (hl : line ∈ ls)
    (hlast : line.getLast? = some '\n') : ∃ w, '\n' ∉ w ∧ line = w ++ ['\n'] := by
  induction h with
  | nil => simp at hl
  | @last w hne hw =>
    rw [mem_singleton.mp hl] at hlast
    exact absurd (mem_of_getLast? hlast) hw
  | @cons w ls hw _ ih =>
    rcases mem_cons.mp hl with rfl | hl
    · exact ⟨w, hw, rfl⟩
    · exact ih hl

lemma mem_lineCandidates_iff {source : List Char} (hl : line ∈ sdpLines source)
    (hcr : embeddedCr line = false) (hk : keepsLine line = true) :
    c ∈ lineCandidates line ↔ Accepted line ∧ parseSdpCandidate (lineText line) = some c := by
  by_cases hlast : line.getLast? = some '\n'
  · obtain ⟨w, hw, rfl⟩ := (lines_sdpLines source).complete hl hlast
    rw [lineCandidates_kept hw hcr hk]
    cases hr : obRelayCandidate (w ++ ['\n']) with
    | false => simp [Accepted, hr]
    | true => simp [Accepted, hr]
  · -- a line that no newline ends is not parsed
    rw [lineCandidates, if_neg hlast]
    simp [Accepted, hlast]

section Filter

variable {source out : List Char}

lemma mem_iceParseSdp_iff (h : obFilterRelayDescription source = some out) :
    c ∈ iceParseSdp out ↔
      ∃ line ∈ sdpLines source, Accepted line ∧ parseSdpCandidate (lineText line) = some c := by
  obtain ⟨hcr, hlines⟩ := sdpLines_of_filter h
  rw [mem_iceParseSdp, hlines]
  constructor
  · rintro ⟨line, hl, hc⟩
    obtain ⟨hl, hk⟩ := mem_filter.mp hl
    exact ⟨line, hl, (mem_lineCandidates_iff hl (hcr line hl) hk).mp hc⟩
  · rintro ⟨line, hl, hacc, hc⟩
    have hk : keepsLine line = true := by simp [keepsLine, hacc.1]
    exact ⟨line, mem_filter.mpr ⟨hl, hk⟩,
      (mem_lineCandidates_iff hl (hcr line hl) hk).mpr ⟨hacc, hc⟩⟩

lemma others_of_filter (h : obFilterRelayDescription source = some out) :
    (sdpLines out).filter (!isCandidateLine ·) = (sdpLines source).filter (!isCandidateLine ·) := by
  rw [(sdpLines_of_filter h).2, filter_filter]
  refine filter_congr fun line _ => ?_
  cases hc : isCandidateLine line <;> simp [keepsLine, hc]

end Filter

/-- **Forced relay.** A filtered description keeps its other lines in order, and the parser takes
only relayed candidates from it exactly when no accepted line spells another one; it is enough
that no accepted line is misaligned. -/
theorem force_relay_iff (source out : List Char)
    (h : obFilterRelayDescription source = some out) :
    (ForcedRelay source out ↔ ∀ line ∈ sdpLines source, Accepted line → ¬ SpellsOther line) ∧
      ((∀ line ∈ sdpLines source, Accepted line → ¬ Misaligned line) → ForcedRelay source out) := by
  refine ⟨⟨fun hf line hl hacc => ?_, fun hno => ⟨fun c hc => ?_, others_of_filter h⟩⟩,
    fun hal => ⟨fun c hc => ?_, others_of_filter h⟩⟩
  · rintro ⟨p, htext, hp⟩
    obtain ⟨c, hparse, hrelay⟩ := p.parse htext
    exact hp (hrelay (hf.relays c ((mem_iceParseSdp_iff h).mpr ⟨line, hl, hacc, hparse⟩)))
  · obtain ⟨line, hl, hacc, hparse⟩ := (mem_iceParseSdp_iff h).mp hc
    obtain ⟨p, htext, hrelay⟩ := spelling_of_parse hparse
    by_contra hother
    exact hno line hl hacc ⟨p, htext, fun hp => hother (hrelay hp)⟩
  · obtain ⟨line, hl, hacc, hparse⟩ := (mem_iceParseSdp_iff h).mp hc
    have hcr := (sdpLines_of_filter h).1 line hl
    have hnot := hal line hl hacc
    obtain ⟨w, hw, rfl⟩ := (lines_sdpLines source).complete hl hacc.2
    exact isRelay_of_aligned hw hcr hacc.1 hnot hparse

/-- A description with a relay behind its credentials. -/
theorem force_relay_iff_relay :
    let source := "a=ice-ufrag:u\r\na=candidate:1 1 UDP 5 192.0.2.1 9 typ relay\r\n".toList
    obFilterRelayDescription source = some source ∧ ForcedRelay source source := by
  intro source
  have hpass : obFilterRelayDescription source = some source := by decide +kernel
  refine ⟨hpass, (force_relay_iff source source hpass).2 fun line hl hacc => ?_⟩
  have hlines : sdpLines source = ["a=ice-ufrag:u\r\n".toList,
      "a=candidate:1 1 UDP 5 192.0.2.1 9 typ relay\r\n".toList] := by decide +kernel
  rw [hlines, mem_pair] at hl
  rcases hl with rfl | rfl
  · exact absurd hacc.1 (by decide)
  rintro ⟨t0, t1, t2, t3, t4, t5, t6, t7, htok, hmis⟩
  have htoks : iceTokens 8 ("a=candidate:1 1 UDP 5 192.0.2.1 9 typ relay\r\n".toList.drop 12)
      = some ["1".toList, "1".toList, "UDP".toList, "5".toList, "192.0.2.1".toList, "9".toList,
        "typ".toList, "relay".toList] := by decide +kernel
  rw [htoks] at htok
  cases htok
  have hfive : Numeral "5".toList 5 := Numeral.plain (by simp) (by simp)
  rcases hmis with h | h | h | h | h
  · exact h (by simp [Plain])
  · exact h 5 hfive
  · exact h (by simp [Plain])
  · exact h (by simp [Plain])
  · exact absurd h (by simp)

/-- The priority runs into an address, so the parser reads one field more than the filter and
takes a host candidate. -/
theorem force_relay_host_smuggled :
    (obFilterRelayDescription
        "a=candidate:1 1 udp 1::ffff:192.0.2.1 9 typhost typ relay\n".toList).map iceParseSdp
      = some [⟨.host, 1, 1, "1".toList, .udp, "::ffff:192.0.2.1".toList, "9".toList⟩] := by
  decide +kernel

end OhecoBroker.Peer
