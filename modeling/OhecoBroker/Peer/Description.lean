/-
A session description on its way to the ICE agent: the filter it passes when relaying is forced,
and the agent's own parser (`sdk/c/remote/peer/control.c`: `ob_relay_candidate`,
`ob_filter_relay_description`; `sdk/c/tpr/libjuice/src/ice.c`: `parse_sdp_candidate`,
`ice_parse_sdp`).  The filter works line by line, the parser character by character into a buffer;
both are brought to one form here.

* `sdpLines_of_filter`: the filter refuses a carriage return inside a line, and puts out the lines
  of the source that it keeps;
* `mem_iceParseSdp`: the candidates of a description are those of its lines;
* `lineCandidates_kept`: a complete line that the filter keeps adds the candidate its text is
  parsed to when the filter took it for a relay, and none otherwise.
-/
import Mathlib
import OhecoBroker.Lib.Scanf

namespace OhecoBroker.Peer

open Lib List

/-! ### The filter -/

def juiceMaxCandidateSdpStringLen : ℕ := 256

def juiceMaxSdpStringLen : ℕ := 4096

/-- What a candidate line starts with. -/
def candidatePrefix : List Char := "a=candidate:".toList

/-- White space as the filter has it. -/
def iceSpace (c : Char) : Bool := c = ' ' || c = '\t' || c = '\r' || c = '\n'

/-- Equality with a lower-case word, the case ignored. -/
def iceToken (s : List Char) (want : String) : Bool := s.map Char.toLower = want.toList

/-- The first tokens of a text, if it has as many. -/
def iceTokens : ℕ → List Char → Option (List (List Char))
  | 0, _ => some []
  | k + 1, s =>
    let s := s.dropWhile iceSpace
    let t := s.takeWhile (!iceSpace ·)
    if t = [] then none
    else (iceTokens k (s.dropWhile (!iceSpace ·))).map (t :: ·)

def isCandidateLine (line : List Char) : Bool := candidatePrefix.isPrefixOf line

/-- A candidate of component 1 over UDP, type relay. -/
def obRelayCandidate (line : List Char) : Bool :=
  if line.length < 12 || juiceMaxCandidateSdpStringLen ≤ line.length
      || !isCandidateLine line then false
  else
    match iceTokens 8 (line.drop 12) with
    | some [t0, t1, t2, _, _, _, t6, t7] =>
      t0.length ≤ 32 && t1 = ['1'] && iceToken t2 "udp" && t6 = "typ".toList
        && iceToken t7 "relay"
    | _ => false

/-- The lines of a text, each with its newline. -/
def sdpLines : List Char → List (List Char)
  | [] => []
  | c :: cs =>
    if c = '\n' then [c] :: sdpLines cs
    else
      match sdpLines cs with
      | [] => [[c]]
      | line :: lines => (c :: line) :: lines

/-- A carriage return that no newline follows in its line. -/
def embeddedCr : List Char → Bool
  | [] => false
  | c :: cs => (c = '\r' && cs.head? ≠ some '\n') || embeddedCr cs

/-- One line: the text kept so far and the relays counted. -/
def filterLine (acc : List Char × ℕ) (line : List Char) : Option (List Char × ℕ) :=
  if embeddedCr line then none
  else
    let candidate := isCandidateLine line
    let relay := candidate && obRelayCandidate line
    if !candidate || relay then
      if juiceMaxSdpStringLen ≤ acc.1.length + line.length then none
      else some (acc.1 ++ line, acc.2 + relay.toNat)
    else some acc

/-- The filtered text; `none` on a refusal or without a relay. -/
def obFilterRelayDescription (source : List Char) : Option (List Char) :=
  match (sdpLines source).foldlM filterLine ([], 0) with
  | none => none
  | some (out, relays) => if relays = 0 then none else some out

/-! ### The parser -/

def bufferSize : ℕ := 1024

inductive CandidateType
  | host
  | serverReflexive
  | relayed
deriving DecidableEq

inductive CandidateTransport
  | udp
  | tcpTypeActive
  | tcpTypePassive
  | tcpTypeSo
deriving DecidableEq

/-- `ice_candidate_t`, host not resolved. -/
structure IceCandidate where
  type : CandidateType
  priority : ℕ
  component : ℤ
  foundation : List Char
  transport : CandidateTransport
  hostname : List Char
  service : List Char
deriving DecidableEq

def candidateFields : List Directive :=
  [.str 32, .space, .int, .space, .str 32, .space, .int, .space, .str 256, .space, .str 32,
    .space, .lit 't', .lit 'y', .lit 'p', .space, .str 32]

def tcpFields : List Directive := [.space, .str 7, .space, .str 7]

def candidateType (type : List Char) : Option CandidateType :=
  let type := type.map Char.toLower
  if type = "host".toList then some .host
  else if type = "srflx".toList then some .serverReflexive
  else if type = "relay".toList then some .relayed
  else none

def candidateTransport (transport tcpType : List Char) : Option CandidateTransport :=
  let transport := transport.map Char.toUpper
  if transport = "TCP".toList then
    if tcpType = "active".toList then some .tcpTypeActive
    else if tcpType = "passive".toList then some .tcpTypePassive
    else if tcpType = "so".toList then some .tcpTypeSo
    else none
  else if transport = "UDP".toList then some .udp
  else none

/-- The kind of a TCP candidate. -/
def extWord : List Scanned → Option (List Char)
  | [] => some []
  | [.text _, .text tcpType] => some tcpType
  | _ => none

/-- The candidate of seven or nine conversions. -/
def candidateOf : List Scanned → Option IceCandidate
  | .text foundation :: .number component :: .text transport :: .number priority
      :: .text hostname :: .text service :: .text type :: ext =>
      match extWord ext with
      | none => none
      | some tcpType =>
        match candidateType type, candidateTransport transport tcpType with
        | some type, some transport =>
          some ⟨type, (priority % 2 ^ 32).toNat, component, foundation, transport, hostname,
            service⟩
        | _, _ => none
  | _ => none

def parseSdpCandidate (line : List Char) : Option IceCandidate :=
  candidateOf (sscanf (candidateFields ++ tcpFields) (line.drop 12))

/-- The candidate a line adds, if any. -/
def parseSdpLine (line : List Char) : Option IceCandidate :=
  if "a=ice-ufrag:".toList.isPrefixOf line || "a=ice-pwd:".toList.isPrefixOf line
      || "a=ice-lite".toList.isPrefixOf line || "a=end-of-candidates".toList.isPrefixOf line then
    none
  else if isCandidateLine line then parseSdpCandidate line
  else none

/-- One character: the line so far and the candidates. -/
def sdpChar (st : List Char × List IceCandidate) (c : Char) : List Char × List IceCandidate :=
  if c = '\n' then
    if st.1 = [] then st else ([], st.2 ++ (parseSdpLine st.1).toList)
  else if c ≠ '\r' ∧ st.1.length + 1 < bufferSize then (st.1 ++ [c], st.2)
  else st

def iceParseSdp (sdp : List Char) : List IceCandidate := (sdp.foldl sdpChar ([], [])).2

/-! ### Lines -/

/-- Only the last line may miss its newline. -/
inductive Lines : List (List Char) → Prop
  | nil : Lines []
  | last {w : List Char} (hne : w ≠ []) (hw : '\n' ∉ w) : Lines [w]
  | cons {w : List Char} {ls : List (List Char)} (hw : '\n' ∉ w) (h : Lines ls) :
      Lines ((w ++ ['\n']) :: ls)

lemma lines_sdpLines (s : List Char) : Lines (sdpLines s) := by
  induction s with
  | nil => exact .nil
  | cons c s ih =>
    rw [sdpLines]
    split
    next hc => exact hc ▸ Lines.cons (w := []) (by simp) ih
    rename_i hc
    split
    next => exact .last (by simp) (by simpa using Ne.symm hc)
    rename_i line lines heq
    rw [heq] at ih
    cases ih with
    | last hne hw => exact .last (by simp) (by simp [hw, Ne.symm hc])
    | cons hw h =>
      rw [← cons_append]
      exact .cons (by simp [hw, Ne.symm hc]) h

/-- The lines make up the text. -/
lemma flatten_sdpLines (s : List Char) : (sdpLines s).flatten = s := by
  induction s with
  | nil => rfl
  | cons c s ih =>
    rw [sdpLines]
    split
    · simp [ih]
    · split
      next heq => rw [heq] at ih; simp [← ih]
      next heq => rw [heq] at ih; simp [← ih]

variable {w line u e s t : List Char} {ls : List (List Char)} {c : IceCandidate} {k : ℕ}

lemma sdpLines_append (hw : '\n' ∉ w) (s : List Char) :
    sdpLines (w ++ '\n' :: s) = (w ++ ['\n']) :: sdpLines s := by
  induction w with
  | nil => simp [sdpLines]
  | cons c w ih =>
    have hc : c ≠ '\n' := fun h => hw (by simp [h])
    rw [cons_append, sdpLines, if_neg hc, ih (fun h => hw (by simp [h]))]
    rfl

lemma sdpLines_last (hne : w ≠ []) (hw : '\n' ∉ w) : sdpLines w = [w] := by
  induction w with
  | nil => exact absurd rfl hne
  | cons c w ih =>
    have hc : c ≠ '\n' := fun h => hw (by simp [h])
    rw [sdpLines, if_neg hc]
    cases w with
    | nil => rfl
    | cons d w => rw [ih (by simp) (fun h => hw (by simp [h]))]

lemma Lines.sdpLines_flatten (h : Lines ls) : sdpLines ls.flatten = ls := by
  induction h with
  | nil => rfl
  | last hne hw => simpa using sdpLines_last hne hw
  | @cons w ls hw _ ih => simpa [ih] using sdpLines_append hw ls.flatten

lemma Lines.sublist {ms : List (List Char)} (h : Lines ls) (hs : ms.Sublist ls) : Lines ms := by
  induction h generalizing ms with
  | nil => rw [sublist_nil.mp hs]; exact .nil
  | last hne hw =>
    rcases sublist_singleton.mp hs with rfl | rfl
    · exact .nil
    · exact .last hne hw
  | cons hw _ ih =>
    cases hs with
    | cons _ hs => exact ih hs
    | cons_cons _ hs => exact .cons hw (ih hs)

/-! ### What the filter keeps -/

def keepsLine (line : List Char) : Bool := !isCandidateLine line || obRelayCandidate line

lemma filterLine_eq {acc acc' : List Char × ℕ} (h : filterLine acc line = some acc') :
    embeddedCr line = false ∧ acc'.1 = acc.1 ++ if keepsLine line then line else [] := by
  unfold filterLine at h
  split at h
  · simp at h
  next hcr =>
  refine ⟨by simpa using hcr, ?_⟩
  have hkeep : (!isCandidateLine line || (isCandidateLine line && obRelayCandidate line))
      = keepsLine line := by
    unfold keepsLine
    cases isCandidateLine line <;> simp
  simp only [hkeep] at h
  split at h
  next hk =>
    split at h
    · simp at h
    · simp only [Option.some.injEq] at h
      rw [← h, if_pos hk]
  next hk =>
    simp only [Option.some.injEq] at h
    rw [← h, if_neg hk, append_nil]

/-- **The filter's run**, line by line. -/
lemma foldlM_filterLine {acc acc' : List Char × ℕ} (h : ls.foldlM filterLine acc = some acc') :
    (∀ line ∈ ls, embeddedCr line = false) ∧
      acc'.1 = acc.1 ++ (ls.filter keepsLine).flatten := by
  induction ls generalizing acc with
  | nil =>
    obtain rfl : acc = acc' := by simpa using h
    simp
  | cons line ls ih =>
    rw [foldlM_cons] at h
    obtain ⟨mid, hmid, hrest⟩ := Option.bind_eq_some_iff.mp h
    obtain ⟨hcr, hout⟩ := filterLine_eq hmid
    obtain ⟨hcrs, hrun⟩ := ih hrest
    refine ⟨forall_mem_cons.mpr ⟨hcr, hcrs⟩, ?_⟩
    rw [hrun, hout, filter_cons]
    split <;> simp

lemma sdpLines_of_filter {source out : List Char}
    (h : obFilterRelayDescription source = some out) :
    (∀ line ∈ sdpLines source, embeddedCr line = false) ∧
      sdpLines out = (sdpLines source).filter keepsLine := by
  unfold obFilterRelayDescription at h
  split at h
  · simp at h
  next o relays hrun =>
  split at h
  · simp at h
  obtain rfl : o = out := by simpa using h
  obtain ⟨hcr, hout⟩ := foldlM_filterLine hrun
  have hout : o = ((sdpLines source).filter keepsLine).flatten := by simpa using hout
  exact ⟨hcr, by rw [hout, ((lines_sdpLines source).sublist filter_sublist).sdpLines_flatten]⟩

/-! ### What the parser reads of a line -/

/-- A line without carriage returns and newline. -/
def lineText (line : List Char) : List Char := line.filter fun c => c ≠ '\r' && c ≠ '\n'

/-- The candidates a line adds: none when no newline ends it. -/
def lineCandidates (line : List Char) : List IceCandidate :=
  if line.getLast? = some '\n' then (parseSdpLine ((lineText line).take (bufferSize - 1))).toList
  else []

lemma foldl_sdpChar_text (hw : '\n' ∉ w) (buf : List Char)
    (cs : List IceCandidate) (hbuf : buf.length ≤ bufferSize - 1) :
    w.foldl sdpChar (buf, cs) = ((buf ++ lineText w).take (bufferSize - 1), cs) := by
  induction w generalizing buf with
  | nil => simp [lineText, take_of_length_le hbuf]
  | cons c w ih =>
    have hc : c ≠ '\n' := fun h => hw (by simp [h])
    have hw' : '\n' ∉ w := fun h => hw (by simp [h])
    rw [foldl_cons, sdpChar, if_neg hc]
    by_cases hcr : c = '\r'
    · rw [if_neg (by simp [hcr]), ih hw' buf hbuf]
      simp [lineText, hcr]
    have htext : lineText (c :: w) = c :: lineText w := by simp [lineText, hc, hcr]
    by_cases hlen : buf.length + 1 < bufferSize
    · rw [if_pos ⟨hcr, hlen⟩, ih hw' _ (by simp; omega), htext]
      simp
    -- the buffer is full: the character is dropped
    rw [if_neg (by simp [hlen]), ih hw' buf hbuf]
    have hfull : buf.length = bufferSize - 1 := by omega
    rw [← hfull, take_left, take_left]

lemma parseSdpLine_nil : parseSdpLine [] = none := by decide

lemma foldl_sdpChar_line (hw : '\n' ∉ w) (cs : List IceCandidate) :
    (w ++ ['\n']).foldl sdpChar ([], cs) = ([], cs ++ lineCandidates (w ++ ['\n'])) := by
  have htext : lineText (w ++ ['\n']) = lineText w := by simp [lineText]
  rw [foldl_append, foldl_sdpChar_text hw [] cs (by simp), lineCandidates,
    if_pos (by simp), htext, nil_append]
  simp only [foldl_cons, foldl_nil, sdpChar, if_true]
  split
  next hnil => rw [hnil, parseSdpLine_nil]; simp
  next => rfl

/-- **The parser's run**, line by line. -/
lemma iceParseSdp_flatten (h : Lines ls) : iceParseSdp ls.flatten = ls.flatMap lineCandidates := by
  suffices hrun : ∀ cs, (ls.flatten.foldl sdpChar ([], cs)).2 = cs ++ ls.flatMap lineCandidates by
    simpa [iceParseSdp] using hrun []
  induction h with
  | nil => simp
  | last hne hw =>
    intro cs
    have hlast : lineCandidates _ = [] := if_neg fun h => hw (mem_of_getLast? h)
    simp [foldl_sdpChar_text hw [] cs (by simp), hlast]
  | cons hw _ ih =>
    intro cs
    rw [flatten_cons, foldl_append, foldl_sdpChar_line hw, ih, flatMap_cons,
      append_assoc]

lemma mem_iceParseSdp {sdp : List Char} :
    c ∈ iceParseSdp sdp ↔ ∃ line ∈ sdpLines sdp, c ∈ lineCandidates line := by
  have := iceParseSdp_flatten (lines_sdpLines sdp)
  rw [flatten_sdpLines] at this
  rw [this, mem_flatMap]

lemma line_of_not_embeddedCr (hw : '\n' ∉ w) (hcr : embeddedCr (w ++ ['\n']) = false) :
    w = lineText (w ++ ['\n']) ∨ w = lineText (w ++ ['\n']) ++ ['\r'] := by
  induction w with
  | nil => simp [lineText]
  | cons c w ih =>
    have hc : c ≠ '\n' := fun h => hw (by simp [h])
    have hw' : '\n' ∉ w := fun h => hw (by simp [h])
    rw [cons_append, embeddedCr, Bool.or_eq_false_iff] at hcr
    obtain ⟨hhead, hcr⟩ := hcr
    by_cases hcc : c = '\r'
    · -- a carriage return stands right before the newline
      have hnil : w = [] := by
        cases w with
        | nil => rfl
        | cons d w =>
          have hd : d = '\n' := by simpa [hcc] using hhead
          exact absurd (by simp [hd]) hw'
      subst hnil hcc
      right
      decide
    have htext : lineText (c :: w ++ ['\n']) = c :: lineText (w ++ ['\n']) := by
      simp [lineText, hc, hcc]
    rw [htext]
    rcases ih hw' hcr with h | h
    · left; rw [← h]
    · right; rw [cons_append, ← h]

/-- A line end is not looked at. -/
lemma isCandidateLine_append (he : ∀ c ∈ e.head?, c = '\r' ∨ c = '\n') :
    isCandidateLine (u ++ e) = isCandidateLine u := by
  rw [Bool.eq_iff_iff]
  simp only [isCandidateLine, isPrefixOf_iff_prefix]
  refine ⟨fun h => ?_, fun h => h.trans (prefix_append u e)⟩
  rcases prefix_or_prefix_of_prefix h (prefix_append u e) with hp | ⟨r, hr⟩
  · exact hp
  cases r with
  | nil => rw [append_nil] at hr; rw [hr]
  | cons d r =>
    -- the line end would reach into the prefix
    rw [← hr, prefix_append_right_inj] at h
    obtain ⟨t, rfl⟩ := h
    have hd : d ∈ candidatePrefix := by rw [← hr]; simp
    rcases he d rfl with rfl | rfl <;> exact absurd hd (by decide)

lemma isPrefixOf_eq_false {p q : List Char} (hq : q <+: u) (hpq : ¬ p <+: q) (hqp : ¬ q <+: p) :
    p.isPrefixOf u = false := by
  rw [Bool.eq_false_iff]
  intro hp
  rcases prefix_or_prefix_of_prefix (List.isPrefixOf_iff_prefix.mp hp) hq with h | h
  · exact hpq h
  · exact hqp h

lemma parseSdpLine_candidate (h : isCandidateLine u = true) :
    parseSdpLine u = parseSdpCandidate u := by
  have hu : candidatePrefix <+: u := isPrefixOf_iff_prefix.mp h
  rw [parseSdpLine, isPrefixOf_eq_false hu (by decide) (by decide),
    isPrefixOf_eq_false hu (by decide) (by decide), isPrefixOf_eq_false hu (by decide) (by decide),
    isPrefixOf_eq_false hu (by decide) (by decide), if_pos h]
  rfl

/-- No other line makes a candidate. -/
lemma parseSdpLine_other (h : isCandidateLine u = false) : parseSdpLine u = none := by
  rw [parseSdpLine, h]
  exact ite_self _

lemma line_split (hw : '\n' ∉ w) (hcr : embeddedCr (w ++ ['\n']) = false) :
    ∃ e : List Char, (∀ c ∈ e, c = '\r' ∨ c = '\n') ∧
      w ++ ['\n'] = lineText (w ++ ['\n']) ++ e := by
  rcases line_of_not_embeddedCr hw hcr with h | h
  · exact ⟨['\n'], by simp, by rw [← h]⟩
  · refine ⟨['\r', '\n'], by simp, ?_⟩
    conv_lhs => rw [h]
    simp

lemma obRelayCandidate_bounds (h : obRelayCandidate line = true) :
    line.length < juiceMaxCandidateSdpStringLen ∧ isCandidateLine line = true := by
  unfold obRelayCandidate at h
  split at h
  · simp at h
  next hn =>
    simp only [Bool.or_eq_true, decide_eq_true_eq, Bool.not_eq_true', not_or,
      Bool.not_eq_false, not_le, not_lt] at hn
    exact ⟨hn.1.2, hn.2⟩

lemma lineCandidates_kept (hw : '\n' ∉ w)
    (hcr : embeddedCr (w ++ ['\n']) = false) (hk : keepsLine (w ++ ['\n']) = true) :
    lineCandidates (w ++ ['\n'])
      = if obRelayCandidate (w ++ ['\n']) then
          (parseSdpCandidate (lineText (w ++ ['\n']))).toList
        else [] := by
  obtain ⟨e, he, hline⟩ := line_split hw hcr
  have hcand : isCandidateLine (w ++ ['\n']) = isCandidateLine (lineText (w ++ ['\n'])) := by
    conv_lhs => rw [hline]
    exact isCandidateLine_append fun c hc => he c (mem_of_mem_head? hc)
  rw [lineCandidates, if_pos (by simp)]
  cases hr : obRelayCandidate (w ++ ['\n']) with
  | true =>
    have hlen := obRelayCandidate_bounds hr
    have htake : (lineText (w ++ ['\n'])).take (bufferSize - 1) = lineText (w ++ ['\n']) := by
      refine take_of_length_le ?_
      have := length_filter_le (fun c => c ≠ '\r' && c ≠ '\n') (w ++ ['\n'])
      unfold lineText
      unfold juiceMaxCandidateSdpStringLen at hlen
      unfold bufferSize
      omega
    rw [htake, parseSdpLine_candidate (hcand ▸ hlen.2), if_pos rfl]
  | false =>
    have hno : isCandidateLine (lineText (w ++ ['\n'])) = false := by
      rw [← hcand]
      simpa [keepsLine, hr] using hk
    have htake : isCandidateLine ((lineText (w ++ ['\n'])).take (bufferSize - 1)) = false := by
      rw [Bool.eq_false_iff] at hno ⊢
      intro h
      refine hno (List.isPrefixOf_iff_prefix.mpr ?_)
      exact (List.isPrefixOf_iff_prefix.mp h).trans (List.take_prefix _ _)
    rw [parseSdpLine_other htake]
    simp

end OhecoBroker.Peer
