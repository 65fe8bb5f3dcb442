/-
What the application reads from a transcript of the shell service.

* `answer`, `Last.answer`: the replies a transcript calls for;
* `validFrame_chunk`, `validFrame_last`, `eventOf_exit`: whole frames;
* `Reading`, `Outcome`, `reading_step`: the handle between two calls, and one call;
* `Told`, `Told.step`: what the replies of a session are so far;
* `events_exact`: **however the stream is cut and wherever deadlines expire, the replies other
  than expired deadlines are the answers**.
-/
import OhecoBroker.Shell.Reader

namespace OhecoBroker.Shell.Client

open Lib List

/-! ### The replies a transcript calls for -/

def chunkReply (c : Chunk) : Reply :=
  ⟨okRead, some { Event.zero with
    type := c.stream.kind.toNat, data := c.data, size := c.data.length }⟩

def exitOf (status : WaitStatus) (cancelled : Bool) : ObExit :=
  ⟨status.reason cancelled, status.exitCode, status.sig⟩

def exitReply (status : WaitStatus) (cancelled : Bool) : Reply :=
  ⟨okRead, some { Event.zero with type := 8, result := exitOf status cancelled }⟩

/-- The reply to an error: its code and the front of its text. -/
def errorReply (code : ℕ) (err : List UInt8) : Reply :=
  ⟨⟨.ofCode code, .none, "server", (errorText err).take 255⟩, some .zero⟩

def terminalReply (e : ObError) : Reply :=
  ⟨diag e "read" .none "Connection is terminal", some .zero⟩

def deadlineReply : Reply :=
  ⟨diag .timeout "read" .etimedout "Read deadline expired; command not cancelled", some .zero⟩

def invalidReply : Reply :=
  ⟨diag .invalidArgument "read" .none "Invalid reader argument", none⟩

def Last.answer (last : Last) (n : ℕ) : Reply :=
  match last with
  | .exit status cancelled => exitReply status cancelled
  | .error code _ _ err => if n = 0 then errorReply code err else terminalReply (.ofCode code)

def answer (t : Transcript) (n : ℕ) : Reply :=
  match t.chunks[n]? with
  | some c => chunkReply c
  | none => Last.answer t.last (n - t.chunks.length)

/-! ### Whole frames -/

lemma utf8_errorText (err : List UInt8) : utf8 (errorText err) = true :=
  utf8_iff_isText.mpr (errorText_isText err).1

lemma appendU32_nil (n : ℕ) : appendU32 [] n = beBytes 4 n := rfl

lemma encodeError_eq (code : ℕ) (err : List UInt8) :
    encodeError code err = beBytes 4 code ++
      (beBytes 4 (errorText err).length ++ errorText err) := by
  rw [encodeError, appendString_eq, appendU32_nil, field]

lemma length_encodeError (code : ℕ) (err : List UInt8) :
    (encodeError code err).length = 8 + (errorText err).length := by
  rw [encodeError_eq]
  simp only [length_append, length_beBytes]
  omega

lemma encodeExit_eq (reason : ℕ) (code : ℤ) (signal : ℕ) :
    encodeExit reason code signal
      = beBytes 4 reason ++ (beBytes 4 (code % 2 ^ 32).toNat ++ beBytes 4 signal) := by
  simp only [encodeExit, appendU32, nil_append, append_assoc]

lemma get32_append {n : ℕ} (h : n < 2 ^ 32) (rest : List UInt8) :
    get32 (beBytes 4 n ++ rest) = n := by
  rw [get32, take_left' (length_beBytes 4 n), beNat_beBytes_of_lt (by simpa using h)]

lemma drop_four (n : ℕ) (rest : List UInt8) : (beBytes 4 n ++ rest).drop 4 = rest :=
  drop_left' (length_beBytes 4 n)

/-- Any other frame is left to the caller. -/
lemma finishFrame_holding {p : Process} {kind : UInt8} {data : List UInt8} (h : kind ≠ 9) :
    finishFrame (p.holding kind data) = (none, p.holding kind data) := by
  simp [finishFrame, Process.holding, headerOf, h]

lemma finishFrame_error {p : Process} (hp : p.failure = .ok) {code : ℕ} (h1 : 1 ≤ code)
    (h8 : code ≤ 8) (err : List UInt8) :
    finishFrame (p.holding 9 (encodeError code err))
      = (some (errorReply code err).diag,
          { p.holding 9 (encodeError code err) with failure := .ofCode code }) := by
  have hlen := (errorText_isText err).2
  have htext : (errorText err).length < 2 ^ 32 := by omega
  have hcode : get32 (encodeError code err) = code := by
    rw [encodeError_eq, get32_append (by omega)]
  have hrest : (encodeError code err).drop 4 =
      beBytes 4 (errorText err).length ++ errorText err := by
    rw [encodeError_eq, drop_four]
  have hdrop : (encodeError code err).drop 8 = errorText err := by
    rw [show (8 : ℕ) = 4 + 4 from rfl, ← drop_drop, hrest, drop_four]
  have hsize : (encodeError code err).length - 8 = (errorText err).length := by
    rw [length_encodeError, Nat.add_sub_cancel_left]
  have hmin : (errorText err).take (min (errorText err).length 255) = (errorText err).take 255 := by
    rw [take_eq_take_iff]
    omega
  simp only [finishFrame, Process.holding, headerOf, headD_cons, if_true, Option.getD_some,
    hcode, hrest, get32_append htext, hdrop, hsize, take_length, utf8_errorText, poison, hp,
    hmin, errorReply]
  rw [if_neg (by simp; omega)]

lemma Stream.kind_cases (st : Stream) : st.kind = 5 ∨ st.kind = 6 := by
  cases st
  · exact .inl rfl
  · exact .inr rfl

/-- The reader takes every frame of output. -/
lemma validFrame_chunk (c : Chunk) : validFrame 0 c.stream.kind c.data.length = true := by
  have h1 := c.nonempty
  have h2 := c.short
  have hmax : c.data.length ≤ maxFrame := h2.trans (by norm_num [maxFrame])
  rcases Stream.kind_cases c.stream with h | h <;> simp [validFrame, h, h1, h2, hmax, maxStream]

/-- The reader takes every last frame. -/
lemma validFrame_last (last : Last) :
    validFrame 0 last.message.1 last.message.2.length = true := by
  cases last with
  | exit status cancelled =>
    have hlen : (Last.exit status cancelled).message.2.length = 12 := by
      simp [Last.message, encodeExit_eq]
    rw [hlen]
    rfl
  | error code h1 h8 err =>
    have hlen := (errorText_isText err).2
    have hmax : 8 + (errorText err).length ≤ maxFrame := by
      rw [maxFrame]
      omega
    simp [Last.message, validFrame, length_encodeError, hmax]

/-- A chunk is an event of its stream. -/
lemma eventOf_chunk (p : Process) (c : Chunk) :
    eventOf (p.holding c.stream.kind c.data) = (chunkReply c, p.holding c.stream.kind c.data) := by
  have hkind : c.stream.kind ≠ 8 := by
    rcases Stream.kind_cases c.stream with h | h <;> rw [h] <;> decide
  simp [eventOf, Process.holding, headerOf, hkind, chunkReply]

lemma eventOf_exit (p : Process) (status : WaitStatus) (cancelled : Bool) :
    eventOf (p.holding 8 (Last.exit status cancelled).message.2)
      = (exitReply status cancelled,
          { p.holding 8 (Last.exit status cancelled).message.2 with
            result := exitOf status cancelled, exited := true }) := by
  have hreason : status.reason cancelled < 2 ^ 32 := by
    cases status <;> cases cancelled <;> simp [WaitStatus.reason]
  have hsig : status.sig < 2 ^ 32 := by
    cases status with
    | exited code => simp [WaitStatus.sig]
    | signaled signal pos lt => exact lt.trans (by norm_num)
  have hcode : (status.exitCode % 2 ^ 32).toNat < 2 ^ 32 := by omega
  have h0 : get32 (Last.exit status cancelled).message.2 = status.reason cancelled := by
    rw [Last.message, encodeExit_eq, get32_append hreason]
  have hd4 : (Last.exit status cancelled).message.2.drop 4
      = beBytes 4 (status.exitCode % 2 ^ 32).toNat ++ beBytes 4 status.sig := by
    rw [Last.message, encodeExit_eq, drop_four]
  have hd8 : (Last.exit status cancelled).message.2.drop 8 = beBytes 4 status.sig ++ [] := by
    rw [show (8 : ℕ) = 4 + 4 from rfl, ← drop_drop, hd4, drop_four, append_nil]
  have hvalid : validExit (status.reason cancelled) (status.exitCode % 2 ^ 32).toNat status.sig
      = true := by
    cases status with
    | exited code =>
      have hle : ((code : ℕ) : ℤ) % 4294967296 ≤ 255 := by omega
      cases cancelled <;>
        simp [validExit, WaitStatus.exitCode, WaitStatus.reason, WaitStatus.sig, hle]
    | signaled signal pos lt =>
      cases cancelled <;>
        simp [validExit, WaitStatus.exitCode, WaitStatus.reason, WaitStatus.sig, pos]
  have hint : (if (status.exitCode % 2 ^ 32).toNat = 2 ^ 32 - 1 then (-1 : ℤ)
      else ((status.exitCode % 2 ^ 32).toNat : ℤ)) = status.exitCode := by
    cases status with
    | exited code =>
      have hle : (code : ℕ) ≤ 255 := by omega
      rw [WaitStatus.exitCode]
      split <;> omega
    | signaled signal pos lt => rfl
  simp only [eventOf, Process.holding, headerOf, headD_cons, if_true, Option.getD_some,
    h0, hd4, hd8, get32_append hcode, get32_append hsig, hvalid, Bool.true_eq_false, if_false, hint,
    exitReply, exitOf]

/-! ### Between two calls -/

def left (t : Transcript) (n : ℕ) : List UInt8 :=
  ((t.chunks.drop n).flatMap fun c => frame c.stream.kind c.data) ++
    frame t.last.message.1 t.last.message.2

/-- After `n` answers, with the bytes still to arrive. -/
inductive Reading (t : Transcript) : ℕ → Process → List UInt8 → Prop where
  /-- Part of the next frame is there. -/
  | inPart {n p stream} (hn : n ≤ t.chunks.length) (hok : p.failure = .ok) (hrun : p.exited = false)
      (hp : p.InPart) (hs : p.received ++ stream = left t n) : Reading t n p stream
  /-- The frame in the buffers was returned. -/
  | whole {n p stream} (hn : n ≤ t.chunks.length) (hok : p.failure = .ok) (hrun : p.exited = false)
      (hp : p.whole = true) (hs : stream = left t n) : Reading t n p stream
  /-- The process ended. -/
  | exited {n p stream status cancelled} (hn : t.chunks.length < n)
      (hlast : t.last = .exit status cancelled) (hexit : p.exited = true)
      (hresult : p.result = exitOf status cancelled) : Reading t n p stream
  /-- The server reported an error. -/
  | failed {n p stream code h1 h8 err} (hn : t.chunks.length < n)
      (hlast : t.last = .error code h1 h8 err) (hrun : p.exited = false)
      (hfail : p.failure = .ofCode code) : Reading t n p stream

lemma left_of_lt {t : Transcript} {n : ℕ} (h : n < t.chunks.length) :
    left t n = frame (t.chunks[n]).stream.kind (t.chunks[n]).data ++ left t (n + 1) := by
  rw [left, drop_eq_getElem_cons h, flatMap_cons, append_assoc]
  rfl

/-- After the chunks the last frame is left. -/
lemma left_length (t : Transcript) :
    left t t.chunks.length = frame t.last.message.1 t.last.message.2 ++ [] := by
  rw [left, drop_length, flatMap_nil, nil_append, append_nil]

lemma whole_holding (p : Process) (kind : UInt8) (data : List UInt8) :
    (p.holding kind data).whole = true := by
  simp [Process.whole, Process.holding]

lemma not_whole_of_inPart {p : Process} (h : p.InPart) : p.whole = false := by
  cases h with
  | header h hlen => simp [Process.whole, h]
  | payload b h hlen hsize hb =>
    have hne : b.length ≠ p.payloadSize := by omega
    simp [Process.whole, h, hlen, hne]

lemma ofCode_ne_ok {code : ℕ} (h1 : 1 ≤ code) (h8 : code ≤ 8) : ObError.ofCode code ≠ .ok := by
  interval_cases code <;> decide

lemma Reading.waiting {t : Transcript} {n : ℕ} {p : Process} {stream : List UInt8}
    (h : Reading t n p stream) (hn : n ≤ t.chunks.length) :
    p.failure = .ok ∧ p.exited = false ∧ ∃ q, (if p.whole then clearFrame p else p) = q ∧
      SameBut p q ∧ q.InPart ∧ q.received ++ stream = left t n := by
  cases h with
  | inPart _ hok hrun hp hs =>
    refine ⟨hok, hrun, p, ?_, ⟨rfl, rfl, rfl⟩, hp, hs⟩
    rw [not_whole_of_inPart hp]
    rfl
  | whole _ hok hrun hp hs =>
    refine ⟨hok, hrun, clearFrame p, if_pos hp, ⟨rfl, rfl, rfl⟩, .header rfl
      (by simp [clearFrame]), ?_⟩
    rw [← hs]
    rfl
  | exited hlt => omega
  | failed hlt => omega

def noMemoryReply : Reply := ⟨diag .io "frame" .enomem "Allocation failed", some .zero⟩

/-- The handle after a failed allocation. -/
structure Broken (p : Process) : Prop where
  running : p.exited = false
  failure : p.failure = .io

/-- What one call does after `n` answers. -/
inductive Outcome (t : Transcript) (n : ℕ) (c : Call) (stream : List UInt8) :
    Reply × Process × Socket → Prop where
  | answered {p s} (h : Reading t (n + 1) p s.stream) : Outcome t n c stream (answer t n, p, s)
  | deadline {p s} (h : Reading t n p s.stream) (hn : n ≤ t.chunks.length)
      (hlate : ¬(Socket.mk stream c.results).Ample) : Outcome t n c stream (deadlineReply, p, s)
  | invalid {p s} (h : Reading t n p s.stream) (ht : c.timeout < -1) :
      Outcome t n c stream (invalidReply, p, s)
  | noMemory {p s} (hm : c.malloc = false) (h : Broken p) (hn : n ≤ t.chunks.length) :
      Outcome t n c stream (noMemoryReply, p, s)

variable {t : Transcript} {n : ℕ} {c : Call} {p : Process} {s : Session} {stream : List UInt8}
  {starved : Prop} {status : WaitStatus} {cancelled : Bool}

lemma answer_of_lt (h : n < t.chunks.length) : answer t n = chunkReply t.chunks[n] := by
  rw [answer, List.getElem?_eq_getElem h]

lemma answer_of_le (h : t.chunks.length ≤ n) :
    answer t n = Last.answer t.last (n - t.chunks.length) := by
  rw [answer, List.getElem?_eq_none h]

lemma readEventUntil_waiting (h : Reading t n p stream) (hn : n ≤ t.chunks.length)
    (hc : ∀ r ∈ c.results, r.Delivers) {kind : UInt8} {data more : List UInt8}
    (hleft : left t n = frame kind data ++ more) (hvalid : validFrame 0 kind data.length = true)
    (hwhole : ∀ q : Process, q.failure = .ok → q.exited = false → ∀ s' : Socket, s'.stream = more →
      Outcome t n c stream
        (match (finishFrame (q.holding kind data)).1, (finishFrame (q.holding kind data)).2 with
          | some d, p => (⟨d, some .zero⟩, p, s')
          | none, p => ((eventOf p).1, (eventOf p).2, s'))) :
    Outcome t n c stream (readEventUntil c.malloc p ⟨stream, c.results⟩) := by
  obtain ⟨hok, hrun, q, hq, hsame, hpart, hs⟩ := h.waiting hn
  have hspec := receiveFrame_spec 0 c.malloc (s := ⟨stream, c.results⟩) hc hvalid hpart
    (hs.trans hleft)
  rw [readEventUntil, if_neg (by simp [hrun]), if_neg (by simp [hok]), hq]
  have hqok : q.failure = .ok := hsame.failure.trans hok
  have hqrun : q.exited = false := hsame.exited.trans hrun
  generalize receiveFrame 0 c.malloc q ⟨stream, c.results⟩ = result at hspec ⊢
  cases hspec with
  | frame s' hmore =>
    have := hwhole q hqok hqrun s' hmore
    revert this
    generalize (finishFrame (q.holding kind data)).2 = p'
    cases (finishFrame (q.holding kind data)).1 <;> exact id
  | deadline q' s' hq' hpart' hs' hlate =>
    have hd : readFailed q' .etimedout = (some deadlineReply.diag, q') := rfl
    rw [hd]
    refine .deadline (.inPart hn (hq'.failure.trans hqok) (hq'.exited.trans hqrun) hpart' ?_) hn
      hlate
    rw [hs', hleft]
  | noMemory hm q' s' hq' =>
    have hfail : (poison q' .io).failure = .io := by simp [poison, hq'.failure.trans hqok]
    rw [hfail]
    exact .noMemory (by simpa using hm) ⟨hq'.exited.trans hqrun, hfail⟩ hn

theorem reading_step (h : Reading t n p stream) (hc : ∀ r ∈ c.results, r.Delivers) :
    Outcome t n c stream (obReadEvent c p stream) := by
  rw [obReadEvent]
  split
  · exact .invalid h (by assumption)
  rcases Nat.lt_trichotomy n t.chunks.length with hn | hn | hn
  · -- a chunk is next
    refine readEventUntil_waiting h hn.le hc (left_of_lt hn) (validFrame_chunk _) ?_
    intro q hok hrun s' hs'
    have hkind : (t.chunks[n]).stream.kind ≠ 9 := by
      rcases Stream.kind_cases (t.chunks[n]).stream with h | h <;> rw [h] <;> decide
    rw [finishFrame_holding hkind]
    dsimp only
    rw [eventOf_chunk, ← answer_of_lt hn]
    exact .answered (.whole hn hok hrun (whole_holding _ _ _) hs')
  · -- the last frame is next
    subst hn
    refine readEventUntil_waiting h le_rfl hc (left_length t) (validFrame_last t.last) ?_
    intro q hok hrun s' hs'
    have hans := answer_of_le (t := t) le_rfl
    rw [Nat.sub_self] at hans
    cases hlast : t.last with
    | exit status cancelled =>
      rw [hlast] at hans
      have hkind : (Last.exit status cancelled).message.1 = 8 := rfl
      rw [hkind, finishFrame_holding (by decide)]
      dsimp only
      rw [eventOf_exit, show exitReply status cancelled = answer t t.chunks.length from hans.symm]
      exact .answered (.exited (Nat.lt_succ_self _) hlast rfl rfl)
    | error code h1 h8 err =>
      rw [hlast] at hans
      have hm : (Last.error code h1 h8 err).message = (9, encodeError code err) := rfl
      rw [hm, finishFrame_error hok h1 h8]
      have hreply : (⟨(errorReply code err).diag, some .zero⟩ : Reply) = answer t t.chunks.length :=
        hans.symm
      dsimp only
      rw [hreply]
      exact .answered (.failed (Nat.lt_succ_self _) hlast hrun rfl)
  · -- the last frame was returned
    have hans := answer_of_le hn.le
    have hpos : n - t.chunks.length ≠ 0 := by omega
    cases h with
    | inPart hle => omega
    | whole hle => omega
    | @exited status cancelled _ hlast hexit hresult =>
      rw [hlast] at hans
      rw [readEventUntil, if_pos hexit, hresult,
        show (⟨okRead, _⟩ : Reply) = answer t n from hans.symm]
      exact .answered (.exited (by omega) hlast hexit hresult)
    | @failed code h1 h8 err _ hlast hrun hfail =>
      rw [hlast, Last.answer, if_neg hpos] at hans
      rw [readEventUntil, if_neg (by simp [hrun]), if_pos (by rw [hfail]; exact ofCode_ne_ok h1 h8),
        hfail, show (⟨diag _ _ _ _, _⟩ : Reply) = answer t n from hans.symm]
      exact .answered (.failed (by omega) hlast hrun hfail)

/-! ### Whole sessions -/

/-- After `STARTED` no answer was given. -/
lemma reading_of_started (hstream : Produced t.messages stream)
    {started : List Recv} (hstarted : ∀ r ∈ started, r.Delivers) {malloc : Bool} {p : Process}
    {s : Socket} (h : awaitStarted malloc ⟨stream, started⟩ = (none, p, s)) :
    Reading t 0 p s.stream := by
  have hbytes : stream = frame 2 [] ++ left t 0 := by
    rw [hstream.eq, Transcript.messages, left]
    simp [flatMap_map]
  have hnew : Process.new.InPart := .header rfl (by decide)
  have hspec := receiveFrame_spec 1 malloc (s := ⟨stream, started⟩) hstarted rfl hnew hbytes
  rw [awaitStarted] at h
  generalize receiveFrame 1 malloc .new ⟨stream, started⟩ = result at hspec h
  cases hspec with
  | frame s' hs' =>
    rw [finishFrame_holding (by decide)] at h
    obtain ⟨rfl, rfl⟩ : clearFrame (Process.new.holding 2 []) = p ∧ s' = s := by simpa using h
    exact .inPart (Nat.zero_le _) rfl rfl (.header rfl (by decide)) hs'
  | deadline q s' => simp [readFailed] at h
  | noMemory hm q s' => simp at h

/-- The failed allocation, then the failure for ever. -/
def memoryReplies : ℕ → List Reply
  | 0 => []
  | m + 1 => noMemoryReply :: List.replicate m (terminalReply .io)

def Reply.isAnswer (r : Reply) : Bool := r ≠ deadlineReply && r ≠ invalidReply

lemma isAnswer_answer (t : Transcript) (n : ℕ) : (answer t n).isAnswer = true := by
  have hterminal : ∀ e, (terminalReply e).isAnswer = true := by
    intro e
    cases e <;> decide
  rw [answer]
  split
  · simp [Reply.isAnswer, chunkReply, deadlineReply, invalidReply, okRead, diag]
  generalize t.last = last
  cases last with
  | exit status cancelled =>
    simp [Reply.isAnswer, Last.answer, exitReply, deadlineReply, invalidReply, okRead, diag]
  | error code h1 h8 err =>
    rw [Last.answer]
    split
    · simp [Reply.isAnswer, errorReply, deadlineReply, invalidReply, diag]
    · exact hterminal _

/-- A handle without memory fails for ever. -/
lemma memoryReplies_succ {m : ℕ} (hm : m ≠ 0) :
    memoryReplies (m + 1) = memoryReplies m ++ [terminalReply .io] := by
  obtain ⟨m, rfl⟩ := Nat.exists_eq_succ_of_ne_zero hm
  rw [memoryReplies, memoryReplies, replicate_succ', cons_append]

/-- What the replies of a session are so far. -/
inductive Told (t : Transcript) (starved : Prop) (s : Session) : Prop where
  | answers (k : ℕ) (h : s.replies.filter Reply.isAnswer = (List.range k).map (answer t))
      (hread : Reading t k s.process s.stream)
  | broken (k m : ℕ) (hk : k ≤ t.chunks.length) (hm : m ≠ 0) (hstarved : starved)
      (h : s.replies.filter Reply.isAnswer = (List.range k).map (answer t) ++ memoryReplies m)
      (hbroken : Broken s.process)

lemma step_eq {r : Reply} {p : Process} {k : Socket}
    (h : obReadEvent c s.process s.stream = (r, p, k)) :
    s.step c = ⟨p, k.stream, s.replies ++ [r]⟩ := by
  rw [Session.step, h]

lemma Told.step (h : Told t starved s)
    (hc : ∀ r ∈ c.results, r.Delivers) (hm : c.malloc = false → starved) :
    Told t starved (s.step c) := by
  cases h with
  | answers k hreplies hread =>
    have hout := reading_step hread hc
    generalize hres : obReadEvent c s.process s.stream = result at hout
    have hskip : ∀ r p (q : Socket), r.isAnswer = false → Reading t k p q.stream →
        result = (r, p, q) → Told t starved (s.step c) := by
      rintro r p q hr hread' rfl
      rw [step_eq hres]
      exact .answers k (by simp [filter_append, hreplies, hr]) hread'
    cases hout with
    | answered h =>
      rw [step_eq hres]
      refine .answers (k + 1) ?_ h
      rw [filter_append, hreplies, range_succ, map_append]
      simp [isAnswer_answer]
    | deadline h => exact hskip _ _ _ (by decide) h rfl
    | invalid h => exact hskip _ _ _ (by decide) h rfl
    | noMemory hm' h hk =>
      rw [step_eq hres]
      refine .broken k 1 hk one_ne_zero (hm hm') ?_ h
      have hans : noMemoryReply.isAnswer = true := by decide
      simp [filter_append, hreplies, hans, memoryReplies]
  | broken k m hk hm0 hstarved hreplies hbroken =>
    by_cases ht : c.timeout < -1
    · have hres : obReadEvent c s.process s.stream
          = (invalidReply, s.process, ⟨s.stream, []⟩) := by
        rw [obReadEvent, if_pos ht]
        rfl
      rw [step_eq hres]
      have hinv : invalidReply.isAnswer = false := by decide
      exact .broken k m hk hm0 hstarved (by simp [filter_append, hreplies, hinv]) hbroken
    have hres : obReadEvent c s.process s.stream
        = (terminalReply .io, s.process, ⟨s.stream, c.results⟩) := by
      rw [obReadEvent, if_neg ht, readEventUntil, if_neg (by simp [hbroken.running]),
        if_pos (by simp [hbroken.failure]), hbroken.failure]
      rfl
    rw [step_eq hres]
    have hterm : (terminalReply .io).isAnswer = true := by decide
    refine .broken k (m + 1) hk (Nat.succ_ne_zero m) hstarved ?_ hbroken
    rw [filter_append, hreplies, memoryReplies_succ hm0, append_assoc]
    simp [hterm]

lemma answer_protocol (h : (answer t n).diag.code = .protocol) :
    ∃ h1 h8 err, t.last = .error 2 h1 h8 err := by
  rw [answer] at h
  split at h
  · cases h
  cases hlast : t.last with
  | exit status cancelled =>
    rw [hlast] at h
    cases h
  | error code h1 h8 err =>
    have hcode : ObError.ofCode code = .protocol := by
      rw [hlast, Last.answer] at h
      split at h <;> exact h
    obtain rfl : code = 2 := by
      interval_cases code <;> first | rfl | cases hcode
    exact ⟨h1, h8, err, rfl⟩

lemma memoryReplies_code {m : ℕ} {r : Reply} (h : r ∈ memoryReplies m) : r.diag.code = .io := by
  cases m with
  | zero => cases h
  | succ m =>
    rcases mem_cons.mp h with rfl | h
    · rfl
    · rw [eq_of_mem_replicate h]
      rfl

lemma Reading.stream_le (h : Reading t n p stream) (hn : n ≤ t.chunks.length) :
    stream.length ≤ (left t 0).length := by
  have hleft : (left t n).length ≤ (left t 0).length := by
    rw [left, left, drop_zero, length_append, length_append]
    conv_rhs => rw [← take_append_drop n t.chunks, flatMap_append, length_append]
    omega
  obtain ⟨-, -, q, -, -, -, hs⟩ := h.waiting hn
  have := congrArg List.length hs
  rw [length_append] at this
  omega

lemma replies_of_ample (calls : List Call)
    (hdeliver : ∀ c ∈ calls, ∀ r ∈ c.results, r.Delivers)
    (hcalls : ∀ c ∈ calls, -1 ≤ c.timeout ∧ c.malloc = true ∧
      (left t 0).length ≤ c.results.countP Recv.isData)
    (hread : Reading t s.replies.length s.process s.stream)
    (hreplies : s.replies = (List.range s.replies.length).map (answer t)) :
    (run Session.step s calls).replies
      = (List.range (s.replies.length + calls.length)).map (answer t) := by
  induction calls generalizing s with
  | nil => exact hreplies
  | cons c calls ih =>
    obtain ⟨hc, hcalls⟩ := forall_mem_cons.mp hcalls
    obtain ⟨hd, hdeliver⟩ := forall_mem_cons.mp hdeliver
    have hout := reading_step hread hd
    generalize hres : obReadEvent c s.process s.stream = result at hout
    cases hout with
    | answered h =>
      have hstep := step_eq hres
      have hlen : (s.step c).replies.length = s.replies.length + 1 := by rw [hstep]; simp
      rw [run_cons, ih hdeliver hcalls (by rw [hlen, hstep]; exact h), hlen, length_cons,
        Nat.add_right_comm, Nat.add_assoc]
      rw [hlen, hstep, range_succ, map_append, ← hreplies]
      rfl
    | deadline h hn hlate => exact absurd ((hread.stream_le hn).trans hc.2.2) hlate
    | invalid h ht => exact absurd ht (not_lt.mpr hc.1)
    | noMemory hm h => exact absurd (hm.symm.trans hc.2.1) (by decide)

def endedReply (status : WaitStatus) (cancelled : Bool) (c : Call) : Reply :=
  if c.timeout < -1 then invalidReply else exitReply status cancelled

lemma replies_of_exited
    (hexit : s.process.exited = true) (hresult : s.process.result = exitOf status cancelled)
    (calls : List Call) :
    (run Session.step s calls).replies = s.replies ++ calls.map (endedReply status cancelled) := by
  induction calls generalizing s with
  | nil => simp
  | cons c calls ih =>
    obtain ⟨k, hres⟩ : ∃ k, obReadEvent c s.process s.stream
        = (endedReply status cancelled c, s.process, k) := by
      rw [obReadEvent, endedReply]
      split
      · exact ⟨_, rfl⟩
      · rw [readEventUntil, if_pos hexit, hresult]
        exact ⟨_, rfl⟩
    have hstep := step_eq hres
    rw [run_cons, ih (by rw [hstep]; exact hexit) (by rw [hstep]; exact hresult), hstep]
    simp

lemma chunkReply_ne_exitReply (c : Chunk) (status : WaitStatus) (cancelled : Bool) :
    chunkReply c ≠ exitReply status cancelled := by
  intro h
  have hevent := Option.some_inj.mp (congrArg Reply.event h)
  have htype : c.stream.kind.toNat = 8 := congrArg Event.type hevent
  rcases Stream.kind_cases c.stream with hk | hk <;> rw [hk] at htype <;> cases htype

lemma answer_exit (h : answer t n = exitReply status cancelled) :
    t.chunks.length ≤ n ∧ ∃ status' cancelled', t.last = .exit status' cancelled' ∧
      exitReply status' cancelled' = exitReply status cancelled := by
  have hn : t.chunks.length ≤ n := by
    by_contra hlt
    rw [answer_of_lt (not_le.mp hlt)] at h
    exact chunkReply_ne_exitReply _ _ _ h
  rw [answer_of_le hn] at h
  refine ⟨hn, ?_⟩
  cases hlast : t.last with
  | exit status' cancelled' =>
    rw [hlast] at h
    exact ⟨status', cancelled', rfl, h⟩
  | error code h1 h8 err =>
    have hcode : ObError.ofCode code = .ok := by
      rw [hlast, Last.answer] at h
      split at h <;> exact congrArg (fun r => r.diag.code) h
    exact absurd hcode (ofCode_ne_ok h1 h8)

lemma Told.exited (h : Told t starved s) (hmem : exitReply status cancelled ∈ s.replies) :
    ∃ status' cancelled', exitReply status' cancelled' = exitReply status cancelled ∧
      s.process.exited = true ∧ s.process.result = exitOf status' cancelled' := by
  have hans : (exitReply status cancelled).isAnswer = true := by
    simp [Reply.isAnswer, exitReply, deadlineReply, invalidReply, okRead, diag]
  have hfilter := mem_filter.mpr ⟨hmem, hans⟩
  cases h with
  | answers k hreplies hread =>
    rw [hreplies, mem_map] at hfilter
    obtain ⟨n, hn, heq⟩ := hfilter
    rw [mem_range] at hn
    obtain ⟨hle, status', cancelled', hlast, hsame⟩ := answer_exit heq
    cases hread with
    | inPart hk => omega
    | whole hk => omega
    | @exited status'' cancelled'' _ hlast' hexit hresult =>
      rw [hlast] at hlast'
      cases hlast'
      exact ⟨_, _, hsame, hexit, hresult⟩
    | failed _ hlast' =>
      rw [hlast] at hlast'
      cases hlast'
  | broken k m hk _ _ hreplies _ =>
    rw [hreplies, mem_append, mem_map] at hfilter
    rcases hfilter with ⟨n, hn, heq⟩ | hmem
    · rw [mem_range] at hn
      have := (answer_exit heq).1
      omega
    · have := memoryReplies_code hmem
      cases this

/-- **The same events however bytes and timeouts fall.** The replies other than expired deadlines
and rejected timeouts are the chunks and then the end of the command, again and again; from a
failed allocation on they are `OB_IO`; and a call whose reads bring all the bytes returns the next
answer. -/
theorem events_exact (t : Transcript) (stream : List UInt8) (hstream : Produced t.messages stream)
    (started : List Recv) (hstarted : ∀ r ∈ started, r.Delivers) (malloc : Bool) (p : Process)
    (s : Socket) (hstart : awaitStarted malloc ⟨stream, started⟩ = (none, p, s))
    (calls : List Call) (hcalls : ∀ c ∈ calls, ∀ r ∈ c.results, r.Delivers) :
    (∃ k m, ((run Session.step ⟨p, s.stream, []⟩ calls).replies.filter Reply.isAnswer)
        = (List.range k).map (answer t) ++ memoryReplies m ∧
      (m ≠ 0 → ∃ c ∈ calls, c.malloc = false)) ∧
    (∀ r ∈ (run Session.step ⟨p, s.stream, []⟩ calls).replies, r.diag.code = .protocol →
      ∃ h1 h8 err, t.last = .error 2 h1 h8 err) ∧
    (∀ before after status cancelled, calls = before ++ after →
      exitReply status cancelled ∈ (run Session.step ⟨p, s.stream, []⟩ before).replies →
      (run Session.step ⟨p, s.stream, []⟩ calls).replies
        = (run Session.step ⟨p, s.stream, []⟩ before).replies
          ++ after.map (endedReply status cancelled)) ∧
    ((∀ c ∈ calls, -1 ≤ c.timeout ∧ c.malloc = true ∧
        stream.length ≤ c.results.countP Recv.isData) →
      (run Session.step ⟨p, s.stream, []⟩ calls).replies
        = (List.range calls.length).map (answer t)) := by
  have hread := reading_of_started hstream hstarted hstart
  have htold : ∀ cs, (∀ c ∈ cs, c ∈ calls) →
      Told t (∃ c ∈ calls, c.malloc = false) (run Session.step ⟨p, s.stream, []⟩ cs) := by
    intro cs hcs
    exact along_invariant (P := fun _ c => c ∈ calls) (I := Told t (∃ c ∈ calls, c.malloc = false))
      (fun s c hs hc => hs.step (hcalls c hc) fun hm => ⟨c, hc, hm⟩)
      (.answers 0 rfl hread) (along_of_forall hcs)
  have hexists : ∃ k m, ((run Session.step ⟨p, s.stream, []⟩ calls).replies.filter Reply.isAnswer)
      = (List.range k).map (answer t) ++ memoryReplies m ∧
      (m ≠ 0 → ∃ c ∈ calls, c.malloc = false) := by
    cases htold calls fun _ hc => hc with
    | answers k h _ => exact ⟨k, 0, by rw [h]; simp [memoryReplies], by simp⟩
    | broken k m _ _ hstarved h _ => exact ⟨k, m, h, fun _ => hstarved⟩
  refine ⟨hexists, ?_, ?_, ?_⟩
  · intro r hr hcode
    obtain ⟨k, m, heq, -⟩ := hexists
    by_cases hans : r.isAnswer = true
    · have hmem := mem_filter.mpr ⟨hr, hans⟩
      rw [heq, mem_append, mem_map] at hmem
      rcases hmem with ⟨n, -, rfl⟩ | hmem
      · exact answer_protocol hcode
      · rw [memoryReplies_code hmem] at hcode
        cases hcode
    have hskip : r = deadlineReply ∨ r = invalidReply := by
      by_contra hno
      rw [not_or] at hno
      exact hans (by simp [Reply.isAnswer, hno])
    rcases hskip with rfl | rfl <;> cases hcode
  · rintro before after status cancelled rfl hmem
    obtain ⟨status', cancelled', hsame, hexit, hresult⟩ :=
      (htold before fun c hc => mem_append_left after hc).exited hmem
    rw [run_append, replies_of_exited hexit hresult]
    refine congrArg _ (map_congr_left fun c _ => ?_)
    rw [endedReply, endedReply, hsame]
  intro hample
  have hlen : (left t 0).length ≤ stream.length := by
    rw [hstream.eq, Transcript.messages, left]
    simp [flatMap_map]
  have hres := replies_of_ample calls (s := ⟨p, s.stream, []⟩) hcalls
    (fun c hc => ⟨(hample c hc).1, (hample c hc).2.1, hlen.trans (hample c hc).2.2⟩) hread rfl
  simpa using hres

def hiTranscript : Transcript :=
  ⟨[⟨.stdout, [0x68, 0x69], by decide, by decide⟩], .exit (.exited 0) false⟩

def hiWrites : List WriteResult := List.replicate 4 ⟨10, false⟩

def sent (t : Transcript) : List UInt8 :=
  t.messages.flatMap fun m => (Shell.write hiWrites m.1 m.2).bytes

lemma produced_hi : Produced hiTranscript.messages (sent hiTranscript) :=
  .cons hiWrites rfl (.cons hiWrites rfl (.cons hiWrites rfl .nil))

def slowCall : Call := ⟨-1, List.replicate 40 (.got 1), true⟩

lemma slowCall_delivers : ∀ r ∈ slowCall.results, r.Delivers := by
  intro r hr
  rw [eq_of_mem_replicate hr]
  trivial

/-- A command that writes `hi`, read byte by byte. -/
theorem events_exact_hi :
    ∃ p s, awaitStarted true ⟨sent hiTranscript, [.got 2, .again, .got 3]⟩ = (none, p, s) ∧
      (run Session.step ⟨p, s.stream, []⟩ [slowCall, slowCall, slowCall]).replies
        = (List.range 3).map (answer hiTranscript) := by
  refine ⟨_, _, rfl, ?_⟩
  refine (events_exact hiTranscript _ produced_hi [.got 2, .again, .got 3] ?_ true _ _ rfl
    [slowCall, slowCall, slowCall] (by simpa using slowCall_delivers)).2.2.2 ?_
  · simp [Recv.Delivers]
  · simp only [mem_cons, not_mem_nil, or_false, or_self, forall_eq]
    decide

/-- A server that reports a protocol error: the reply is `OB_PROTOCOL`. -/
theorem events_protocol_error :
    ∃ (t : Transcript) (stream : List UInt8) (started : List Recv) (p : Process) (s : Socket)
      (calls : List Call), Produced t.messages stream ∧ (∀ r ∈ started, r.Delivers) ∧
      awaitStarted true ⟨stream, started⟩ = (none, p, s) ∧
      (∀ c ∈ calls, ∀ r ∈ c.results, r.Delivers) ∧
      ∃ r ∈ (run Session.step ⟨p, s.stream, []⟩ calls).replies, r.diag.code = .protocol := by
  obtain ⟨t, ht⟩ : ∃ t : Transcript, t = ⟨[], .error 2 (by decide) (by decide) []⟩ := ⟨_, rfl⟩
  have hproduced : Produced t.messages (sent t) := by
    have hlast : (Shell.write hiWrites 9 (encodeError 2 [])).err = none := by decide +kernel
    rw [ht]
    exact .cons hiWrites rfl (.cons hiWrites hlast .nil)
  have hstart : (awaitStarted true ⟨sent t, [.got 5]⟩).1 = none := by
    rw [ht]
    decide +kernel
  have hstarted : ∀ r ∈ [Recv.got 5], r.Delivers := by simp [Recv.Delivers]
  obtain ⟨p, s, heq⟩ : ∃ p s, awaitStarted true ⟨sent t, [.got 5]⟩ = (none, p, s) :=
    ⟨_, _, Prod.ext hstart rfl⟩
  have hleft : (left t 0).length ≤ slowCall.results.countP Recv.isData := by
    rw [ht]
    decide +kernel
  refine ⟨t, _, [.got 5], p, s, [slowCall], hproduced, hstarted, heq,
    by simpa using slowCall_delivers, ?_⟩
  have hreplies := replies_of_ample [slowCall] (s := ⟨p, s.stream, []⟩)
    (by simpa using slowCall_delivers) (by simpa using ⟨by decide, rfl, hleft⟩)
    (reading_of_started hproduced hstarted heq) rfl
  rw [hreplies]
  refine ⟨answer t 0, by simp, ?_⟩
  rw [ht]
  rfl

end OhecoBroker.Shell.Client
