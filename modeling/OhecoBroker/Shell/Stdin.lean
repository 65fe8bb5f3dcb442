/-
The standard input of a managed command (`internal/server/server.go`,
`internal/protocol/protocol.go`).

Three goroutines work on it at once: `readControls` reads the client's frames and queues their
payloads, a writer takes them to the pipe of the process, and `run` closes that pipe once the
process is gone, while the context may be cancelled at any time.  A frame is read in one step and
handled in another, and a payload is taken in one step and written in as many as the pipe makes of
it.

* `read_iff`: what `Read` accepts is a whole frame, and every frame is accepted;
* `Books`, `Kept.step`: what the queue, the writer and the pipe hold, as an account of the `STDIN`
  frames so far, which every step of every party keeps;
* `stdin_in_order`: **in every interleaving** the process is given the payloads of the `STDIN`
  frames, in order and without a gap, and its input ends only at `STDIN_EOF`, unless the command
  was cancelled or is gone;
* `stdin_delivered`: some interleaving gives it all of them.
-/
import OhecoBroker.Lib.Run
import OhecoBroker.Shell.Frame

namespace OhecoBroker.Shell

open Lib List

/-! ### Reading a frame -/

/-- `Read` waits while the frame is not whole. -/
inductive ReadResult where
  | waits
  | tooLarge
  | frame (kind : UInt8) (data rest : List UInt8)

def read : List UInt8 → ReadResult
  | [] => .waits
  | kind :: h =>
    if h.length < 4 then .waits
    else if maxFrame < beNat (h.take 4) then .tooLarge
    else if (h.drop 4).length < beNat (h.take 4) then .waits
    else .frame kind ((h.drop 4).take (beNat (h.take 4))) ((h.drop 4).drop (beNat (h.take 4)))

theorem read_iff {wire : List UInt8} {kind : UInt8} {data rest : List UInt8} :
    read wire = .frame kind data rest ↔
      wire = frame kind data ++ rest ∧ data.length ≤ maxFrame := by
  constructor
  · intro h
    unfold read at h
    split at h
    · cases h
    rename_i k p
    split_ifs at h with hlen hmax hdata
    cases h
    have hn : ((p.drop 4).take (beNat (p.take 4))).length = beNat (p.take 4) :=
      length_take_of_le (not_lt.mp hdata)
    have hlen4 : (p.take 4).length = 4 := length_take_of_le (not_lt.mp hlen)
    refine ⟨?_, hn.trans_le (not_lt.mp hmax)⟩
    have hbytes : beBytes 4 (beNat (p.take 4)) = p.take 4 := by
      simpa only [hlen4] using beBytes_beNat (p.take 4)
    rw [frame, hn, hbytes, cons_append, append_assoc, take_append_drop,
      take_append_drop]
  · rintro ⟨rfl, hdata⟩
    have hmax : maxFrame < 256 ^ 4 := by norm_num [maxFrame]
    have hn : beNat (beBytes 4 data.length) = data.length := beNat_beBytes_of_lt (by omega)
    have htake : (beBytes 4 data.length ++ (data ++ rest)).take 4 = beBytes 4 data.length :=
      take_left' (length_beBytes _ _)
    have hdrop : (beBytes 4 data.length ++ (data ++ rest)).drop 4 = data ++ rest :=
      drop_left' (length_beBytes _ _)
    rw [frame, cons_append, append_assoc, read, htake, hdrop, hn]
    simp [hdata]

/-! ### The goroutines -/

/-- Where `readControls` is. -/
inductive ReaderState where
  | reading
  | handling (kind : UInt8) (data : List UInt8)
  | returned
  deriving DecidableEq

/-- In its `select`, in `inW.Write`, or gone. -/
inductive WriterState where
  | selecting
  | writing (left : List UInt8)
  | returned
  deriving DecidableEq

namespace WriterState

def held : WriterState → List UInt8
  | writing left => left
  | _ => []

def writeOn (left : List UInt8) : WriterState := if left = [] then .selecting else .writing left

@[simp] lemma held_selecting : held .selecting = [] := rfl

@[simp] lemma held_returned : held .returned = [] := rfl

@[simp] lemma held_writing (left : List UInt8) : held (.writing left) = left := rfl

@[simp] lemma held_writeOn (left : List UInt8) : (writeOn left).held = left := by
  unfold writeOn
  split
  · rename_i hnil
    rw [hnil, held_selecting]
  · rfl

lemma writeOn_ne_returned (left : List UInt8) : writeOn left ≠ .returned := by
  unfold writeOn
  split <;> simp

end WriterState

/-- `nil` on `input` is `none`; `failure` is the code on `failures`; `stdin` is what was written
to `inW`. -/
structure Relay where
  wire : List UInt8
  reader : ReaderState := .reading
  closed : Bool
  input : List (Option (List UInt8)) := []
  failure : Option ℕ := none
  cancelled : Bool := false
  writer : WriterState
  discard : Bool := false
  stdin : List UInt8 := []
  waited : Bool := false
  inWClosed : Bool := false

/-- The end of the connection, a `net.Error`, or another. -/
inductive ReadError where
  | eof
  | net
  | other
  deriving DecidableEq

namespace Relay

/-- There is a writer only when the request wants one. -/
def start (enabled : Bool) (wire : List UInt8) : Relay :=
  { wire, closed := !enabled, writer := if enabled then .selecting else .returned }

/-- `readControls` returns, which cancels the context. -/
def ret (s : Relay) : Relay := { s with reader := .returned, cancelled := true }

/-- Only the first failure fits into the channel. -/
def refuse (s : Relay) (code : ℕ) : Relay := { s with failure := s.failure.or (some code) }.ret

/-- When both cases are ready, `late` picks the cancelled context. -/
def queue (s : Relay) (b : Option (List UInt8)) (late : Bool) : Relay :=
  if s.cancelled && late then s.ret
  else if s.input.length < 16 then { s with input := s.input ++ [b], reader := .reading }
  else if s.cancelled then s.ret
  else s.refuse 8

/-- `CANCEL`, `STDIN`, `STDIN_EOF`. -/
def handle (s : Relay) (kind : UInt8) (data : List UInt8) (late : Bool) : Relay :=
  if kind = 7 then if data ≠ [] then s.refuse 2 else s.ret
  else if kind = 3 then
    if s.closed ∨ data = [] ∨ 65536 < data.length then s.refuse 2 else s.queue (some data) late
  else if kind = 4 then
    if s.closed ∨ data ≠ [] then s.refuse 2 else { s with closed := true }.queue none late
  else s.refuse 2

def quit (s : Relay) : Relay := { s with writer := .returned, inWClosed := true }

def take (s : Relay) : Relay :=
  match s.writer, s.input with
  | .selecting, none :: rest => { s with input := rest }.quit
  | .selecting, some b :: rest =>
    if s.discard then { s with input := rest } else { s with input := rest, writer := .writing b }
  | _, _ => s

/-- `Write` returns when nothing is left. -/
def write (s : Relay) (n : ℕ) : Relay :=
  match s.writer with
  | .writing left =>
    if s.inWClosed then s
    else { s with stdin := s.stdin ++ left.take n, writer := .writeOn (left.drop n) }
  | _ => s

/-- The process is gone, or one end is closed. -/
def writeFails (s : Relay) : Relay :=
  match s.writer with
  | .writing _ => { s with writer := .selecting, discard := true }
  | _ => s

/-- One step of one of the parties. -/
inductive Event where
  | read
  | readFails (e : ReadError)
  | handle (late : Bool)
  | take
  | write (n : ℕ)
  | writeFails
  /-- The writer finds the context cancelled. -/
  | quit
  /-- `cmd.Wait` returns. -/
  | exit
  /-- `run` closes the pipe, which it does after `cmd.Wait` only. -/
  | close
  | cancel

def step (s : Relay) : Event → Relay
  | .read =>
    match s.reader, Shell.read s.wire with
    | .reading, .frame kind data rest =>
      if s.cancelled then s.ret else { s with wire := rest, reader := .handling kind data }
    | .reading, .tooLarge => s.refuse 2
    | _, _ => s
  | .readFails e =>
    if s.reader = .reading then if e = .other then s.refuse 2 else s.ret else s
  | .handle late =>
    match s.reader with
    | .handling kind data => s.handle kind data late
    | _ => s
  | .take => s.take
  | .write n => s.write n
  | .writeFails => s.writeFails
  | .quit => if s.cancelled ∧ s.writer = .selecting then s.quit else s
  | .exit => { s with waited := true }
  | .close => if s.waited then { s with inWClosed := true } else s
  | .cancel => { s with cancelled := true }

/-! ### What was accepted -/

/-- The bytes after the frames that were accepted. -/
def Next (s : Relay) (rest : List UInt8) : Prop :=
  match s.reader with
  | .reading => rest = s.wire
  | .handling kind data => rest = frame kind data ++ s.wire
  | .returned => True

/-- The payloads taken and queued; `eof` says whether the end was accepted, `seen` whether it was
taken. -/
structure Books (enabled : Bool) (wire : List UInt8) (s : Relay)
    (taken queued : List (List UInt8)) (eof seen : Bool) : Prop where
  chunks : ∀ d ∈ taken ++ queued, d ≠ [] ∧ d.length ≤ 65536
  sent : ∃ rest, wire = (taken ++ queued).flatMap (frame 3)
    ++ (if eof then frame 4 [] else []) ++ rest ∧ s.Next rest
  closed : s.reader ≠ .returned → s.closed = (eof || !enabled)
  input : s.input = queued.map some ++ if eof && !seen then [none] else []
  room : s.input.length ≤ 16
  ended : seen = true → eof = true ∧ queued = [] ∧ s.writer = .returned
  written : s.stdin ++ s.writer.held <+: taken.flatten
  exact : s.discard = false → s.stdin ++ s.writer.held = taken.flatten
  running : enabled = true → s.writer = .returned → s.cancelled = false → seen = true
  shut : s.inWClosed = true → s.waited = false → s.writer = .returned

def Kept (enabled : Bool) (wire : List UInt8) (s : Relay) : Prop :=
  ∃ taken queued eof seen, Books enabled wire s taken queued eof seen

variable {enabled eof seen late : Bool} {wire data : List UInt8} {s : Relay}
  {taken queued : List (List UInt8)}

/-! ### The steps of `readControls` -/

lemma Kept.ret (h : Kept enabled wire s) (closed : Bool) :
    Kept enabled wire { s with closed := closed }.ret := by
  obtain ⟨taken, queued, eof, seen, h⟩ := h
  obtain ⟨rest, hwire, -⟩ := h.sent
  exact ⟨taken, queued, eof, seen, { h with
    sent := ⟨rest, hwire, trivial⟩, closed := fun hr => absurd rfl hr
    running := fun _ _ hc => absurd hc.symm Bool.false_ne_true }⟩

lemma Kept.refuse (h : Kept enabled wire s.ret) (code : ℕ) :
    Kept enabled wire (s.refuse code) := by
  obtain ⟨taken, queued, eof, seen, h⟩ := h
  exact ⟨taken, queued, eof, seen, { h with }⟩

lemma Kept.queue {b : Option (List UInt8)} (h : Kept enabled wire s.ret)
    (hq : s.input.length < 16 →
      Kept enabled wire { s with input := s.input ++ [b], reader := .reading }) :
    Kept enabled wire (s.queue b late) := by
  unfold Relay.queue
  split_ifs with _ hroom _
  · exact h
  · exact hq hroom
  · exact h
  · exact h.refuse 8

/-- While the input is open. -/
lemma Books.opened (h : Books enabled wire s taken queued eof seen) (hr : s.reader ≠ .returned)
    (hc : s.closed = false) : eof = false ∧ enabled = true ∧ seen = false := by
  have hclosed := h.closed hr
  obtain ⟨rfl, rfl⟩ : eof = false ∧ enabled = true := by simpa [hc] using hclosed
  refine ⟨rfl, rfl, Bool.eq_false_iff.mpr fun hs => ?_⟩
  exact Bool.false_ne_true (h.ended hs).1

lemma Books.stdin (h : Books enabled wire s taken queued eof seen)
    (hr : s.reader = .handling 3 data) (hc : s.closed = false)
    (hd : data ≠ [] ∧ data.length ≤ 65536) (hroom : s.input.length < 16) :
    Kept enabled wire { s with input := s.input ++ [some data], reader := .reading } := by
  obtain ⟨rfl, rfl, rfl⟩ := h.opened (by simp [hr]) hc
  obtain ⟨rest, hwire, hnext⟩ := h.sent
  simp only [Next, hr] at hnext
  refine ⟨taken, queued ++ [data], false, false, { h with
    chunks := fun d hmem => ?_, sent := ⟨s.wire, by simp [hwire, hnext], rfl⟩
    closed := fun _ => hc, input := by simp [h.input], room := by simpa using hroom
    ended := by simp }⟩
  rw [← append_assoc, mem_append, mem_singleton] at hmem
  rcases hmem with hmem | rfl
  · exact h.chunks d hmem
  · exact hd

lemma Books.stdinEOF (h : Books enabled wire s taken queued eof seen)
    (hr : s.reader = .handling 4 []) (hc : s.closed = false) (hroom : s.input.length < 16) :
    Kept enabled wire
      { s with closed := true, input := s.input ++ [none], reader := .reading } := by
  obtain ⟨rfl, rfl, rfl⟩ := h.opened (by simp [hr]) hc
  obtain ⟨rest, hwire, hnext⟩ := h.sent
  simp only [Next, hr] at hnext
  exact ⟨taken, queued, true, false, { h with
    sent := ⟨s.wire, by simp [hwire, hnext], rfl⟩, closed := by simp
    input := by simp [h.input], room := by simpa using hroom, ended := by simp }⟩

lemma Kept.handle {kind : UInt8} (h : Kept enabled wire s)
    (hr : s.reader = .handling kind data) : Kept enabled wire (s.handle kind data late) := by
  have hret : Kept enabled wire s.ret := h.ret s.closed
  unfold Relay.handle
  obtain ⟨taken, queued, eof, seen, hb⟩ := id h
  split_ifs with hcancel hdata hstdin hbad heof hbad
  · exact hret.refuse 2
  · exact hret
  · exact hret.refuse 2
  · subst hstdin
    simp only [not_or, Bool.not_eq_true, not_lt] at hbad
    exact hret.queue (hb.stdin hr hbad.1 hbad.2)
  · exact hret.refuse 2
  · subst heof
    simp only [not_or, Bool.not_eq_true, not_not] at hbad
    obtain ⟨hc, rfl⟩ := hbad
    exact (h.ret true).queue (hb.stdinEOF hr hc)
  · exact hret.refuse 2

/-! ### The steps of the writer -/

lemma Books.seen_eq_false (h : Books enabled wire s taken queued eof seen)
    (hw : s.writer ≠ .returned) : seen = false :=
  Bool.eq_false_iff.mpr fun hs => hw (h.ended hs).2.2

lemma Books.takeFront {b : List UInt8} {rest : List (Option (List UInt8))} {w : WriterState}
    (h : Books enabled wire s taken queued eof seen) (hcons : s.input = some b :: rest)
    (hw : s.writer ≠ .returned) (hw' : w ≠ .returned)
    (hshut : s.inWClosed = true → s.waited = false → w = .returned)
    (hwritten : s.stdin ++ w.held <+: taken.flatten ++ b)
    (hexact : s.discard = false → s.stdin ++ w.held = taken.flatten ++ b) :
    Kept enabled wire { s with input := rest, writer := w } := by
  obtain rfl := h.seen_eq_false hw
  have hroom := h.room
  have hin := h.input
  rw [hcons] at hin hroom
  cases queued with
  | nil => split_ifs at hin <;> simp at hin
  | cons d queued =>
    obtain ⟨rfl, hrest⟩ : b = d ∧ rest = queued.map some ++ if eof then [none] else [] := by
      simpa using hin
    have happend : taken ++ [b] ++ queued = taken ++ b :: queued := by simp
    exact ⟨taken ++ [b], queued, eof, false, { h with
      chunks := happend ▸ h.chunks, sent := happend ▸ h.sent, input := by simpa using hrest
      room := (Nat.le_succ _).trans hroom, ended := by simp
      written := by simpa using hwritten, exact := by simpa using hexact
      running := fun _ hret => absurd hret hw', shut := hshut }⟩

lemma Books.takeEnd {rest : List (Option (List UInt8))}
    (h : Books enabled wire s taken queued eof seen) (hcons : s.input = none :: rest)
    (hw : s.writer = .selecting) : Kept enabled wire { s with input := rest }.quit := by
  obtain rfl := h.seen_eq_false (by simp [hw])
  have hin := h.input
  rw [hcons] at hin
  cases queued with
  | cons d queued => simp at hin
  | nil =>
    cases eof with
    | false => simp at hin
    | true =>
      obtain rfl : rest = [] := by simpa using hin
      exact ⟨taken, [], true, true, { h with
        input := rfl, room := Nat.zero_le _, ended := fun _ => ⟨rfl, rfl, rfl⟩
        written := by simpa [quit, hw] using h.written
        exact := fun hd => by simpa [quit, hw] using h.exact hd
        running := fun _ _ _ => rfl, shut := fun _ _ => rfl }⟩

/-- The writer keeps the books when it receives. -/
lemma Kept.take (h : Kept enabled wire s) : Kept enabled wire s.take := by
  obtain ⟨taken, queued, eof, seen, hb⟩ := id h
  unfold Relay.take
  split
  · rename_i rest hw hcons
    exact hb.takeEnd hcons hw
  · rename_i b rest hw hcons
    have hne : s.writer ≠ .returned := by simp [hw]
    have hshut : s.inWClosed = true → s.waited = false → WriterState.selecting = .returned :=
      hw ▸ hb.shut
    split
    · -- after a failed write the payload is dropped
      rename_i hdiscard
      have hpre : s.stdin <+: taken.flatten := by simpa [hw] using hb.written
      have hkept := hb.takeFront hcons hne (w := .selecting) (by simp) hshut
        (by simpa using hpre.trans (prefix_append _ b))
        fun hd => absurd (hdiscard.symm.trans hd) (by simp)
      rwa [← hw] at hkept
    · rename_i hdiscard
      have hexact : s.stdin = taken.flatten := by
        simpa [hw] using hb.exact (by simpa using hdiscard)
      refine hb.takeFront hcons hne (by simp) (fun hc hx => absurd (hshut hc hx) (by simp)) ?_ ?_
      · simp [hexact]
      · simp [hexact]
  · exact h

lemma Kept.write (h : Kept enabled wire s) (n : ℕ) : Kept enabled wire (s.write n) := by
  obtain ⟨taken, queued, eof, seen, hb⟩ := id h
  unfold Relay.write
  split
  · rename_i left hw
    split
    · exact h
    rename_i hopen
    obtain rfl := hb.seen_eq_false (by simp [hw])
    have hne := WriterState.writeOn_ne_returned (left.drop n)
    have hmove : s.stdin ++ left.take n ++ (WriterState.writeOn (left.drop n)).held
        = s.stdin ++ s.writer.held := by simp [hw]
    exact ⟨taken, queued, eof, false, { hb with
      ended := by simp, written := hmove ▸ hb.written, exact := fun hd => hmove ▸ hb.exact hd
      running := fun _ hret => absurd hret hne
      shut := fun hc => absurd hc hopen }⟩
  · exact h

lemma Kept.writeFails (h : Kept enabled wire s) : Kept enabled wire s.writeFails := by
  obtain ⟨taken, queued, eof, seen, hb⟩ := id h
  unfold Relay.writeFails
  split
  · rename_i left hw
    obtain rfl := hb.seen_eq_false (by simp [hw])
    exact ⟨taken, queued, eof, false, { hb with
      ended := by simp, exact := by simp, running := by simp
      written := by simpa using (prefix_append s.stdin _).trans hb.written
      shut := fun hc hx => by simpa [hw] using hb.shut hc hx }⟩
  · exact h

/-! ### Every step -/

/-- **One step** of any party keeps the books. -/
lemma Kept.step (h : Kept enabled wire s) (e : Event) : Kept enabled wire (s.step e) := by
  have hret : Kept enabled wire s.ret := h.ret s.closed
  cases e with
  | read =>
    unfold Relay.step
    dsimp only
    split
    · rename_i kind data rest hr hread
      split
      · exact hret
      obtain ⟨taken, queued, eof, seen, hb⟩ := h
      obtain ⟨rest', hwire, hnext⟩ := hb.sent
      simp only [Next, hr] at hnext
      exact ⟨taken, queued, eof, seen, { hb with
        sent := ⟨rest', hwire, hnext.trans (read_iff.mp hread).1⟩
        closed := fun _ => hb.closed (by simp [hr]) }⟩
    · exact hret.refuse 2
    · exact h
  | readFails e =>
    unfold Relay.step
    dsimp only
    split_ifs
    · exact hret.refuse 2
    · exact hret
    · exact h
  | handle late =>
    unfold Relay.step
    dsimp only
    split
    · rename_i kind data hr
      exact h.handle hr
    · exact h
  | take => exact h.take
  | write n => exact h.write n
  | writeFails => exact h.writeFails
  | quit =>
    unfold Relay.step
    dsimp only
    split_ifs with hq
    · obtain ⟨hc, hw⟩ := hq
      obtain ⟨taken, queued, eof, seen, hb⟩ := h
      obtain rfl := hb.seen_eq_false (by simp [hw])
      exact ⟨taken, queued, eof, false, { hb with
        ended := by simp, written := by simpa [Relay.quit, hw] using hb.written
        exact := fun hd => by simpa [Relay.quit, hw] using hb.exact hd
        running := fun _ _ hn => absurd (hc.symm.trans hn) (by simp), shut := fun _ _ => rfl }⟩
    · exact h
  | exit =>
    obtain ⟨taken, queued, eof, seen, hb⟩ := h
    exact ⟨taken, queued, eof, seen, { hb with
      shut := fun _ hn => absurd hn.symm Bool.false_ne_true }⟩
  | close =>
    unfold Relay.step
    dsimp only
    split_ifs with hx
    · obtain ⟨taken, queued, eof, seen, hb⟩ := h
      exact ⟨taken, queued, eof, seen, { hb with
        shut := fun _ hn => absurd (hx.symm.trans hn) (by simp) }⟩
    · exact h
  | cancel =>
    obtain ⟨taken, queued, eof, seen, hb⟩ := h
    exact ⟨taken, queued, eof, seen, { hb with
      running := fun _ _ hn => absurd hn.symm Bool.false_ne_true }⟩

lemma kept_start (enabled : Bool) (wire : List UInt8) : Kept enabled wire (start enabled wire) := by
  have hheld : (start enabled wire).writer.held = [] := by cases enabled <;> rfl
  refine ⟨[], [], false, false, ⟨by simp, ⟨wire, rfl, rfl⟩, fun _ => rfl, rfl, Nat.zero_le _,
    ?_, ?_, fun _ => ?_, ?_, ?_⟩⟩
  · simp
  · rw [hheld]
    exact prefix_rfl
  · rw [hheld]
    rfl
  · rintro rfl hw
    simp [start] at hw
  · simp [start]

/-- **Standard input arrives in order.** In every interleaving the process was given a prefix of
the payloads taken, all of them but what is still being written unless a write failed; the queue
holds at most 16 payloads and 1 MiB; nothing is lost before it; and until the command is cancelled
or gone its input ends only at `STDIN_EOF`, when every payload was written. -/
theorem stdin_in_order (enabled : Bool) (wire : List UInt8) (es : List Event) :
    let s := run step (start enabled wire) es
    ∃ taken queued rest eof, (∀ d ∈ taken ++ queued, d ≠ [] ∧ d.length ≤ 65536) ∧
      wire = (taken ++ queued).flatMap (frame 3) ++ (if eof then frame 4 [] else []) ++ rest ∧
      s.stdin <+: taken.flatten ∧
      (s.discard = false → s.stdin ++ s.writer.held = taken.flatten) ∧
      s.input.filterMap id = queued ∧ s.input.length ≤ 16 ∧ queued.flatten.length ≤ 1048576 ∧
      (s.reader = .reading → rest = s.wire) ∧
      (enabled = true → s.inWClosed = true → s.cancelled = false → s.waited = false →
        eof = true ∧ queued = [] ∧ s.writer.held = []) := by
  intro s
  have hkept : Kept enabled wire s :=
    run_invariant (fun s e hs => hs.step e) es (kept_start enabled wire)
  obtain ⟨taken, queued, eof, seen, h⟩ := hkept
  obtain ⟨rest, hwire, hnext⟩ := h.sent
  have hqueued : s.input.filterMap id = queued := by
    rw [h.input]
    split_ifs <;> simp
  have hlen : queued.length ≤ 16 := by
    have := h.room
    rw [h.input, length_append, length_map] at this
    omega
  have hbytes : queued.flatten.length ≤ queued.length * 65536 := by
    rw [length_flatten, ← smul_eq_mul, ← length_map]
    refine sum_le_card_nsmul _ _ fun n hn => ?_
    obtain ⟨d, hd, rfl⟩ := mem_map.mp hn
    exact (h.chunks d (mem_append_right _ hd)).2
  refine ⟨taken, queued, rest, eof, h.chunks, hwire, (prefix_append _ _).trans h.written,
    h.exact, hqueued, h.room, by omega, fun hr => ?_, fun he hc hn hx => ?_⟩
  · simpa only [Next, hr] using hnext
  · have hret := h.shut hc hx
    obtain ⟨heof, hq, -⟩ := h.ended (h.running he hret hn)
    exact ⟨heof, hq, by rw [hret]; rfl⟩

/-! ### A run that delivers -/

def ready (wire stdin : List UInt8) : Relay := { start true wire with stdin }

def carry (d : List UInt8) : List Event := [.read, .handle false, .take, .write d.length]

/-- One payload is carried through. -/
lemma run_carry {d : List UInt8} (hd : d ≠ [] ∧ d.length ≤ 65536) (wire stdin : List UInt8) :
    run step (ready (frame 3 d ++ wire) stdin) (carry d) = ready wire (stdin ++ d) := by
  have hread : Shell.read (frame 3 d ++ wire) = .frame 3 d wire :=
    read_iff.mpr ⟨rfl, hd.2.trans (by norm_num [maxFrame])⟩
  have hlen : ¬ 65536 < d.length := not_lt.mpr hd.2
  simp [carry, ready, start, step, hread, Relay.handle, Relay.queue, Relay.take, Relay.write,
    WriterState.writeOn, hd.1, hlen]

/-- All payloads are, one after the other. -/
lemma run_carry_all {ds : List (List UInt8)} (hds : ∀ d ∈ ds, d ≠ [] ∧ d.length ≤ 65536)
    (wire stdin : List UInt8) :
    run step (ready (ds.flatMap (frame 3) ++ wire) stdin) (ds.flatMap carry)
      = ready wire (stdin ++ ds.flatten) := by
  induction ds generalizing stdin with
  | nil => simp
  | cons d ds ih =>
    obtain ⟨hd, hds⟩ := forall_mem_cons.mp hds
    rw [flatMap_cons, flatMap_cons, append_assoc, run_append, run_carry hd, ih hds,
      flatten_cons, append_assoc]

theorem stdin_delivered (ds : List (List UInt8)) (hds : ∀ d ∈ ds, d ≠ [] ∧ d.length ≤ 65536) :
    ∃ es, let s := run step (start true (ds.flatMap (frame 3) ++ frame 4 [])) es
      s.stdin = ds.flatten ∧ s.inWClosed = true ∧ s.cancelled = false ∧ s.waited = false := by
  refine ⟨ds.flatMap carry ++ [.read, .handle false, .take], ?_⟩
  have hread : Shell.read (frame 4 []) = .frame 4 [] [] :=
    read_iff.mpr ⟨(append_nil _).symm, Nat.zero_le _⟩
  have hstart : start true (ds.flatMap (frame 3) ++ frame 4 [])
      = ready (ds.flatMap (frame 3) ++ frame 4 []) [] := rfl
  rw [hstart, run_append, run_carry_all hds]
  simp [ready, start, step, hread, Relay.handle, Relay.queue, Relay.take, Relay.quit]

end Relay

end OhecoBroker.Shell
