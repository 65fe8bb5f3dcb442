/-
The reader of the C shell client (`oheco_broker.c`): `recv_bytes`, `receive_frame`, `clear_frame`,
`read_event_until` and `ob_read_event`.

* `Socket`, `recvBytes`, `recvLoop_spec`: the bytes to arrive, and what a read takes;
* `Process`, `validFrame`, `receiveFrame`: the handle, and one frame;
* `readEventUntil`, `obReadEvent`, `Session.step`: one call of the application, and sessions;
* `receiveFrame_spec`: **whatever was received of a frame before, a call goes on from there**.
-/
import OhecoBroker.Lib.Run
import OhecoBroker.Shell.Frame
import OhecoBroker.Shell.Options

namespace OhecoBroker.Shell.Client

open Lib List

/-! ### The socket -/

/-- Error numbers of the system. -/
inductive Errno where
  | none
  | etimedout
  | enomem
  | econnreset
  | other (n : ℕ)
  deriving DecidableEq

/-- What `recv` returned and, after `EAGAIN`, `ready`. -/
inductive Recv where
  /-- `recv` returned data, at most `n` bytes. -/
  | got (n : ℕ)
  /-- `EINTR` before the deadline, or `EAGAIN` and then readable. -/
  | again
  /-- The peer closed the connection. -/
  | closed
  /-- `recv` or `poll` failed. -/
  | error (n : ℕ)

/-- The bytes still to arrive, and the turns until the deadline. -/
structure Socket where
  stream : List UInt8
  results : List Recv

/-- `recv_bytes`. -/
def recvLoop (n : ℕ) : List Recv → List UInt8 → List UInt8 → Errno × List UInt8 × Socket
  | [], b, stream =>
    if n ≤ b.length then (.none, b, ⟨stream, []⟩) else (.etimedout, b, ⟨stream, []⟩)
  | r :: rs, b, stream =>
    if n ≤ b.length then (.none, b, ⟨stream, r :: rs⟩)
    else
      match r with
      | .got k =>
        recvLoop n rs (b ++ stream.take (min k (n - b.length)))
          (stream.drop (min k (n - b.length)))
      | .again => recvLoop n rs b stream
      | .closed => (.econnreset, b, ⟨stream, rs⟩)
      | .error e => (.other e, b, ⟨stream, rs⟩)

def recvBytes (n : ℕ) (b : List UInt8) (s : Socket) : Errno × List UInt8 × Socket :=
  recvLoop n s.results b s.stream

/-! ### The process handle -/

structure ObExit where
  reason : ℕ
  exitCode : ℤ
  signal : ℕ
  deriving DecidableEq

/-- `ob_diagnostic`. -/
structure Diagnostic where
  code : ObError
  native : Errno
  stage : String
  message : List UInt8
  deriving DecidableEq

def ascii (s : String) : List UInt8 := s.toList.map fun c => UInt8.ofNat c.toNat

def diag (code : ObError) (stage : String) (native : Errno) (message : String) : Diagnostic :=
  ⟨code, native, stage, ascii message⟩

/-- `ob_process`; the buffers have the bytes received so far. -/
structure Process where
  failure : ObError
  exited : Bool
  header : List UInt8
  payload : Option (List UInt8)
  payloadSize : ℕ
  result : ObExit

def Process.new : Process := ⟨.ok, false, [], none, 0, ⟨0, 0, 0⟩⟩

/-- `poison`: the first failure stays. -/
def poison (p : Process) (e : ObError) : Process :=
  { p with failure := if p.failure = .ok then e else p.failure }

def clearFrame (p : Process) : Process := { p with header := [], payload := none, payloadSize := 0 }

def get32 (b : List UInt8) : ℕ := beNat (b.take 4)

def ObError.ofCode : ℕ → ObError
  | 1 => .unavailable
  | 2 => .protocol
  | 3 => .spawnFailed
  | 4 => .connectionLost
  | 5 => .invalidArgument
  | 6 => .timeout
  | 7 => .io
  | 8 => .limit
  | _ => .ok

def maxStream : ℕ := 65536

/-! ### `receive_frame` -/

/-- `starting` is 1 for `STARTED`, 2 for the detached acknowledgement, 0 for events. -/
def validFrame (starting : ℕ) (t : UInt8) (n : ℕ) : Bool :=
  n ≤ maxFrame &&
    ((t == 9 && 8 ≤ n) || (starting == 1 && t == 2 && n == 0) ||
      (starting == 2 && t == 11 && n == 4) ||
      (starting == 0 && ((t == 8 && n == 12) || ((t == 5 || t == 6) && 1 ≤ n && n ≤ maxStream))))

def readFailed (p : Process) (rc : Errno) : Option Diagnostic × Process :=
  if rc = .etimedout then
    (some (diag .timeout "read" rc "Read deadline expired; command not cancelled"), p)
  else
    let q := poison p (if p.failure = .ok then .connectionLost else p.failure)
    (some (diag q.failure "read" rc "Connection lost; command outcome may be unknown"), q)

/-- An `ERROR` frame ends the connection with its code. -/
def finishFrame (p : Process) : Option Diagnostic × Process :=
  let payload := p.payload.getD []
  if p.header.headD 0 = 9 then
    let code := get32 payload
    let n := get32 (payload.drop 4)
    if code < 1 ∨ 8 < code ∨ n ≠ p.payloadSize - 8 ∨ utf8 ((payload.drop 8).take n) = false then
      let q := poison p .protocol
      (some (diag q.failure "error" .none "Invalid ERROR payload"), q)
    else
      let q := poison p (.ofCode code)
      (some ⟨q.failure, .none, "server", (payload.drop 8).take (min n 255)⟩, q)
  else (none, p)

def receivePayload (p : Process) (s : Socket) : Option Diagnostic × Process × Socket :=
  match recvBytes p.payloadSize (p.payload.getD []) s with
  | (rc, b, s) =>
    if rc = .none then
      ((finishFrame { p with payload := some b }).1,
        (finishFrame { p with payload := some b }).2, s)
    else
      ((readFailed { p with payload := some b } rc).1,
        (readFailed { p with payload := some b } rc).2, s)

def checkHeader (starting : ℕ) (malloc : Bool) (p : Process) : Option Diagnostic × Process :=
  let p := { p with payloadSize := get32 (p.header.drop 1) }
  if validFrame starting (p.header.headD 0) p.payloadSize = false then
    let q := poison p .protocol
    (some (diag q.failure "frame" .none "Invalid frame type, order or size"), q)
  else if malloc = false then
    let q := poison p .io
    (some (diag q.failure "frame" .enomem "Allocation failed"), q)
  else (none, { p with payload := some [] })

/-- No diagnostic stands for `OB_OK`. -/
def receiveFrame (starting : ℕ) (malloc : Bool) (p : Process) (s : Socket) :
    Option Diagnostic × Process × Socket :=
  match recvBytes 5 p.header s with
  | (rc, header, s) =>
    if rc ≠ .none then
      ((readFailed { p with header := header } rc).1,
        (readFailed { p with header := header } rc).2, s)
    else if p.payload.isSome then receivePayload { p with header := header } s
    else
      match checkHeader starting malloc { p with header := header } with
      | (some d, p) => (some d, p, s)
      | (none, p) => receivePayload p s

/-! ### `ob_read_event` -/

/-- `ob_event`. -/
structure Event where
  type : ℕ
  data : List UInt8
  size : ℕ
  result : ObExit
  deriving DecidableEq

def Event.zero : Event := ⟨0, [], 0, ⟨0, 0, 0⟩⟩

/-- The diagnostic, and what was written to `*event`. -/
structure Reply where
  diag : Diagnostic
  event : Option Event
  deriving DecidableEq

def okRead : Diagnostic := Client.diag .ok "read" .none ""

/-- The numbers of an `EXIT` payload the reader takes. -/
def validExit (reason code signal : ℕ) : Bool :=
  let normal := code ≤ 255 && signal == 0
  let signalled := code == 2 ^ 32 - 1 && 0 < signal
  (reason == 0 && normal) || (reason == 1 && signalled) || (reason == 2 && (normal || signalled))

/-- The event of a whole frame. -/
def eventOf (p : Process) : Reply × Process :=
  let payload := p.payload.getD []
  if p.header.headD 0 = 8 then
    let reason := get32 payload
    let code := get32 (payload.drop 4)
    let signal := get32 (payload.drop 8)
    if validExit reason code signal = false then
      let q := poison p .protocol
      (⟨diag q.failure "exit" .none "Invalid EXIT payload", some { Event.zero with type := 8 }⟩, q)
    else
      let result : ObExit := ⟨reason, if code = 2 ^ 32 - 1 then -1 else code, signal⟩
      (⟨okRead, some { Event.zero with type := 8, result := result }⟩,
        { p with result := result, exited := true })
  else
    (⟨okRead, some { Event.zero with
      type := (p.header.headD 0).toNat, data := payload, size := p.payloadSize }⟩, p)

/-- The call before returned the frame. -/
def Process.whole (p : Process) : Bool :=
  p.header.length == 5 && p.payload.isSome && (p.payload.getD []).length == p.payloadSize

def readEventUntil (malloc : Bool) (p : Process) (s : Socket) : Reply × Process × Socket :=
  if p.exited then (⟨okRead, some { Event.zero with type := 8, result := p.result }⟩, p, s)
  else if p.failure ≠ .ok then
    (⟨diag p.failure "read" .none "Connection is terminal", some .zero⟩, p, s)
  else
    match receiveFrame 0 malloc (if p.whole then clearFrame p else p) s with
    | (some d, p, s) => (⟨d, some .zero⟩, p, s)
    | (none, p, s) => ((eventOf p).1, (eventOf p).2, s)

/-- The timeout, the turns, and whether an allocation succeeds. -/
structure Call where
  timeout : ℤ
  results : List Recv
  malloc : Bool

/-- The handle, the bytes to arrive, the replies. -/
structure Session where
  process : Process
  stream : List UInt8
  replies : List Reply

def obReadEvent (c : Call) (p : Process) (stream : List UInt8) : Reply × Process × Socket :=
  if c.timeout < -1 then
    (⟨diag .invalidArgument "read" .none "Invalid reader argument", none⟩, p, ⟨stream, []⟩)
  else readEventUntil c.malloc p ⟨stream, c.results⟩

def Session.step (s : Session) (c : Call) : Session :=
  match obReadEvent c s.process s.stream with
  | (r, p, socket) => ⟨p, socket.stream, s.replies ++ [r]⟩

/-- The end of `start_exchange`. -/
def awaitStarted (malloc : Bool) (s : Socket) : Option Diagnostic × Process × Socket :=
  match receiveFrame 1 malloc .new s with
  | (some d, p, s) => (some d, p, s)
  | (none, p, s) => (none, clearFrame p, s)

/-! ### What a read takes from the stream -/

/-- Data in any pieces, or none for now. -/
def Recv.Delivers : Recv → Prop
  | .got _ => True
  | .again => True
  | .closed => False
  | .error _ => False

def Recv.isData : Recv → Bool
  | .got k => 1 ≤ k
  | _ => false

/-- The turns suffice for all the bytes to come. -/
def Socket.Ample (s : Socket) : Prop := s.stream.length ≤ s.results.countP Recv.isData

lemma recvLoop_spec {n : ℕ} {rs : List Recv} (hrs : ∀ r ∈ rs, r.Delivers) {b : List UInt8}
    (stream : List UInt8) (hb : b.length ≤ n) :
    ∃ x s', stream = x ++ s'.stream ∧
      ((recvLoop n rs b stream = (.none, b ++ x, s') ∧ (b ++ x).length = n) ∨
        (recvLoop n rs b stream = (.etimedout, b ++ x, s') ∧ (b ++ x).length < n ∧
          s'.results = [])) ∧
      (∀ r ∈ s'.results, r.Delivers) ∧ ((Socket.mk stream rs).Ample → s'.Ample) := by
  induction rs generalizing b stream with
  | nil =>
    refine ⟨[], ⟨stream, []⟩, rfl, ?_, by simp, id⟩
    rw [recvLoop, append_nil]
    split
    · exact .inl ⟨rfl, by omega⟩
    · exact .inr ⟨rfl, by omega, rfl⟩
  | cons r rs ih =>
    obtain ⟨hr, hrs'⟩ := forall_mem_cons.mp hrs
    rw [recvLoop.eq_def]
    dsimp only
    split
    · refine ⟨[], ⟨stream, r :: rs⟩, rfl, .inl ⟨by rw [append_nil], ?_⟩, hrs, id⟩
      rw [append_nil]
      omega
    cases r with
    | got k =>
      obtain ⟨x, s', hx, hres, hs', hample⟩ := ih hrs'
        (b := b ++ stream.take (min k (n - b.length))) (stream.drop (min k (n - b.length)))
        (by rw [length_append, length_take]; omega)
      refine ⟨stream.take (min k (n - b.length)) ++ x, s', ?_, ?_, hs', fun h => hample ?_⟩
      · rw [append_assoc, ← hx, take_append_drop]
      · simpa only [append_assoc] using hres
      · simp only [Socket.Ample, countP_cons, Recv.isData, length_drop,
          decide_eq_true_eq] at h ⊢
        split at h <;> omega
    | again => exact ih hrs' stream hb
    | closed => exact hr.elim
    | error e => exact hr.elim

/-! ### A frame in parts -/

def Process.received (p : Process) : List UInt8 := p.header ++ p.payload.getD []

/-- Part of the header, or the header and part of the payload. -/
inductive Process.InPart (p : Process) : Prop where
  | header (h : p.payload = none) (hlen : p.header.length < 5)
  | payload (b : List UInt8) (h : p.payload = some b) (hlen : p.header.length = 5)
      (hsize : p.payloadSize = get32 (p.header.drop 1)) (hb : b.length < p.payloadSize)

def headerOf (kind : UInt8) (data : List UInt8) : List UInt8 := kind :: beBytes 4 data.length

lemma frame_eq (kind : UInt8) (data : List UInt8) :
    frame kind data = headerOf kind data ++ data := rfl

@[simp] lemma length_headerOf (kind : UInt8) (data : List UInt8) :
    (headerOf kind data).length = 5 := by
  simp [headerOf]

lemma get32_headerOf {kind : UInt8} {data : List UInt8} (h : data.length ≤ maxFrame) :
    get32 ((headerOf kind data).drop 1) = data.length := by
  have hlt : data.length < 256 ^ 4 := lt_of_le_of_lt h (by norm_num [maxFrame])
  rw [headerOf, drop_one, tail_cons, get32, take_of_length_le (by simp),
    beNat_beBytes_of_lt hlt]

def Process.holding (p : Process) (kind : UInt8) (data : List UInt8) : Process :=
  { p with header := headerOf kind data, payload := some data, payloadSize := data.length }

/-- The handle with other buffers. -/
structure SameBut (p q : Process) : Prop where
  failure : q.failure = p.failure
  exited : q.exited = p.exited
  result : q.result = p.result

variable {p : Process} {starting : ℕ}

lemma receivePayload_spec {s : Socket} {kind : UInt8} {b data more : List UInt8}
    (hs : ∀ r ∈ s.results, r.Delivers) (hlen : data.length ≤ maxFrame)
    (hheader : p.header = headerOf kind data) (hsize : p.payloadSize = data.length)
    (hb : p.payload = some b) (hstream : b ++ s.stream = data ++ more)
    (hble : b.length ≤ data.length) :
    (∃ s', s'.stream = more ∧
      receivePayload p s = ((finishFrame (p.holding kind data)).1,
        (finishFrame (p.holding kind data)).2, s')) ∨
    (∃ q s', receivePayload p s = ((readFailed q .etimedout).1, (readFailed q .etimedout).2, s') ∧
      SameBut p q ∧ q.InPart ∧ q.received ++ s'.stream = frame kind data ++ more ∧ ¬s.Ample) := by
  obtain ⟨x, s', hx, hres, -, hample⟩ := recvLoop_spec hs _ (hsize ▸ hble)
  have hcut : b ++ x ++ s'.stream = data ++ more := by
    rw [append_assoc, ← hx, hstream]
  rw [receivePayload, recvBytes, hb, Option.getD_some]
  rcases hres with ⟨hrec, hfull⟩ | ⟨hrec, hpart, hend⟩
  · rw [hsize] at hfull
    obtain ⟨hdata, hmore⟩ := append_inj hcut hfull
    refine .inl ⟨s', hmore, ?_⟩
    have hp : { p with payload := some (b ++ x) } = p.holding kind data := by
      rw [Process.holding, ← hheader, ← hsize, hdata]
    rw [hrec]
    simp only [if_true, hp]
  refine .inr ⟨{ p with payload := some (b ++ x) }, s', ?_, ⟨rfl, rfl, rfl⟩, ?_, ?_, fun h => ?_⟩
  · rw [hrec]
    simp
  · refine .payload (b ++ x) rfl ?_ ?_ hpart
    · simp [hheader]
    · simp only [hheader, hsize, get32_headerOf hlen]
  · simp only [Process.received, Option.getD_some, hheader, frame_eq]
    rw [append_assoc, hcut, append_assoc]
  · have hall := hample h
    rw [Socket.Ample, hend, countP_nil] at hall
    have hlens := congrArg List.length hcut
    simp only [length_append] at hlens hpart
    omega

lemma SameBut.holding {q : Process} (h : SameBut p q) (kind : UInt8) (data : List UInt8) :
    q.holding kind data = p.holding kind data := by
  simp only [Process.holding, h.failure, h.exited, h.result]

lemma SameBut.trans {q r : Process} (h : SameBut p q) (h' : SameBut q r) : SameBut p r :=
  ⟨h'.failure.trans h.failure, h'.exited.trans h.exited, h'.result.trans h.result⟩

lemma le_maxFrame_of_validFrame {n : ℕ} {kind : UInt8}
    (h : validFrame starting kind n = true) : n ≤ maxFrame := by
  rw [validFrame, Bool.and_eq_true, decide_eq_true_eq] at h
  exact h.1

/-- A call ends with the frame, at the deadline with more of it, or without memory. -/
inductive Received (malloc ample : Prop) (p : Process) (kind : UInt8) (data more : List UInt8) :
    Option Diagnostic × Process × Socket → Prop where
  | frame (s' : Socket) (hs : s'.stream = more) :
      Received malloc ample p kind data more ((finishFrame (p.holding kind data)).1,
        (finishFrame (p.holding kind data)).2, s')
  | deadline (q : Process) (s' : Socket) (hq : SameBut p q) (hpart : q.InPart)
      (hs : q.received ++ s'.stream = Shell.frame kind data ++ more) (hlate : ¬ample) :
      Received malloc ample p kind data more
        ((readFailed q .etimedout).1, (readFailed q .etimedout).2, s')
  | noMemory (hm : ¬malloc) (q : Process) (s' : Socket) (hq : SameBut p q) :
      Received malloc ample p kind data more
        (some (diag (poison q .io).failure "frame" .enomem "Allocation failed"), poison q .io, s')

lemma checkHeader_spec {malloc : Bool} {kind : UInt8}
    {data : List UInt8} (hvalid : validFrame starting kind data.length = true)
    (hheader : p.header = headerOf kind data) :
    checkHeader starting malloc p =
      if malloc = false then
        (some (diag (poison { p with payloadSize := data.length } .io).failure "frame" .enomem
          "Allocation failed"), poison { p with payloadSize := data.length } .io)
      else (none, { p with payloadSize := data.length, payload := some [] }) := by
  have hsize : get32 (p.header.drop 1) = data.length := by
    rw [hheader, get32_headerOf (le_maxFrame_of_validFrame hvalid)]
  have hkind : p.header.headD 0 = kind := by rw [hheader, headerOf, headD_cons]
  simp only [checkHeader, hsize, hkind, hvalid, Bool.true_eq_false, if_false]

theorem receiveFrame_spec (starting : ℕ) (malloc : Bool) {s : Socket} {kind : UInt8}
    {data more : List UInt8} (hs : ∀ r ∈ s.results, r.Delivers)
    (hvalid : validFrame starting kind data.length = true) (hp : p.InPart)
    (hstream : p.received ++ s.stream = frame kind data ++ more) :
    Received malloc s.Ample p kind data more (receiveFrame starting malloc p s) := by
  have hlen := le_maxFrame_of_validFrame hvalid
  rw [frame_eq, append_assoc, Process.received] at hstream
  -- the payload of a frame whose header and allocation are there
  have hpay : ∀ (q : Process) (s' : Socket) (b : List UInt8), SameBut p q →
      (∀ r ∈ s'.results, r.Delivers) → q.header = headerOf kind data →
      q.payloadSize = data.length → q.payload = some b → b ++ s'.stream = data ++ more →
      b.length ≤ data.length → (s.Ample → s'.Ample) →
      Received malloc s.Ample p kind data more (receivePayload q s') := by
    intro q s' b hq hs' hheader hsize hb hcut hble hample
    rcases receivePayload_spec hs' hlen hheader hsize hb hcut hble with
      ⟨s'', hmore, heq⟩ | ⟨q', s'', heq, hq', hpart, hcut', hlate⟩
    · rw [heq, hq.holding]
      exact .frame s'' hmore
    · rw [heq]
      exact .deadline q' s'' (hq.trans hq') hpart hcut' fun h => hlate (hample h)
  cases hp with
  | header hnone hshort =>
    rw [hnone, Option.getD_none, append_nil] at hstream
    obtain ⟨x, s', hx, hres, hs', hample⟩ := recvLoop_spec hs _ hshort.le
    have hcut : p.header ++ x ++ s'.stream = headerOf kind data ++ (data ++ more) := by
      rw [append_assoc, ← hx, hstream]
    rw [receiveFrame, recvBytes]
    rcases hres with ⟨hrec, hfull⟩ | ⟨hrec, hpart, hend⟩
    · obtain ⟨hheader, hrest⟩ := append_inj hcut (by rw [hfull, length_headerOf])
      rw [hrec, hheader]
      simp only [ne_eq, not_true, if_false, hnone, Option.isSome_none, Bool.false_eq_true]
      rw [checkHeader_spec hvalid rfl]
      cases malloc with
      | false => exact .noMemory (by simp) _ s' ⟨rfl, rfl, rfl⟩
      | true => exact hpay _ s' [] ⟨rfl, rfl, rfl⟩ hs' rfl rfl rfl hrest (Nat.zero_le _) hample
    rw [hrec]
    refine .deadline { p with header := p.header ++ x } s' ⟨rfl, rfl, rfl⟩ (.header hnone hpart)
      ?_ fun h => ?_
    · simp only [Process.received, hnone, Option.getD_none, append_nil]
      rw [hcut, frame_eq, append_assoc]
    have hall := hample h
    rw [Socket.Ample, hend, countP_nil] at hall
    have hlens := congrArg List.length hcut
    simp only [length_append, length_headerOf] at hlens hpart
    omega
  | payload b hb hfive hsize hshort =>
    rw [hb, Option.getD_some, append_assoc] at hstream
    obtain ⟨hheader, hcut⟩ := append_inj hstream (by rw [hfive, length_headerOf])
    rw [hheader, get32_headerOf hlen] at hsize
    obtain ⟨x, s', hx, hres, hs', hample⟩ := recvLoop_spec hs _ hfive.le
    rw [receiveFrame, recvBytes]
    rcases hres with ⟨hrec, hfull⟩ | ⟨hrec, hpart, -⟩
    · obtain rfl : x = [] := by
        rw [length_append] at hfull
        exact length_eq_zero_iff.mp (by omega)
      rw [append_nil] at hrec
      rw [nil_append] at hx
      rw [hrec]
      simp only [ne_eq, not_true, if_false, hb, Option.isSome_some, if_true]
      exact hpay _ s' b ⟨rfl, rfl, rfl⟩ hs' hheader hsize rfl (hx ▸ hcut) (by omega) hample
    · rw [length_append] at hpart
      omega

end OhecoBroker.Shell.Client
