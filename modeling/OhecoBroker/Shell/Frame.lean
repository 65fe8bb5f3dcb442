/-
Frames of the shell protocol as the Go server writes them (`internal/protocol/protocol.go`,
`internal/server/server.go`).

* `write`, `frame`: writing a frame, in as many calls as it takes;
* `encodeError`, `encodeExit`: the payloads of the last frame;
* `Transcript`, `Transcript.messages`: the frames of a managed command;
* `Produced`, `Produced.eq`: the byte stream that `Write` makes of them.
-/
import OhecoBroker.Shell.Start

namespace OhecoBroker.Shell

open Lib

/-! ### Writing a frame -/

def maxFrame : ℕ := 1048576

/-- How many bytes a call takes, and whether it fails. -/
structure WriteResult where
  n : ℕ
  err : Bool

/-- The errors of `Write`. -/
inductive WriteError where
  | tooLarge
  | connection
  | shortWrite
  deriving DecidableEq

/-- What reached the connection, the results to come, the error. -/
structure Written where
  bytes : List UInt8
  results : List WriteResult
  err : Option WriteError

def Written.after (w : Written) (p : List UInt8) : Written := { w with bytes := p ++ w.bytes }

/-- `writeAll`; without a further result the connection fails. -/
def writeAll : List WriteResult → List UInt8 → Written
  | rs, [] => ⟨[], rs, none⟩
  | [], _ :: _ => ⟨[], [], some .connection⟩
  | r :: rs, b :: p =>
    if r.err then ⟨(b :: p).take r.n, rs, some .connection⟩
    else if min r.n (p.length + 1) = 0 then ⟨[], rs, some .shortWrite⟩
    else (writeAll rs ((b :: p).drop r.n)).after ((b :: p).take r.n)

def write (rs : List WriteResult) (kind : UInt8) (data : List UInt8) : Written :=
  if maxFrame < data.length then ⟨[], rs, some .tooLarge⟩
  else
    let h := writeAll rs (kind :: beBytes 4 (data.length % 2 ^ 32))
    if h.err.isSome then h
    else (writeAll h.results data).after h.bytes

def frame (kind : UInt8) (data : List UInt8) : List UInt8 := kind :: (beBytes 4 data.length ++ data)

lemma writeAll_eq {rs : List WriteResult} {p : List UInt8} (h : (writeAll rs p).err = none) :
    (writeAll rs p).bytes = p := by
  fun_induction writeAll rs p with
  | case1 => rfl
  | case2 => simp at h
  | case3 => simp at h
  | case4 => simp at h
  | case5 r rs b p _ _ ih =>
    rw [Written.after, ih h, List.take_append_drop]

lemma write_eq {rs : List WriteResult} {kind : UInt8} {data : List UInt8}
    (h : (write rs kind data).err = none) :
    (write rs kind data).bytes = frame kind data ∧ data.length ≤ maxFrame := by
  rw [write] at h ⊢
  split at h
  · simp at h
  rename_i hlen
  dsimp only at h ⊢
  split at h
  · rename_i herr
    rw [h] at herr
    simp at herr
  rename_i herr
  rw [if_neg hlen, if_neg herr]
  have hmod : beBytes 4 (data.length % 2 ^ 32) = beBytes 4 data.length := by
    rw [show (2 ^ 32 : ℕ) = 256 ^ 4 by norm_num, beBytes_mod]
  refine ⟨?_, by omega⟩
  rw [Written.after, writeAll_eq h, writeAll_eq (by simpa using herr), hmod, frame]
  rfl

/-! ### Payloads of the last frame -/

/-- The message of an error: UTF-8 without zero bytes, cut at 8192. -/
def errorText (err : List UInt8) : List UInt8 :=
  let msg := Utf8.replaceZeros (Utf8.repair false err)
  if 8192 < msg.length then Utf8.repair false (msg.take 8192) else msg

def encodeError (code : ℕ) (err : List UInt8) : List UInt8 :=
  appendString (appendU32 [] code) (errorText err)

/-- `EncodeExit`: `uint32(int32(code))`. -/
def encodeExit (reason : ℕ) (code : ℤ) (signal : ℕ) : List UInt8 :=
  appendU32 (appendU32 (appendU32 [] reason) (code % 2 ^ 32).toNat) signal

lemma errorText_isText (err : List UInt8) :
    IsText (errorText err) ∧ (errorText err).length ≤ 24576 := by
  rw [errorText]
  have hmsg := Utf8.replaceZeros_isText (Utf8.repair_isText false err)
  have hzero := Utf8.zero_notMem_replaceZeros (Utf8.repair false err)
  split
  · refine ⟨⟨Utf8.repair_isText _ _, Utf8.zero_notMem_repair ?_ _⟩, ?_⟩
    · exact fun h => hzero (List.mem_of_mem_take h)
    · have hle := Utf8.length_repair_le false
        ((Utf8.replaceZeros (Utf8.repair false err)).take 8192)
      rw [List.length_take] at hle
      omega
  · rename_i hlen
    exact ⟨⟨hmsg, hzero⟩, by omega⟩

/-! ### Transcripts -/

inductive Stream where
  | stdout
  | stderr
  deriving DecidableEq

def Stream.kind : Stream → UInt8
  | .stdout => 5
  | .stderr => 6

structure Chunk where
  stream : Stream
  data : List UInt8
  nonempty : 1 ≤ data.length
  short : data.length ≤ 65536

/-- How a process ended: `syscall.WaitStatus`. -/
inductive WaitStatus where
  | exited (code : Fin 256)
  | signaled (signal : ℕ) (pos : 0 < signal) (lt : signal < 127)

def WaitStatus.exitCode : WaitStatus → ℤ
  | .exited code => code
  | .signaled .. => -1

def WaitStatus.sig : WaitStatus → ℕ
  | .exited _ => 0
  | .signaled signal .. => signal

/-- The reason of an exit: 2 when cancelled, else 1 for a signal. -/
def WaitStatus.reason (cancelled : Bool) : WaitStatus → ℕ
  | .exited _ => if cancelled then 2 else 0
  | .signaled .. => if cancelled then 2 else 1

/-- The last frame of a command. -/
inductive Last where
  | exit (status : WaitStatus) (cancelled : Bool)
  | error (code : ℕ) (one_le : 1 ≤ code) (le_eight : code ≤ 8) (err : List UInt8)

def Last.message : Last → UInt8 × List UInt8
  | .exit status cancelled => (8, encodeExit (status.reason cancelled) status.exitCode status.sig)
  | .error code _ _ err => (9, encodeError code err)

/-- The chunks of output and how the command ended. -/
structure Transcript where
  chunks : List Chunk
  last : Last

/-- The frames of a command, `STARTED` first. -/
def Transcript.messages (t : Transcript) : List (UInt8 × List UInt8) :=
  (2, []) :: (t.chunks.map fun c => (c.stream.kind, c.data)) ++ [t.last.message]

/-- What `Write` produces, each call with its own results. -/
inductive Produced : List (UInt8 × List UInt8) → List UInt8 → Prop where
  | nil : Produced [] []
  | cons {kind data ms stream} (rs : List WriteResult) (h : (write rs kind data).err = none)
      (hs : Produced ms stream) :
      Produced ((kind, data) :: ms) ((write rs kind data).bytes ++ stream)

lemma Produced.eq {ms : List (UInt8 × List UInt8)} {stream : List UInt8} (h : Produced ms stream) :
    stream = ms.flatMap fun m => frame m.1 m.2 := by
  induction h with
  | nil => rfl
  | cons rs h hs ih => rw [(write_eq h).1, ih, List.flatMap_cons]

end OhecoBroker.Shell
