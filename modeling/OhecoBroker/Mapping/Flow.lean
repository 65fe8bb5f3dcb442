/-
The state of one mapped TCP flow (`struct ob_flow`) and the functions of `mapping_v2.inc` that
touch nothing else.

* `ControlKind`, `FrameKind`, `mHeader`, `v2HeaderBytes`: the wire formats;
* `Flow`, `mTxNext`, `mV2Ack`: the record, and the send window;
* `Snapshot`, `mResumeSnapshot`, `mResumeApply`: the 40 byte recovery snapshot.

Buffers with a length field are lists, so the length field is the length; a released buffer
(`m_release_io`) is the empty list.  The unsigned counters are natural numbers; the code refuses
the byte that would make one overflow.
-/
import OhecoBroker.Lib.BigEndian

namespace OhecoBroker.Mapping

open Lib List

/-! ### Constants of `mapping.c` -/

/-- `M_HEADER`, of an `OBM1` control message. -/
def controlHeader : ℕ := 16
/-- `M_V2_HEADER`, of an `OBM2` delivery frame. -/
def frameHeader : ℕ := 24
/-- `M_RESUME_SIZE`. -/
def resumeSize : ℕ := 40
/-- `M_IO_BUDGET`. -/
def ioBudget : ℕ := 16384
/-- `OB_STREAM_BUFFER`. -/
def streamBuffer : ℕ := 65536
/-- `OB_MAX_HOST`. -/
def maxHost : ℕ := 253
/-- `M_UDP_MAX`. -/
def udpMax : ℕ := 65507
def uint64Max : ℕ := 2 ^ 64 - 1

/-- `OB_REMOTE_TCP` and `OB_REMOTE_UDP`. -/
def protoTcp : ℕ := 1
@[inherit_doc protoTcp] def protoUdp : ℕ := 2

/-- `OB_REMOTE_ECLOSED` and `OB_REMOTE_EPROTOCOL`. -/
def eClosed : ℤ := -10
@[inherit_doc eClosed] def eProtocol : ℤ := -12

/-- `enum m_phase`. -/
inductive Phase where
  | control | resolving | connecting | reply | active | dead
  deriving DecidableEq

/-- `M_PROOF` to `M_RESUME_ACK`. -/
inductive ControlKind where
  | proof | «open» | ack | resume | resumeAck
  deriving DecidableEq

/-- `M_V2_DATA`, `M_V2_ACK`, `M_V2_FIN`. -/
inductive FrameKind where
  | data | ack | fin
  deriving DecidableEq

def ControlKind.code : ControlKind → ℕ
  | .proof => 1 | .open => 2 | .ack => 3 | .resume => 4 | .resumeAck => 5

def FrameKind.code : FrameKind → ℕ
  | .data => 1 | .ack => 2 | .fin => 3

def FrameKind.ofCode : ℕ → Option FrameKind
  | 1 => some .data | 2 => some .ack | 3 => some .fin | _ => none

@[simp] lemma FrameKind.ofCode_code (k : FrameKind) : ofCode k.code = some k := by
  cases k <;> rfl

/-! ### Wire headers -/

/-- The unsigned field of `w` bytes at offset `i`. -/
def field (bs : List UInt8) (i w : ℕ) : ℕ := beNat ((bs.drop i).take w)

lemma field_le_max (bs : List UInt8) (i : ℕ) : field bs i 8 ≤ uint64Max := by
  have hlen : ((bs.drop i).take 8).length ≤ 8 := by simp
  have hpow : 256 ^ ((bs.drop i).take 8).length ≤ 256 ^ 8 := Nat.pow_le_pow_right (by norm_num) hlen
  have hlt := beNat_lt ((bs.drop i).take 8)
  simp only [field, uint64Max]
  omega

/-- `OBM1` and `OBM2`. -/
def magic1 : List UInt8 := [0x4f, 0x42, 0x4d, 0x31]
@[inherit_doc magic1] def magic2 : List UInt8 := [0x4f, 0x42, 0x4d, 0x32]

/-- `m_header`: magic, kind, protocol, size of the body, flow id. -/
def mHeader (kind : ControlKind) (protocol size : ℕ) (id : UInt64) : List UInt8 :=
  magic1 ++ beBytes 1 kind.code ++ beBytes 1 protocol ++ beBytes 2 size ++
    beBytes 8 id.toNat

/-- The header `m_v2_frame` writes: magic, kind, flags, payload size, flow id, offset. -/
def v2HeaderBytes (kind : FrameKind) (flags length : ℕ) (id : UInt64) (offset : ℕ) :
    List UInt8 :=
  magic2 ++ beBytes 1 kind.code ++ beBytes 1 flags ++ beBytes 2 length ++
    beBytes 8 id.toNat ++ beBytes 8 offset

@[simp] lemma length_magic1 : magic1.length = 4 := by simp [magic1]

@[simp] lemma length_magic2 : magic2.length = 4 := by simp [magic2]

@[simp] lemma length_mHeader (kind : ControlKind) (protocol size : ℕ) (id : UInt64) :
    (mHeader kind protocol size id).length = controlHeader := by
  simp [mHeader, controlHeader]

@[simp] lemma length_v2HeaderBytes (kind : FrameKind) (flags length : ℕ) (id : UInt64)
    (offset : ℕ) : (v2HeaderBytes kind flags length id offset).length = frameHeader := by
  simp [v2HeaderBytes, frameHeader]

/-- A field of the first part. -/
lemma field_append_left {as bs : List UInt8} {i w : ℕ} (h : i + w ≤ as.length) :
    field (as ++ bs) i w = field as i w := by
  rw [field, field, drop_append_of_le_length (by omega), take_append_of_le_length]
  simp only [length_drop]
  omega

/-- A field of the second part. -/
lemma field_append_right {as bs : List UInt8} {i w : ℕ} (h : as.length ≤ i) :
    field (as ++ bs) i w = field bs (i - as.length) w := by
  rw [field, field, drop_append, drop_eq_nil_of_le h, nil_append]

lemma field_beBytes (w n : ℕ) : field (beBytes w n) 0 w = n % 256 ^ w := by
  rw [field, drop_zero, take_of_length_le (by simp), beNat_beBytes]

/-- The fields of a frame header. -/
lemma field_v2HeaderBytes (kind : FrameKind) (flags length : ℕ) (id : UInt64) (offset : ℕ) :
    field (v2HeaderBytes kind flags length id offset) 4 1 = kind.code ∧
    field (v2HeaderBytes kind flags length id offset) 5 1 = flags % 256 ∧
    field (v2HeaderBytes kind flags length id offset) 6 2 = length % 65536 ∧
    field (v2HeaderBytes kind flags length id offset) 16 8 = offset % 2 ^ 64 := by
  have hk : kind.code % 256 = kind.code := by cases kind <;> rfl
  refine ⟨?_, ?_, ?_, ?_⟩ <;>
    simp [v2HeaderBytes, field_append_left, field_append_right, field_beBytes, hk]

lemma field_mHeader (kind : ControlKind) (protocol size : ℕ) (id : UInt64) :
    field (mHeader kind protocol size id) 4 1 = kind.code ∧
    field (mHeader kind protocol size id) 6 2 = size % 65536 := by
  have hk : kind.code % 256 = kind.code := by cases kind <;> rfl
  refine ⟨?_, ?_⟩ <;>
    simp [mHeader, field_append_left, field_append_right, field_beBytes, hk]

/-! ### The flow record -/

/-- The target of an open map: `target_host` and `target_port`. -/
structure Target where
  host : List UInt8
  port : ℕ
  deriving DecidableEq

/-- `struct ob_flow` for a TCP flow: `map` is the target of its map, `none` once that is gone; the
defaults are those of `m_flow_new`. The last four fields are history no function reads: bytes read
and written at the socket, `shutdown`, and the furthest byte a stream accepted. -/
structure Flow where
  id : UInt64 := 0
  isLocal : Bool := false
  transient : Bool := false
  map : Option Target := none
  protocol : ℕ := 0
  fd : Bool := false
  stream : Bool := false
  phase : Phase := .control
  acked : Bool := false
  closeRequested : Bool := false
  closeSent : Bool := false
  rejectAfterReply : Bool := false
  suspended : Bool := false
  pendingOpen : Bool := false
  waitingResume : Bool := false
  resuming : Bool := false
  wireVersion : ℕ := 0
  created : ℕ := 0
  graceDeadlineUs : ℕ := 0
  control : List UInt8 := []
  controlNeed : ℕ := controlHeader
  reply : List UInt8 := []
  replyPos : ℕ := 0
  tx : List UInt8 := []
  txPos : ℕ := 0
  txBase : ℕ := 0
  txSentHigh : ℕ := 0
  txFinal : ℕ := 0
  socketEof : Bool := false
  streamEof : Bool := false
  sentFin : Bool := false
  txFinAcked : Bool := false
  rx : List UInt8 := []
  rxPos : ℕ := 0
  rxCommit : ℕ := 0
  rxNext : ℕ := 0
  rxFinal : ℕ := 0
  rxFin : Bool := false
  rxFinApplied : Bool := false
  socketShutdown : Bool := false
  ackDirty : Bool := false
  inFrame : List UInt8 := []
  inKind : FrameKind := .data
  inFlags : ℕ := 0
  inSize : ℕ := 0
  inPos : ℕ := 0
  inOffset : ℕ := 0
  outFrame : List UInt8 := []
  outKind : Option FrameKind := none
  outFlags : ℕ := 0
  outPos : ℕ := 0
  outOffset : ℕ := 0
  outEnd : ℕ := 0
  sockRead : List UInt8 := []
  sockWritten : List UInt8 := []
  sockShut : Bool := false
  sentMax : ℕ := 0
  deriving DecidableEq

/-- `m_tx_next`. -/
def mTxNext (f : Flow) : ℕ := f.txBase + f.tx.length

/-- `m_v2_ack`: release the window up to `offset`; `none` is the return value `-1`. -/
def mV2Ack (f : Flow) (offset flags : ℕ) : Option Flow :=
  if 1 < flags ∨ mTxNext f < offset ∨ f.txSentHigh < offset then none
  else if flags ≠ 0 ∧ (f.socketEof = false ∨ offset ≠ f.txFinal) then none
  else
    let finAcked := f.txFinAcked || flags != 0
    if f.txBase < offset then
      let consumed := offset - f.txBase
      if f.txPos < consumed then none
      else some { f with
        tx := f.tx.drop consumed, txPos := f.txPos - consumed, txBase := offset,
        txFinAcked := finAcked }
    else some { f with txFinAcked := finAcked }

/-! ### Recovery snapshots -/

/-- The words of a recovery snapshot. -/
structure Snapshot where
  status : ℕ
  flags : ℕ
  delivered : ℕ
  base : ℕ
  next : ℕ
  final : ℕ
  deriving DecidableEq

def Snapshot.eof (s : Snapshot) : Prop := s.flags % 2 = 1
def Snapshot.finApplied (s : Snapshot) : Prop := s.flags / 2 % 2 = 1

instance (s : Snapshot) : Decidable s.eof := inferInstanceAs (Decidable (_ = _))
instance (s : Snapshot) : Decidable s.finApplied := inferInstanceAs (Decidable (_ = _))

/-- The state a flow reports about itself with `result`. -/
def snapshot (f : Flow) (result : ℤ) : Snapshot where
  status := result.natAbs
  flags := (if f.socketEof then 1 else 0) + (if f.rxFinApplied then 2 else 0)
  delivered := f.rxCommit
  base := f.txBase
  next := mTxNext f
  final := f.txFinal

def Snapshot.bytes (s : Snapshot) : List UInt8 :=
  beBytes 4 s.status ++ beBytes 4 s.flags ++ beBytes 8 s.delivered ++ beBytes 8 s.base ++
    beBytes 8 s.next ++ beBytes 8 s.final

def Snapshot.read (body : List UInt8) : Snapshot where
  status := field body 0 4
  flags := field body 4 4
  delivered := field body 8 8
  base := field body 16 8
  next := field body 24 8
  final := field body 32 8

@[simp] lemma Snapshot.length_bytes (s : Snapshot) : s.bytes.length = resumeSize := by
  simp [Snapshot.bytes, resumeSize]

lemma Snapshot.read_bytes_mod (s : Snapshot) : Snapshot.read s.bytes =
    ⟨s.status % 2 ^ 32, s.flags % 2 ^ 32, s.delivered % 2 ^ 64, s.base % 2 ^ 64, s.next % 2 ^ 64,
      s.final % 2 ^ 64⟩ := by
  simp only [Snapshot.read, Snapshot.bytes, Snapshot.mk.injEq]
  refine ⟨?_, ?_, ?_, ?_, ?_, ?_⟩ <;>
    simp [field_append_left, field_append_right, field_beBytes]

lemma Snapshot.read_bytes (s : Snapshot) (hs : s.status < 2 ^ 32) (hf : s.flags < 2 ^ 32)
    (hd : s.delivered ≤ uint64Max) (hb : s.base ≤ uint64Max) (hn : s.next ≤ uint64Max)
    (hfin : s.final ≤ uint64Max) : Snapshot.read s.bytes = s := by
  simp only [uint64Max] at *
  rw [Snapshot.read_bytes_mod, Nat.mod_eq_of_lt hs, Nat.mod_eq_of_lt hf,
    Nat.mod_eq_of_lt (show s.delivered < 2 ^ 64 by omega),
    Nat.mod_eq_of_lt (show s.base < 2 ^ 64 by omega),
    Nat.mod_eq_of_lt (show s.next < 2 ^ 64 by omega),
    Nat.mod_eq_of_lt (show s.final < 2 ^ 64 by omega)]

def mResumeSnapshot (f : Flow) (result : ℤ) : List UInt8 := (snapshot f result).bytes

/-- What `m_resume_apply` refuses before it looks at the window. -/
def resumeInvalid (f : Flow) (s : Snapshot) : Prop :=
  s.status ≠ 0 ∨ 3 < s.flags ∨ s.next < s.base ∨ f.rxCommit < s.base ∨
    s.next < f.rxCommit ∨ s.delivered < f.txBase ∨ mTxNext f < s.delivered ∨
    (s.eof ∧ s.final ≠ s.next) ∨ (¬ s.eof ∧ s.final ≠ 0) ∨
    (s.finApplied ∧ (f.socketEof = false ∨ s.delivered ≠ f.txFinal)) ∨
    (f.rxFin = true ∧ (¬ s.eof ∨ s.final ≠ f.rxFinal))

instance (f : Flow) (s : Snapshot) : Decidable (resumeInvalid f s) :=
  inferInstanceAs (Decidable (_ ∨ _))

/-- `m_resume_apply`, and whether it returns `0`; a refusal by the window leaves `tx_pos` at its
end, as the code does. -/
def mResumeApply (f : Flow) (body : List UInt8) : Flow × Bool :=
  let s := Snapshot.read body
  if resumeInvalid f s then (f, false)
  else
    let f := { f with txPos := f.tx.length }
    match mV2Ack f s.delivered (if s.finApplied then 1 else 0) with
    | none => (f, false)
    | some f =>
      ({ f with
          txPos := 0, inFrame := [], inSize := 0, inPos := 0, outPos := 0, outKind := none,
          rxNext := f.rxCommit, rx := [], rxPos := 0,
          rxFin := f.rxFin || decide s.eof,
          rxFinal := if s.eof then s.final else f.rxFinal,
          sentFin := f.txFinAcked, ackDirty := true }, true)

end OhecoBroker.Mapping
