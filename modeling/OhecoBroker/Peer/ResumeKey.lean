/-
The retained recovery key of a managed connection: how each end derives it, proves it and keeps or
replaces it.  An attempt is named by its control generation; both ends of it share its session id
and the secret its PAKE gives.

* `Setting`, `Setting.HmacInjective`: what an attempt is made of;
* `End`, `obResumeKeyDerive`, `iceOffer`, `iceAccept`, `obPeerMarkReady`: one end;
* `Pair`, `Pair.act`, `Pair.after`: two ends and the signals between them, cut anywhere.
-/
import OhecoBroker.Lib.BigEndian
import OhecoBroker.Lib.Run

namespace OhecoBroker.ResumeKey

open Lib

/-! ### What an attempt is made of -/

def ascii (s : String) : List UInt8 := s.toList.map fun c => UInt8.ofNat c.toNat

/-- `ob_valid_id`: a lower-case UUID. -/
def obValidId (s : String) : Bool :=
  s.length = 36 && s.toList.zipIdx.all fun (c, i) =>
    if i = 8 || i = 13 || i = 18 || i = 23 then c = '-'
    else ('0' ≤ c && c ≤ '9') || ('a' ≤ c && c ≤ 'f')

/-- The library functions, the names of a connection, and for each attempt the session and the
secret of a fresh PAKE. -/
structure Setting where
  hkdf : (secret salt info : List UInt8) → List UInt8
  hkdfLength : ∀ secret salt info, (hkdf secret salt info).length = 32
  hmac : (key message : List UInt8) → List UInt8
  sha256 : List UInt8 → List UInt8
  brokerId : List UInt8
  connectionId : String
  controlManaged : Bool
  managed : controlManaged = true ∧ obValidId connectionId = true
  sessionId : ℕ → List UInt8
  shared : ℕ → List UInt8

/-- On one message, different keys of 32 bytes give different codes. -/
def Setting.HmacInjective (S : Setting) : Prop :=
  ∀ k k' m, k.length = 32 → k'.length = 32 → S.hmac k m = S.hmac k' m → k = k'

/-! ### One end -/

/-- The two ends of a connection; the server end is the broker. -/
inductive Role where
  | client | server
  deriving DecidableEq

def Role.other : Role → Role
  | .client => .server
  | .server => .client

@[simp] lemma Role.other_other (r : Role) : r.other.other = r := by cases r <;> rfl

@[simp] lemma Role.other_ne (r : Role) : r.other ≠ r := by cases r <;> simp [Role.other]

/-- Nothing done, PAKE finished, `ice` sent, `ice` received. -/
inductive Stage where
  | begun | derived | offered | agreed
  deriving DecidableEq

/-- What the recovery key depends on; `marked` records the last attempt in which
`ob_peer_mark_ready` passed its guard. -/
structure End where
  attempt : ℕ := 0
  stage : Stage := .begun
  stop : Bool := false
  attemptStop : Bool := false
  ready : Bool := false
  everReady : Bool := false
  wireVersion : ℕ := 1
  resumeContextAvailable : Bool := false
  resumeKeySet : Bool := false
  resumeKey : List UInt8 := List.replicate 32 0
  freshResumeKey : List UInt8 := List.replicate 32 0
  marked : ℕ := 0
  deriving DecidableEq

def End.Alive (p : End) : Prop := p.stop = false ∧ p.attemptStop = false

instance (p : End) : Decidable p.Alive := inferInstanceAs (Decidable (_ ∧ _))

def Setting.fresh (S : Setting) (n : ℕ) : List UInt8 :=
  S.hkdf (S.shared n) (ascii S.connectionId) (ascii "ob-peer-v2 logical recovery context")

/-- `ob_resume_key_derive`: the first key is kept at once. -/
def obResumeKeyDerive (S : Setting) (p : End) : End :=
  if S.controlManaged = false ∨ obValidId S.connectionId = false then p
  else
    let p := { p with freshResumeKey := S.fresh p.attempt }
    if p.resumeKeySet = false then { p with resumeKey := p.freshResumeKey, resumeKeySet := true }
    else p

def obResumeProof (S : Setting) (p : End) (sender : Role) : Option (List UInt8) :=
  if p.resumeKeySet = false then none
  else some (S.hmac p.resumeKey
    (ascii "ob-peer-v2 authenticated reattachment" ++ [0] ++
      [if sender = .server then 1 else 0] ++ S.brokerId ++ [0] ++ ascii S.connectionId ++ [0] ++
      S.sessionId p.attempt ++ [0] ++ beBytes 8 p.attempt ++ S.sha256 (S.shared p.attempt)))

/-- The `ice` signal. -/
structure Ice where
  attempt : ℕ
  sender : Role
  mappingVersion : ℕ
  resumeProof : Option (List UInt8)
  deriving DecidableEq

def iceOffer (S : Setting) (r : Role) (p : End) : Ice where
  attempt := p.attempt
  sender := r
  mappingVersion := 2
  resumeProof := obResumeProof S p r

/-- The proof is the one the other end makes with our key. -/
def proofMatches (S : Setting) (r : Role) (p : End) (m : Ice) : Prop :=
  m.mappingVersion = 2 ∧ p.resumeKeySet = true ∧ obResumeProof S p r.other = m.resumeProof

instance (S : Setting) (r : Role) (p : End) (m : Ice) : Decidable (proofMatches S r p m) :=
  inferInstanceAs (Decidable (_ ∧ _))

/-- `establish_ice`: the context counts only for an end that was ready before. -/
def iceAccept (S : Setting) (r : Role) (p : End) (m : Ice) : End :=
  { p with
    wireVersion := if m.mappingVersion = 2 then 2 else 1
    resumeContextAvailable := if proofMatches S r p m then p.everReady else false }

def obPeerTransportFail (p : End) : End :=
  if p.stop then p else { p with ready := false, attemptStop := true }

def obPeerFail (p : End) : End := { p with stop := true, attemptStop := true }

/-- `ob_peer_mark_ready`; `cut` says that `ob_mapping_transport_ready` ends the attempt. -/
def obPeerMarkReady (p : End) (cut : Bool) : End :=
  if p.ready = true ∨ p.stop = true ∨ p.attemptStop = true then p
  else
    let p := { p with ready := true, marked := p.attempt }
    if cut then obPeerTransportFail p
    else
      let key := if p.resumeContextAvailable = false ∧ p.resumeKeySet = true
        then p.freshResumeKey else p.resumeKey
      { p with resumeKey := key, everReady := true }

/-! ### Two ends -/

/-- Signals, channel proofs and answers sent, by attempt. -/
structure Net where
  ices : List Ice := []
  proofs : List ℕ := []
  replies : List ℕ := []

structure Pair where
  ends : Role → End
  net : Net := {}

def Pair.initial : Pair where
  ends := fun _ => {}

def Pair.set (s : Pair) (r : Role) (p : End) : Pair := { s with ends := Function.update s.ends r p }

def Pair.inbound (s : Pair) (r : Role) : Option Ice :=
  s.net.ices.find? fun m => m.attempt = (s.ends r).attempt ∧ m.sender = r.other

/-- What an end may do. -/
inductive Act where
  | attemptBegin (n : ℕ)
  | pake
  | offer
  | accept
  | prove
  | markReady (cut : Bool)
  | transportFail
  | fail
  deriving DecidableEq

/-- A new attempt has a higher generation. The client proves the channel, the broker answers; an
end is ready when the answer is on its way. -/
def Pair.act (S : Setting) (s : Pair) (r : Role) (a : Act) : Pair :=
  let p := s.ends r
  match a with
  | .attemptBegin n =>
    if p.stop = false ∧ (p.attempt = 0 ∨ p.attemptStop = true) ∧ p.attempt < n then
      s.set r { p with attempt := n, stage := .begun, attemptStop := false, ready := false }
    else s
  | .pake =>
    if p.Alive ∧ p.attempt ≠ 0 ∧ p.stage = .begun then
      s.set r { obResumeKeyDerive S p with stage := .derived }
    else s
  | .offer =>
    if p.Alive ∧ p.stage = .derived then
      { s.set r { p with stage := .offered } with
        net := { s.net with ices := s.net.ices ++ [iceOffer S r p] } }
    else s
  | .accept =>
    match s.inbound r with
    | none => s
    | some m =>
      if p.Alive ∧ p.stage = .offered then s.set r { iceAccept S r p m with stage := .agreed }
      else s
  | .prove =>
    if p.Alive ∧ p.stage = .agreed then
      match r with
      | .client => { s with net := { s.net with proofs := s.net.proofs ++ [p.attempt] } }
      | .server =>
        if p.attempt ∈ s.net.proofs then
          { s with net := { s.net with replies := s.net.replies ++ [p.attempt] } }
        else s
    else s
  | .markReady cut =>
    if p.stage = .agreed ∧ p.attempt ∈ s.net.replies then s.set r (obPeerMarkReady p cut) else s
  | .transportFail => s.set r (obPeerTransportFail p)
  | .fail => s.set r (obPeerFail p)

def Pair.step (S : Setting) (s : Pair) (a : Role × Act) : Pair := s.act S a.1 a.2

def Pair.after (S : Setting) (as : List (Role × Act)) : Pair := run (Pair.step S) Pair.initial as

end OhecoBroker.ResumeKey
