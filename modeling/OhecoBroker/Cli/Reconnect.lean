/-
How the serve command asks the native worker for new connection rounds (`monitorPeerTicks` of
`internal/cli/peer_reconnect.go`).

A signal asks for a round at once; ticks ask again, an interval later, as long as the worker
reports `paused`.  Requests are merged until a tick sees the worker leave that state.

* `Monitor`, `step`: the variables of the loop and one turn of it;
* `tick_cases`, `pace_paused`: what one event can do;
* `Spaced`, `Paced`, `Paced.step`: the calls since the worker last left `paused` are an interval
  apart, and every event keeps it so;
* `reconnects_paced`: **calls are an interval apart, a merged signal moves no deadline**, and a
  worker that stays `paused` is asked again in time.
-/
import OhecoBroker.Lib.Run

namespace OhecoBroker.Cli

open Lib List

/-! ### The code -/

inductive ConnectionState where
  | connecting
  | connected
  | reconnecting
  | retryWait
  | paused
  | failed
  | closed
  deriving DecidableEq

structure PeerError where
  code : ℤ
  httpStatus : ℤ
  message : String
  deriving DecidableEq

/-- `NextRetry` is only printed. -/
structure ConnectionInfo where
  state : ConnectionState
  attempts : ℕ
  generation : ℕ
  lastError : Option PeerError
  deriving DecidableEq

def connectionInfoChanged (previous current : ConnectionInfo) : Bool :=
  if previous.state ≠ current.state ∨ previous.attempts ≠ current.attempts ∨
      previous.generation ≠ current.generation then true
  else if previous.lastError.isNone ≠ current.lastError.isNone then true
  else previous.lastError.isSome && previous.lastError ≠ current.lastError

/-- `kind` is only printed. -/
structure Options where
  stateEvents : Bool
  pausedRetryInterval : ℕ

/-- What the monitor prints. -/
inductive Output where
  | connectionState (info : ConnectionInfo)
  | reconnectRequested (automatic : Bool)
  | lost
  | restored
  deriving DecidableEq

/-- What the calls made for one event return. -/
structure Results where
  info : Option ConnectionInfo
  status : Bool
  reconnect : Bool
  write : Output → Bool

/-- The states reported, and the calls of `Reconnect`. -/
inductive Observed where
  | reported (state : ConnectionState)
  | reconnect (time : ℕ) (automatic : Bool)
  deriving DecidableEq

/-- A time is counted from Go's zero time; `clock` is the time of the latest tick. -/
structure Monitor where
  last : ConnectionInfo
  roundRequested : Bool
  nextPausedRetry : ℕ
  outageReported : Bool
  returned : Bool
  clock : ℕ
  observed : List Observed
  output : List Output

def Monitor.start (info : ConnectionInfo) (clock : ℕ) : Monitor where
  last := info
  roundRequested := false
  nextPausedRetry := 0
  outageReported := false
  returned := false
  clock := clock
  observed := []
  output := []

/-- Goes on unless the function has returned. -/
def Monitor.andThen (m : Monitor) (k : Monitor → Monitor) : Monitor := if m.returned then m else k m

/-- The error of a failed write is returned. -/
def Monitor.print (m : Monitor) (r : Results) (out : Output) : Monitor :=
  { m with output := m.output ++ [out], returned := !r.write out }

def Monitor.reconnect (m : Monitor) (o : Options) (r : Results) (automatic : Bool) : Monitor :=
  let m := { m with observed := m.observed ++ [Observed.reconnect m.clock automatic] }
  if r.reconnect then { m with roundRequested := decide (0 < o.pausedRetryInterval) }
  else { m with returned := true }

/-- Requests are merged until the worker leaves `paused`. -/
def requestReconnect (o : Options) (r : Results) (automatic : Bool) (m : Monitor) : Monitor :=
  (if o.pausedRetryInterval = 0 ∨ m.roundRequested = false then m.reconnect o r automatic
    else m).andThen fun m =>
  if o.stateEvents then m.print r (.reconnectRequested automatic) else m

/-- `case <-requests`. -/
def signalled (o : Options) (r : Results) (m : Monitor) : Monitor :=
  (requestReconnect o r false m).andThen fun m' =>
    if m.roundRequested then m' else { m' with nextPausedRetry := 0 }

/-- An ended connection ends the monitor. -/
def checkState (r : Results) (info : ConnectionInfo) (m : Monitor) : Monitor :=
  match info.state with
  | .failed | .closed => { m with returned := true }
  | .connected => if r.status then m else { m with returned := true }
  | _ => m

/-- The automatic retries of a paused worker. -/
def pace (o : Options) (r : Results) (now : ℕ) (info : ConnectionInfo) (m : Monitor) : Monitor :=
  if 0 < o.pausedRetryInterval ∧ info.state = .paused then
    if m.nextPausedRetry = 0 then
      if m.last.state ≠ .paused ∨ m.outageReported = false then
        ({ m with nextPausedRetry := now + o.pausedRetryInterval }.print r .lost).andThen fun m =>
          { m with outageReported := true }
      else { m with nextPausedRetry := now + o.pausedRetryInterval }
    else if ¬now < m.nextPausedRetry then
      (requestReconnect o r true { m with roundRequested := false }).andThen fun m =>
        { m with nextPausedRetry := now + o.pausedRetryInterval }
    else m
  else if m.outageReported = true ∧ info.state = .connected then
    ({ m with nextPausedRetry := 0, roundRequested := false }.print r .restored).andThen fun m =>
      { m with outageReported := false }
  else { m with nextPausedRetry := 0, roundRequested := false }

/-- `case now := <-ticks`. -/
def tick (o : Options) (r : Results) (now : ℕ) (m : Monitor) : Monitor :=
  match r.info with
  | none => { m with clock := now, returned := true }
  | some info =>
    let m := { m with clock := now, observed := m.observed ++ [Observed.reported info.state] }
    ((((if o.stateEvents && connectionInfoChanged m.last info then m.print r (.connectionState info)
        else m).andThen (checkState r info)).andThen (pace o r now info))).andThen fun m =>
      { m with last := info }

inductive Event where
  | done
  | signal (r : Results)
  | tick (now : ℕ) (r : Results)

def step (o : Options) (m : Monitor) (e : Event) : Monitor :=
  m.andThen fun m =>
    match e with
    | .done => { m with returned := true }
    | .signal r => signalled o r m
    | .tick now r => tick o r now m

/-- The times of the ticks do not decrease. -/
def InOrder (m : Monitor) : Event → Prop
  | .tick now _ => m.clock ≤ now
  | _ => True

instance (m : Monitor) : ∀ e, Decidable (InOrder m e)
  | .tick now _ => inferInstanceAs (Decidable (m.clock ≤ now))
  | .done => isTrue trivial
  | .signal _ => isTrue trivial

/-! ### What one event does -/

section Events

variable {o : Options} {r : Results} {m : Monitor}

/-- A monitor that has returned goes on with nothing. -/
lemma andThen_returned {k : Monitor → Monitor} (h : m.returned = true) : m.andThen k = m := if_pos h

lemma andThen_running {k : Monitor → Monitor} (h : m.returned = false) : m.andThen k = k m := by
  rw [Monitor.andThen, h]
  rfl

def Monitor.core (m : Monitor) : Bool × ℕ × ℕ × List Observed :=
  (m.roundRequested, m.nextPausedRetry, m.clock, m.observed)

lemma core_eq {m' : Monitor} (h : m.core = m'.core) :
    m.roundRequested = m'.roundRequested ∧ m.nextPausedRetry = m'.nextPausedRetry ∧
      m.clock = m'.clock ∧ m.observed = m'.observed := by
  simpa [Monitor.core] using h

lemma requestReconnect_spec (hI : 0 < o.pausedRetryInterval) (hm : m.returned = false)
    (automatic : Bool) :
    (requestReconnect o r automatic m).observed =
        (if m.roundRequested then m.observed
          else m.observed ++ [.reconnect m.clock automatic]) ∧
      (requestReconnect o r automatic m).nextPausedRetry = m.nextPausedRetry ∧
      (requestReconnect o r automatic m).clock = m.clock ∧
      ((requestReconnect o r automatic m).returned = false →
        (requestReconnect o r automatic m).roundRequested = true) := by
  have h0 : o.pausedRetryInterval ≠ 0 := by omega
  unfold requestReconnect
  cases hround : m.roundRequested with
  | true =>
    rw [if_neg (by simp [h0]), andThen_running hm]
    cases o.stateEvents <;> simp [Monitor.print, hround]
  | false =>
    rw [if_pos (Or.inr rfl)]
    cases hr : r.reconnect with
    | true =>
      rw [andThen_running (by simp [Monitor.reconnect, hr, hm])]
      cases o.stateEvents <;> simp [Monitor.print, Monitor.reconnect, hr, hI]
    | false =>
      rw [andThen_returned (by simp [Monitor.reconnect, hr])]
      simp [Monitor.reconnect, hr]

variable {info : ConnectionInfo}

lemma tick_cases (now : ℕ) (hinfo : r.info = some info) : ∃ m₁ : Monitor,
      m₁.core = (m.roundRequested, m.nextPausedRetry, now, m.observed ++ [.reported info.state]) ∧
      ((m₁.returned = true ∧ tick o r now m = m₁) ∨
        (m₁.returned = false ∧ tick o r now m =
          (pace o r now info m₁).andThen fun m => { m with last := info })) := by
  have hcheck : ∀ m : Monitor, (checkState r info m).core = m.core := by
    intro m
    unfold checkState
    split
    · rfl
    · rfl
    · split <;> rfl
    · rfl
  simp only [tick, hinfo]
  generalize hp : (if (o.stateEvents && connectionInfoChanged m.last info) = true then _ else _) = p
  have hcore : p.core =
      (m.roundRequested, m.nextPausedRetry, now, m.observed ++ [.reported info.state]) := by
    rw [← hp]
    split <;> rfl
  cases hret : p.returned with
  | true =>
    refine ⟨p, hcore, .inl ⟨hret, ?_⟩⟩
    rw [andThen_returned hret, andThen_returned hret, andThen_returned hret]
  | false =>
    refine ⟨checkState r info p, (hcheck p).trans hcore, ?_⟩
    rw [andThen_running hret]
    cases hret' : (checkState r info p).returned with
    | true => exact .inl ⟨rfl, by rw [andThen_returned hret', andThen_returned hret']⟩
    | false => exact .inr ⟨rfl, by rw [andThen_running hret']⟩

lemma pace_paused (now : ℕ) (hI : 0 < o.pausedRetryInterval)
    (hstate : info.state = .paused) (hm : m.returned = false) :
    (m.nextPausedRetry = 0 ∧ (pace o r now info m).core =
        (m.roundRequested, now + o.pausedRetryInterval, m.clock, m.observed)) ∨
      (m.nextPausedRetry ≠ 0 ∧ m.nextPausedRetry ≤ now ∧
        (pace o r now info m).observed = m.observed ++ [.reconnect m.clock true] ∧
        ((pace o r now info m).returned = false → (pace o r now info m).core =
          (true, now + o.pausedRetryInterval, m.clock, m.observed ++ [.reconnect m.clock true]))) ∨
      (now < m.nextPausedRetry ∧ (pace o r now info m).core = m.core) := by
  unfold pace
  rw [if_pos ⟨hI, hstate⟩]
  by_cases hzero : m.nextPausedRetry = 0
  · refine .inl ⟨hzero, ?_⟩
    rw [if_pos hzero]
    split
    · unfold Monitor.andThen
      split <;> rfl
    · rfl
  rw [if_neg hzero]
  by_cases hnow : now < m.nextPausedRetry
  · exact .inr (.inr ⟨hnow, by rw [if_neg (not_not_intro hnow)]⟩)
  refine .inr (.inl ⟨hzero, not_lt.mp hnow, ?_⟩)
  rw [if_pos hnow]
  have hreq : ({ m with roundRequested := false } : Monitor).returned = false := hm
  obtain ⟨hobs, -, hclock, hround⟩ := requestReconnect_spec (r := r) hI hreq true
  generalize requestReconnect o r true { m with roundRequested := false } = q at *
  cases hret : q.returned with
  | true =>
    rw [andThen_returned hret]
    exact ⟨by simpa using hobs, fun h => absurd (hret.symm.trans h) (by simp)⟩
  | false =>
    rw [andThen_running hret]
    refine ⟨by simpa using hobs, fun _ => ?_⟩
    simpa [Monitor.core, hround hret, hclock] using hobs

lemma pace_other (now : ℕ) (hstate : info.state ≠ .paused) :
    (pace o r now info m).core = (false, 0, m.clock, m.observed) := by
  unfold pace
  rw [if_neg fun h => hstate h.2]
  split
  · unfold Monitor.andThen
    split <;> rfl
  · rfl

lemma signalled_merged (hI : 0 < o.pausedRetryInterval) (hm : m.returned = false)
    (hround : m.roundRequested = true) :
    (signalled o r m).nextPausedRetry = m.nextPausedRetry ∧
      (signalled o r m).observed = m.observed ∧ (signalled o r m).clock = m.clock ∧
      ((signalled o r m).returned = false → (signalled o r m).roundRequested = true) := by
  obtain ⟨hobs, hnext, hclock, hreq⟩ := requestReconnect_spec (r := r) hI hm false
  rw [if_pos hround] at hobs
  have heq : signalled o r m = requestReconnect o r false m := by
    unfold signalled Monitor.andThen
    rw [hround]
    split <;> rfl
  rw [heq]
  exact ⟨hnext, hobs, hclock, hreq⟩

lemma signalled_new (hI : 0 < o.pausedRetryInterval) (hm : m.returned = false)
    (hround : m.roundRequested = false) :
    (signalled o r m).observed = m.observed ++ [.reconnect m.clock false] ∧
      ((signalled o r m).returned = false → (signalled o r m).core =
        (true, 0, m.clock, m.observed ++ [.reconnect m.clock false])) := by
  obtain ⟨hobs, -, hclock, hreq⟩ := requestReconnect_spec (r := r) hI hm false
  simp only [hround, Bool.false_eq_true, if_false] at hobs
  unfold signalled
  generalize requestReconnect o r false m = q at *
  cases hret : q.returned with
  | true =>
    rw [andThen_returned hret]
    exact ⟨hobs, fun h => absurd (hret.symm.trans h) (by simp)⟩
  | false =>
    rw [andThen_running hret]
    simp only [hround, Bool.false_eq_true, if_false]
    exact ⟨hobs, fun _ => by simp [Monitor.core, hreq hret, hclock, hobs]⟩

end Events

/-! ### Calls since the worker was last seen to leave `paused` -/

/-- `Reconnect` was called at `t`, every tick since reported `paused`. -/
def Recent (h : List Observed) (t : ℕ) : Prop :=
  ∃ l₁ a l₂, h = l₁ ++ .reconnect t a :: l₂ ∧ ∀ s, .reported s ∈ l₂ → s = .paused

/-- Calls without another state between them are `I` apart. -/
def Spaced (I : ℕ) (h : List Observed) : Prop :=
  ∀ l₁ t a l₂ t' a' l₃, h = l₁ ++ .reconnect t a :: (l₂ ++ .reconnect t' a' :: l₃) →
    (∀ s, .reported s ∈ l₂ → s = .paused) → t + I ≤ t'

variable {h : List Observed}

lemma recent_reported {s : ConnectionState} {t : ℕ}
    (hr : Recent (h ++ [.reported s]) t) : Recent h t ∧ s = .paused := by
  obtain ⟨l₁, a, l₂, heq, hall⟩ := hr
  rcases eq_nil_or_concat l₂ with rfl | ⟨l, x, rfl⟩
  · exact absurd (append_inj' heq rfl).2 (by simp)
  rw [concat_eq_append, ← cons_append, ← append_assoc] at heq
  obtain ⟨rfl, hx⟩ := append_inj' heq rfl
  obtain rfl : Observed.reported s = x := by simpa using hx
  exact ⟨⟨l₁, a, l, rfl, fun s' hs => hall s' (by simp [hs])⟩, hall s (by simp)⟩

lemma recent_reconnect {t t' : ℕ} {a : Bool}
    (hr : Recent (h ++ [.reconnect t' a]) t) : t = t' ∨ Recent h t := by
  obtain ⟨l₁, b, l₂, heq, hall⟩ := hr
  rcases eq_nil_or_concat l₂ with rfl | ⟨l, x, rfl⟩
  · have hlast := (append_inj' heq rfl).2
    simp only [List.cons.injEq, Observed.reconnect.injEq, and_true] at hlast
    exact .inl hlast.1.symm
  · rw [concat_eq_append, ← cons_append, ← append_assoc] at heq
    obtain ⟨rfl, -⟩ := append_inj' heq rfl
    exact .inr ⟨l₁, b, l, rfl, fun s' hs => hall s' (by simp [hs])⟩

/-- A tick adds no call, so the calls stay spaced. -/
lemma Spaced.reported {I : ℕ} (hs : Spaced I h) (s : ConnectionState) :
    Spaced I (h ++ [.reported s]) := by
  intro l₁ t a l₂ t' a' l₃ heq hall
  rcases eq_nil_or_concat l₃ with rfl | ⟨l, x, rfl⟩
  · rw [← cons_append, ← append_assoc] at heq
    exact absurd (append_inj' heq rfl).2 (by simp)
  rw [concat_eq_append, ← cons_append, ← append_assoc, ← cons_append,
    ← append_assoc] at heq
  obtain ⟨rfl, -⟩ := append_inj' heq rfl
  exact hs l₁ t a l₂ t' a' l (by simp) hall

lemma Spaced.reconnect {I : ℕ} {t' : ℕ} {a : Bool} (hs : Spaced I h)
    (hrecent : ∀ t, Recent h t → t + I ≤ t') : Spaced I (h ++ [.reconnect t' a]) := by
  intro l₁ t b l₂ t'' a'' l₃ heq hall
  rcases eq_nil_or_concat l₃ with rfl | ⟨l, x, rfl⟩
  · rw [← cons_append, ← append_assoc] at heq
    obtain ⟨rfl, hlast⟩ := append_inj' heq rfl
    simp only [List.cons.injEq, Observed.reconnect.injEq, and_true] at hlast
    obtain ⟨rfl, -⟩ := hlast
    exact hrecent t ⟨l₁, b, l₂, rfl, hall⟩
  rw [concat_eq_append, ← cons_append, ← append_assoc, ← cons_append,
    ← append_assoc] at heq
  obtain ⟨rfl, -⟩ := append_inj' heq rfl
  exact hs l₁ t b l₂ t'' a'' l (by simp) hall

/-! ### The invariant -/

/-- The calls are spaced; one since the worker left `paused` keeps the round requested, and no
deadline is further off than an interval. -/
structure Paced (I : ℕ) (m : Monitor) : Prop where
  spaced : Spaced I m.observed
  recent : m.returned = false → ∀ t, Recent m.observed t →
    m.roundRequested = true ∧ (m.nextPausedRetry = 0 ∨ t + I ≤ m.nextPausedRetry) ∧ t ≤ m.clock
  deadline : m.returned = false → m.nextPausedRetry ≤ m.clock + I

section Steps

variable {o : Options} {r : Results} {m : Monitor}

lemma Paced.of_returned {I : ℕ} (hs : Spaced I m.observed) (hm : m.returned = true) :
    Paced I m where
  spaced := hs
  recent h := absurd (hm.symm.trans h) (by simp)
  deadline h := absurd (hm.symm.trans h) (by simp)

/-- Before the first event nothing was called. -/
lemma paced_start (I : ℕ) (info : ConnectionInfo) (clock : ℕ) :
    Paced I (Monitor.start info clock) where
  spaced := by
    intro l₁ t a l₂ t' a' l₃ heq
    exact absurd heq (by simp [Monitor.start])
  recent := by
    rintro - t ⟨l₁, a, l₂, heq, -⟩
    exact absurd heq (by simp [Monitor.start])
  deadline _ := by simp [Monitor.start]

/-- A signal keeps the invariant. -/
lemma Paced.signalled (hI : 0 < o.pausedRetryInterval) (h : Paced o.pausedRetryInterval m)
    (hm : m.returned = false) : Paced o.pausedRetryInterval (signalled o r m) := by
  cases hround : m.roundRequested with
  | true =>
    obtain ⟨hnext, hobs, hclock, hreq⟩ := signalled_merged (r := r) hI hm hround
    refine ⟨hobs ▸ h.spaced, fun hret t ht => ?_, fun _ => ?_⟩
    · obtain ⟨-, hdead, hle⟩ := h.recent hm t (hobs ▸ ht)
      exact ⟨hreq hret, by rwa [hnext], by rwa [hclock]⟩
    · rw [hnext, hclock]
      exact h.deadline hm
  | false =>
    obtain ⟨hobs, hcore⟩ := signalled_new (r := r) hI hm hround
    have hnone : ∀ t, ¬Recent m.observed t := fun t ht =>
      absurd ((h.recent hm t ht).1.symm.trans hround) (by simp)
    refine ⟨?_, fun hret t ht => ?_, fun hret => ?_⟩
    · rw [hobs]
      exact h.spaced.reconnect fun t ht => absurd ht (hnone t)
    · simp only [Monitor.core, Prod.mk.injEq] at hcore
      obtain ⟨hr, hn, hc, -⟩ := hcore hret
      rw [hobs] at ht
      rcases recent_reconnect ht with rfl | ht
      · exact ⟨hr, .inl hn, by rw [hc]⟩
      · exact absurd ht (hnone t)
    · simp only [Monitor.core, Prod.mk.injEq] at hcore
      rw [(hcore hret).2.1]
      exact Nat.zero_le _

lemma Paced.congr {I : ℕ} {m' : Monitor} (h : Paced I m) (hcore : m'.core = m.core)
    (hret : m'.returned = m.returned) : Paced I m' := by
  obtain ⟨hround, hnext, hclock, hobs⟩ := core_eq hcore
  exact ⟨hobs ▸ h.spaced, by rw [hret, hround, hnext, hclock, hobs]; exact h.recent,
    by rw [hret, hnext, hclock]; exact h.deadline⟩

lemma Paced.pace {now : ℕ} {info : ConnectionInfo} (hI : 0 < o.pausedRetryInterval)
    (h : Paced o.pausedRetryInterval m) (hm : m.returned = false) (hnow : m.clock ≤ now)
    {m₁ : Monitor} (hm₁ : m₁.returned = false)
    (hcore : m₁.core =
      (m.roundRequested, m.nextPausedRetry, now, m.observed ++ [.reported info.state])) :
    Paced o.pausedRetryInterval (Cli.pace o r now info m₁) := by
  simp only [Monitor.core, Prod.mk.injEq] at hcore
  obtain ⟨hround, hnext, hclock, hobs⟩ := hcore
  have hspaced : Spaced o.pausedRetryInterval m₁.observed := hobs ▸ h.spaced.reported info.state
  by_cases hstate : info.state = .paused
  · -- the calls that count are those before the tick
    have hrecent : ∀ t, Recent m₁.observed t → m₁.roundRequested = true ∧
        (m₁.nextPausedRetry = 0 ∨ t + o.pausedRetryInterval ≤ m₁.nextPausedRetry) ∧ t ≤ now := by
      intro t ht
      obtain ⟨h1, h2, h3⟩ := h.recent hm t (recent_reported (hobs ▸ ht)).1
      exact ⟨hround.trans h1, hnext ▸ h2, h3.trans hnow⟩
    rcases pace_paused (r := r) now hI hstate hm₁ with
      ⟨-, hcore⟩ | ⟨hne, hle, hobs', hcore⟩ | ⟨-, hcore⟩
    · simp only [Monitor.core, Prod.mk.injEq] at hcore
      obtain ⟨c1, c2, c3, c4⟩ := hcore
      refine ⟨c4 ▸ hspaced, fun _ t ht => ?_, fun _ => by omega⟩
      obtain ⟨h1, -, h3⟩ := hrecent t (c4 ▸ ht)
      exact ⟨c1.trans h1, .inr (by omega), by omega⟩
    · have hlate : ∀ t, Recent m₁.observed t → t + o.pausedRetryInterval ≤ m₁.clock := by
        intro t ht
        have := (hrecent t ht).2.1.resolve_left hne
        omega
      refine ⟨hobs' ▸ hspaced.reconnect hlate, fun hret t ht => ?_, fun hret => ?_⟩
      · have hc := hcore hret
        simp only [Monitor.core, Prod.mk.injEq] at hc
        obtain ⟨c1, c2, c3, c4⟩ := hc
        rcases recent_reconnect (c4 ▸ ht) with rfl | ht
        · exact ⟨c1, .inr (by omega), by omega⟩
        · have := hlate t ht
          exact ⟨c1, .inr (by omega), by omega⟩
      · have hc := hcore hret
        simp only [Monitor.core, Prod.mk.injEq] at hc
        omega
    obtain ⟨c1, c2, c3, c4⟩ := core_eq hcore
    refine ⟨c4 ▸ hspaced, fun _ t ht => ?_, fun _ => ?_⟩
    · obtain ⟨h1, h2, h3⟩ := hrecent t (c4 ▸ ht)
      exact ⟨c1.trans h1, by rwa [c2], by omega⟩
    · have := h.deadline hm
      omega
  · have hcore := pace_other (o := o) (r := r) (m := m₁) now hstate
    simp only [Monitor.core, Prod.mk.injEq] at hcore
    obtain ⟨c1, c2, c3, c4⟩ := hcore
    refine ⟨c4 ▸ hspaced, fun _ t ht => ?_, fun _ => by omega⟩
    exact absurd (recent_reported (hobs ▸ c4 ▸ ht)).2 hstate

lemma Paced.tick {now : ℕ} (hI : 0 < o.pausedRetryInterval) (h : Paced o.pausedRetryInterval m)
    (hm : m.returned = false) (hnow : m.clock ≤ now) :
    Paced o.pausedRetryInterval (Cli.tick o r now m) := by
  cases hinfo : r.info with
  | none =>
    rw [Cli.tick, hinfo]
    exact .of_returned h.spaced rfl
  | some info =>
    obtain ⟨m₁, hcore, ⟨hret, heq⟩ | ⟨hret, heq⟩⟩ := tick_cases (o := o) (m := m) now hinfo
    · have hobs : m₁.observed = m.observed ++ [.reported info.state] := by
        simp only [Monitor.core, Prod.mk.injEq] at hcore
        exact hcore.2.2.2
      rw [heq]
      exact .of_returned (hobs ▸ h.spaced.reported info.state) hret
    · rw [heq]
      refine (h.pace (r := r) hI hm hnow hret hcore).congr ?_ ?_ <;>
        unfold Monitor.andThen <;> split <;> rfl

lemma Paced.step {e : Event} (hI : 0 < o.pausedRetryInterval) (h : Paced o.pausedRetryInterval m)
    (he : InOrder m e) : Paced o.pausedRetryInterval (Cli.step o m e) := by
  cases hm : m.returned with
  | true => rwa [Cli.step, andThen_returned hm]
  | false =>
    rw [Cli.step, andThen_running hm]
    cases e with
    | done => exact .of_returned h.spaced rfl
    | signal r => exact h.signalled hI hm
    | tick now r => exact h.tick hI hm he

end Steps

/-! ### A worker that stays paused -/

/-- The tick reports `paused`. -/
def Paused (r : Results) : Prop := ∃ info, r.info = some info ∧ info.state = .paused

def ticks (ts : List (ℕ × Results)) : List Event := ts.map fun x => .tick x.1 x.2

section Waiting

variable {o : Options} {m : Monitor}

lemma running_of_run (es : List Event) (h : (run (step o) m es).returned = false) :
    m.returned = false := by
  induction es generalizing m with
  | nil => exact h
  | cons e es ih =>
    have hstep := ih h
    by_contra hm
    rw [Bool.not_eq_false] at hm
    rw [step, andThen_returned hm] at hstep
    exact absurd (hm.symm.trans hstep) (by simp)

variable {r : Results} {ts : List (ℕ × Results)}

lemma step_tick {now : ℕ} (hm : m.returned = false) :
    step o m (.tick now r) = tick o r now m := andThen_running hm

lemma pausedTick_cases {now : ℕ} (hI : 0 < o.pausedRetryInterval) (hr : Paused r)
    (hrun : (step o m (.tick now r)).returned = false) :
    (m.nextPausedRetry = 0 ∧
      (step o m (.tick now r)).nextPausedRetry = now + o.pausedRetryInterval ∧
      (step o m (.tick now r)).observed = m.observed ++ [.reported .paused]) ∨
    (m.nextPausedRetry ≠ 0 ∧ m.nextPausedRetry ≤ now ∧
      (step o m (.tick now r)).nextPausedRetry = now + o.pausedRetryInterval ∧
      (step o m (.tick now r)).observed = m.observed ++ [.reported .paused, .reconnect now true]) ∨
    (now < m.nextPausedRetry ∧ (step o m (.tick now r)).nextPausedRetry = m.nextPausedRetry ∧
      (step o m (.tick now r)).observed = m.observed ++ [.reported .paused]) := by
  have hm : m.returned = false := running_of_run [.tick now r] hrun
  obtain ⟨info, hinfo, hstate⟩ := hr
  rw [step_tick hm] at hrun ⊢
  obtain ⟨m₁, hcore, ⟨hret, heq⟩ | ⟨hret, heq⟩⟩ := tick_cases (o := o) (m := m) now hinfo
  · exact absurd (hret.symm.trans (heq ▸ hrun)) (by simp)
  have hsame : (tick o r now m).core = (pace o r now info m₁).core ∧
      (tick o r now m).returned = (pace o r now info m₁).returned := by
    rw [heq]
    constructor <;> unfold Monitor.andThen <;> split <;> rfl
  obtain ⟨-, snext, -, sobs⟩ := core_eq hsame.1
  simp only [Monitor.core, Prod.mk.injEq, hstate] at hcore
  obtain ⟨-, hnext, hclock, hobs⟩ := hcore
  simp only [snext, sobs, ← hnext]
  rcases pace_paused (r := r) now hI hstate hret with
    ⟨h0, hcore⟩ | ⟨hne, hle, hobs', hcore⟩ | ⟨hlt, hcore⟩
  · simp only [Monitor.core, Prod.mk.injEq] at hcore
    exact .inl ⟨h0, hcore.2.1, hcore.2.2.2.trans hobs⟩
  · have hc := hcore (hsame.2 ▸ hrun)
    simp only [Monitor.core, Prod.mk.injEq] at hc
    exact .inr (.inl ⟨hne, hle, hc.2.1, by rw [hobs', hobs, hclock, append_assoc]; rfl⟩)
  · obtain ⟨-, c2, -, c4⟩ := core_eq hcore
    exact .inr (.inr ⟨hlt, c2, c4.trans hobs⟩)

/-- Ticks only add to what was observed. -/
lemma observed_ticks (hI : 0 < o.pausedRetryInterval)
    (hts : ∀ x ∈ ts, Paused x.2) (hrun : (run (step o) m (ticks ts)).returned = false) :
    ∃ added, (run (step o) m (ticks ts)).observed = m.observed ++ added := by
  induction ts generalizing m with
  | nil => exact ⟨[], by simp [ticks]⟩
  | cons x ts ih =>
    obtain ⟨added, hadded⟩ := ih (m := step o m (.tick x.1 x.2))
      (fun y hy => hts y (mem_cons_of_mem x hy)) hrun
    have hobs : ∃ l, (step o m (.tick x.1 x.2)).observed = m.observed ++ l := by
      rcases pausedTick_cases hI (hts x mem_cons_self) (running_of_run _ hrun) with
        ⟨-, -, h⟩ | ⟨-, -, -, h⟩ | ⟨-, -, h⟩
      · exact ⟨_, h⟩
      · exact ⟨_, h⟩
      · exact ⟨_, h⟩
    obtain ⟨l, hl⟩ := hobs
    refine ⟨l ++ added, ?_⟩
    rw [← append_assoc, ← hl]
    exact hadded

lemma asked_by {d : ℕ} (hI : 0 < o.pausedRetryInterval)
    (h0 : m.nextPausedRetry ≠ 0) (hd : m.nextPausedRetry ≤ d) (hts : ∀ x ∈ ts, Paused x.2)
    (hrun : (run (step o) m (ticks ts)).returned = false) (hlate : ∃ x ∈ ts, d ≤ x.1) :
    ∃ added t, (run (step o) m (ticks ts)).observed = m.observed ++ added ∧
      .reconnect t true ∈ added := by
  induction ts generalizing m with
  | nil => exact absurd hlate (by simp)
  | cons x ts ih =>
    have hts' : ∀ y ∈ ts, Paused y.2 := fun y hy => hts y (mem_cons_of_mem x hy)
    have hrun' : (run (step o) (step o m (.tick x.1 x.2)) (ticks ts)).returned = false := hrun
    rcases pausedTick_cases hI (hts x mem_cons_self) (running_of_run _ hrun') with
      ⟨h, -⟩ | ⟨-, -, -, hobs⟩ | ⟨hlt, hnext, hobs⟩
    · exact absurd h h0
    · obtain ⟨added, hadded⟩ := observed_ticks hI hts' hrun'
      refine ⟨[.reported .paused, .reconnect x.1 true] ++ added, x.1, ?_, by simp⟩
      rw [← append_assoc, ← hobs]
      exact hadded
    -- the deadline is still to come, so a later tick reaches it
    obtain ⟨y, hy, hdy⟩ := hlate
    have hy' : y ∈ ts := by
      rcases mem_cons.mp hy with rfl | hy
      · omega
      · exact hy
    obtain ⟨added, t, hadded, hmem⟩ :=
      ih (hnext ▸ h0) (hnext ▸ hd) hts' hrun' ⟨y, hy', hdy⟩
    refine ⟨[.reported .paused] ++ added, t, ?_, by simp [hmem]⟩
    rw [← append_assoc, ← hobs]
    exact hadded

lemma asked_at {t : ℕ} (hI : 0 < o.pausedRetryInterval)
    (h0 : m.nextPausedRetry ≠ 0) (hts : ∀ x ∈ ts, Paused x.2 ∧ x.1 < m.nextPausedRetry)
    (hr : Paused r) (ht : m.nextPausedRetry ≤ t)
    (hrun : (run (step o) m (ticks (ts ++ [(t, r)]))).returned = false) :
    (run (step o) m (ticks (ts ++ [(t, r)]))).observed =
      m.observed ++ List.replicate (ts.length + 1) (.reported .paused) ++ [.reconnect t true] := by
  induction ts generalizing m with
  | nil =>
    have hrun' : (step o m (.tick t r)).returned = false := hrun
    rcases pausedTick_cases hI hr hrun' with ⟨h, -⟩ | ⟨-, -, -, hobs⟩ | ⟨hlt, -⟩
    · exact absurd h h0
    · simpa [ticks] using hobs
    · omega
  | cons x ts ih =>
    have hrun' :
        (run (step o) (step o m (.tick x.1 x.2)) (ticks (ts ++ [(t, r)]))).returned = false := hrun
    obtain ⟨hx, hlt⟩ := hts x mem_cons_self
    rcases pausedTick_cases hI hx (running_of_run _ hrun') with
      ⟨h, -⟩ | ⟨-, hle, -⟩ | ⟨-, hnext, hobs⟩
    · exact absurd h h0
    · omega
    have := ih (hnext ▸ h0) (fun y hy => hnext ▸ hts y (mem_cons_of_mem x hy)) (hnext ▸ ht)
      hrun'
    rw [hobs] at this
    simpa [ticks, replicate_succ] using this

end Waiting

/-- **Reconnect requests are merged and paced.** Calls with no other state than `paused` between
them are an interval apart; a merged signal calls nothing and moves no deadline; while ticks
report `paused`, `Reconnect` is called within an interval, and after an automatic call at the
first tick an interval later. -/
theorem reconnects_paced (o : Options) (hI : 0 < o.pausedRetryInterval) (info : ConnectionInfo)
    (clock : ℕ) (es : List Event) (hes : Along (step o) InOrder (Monitor.start info clock) es) :
    let m := run (step o) (Monitor.start info clock) es
    let I := o.pausedRetryInterval
    (∀ l₁ t a l₂ t' a' l₃, m.observed = l₁ ++ .reconnect t a :: (l₂ ++ .reconnect t' a' :: l₃) →
      (∀ s, .reported s ∈ l₂ → s = .paused) → t + I ≤ t') ∧
    (∀ r, m.returned = false → m.roundRequested = true →
      (step o m (.signal r)).observed = m.observed ∧
        (step o m (.signal r)).nextPausedRetry = m.nextPausedRetry) ∧
    (∀ x ts, (∀ y ∈ x :: ts, Paused y.2) → Along (step o) InOrder m (ticks (x :: ts)) →
      (run (step o) m (ticks (x :: ts))).returned = false → (∃ y ∈ ts, x.1 + I ≤ y.1) →
      ∃ added t a, (run (step o) m (ticks (x :: ts))).observed = m.observed ++ added ∧
        .reconnect t a ∈ added) ∧
    (∀ T r, Paused r →
      (step o m (.tick T r)).observed = m.observed ++ [.reported .paused, .reconnect T true] →
      ∀ ts t r', (∀ y ∈ ts, Paused y.2 ∧ y.1 < T + I) → Paused r' → T + I ≤ t →
      (run (step o) (step o m (.tick T r)) (ticks (ts ++ [(t, r')]))).returned = false →
      (run (step o) (step o m (.tick T r)) (ticks (ts ++ [(t, r')]))).observed =
        (step o m (.tick T r)).observed ++ List.replicate (ts.length + 1) (.reported .paused) ++
          [.reconnect t true]) := by
  intro m I
  have hpaced : Paced I m :=
    along_invariant (I := fun m => Paced I m) (fun s e hs he => hs.step hI he)
      (paced_start I info clock) hes
  refine ⟨hpaced.spaced, fun r hm hround => ?_, fun x ts hts hord hrun hlate => ?_,
    fun T r hr hobs ts t r' hts hr' ht hrun => ?_⟩
  · obtain ⟨hnext, hobs, -⟩ := signalled_merged (r := r) hI hm hround
    rw [step, andThen_running hm]
    exact ⟨hobs, hnext⟩
  · have hrun' : (run (step o) (step o m (.tick x.1 x.2)) (ticks ts)).returned = false := hrun
    have hm : m.returned = false := running_of_run (ticks (x :: ts)) hrun
    have hclock : m.clock ≤ x.1 := hord.1
    have hdead := hpaced.deadline hm
    have hts' : ∀ y ∈ ts, Paused y.2 := fun y hy => hts y (mem_cons_of_mem x hy)
    rcases pausedTick_cases hI (hts x mem_cons_self) (running_of_run _ hrun') with
      ⟨-, hnext, hobs⟩ | ⟨-, -, -, hobs⟩ | ⟨hlt, hnext, hobs⟩
    · obtain ⟨added, t, hadded, hmem⟩ :=
        asked_by hI (by omega) hnext.le hts' hrun' hlate
      exact ⟨[.reported .paused] ++ added, t, true, by
        rw [← append_assoc, ← hobs]; exact hadded, by simp [hmem]⟩
    · obtain ⟨added, hadded⟩ := observed_ticks hI hts' hrun'
      exact ⟨[.reported .paused, .reconnect x.1 true] ++ added, x.1, true, by
        rw [← append_assoc, ← hobs]; exact hadded, by simp⟩
    obtain ⟨added, t, hadded, hmem⟩ :=
      asked_by (d := x.1 + I) hI (by omega) (by omega) hts' hrun' hlate
    exact ⟨[.reported .paused] ++ added, t, true, by
      rw [← append_assoc, ← hobs]; exact hadded, by simp [hmem]⟩
  · have hnext : (step o m (.tick T r)).nextPausedRetry = T + I := by
      rcases pausedTick_cases hI hr (running_of_run _ hrun) with
        ⟨-, -, h⟩ | ⟨-, -, h, -⟩ | ⟨-, -, h⟩
      · exact absurd (hobs.symm.trans h) (by simp)
      · exact h
      · exact absurd (hobs.symm.trans h) (by simp)
    exact asked_at hI (by omega) (fun y hy => hnext ▸ hts y hy) hr' (hnext ▸ ht) hrun

def pausedResults : Results where
  info := some ⟨.paused, 3, 1, none⟩
  status := true
  reconnect := true
  write := fun _ => true

def serveOptions : Options := ⟨false, 30⟩

/-- A signal at second 100, then an automatic call more than an interval later. -/
theorem reconnects_paced_serve :
    let es := [.tick 100 pausedResults, .signal pausedResults, .tick 101 pausedResults,
      .tick 131 pausedResults]
    Along (step serveOptions) InOrder (Monitor.start ⟨.connected, 0, 1, none⟩ 99) es ∧
      (run (step serveOptions) (Monitor.start ⟨.connected, 0, 1, none⟩ 99) es).observed =
        [.reported .paused] ++ .reconnect 100 false ::
          ([.reported .paused, .reported .paused] ++ .reconnect 131 true :: []) ∧
      100 + 30 ≤ 131 := by
  intro es
  have hes : Along (step serveOptions) InOrder (Monitor.start ⟨.connected, 0, 1, none⟩ 99) es :=
    by decide
  have hobs : (run (step serveOptions) (Monitor.start ⟨.connected, 0, 1, none⟩ 99) es).observed =
      [.reported .paused] ++ .reconnect 100 false ::
        ([.reported .paused, .reported .paused] ++ .reconnect 131 true :: []) := by decide
  have hpaced := (reconnects_paced serveOptions (by decide) _ 99 es hes).1
  exact ⟨hes, hobs, hpaced _ _ _ _ _ _ _ hobs (by simp)⟩

end OhecoBroker.Cli
