/-
A login family: the server's login session, the profile on disk with its journal, and any number
of processes that rotate the credentials under the profile lock (`ob_auth.c`, `auth_store.go`).

* `Credentials`, `Pending`, `credentialsValid`, `pendingValid`, `receipt`: the records of the
  client and their checks;
* `Phase`, `Proc`, `plan`: one process in `rotate`;
* `World`, `World.act`: the server, the disk, the processes and the network.

A request may reach the server any number of times, at any time, or never; an answer may reach the
process that asked, or never.  A process may stop between any two steps.  A save replaces its file
whole.
-/
import OhecoBroker.Control.Authority
import OhecoBroker.Lib.Run

namespace OhecoBroker.Login

open Control Lib

/-! ### The client's records -/

/-- `ob_auth_credentials`, without the name of the login session. -/
structure Credentials where
  token : Secret
  refreshToken : Secret
  generation : ℕ
  tokenExpiresAt : ℕ
  refreshExpiresAt : ℕ
  deriving DecidableEq

/-- `ob_auth_pending`. -/
structure Pending where
  request : Uuid
  expectedGeneration : ℕ
  nextToken : Secret
  nextRefreshToken : Secret
  deriving DecidableEq

def authMaxGeneration : ℕ := 9007199254740990

def credentialsValid (sid : Uuid) (c : Credentials) : Bool :=
  validAuthId sid && c.token ≠ c.refreshToken && 0 < c.generation &&
  c.generation ≤ authMaxGeneration && 0 < c.tokenExpiresAt && 0 < c.refreshExpiresAt

def pendingValid (sid : Uuid) (p : Pending) (c : Credentials) : Bool :=
  validAuthId sid && validAuthId p.request && p.expectedGeneration = c.generation &&
  p.nextToken ≠ p.nextRefreshToken && p.nextToken ≠ c.token && p.nextToken ≠ c.refreshToken &&
  p.nextRefreshToken ≠ c.token && p.nextRefreshToken ≠ c.refreshToken

lemma credentialsValid_iff {sid : Uuid} {c : Credentials} :
    credentialsValid sid c = true ↔ validAuthId sid = true ∧ c.token ≠ c.refreshToken ∧
      0 < c.generation ∧ c.generation ≤ authMaxGeneration ∧ 0 < c.tokenExpiresAt ∧
      0 < c.refreshExpiresAt := by
  simp [credentialsValid, and_assoc]

variable {p : Pending}

lemma pendingValid_iff {sid : Uuid} {c : Credentials} :
    pendingValid sid p c = true ↔ validAuthId sid = true ∧ validAuthId p.request = true ∧
      p.expectedGeneration = c.generation ∧ p.nextToken ≠ p.nextRefreshToken ∧
      p.nextToken ≠ c.token ∧ p.nextToken ≠ c.refreshToken ∧ p.nextRefreshToken ≠ c.token ∧
      p.nextRefreshToken ≠ c.refreshToken := by
  simp [pendingValid, and_assoc]

/-- `receipt`: the answer is the receipt of the generation that follows. -/
def receipt (sid : Uuid) (before : Credentials) (p : Pending) (r : AuthReceipt) :
    Option Credentials :=
  if r.authSession = sid ∧ r.generation = before.generation + 1 ∧
      0 < r.tokenExpiresAt ∧ 0 < r.refreshExpiresAt then
    some { token := p.nextToken, refreshToken := p.nextRefreshToken, generation := r.generation,
           tokenExpiresAt := r.tokenExpiresAt, refreshExpiresAt := r.refreshExpiresAt }
  else none

/-- The refresh request of `rotate`. -/
def refreshRequest (sid : Uuid) (c : Credentials) (p : Pending) : RefreshRequest :=
  .full sid p.request p.expectedGeneration p.nextToken p.nextRefreshToken c.refreshToken

/-! ### One process -/

/-- Where a process stands in `rotate`. -/
inductive Phase where
  | idle
  /-- `Begin` holds the profile lock. -/
  | locked
  /-- `Begin` found a journal older than the profile and is about to remove it. -/
  | stale (current : Credentials)
  /-- `Begin` is done, with the attempt the journal holds. -/
  | opened (current : Credentials) (attempt : Option Pending)
  /-- The attempt is in the journal. -/
  | prepared (current : Credentials) (attempt : Pending)
  /-- The request is on its way. -/
  | sent (current : Credentials) (attempt : Pending)
  /-- The receipt was accepted. -/
  | received (current : Credentials) (attempt : Pending) (after : Credentials)
  /-- `Commit` has saved the profile; the journal is still there. -/
  | saved (attempt : Pending) (after : Credentials)
  /-- `End` is next. -/
  | finished (ok : Bool)
  deriving DecidableEq

/-- A process with the credentials in its memory. -/
structure Proc where
  memory : Credentials
  phase : Phase := .idle
  deriving DecidableEq

/-- The arguments, the clock and the random values of `rotate`. -/
structure Choice where
  force : Bool
  requestedGeneration : ℕ
  due : Bool
  clock : ℕ
  request : Uuid
  nextToken : Secret
  nextRefreshToken : Secret
  deriving DecidableEq

/-- `new_pending`, before its check. -/
def newPending (current : Credentials) (c : Choice) : Pending where
  request := c.request
  expectedGeneration := current.generation
  nextToken := c.nextToken
  nextRefreshToken := c.nextRefreshToken

/-- `Prepare`, for the credentials of the locked profile. -/
def prepareAccepts (current : Credentials) (attempt : Option Pending) (p : Pending) : Bool :=
  p.expectedGeneration = current.generation &&
  p.nextToken ≠ p.nextRefreshToken && p.nextToken ≠ current.token &&
  p.nextRefreshToken ≠ current.refreshToken && attempt.all (· = p)

/-- `Commit`, up to the profile it loads again. -/
def commitAccepts (latest : Credentials) (p : Pending) (after : Credentials) : Bool :=
  after.generation = p.expectedGeneration + 1 && after.token = p.nextToken &&
  after.refreshToken = p.nextRefreshToken && latest.generation = p.expectedGeneration

/-- The checks before the journal is written. -/
lemma prepareAccepts_iff {current : Credentials} {attempt : Option Pending} :
    prepareAccepts current attempt p = true ↔ p.expectedGeneration = current.generation ∧
      p.nextToken ≠ p.nextRefreshToken ∧
      p.nextToken ≠ current.token ∧ p.nextRefreshToken ≠ current.refreshToken ∧
      ∀ q, attempt = some q → q = p := by
  cases attempt <;> simp [prepareAccepts, and_assoc]

lemma commitAccepts_iff {latest : Credentials} {after : Credentials} :
    commitAccepts latest p after = true ↔ after.generation = p.expectedGeneration + 1 ∧
      after.token = p.nextToken ∧ after.refreshToken = p.nextRefreshToken ∧
      latest.generation = p.expectedGeneration := by
  simp [commitAccepts, and_assoc]

/-- What `rotate` decides once `Begin` is done. -/
inductive Plan where
  /-- The credentials are invalid, stale or inconsistent: none of them are adopted. -/
  | leave
  | finish (ok : Bool)
  /-- Repeat the attempt of the journal. -/
  | replay (p : Pending)
  /-- Start an attempt. -/
  | fresh (p : Pending)

/-- The part of `rotate` between `begin` and the request. -/
def plan (sid : Uuid) (memory current : Credentials) (attempt : Option Pending) (c : Choice) :
    Plan :=
  if ¬credentialsValid sid current then .leave
  -- the storage is stale or inconsistent
  else if current.generation < memory.generation ∨
      (current.generation = memory.generation ∧ current ≠ memory) then .leave
  else
    match attempt.filter fun p => ¬p.expectedGeneration < current.generation with
    | some p => if pendingValid sid p current then .replay p else .finish false
    | none =>
      if current.refreshExpiresAt ≤ c.clock then .finish false
      else if (¬c.force ∨ memory.generation < current.generation ∨
          current.generation ≠ c.requestedGeneration) ∧ ¬c.due ∧
          c.clock < current.tokenExpiresAt then .finish true
      else if ¬pendingValid sid (newPending current c) current then .finish false
      else if ¬prepareAccepts current attempt (newPending current c) then .finish false
      else .fresh (newPending current c)

/-! ### The world -/

structure World where
  db : Db
  now : ℕ
  profile : Credentials
  journal : Option Pending
  /-- The process that holds the profile lock. -/
  lock : Option ℕ
  procs : ℕ → Proc
  /-- The requests that were ever sent. -/
  requests : List RefreshRequest
  /-- The server's answers; `none` for an error. -/
  answers : List (RefreshRequest × Option AuthReceipt)

inductive Act where
  /-- A process starts and reads the profile. -/
  | spawn (q : ℕ)
  | lock (q : ℕ)
  | begin (q : ℕ)
  /-- `Begin` removes a journal that the profile has overtaken. -/
  | dropJournal (q : ℕ)
  | choose (q : ℕ) (c : Choice)
  | send (q : ℕ)
  /-- A request that was sent reaches the server. -/
  | deliver (r : RefreshRequest)
  /-- An answer reaches the process that waits for it. -/
  | receive (q : ℕ) (answer : Option AuthReceipt)
  /-- `Commit` saves the profile. -/
  | save (q : ℕ)
  /-- `Commit` removes the journal. -/
  | unlink (q : ℕ)
  /-- A step fails: cancelled, no answer in time, or an error of the storage. -/
  | giveUp (q : ℕ)
  /-- `End` gives the lock back. -/
  | finish (q : ℕ)
  | crash (q : ℕ)
  /-- Time passes. -/
  | tick (t : ℕ)
  /-- The server does something else. -/
  | other (db : Db)

namespace World

@[simps]
def setPhase (w : World) (q : ℕ) (p : Phase) : World :=
  { w with procs := Function.update w.procs q ⟨(w.procs q).memory, p⟩ }

@[simps]
def setMemory (w : World) (q : ℕ) (c : Credentials) : World :=
  { w with procs := Function.update w.procs q ⟨c, (w.procs q).phase⟩ }

@[simps]
def setJournal (w : World) (journal : Option Pending) : World := { w with journal }

@[simps]
def setLock (w : World) (lock : Option ℕ) : World := { w with lock }

/-- Newer credentials go into memory. -/
@[simps! db now profile journal lock requests answers]
def adopt (w : World) (q : ℕ) (current : Credentials) : World :=
  let memory := (w.procs q).memory
  w.setMemory q (if memory.generation < current.generation then current else memory)

/-- `Begin`: which journal it finds. -/
def begin (w : World) (q : ℕ) : World :=
  match w.journal with
  | none => w.setPhase q (.opened w.profile none)
  | some p =>
    if p.expectedGeneration = 0 ∨ p.nextToken = p.nextRefreshToken then
      w.setPhase q (.finished false)
    else if p.expectedGeneration < w.profile.generation then w.setPhase q (.stale w.profile)
    -- the journal is ahead of the profile
    else if p.expectedGeneration ≠ w.profile.generation then w.setPhase q (.finished false)
    else w.setPhase q (.opened w.profile (some p))

/-- `rotate` after `Begin`. -/
def choose (sid : Uuid) (w : World) (q : ℕ) (current : Credentials) (attempt : Option Pending)
    (c : Choice) : World :=
  match plan sid (w.procs q).memory current attempt c with
  | .leave => w.setPhase q (.finished false)
  | .finish ok => (w.adopt q current).setPhase q (.finished ok)
  | .replay p => (w.adopt q current).setPhase q (.prepared current p)
  | .fresh p => ((w.adopt q current).setPhase q (.prepared current p)).setJournal (some p)

/-- The server has answered request `r`. -/
@[simps]
def answered (w : World) (db : Db) (r : RefreshRequest) (x : Option AuthReceipt) : World :=
  { w with db, answers := (r, x) :: w.answers }

/-- The server handles a refresh request. -/
def deliver (cfg : Config) (w : World) (r : RefreshRequest) : World :=
  match refreshAuth cfg w.db w.now r with
  | .ok { db, code := _, reply := .receipt a, revoked := _ } =>
    w.answered db r (some a)
  | _ => w.answered w.db r none

/-- A step whose process is not where it has to be does nothing. -/
def act (cfg : Config) (sid : Uuid) (w : World) : Act → World
  | .spawn q =>
    match (w.procs q).phase with
    | .idle => w.setMemory q w.profile
    | _ => w
  | .lock q =>
    match (w.procs q).phase, w.lock with
    | .idle, none => (w.setPhase q .locked).setLock (some q)
    | _, _ => w
  | .begin q =>
    match (w.procs q).phase with
    | .locked => w.begin q
    | _ => w
  | .dropJournal q =>
    match (w.procs q).phase with
    | .stale current => (w.setPhase q (.opened current none)).setJournal none
    | _ => w
  | .choose q c =>
    match (w.procs q).phase with
    | .opened current attempt => w.choose sid q current attempt c
    | _ => w
  | .send q =>
    match (w.procs q).phase with
    | .prepared current p =>
      { w.setPhase q (.sent current p) with
        requests := refreshRequest sid current p :: w.requests }
    | _ => w
  | .deliver r => if r ∈ w.requests then w.deliver cfg r else w
  | .receive q answer =>
    match (w.procs q).phase with
    | .sent current p =>
      if (refreshRequest sid current p, answer) ∈ w.answers then
        match answer.bind (receipt sid current p) with
        | some after => w.setPhase q (.received current p after)
        | none => w.setPhase q (.finished false)
      else w
    | _ => w
  | .save q =>
    match (w.procs q).phase with
    | .received _ p after =>
      if commitAccepts w.profile p after then
        { w.setPhase q (.saved p after) with profile := after }
      else w.setPhase q (.finished false)
    | _ => w
  | .unlink q =>
    match (w.procs q).phase with
    | .saved _ after =>
      ((w.setMemory q after).setPhase q (.finished true)).setJournal none
    | _ => w
  | .giveUp q =>
    match (w.procs q).phase with
    | .idle => w
    | _ => w.setPhase q (.finished false)
  | .finish q =>
    match (w.procs q).phase with
    | .finished _ => (w.setPhase q .idle).setLock none
    | _ => w
  | .crash q =>
    match (w.procs q).phase with
    | .idle => w
    | _ => (w.setPhase q .idle).setLock none
  | .tick t => { w with now := w.now + t }
  | .other db => { w with db := db }

end World

end OhecoBroker.Login
