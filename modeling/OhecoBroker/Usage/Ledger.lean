/-
Relay usage between the pending map, the four usage tables and the quota cache (`control.go`,
`turn_quota_cache.go`).

* `dayOf`, `bucketOf`, `usageKey`: days, minutes and the keys made of them;
* `Db`, `Tx`, `upsert`: tables and transactions;
* `recordRelayUsage`, `flushUsage`, `refreshTURNQuotaUsage`, `authorizeTURNQuota`: the functions
  of the server;
* `Server.step`: what runs under `usageMu`, with the clock between.
-/
import OhecoBroker.Lib.Run
import OhecoBroker.Lib.Split
import OhecoBroker.Lib.Table

namespace OhecoBroker.Usage

open Lib

abbrev Text := List Char

/-- An identifier without a separator. -/
structure Id where
  text : Text
  plain : '|' ∉ text

/-! ### Days and minutes -/

/-- A reading of the wall clock, in UTC. -/
structure Instant where
  year : ℕ
  month : ℕ
  day : ℕ
  hour : ℕ
  minute : ℕ
  second : ℕ
  deriving DecidableEq

def dayOf (t : Instant) : Text :=
  digits 4 t.year ++ '-' :: digits 2 t.month ++ '-' :: digits 2 t.day

/-- RFC 3339, whole seconds in UTC. -/
def rfc3339 (t : Instant) : Text :=
  dayOf t ++
    ('T' :: digits 2 t.hour ++ ':' :: digits 2 t.minute ++ ':' :: digits 2 t.second ++ ['Z'])

/-- `Truncate(time.Minute).Format(time.RFC3339)`. -/
def bucketOf (t : Instant) : Text := rfc3339 { t with second := 0 }

/-- The key under which bytes wait to be flushed. -/
def usageKey (tenant broker : Text) (t : Instant) : Text :=
  tenant ++ '|' :: (broker ++ '|' :: bucketOf t)

@[simp] lemma splitN_usageKey (tenant broker : Id) (t : Instant) :
    splitN '|' 3 (usageKey tenant.text broker.text t) = [tenant.text, broker.text, bucketOf t] := by
  rw [usageKey, splitN_append tenant.plain, splitN_append broker.plain, splitN]

/-! ### Numbers -/

def maxInt64 : ℤ := 2 ^ 63 - 1

/-- The sum of two `int64`, which wraps around. -/
def wrap64 (z : ℤ) : ℤ := Int.bmod z (2 ^ 64)

/-- A sum that fits does not wrap. -/
lemma wrap64_of_le {z : ℤ} (h0 : 0 ≤ z) (h : z ≤ maxInt64) : wrap64 z = z := by
  have hle : z ≤ 2 ^ 63 - 1 := h
  exact Int.bmod_eq_of_le (by omega) (by omega)

def addTURNQuotaBytes (total n : ℤ) : ℤ :=
  if 0 < n ∧ maxInt64 - n < total then maxInt64 else wrap64 (total + n)

lemma addTURNQuotaBytes_eq {total n : ℤ} (h0 : 0 ≤ total) (h : total ≤ maxInt64) (hn : 0 ≤ n) :
    addTURNQuotaBytes total n = min maxInt64 (total + n) := by
  rw [addTURNQuotaBytes]
  by_cases hover : 0 < n ∧ maxInt64 - n < total
  · rw [if_pos hover, min_eq_left (by omega)]
  · have hle : total + n ≤ maxInt64 := by omega
    rw [if_neg hover, wrap64_of_le (by omega) hle, min_eq_right hle]

/-! ### Tables -/

/-- An addition that leaves the 64-bit integers gives a real number. -/
inductive Value where
  | integer (n : ℤ)
  | real
  deriving DecidableEq

namespace Value

/-- `bytes+?`. -/
def add : Value → ℤ → Value
  | integer b, n => if -2 ^ 63 ≤ b + n ∧ b + n < 2 ^ 63 then integer (b + n) else real
  | real, _ => real

/-- `rows.Scan` into an `int64`. -/
def scan : Value → Option ℤ
  | integer b => some b
  | real => none

end Value

/-- The rows of a usage table: a primary key and the column `bytes`. -/
abbrev Rows (κ : Type) := Table (Prod.fst : κ × Value → κ)

structure Db where
  /-- By tenant and day. -/
  usageDaily : Rows (Text × Text) := ∅
  /-- By tenant and minute. -/
  usageBuckets : Rows (Text × Text) := ∅
  /-- By tenant, broker and day. -/
  brokerUsageDaily : Rows (Text × Text × Text) := ∅
  /-- By tenant, broker and minute. -/
  brokerUsageBuckets : Rows (Text × Text × Text) := ∅

/-- How many calls succeed before one fails. -/
abbrev Tx := StateT ℕ Option

/-- A call to the database. -/
def call : Tx Unit
  | 0 => none
  | left + 1 => some ((), left)

section Upsert

variable {κ : Type} [DecidableEq κ]

/-- `UPDATE … SET bytes=bytes+?`, else `INSERT`. -/
def upsert (t : Rows κ) (k : κ) (n : ℤ) : Tx (Rows κ) := do
  call
  call  -- `RowsAffected`
  if t.any fun r => r.1 = k then
    pure (t.update (fun r => r.1 = k) (fun r => (r.1, r.2.add n)) fun _ => rfl)
  else
    call
    StateT.lift (t.insert (k, .integer n))

end Upsert

/-! ### The server -/

structure TurnQuotaCache where
  day : Text := []
  /-- On the monotonic clock. -/
  loadedAt : ℕ := 0
  known : Bool := false
  /-- An absent tenant reads as zero. -/
  totals : Text → ℤ := fun _ => 0

/-- `turnQuotaSnapshotMaxAge`, in nanoseconds. -/
def turnQuotaSnapshotMaxAge : ℕ := 5000000000

/-- The quota, an `int64`. -/
structure Config where
  tenantDailyByteQuota : ℤ
  int64 : tenantDailyByteQuota ≤ maxInt64

/-- A map from keys to `int64`. -/
abbrev Pending := Table (Prod.fst : Text × ℤ → Text)

structure Server where
  cfg : Config
  db : Db := {}
  pendingUsage : Pending := ∅
  turnQuotaCache : Option TurnQuotaCache := some {}
  /-- The monotonic clock, in nanoseconds. -/
  now : ℕ := 0
  /-- What `recordRelayUsage` counted so far: tenant, broker, day and bytes. -/
  recorded : List (Text × Text × Text × ℤ) := []
  /-- When the last refresh ended, and whether it succeeded. -/
  refreshed : Option (ℕ × Bool) := none

namespace Server

def recordTURNQuotaUsageLocked (s : Server) (tenant day : Text) (n : ℤ) : Server :=
  if s.cfg.tenantDailyByteQuota = 0 ∨ n ≤ 0 then s
  else match s.turnQuotaCache with
    | some cache =>
      if cache.known ∧ cache.day = day then
        { s with turnQuotaCache := some { cache with
            totals := Function.update cache.totals tenant
              (addTURNQuotaBytes (cache.totals tenant) n) } }
      else s
    | none => s

/-- `pendingUsage[key]`. -/
def pending (s : Server) (key : Text) : ℤ := ((s.pendingUsage.get key).map (·.2)).getD 0

/-- The clock was read, as `t`, before the lock. -/
def recordRelayUsage (s : Server) (tenant broker : Text) (t : Instant) (n : ℤ) : Server :=
  if n ≤ 0 then s
  else
    let bucket := bucketOf t
    let key := usageKey tenant broker t
    let s := { s with
      pendingUsage := s.pendingUsage.assign (key, wrap64 (s.pending key + n))
      recorded := s.recorded ++ [(tenant, broker, bucket.take 10, n)] }
    s.recordTURNQuotaUsageLocked tenant (bucket.take 10) n

end Server

/-- What `flushUsage` does for one pending key. -/
def flushKey (db : Db) (row : Text × ℤ) : Tx Db :=
  match splitN '|' 3 row.1 with
  | [tenant, broker, bucket] => do
    let day := bucket.take 10
    let usageDaily ← upsert db.usageDaily (tenant, day) row.2
    let usageBuckets ← upsert db.usageBuckets (tenant, bucket) row.2
    let db := { db with usageDaily, usageBuckets }
    if broker ≠ [] then
      let brokerUsageDaily ← upsert db.brokerUsageDaily (tenant, broker, day) row.2
      let brokerUsageBuckets ← upsert db.brokerUsageBuckets (tenant, broker, bucket) row.2
      pure { db with brokerUsageDaily, brokerUsageBuckets }
    else pure db
  | _ => StateT.lift none

/-- `order` is how the map is walked, `cutoff` the clock 31 days ago. -/
def flushTx (db : Db) (order : List (Text × ℤ)) (cutoff : Instant) : Tx Db := do
  call  -- `Begin`
  let db ← order.foldlM flushKey db
  call
  let db := { db with
    usageBuckets := db.usageBuckets.delete fun r => decide (r.1.2 < rfc3339 cutoff) }
  call
  let db := { db with
    brokerUsageBuckets := db.brokerUsageBuckets.delete fun r => decide (r.1.2.2 < rfc3339 cutoff) }
  call  -- `Commit`
  pure db

/-- The totals of a day; fails on a number that is no `int64`. -/
def loadTotals (day : Text) (rows : List ((Text × Text) × Value)) : Option (Text → ℤ) :=
  (rows.filter fun r => r.1.2 = day).foldlM
    (fun totals r => r.2.scan.map (Function.update totals r.1.1)) fun _ => 0

def addPending (day : Text) (totals : Text → ℤ) (row : Text × ℤ) : Option (Text → ℤ) :=
  match splitN '|' 3 row.1 with
  | [tenant, _, bucket] =>
    if bucket.length < 10 ∨ row.2 < 0 then none
    else if bucket.take 10 = day then
      some (Function.update totals tenant (addTURNQuotaBytes (totals tenant) row.2))
    else some totals
  | _ => none

namespace Server

/-- `flushUsage`, of which the first `left` calls succeed. -/
def flushUsage (s : Server) (order : List (Text × ℤ)) (left : ℕ) (cutoff : Instant) : Server :=
  if s.pendingUsage.rows = [] then s
  else match flushTx s.db order cutoff left with
    | some (db, _) => { s with db, pendingUsage := ∅ }
    | none => s

/-- `ok` tells whether the query succeeds, `took` how long it takes. -/
def refreshTURNQuotaUsage (s : Server) (t : Instant) (ok : Bool) (order : List (Text × ℤ))
    (took : ℕ) : Server :=
  if s.cfg.tenantDailyByteQuota = 0 then s
  else
    let cache := { s.turnQuotaCache.getD {} with known := false }
    let now := s.now + took
    let day := dayOf t
    let failed := { s with turnQuotaCache := some cache, now, refreshed := some (now, false) }
    if ok then
      match (loadTotals day s.db.usageDaily.rows).bind (order.foldlM (addPending day)) with
      | some totals => { s with
          turnQuotaCache := some { day, loadedAt := now, known := true, totals }
          now
          refreshed := some (now, true) }
      | none => failed
    else failed

def authorizeTURNQuota (s : Server) (t : Instant) (tenant : Text) : Bool :=
  s.cfg.tenantDailyByteQuota = 0 ||
    s.turnQuotaCache.any fun cache =>
      cache.known && cache.day = dayOf t && !decide (s.now < cache.loadedAt) &&
        s.now - cache.loadedAt < turnQuotaSnapshotMaxAge &&
        cache.totals tenant < s.cfg.tenantDailyByteQuota

end Server

inductive Event where
  | record (tenant broker : Id) (t : Instant) (n : ℤ)
  | flush (order : List (Text × ℤ)) (left : ℕ) (cutoff : Instant)
  | refresh (t : Instant) (ok : Bool) (order : List (Text × ℤ)) (took : ℕ)
  | elapse (time : ℕ)

/-- The sections under `usageMu`. -/
def Server.step (s : Server) : Event → Server
  | .record tenant broker t n => s.recordRelayUsage tenant.text broker.text t n
  | .flush order left cutoff =>
    if order.Perm s.pendingUsage.rows then s.flushUsage order left cutoff else s
  | .refresh t ok order took =>
    if order.Perm s.pendingUsage.rows then s.refreshTURNQuotaUsage t ok order took else s
  | .elapse time => { s with now := s.now + time }

end OhecoBroker.Usage
