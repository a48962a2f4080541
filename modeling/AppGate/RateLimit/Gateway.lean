import AppGate.Lib.Binary64
import AppGate.Lib.Redis
import AppGate.Lib.Transducer

/-!
# The gateway rate limiter

`rust-gateway/src/rate_limit.rs`. In Redis mode a check is four commands on the sorted set of its
identity, each a round trip of its own; in local mode it is one check of a single limiter from the
`governor` crate, which is a parameter here. Multiplication wraps, as in a release build.

* `prune`, `isFull`, `add`, `touch`: the four commands with their arguments;
* `checkRedisKey`, `checkRedis`: the commands of one call, one after another;
* `checkLocal`, `newLocal`, `new`, `check`: `RateLimiterService`.
-/

set_option autoImplicit false

namespace AppGate.RateLimiterService

open Redis

/-! ## The commands of a check -/

/-- A member `{now}:{uuid}` of a sorted set. -/
abbrev Member := UInt64 × ℕ

/-- The sorted set of an identity. -/
abbrev Window := Option (Slot (ZSet Member))

/-- `SystemTime::now()` in milliseconds, `as u64`. -/
def nowAt (clock : ℕ) : UInt64 := UInt64.ofNat clock

/-- `now.saturating_sub(window * 1000)`. -/
def windowStart (now window : UInt64) : UInt64 :=
  if now < window * 1000 then 0 else now - window * 1000

/-- `x as i64`. -/
def asI64 (x : UInt64) : ℤ := x.toInt64.toInt

/-- `ZREMRANGEBYSCORE key 0 window_start`. -/
def prune (clock : ℕ) (now window : UInt64) (k : Window) : Window :=
  zremrangebyscore clock 0 (Binary64.round (asI64 (windowStart now window))) k

/-- `ZCARD key`, and the test `count >= limit as i64`. -/
def isFull (clock : ℕ) (limit : UInt64) (k : Window) : Bool := asI64 limit ≤ zcard clock k

/-- `ZADD key now now:uuid`. -/
def add (clock : ℕ) (now : UInt64) (uuid : ℕ) (k : Window) : Window :=
  zadd clock (Binary64.round now.toNat) (now, uuid) k

/-- `EXPIRE key window`. -/
def touch (clock : ℕ) (window : UInt64) (k : Window) : Except String Window :=
  expire clock (asI64 window) k

theorem asI64_of_lt {x : UInt64} (h : x.toNat < 2 ^ 63) : asI64 x = x.toNat :=
  BitVec.toInt_eq_toNat_of_lt (show 2 * x.toNat < 2 ^ 64 by omega)

theorem toNat_windowStart (now window : UInt64) :
    (windowStart now window).toNat = now.toNat - (window * 1000).toNat := by
  unfold windowStart
  split_ifs with h
  · rw [UInt64.lt_iff_toNat_lt] at h
    show 0 = _
    omega
  · rw [UInt64.lt_iff_toNat_lt] at h
    exact UInt64.toNat_sub_of_le _ _ (by rw [UInt64.le_iff_toNat_le]; omega)

/-! ## One check -/

/-- A call of `check`: its arguments, its time and the UUID it draws. -/
structure Call where
  identity : String
  limit : UInt64
  window : UInt64
  clock : ℕ
  uuid : ℕ
  deriving DecidableEq, Repr

/-- `check_redis` on the sorted set of its identity, with no other command in between. -/
def checkRedisKey : Transducer Window Call (Except String Bool) := fun k c =>
  let now := nowAt c.clock
  let k := prune c.clock now c.window k
  if isFull c.clock c.limit k then (.ok false, k)
  else
    let k := add c.clock now c.uuid k
    match touch c.clock c.window k with
    | .error err => (.error err, k)
    | .ok k => (.ok true, k)

/-- The Redis key of an identity. -/
def redisKey (identity : String) : String := "ratelimit:" ++ identity

/-- `check_redis`. -/
def checkRedis : Transducer (Db String (ZSet Member)) Call (Except String Bool) :=
  Transducer.keyed (fun c => redisKey c.identity) checkRedisKey

/-! ## The service -/

section Service

variable {G : Type} (governor : Transducer G ℕ Bool)

/-- `RateLimiterService`: the database behind the connection, and the limiter of the local mode. -/
structure Service (G : Type) where
  redis : Option (Db String (ZSet Member))
  direct : Option G

/-- `new_local`; `fresh` is `RateLimiter::direct` for 1000 cells per second. -/
def newLocal (fresh : G) : Service G := ⟨none, some fresh⟩

/-- `RateLimiterService::new`. -/
def new (fresh : G) (connect : String → Except String (Db String (ZSet Member))) :
    Option String → Except String (Service G)
  | some url =>
    if url ≠ "" then (connect url).map fun db => ⟨some db, none⟩ else .ok (newLocal fresh)
  | none => .ok (newLocal fresh)

/-- `check_local`. -/
def checkLocal : Transducer (Service G) Call (Except String Bool) := fun svc c =>
  match svc.direct with
  | some g => (.ok (governor g c.clock).1, { svc with direct := some (governor g c.clock).2 })
  | none => (.ok true, svc)

/-- `check`. -/
def check : Transducer (Service G) Call (Except String Bool) := fun svc c =>
  match svc.redis with
  | some db => ((checkRedis db c).1, { svc with redis := some (checkRedis db c).2 })
  | none => checkLocal governor svc c

end Service

end AppGate.RateLimiterService
