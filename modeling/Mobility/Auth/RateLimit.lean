import Mobility.Lib.Expiring
import Mobility.Lib.Machine

/-!
# RateLimit — the login limiter on Redis (`core/rate_limit.py`)

Every script runs alone, so one script is one step.  The sign-in handlers reserve an
attempt, check the password, and then either record the failure or release the success,
at most one of the two.  Keys are named by the address or by the normalized email, from
which the source builds their texts.
-/

namespace Mobility
namespace Auth

open Lib Lib.Expiring

inductive Key (Ip Email : Type)
  | ip (ip : Ip)
  | acct (email : Email)
  | global
  | notify (key : Key Ip Email)
  deriving DecidableEq, Repr

/-- The limits and windows are positive constants of `Settings`. -/
structure Settings where
  loginRateLimitIpMaxFailures : Nat := 150
  loginRateLimitIpWindowSeconds : Nat := 300
  loginRateLimitAccountMaxFailures : Nat := 5
  loginRateLimitAccountWindowSeconds : Nat := 900
  loginRateLimitGlobalMaxFailures : Nat := 250
  loginRateLimitGlobalWindowSeconds : Nat := 300
  ipWindow_pos : 0 < loginRateLimitIpWindowSeconds := by decide
  accountWindow_pos : 0 < loginRateLimitAccountWindowSeconds := by decide
  globalWindow_pos : 0 < loginRateLimitGlobalWindowSeconds := by decide

/-- A key with its limit and window: the arguments of a script. -/
structure Bucket (K : Type) where
  key : K
  limit : Nat
  window : Nat
  deriving Repr

section Scripts

variable {Ip Email : Type} [DecidableEq Ip] [DecidableEq Email]

abbrev Redis (Ip Email : Type) := Store (Key Ip Email)

/-! ## The scripts -/

/-- The key's time to live, set to the window first where the key has none. -/
def ttlOrWindow (r : Redis Ip Email) (bucket : Bucket (Key Ip Email)) : Redis Ip Email × Int :=
  if r.ttl bucket.key < 0 then (r.expire bucket.key bucket.window, bucket.window)
  else (r, r.ttl bucket.key)

/-- What the script answers when bucket `i` is full, marking that it was reported. -/
def blockedReply (r : Redis Ip Email) (i : Nat) (bucket : Bucket (Key Ip Email)) :
    Redis Ip Email × List Int :=
  let (r, ttl) := ttlOrWindow r bucket
  let (r, notified) := r.setNxEx (.notify bucket.key) (max ttl 1)
  (r, [0, i, ttl, if notified then 1 else 0])

/-- `INCR`, with `EXPIRE` where that made the counter one. -/
def countAttempt (r : Redis Ip Email) (bucket : Bucket (Key Ip Email)) : Redis Ip Email :=
  let (r, value) := r.incr bucket.key
  if value = 1 then r.expire bucket.key bucket.window else r

/-- `RESERVE_LOGIN_ATTEMPT`. -/
def reserveLoginAttempt (r : Redis Ip Email) (ip account : Bucket (Key Ip Email)) :
    Redis Ip Email × List Int :=
  if (ip.limit : Int) ≤ r.get ip.key then blockedReply r 1 ip
  else if (account.limit : Int) ≤ r.get account.key then blockedReply r 2 account
  else (countAttempt (countAttempt r ip) account, [1, 0, 0, 0])

/-- `RECORD_LOGIN_FAILURE`. -/
def recordLoginFailure (r : Redis Ip Email) (global : Bucket (Key Ip Email)) :
    Redis Ip Email × Int :=
  let (r, value) := r.incr global.key
  let (r, ttl) := ttlOrWindow r global
  if value < global.limit then (r, 0)
  else
    let (r, alerted) := r.setNxEx (.notify global.key) (max ttl 1)
    (r, if alerted then 1 else 0)

/-- `RELEASE_LOGIN_SUCCESS`. -/
def releaseLoginSuccess (r : Redis Ip Email) (ip account : Key Ip Email) : Redis Ip Email :=
  let r := r.del account
  if 0 < r.get ip then r.decr ip else r

/-! ## What the limiter makes of a reply -/

inductive BucketName
  | ip
  | account
  | storage
  deriving DecidableEq, Repr

structure RateLimitDecision where
  allowed : Bool
  bucket : Option BucketName := none
  retryAfterSeconds : Int := 0
  newlyBlocked : Bool := false
  storageAvailable : Bool := true
  deriving DecidableEq, Repr

/-- Redis failed, or answered what the script does not answer. -/
def storageUnavailable : RateLimitDecision :=
  { allowed := false
    bucket := some .storage
    retryAfterSeconds := 60
    storageAvailable := false }

def bucketName : Int → Option BucketName
  | 1 => some .ip
  | 2 => some .account
  | _ => none

/-- The reply as `RedisLoginRateLimiter.reserve` reads it. -/
def decisionOf : List Int → RateLimitDecision
  | [granted, i, ttl, notified] =>
      if [granted, i, ttl, notified] = [1, 0, 0, 0] then { allowed := true }
      else if granted ≠ 0 ∨ ttl < 1 ∨ (notified ≠ 0 ∧ notified ≠ 1) then storageUnavailable
      else
        match bucketName i with
        | none => storageUnavailable
        | some bucket =>
            { allowed := false
              bucket := some bucket
              retryAfterSeconds := max ttl 1
              newlyBlocked := notified = 1 }
  | _ => storageUnavailable

/-! ## The limiter and its clients -/

variable (settings : Settings) (normalizeEmail : Email → Email)

def ipBucket (ip : Ip) : Bucket (Key Ip Email) :=
  { key := .ip ip
    limit := settings.loginRateLimitIpMaxFailures
    window := settings.loginRateLimitIpWindowSeconds }

def accountBucket (email : Email) : Bucket (Key Ip Email) :=
  { key := .acct (normalizeEmail email)
    limit := settings.loginRateLimitAccountMaxFailures
    window := settings.loginRateLimitAccountWindowSeconds }

def globalBucket : Bucket (Key Ip Email) :=
  { key := .global
    limit := settings.loginRateLimitGlobalMaxFailures
    window := settings.loginRateLimitGlobalWindowSeconds }

inductive Outcome
  | pending
  | failed
  | released
  deriving DecidableEq, Repr

/-- A sign-in attempt that ran the reserve script, the lifetime of its address's counter
it ran in, and what the handler was told. -/
structure Attempt (Ip Email : Type) where
  ip : Ip
  email : Email
  lifetime : Nat
  decision : RateLimitDecision
  outcome : Outcome := .pending
  deriving DecidableEq, Repr

/-- Redis, how often each address's counter was made, and the attempts so far. -/
structure LoginLimiter (Ip Email : Type) where
  redis : Redis Ip Email := {}
  lifetimes : Ip → Nat := fun _ => 0
  attempts : List (Attempt Ip Email) := []

inductive Action (Ip Email : Type)
  | reserve (ip : Ip) (email : Email) (delivered : Bool)
  | recordFailure (attempt : Nat)
  | releaseSuccess (attempt : Nat)
  | wait (elapsed : Nat)
  | expire (key : Key Ip Email)
  deriving DecidableEq, Repr

/-- An allowed attempt whose handler did neither yet. -/
def demandPending (s : LoginLimiter Ip Email) (attempt : Nat) :
    Except Unit (Attempt Ip Email) := do
  let made ← demand (s.attempts[attempt]?) ⟨⟩
  require (made.decision.allowed = true ∧ made.outcome = .pending) ⟨⟩
  return made

def step (s : LoginLimiter Ip Email) : Action Ip Email → Except Unit (LoginLimiter Ip Email)
  | .reserve ip email delivered => do
      let (redis, reply) := reserveLoginAttempt s.redis (ipBucket settings ip)
        (accountBucket settings normalizeEmail email)
      -- a counter that was missing starts a lifetime
      let lifetimes :=
        if (s.redis.entries (.ip ip)).isNone ∧ (redis.entries (.ip ip)).isSome then
          Function.update s.lifetimes ip (s.lifetimes ip + 1)
        else s.lifetimes
      -- a reply that is lost on its way refuses the attempt, which stays counted
      let decision := if delivered then decisionOf reply else storageUnavailable
      return { redis := redis
               lifetimes := lifetimes
               attempts := s.attempts ++
                [{ ip := ip, email := email, lifetime := lifetimes ip, decision := decision }] }
  | .recordFailure attempt => do
      let made ← demandPending s attempt
      return { s with
        redis := (recordLoginFailure s.redis (globalBucket settings)).1
        attempts := s.attempts.set attempt { made with outcome := .failed } }
  | .releaseSuccess attempt => do
      let made ← demandPending s attempt
      return { s with
        redis := releaseLoginSuccess s.redis (.ip made.ip) (.acct (normalizeEmail made.email))
        attempts := s.attempts.set attempt { made with outcome := .released } }
  | .wait elapsed =>
      return { s with redis := { s.redis with now := s.redis.now + elapsed } }
  | .expire key => do
      require (s.redis.Due key) ⟨⟩
      return { s with redis := s.redis.del key }

/-- Every interleaving of the scripts, from any number of clients and addresses. -/
def logins : Machine (LoginLimiter Ip Email) (Action Ip Email) Unit :=
  { init := {}, step := step settings normalizeEmail }

end Scripts

end Auth
end Mobility
