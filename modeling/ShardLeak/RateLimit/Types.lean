/-
# Requests and results of the rate limiter

The types of `internal/ratelimit/types.go`, the errors of its service, and the reading of a
script's reply.

A `Call` adds the two clocks that a check reads.  The API instance stamps the request before it
sends the script, and Redis has its own time when the script runs; the source never compares the
two, and the model does not either.  `Stamp.sync` is the special case in which they agree.

The integers of Go have 64 bits, and are converted where the source converts them: the TTL of a
bucket is computed in Go and may wrap around (`goInt`), while limits and windows arrive as they
were decoded.  A script's reply is a list of integers, of which `parseResult` reads the first
four.
-/
import ShardLeak.Redis.Script

namespace ShardLeak

namespace RateLimit

/-- `Algorithm`: a string type with two constants. -/
inductive Algorithm where
  | tokenBucket
  | fixedWindow
  | other (name : String)
deriving DecidableEq

/-- The conversion from a string. -/
def Algorithm.ofString : String → Algorithm
  | "token_bucket" => .tokenBucket
  | "fixed_window" => .fixedWindow
  | name => .other name

/-- The string of an algorithm. -/
def Algorithm.toString : Algorithm → String
  | .tokenBucket => "token_bucket"
  | .fixedWindow => "fixed_window"
  | .other name => name

/-- `Request`. -/
structure Request where
  identifier : String
  limit : ℤ
  windowSeconds : ℤ
  algorithm : Algorithm
deriving DecidableEq

/-- The requests that the handler passes on to the service: both numbers are of Go's type
`int`. -/
structure Request.Valid (req : Request) : Prop where
  identifier : req.identifier ≠ ""
  limit : 0 < req.limit ∧ Lua.FitsInt64 req.limit
  windowSeconds : 0 < req.windowSeconds ∧ Lua.FitsInt64 req.windowSeconds
  algorithm : req.algorithm = .tokenBucket ∨ req.algorithm = .fixedWindow

/-- `Result`, with `ResetAt` in Unix seconds. -/
structure Result where
  allowed : Bool
  remaining : ℤ
  limit : ℤ
  resetAt : ℤ
  /-- Seconds until the next allowed request; 0 when allowed. -/
  retryAfter : ℤ
deriving DecidableEq

/-- The errors of `Service.Check`. -/
inductive CheckError where
  | tokenBucketRedis (e : Redis.Error)
  | fixedWindowRedis (e : Redis.Error)
  | unsupportedAlgorithm (algorithm : Algorithm)
  | unexpectedLuaReturn (vals : List ℤ)
deriving DecidableEq

/-- The text of an error. -/
def CheckError.text : CheckError → String
  | .tokenBucketRedis e => "token bucket redis: " ++ e.text
  | .fixedWindowRedis e => "fixed window redis: " ++ e.text
  | .unsupportedAlgorithm a => "unsupported algorithm: " ++ a.toString
  | .unexpectedLuaReturn vals => "unexpected lua return: []interface {} " ++ reprStr vals

/-- `parseResult`: the reply `{allowed, remaining, reset_at_unix, retry_after_secs}` of a
script as a result. -/
def parseResult (vals : List ℤ) (limit : ℤ) : Except CheckError Result :=
  match vals with
  | allowed :: remaining :: resetAtUnix :: retryAfter :: _ =>
    .ok ⟨allowed == 1, remaining, limit, resetAtUnix, retryAfter⟩
  | _ => .error (.unexpectedLuaReturn vals)

/-- A number of Go's type `int`: 64-bit arithmetic wraps around. -/
def goInt (n : ℤ) : ℤ := Int.bmod n (2 ^ 64)

lemma goInt_of_fits {n : ℤ} (h : Lua.FitsInt64 n) : goInt n = n := by
  obtain ⟨h1, h2⟩ := h
  exact Int.bmod_eq_of_le (by norm_num; omega) (by norm_num; omega)

lemma fitsInt64_goInt (n : ℤ) : Lua.FitsInt64 (goInt n) := by
  have hlow := Int.le_bmod (x := n) (m := 2 ^ 64) (by norm_num)
  have hhigh := Int.bmod_lt (x := n) (m := 2 ^ 64) (by norm_num)
  norm_num at hlow hhigh
  exact ⟨hlow, hhigh⟩

/-- The two clocks of a check, in milliseconds: what the API instance reads before it sends the
script, and Redis' own time when the script runs. -/
structure Stamp where
  nowMs : ℤ
  redisMs : ℤ
deriving DecidableEq

/-- `time.Now().Unix()` at the reading of the clock. -/
def Stamp.nowSecs (s : Stamp) : ℤ := s.nowMs / 1000

/-- A script that runs at its stamped time, on clocks that agree. -/
def Stamp.sync (t : ℤ) : Stamp := ⟨t, t⟩

@[simp] lemma Stamp.sync_nowMs (t : ℤ) : (Stamp.sync t).nowMs = t := rfl

@[simp] lemma Stamp.sync_redisMs (t : ℤ) : (Stamp.sync t).redisMs = t := rfl

/-- A request together with the times of its check. -/
structure Call where
  req : Request
  stamp : Stamp
deriving DecidableEq

/-- A check that was answered with an allowed result. -/
def admitted : Except CheckError Result → Bool
  | .ok r => r.allowed
  | .error _ => false

@[simp] lemma admitted_ok (r : Result) : admitted (.ok r) = r.allowed := rfl

@[simp] lemma admitted_error (e : CheckError) : admitted (.error e) = false := rfl

end RateLimit

end ShardLeak
