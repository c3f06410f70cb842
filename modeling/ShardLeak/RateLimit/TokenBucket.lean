/-
# The token bucket check

The script of `internal/ratelimit/token_bucket.go` and the function that sends it.

The script reads the two fields of the bucket, refills it for the time since the last check, takes
a token if there is a whole one, and writes the bucket and its TTL.  It is written here as it
stands, command by command, over any kind of numbers; `refill`, `spend` and `secsToFull` are its
three computations.  The rate per millisecond and the TTL of twice the window are computed in Go,
and are arguments of the script.

The script has three kinds of runs (`BucketRun`): the key has the wrong type and nothing happens;
the TTL is accepted, and the bucket is stored with it; or it is refused, and the script fails
after the bucket was stored.  What is proved about checks uses these runs.
-/
import ShardLeak.RateLimit.Types

namespace ShardLeak

namespace RateLimit

open Lua Redis

/-- The fields `tokens` and `last_ms` of a bucket's hash. -/
structure BucketFields (α : Type) where
  tokens : α
  lastMs : α
deriving DecidableEq

variable {α : Type} [Number α]

/-- The tokens of the bucket at `nowMs`, after the refill. -/
def refill (capacity ratePerMs nowMs : α) (data : Option (BucketFields α)) : α :=
  let tokens := match data with
    | none => capacity
    | some d => d.tokens
  let lastMs := match data with
    | none => nowMs
    | some d => d.lastMs
  let elapsedMs := Lua.max (num 0) (nowMs - lastMs)
  Lua.min capacity (tokens + elapsedMs * ratePerMs)

/-- The decision on the refilled tokens: `allowed`, the tokens left, and `retry_after_sec`. -/
def spend (ratePerMs ttlSecs tokens : α) : α × α × α :=
  if num 1 ≤ tokens then (num 1, tokens - num 1, num 0)
  else if num 0 < ratePerMs then
    (num 0, tokens, Number.ceil ((num 1 - tokens) / ratePerMs / num 1000))
  else (num 0, tokens, ttlSecs)

/-- `secs_to_full`. -/
def secsToFull (capacity ratePerMs tokens : α) : α :=
  if tokens < capacity ∧ num 0 < ratePerMs then
    Number.ceil ((capacity - tokens) / ratePerMs / num 1000)
  else num 0

/-- The four numbers that the script returns when the bucket holds `tokens` after the refill. -/
def bucketReply (capacity ratePerMs nowMs ttlSecs tokens : α) : List ℤ :=
  let (allowed, left, retryAfterSec) := spend ratePerMs ttlSecs tokens
  let resetAt := Number.floor (nowMs / num 1000) + secsToFull capacity ratePerMs left
  [Number.toReply allowed, Number.toReply (Number.floor left), Number.toReply resetAt,
    Number.toReply retryAfterSec]

/-- `tokenBucketLua`. -/
def tokenBucketLua (key : String) (capacity ratePerMs nowMs ttlSecs : α) :
    Script (BucketFields α) (List ℤ) := do
  let data ← hmget key
  let tokens := refill capacity ratePerMs nowMs data
  let left := (spend ratePerMs ttlSecs tokens).2.1
  hset key ⟨Number.reread left, Number.reread nowMs⟩
  expire key (Number.toArg ttlSecs)
  pure (bucketReply capacity ratePerMs nowMs ttlSecs tokens)

/-! ## What the script does -/

section Script

variable (key : String) (capacity ratePerMs nowMs ttlSecs : α) {c : Clock}
  {ks : Keyspace (BucketFields α)}

/-- What the script stores when it read `data`. -/
def storedFields (data : Option (BucketFields α)) : BucketFields α :=
  ⟨Number.reread (spend ratePerMs ttlSecs (refill capacity ratePerMs nowMs data)).2.1,
    Number.reread nowMs⟩

lemma tokenBucketLua_wrongType {e : Redis.Error} (h : ((hmget key).run c ks).1 = .error e) :
    (tokenBucketLua key capacity ratePerMs nowMs ttlSecs).run c ks = (.error e, ks) :=
  Script.bind_error (Prod.ext h hmget_snd)

lemma tokenBucketLua_accepted {data : Option (BucketFields α)} {s : ℤ}
    (h : ((hmget key).run c ks).1 = .ok data) (harg : Number.toArg ttlSecs = some s)
    (hfits : TimeFits c.now s) :
    (tokenBucketLua key capacity ratePerMs nowMs ttlSecs).run c ks =
      (.ok (bucketReply capacity ratePerMs nowMs ttlSecs (refill capacity ratePerMs nowMs data)),
        ks.expireEntry c key (.hash (storedFields capacity ratePerMs nowMs ttlSecs data))
          (c.now + s * 1000)) := by
  have hexpire : (expire key (Number.toArg ttlSecs)).run c (ks.insert key
      ⟨.hash (storedFields capacity ratePerMs nowMs ttlSecs data), ks.expiryOf c key⟩) =
      (.ok (), ks.expireEntry c key (.hash (storedFields capacity ratePerMs nowMs ttlSecs data))
        (c.now + s * 1000)) := by
    rw [harg]
    exact expireGeneric_insert hfits (isLive_of_find _)
  rw [tokenBucketLua, Script.bind_ok (Prod.ext h hmget_snd)]
  simp only
  rw [Script.bind_ok (hset_of_hmget h _)]
  exact Script.bind_ok hexpire

/-- With a refused TTL the script fails after it stored the bucket. -/
lemma tokenBucketLua_refused {data : Option (BucketFields α)}
    (h : ((hmget key).run c ks).1 = .ok data) (hacc : ¬ Accepted c.now (Number.toArg ttlSecs)) :
    ∃ e ≠ Redis.Error.wrongType,
      (tokenBucketLua key capacity ratePerMs nowMs ttlSecs).run c ks =
      (.error e, ks.insert key
        ⟨.hash (storedFields capacity ratePerMs nowMs ttlSecs data), ks.expiryOf c key⟩) := by
  obtain ⟨e, hne, he⟩ := expireGeneric_refused hacc "expire" key c (ks.insert key
    ⟨.hash (storedFields capacity ratePerMs nowMs ttlSecs data), ks.expiryOf c key⟩)
  refine ⟨e, hne, ?_⟩
  rw [tokenBucketLua, Script.bind_ok (Prod.ext h hmget_snd)]
  simp only
  rw [Script.bind_ok (hset_of_hmget h _)]
  exact Script.bind_error he

/-- The runs of the script on the bucket `key`, with what the script wrote. -/
inductive BucketRun (c : Clock) (ks : Keyspace (BucketFields α)) (key : String)
    (capacity ratePerMs nowMs ttlSecs : α) :
    Except Redis.Error (List ℤ) × Keyspace (BucketFields α) → Prop
  | wrongType {n : ℤ} {t : Option ℤ} (hfind : ks.find c key = some ⟨.string n, t⟩) :
      BucketRun c ks key capacity ratePerMs nowMs ttlSecs (.error .wrongType, ks)
  | stored {data : Option (BucketFields α)} {s : ℤ} (hdata : ((hmget key).run c ks).1 = .ok data)
      (harg : Number.toArg ttlSecs = some s) (hfits : TimeFits c.now s) :
      BucketRun c ks key capacity ratePerMs nowMs ttlSecs
        (.ok (bucketReply capacity ratePerMs nowMs ttlSecs (refill capacity ratePerMs nowMs data)),
          ks.expireEntry c key (.hash (storedFields capacity ratePerMs nowMs ttlSecs data))
            (c.now + s * 1000))
  | unbounded {data : Option (BucketFields α)} {e : Redis.Error} (hne : e ≠ .wrongType)
      (hdata : ((hmget key).run c ks).1 = .ok data)
      (hacc : ¬ Accepted c.now (Number.toArg ttlSecs)) :
      BucketRun c ks key capacity ratePerMs nowMs ttlSecs
        (.error e, ks.insert key
          ⟨.hash (storedFields capacity ratePerMs nowMs ttlSecs data), ks.expiryOf c key⟩)

/-- **Every run of the script is one of these.** -/
theorem tokenBucketLua_run :
    BucketRun c ks key capacity ratePerMs nowMs ttlSecs
      ((tokenBucketLua key capacity ratePerMs nowMs ttlSecs).run c ks) := by
  rcases hdata : ((hmget key).run c ks).1 with e | data
  · obtain ⟨n, t, hfind, rfl⟩ := hmget_eq_error hdata
    rw [tokenBucketLua_wrongType _ _ _ _ _ hdata]
    exact .wrongType hfind
  · by_cases hacc : Accepted c.now (Number.toArg ttlSecs)
    · obtain ⟨s, harg, hfits⟩ := hacc
      rw [tokenBucketLua_accepted _ _ _ _ _ hdata harg hfits]
      exact .stored hdata harg hfits
    · obtain ⟨e, hne, he⟩ :=
        tokenBucketLua_refused key capacity ratePerMs nowMs ttlSecs hdata hacc
      rw [he]
      exact .unbounded hne hdata hacc

end Script

/-- The key of an identifier's bucket. -/
def tbKey (identifier : String) : String := "shardleak:rate:tb:" ++ identifier

/-- `float64(req.Limit) / float64(req.WindowSeconds) / 1000.0`. -/
def ratePerMs (req : Request) : α := num req.limit / num req.windowSeconds / num 1000

/-- `req.WindowSeconds * 2`. -/
def ttlSecs (req : Request) : ℤ := goInt (req.windowSeconds * 2)

/-- `checkTokenBucket`. -/
def checkTokenBucket (P : Expiry) (req : Request) (s : Stamp) (ks : Keyspace (BucketFields α)) :
    Except CheckError Result × Keyspace (BucketFields α) :=
  match (tokenBucketLua (tbKey req.identifier) (num req.limit) (ratePerMs req) (num s.nowMs)
      (num (ttlSecs req))).run ⟨s.redisMs, P⟩ ks with
  | (.error e, ks') => (.error (.tokenBucketRedis e), ks')
  | (.ok vals, ks') => (parseResult vals req.limit, ks')

end RateLimit

end ShardLeak
