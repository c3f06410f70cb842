/-
# The rate limiting service

`Service.Check` of `internal/ratelimit/service.go` as a machine: its events are the calls in
the order in which their scripts reach Redis, its state is the database.

A run of the machine is a history of all instances of the API at once: they share nothing but
Redis, which runs one script at a time.  So any interleaving of concurrent requests is a list of
calls, and the stamps of the calls need not be in the order of the list.

Each call brings its own limit and window, as the API takes them from the body of every request.
The theorems on the limiter are about such lists, with the conditions that they need on the
stamps, the configurations or the expiries as hypotheses.
-/
import ShardLeak.Lib.Machine
import ShardLeak.RateLimit.FixedWindow

namespace ShardLeak

namespace RateLimit

open Lua Redis

variable {α : Type} [Number α]

/-- `Service.Check`. -/
def Service.check (P : Expiry) (ks : Keyspace (BucketFields α)) (c : Call) :
    Except CheckError Result × Keyspace (BucketFields α) :=
  match c.req.algorithm with
  | .tokenBucket => checkTokenBucket P c.req c.stamp ks
  | .fixedWindow => checkFixedWindow P c.req c.stamp ks
  | .other name => (.error (.unsupportedAlgorithm (.other name)), ks)

/-- The service as a machine. -/
def service (α : Type) [Number α] (P : Expiry) :
    Machine (Keyspace (BucketFields α)) Call (Except CheckError Result) := ⟨Service.check P⟩

@[simp] lemma service_step (P : Expiry) (ks : Keyspace (BucketFields α)) (c : Call) :
    (service α P).step ks c = Service.check P ks c := rfl

/-- The calls that carry one request. -/
def calls (req : Request) (ss : List Stamp) : List Call := ss.map (Call.mk req)

/-- The number of calls of a log that satisfy `q` and were allowed. -/
def allowedOf (q : Call → Prop) [DecidablePred q]
    (l : List (Call × Except CheckError Result)) : ℕ :=
  l.countP fun p => admitted p.2 && decide (q p.1)

lemma allowedOf_snoc {q : Call → Prop} [DecidablePred q] {c : Call} (hc : q c)
    (l : List (Call × Except CheckError Result)) (r : Except CheckError Result) :
    allowedOf q (l ++ [(c, r)]) = allowedOf q l + (admitted r).toNat := by
  cases h : admitted r <;> simp [allowedOf, List.countP_append, hc, h]

lemma allowedOf_snoc_of_not {q : Call → Prop} [DecidablePred q] {c : Call} (hc : ¬ q c)
    (l : List (Call × Except CheckError Result)) (r : Except CheckError Result) :
    allowedOf q (l ++ [(c, r)]) = allowedOf q l := by
  simp [allowedOf, List.countP_append, hc]

end RateLimit

end ShardLeak
