/-
# What every reachable database satisfies

Counters are positive in every run.  That every key has an expiry, and that a failed check
leaves no trace, holds in the runs whose expiry times Redis accepts: both scripts write first
and set the expiry afterwards.

The proofs go over the runs of the two scripts.  A counter is positive since it is written by
`INCR` only, and it starts at zero.  For the two other facts, `Expires` is the condition on a
check that its expiry is one that Redis takes: for the bucket the TTL that the service computed,
for the counter the end of its window as the script computes it.  Where it fails, a first check
leaves a key that stays for ever, and the check is answered with an error all the same.
-/
import ShardLeak.RateLimit.Service

namespace ShardLeak

namespace RateLimit

open Lua Redis

variable {α : Type}

/-- An entry that is no counter, or a positive one. -/
def Positive (_ : String) (e : Entry (BucketFields α)) : Prop := ∀ n, e.value = .string n → 1 ≤ n

lemma positive_hash (k : String) (h : BucketFields α) (t : Option ℤ) :
    Positive k ⟨.hash h, t⟩ := by
  rintro n ⟨⟩

lemma positive_string (k : String) {n : ℤ} (hn : 1 ≤ n) (t : Option ℤ) :
    Positive k (⟨.string n, t⟩ : Entry (BucketFields α)) := by
  rintro m ⟨⟩
  exact hn

/-- An entry with an expiry. -/
def Timed (_ : String) (e : Entry (BucketFields α)) : Prop := e.expireAt ≠ none

lemma timed_some (k : String) (v : Value (BucketFields α)) (t : ℤ) : Timed k ⟨v, some t⟩ :=
  Option.some_ne_none t

variable [Number α]

/-- The key of the counter that a request reads at a time. -/
def counterKeyAt (α : Type) [Number α] (req : Request) (s : Stamp) : String :=
  windowKey (fwKey req.identifier) (windowStart (num req.windowSeconds : α) (num s.nowSecs))

/-- `reset_at` of a request at a time. -/
def resetAt (α : Type) [Number α] (req : Request) (s : Stamp) : α :=
  windowStart (num req.windowSeconds : α) (num s.nowSecs) + num req.windowSeconds

variable {P : Expiry} {ks : Keyspace (BucketFields α)}

/-- A fixed window check is one of the runs of its script. -/
lemma checkFixedWindow_run (P : Expiry) (h : ks.All Positive) (req : Request) (s : Stamp) :
    ∃ r, WindowRun ⟨s.redisMs, P⟩ ks (counterKeyAt α req s) (num req.limit) (resetAt α req s) r ∧
      checkFixedWindow P req s ks = match r with
        | (.error e, ks') => (.error (.fixedWindowRedis e), ks')
        | (.ok vals, ks') => (parseResult vals req.limit, ks') :=
  ⟨_, fixedWindowLua_run ⟨s.redisMs, P⟩ ks (fwKey req.identifier) (num req.limit)
    (num req.windowSeconds) (num s.nowSecs) fun n _ hn => h _ _ hn n rfl, rfl⟩

/-- A token bucket check is one of the runs of its script. -/
lemma checkTokenBucket_run (P : Expiry) (ks : Keyspace (BucketFields α)) (req : Request)
    (s : Stamp) :
    ∃ r, BucketRun ⟨s.redisMs, P⟩ ks (tbKey req.identifier) (num req.limit) (ratePerMs req)
        (num s.nowMs) (num (ttlSecs req)) r ∧
      checkTokenBucket P req s ks = match r with
        | (.error e, ks') => (.error (.tokenBucketRedis e), ks')
        | (.ok vals, ks') => (parseResult vals req.limit, ks') :=
  ⟨_, tokenBucketLua_run (tbKey req.identifier) (num req.limit) (ratePerMs req) (num s.nowMs)
    (num (ttlSecs req)), rfl⟩

lemma positive_check (h : ks.All Positive) (c : Call) :
    (Service.check P ks c).2.All Positive := by
  rw [Service.check]
  split
  · obtain ⟨r, hrun, hcheck⟩ := checkTokenBucket_run P ks c.req c.stamp
    rw [hcheck]
    cases hrun with
    | wrongType hfind => exact h
    | stored hdata harg hfits => exact h.expireEntry (positive_hash _ _ _)
    | unbounded hne hdata hacc => exact h.insert (positive_hash _ _ _)
  · obtain ⟨r, hrun, hcheck⟩ := checkFixedWindow_run P h c.req c.stamp
    rw [hcheck]
    cases hrun with
    | wrongType hfind => exact h
    | overflow => exact h
    | refused hget hcount => exact h
    | counted hfind hpos hcount => exact h.insert (positive_string _ (by omega) _)
    | opened hfind hcount harg hfits => exact h.expireEntry (positive_string _ le_rfl _)
    | unbounded hne hfind hcount hacc => exact h.insert (positive_string _ le_rfl _)
  · exact h

/-- **Counters are positive.** -/
theorem positive_final (h : ks.All Positive) (cs : List Call) :
    ((service α P).final ks cs).All Positive :=
  (service α P).final_of_forall (I := Keyspace.All Positive) (fun _ c h => positive_check h c) h cs

/-! ## Expiry -/

/-- The expiry that the check sets is accepted by Redis, or none is set. -/
def Expires (P : Expiry) (ks : Keyspace (BucketFields α)) (c : Call) : Prop :=
  match c.req.algorithm with
  | .tokenBucket => Accepted c.stamp.redisMs (Number.toArg (num (ttlSecs c.req) : α))
  | .fixedWindow =>
    ks.find ⟨c.stamp.redisMs, P⟩ (counterKeyAt α c.req c.stamp) ≠ none ∨
      Accepted 0 (Number.toArg (resetAt α c.req c.stamp))
  | .other _ => True

lemma parseResult_bucketReply_ne_error (capacity rate nowMs ttl tokens : α) (L : ℤ)
    (e : CheckError) : parseResult (bucketReply capacity rate nowMs ttl tokens) L ≠ .error e := by
  rintro ⟨⟩

lemma parseResult_windowReply_ne_error (limit reset count allowed retry : α) (L : ℤ)
    (e : CheckError) : parseResult (windowReply limit reset count allowed retry) L ≠ .error e := by
  rintro ⟨⟩

lemma check_of_expires (hpos : ks.All Positive) (h : ks.All Timed) {c : Call}
    (hc : Expires P ks c) :
    (∀ e, (Service.check P ks c).1 = .error e → (Service.check P ks c).2 = ks) ∧
      (Service.check P ks c).2.All Timed := by
  cases halg : c.req.algorithm with
  | tokenBucket =>
    obtain ⟨r, hrun, hcheck⟩ := checkTokenBucket_run P ks c.req c.stamp
    simp only [Expires, halg] at hc
    simp only [Service.check, halg, hcheck]
    cases hrun with
    | wrongType hfind => exact ⟨fun _ _ => rfl, h⟩
    | stored hdata harg hfits =>
      refine ⟨fun e he => absurd he ?_, h.expireEntry (timed_some _ _ _)⟩
      exact parseResult_bucketReply_ne_error _ _ _ _ _ _ e
    | unbounded hne hdata hacc =>
      -- the one run that leaves a trace: the bucket was stored before its TTL was refused
      exact absurd hc hacc
  | fixedWindow =>
    obtain ⟨r, hrun, hcheck⟩ := checkFixedWindow_run P hpos c.req c.stamp
    simp only [Expires, halg] at hc
    simp only [Service.check, halg, hcheck]
    cases hrun with
    | wrongType hfind => exact ⟨fun _ _ => rfl, h⟩
    | overflow => exact ⟨fun _ _ => rfl, h⟩
    | refused hget hcount => exact ⟨fun _ _ => rfl, h⟩
    | counted hfind hn hcount =>
      refine ⟨fun e he => absurd he ?_, h.insert ?_⟩
      · exact parseResult_windowReply_ne_error _ _ _ _ _ _ e
      · have hold : Timed _ _ := h.of_find hfind
        exact hold
    | opened hfind hcount harg hfits =>
      refine ⟨fun e he => absurd he ?_, h.expireEntry (timed_some _ _ _)⟩
      exact parseResult_windowReply_ne_error _ _ _ _ _ _ e
    | unbounded hne hfind hcount hacc =>
      -- the counter was opened before its expiry was refused
      rcases hc with hlive | hacc'
      · exact absurd hfind hlive
      · exact absurd hacc' hacc
  | other name =>
    have hstate : (Service.check P ks c).2 = ks := by simp only [Service.check, halg]
    rw [hstate]
    exact ⟨fun _ _ => rfl, h⟩

/-- In a run, a check that fails leaves every key as it was, and every key has an expiry. -/
def NoTrace (α : Type) [Number α] (P : Expiry) (cs : List Call) : Prop :=
  (∀ (i : ℕ) (e : CheckError), ((service α P).outputs .empty cs)[i]? = some (.error e) →
    (service α P).final .empty (cs.take (i + 1)) = (service α P).final .empty (cs.take i)) ∧
  ((service α P).final .empty cs).All Timed

/-- A window whose end is no time for Redis: the counter is written and then its expiry is
refused, so that it stays for good. -/
theorem not_noTrace_long_window :
    (Request.mk "user:1" 1 (10 ^ 16) .fixedWindow).Valid ∧
      ¬ NoTrace ℚ .past [⟨⟨"user:1", 1, 10 ^ 16, .fixedWindow⟩, .sync 0⟩] := by
  refine ⟨⟨by decide, by decide, by decide, by decide⟩, fun h => ?_⟩
  exact h.2 "shardleak:rate:fw:user:1:0" ⟨.string 1, none⟩ (by decide +kernel) rfl

/-- **In a run whose expiry times are accepted, a failed check leaves no trace and every key has
an expiry.** -/
theorem noTrace_of_expires (P : Expiry) (cs : List Call)
    (hcs : (service α P).Along (Expires P) .empty cs) : NoTrace α P cs := by
  have hinv : ∀ ds, (service α P).Along (Expires P) .empty ds →
      ((service α P).final .empty ds).All Positive ∧ ((service α P).final .empty ds).All Timed :=
    fun ds hds => (service α P).final_invariant (I := fun ks => ks.All Positive ∧ ks.All Timed)
      (fun ks c h hc => ⟨positive_check h.1 c, (check_of_expires h.1 h.2 hc).2⟩)
      ⟨Keyspace.all_empty, Keyspace.all_empty⟩ hds
  constructor
  · intro i e he
    obtain ⟨ho, herr⟩ := List.getElem?_eq_some_iff.1 he
    have hi : i < cs.length := by simpa using ho
    obtain ⟨hbefore, hat⟩ := (service α P).along_getElem hcs i hi
    obtain ⟨hpos, htimed⟩ := hinv _ hbefore
    rw [Machine.outputs_getElem _ _ _ _ hi] at herr
    rw [Machine.final_take_succ _ _ _ _ hi]
    exact (check_of_expires hpos htimed hat).1 e herr
  · exact (hinv cs hcs).2

/-- A bucket and a counter with windows of a minute. -/
theorem noTrace_minutes : NoTrace ℚ .past
    [⟨⟨"user:1", 5, 60, .tokenBucket⟩, .sync 0⟩, ⟨⟨"user:1", 5, 60, .fixedWindow⟩, .sync 0⟩] :=
  noTrace_of_expires .past _ ⟨⟨120, by decide +kernel, by decide⟩,
    .inr ⟨60, by decide +kernel, by decide⟩, trivial⟩

end RateLimit

end ShardLeak
