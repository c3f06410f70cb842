/-
# Results in range

Limits, windows and clocks may change from request to request, and keys may go at any time.
Two facts of the database are enough for every answer to be in range: no bucket holds a negative
number of tokens, and every counter is positive.  The handler passes a rejection on in a header
and in the body of its response, where the encoder of the body gives up on times after the year
9999.

The runs of this file may also lose keys (`lossyService`), so that nothing in them is assumed of
what Redis keeps.  The two facts are the invariant `Sound`, and what a check announces for a
rejection is the end of the window, or the time to a full bucket, in terms of the state before it.
From the result the response follows field by field, with one header and one field of the body
that are there exactly for a rejection.
-/
import ShardLeak.Api.Tenants
import ShardLeak.FixedWindow.Boundary
import ShardLeak.TokenBucket.Ideal

namespace ShardLeak

open RateLimit Redis

/-- A result of a check with the limit `L` and the window `W` at the second `n`. -/
structure InRange (L W n : ℤ) (r : Result) : Prop where
  allowed : r.allowed = true → 0 ≤ r.remaining ∧ r.remaining ≤ L - 1 ∧ r.retryAfter = 0
  rejected : r.allowed = false → r.remaining = 0 ∧ 1 ≤ r.retryAfter ∧ r.retryAfter ≤ W ∧
    n + r.retryAfter ≤ r.resetAt
  reset : n < r.resetAt ∧ r.resetAt ≤ n + W

/-- No bucket holds a negative number of tokens. -/
def Nonneg (_ : String) (e : Entry (BucketFields ℚ)) : Prop := ∀ d, e.value = .hash d → 0 ≤ d.tokens

variable {L W : ℤ} {P : Expiry} {ks : Keyspace (BucketFields ℚ)} {st : Stamp} {id : String}

lemma hmget_nonneg {key : String} {c : Clock} {data : Option (BucketFields ℚ)}
    (h : ks.All Nonneg) (hdata : ((hmget key).run c ks).1 = .ok data) :
    ∀ d ∈ data, 0 ≤ d.tokens := by
  rintro d rfl
  simp only [hmget] at hdata
  rcases hfind : ks.find c key with _ | ⟨n | v, t⟩
  · simp [hfind] at hdata
  · simp [hfind] at hdata
  · obtain rfl : v = d := by simpa [hfind] using hdata
    exact h.of_find hfind v rfl

/-! ## Buckets -/

namespace TokenBucket

open Bucket

/-- The refill of a bucket, whatever its limit was when it was stored and whatever the clock
says. -/
lemma refill_nonneg (hL : 1 ≤ L) (hW : 1 ≤ W) (t : ℤ) {data : Option (BucketFields ℚ)}
    (h : ∀ d ∈ data, 0 ≤ d.tokens) : 0 ≤ refill (L : ℚ) (rate L W) t data := by
  have hr := rate_pos hL hW
  have hcap := capacity_nonneg hL
  simp only [refill, Lua.num_rat, Lua.max_rat, Lua.min_rat]
  refine le_min hcap ?_
  cases data with
  | none => simpa using hcap
  | some d =>
    have hd : 0 ≤ d.tokens := h d rfl
    have helapsed : (0 : ℚ) ≤ max ((0 : ℤ) : ℚ) ((t : ℚ) - d.lastMs) := by simp
    simp only
    positivity

lemma secs_le (hL : 1 ≤ L) (hW : 1 ≤ W) {y : ℚ} (hy : y ≤ L) :
    ⌈y / rate L W / 1000⌉ ≤ W := by
  have hr := rate_pos hL hW
  rw [Int.ceil_le, div_div, div_le_iff₀ (by positivity)]
  linarith [window_mul_rate (L := L) hW]

lemma result_inRange (hL : 1 ≤ L) (hW : 1 ≤ W) (t : ℤ) {x : ℚ} (h0 : 0 ≤ x) (hx : x ≤ L) :
    InRange L W (t / 1000) (result L W t x) := by
  have hr := rate_pos hL hW
  have hL' : (1 : ℚ) ≤ L := by exact_mod_cast hL
  by_cases h1 : 1 ≤ x
  · have hreset : (result L W t x).resetAt = t / 1000 + ⌈(L - (x - 1)) / rate L W / 1000⌉ := by
      simp [result, h1]
    have hrem : (result L W t x).remaining = ⌊x - 1⌋ := by simp [result, h1]
    have hpos : 0 < ⌈(L - (x - 1)) / rate L W / 1000⌉ := by
      have : 0 < L - (x - 1) := by linarith
      rw [Int.ceil_pos]
      positivity
    have hle : ⌈(L - (x - 1)) / rate L W / 1000⌉ ≤ W := secs_le hL hW (by linarith)
    refine ⟨fun _ => ⟨?_, ?_, by simp [result, h1]⟩, fun h => absurd h (by simp [result, h1]), ?_⟩
    · rw [hrem, Int.floor_nonneg]
      linarith
    · rw [hrem, Int.floor_le_iff]
      push_cast
      linarith
    · rw [hreset]
      omega
  · have hreset : (result L W t x).resetAt = t / 1000 + ⌈(L - x) / rate L W / 1000⌉ := by
      simp [result, h1]
    have hretry : (result L W t x).retryAfter = ⌈(1 - x) / rate L W / 1000⌉ := by
      simp [result, h1]
    have hrem : (result L W t x).remaining = 0 := by
      have hfloor : ⌊x⌋ = 0 := Int.floor_eq_zero_iff.2 ⟨h0, not_le.1 h1⟩
      simpa [result, h1] using hfloor
    have hpos : 0 < ⌈(1 - x) / rate L W / 1000⌉ := by
      have : 0 < 1 - x := by linarith
      rw [Int.ceil_pos]
      positivity
    have hle : ⌈(1 - x) / rate L W / 1000⌉ ≤ ⌈(L - x) / rate L W / 1000⌉ := by
      apply Int.ceil_le_ceil
      gcongr
    have hlast : ⌈(L - x) / rate L W / 1000⌉ ≤ W := secs_le hL hW (by linarith)
    refine ⟨fun h => absurd h (by simp [result, h1]), fun _ => ⟨hrem, ?_⟩, ?_⟩
    · rw [hretry, hreset]
      omega
    · rw [hreset]
      omega

/-- An answered check returns the result for the bucket that it read. -/
lemma exists_data_of_ok {r : Result} (hL : 1 ≤ L) (hW : 1 ≤ W)
    (h : (Service.check P ks ⟨request id L W, st⟩).1 = .ok r) :
    ∃ data : Option (BucketFields ℚ), ((hmget (tbKey id)).run ⟨st.redisMs, P⟩ ks).1 = .ok data ∧
      TimeFits st.redisMs (goInt (W * 2)) ∧
      r = result L W st.nowMs (refill (L : ℚ) (rate L W) st.nowMs data) := by
  obtain ⟨out, hrun, hcheck⟩ := check_run P id L W st ks
  cases hrun with
  | wrongType hfind => simp [hcheck] at h
  | @stored data s hdata harg hfits =>
    rw [toArg_ttlSecs] at harg
    obtain rfl := Option.some.inj harg
    rw [check_accepted hL hW hdata hfits] at h
    exact ⟨data, hdata, hfits, (Except.ok.inj h).symm⟩
  | unbounded hne hdata hacc => simp [hcheck] at h

lemma nonneg_check (hL : 1 ≤ L) (hW : 1 ≤ W) (h : ks.All Nonneg) :
    (Service.check P ks ⟨request id L W, st⟩).2.All Nonneg := by
  obtain ⟨out, hrun, hcheck⟩ := check_run P id L W st ks
  rw [hcheck]
  have hleft : ∀ (data : Option (BucketFields ℚ)) (ttl : ℚ),
      ((hmget (tbKey id)).run ⟨st.redisMs, P⟩ ks).1 = .ok data →
      0 ≤ (storedFields (L : ℚ) (rate L W) st.nowMs ttl data).tokens := by
    intro data ttl hdata
    have hfill := refill_nonneg hL hW st.nowMs (hmget_nonneg h hdata)
    simp only [storedFields, spend_left, Lua.reread_rat]
    by_cases h1 : 1 ≤ refill (L : ℚ) (rate L W) st.nowMs data
    · simp [h1]
    · simpa [h1] using hfill
  cases hrun with
  | wrongType hfind => exact h
  | stored hdata harg hfits =>
    refine h.expireEntry ?_
    rintro d ⟨⟩
    exact hleft _ _ hdata
  | unbounded hne hdata hacc =>
    refine h.insert ?_
    rintro d ⟨⟩
    exact hleft _ _ hdata

end TokenBucket

/-! ## Windows -/

namespace FixedWindow

lemma result_inRange (hW : 1 ≤ W) (L now : ℤ) (n : ℕ) :
    InRange L W now (result W L now n) := by
  have hend : now < windowEnd W now ∧ windowEnd W now ≤ now + W := by
    have hstart := (inWindow_iff hW).2 (rfl : now / W = now / W)
    refine ⟨lt_windowEnd hW now, ?_⟩
    rw [windowEnd, add_one_mul]
    linarith [hstart.1]
  by_cases hlt : (n : ℤ) < L
  · refine ⟨fun _ => ?_, fun h => absurd h (by simp [result, hlt]), hend⟩
    simp only [result, if_pos hlt, and_true]
    omega
  · refine ⟨fun h => absurd h (by simp [result, hlt]), fun _ => ?_, hend⟩
    simp only [result, if_neg hlt]
    omega

lemma nonneg_check (hW : 1 ≤ W) (hpos : ks.All Positive) (h : ks.All Nonneg) :
    (Service.check P ks ⟨request id L W, st⟩).2.All Nonneg := by
  have hstring : ∀ (key : String) (n : ℤ) (t : Option ℤ), Nonneg key ⟨.string n, t⟩ := by
    rintro key n t d ⟨⟩
  have hstep := check_counterStep hW hpos P id L st
  generalize Service.check P ks ⟨request id L W, st⟩ = out at hstep ⊢
  obtain ⟨res, ks'⟩ := out
  generalize admitted res = b at hstep
  cases hstep with
  | kept => exact h
  | counted hfind hn hcount => exact h.insert (hstring _ _ _)
  | opened hfind hcount => exact h.expireEntry (hstring _ _ _)
  | unbounded hfind => exact h.insert (hstring _ _ _)

end FixedWindow

/-! ## Runs -/

/-- A check, or the loss of a key. -/
inductive Event where
  | check (c : Call)
  | drop (key : String)
deriving DecidableEq

/-- The service on a database that may lose any key at any time. -/
def lossyService (P : Expiry) :
    Machine (Keyspace (BucketFields ℚ)) Event (Option (Except CheckError Result)) where
  step ks e := match e with
    | .check c => (some (Service.check P ks c).1, (Service.check P ks c).2)
    | .drop key => (none, ks.delete key)

/-- A check of a valid request, with a stamp that is not negative. -/
structure Proper (c : Call) : Prop where
  req : c.req.Valid
  stamp : 0 ≤ c.stamp.nowMs

/-- The reset that a check announces together with a rejection, if it is rejected: of a bucket
that has no whole token, and of a counter that has reached the limit. -/
def rejectedUntil (P : Expiry) (ks : Keyspace (BucketFields ℚ)) (c : Call) : Option ℤ :=
  let L := c.req.limit
  let W := c.req.windowSeconds
  let clock : Clock := ⟨c.stamp.redisMs, P⟩
  match c.req.algorithm with
  | .tokenBucket => match ((hmget (tbKey c.req.identifier)).run clock ks).1 with
    | .ok data =>
      let x := refill (L : ℚ) (TokenBucket.rate L W) c.stamp.nowMs data
      if x < 1 ∧ TimeFits c.stamp.redisMs (goInt (W * 2)) then
        some (c.stamp.nowSecs + ⌈(L - x) / TokenBucket.rate L W / 1000⌉)
      else none
    | .error _ => none
  | .fixedWindow => match ((get (FixedWindow.counterKey c.req.identifier W
        (c.stamp.nowSecs / W))).run clock ks).1 with
    | .ok count => if (readCount count : ℚ) < L then none
      else some (FixedWindow.windowEnd W c.stamp.nowSecs)
    | .error _ => none
  | .other _ => none

/-- The invariant of the database. -/
def Sound (ks : Keyspace (BucketFields ℚ)) : Prop := ks.All Positive ∧ ks.All Nonneg

variable {c : Call}

/-- An answer is in range, and what it announces is what the state says. -/
lemma check_inRange (hc : Proper c) (h : Sound ks) {r : Result}
    (hr : (Service.check P ks c).1 = .ok r) :
    InRange c.req.limit c.req.windowSeconds c.stamp.nowSecs r ∧
      (r.allowed = false → rejectedUntil P ks c = some r.resetAt) := by
  obtain ⟨⟨id, L, W, a⟩, st⟩ := c
  obtain ⟨⟨-, ⟨hL, -⟩, ⟨hW, -⟩, ha⟩, -⟩ := hc
  simp only at hL hW ha
  rcases ha with rfl | rfl
  · obtain ⟨data, hdata, hfits, rfl⟩ := TokenBucket.exists_data_of_ok hL hW hr
    have h0 := TokenBucket.refill_nonneg hL hW st.nowMs (hmget_nonneg h.2 hdata)
    refine ⟨TokenBucket.result_inRange hL hW _ h0 (TokenBucket.refill_le _ _), fun hrej => ?_⟩
    have hx := not_le.1 (of_decide_eq_false hrej)
    simp [rejectedUntil, hdata, hx, hfits, TokenBucket.result, not_le.2 hx, Stamp.nowSecs]
  · obtain ⟨m, n, hget, hn, rfl⟩ := FixedWindow.exists_count_of_ok hW h.1 hr
    refine ⟨FixedWindow.result_inRange hW _ _ n, fun hrej => ?_⟩
    have hcount := of_decide_eq_false hrej
    have hcount' : ¬ (n : ℚ) < L := by exact_mod_cast hcount
    simp [rejectedUntil, hget, hn, hcount', FixedWindow.result]

lemma exists_rejected (hc : Proper c) (h : Sound ks) {R : ℤ}
    (hR : rejectedUntil P ks c = some R) :
    ∃ r : Result, (Service.check P ks c).1 = .ok r ∧ r.allowed = false ∧ r.resetAt = R := by
  obtain ⟨⟨id, L, W, a⟩, st⟩ := c
  obtain ⟨⟨-, ⟨hL, -⟩, ⟨hW, -⟩, ha⟩, -⟩ := hc
  simp only at hL hW ha
  rcases ha with rfl | rfl
  · cases hdata : ((hmget (tbKey id)).run ⟨st.redisMs, P⟩ ks).1 with
    | error e => simp [rejectedUntil, hdata] at hR
    | ok data =>
      simp only [rejectedUntil, hdata] at hR
      split at hR
      · rename_i hrej
        obtain rfl := Option.some.inj hR
        refine ⟨_, congrArg Prod.fst (TokenBucket.check_accepted hL hW hdata hrej.2), ?_, ?_⟩
        · exact decide_eq_false (not_le.2 hrej.1)
        · simp [TokenBucket.result, not_le.2 hrej.1, Stamp.nowSecs]
      · exact absurd hR (by simp)
  · cases hget : ((get (FixedWindow.counterKey id W (st.nowSecs / W))).run
        ⟨st.redisMs, P⟩ ks).1 with
    | error e => simp [rejectedUntil, hget] at hR
    | ok m =>
      simp only [rejectedUntil, hget] at hR
      split at hR
      · exact absurd hR (by simp)
      · rename_i hcount
        obtain rfl := Option.some.inj hR
        obtain ⟨hrun, n, hn⟩ := FixedWindow.exists_count h.1 hget
        have hlimit : ¬ (n : ℤ) < L := by
          rw [hn] at hcount
          exact fun hlt => hcount (Int.cast_lt.2 hlt)
        exact ⟨_, congrArg Prod.fst (FixedWindow.check_refused hW hlimit hrun hn),
          decide_eq_false hlimit, rfl⟩

lemma sound_step {e : Event} (he : ∀ c, e = .check c → Proper c) (h : Sound ks) :
    Sound ((lossyService P).step ks e).2 := by
  cases e with
  | drop key => exact ⟨h.1.delete, h.2.delete⟩
  | check c =>
    refine ⟨positive_check h.1 c, ?_⟩
    obtain ⟨⟨id, L, W, a⟩, st⟩ := c
    obtain ⟨⟨-, ⟨hL, -⟩, ⟨hW, -⟩, ha⟩, -⟩ := he _ rfl
    simp only at hL hW ha
    rcases ha with rfl | rfl
    · exact TokenBucket.nonneg_check hL hW h.2
    · exact FixedWindow.nonneg_check hW h.1 h.2

namespace Api

/-- The response carries the header `Retry-After`. -/
def Response.HasRetryAfter (res : Response) : Prop := ∃ v, ("Retry-After", v) ∈ res.headers

/-- The body of the response carries a `retry_after` that is not null. -/
def Response.RetryAfterNotNull (res : Response) : Prop :=
  ∃ a n t v, res.body = .check a n t (some v)

lemma hasRetryAfter_respond (limit : ℤ) (r : Result) :
    (respond limit r).HasRetryAfter ↔ r.allowed = false ∧ 0 < r.retryAfter := by
  by_cases h : r.allowed = false ∧ 0 < r.retryAfter
  · simp [Response.HasRetryAfter, respond, writeJSON, h]
  · simp [Response.HasRetryAfter, respond, writeJSON, h]

lemma retryAfterNotNull_respond (limit : ℤ) (r : Result) :
    (respond limit r).RetryAfterNotNull ↔
      (r.allowed = false ∧ 0 < r.retryAfter) ∧ Encodable r.resetAt := by
  by_cases h : r.allowed = false ∧ 0 < r.retryAfter
  · by_cases he : Encodable r.resetAt
    · simp [Response.RetryAfterNotNull, respond, writeJSON, h, he]
    · simp [Response.RetryAfterNotNull, respond, writeJSON, h, he]
  · by_cases he : Encodable r.resetAt
    · simp [Response.RetryAfterNotNull, respond, writeJSON, h, he]
    · simp [Response.RetryAfterNotNull, respond, writeJSON, h, he]

/-- The request that makes a call. -/
def httpOf (c : Call) : HttpRequest :=
  ⟨"", some ⟨c.req.identifier, c.req.limit, c.req.windowSeconds, c.req.algorithm.toString⟩, c.stamp⟩

lemma callOf_httpOf {c : Call} (hc : c.req.Valid) : callOf (httpOf c) = some c := by
  obtain ⟨⟨id, L, W, a⟩, st⟩ := c
  obtain ⟨hid, ⟨hL, -⟩, ⟨hW, -⟩, ha⟩ := hc
  simp only at hid hL hW ha
  rcases ha with rfl | rfl
  · simp [callOf, httpOf, hid, not_le.2 hL, not_le.2 hW, Algorithm.toString, Algorithm.ofString]
  · simp [callOf, httpOf, hid, not_le.2 hL, not_le.2 hW, Algorithm.toString, Algorithm.ofString]

end Api

/-- An answer to the check `c` is in range, and the handler emits `Retry-After` and a
`retry_after` that is not null exactly if it is a rejection. -/
def AnswersInRange (P : Expiry) (ks : Keyspace (BucketFields ℚ)) (c : Call) : Prop :=
  ∀ r : Result, (Service.check P ks c).1 = .ok r →
    InRange c.req.limit c.req.windowSeconds c.stamp.nowSecs r ∧
    ∀ (p : Api.Platform) (userID : String) (q : Api.HttpRequest) (w : Api.World ℚ),
      Api.callOf q = some c → w.redis = ks →
        let res := (Api.CheckHandler.check p P userID q w).1
        (res.HasRetryAfter ↔ r.allowed = false) ∧ (res.RetryAfterNotNull ↔ r.allowed = false)

/-- No bucket of the run ever holds a negative number of tokens, and every answer is in range. -/
def StaysInRange (P : Expiry) (es : List Event) : Prop :=
  (∀ n : ℕ, ((lossyService P).final .empty (es.take n)).All Nonneg) ∧
    (lossyService P).Along (fun ks e => ∀ c, e = .check c → AnswersInRange P ks c) .empty es

lemma answersInRange_iff (hc : Proper c) (h : Sound ks) :
    AnswersInRange P ks c ↔ ∀ R ∈ rejectedUntil P ks c, R < 253402300800 := by
  have hsecs : 0 ≤ c.stamp.nowSecs := Int.ediv_nonneg hc.stamp (by decide)
  constructor
  · -- a rejection whose reset is too late has no body
    intro hanswers R hR
    obtain ⟨r, hr, hrej, rfl⟩ := exists_rejected hc h hR
    obtain ⟨-, hemits⟩ := hanswers r hr
    obtain ⟨-, hbody⟩ := hemits Api.plain "" (Api.httpOf c) ⟨[], ks, .zero⟩
      (Api.callOf_httpOf hc.req) rfl
    obtain ⟨hres, -⟩ := Api.check_of_call (p := Api.plain) (P := P) (Api.callOf_httpOf hc.req) ""
      (⟨[], ks, .zero⟩ : Api.World ℚ)
    rw [hres, hr] at hbody
    exact ((Api.retryAfterNotNull_respond _ _).1 (hbody.2 hrej)).2.2
  · intro hcond r hr
    obtain ⟨hrange, huntil⟩ := check_inRange hc h hr
    refine ⟨hrange, ?_⟩
    rintro p userID q w hq rfl
    obtain ⟨hres, -⟩ := Api.check_of_call (p := p) (P := P) hq userID w
    rw [hr] at hres
    simp only [hres, Api.answer, Api.hasRetryAfter_respond, Api.retryAfterNotNull_respond]
    have hretry : r.allowed = false → 0 < r.retryAfter := by
      intro hrej
      have := hrange.rejected hrej
      omega
    have hencodes : r.allowed = false → Api.Encodable r.resetAt := by
      intro hrej
      have hlate := hcond _ (huntil hrej)
      have hreset := hrange.reset
      exact ⟨by omega, hlate⟩
    exact ⟨⟨fun h => h.1, fun h => ⟨h, hretry h⟩⟩, ⟨fun h => h.1.1, fun h => ⟨⟨h, hretry h⟩,
      hencodes h⟩⟩⟩

/-- A check of one token in a window of thirty thousand years. -/
def longWindow : Call := ⟨⟨"user:1", 1, 10 ^ 12, .tokenBucket⟩, .sync 0⟩

lemma proper_longWindow : Proper longWindow :=
  ⟨⟨by decide, by decide, by decide, by decide⟩, by decide⟩

/-- The second such check is rejected: the response says so in its header, and has no body. -/
theorem not_staysInRange_longWindow :
    (Api.CheckHandler.check Api.plain .past "user-a" (Api.httpOf longWindow)
        ⟨[], ((lossyService .past).step .empty (.check longWindow)).2, .zero⟩).1 =
      ⟨200, [("X-RateLimit-Limit", "1"), ("X-RateLimit-Remaining", "0"),
        ("X-RateLimit-Reset", "1000000000000"), ("Retry-After", "1000000000000"),
        ("Content-Type", "application/json")], .empty⟩ ∧
      ¬ StaysInRange .past [.check longWindow, .check longWindow] := by
  refine ⟨by decide +kernel, ?_⟩
  rintro ⟨-, -, hsecond, -⟩
  have hsound : Sound ((lossyService .past).step .empty (.check longWindow)).2 :=
    sound_step (by rintro c ⟨⟩; exact proper_longWindow) ⟨Keyspace.all_empty, Keyspace.all_empty⟩
  have huntil := (answersInRange_iff proper_longWindow hsound).1 (hsecond _ rfl) (10 ^ 12)
    (by decide +kernel)
  exact absurd huntil (by decide)

/-- **Results stay in range.**  Whatever limits, windows and stamps the checks of a run bring and
whatever keys are lost, no bucket is ever negative and every answer is in range; and the handler
announces exactly the rejections, if and only if no rejection announces a reset after the year
9999. -/
theorem staysInRange_iff (P : Expiry) (es : List Event) (hes : ∀ c, .check c ∈ es → Proper c) :
    StaysInRange P es ↔ (lossyService P).Along
      (fun ks e => ∀ c, e = .check c → ∀ R ∈ rejectedUntil P ks c, R < 253402300800) .empty es := by
  have hempty : Sound Keyspace.empty := ⟨Keyspace.all_empty, Keyspace.all_empty⟩
  have hproper : ∀ e ∈ es, ∀ c, e = .check c → Proper c := by
    rintro e he c rfl
    exact hes c he
  have hnonneg : ∀ n : ℕ, ((lossyService P).final .empty (es.take n)).All Nonneg := by
    intro n
    have hall : (lossyService P).Along (fun _ e => ∀ c, e = .check c → Proper c) .empty
        (es.take n) :=
      (lossyService P).along_of_forall (fun e he => hproper e (List.mem_of_mem_take he)) _
    exact ((lossyService P).final_invariant (I := Sound) (fun ks e h he => sound_step he h)
      hempty hall).2
  rw [StaysInRange, and_iff_right hnonneg]
  apply (lossyService P).along_congr (I := Sound) (fun ks e he h => sound_step (hproper e he) h)
    ?_ hempty
  intro ks e he h
  exact forall_congr' fun c => forall_congr' fun hc =>
    answersInRange_iff (hproper e he c hc) h

/-- A large bucket, which the second check finds over its own limit, and a lost key. -/
theorem staysInRange_mixed : StaysInRange .past
    [.check ⟨⟨"user:1", 100, 60, .tokenBucket⟩, .sync 5000⟩,
      .check ⟨⟨"user:1", 1, 3600, .tokenBucket⟩, .sync 0⟩,
      .check ⟨⟨"user:1", 1, 3600, .tokenBucket⟩, .sync 0⟩, .drop "shardleak:rate:tb:user:1"] := by
  refine (staysInRange_iff .past _ ?_).2 ⟨?_, ?_, ?_, ?_, trivial⟩
  · intro c hc
    simp only [List.mem_cons, Event.check.injEq, List.not_mem_nil, or_false, reduceCtorEq] at hc
    rcases hc with rfl | rfl | rfl <;>
      exact ⟨⟨by decide, by decide, by decide, by decide⟩, by decide⟩
  · rintro c ⟨⟩
    decide +kernel
  · rintro c ⟨⟩
    decide +kernel
  · rintro c ⟨⟩
    decide +kernel
  · rintro c ⟨⟩

end ShardLeak
