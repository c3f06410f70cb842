/-
# The bucket that never expires

Over exact rationals, the token bucket script keeps a refilled bucket (`ShardLeak/Lib/Bucket.lean`).
This file says so for whole runs: as long as the stamps of an identifier are in order, and the
key does not go before the bucket is full again, the checks of one configuration return what a
bucket without any expiry returns.

What ties the two together is an invariant (`Tracks`): the entry of the key, due or not, has the
level of the ideal bucket at its last request.  Where the entry is due the script finds nothing
and starts with a full bucket, but by then the ideal bucket is full, too: the TTL is twice the
window, and a window is enough to fill the bucket.  When exactly a key goes does not matter, so
that the rule of expiry stays a parameter.

`Paced` is the condition on two consecutive stamps: they are in order, and if the key of the first
is due at the second, then a whole window has passed on the stamps.  A TTL that is too large for
the arithmetic of Go or of Redis is left out.
-/
import ShardLeak.Lib.Bucket
import ShardLeak.RateLimit.Reachable

namespace ShardLeak

namespace TokenBucket

open RateLimit Redis Bucket

/-- A request for the bucket of an identifier. -/
def request (id : String) (L W : ℤ) : Request := ⟨id, L, W, .tokenBucket⟩

lemma goInt_of_pos {W : ℤ} (hW : 1 ≤ W ∧ Lua.FitsInt64 W) (h : 0 < goInt (W * 2)) :
    goInt (W * 2) = W * 2 := by
  obtain ⟨h1, -, h2⟩ := hW
  simp only [goInt, Int.bmod] at h ⊢
  norm_num at h ⊢
  split at h <;> omega

/-- Tokens per millisecond. -/
def rate (L W : ℤ) : ℚ := L / W / 1000

/-- What a check at `t` returns when the bucket holds `tokens` after the refill. -/
def result (L W t : ℤ) (tokens : ℚ) : Result where
  allowed := decide (1 ≤ tokens)
  remaining := ⌊tokens - cost (decide (1 ≤ tokens))⌋
  limit := L
  resetAt := t / 1000 + ⌈(L - (tokens - cost (decide (1 ≤ tokens)))) / rate L W / 1000⌉
  retryAfter := if 1 ≤ tokens then 0 else ⌈(1 - tokens) / rate L W / 1000⌉

/-- The bucket that never expires, as a machine that reads the stamps. -/
def ideal (L W : ℤ) : Machine (Option (Level ℚ)) ℤ Result where
  step s t := (result L W t (fill L (rate L W) s t), (grant (L : ℚ) (rate L W) s t).2)

variable {L W : ℤ}

@[simp] lemma ideal_step (s : Option (Level ℚ)) (t : ℤ) :
    (ideal L W).step s t =
      (result L W t (fill L (rate L W) s t), (grant (L : ℚ) (rate L W) s t).2) := rfl

lemma result_allowed (s : Option (Level ℚ)) (t : ℤ) :
    (result L W t (fill L (rate L W) s t)).allowed = (grant (L : ℚ) (rate L W) s t).1 :=
  (grant_fst s t).symm

lemma ideal_allowed (s : Option (Level ℚ)) (ts : List ℤ) :
    (machine (L : ℚ) (rate L W)).outputs s (ts.map Int.cast) =
      ((ideal L W).outputs s ts).map Result.allowed := by
  induction ts generalizing s with
  | nil => rfl
  | cons t ts ih =>
    simp only [List.map_cons, Machine.outputs_cons, machine_step, ideal_step, ih]
    rw [result_allowed]

lemma ideal_final (s : Option (Level ℚ)) (ts : List ℤ) :
    (ideal L W).final s ts = (machine (L : ℚ) (rate L W)).final s (ts.map Int.cast) := by
  induction ts generalizing s with
  | nil => rfl
  | cons t ts ih => simp [ih]

lemma pairwise_cast {ts : List ℤ} (hts : ts.Pairwise (· ≤ ·)) :
    (ts.map (Int.cast : ℤ → ℚ)).Pairwise (· ≤ ·) :=
  List.pairwise_map.2 (hts.imp fun h => Int.cast_le.2 h)

/-! ## The script over exact rationals -/

section Positive

variable (hL : 1 ≤ L) (hW : 1 ≤ W)

include hL hW in
lemma rate_pos : 0 < rate L W := by
  have hL' : (0 : ℚ) < L := by exact_mod_cast hL
  have hW' : (0 : ℚ) < W := by exact_mod_cast hW
  simp only [rate]
  positivity

include hL in
lemma capacity_nonneg : (0 : ℚ) ≤ L := by
  exact_mod_cast (by omega : (0 : ℤ) ≤ L)

include hL hW in
lemma ready_ideal_final {ts : List ℤ} {t : ℤ} (hts : (ts ++ [t]).Pairwise (· ≤ ·)) :
    Ready ((ideal L W).final none ts) (t : ℚ) := by
  rw [ideal_final]
  refine ready_final (capacity_nonneg hL) (rate_pos hL hW).le ?_ fun u _ => ready_none u
  simpa using pairwise_cast hts

include hW in
lemma window_mul_rate : (1000 * W : ℚ) * rate L W = L := by
  have hW' : (W : ℚ) ≠ 0 := by
    have : W ≠ 0 := by omega
    exact_mod_cast this
  simp only [rate]
  field_simp

lemma ratePerMs_request (id : String) : (ratePerMs (request id L W) : ℚ) = rate L W := by
  simp [ratePerMs, request, rate]

lemma floor_secs (t : ℤ) : ⌊(t : ℚ) / 1000⌋ = t / 1000 := by
  simpa using Int.floor_div_natCast (t : ℚ) 1000

/-- The fields of a stored bucket as a level. -/
def toLevel (d : BucketFields ℚ) : Level ℚ := ⟨d.tokens, d.lastMs⟩

/-- The refill of the script, for a stamp that is not before the stored one. -/
lemma refill_eq_fill {t : ℤ} {data : Option (BucketFields ℚ)}
    (h : ∀ d ∈ data, d.lastMs ≤ t) :
    refill (L : ℚ) (rate L W) t data = fill (L : ℚ) (rate L W) (data.map toLevel) t := by
  cases data with
  | none => simp [refill]
  | some d =>
    have hd : 0 ≤ (t : ℚ) - d.lastMs := sub_nonneg.2 (h d rfl)
    simp only [refill, Lua.num_rat, Lua.max_rat, Lua.min_rat, Option.map_some, fill, toLevel]
    rw [Int.cast_zero, max_eq_right hd]

lemma spend_left (r ttl x : ℚ) : (spend r ttl x).2.1 = x - cost (decide (1 ≤ x)) := by
  by_cases h : 1 ≤ x
  · simp [spend, h]
  · by_cases hr : 0 < r <;> simp [spend, h, hr]

include hL hW in
/-- The time to a full bucket; a bucket that is full already takes none. -/
lemma secsToFull_rat {left : ℚ} (hleft : left ≤ L) :
    secsToFull (L : ℚ) (rate L W) left = (⌈(L - left) / rate L W / 1000⌉ : ℚ) := by
  have hr := rate_pos hL hW
  rcases hleft.lt_or_eq with hlt | rfl
  · simp [secsToFull, hlt, hr]
  · simp [secsToFull]

include hL hW in
lemma parseResult_bucketReply (t : ℤ) (ttl : ℚ) {x : ℚ} (hx : x ≤ L) :
    parseResult (bucketReply (L : ℚ) (rate L W) t ttl x) L = .ok (result L W t x) := by
  have hr := rate_pos hL hW
  have hreset : ∀ z : ℤ, Lua.Number.toReply ((t / 1000 : ℤ) + (z : ℚ)) = t / 1000 + z := by
    intro z
    rw [← Int.cast_add, Lua.toReply_intCast]
  have hone : ∀ z : ℤ, Lua.Number.toReply ((z : ℚ) - 1) = z - 1 := by
    intro z
    rw [← Int.cast_one, ← Int.cast_sub, Lua.toReply_intCast]
  by_cases h1 : 1 ≤ x
  · -- allowed: one token less, and nothing to wait for
    have hleft : x - 1 ≤ (L : ℚ) := by linarith
    simp [parseResult, bucketReply, spend, h1, secsToFull_rat hL hW hleft, floor_secs, hreset,
      hone, result]
  · simp [parseResult, bucketReply, spend, h1, hr, secsToFull_rat hL hW hx, floor_secs, hreset,
      result]

/-! ## Runs -/

/-- Two consecutive stamps are in order, and if the key that the first check left is due at the
second, then a whole window has passed on the stamps. -/
def Paced (W : ℤ) (a b : Stamp) : Prop :=
  a.nowMs ≤ b.nowMs ∧ (a.redisMs + W * 2 * 1000 ≤ b.redisMs → a.nowMs + W * 1000 ≤ b.nowMs)

lemma toArg_ttlSecs (id : String) (L W : ℤ) :
    Lua.Number.toArg (Lua.num (ttlSecs (request id L W)) : ℚ) = some (goInt (W * 2)) :=
  Lua.toArg_intCast (fitsInt64_goInt _)

lemma check_run (P : Expiry) (id : String) (L W : ℤ) (st : Stamp) (ks : Keyspace (BucketFields ℚ)) :
    ∃ out, BucketRun ⟨st.redisMs, P⟩ ks (tbKey id) (L : ℚ) (rate L W) st.nowMs
        (Lua.num (ttlSecs (request id L W))) out ∧
      Service.check P ks ⟨request id L W, st⟩ = match out with
        | (.error e, ks') => (.error (.tokenBucketRedis e), ks')
        | (.ok vals, ks') => (parseResult vals L, ks') := by
  obtain ⟨⟨e | vals, ks'⟩, hrun, hcheck⟩ := checkTokenBucket_run P ks (request id L W) st
  all_goals
    rw [ratePerMs_request] at hrun
    exact ⟨_, hrun, hcheck⟩

lemma refill_le (t : ℤ) (data : Option (BucketFields ℚ)) :
    refill (L : ℚ) (rate L W) t data ≤ L := by
  simp only [refill, Lua.min_rat]
  exact min_le_left _ _

include hL hW in
/-- One check of a key that holds `data`, with a TTL that Redis accepts. -/
lemma check_accepted {P : Expiry} {id : String} {st : Stamp} {ks : Keyspace (BucketFields ℚ)}
    {data : Option (BucketFields ℚ)}
    (hdata : ((hmget (tbKey id)).run ⟨st.redisMs, P⟩ ks).1 = .ok data)
    (hfits : TimeFits st.redisMs (goInt (W * 2))) :
    Service.check P ks ⟨request id L W, st⟩ =
      (.ok (result L W st.nowMs (refill (L : ℚ) (rate L W) st.nowMs data)),
        ks.expireEntry ⟨st.redisMs, P⟩ (tbKey id)
          (.hash ⟨refill (L : ℚ) (rate L W) st.nowMs data -
              cost (decide (1 ≤ refill (L : ℚ) (rate L W) st.nowMs data)), st.nowMs⟩)
          (st.redisMs + goInt (W * 2) * 1000)) := by
  have hrun := tokenBucketLua_accepted (tbKey id) (L : ℚ) (rate L W) st.nowMs
    (Lua.num (ttlSecs (request id L W))) hdata (toArg_ttlSecs id L W) hfits
  have hcheck : Service.check P ks ⟨request id L W, st⟩ =
      checkTokenBucket P (request id L W) st ks := rfl
  rw [hcheck, checkTokenBucket, ratePerMs_request]
  simp only [Lua.num_rat] at hrun ⊢
  rw [show (request id L W).identifier = id from rfl, show (request id L W).limit = L from rfl,
    hrun]
  simp only [parseResult_bucketReply hL hW _ _ (refill_le _ _), storedFields, spend_left,
    Lua.reread_rat]

include hL hW in
/-- One check of a key that holds `data`, stamped in order, whose TTL is not too large. -/
lemma check_request {P : Expiry} {id : String} {st : Stamp} {ks : Keyspace (BucketFields ℚ)}
    {data : Option (BucketFields ℚ)}
    (hdata : ((hmget (tbKey id)).run ⟨st.redisMs, P⟩ ks).1 = .ok data)
    (hord : ∀ d ∈ data, d.lastMs ≤ st.nowMs) (hfits : TimeFits st.redisMs (W * 2)) :
    Service.check P ks ⟨request id L W, st⟩ =
      (.ok (result L W st.nowMs (fill L (rate L W) (data.map toLevel) st.nowMs)),
        ks.insert (tbKey id)
          ⟨.hash ⟨fill (L : ℚ) (rate L W) (data.map toLevel) st.nowMs -
              cost (grant (L : ℚ) (rate L W) (data.map toLevel) st.nowMs).1, st.nowMs⟩,
            some (st.redisMs + W * 2 * 1000)⟩) := by
  have hint : goInt (W * 2) = W * 2 := by
    obtain ⟨⟨-, h⟩, -⟩ := hfits
    exact goInt_of_fits ⟨by omega, by omega⟩
  have hfuture : ¬ st.redisMs + W * 2 * 1000 ≤ st.redisMs := by omega
  rw [check_accepted hL hW hdata (by rwa [hint]), hint, Keyspace.expireEntry, if_neg hfuture,
    refill_eq_fill hord, grant_fst]

/-- What the key holds is what the ideal bucket holds, whether or not the key is due. -/
structure Tracks (W : ℤ) (key : String) (ss : List Stamp) (ks : Keyspace (BucketFields ℚ))
    (s : Option (Level ℚ)) : Prop where
  fits : ∀ st ∈ ss, TimeFits st.redisMs (W * 2)
  chain : ss.IsChain (Paced W)
  entry : (ks key = none ∧ s = none) ∨ ∃ (p : Stamp) (x : ℚ), (p :: ss).IsChain (Paced W) ∧
    0 ≤ x ∧ ks key = some ⟨.hash ⟨x, p.nowMs⟩, some (p.redisMs + W * 2 * 1000)⟩ ∧
    s = some ⟨x, p.nowMs⟩

lemma Tracks.ready {key : String} {st : Stamp} {ss : List Stamp}
    {ks : Keyspace (BucketFields ℚ)} {s : Option (Level ℚ)} (h : Tracks W key (st :: ss) ks s) :
    Ready s (st.nowMs : ℚ) := by
  obtain ⟨-, -, ⟨-, rfl⟩ | ⟨p, x, hch, hx, -, rfl⟩⟩ := h
  · simp
  · have hord : p.nowMs ≤ st.nowMs := (List.isChain_cons_cons.1 hch).1.1
    simpa using ⟨hx, hord⟩

include hL hW in
/-- The script reads a bucket whose level is that of the ideal bucket: if the key is gone, the
ideal bucket is full. -/
lemma Tracks.read {P : Expiry} {key : String} {st : Stamp} {ss : List Stamp}
    {ks : Keyspace (BucketFields ℚ)} {s : Option (Level ℚ)} (h : Tracks W key (st :: ss) ks s) :
    ∃ data : Option (BucketFields ℚ), ((hmget key).run ⟨st.redisMs, P⟩ ks).1 = .ok data ∧
      (∀ d ∈ data, d.lastMs ≤ st.nowMs) ∧
      fill (L : ℚ) (rate L W) (data.map toLevel) st.nowMs = fill (L : ℚ) (rate L W) s st.nowMs := by
  obtain ⟨-, -, ⟨hks, rfl⟩ | ⟨p, x, hch, hx, hks, rfl⟩⟩ := h
  · -- no check was made yet
    exact ⟨none, hmget_of_none hks, by simp, rfl⟩
  · have hpaced : Paced W p st := (List.isChain_cons_cons.1 hch).1
    have hread := hmget_of_hash (c := ⟨st.redisMs, P⟩) hks
    cases hgone : P.gone (p.redisMs + W * 2 * 1000) st.redisMs with
    | false =>
      refine ⟨some ⟨x, p.nowMs⟩, by simpa [hgone] using hread, ?_, rfl⟩
      rintro d ⟨⟩
      simpa using hpaced.1
    | true =>
      -- the key is gone, but then a whole window has refilled the bucket
      refine ⟨none, by simpa [hgone] using hread, by simp, ?_⟩
      have hage : (p.nowMs : ℚ) + W * 1000 ≤ st.nowMs := by
        exact_mod_cast hpaced.2 (P.due hgone)
      have hgain : (W * 1000 : ℚ) * rate L W ≤ (st.nowMs - p.nowMs) * rate L W :=
        mul_le_mul_of_nonneg_right (by linarith) (rate_pos hL hW).le
      have hfull := window_mul_rate (L := L) hW
      rw [Option.map_none, fill_none, fill, min_eq_left]
      linarith

include hL hW in
/-- One check of a key that tracks the ideal bucket. -/
lemma Tracks.step {P : Expiry} {id : String} {st : Stamp} {ss : List Stamp}
    {ks : Keyspace (BucketFields ℚ)} {s : Option (Level ℚ)}
    (h : Tracks W (tbKey id) (st :: ss) ks s) :
    (Service.check P ks ⟨request id L W, st⟩).1 =
        .ok (result L W st.nowMs (fill L (rate L W) s st.nowMs)) ∧
      Tracks W (tbKey id) ss (Service.check P ks ⟨request id L W, st⟩).2
        (grant (L : ℚ) (rate L W) s st.nowMs).2 := by
  obtain ⟨data, hdata, hord, hfill⟩ := h.read (L := L) (P := P) hL hW
  have hcheck := check_request hL hW hdata hord (h.fits st (by simp))
  simp only [grant_fst, hfill] at hcheck
  have hafter := ready_grant (capacity_nonneg hL) (rate_pos hL hW).le h.ready
  rw [grant_snd, grant_fst, ready_some] at hafter
  rw [hcheck]
  refine ⟨rfl, fun q hq => h.fits q (by simp [hq]), h.chain.of_cons, .inr ?_⟩
  exact ⟨st, _, h.chain, hafter.1, Keyspace.insert_self .., by rw [grant_snd, grant_fst]⟩

include hL hW in
/-- **The checks of one configuration return what a bucket without expiry returns.** -/
theorem outputs_eq_ideal (P : Expiry) (id : String) {ss : List Stamp}
    (hfits : ∀ st ∈ ss, TimeFits st.redisMs (W * 2)) (hss : ss.IsChain (Paced W)) :
    (service ℚ P).outputs .empty (calls (request id L W) ss) =
      ((ideal L W).outputs none (ss.map Stamp.nowMs)).map Except.ok := by
  have hrun : (service ℚ P).outputs .empty (calls (request id L W) ss) =
      ((ideal L W).outputs none ((calls (request id L W) ss).map fun c => c.stamp.nowMs)).map
        Except.ok := by
    refine (service ℚ P).outputs_eq_of_simulation (R := fun es ks s =>
      ∃ qs, es = calls (request id L W) qs ∧ Tracks W (tbKey id) qs ks s) ?_
      ⟨ss, rfl, hfits, hss, .inl ⟨rfl, rfl⟩⟩
    rintro c es ks s ⟨qs, hqs, htracks⟩
    cases qs with
    | nil => simp [calls] at hqs
    | cons st qs =>
      obtain ⟨rfl, rfl⟩ := List.cons.inj hqs
      obtain ⟨hout, hafter⟩ := htracks.step (P := P) hL hW
      exact ⟨hout, qs, rfl, hafter⟩
  rw [hrun, calls, List.map_map]
  rfl

end Positive

end TokenBucket

end ShardLeak
