/-
# The token bucket in doubles

The admission law of the token bucket (`ShardLeak/TokenBucket/Admission.lean`) is one of exact
numbers.  The script computes in doubles: the rate, the refill and the tokens left are rounded to
53 binary digits, and between two checks the tokens are printed with 14 decimal ones.  The errors
of one check add up to less than the limit times `10 ^ -13`, and they do not grow by themselves:
the law holds with this margin for every check since the start point.

The steps of the argument are the steps of the script.  The rate is off by three roundings, the
refill by two more, and the stored tokens by the print; each is a relative error, and what they
are relative to is at most the limit, because a refill that would exceed the capacity is cut off.
So the sum is an absolute error per check, the `ε` of `ShardLeak/Lib/Drift.lean`, and the law with
a margin follows from the one there.

A key that is gone needs an argument of its own: the bucket starts full again, and by then the
whole limit was due, up to the same error.
-/
import ShardLeak.Lib.Drift
import ShardLeak.TokenBucket.Admission
import ShardLeak.TokenBucket.Countdown

namespace ShardLeak

namespace TokenBucket

open RateLimit Redis Lua Rounding Bucket

/-! ## The errors of the arithmetic -/

lemma near_round (q : ℚ) : Near (1 / 2 ^ 53) q (roundTo 2 53 q) :=
  (near_roundTo (b := 2) (p := 53) (by norm_num) q).mono (by norm_num)

lemma near_print (q : ℚ) : Near (5 / 10 ^ 14) q (roundTo 10 14 q) :=
  (near_roundTo (b := 10) (p := 14) (by norm_num) q).mono (by norm_num)

lemma near_round_of_near {δ x q : ℚ} (h : Near δ x q) :
    Near (δ + 1 / 2 ^ 53 * (1 + δ)) x (roundTo 2 53 q) :=
  h.trans (by norm_num) (near_round q)

variable {L W : ℤ}

/-- The rate of the script: the limit is rounded, and so are two quotients. -/
lemma near_rate (hW : |W| ≤ 2 ^ 53) (id : String) :
    Near (4 / 2 ^ 53) (rate L W) (ratePerMs (request id L W) : Double).val := by
  have hWval : (num W : Double).val = W := num_val hW
  have hms : (num 1000 : Double).val = (1000 : ℤ) := num_val (by norm_num)
  have hlimit : Near (1 / 2 ^ 53) (L : ℚ) (num L : Double).val := near_round L
  have hquot := near_round_of_near (hlimit.mul_left (W : ℚ)⁻¹)
  have hrate := near_round_of_near (hquot.mul_left (1000 : ℚ)⁻¹)
  have hval : (ratePerMs (request id L W) : Double).val =
      roundTo 2 53 ((1000 : ℚ)⁻¹ * roundTo 2 53 ((W : ℚ)⁻¹ * (num L : Double).val)) := by
    rw [ratePerMs, Double.div_val, Double.div_val, hms]
    show roundTo 2 53 (roundTo 2 53 ((num L : Double).val / (num W : Double).val) /
      (1000 : ℤ)) = _
    rw [hWval, div_eq_inv_mul, div_eq_inv_mul]
    norm_num
  have hexact : rate L W = (1000 : ℚ)⁻¹ * ((W : ℚ)⁻¹ * L) := by
    rw [rate, div_eq_inv_mul, div_eq_inv_mul]
  rw [hval, hexact]
  exact hrate.mono (by norm_num)

lemma num_nonneg {n : ℤ} (hn : 1 ≤ n) : 0 ≤ (num n : Double).val :=
  roundTo_nonneg (by norm_num) (by exact_mod_cast (by omega : 0 ≤ n))

lemma rate_nonneg (hL : 1 ≤ L) (hW : 1 ≤ W) (id : String) :
    0 ≤ (ratePerMs (request id L W) : Double).val :=
  roundTo_nonneg (by norm_num) (div_nonneg
    (roundTo_nonneg (by norm_num) (div_nonneg (num_nonneg hL) (num_nonneg hW)))
    (num_nonneg (by norm_num)))

/-- What a check at `t` finds. -/
def reading (t : ℤ) (y : Double) : Reading ℚ := ⟨t, y.val⟩

lemma num_one_le (t : ℤ) (y : Double) : num 1 ≤ y ↔ (reading t y).granted = true := by
  have hone : (num 1 : Double).val = (1 : ℤ) := num_val (by norm_num)
  show (num 1 : Double).val ≤ y.val ↔ decide (1 ≤ y.val) = true
  rw [hone, Int.cast_one, decide_eq_true_iff]

lemma left_val (t : ℤ) (y : Double) :
    (left y).val = roundTo 2 53 (y.val - cost (reading t y).granted) := by
  have hone : (num 1 : Double).val = (1 : ℤ) := num_val (by norm_num)
  by_cases h : num 1 ≤ y
  · rw [(num_one_le t y).1 h, left, if_pos h]
    rw [Double.sub_val, hone, Int.cast_one, cost_true]
  · rw [Bool.eq_false_iff.2 fun hg => h ((num_one_le t y).2 hg), left, if_neg h, cost_false,
      sub_zero, y.rounded]

lemma sub_cost_nonneg {y : Double} (hy : 0 ≤ y.val) (t : ℤ) :
    0 ≤ y.val - cost (reading t y).granted := by
  cases h : (reading t y).granted with
  | false => simpa using hy
  | true =>
    have hone : 1 ≤ y.val := of_decide_eq_true h
    simpa using hone

/-- What the next check reads of the tokens. -/
lemma near_reread_left (t : ℤ) (y : Double) :
    Near (51 / 10 ^ 15) (y.val - cost (reading t y).granted)
      (Number.reread (left y) : Double).val := by
  have hleft : Near (1 / 2 ^ 53) (y.val - cost (reading t y).granted) (left y).val := by
    rw [left_val t]
    exact near_round _
  exact (near_round_of_near (hleft.trans (by norm_num) (near_print _))).mono (by norm_num)

lemma reread_left_nonneg {y : Double} (hy : 0 ≤ y.val) :
    0 ≤ (Number.reread (left y) : Double).val := by
  have hleft : 0 ≤ (left y).val := by
    rw [left_val 0]
    exact roundTo_nonneg (by norm_num) (sub_cost_nonneg hy 0)
  exact roundTo_nonneg (by norm_num) (roundTo_nonneg (by norm_num) hleft)

/-- The time that the script finds elapsed is exact. -/
lemma elapsed_val {t u : ℤ} (h0 : 0 ≤ t) (htu : t ≤ u) (hu : u ≤ 10 ^ 14) :
    (Lua.max (num 0) (num u - Number.reread (num t)) : Double).val = ((u - t : ℤ) : ℚ) := by
  have hzero : (num 0 : Double).val = (0 : ℤ) := num_val (by norm_num)
  have hsub : (num u - num t : Double).val = ((u - t : ℤ) : ℚ) := by
    rw [Double.sub_val, num_val (by rw [abs_of_nonneg (by omega)]; omega),
      num_val (by rw [abs_of_nonneg h0]; omega), ← Int.cast_sub]
    exact Double.round_intCast (by rw [abs_of_nonneg (by omega)]; omega)
  rw [reread_num h0 (by omega), Double.max_val, hsub, hzero]
  exact max_eq_right (by exact_mod_cast (by omega : 0 ≤ u - t))

/-! ## One refill -/

lemma due_reading (r : ℚ) (t u : ℤ) (y z : Double) : due r (reading t y) (reading u z) =
    y.val - cost (reading t y).granted + ((u - t : ℤ) : ℚ) * r := by
  rw [due, reading, reading]
  push_cast
  rfl

/-- The margin of one check. -/
def margin (L : ℤ) : ℚ := L / 10 ^ 13

/-- Capped at a capacity that is nearly the limit, what is nearly due errs by at most the
margin. -/
lemma min_bounds {l c e z : ℚ} (hl : 0 ≤ l) (hc : Near (1 / 2 ^ 53) l c) (he : 0 ≤ e)
    (hz : Near (6 / 10 ^ 14) e z) :
    Min.min c z ≤ e + l / 10 ^ 13 ∧
      (Min.min c z = c ∨ e ≤ Min.min c z + l / 10 ^ 13) := by
  rw [Near, abs_of_nonneg hl, abs_le] at hc
  rw [Near, abs_of_nonneg he, abs_le] at hz
  obtain ⟨hc1, hc2⟩ := hc
  obtain ⟨hz1, hz2⟩ := hz
  constructor
  · rcases le_or_gt e c with hle | hgt
    · exact (min_le_right _ _).trans (by linarith)
    · exact (min_le_left _ _).trans (by linarith)
  · rcases le_or_gt c z with hle | hgt
    · exact .inl (min_eq_left hle)
    · rw [min_eq_right hgt.le]
      exact .inr (by linarith)

/-- **One refill errs by at most the margin.** -/
lemma drifts_refill (hL : 1 ≤ L) (hW : 1 ≤ W ∧ W ≤ 2 ^ 53) (id : String) {t u : ℤ} (h0 : 0 ≤ t)
    (htu : t ≤ u) (hu : u ≤ 10 ^ 14) {y : Double} (hy : 0 ≤ y.val) :
    Drifts (num L : Double).val (rate L W) (margin L) (reading t y)
      (reading u (refill (num L) (ratePerMs (request id L W)) (num u)
        (some ⟨Number.reread (left y), Number.reread (num t)⟩))) := by
  have hlimit : (0 : ℚ) ≤ L := capacity_nonneg hL
  have hcap : Near (1 / 2 ^ 53) (L : ℚ) (num L : Double).val := near_round L
  have hspan : (0 : ℚ) ≤ ((u - t : ℤ) : ℚ) := by exact_mod_cast (by omega : 0 ≤ u - t)
  have hgain := mul_nonneg hspan (rate_pos hL hW.1).le
  -- the product and the sum are rounded
  have hwindow : |W| ≤ 2 ^ 53 := abs_le.2 ⟨by omega, hW.2⟩
  have hprod := near_round_of_near ((near_rate (L := L) hwindow id).mul_left ((u - t : ℤ) : ℚ))
  have hsum := near_round_of_near ((near_reread_left t y).add (sub_cost_nonneg hy t) hgain
    (hprod.mono (by norm_num)))
  have hval : (refill (num L) (ratePerMs (request id L W)) (num u)
      (some ⟨Number.reread (left y), Number.reread (num t)⟩) : Double).val =
      Min.min (num L : Double).val (roundTo 2 53 ((Number.reread (left y) : Double).val +
        roundTo 2 53 (((u - t : ℤ) : ℚ) * (ratePerMs (request id L W) : Double).val))) := by
    simp only [refill]
    rw [Double.min_val, Double.add_val, Double.mul_val, elapsed_val h0 htu hu]
  obtain ⟨hupper, hlower⟩ := min_bounds hlimit hcap
    (add_nonneg (sub_cost_nonneg hy t) hgain) (hsum.mono (by norm_num))
  rw [← hval, ← due_reading] at hupper hlower
  exact ⟨hval.trans_le (min_le_left _ _), hupper, hlower⟩

/-- A bucket that is gone was due for at least the whole limit. -/
lemma drifts_gone (hL : 1 ≤ L) (hW : 1 ≤ W) {t u : ℤ} (hage : t + W * 1000 ≤ u) {y : Double}
    (hy : 0 ≤ y.val) :
    Drifts (num L : Double).val (rate L W) (margin L) (reading t y) (reading u (num L)) := by
  have hlimit : (0 : ℚ) ≤ L := capacity_nonneg hL
  have hcap : Near (1 / 2 ^ 53) (L : ℚ) (num L : Double).val := near_round L
  rw [Near, abs_of_nonneg hlimit] at hcap
  obtain ⟨-, hcap⟩ := abs_le.1 hcap
  have hspan : (W * 1000 : ℚ) ≤ ((u - t : ℤ) : ℚ) := by exact_mod_cast (by omega)
  have hgain : (W * 1000 : ℚ) * rate L W ≤ ((u - t : ℤ) : ℚ) * rate L W :=
    mul_le_mul_of_nonneg_right hspan (rate_pos hL hW).le
  have hfull := window_mul_rate (L := L) hW
  have hleft := sub_cost_nonneg hy t
  refine ⟨le_rfl, ?_, .inl rfl⟩
  rw [due_reading]
  show (num L : Double).val ≤ _ + margin L
  rw [margin]
  linarith

lemma refill_val_nonneg {cap rate now : Double} (hcap : 0 ≤ cap.val) (hrate : 0 ≤ rate.val)
    {d : BucketFields Double} (hd : 0 ≤ d.tokens.val) :
    0 ≤ (refill cap rate now (some d)).val := by
  have hzero : (num 0 : Double).val = (0 : ℤ) := num_val (by norm_num)
  simp only [refill]
  rw [Double.min_val, Double.add_val, Double.mul_val, Double.max_val, hzero, Int.cast_zero]
  have hgain := roundTo_nonneg (b := 2) (p := 53) (by norm_num)
    (mul_nonneg (le_max_left 0 (now - d.lastMs).val) hrate)
  exact le_min hcap (roundTo_nonneg (by norm_num) (add_nonneg hd hgain))

/-! ## One check -/

variable {P : Expiry} {id : String} {st p : Stamp} {ks : Keyspace (BucketFields Double)}
  {y : Double}

/-- The tokens that a check finds when the script reads `data`. -/
def found (id : String) (L W : ℤ) (st : Stamp) (data : Option (BucketFields Double)) : Double :=
  refill (num L) (ratePerMs (request id L W)) (num st.nowMs) data

lemma found_none : found id L W st none = num L := by
  rw [found, refill_same_time (by simp), Option.elim_none, Lua.min, ite_self]

/-- The key holds what a check at `p` left of `y` tokens. -/
def LeftBy (id : String) (W : ℤ) (p : Stamp) (y : Double) (ks : Keyspace (BucketFields Double)) :
    Prop :=
  ks (tbKey id) = some ⟨.hash ⟨Number.reread (left y), Number.reread (num p.nowMs)⟩,
    some (p.redisMs + W * 2 * 1000)⟩

/-- What a check returns when it finds `y` tokens. -/
def answer (id : String) (L W : ℤ) (st : Stamp) (y : Double) : Result where
  allowed := (reading st.nowMs y).granted
  remaining := Number.toReply (Number.floor (left y))
  limit := L
  resetAt := Number.toReply (Number.floor (num st.nowMs / num 1000 : Double) +
    secsToFull (num L) (ratePerMs (request id L W)) (left y))
  retryAfter := Number.toReply (spend (ratePerMs (request id L W) : Double)
    (num (ttlSecs (request id L W))) y).2.2

lemma parseResult_answer (id : String) (L W : ℤ) (st : Stamp) (y : Double) :
    parseResult (bucketReply (num L) (ratePerMs (request id L W)) (num st.nowMs)
      (num (ttlSecs (request id L W))) y) L = .ok (answer id L W st y) := by
  obtain ⟨hspend, hleft⟩ :=
    spend_double (ratePerMs (request id L W)) (num (ttlSecs (request id L W))) y
  have hallowed : (Number.toReply (spend (ratePerMs (request id L W) : Double)
      (num (ttlSecs (request id L W))) y).1 == 1) = (reading st.nowMs y).granted := by
    have hone : Number.toReply (num 1 : Double) = 1 := toReply_num (by norm_num)
    have hzero : Number.toReply (num 0 : Double) = 0 := toReply_num (by norm_num)
    rw [hspend]
    by_cases h : num 1 ≤ y
    · rw [if_pos h, hone, (num_one_le _ _).1 h]
      rfl
    · rw [if_neg h, hzero, Bool.eq_false_iff.2 fun hg => h ((num_one_le _ _).2 hg)]
      rfl
  simp only [bucketReply, parseResult, hallowed, hleft, answer]

/-- A check answers for the tokens that it finds, and leaves the rest. -/
lemma check_found (hW : 1 ≤ W) {data : Option (BucketFields Double)}
    (hdata : ((hmget (tbKey id)).run ⟨st.redisMs, P⟩ ks).1 = .ok data)
    (hfits : TimeFits st.redisMs (W * 2)) :
    (Service.check P ks ⟨request id L W, st⟩).1 =
        .ok (answer id L W st (found id L W st data)) ∧
      LeftBy id W st (found id L W st data) (Service.check P ks ⟨request id L W, st⟩).2 := by
  have harg : Number.toArg (num (ttlSecs (request id L W)) : Double) = some (W * 2) :=
    toArg_ttl hW hfits
  have hrun := tokenBucketLua_accepted (tbKey id) (num L : Double) (ratePerMs (request id L W))
    (num st.nowMs) (num (ttlSecs (request id L W))) hdata harg hfits
  have hcheck : Service.check P ks ⟨request id L W, st⟩ =
      checkTokenBucket P (request id L W) st ks := rfl
  have hfuture : ¬ st.redisMs + W * 2 * 1000 ≤ st.redisMs := by omega
  have hstored : storedFields (num L : Double) (ratePerMs (request id L W)) (num st.nowMs)
      (num (ttlSecs (request id L W))) data =
      ⟨Number.reread (left (found id L W st data)), Number.reread (num st.nowMs)⟩ := by
    rw [storedFields, (spend_double _ _ _).2, found]
  rw [Keyspace.expireEntry, if_neg hfuture, hstored] at hrun
  rw [hcheck, checkTokenBucket, show (request id L W).identifier = id from rfl,
    show (request id L W).limit = L from rfl, hrun]
  exact ⟨parseResult_answer id L W st _, Keyspace.insert_self ..⟩

lemma LeftBy.next (h : LeftBy id W p y ks) (hL : 1 ≤ L) (hW : 1 ≤ W)
    (hfits : TimeFits p.redisMs (W * 2)) (hpaced : Paced W p st) (h0 : 0 ≤ p.nowMs)
    (hst : st.nowMs ≤ 10 ^ 14) (hy : 0 ≤ y.val) :
    ∃ data, ((hmget (tbKey id)).run ⟨st.redisMs, P⟩ ks).1 = .ok data ∧
      Drifts (num L : Double).val (rate L W) (margin L) (reading p.nowMs y)
        (reading st.nowMs (found id L W st data)) ∧ 0 ≤ (found id L W st data).val := by
  have hread := hmget_of_hash (c := ⟨st.redisMs, P⟩) h
  have hwindow : W ≤ 2 ^ 53 := by
    obtain ⟨⟨-, hbound⟩, -⟩ := hfits
    omega
  have hcap := num_nonneg hL
  cases hgone : P.gone (p.redisMs + W * 2 * 1000) st.redisMs with
  | false =>
    exact ⟨_, by simpa [hgone] using hread, drifts_refill hL ⟨hW, hwindow⟩ id h0 hpaced.1 hst hy,
      refill_val_nonneg hcap (rate_nonneg hL hW id) (reread_left_nonneg hy)⟩
  | true =>
    refine ⟨none, by simpa [hgone] using hread, ?_⟩
    rw [found_none]
    exact ⟨drifts_gone hL hW (hpaced.2 (P.due hgone)) hy, hcap⟩

/-! ## The run -/

/-- The checks of a run at `ss` find the tokens listed in `xs`, and answer for them. -/
structure Finds (P : Expiry) (id : String) (L W : ℤ) (ks : Keyspace (BucketFields Double))
    (ss : List Stamp) (xs : List (Stamp × Double)) : Prop where
  stamps : xs.map Prod.fst = ss
  outputs : (service Double P).outputs ks (calls (request id L W) ss) =
    xs.map fun x => .ok (answer id L W x.1 x.2)
  nonneg : ∀ x ∈ xs, 0 ≤ x.2.val

/-- The readings of a run. -/
def readings (xs : List (Stamp × Double)) : List (Reading ℚ) :=
  xs.map fun x => reading x.1.nowMs x.2

variable {ss : List Stamp} {xs : List (Stamp × Double)}

lemma Finds.cons (hr : (Service.check P ks ⟨request id L W, st⟩).1 = .ok (answer id L W st y))
    (hy : 0 ≤ y.val) (h : Finds P id L W (Service.check P ks ⟨request id L W, st⟩).2 ss xs) :
    Finds P id L W ks (st :: ss) ((st, y) :: xs) := by
  obtain ⟨hstamps, houts, hnonneg⟩ := h
  refine ⟨by rw [List.map_cons, hstamps], ?_, ?_⟩
  · rw [calls, List.map_cons, Machine.outputs_cons, service_step, hr, List.map_cons]
    exact congrArg _ houts
  · rintro x hx
    rcases List.mem_cons.1 hx with rfl | hx
    · exact hy
    · exact hnonneg x hx

lemma count_readings (id : String) (L W : ℤ) (xs : List (Stamp × Double)) (i j : ℕ) :
    grantsFrom ((decisions (readings xs)).take i) j =
      (((xs.map fun x => (.ok (answer id L W x.1 x.2) : Except CheckError Result)).take i).drop
        j).countP admitted := by
  rw [decisions, readings, List.map_map, grantsFrom, ← List.map_take, ← List.map_take,
    ← List.map_drop, ← List.map_drop, List.count, List.countP_map, List.countP_map]
  exact List.countP_congr fun x _ => by simp [answer]

/-- A run from a key that the check at `p` left. -/
lemma LeftBy.run (hL : 1 ≤ L) (hW : 1 ≤ W) (h : LeftBy id W p y ks) (hy : 0 ≤ y.val)
    (hpaced : (p :: ss).IsChain (Paced W))
    (hss : ∀ st ∈ p :: ss, TimeFits st.redisMs (W * 2) ∧ 0 ≤ st.nowMs ∧ st.nowMs ≤ 10 ^ 14) :
    ∃ xs, Finds P id L W ks ss xs ∧ (reading p.nowMs y :: readings xs).IsChain
      (Drifts (num L : Double).val (rate L W) (margin L)) := by
  induction ss generalizing p y ks with
  | nil => exact ⟨[], ⟨rfl, rfl, by simp⟩, List.isChain_singleton _⟩
  | cons st ss ih =>
    obtain ⟨hfits, h0, -⟩ := hss p (by simp)
    obtain ⟨hfits', h0', hst⟩ := hss st (by simp)
    obtain ⟨hstep, hrest⟩ := List.isChain_cons_cons.1 hpaced
    obtain ⟨data, hdata, hdrifts, hy'⟩ := h.next (P := P) hL hW hfits hstep h0 hst hy
    obtain ⟨hr, hleft⟩ := check_found (L := L) hW hdata hfits'
    obtain ⟨xs, hxs, hchain⟩ :=
      ih hleft hy' hrest fun q hq => hss q (List.mem_cons_of_mem _ hq)
    exact ⟨_ :: xs, hxs.cons hr hy', List.isChain_cons_cons.2 ⟨hdrifts, hchain⟩⟩

/-- **A run from an empty database drifts from the exact bucket by at most the margin in every
check.** -/
theorem run_drifts (hL : 1 ≤ L) (hW : 1 ≤ W) (P : Expiry) (id : String)
    (hpaced : ss.IsChain (Paced W))
    (hss : ∀ st ∈ ss, TimeFits st.redisMs (W * 2) ∧ 0 ≤ st.nowMs ∧ st.nowMs ≤ 10 ^ 14) :
    ∃ xs, Finds P id L W .empty ss xs ∧
      (readings xs).IsChain (Drifts (num L : Double).val (rate L W) (margin L)) ∧
      ∀ h : 0 < (readings xs).length, (readings xs)[0].tokens = (num L : Double).val := by
  cases ss with
  | nil => exact ⟨[], ⟨rfl, rfl, by simp⟩, List.isChain_nil, by simp [readings]⟩
  | cons st ss =>
    obtain ⟨hfits, -, -⟩ := hss st (by simp)
    have hdata : ((hmget (tbKey id)).run ⟨st.redisMs, P⟩ .empty).1 =
        .ok (none : Option (BucketFields Double)) := hmget_of_none rfl
    obtain ⟨hr, hleft⟩ := check_found (L := L) hW hdata hfits
    rw [found_none] at hr hleft
    obtain ⟨xs, hxs, hchain⟩ := hleft.run hL hW (num_nonneg hL) hpaced hss
    exact ⟨_ :: xs, hxs.cons hr (num_nonneg hL), hchain, fun _ => rfl⟩

/-- **In doubles, the token bucket admits the conforming checks up to a margin.**  In a run of
checks with one limit and window, whose TTL Redis accepts, at paced stamps that are printed exactly,
every check has a result.  If check `i` is allowed, then for every `j ≤ i` the checks allowed since
`j` and this one fit in the limit plus the refill since `j`, with a margin of the limit times
`10 ^ -13` for every check from `j` on; if it is rejected, then they do not fit for some `j` with so
much less. -/
theorem conforms_within_margin (hL : 1 ≤ L) (hW : 1 ≤ W) (P : Expiry) (id : String)
    (ss : List Stamp) (hpaced : ss.IsChain (Paced W))
    (hss : ∀ st ∈ ss, TimeFits st.redisMs (W * 2) ∧ 0 ≤ st.nowMs ∧ st.nowMs ≤ 10 ^ 14) :
    let rs := (service Double P).outputs .empty (calls (request id L W) ss)
    ∀ (i : ℕ) (hi : i < ss.length), ∃ r : Result, rs[i]? = some (.ok r) ∧
      (r.allowed = true → ∀ (j : ℕ) (hj : j ≤ i),
        (((rs.take i).drop j).countP admitted : ℚ) + 1 ≤
          L + (ss[i].nowMs - ss[j].nowMs) * L / (1000 * W) + (i - j + 1) * L / 10 ^ 13) ∧
      (r.allowed = false → ∃ (j : ℕ) (hj : j ≤ i),
        L + (ss[i].nowMs - ss[j].nowMs) * L / (1000 * W) - (i - j + 1) * L / 10 ^ 13 <
          (((rs.take i).drop j).countP admitted : ℚ) + 1) := by
  intro rs i hi
  obtain ⟨xs, ⟨rfl, houts, -⟩, hchain, hfirst⟩ := run_drifts hL hW P id hpaced hss
  rw [List.length_map] at hi
  have hi' : i < (readings xs).length := by rwa [readings, List.length_map]
  obtain ⟨hgranted, hrefused⟩ := granted_of_drifts hchain hfirst i hi'
  have hlimit : (0 : ℚ) ≤ L := capacity_nonneg hL
  have hcap : Near (1 / 2 ^ 53) (L : ℚ) (num L : Double).val := near_round L
  rw [Near, abs_of_nonneg hlimit, abs_le] at hcap
  obtain ⟨hcap1, hcap2⟩ := hcap
  simp only [count_readings id L W, mul_rate, margin] at hgranted hrefused
  refine ⟨answer id L W xs[i].1 xs[i].2, by simp [rs, houts, hi], fun h j hj => ?_, fun h => ?_⟩
  · have hfit := hgranted (by simpa [readings, answer] using h) j hj
    simp only [readings, reading, List.getElem_map] at hfit
    simp only [rs, houts, List.getElem_map]
    linarith
  · obtain ⟨j, hj, hfit⟩ := hrefused (by simpa [readings, answer] using h)
    simp only [readings, reading, List.getElem_map] at hfit
    simp only [rs, houts, List.getElem_map]
    exact ⟨j, hj, by linarith⟩

/-- Three checks in one millisecond of the year 2024, with a limit of two: the third is rejected in
doubles, too. -/
theorem third_of_burst_refused_double :
    ∃ r : Result, ((service Double .past).outputs .empty (calls (request "user:1" 2 60)
      ([1717243200000, 1717243200000, 1717243200000].map Stamp.sync)))[2]? = some (.ok r) ∧
      r.allowed = false := by
  obtain ⟨r, hr, hallowed, -⟩ := conforms_within_margin (L := 2) (W := 60) (by decide) (by decide)
    .past "user:1" ([1717243200000, 1717243200000, 1717243200000].map Stamp.sync)
    (isChain_paced_sync (by decide) (by decide)) (by decide) 2 (by decide)
  refine ⟨r, hr, Bool.eq_false_iff.2 fun h => ?_⟩
  have hfit := hallowed h 0 (by decide)
  exact absurd hfit (by decide +kernel)

end TokenBucket

end ShardLeak
