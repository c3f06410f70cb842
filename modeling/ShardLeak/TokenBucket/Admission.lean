/-
# What the token bucket admits

The admission law of the refilled bucket, carried over to the runs of the token bucket check
whose scripts run at their stamped time.

The rate of the bucket is the limit divided by the window, so that the refill over a time is a
fraction of the limit, and the law can be stated without rates: a check is admitted if and only
if, for every earlier start point, the checks admitted since then and this one together are at
most the limit plus the limit times the fraction of the window that has passed.

The theorem on the bucket is about grants counted on decisions.  The lemmas here count the same
grants on the results of the service, and drop the expiry by the comparison with the bucket that
never expires (`ShardLeak/TokenBucket/Ideal.lean`).
-/
import Mathlib.Data.List.Chain
import ShardLeak.TokenBucket.Ideal

namespace ShardLeak

namespace TokenBucket

open RateLimit Redis Bucket

variable {L W : ℤ}

lemma mul_rate (x : ℚ) : x * rate L W = x * L / (1000 * W) := by
  simp only [rate]
  rw [div_div, mul_div_assoc, mul_comm (W : ℚ)]

/-- Grants of a bucket, counted on the results of the ideal machine. -/
lemma grantsFrom_ideal (ts : List ℤ) (i j : ℕ) :
    grantsFrom (((machine (L : ℚ) (rate L W)).outputs none (ts.map Int.cast)).take i) j =
      ((((ideal L W).outputs none ts).take i).drop j).countP Result.allowed := by
  rw [ideal_allowed, ← List.map_take, grantsFrom, ← List.map_drop, List.count, List.countP_map]
  exact List.countP_congr fun r _ => by simp

/-- The grants of an interval, counted on the results of the ideal machine. -/
lemma grantsIn_ideal (lo hi : ℤ) (s : Option (Level ℚ)) (ts : List ℤ) :
    grantsIn (lo : ℚ) hi ((machine (L : ℚ) (rate L W)).log s (ts.map Int.cast)) =
      (ts.zip ((ideal L W).outputs s ts)).countP
        fun p => p.2.allowed && decide (lo ≤ p.1 ∧ p.1 ≤ hi) := by
  rw [grantsIn, Machine.log, ideal_allowed, List.zip_map, List.countP_map]
  exact List.countP_congr fun p _ => by simp

lemma isChain_paced_sync (hW : 1 ≤ W) {ts : List ℤ} (hts : ts.Pairwise (· ≤ ·)) :
    (ts.map Stamp.sync).IsChain (Paced W) := by
  refine List.isChain_map_of_isChain Stamp.sync ?_ hts.isChain
  intro a b hab
  refine ⟨hab, ?_⟩
  intro hdue
  -- twice the window has passed, hence also the window
  simp only [Stamp.sync_nowMs, Stamp.sync_redisMs] at hdue ⊢
  linarith [hdue, hW]

lemma outputs_sync (hL : 1 ≤ L) (hW : 1 ≤ W) (P : Expiry) (id : String) {ts : List ℤ}
    (hts : ts.Pairwise (· ≤ ·)) (hfits : ∀ t ∈ ts, TimeFits t (W * 2)) :
    (service ℚ P).outputs .empty (calls (request id L W) (ts.map Stamp.sync)) =
      ((ideal L W).outputs none ts).map Except.ok := by
  have hss : ∀ st ∈ ts.map Stamp.sync, TimeFits st.redisMs (W * 2) := by simpa using hfits
  rw [outputs_eq_ideal hL hW P id hss (isChain_paced_sync hW hts), List.map_map]
  simp [Function.comp_def]

/-- In stamp order, no closed interval sees more grants of the ideal bucket than the limit plus
its refill. -/
lemma countP_ideal_le (hL : 1 ≤ L) (hW : 1 ≤ W) {ts : List ℤ} (hts : ts.Pairwise (· ≤ ·))
    {lo hi : ℤ} (hlohi : lo ≤ hi) :
    ((ts.zip ((ideal L W).outputs none ts)).countP
      fun p => p.2.allowed && decide (lo ≤ p.1 ∧ p.1 ≤ hi) : ℚ) ≤
        L + (hi - lo) * L / (1000 * W) := by
  rw [← mul_rate, ← grantsIn_ideal]
  exact grantsIn_le (capacity_nonneg hL) (rate_pos hL hW).le (by exact_mod_cast hlohi)
    (pairwise_cast hts) fun u _ => ready_none u

/-- **The token bucket admits exactly the conforming checks.**  In a run of checks with one
limit and window, at stamps in order, check `i` is allowed if and only if for every `j ≤ i` the
checks allowed since `j`, and this one, fit in the limit plus the refill since `j`.  Hence no
closed interval sees more than the limit plus its refill, and the expiry of keys changes no
result: whatever expired keys Redis drops, the run is that of a database that drops none. -/
theorem admits_iff_conforming (hL : 1 ≤ L) (hW : 1 ≤ W) (P : Expiry) (id : String) (ts : List ℤ)
    (hts : ts.Pairwise (· ≤ ·)) (hfits : ∀ t ∈ ts, TimeFits t (W * 2)) :
    let rs := (service ℚ P).outputs .empty (calls (request id L W) (ts.map Stamp.sync))
    (∀ (i : ℕ) (hi : i < ts.length), ∃ r : Result, rs[i]? = some (.ok r) ∧
      (r.allowed = true ↔ ∀ (j : ℕ) (hj : j ≤ i),
        (((rs.take i).drop j).countP admitted : ℚ) + 1 ≤
          L + (ts[i] - ts[j]) * L / (1000 * W))) ∧
    (∀ s t : ℤ, s ≤ t →
      ((ts.zip rs).countP fun p => admitted p.2 && decide (s ≤ p.1 ∧ p.1 ≤ t) : ℚ) ≤
        L + (t - s) * L / (1000 * W)) ∧
    rs = (service ℚ .never).outputs .empty (calls (request id L W) (ts.map Stamp.sync)) := by
  intro rs
  have hrs : rs = ((ideal L W).outputs none ts).map Except.ok := outputs_sync hL hW P id hts hfits
  refine ⟨?_, ?_, ?_⟩
  · intro i hi
    have hlen : i < ((ideal L W).outputs none ts).length := by simpa using hi
    refine ⟨((ideal L W).outputs none ts)[i], by simp [hrs], ?_⟩
    have hcap : (1 : ℚ) ≤ L := by exact_mod_cast hL
    have hlaw := granted_iff (rate L W) hcap (ts.map Int.cast) i (by simpa using hi)
      (by simpa using hi)
    have hcount : ∀ j, ((rs.take i).drop j).countP admitted =
        ((((ideal L W).outputs none ts).take i).drop j).countP Result.allowed := by
      intro j
      rw [hrs, ← List.map_take, ← List.map_drop, List.countP_map]
      rfl
    simp only [grantsFrom_ideal, List.getElem_map, mul_rate] at hlaw
    simp only [hcount]
    rw [← hlaw]
    simp only [ideal_allowed, List.getElem_map]
  · intro s t hst
    rw [hrs, List.zip_map_right, List.countP_map]
    exact countP_ideal_le hL hW hts hst
  · -- the ideal bucket knows no expiry, so any two ways to expire agree
    rw [hrs, outputs_sync hL hW .never id hts hfits]

/-- Two of three checks at once use up a limit of two. -/
theorem third_of_burst_refused :
    ∃ r : Result, ((service ℚ .past).outputs .empty
      (calls (request "user:1" 2 60) ([0, 0, 0].map Stamp.sync)))[2]? = some (.ok r) ∧
      r.allowed = false := by
  obtain ⟨r, hr, hlaw⟩ := (admits_iff_conforming (L := 2) (W := 60) (by decide) (by decide) .past
    "user:1" [0, 0, 0] (by decide) (by decide)).1 2 (by decide)
  refine ⟨r, hr, Bool.eq_false_iff.2 ?_⟩
  intro hallowed
  have hfirst := hlaw.1 hallowed 0 (by decide)
  exact absurd hfirst (by decide +kernel)

end TokenBucket

end ShardLeak
