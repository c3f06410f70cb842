/-
# Raising limits

Two runs at the same stamps, of which the second has the higher limits.  A single check may be
refused in the second run and allowed in the first, because the second has spent its tokens
earlier; but then it is ahead, and it never falls behind.

The buckets of the two runs are written by the same checks, so that Redis drops both or none of
them, whatever its clock shows.  A counter has to be written within its window.

The comparison is the rule on leads of `ShardLeak/Lib/Machine.lean`: the relation between the two
states carries how many checks more the second run has admitted so far, and says that the first
bucket holds at most this many tokens more (`Leads`).  The tokens that the second run lacks are
thus those of checks that it admitted before.  The counters of the two runs are compared as they
are: with higher limits, a counter is never behind.
-/
import ShardLeak.FixedWindow.Admission
import ShardLeak.TokenBucket.Admission

namespace ShardLeak

open RateLimit Redis

/-- A check of two runs: its stamp, its limit in the first, and in the second. -/
structure RaisedCheck where
  stamp : Stamp
  limit : ℤ
  raised : ℤ
deriving DecidableEq

/-- The calls of a run in which check `c` has the limit `lim c`. -/
def raisedCalls (id : String) (W : ℤ) (a : Algorithm) (lim : RaisedCheck → ℤ)
    (cs : List RaisedCheck) : List Call :=
  cs.map fun c => ⟨⟨id, lim c, W, a⟩, c.stamp⟩

/-- The second run has admitted at least as many checks as the first: of every prefix, for the
token bucket; of every prefix within each aligned window, for the fixed window. -/
def AdmitsNoFewer (W : ℤ) (cs : List RaisedCheck) (rs rs' : List (Except CheckError Result)) :
    Algorithm → Prop
  | .tokenBucket => ∀ n : ℕ, (rs.take n).countP admitted ≤ (rs'.take n).countP admitted
  | .fixedWindow => ∀ (n : ℕ) (k : ℤ),
      (((cs.take n).zip (rs.take n)).countP fun p =>
        admitted p.2 && decide (FixedWindow.InWindow W k p.1.stamp.nowSecs)) ≤
      ((cs.take n).zip (rs'.take n)).countP fun p =>
        admitted p.2 && decide (FixedWindow.InWindow W k p.1.stamp.nowSecs)
  | .other _ => True

/-- Redis accepts the expiry, and the script of a counter reaches it before the window ends. -/
def StampFits (W : ℤ) (st : Stamp) : Algorithm → Prop
  | .tokenBucket => TimeFits st.redisMs (W * 2)
  | .fixedWindow =>
    FixedWindow.InTime W st ∧ TimeFits 0 (FixedWindow.windowEnd W st.nowSecs)
  | .other _ => True

instance (W : ℤ) (st : Stamp) : (a : Algorithm) → Decidable (StampFits W st a)
  | .tokenBucket => inferInstanceAs (Decidable (TimeFits ..))
  | .fixedWindow => inferInstanceAs (Decidable (_ ∧ _))
  | .other _ => inferInstanceAs (Decidable True)

/-- A check whose limit is raised, and whose stamp fits. -/
structure RaisedCheck.Valid (W : ℤ) (a : Algorithm) (c : RaisedCheck) : Prop where
  limit : 1 ≤ c.limit
  le : c.limit ≤ c.raised
  raised : Lua.FitsInt64 c.raised
  fits : StampFits W c.stamp a

instance (W : ℤ) (a : Algorithm) (c : RaisedCheck) : Decidable (c.Valid W a) :=
  decidable_of_iff (1 ≤ c.limit ∧ c.limit ≤ c.raised ∧ Lua.FitsInt64 c.raised ∧
    StampFits W c.stamp a) ⟨fun h => ⟨h.1, h.2.1, h.2.2.1, h.2.2.2⟩,
      fun h => ⟨h.limit, h.le, h.raised, h.fits⟩⟩

variable {W : ℤ}

/-! ## Buckets -/

namespace TokenBucket

open Bucket

/-- The buckets of the two runs: neither was used, or both were last used by the same check and
expire together, and the first has at most the tokens of the second and its lead `d`. -/
def Leads (key : String) (cs : List RaisedCheck) (d : ℕ)
    (ks ks' : Keyspace (BucketFields ℚ)) : Prop :=
  (ks key = none ∧ ks' key = none) ∨ ∃ (p e : ℤ) (x y : ℚ), (∀ c ∈ cs, p ≤ c.stamp.nowMs) ∧
    ks key = some ⟨.hash ⟨x, p⟩, some e⟩ ∧ ks' key = some ⟨.hash ⟨y, p⟩, some e⟩ ∧ x ≤ y + d

/-- What the two scripts read: both keys are gone, or none is. -/
lemma Leads.read {P : Expiry} {key : String} {c : RaisedCheck} {cs : List RaisedCheck} {d : ℕ}
    {ks ks' : Keyspace (BucketFields ℚ)} (h : Leads key (c :: cs) d ks ks') (hW : 1 ≤ W)
    (hc : 1 ≤ c.limit ∧ c.limit ≤ c.raised) :
    ∃ data data' : Option (BucketFields ℚ),
      ((hmget key).run ⟨c.stamp.redisMs, P⟩ ks).1 = .ok data ∧
      ((hmget key).run ⟨c.stamp.redisMs, P⟩ ks').1 = .ok data' ∧
      (∀ b ∈ data, b.lastMs ≤ c.stamp.nowMs) ∧ (∀ b ∈ data', b.lastMs ≤ c.stamp.nowMs) ∧
      fill (c.limit : ℚ) (rate c.limit W) (data.map toLevel) c.stamp.nowMs ≤
        fill (c.raised : ℚ) (rate c.raised W) (data'.map toLevel) c.stamp.nowMs + d := by
  have hcap : (c.limit : ℚ) ≤ c.raised := by exact_mod_cast hc.2
  have hrate : rate c.limit W ≤ rate c.raised W := by
    have hW' : (0 : ℚ) < W := by exact_mod_cast hW
    simp only [rate]
    gcongr
  have hfull : (c.limit : ℚ) ≤ c.raised + d := by
    have : (0 : ℚ) ≤ d := Nat.cast_nonneg d
    linarith
  rcases h with ⟨hks, hks'⟩ | ⟨p, e, x, y, hp, hks, hks', hxy⟩
  · exact ⟨none, none, hmget_of_none hks, hmget_of_none hks', by simp, by simp, hfull⟩
  · have hpt : (p : ℚ) ≤ c.stamp.nowMs := by exact_mod_cast hp c (by simp)
    have hread := hmget_of_hash (c := ⟨c.stamp.redisMs, P⟩) hks
    have hread' := hmget_of_hash (c := ⟨c.stamp.redisMs, P⟩) hks'
    cases hgone : P.gone e c.stamp.redisMs with
    | true =>
      exact ⟨none, none, by simpa [hgone] using hread, by simpa [hgone] using hread', by simp,
        by simp, hfull⟩
    | false =>
      exact ⟨some ⟨x, p⟩, some ⟨y, p⟩, by simpa [hgone] using hread, by simpa [hgone] using hread',
        by simpa using hpt, by simpa using hpt,
        fill_le_add hcap hrate (Nat.cast_nonneg d) hpt hxy⟩

lemma Leads.step {P : Expiry} {id : String} {c : RaisedCheck} {cs : List RaisedCheck} {d : ℕ}
    {ks ks' : Keyspace (BucketFields ℚ)} (h : Leads (tbKey id) (c :: cs) d ks ks') (hW : 1 ≤ W)
    (hc : c.Valid W .tokenBucket) (hcs : ∀ b ∈ cs, c.stamp.nowMs ≤ b.stamp.nowMs) :
    ∃ d' : ℕ,
      (admitted (Service.check P ks ⟨request id c.limit W, c.stamp⟩).1).toNat + d' =
        (admitted (Service.check P ks' ⟨request id c.raised W, c.stamp⟩).1).toNat + d ∧
      Leads (tbKey id) cs d' (Service.check P ks ⟨request id c.limit W, c.stamp⟩).2
        (Service.check P ks' ⟨request id c.raised W, c.stamp⟩).2 := by
  have hraised : 1 ≤ c.raised := hc.limit.trans hc.le
  obtain ⟨data, data', hdata, hdata', hord, hord', hlead⟩ := h.read (P := P) hW ⟨hc.limit, hc.le⟩
  have hstep : Service.check P ks ⟨request id c.limit W, c.stamp⟩ = _ :=
    check_request hc.limit hW hdata hord hc.fits
  have hstep' : Service.check P ks' ⟨request id c.raised W, c.stamp⟩ = _ :=
    check_request hraised hW hdata' hord' hc.fits
  obtain ⟨d', hcount, hafter⟩ := exists_lead hlead
  rw [hstep, hstep']
  refine ⟨d', ?_, .inr ⟨c.stamp.nowMs, _, _, _, hcs, Keyspace.insert_self ..,
    Keyspace.insert_self .., ?_⟩⟩
  · rw [admitted_ok, admitted_ok, result_allowed, result_allowed]
    exact hcount
  · exact hafter

lemma admitsNoFewer (hW : 1 ≤ W) (P : Expiry) (id : String) {cs : List RaisedCheck}
    (hcs : ∀ c ∈ cs, c.Valid W .tokenBucket)
    (hord : cs.Pairwise fun a b => a.stamp.nowMs ≤ b.stamp.nowMs) :
    ((service ℚ P).outputs .empty (raisedCalls id W .tokenBucket RaisedCheck.limit cs)).countP
        admitted ≤
      ((service ℚ P).outputs .empty (raisedCalls id W .tokenBucket RaisedCheck.raised cs)).countP
        admitted := by
  have hlead : ∃ d : ℕ, _ + d = _ + 0 :=
    (service ℚ P).countP_of_lead (N := service ℚ P)
      (f := fun c => ⟨request id c.limit W, c.stamp⟩)
      (g := fun c => ⟨request id c.raised W, c.stamp⟩)
      (R := fun cs d ks ks' => (∀ c ∈ cs, c.Valid W .tokenBucket) ∧
        cs.Pairwise (fun a b => a.stamp.nowMs ≤ b.stamp.nowMs) ∧ Leads (tbKey id) cs d ks ks')
      (by
        rintro c cs d ks ks' ⟨hvalid, hord, h⟩
        obtain ⟨hfirst, hrest⟩ := List.pairwise_cons.1 hord
        obtain ⟨d', hcount, hnext⟩ := h.step (P := P) hW (hvalid c (by simp)) hfirst
        exact ⟨d', hcount, fun b hb => hvalid b (by simp [hb]), hrest, hnext⟩)
      (s := .empty) (t := .empty) ⟨hcs, hord, .inl ⟨rfl, rfl⟩⟩
  obtain ⟨d, hd⟩ := hlead
  exact Nat.le.intro hd

end TokenBucket

/-! ## Windows -/

namespace FixedWindow

/-- A run of either limits, with the counts of its windows. -/
lemma countP_raised (hW : 1 ≤ W) (P : Expiry) (id : String) (lim : RaisedCheck → ℤ)
    {cs : List RaisedCheck} (hlim : ∀ c ∈ cs, Lua.FitsInt64 (lim c))
    (hfits : ∀ c ∈ cs, StampFits W c.stamp .fixedWindow) (k : ℤ) :
    ((cs.zip ((service ℚ P).outputs .empty (raisedCalls id W .fixedWindow lim cs))).countP fun p =>
        admitted p.2 && decide (InWindow W k p.1.stamp.nowSecs)) =
      Counter.machine.final 0 (cs.map fun c => ⟨c.stamp.nowSecs / W, lim c⟩) k := by
  have htimely : ∀ p ∈ cs.map fun c => (lim c, c.stamp), Timely W p := by
    intro p hp
    obtain ⟨c, hc, rfl⟩ := List.mem_map.1 hp
    obtain ⟨hin, hend⟩ := hfits c hc
    exact ⟨hlim c hc, hin, hend⟩
  have hcount := allowedAt_inWindow hW P id htimely k
  have hcalls : mixedCalls id W (cs.map fun c => (lim c, c.stamp)) =
      raisedCalls id W .fixedWindow lim cs := by
    simp [mixedCalls, raisedCalls, request]
  rw [hcalls, allowedAt, List.zip_map_left, List.countP_map, events, List.map_map] at hcount
  exact hcount

end FixedWindow

/-- **Raising limits never reduces admissions.**  The stamps are in order.  Scripts of counters run
within their windows, and those of buckets at any time. -/
theorem admitsNoFewer_of_raised {a : Algorithm} (ha : a = .tokenBucket ∨ a = .fixedWindow)
    (hW : 1 ≤ W) (P : Expiry) (id : String) (cs : List RaisedCheck)
    (hcs : ∀ c ∈ cs, c.Valid W a) (hord : cs.Pairwise fun a b => a.stamp.nowMs ≤ b.stamp.nowMs) :
    AdmitsNoFewer W cs
      ((service ℚ P).outputs .empty (raisedCalls id W a RaisedCheck.limit cs))
      ((service ℚ P).outputs .empty (raisedCalls id W a RaisedCheck.raised cs)) a := by
  rcases ha with rfl | rfl
  · intro n
    rw [← Machine.outputs_take, ← Machine.outputs_take, raisedCalls, raisedCalls, ← List.map_take,
      ← List.map_take]
    exact TokenBucket.admitsNoFewer hW P id (fun c hc => hcs c (List.mem_of_mem_take hc)) hord.take
  · intro n k
    have htake : ∀ c ∈ cs.take n, c.Valid W .fixedWindow := fun c hc =>
      hcs c (List.mem_of_mem_take hc)
    rw [← Machine.outputs_take, ← Machine.outputs_take, raisedCalls, raisedCalls, ← List.map_take,
      ← List.map_take, ← raisedCalls, ← raisedCalls,
      FixedWindow.countP_raised hW P id _ (fun c hc => ?_) (fun c hc => (htake c hc).fits),
      FixedWindow.countP_raised hW P id _ (fun c hc => (htake c hc).raised)
        (fun c hc => (htake c hc).fits)]
    · apply Counter.final_mono
      · rw [List.forall₂_map_left_iff, List.forall₂_map_right_iff, List.forall₂_same]
        intro c hc
        exact ⟨rfl, (htake c hc).le⟩
      · intro k
        exact le_rfl
    · obtain ⟨h1, h2, ⟨-, h3⟩, -⟩ := htake c hc
      exact ⟨by omega, by omega⟩

/-- The second run admits the second check, and so refuses the third, which the first admits. -/
theorem admitsNoFewer_spent_earlier :
    let cs : List RaisedCheck := [⟨.sync 0, 1, 1⟩, ⟨.sync 0, 1, 2⟩, ⟨.sync 0, 2, 2⟩]
    AdmitsNoFewer 60 cs
      ((service ℚ .past).outputs .empty
        (raisedCalls "user:1" 60 .fixedWindow RaisedCheck.limit cs))
      ((service ℚ .past).outputs .empty
        (raisedCalls "user:1" 60 .fixedWindow RaisedCheck.raised cs)) .fixedWindow :=
  admitsNoFewer_of_raised (.inr rfl) (by decide) .past "user:1" _ (by decide) (by decide)

end ShardLeak
