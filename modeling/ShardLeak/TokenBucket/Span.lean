/-
# Scripts that reach Redis in any order

The stamp of a check is read before its script runs, by an instance with a clock of its own, so
the scripts of a run may reach Redis with stamps that go back.  The script gives nothing for a
stamp before the stored one, but stores it, and the time up to the next stamp is refilled once
more.  This file shows such a run, and that in stamp order no time is refilled twice, whatever
the clock of Redis says.

The second way in which a bucket can gain tokens is rounding.  The bound is therefore proved once
for all numbers that stand for rationals, under a condition on the roundings of each script: it is
empty for exact numbers, and for doubles it says what a script may do to the tokens that it finds.
-/
import ShardLeak.Lua.Double
import ShardLeak.TokenBucket.Admission

namespace ShardLeak

namespace TokenBucket

open RateLimit Redis Bucket Lua

variable {α : Type} [Number α] {L W : ℤ}

/-- The checks of a run, made on clocks that may disagree, stay within the limit plus the refill
of the time that their stamps span. -/
def WithinSpan (α : Type) [Number α] (P : Expiry) (id : String) (L W : ℤ) (ss : List Stamp) :
    Prop :=
  ∀ lo hi : ℤ, lo ≤ hi → (∀ st ∈ ss, lo ≤ st.nowMs ∧ st.nowMs ≤ hi) →
    (((service α P).outputs .empty (calls (request id L W) ss)).countP admitted : ℚ) ≤
      L + (hi - lo) * L / (1000 * W)

/-- No key expires during the run: every script but the first finds the key. -/
def Unexpired (α : Type) [Number α] (P : Expiry) (id : String) (L W : ℤ) (ss : List Stamp) : Prop :=
  ∀ (i : ℕ) (hi : i < ss.length), 0 < i →
    ((service α P).final .empty (calls (request id L W) (ss.take i))).find ⟨ss[i].redisMs, P⟩
      (tbKey id) ≠ none

instance (P : Expiry) (id : String) (L W : ℤ) (ss : List Stamp) :
    Decidable (Unexpired α P id L W ss) :=
  inferInstanceAs (Decidable (∀ (i : ℕ) (_ : i < ss.length), 0 < i → _ ≠ none))

/-- Two instances whose clocks are a second apart take turns: the script sets `last_ms` back to
the slower clock, and the faster one is credited the same second again. -/
def skewed : List Stamp :=
  [⟨1000, 1000⟩, ⟨2000, 1001⟩, ⟨1000, 1002⟩, ⟨2000, 1003⟩]

/-- A second that is refilled twice, in exact numbers and in doubles. -/
theorem not_withinSpan_skewed :
    (Unexpired ℚ .past "user:1" 1 1 skewed ∧ ¬ WithinSpan ℚ .past "user:1" 1 1 skewed) ∧
      Unexpired Double .past "user:1" 1 1 skewed ∧
        ¬ WithinSpan Double .past "user:1" 1 1 skewed := by
  refine ⟨⟨by decide +kernel, fun h => ?_⟩, by decide +kernel, fun h => ?_⟩
  · exact absurd (h 1000 2000 (by decide) (by decide)) (by decide +kernel)
  · exact absurd (h 1000 2000 (by decide) (by decide)) (by decide +kernel)

/-! ## The roundings of a script -/

/-- What the numbers of a script stand for. -/
structure Reads (val : α → ℚ) : Prop where
  one_le : ∀ x, num 1 ≤ x → 1 ≤ val x
  zero_ne : Number.toReply (num 0 : α) ≠ 1

lemma reads_rat : Reads (fun q : ℚ => q) where
  one_le x hx := by simpa using hx
  zero_ne := by simp

lemma reads_double : Reads Double.val where
  one_le x hx := by
    have hone : (num 1 : Double).val = (1 : ℤ) := num_val (by norm_num)
    simpa only [hone, Int.cast_one] using (show (num 1 : Double).val ≤ x.val from hx)
  zero_ne := by
    rw [toReply_num (by norm_num)]
    decide

/-- The tokens that a script finds after the refill, if it reads `data`. -/
def refilled (id : String) (L W : ℤ) (st : Stamp) (data : Option (BucketFields α)) : α :=
  refill (num L) (ratePerMs (request id L W)) (num st.nowMs) data

/-- What it stores. -/
def rewritten (id : String) (L W : ℤ) (st : Stamp) (data : Option (BucketFields α)) :
    BucketFields α :=
  storedFields (num L) (ratePerMs (request id L W)) (num st.nowMs)
    (num (ttlSecs (request id L W))) data

/-- The roundings of a script that reads `data` add no tokens: it finds no more than the same refill
in exact numbers, it stores no more than is left, and it stores its stamp as it is. -/
def AddsNone (val : α → ℚ) (id : String) (L W : ℤ) (st : Stamp) (data : Option (BucketFields α)) :
    Prop :=
  val (refilled id L W st data) ≤
      refill (L : ℚ) (rate L W) st.nowMs (data.map fun d => ⟨val d.tokens, val d.lastMs⟩) ∧
    val (rewritten id L W st data).tokens ≤
      val (refilled id L W st data) - cost (decide (num 1 ≤ refilled id L W st data)) ∧
    val (rewritten id L W st data).lastMs = st.nowMs

instance (val : α → ℚ) (id : String) (L W : ℤ) (st : Stamp) (data : Option (BucketFields α)) :
    Decidable (AddsNone val id L W st data) := inferInstanceAs (Decidable (_ ∧ _ ∧ _))

/-- The roundings of the script that a call runs add no tokens. -/
def NoGain (val : α → ℚ) (P : Expiry) (id : String) (L W : ℤ) (ks : Keyspace (BucketFields α))
    (c : Call) : Prop :=
  match ((hmget (tbKey id)).run ⟨c.stamp.redisMs, P⟩ ks).1 with
  | .error _ => True
  | .ok data => AddsNone val id L W c.stamp data

instance (val : α → ℚ) (P : Expiry) (id : String) (L W : ℤ) (ks : Keyspace (BucketFields α))
    (c : Call) : Decidable (NoGain val P id L W ks c) :=
  match h : ((hmget (tbKey id)).run ⟨c.stamp.redisMs, P⟩ ks).1 with
  | .error _ => isTrue (by simp only [NoGain, h])
  | .ok data => decidable_of_iff (AddsNone val id L W c.stamp data) (by simp only [NoGain, h])

lemma noGain_rat (P : Expiry) (id : String) (L W : ℤ) (ks : Keyspace (BucketFields ℚ)) (c : Call) :
    NoGain (fun q => q) P id L W ks c := by
  unfold NoGain
  split
  · trivial
  · rename_i data hdata
    refine ⟨?_, ?_, rfl⟩
    · rw [refilled, ratePerMs_request]
      cases data <;> exact le_rfl
    · rw [rewritten, storedFields, spend_left]
      exact le_rfl

/-! ## One check -/

variable {val : α → ℚ} {P : Expiry} {id : String} {st : Stamp} {ks : Keyspace (BucketFields α)}

/-- Only a whole token lets a check pass. -/
lemma Reads.of_admitted (hval : Reads val) {cap rate now ttl y : α}
    (h : admitted (parseResult (bucketReply cap rate now ttl y) L) = true) : num 1 ≤ y := by
  by_contra hlt
  have hspend : (spend rate ttl y).1 = num 0 := by
    unfold spend
    rw [if_neg hlt]
    split <;> rfl
  have hone : Number.toReply (spend rate ttl y).1 = 1 := beq_iff_eq.1 h
  rw [hspend] at hone
  exact hval.zero_ne hone

/-- `n` checks were allowed since `lo`, the last one at `p`, and what they left is not more than the
limit and the refill since `lo`, less these checks. -/
structure Spent (val : α → ℚ) (key : String) (L W lo p : ℤ) (n : ℕ)
    (ks : Keyspace (BucketFields α)) : Prop where
  count : (n : ℚ) ≤ L + (p - lo) * rate L W
  stored : ∀ e, ks key = some e → ∃ d, e.value = .hash d ∧ val d.lastMs = p ∧
    n + val d.tokens ≤ L + (p - lo) * rate L W

/-- A script that finds no more than the limit and the refill since `lo`, less the checks that were
allowed, keeps the account. -/
lemma spent_check (hval : Reads val) (lo : ℤ) {data : Option (BucketFields α)} {n : ℕ}
    (hdata : ((hmget (tbKey id)).run ⟨st.redisMs, P⟩ ks).1 = .ok data)
    (hgain : AddsNone val id L W st data)
    (hn : (n : ℚ) ≤ L + (st.nowMs - lo) * rate L W)
    (hfound : n + val (refilled id L W st data) ≤ L + (st.nowMs - lo) * rate L W) :
    Spent val (tbKey id) L W lo st.nowMs
      (n + (admitted (Service.check P ks ⟨request id L W, st⟩).1).toNat)
      (Service.check P ks ⟨request id L W, st⟩).2 := by
  obtain ⟨-, hleft, hlast⟩ := hgain
  have hspent : val (refilled id L W st data) - cost (decide (num 1 ≤ refilled id L W st data)) ≤
      val (refilled id L W st data) := by
    cases decide (num 1 ≤ refilled id L W st data) <;> simp
  -- what a script stores is what it leaves, whether its check is allowed or fails
  have hkeeps : ∀ b : Bool, (b = true → num 1 ≤ refilled id L W st data) →
      ((n + b.toNat : ℕ) : ℚ) ≤ L + (st.nowMs - lo) * rate L W ∧
      ((n + b.toNat : ℕ) : ℚ) + val (rewritten id L W st data).tokens ≤
        L + (st.nowMs - lo) * rate L W := by
    intro b hb
    cases b with
    | false =>
      simp only [Bool.toNat_false, Nat.add_zero]
      exact ⟨hn, by linarith⟩
    | true =>
      have hone := hval.one_le _ (hb rfl)
      rw [decide_eq_true (hb rfl), cost_true] at hleft
      simp only [Bool.toNat_true, Nat.cast_add, Nat.cast_one]
      exact ⟨by linarith, by linarith⟩
  obtain ⟨out, hrun, hcheck⟩ := checkTokenBucket_run P ks (request id L W) st
  have hservice : Service.check P ks ⟨request id L W, st⟩ =
      checkTokenBucket P (request id L W) st ks := rfl
  rw [hservice, hcheck]
  cases hrun with
  | wrongType hfind =>
    have herror : ((hmget (tbKey id)).run ⟨st.redisMs, P⟩ ks).1 = .error .wrongType := by
      simp only [hmget, show ks.find _ (tbKey id) = _ from hfind]
    cases hdata.symm.trans herror
  | stored hdata' harg hfits =>
    obtain rfl := Except.ok.inj (hdata'.symm.trans hdata)
    obtain ⟨hcount, hstored⟩ := hkeeps _ hval.of_admitted
    exact ⟨hcount, fun e he => ⟨_, Keyspace.value_of_expireEntry he, hlast, hstored⟩⟩
  | unbounded hne hdata' hacc =>
    obtain rfl := Except.ok.inj (hdata'.symm.trans hdata)
    obtain ⟨hcount, hstored⟩ := hkeeps false (by simp)
    refine ⟨hcount, fun e he => ?_⟩
    obtain rfl := Option.some.inj ((Keyspace.insert_self ..).symm.trans he)
    exact ⟨_, rfl, hlast, hstored⟩

/-! ## Runs -/

/-- The last script of a run finds the key, unless it is the first one. -/
lemma Unexpired.find {ss : List Stamp} (h : Unexpired α P id L W (ss ++ [st])) (hne : ss ≠ []) :
    ((service α P).final .empty (calls (request id L W) ss)).find ⟨st.redisMs, P⟩ (tbKey id) ≠
      none := by
  have hlast := h ss.length (by simp) (List.length_pos_iff.2 hne)
  simpa using hlast

lemma Unexpired.of_snoc {ss : List Stamp} (h : Unexpired α P id L W (ss ++ [st])) :
    Unexpired α P id L W ss := by
  intro i hi hpos
  have hlast := h i (by simp; omega) hpos
  rwa [List.take_append_of_le_length hi.le, List.getElem_append_left hi] at hlast

lemma calls_snoc (req : Request) (ss : List Stamp) (st : Stamp) :
    calls req (ss ++ [st]) = calls req ss ++ [⟨req, st⟩] := by
  simp [calls]

/-- In stamp order, a run whose roundings add no tokens keeps the account. -/
lemma run_spent (hval : Reads val) (hL : 1 ≤ L) (hW : 1 ≤ W) {lo : ℤ} {ss : List Stamp}
    (hlive : Unexpired α P id L W (ss ++ [st]))
    (hord : (ss ++ [st]).Pairwise fun a b => a.nowMs ≤ b.nowMs)
    (hgain : (service α P).Along (NoGain val P id L W) .empty (calls (request id L W) (ss ++ [st])))
    (hlo : ∀ q ∈ ss ++ [st], lo ≤ q.nowMs) :
    Spent val (tbKey id) L W lo st.nowMs
      (((service α P).outputs .empty (calls (request id L W) (ss ++ [st]))).countP admitted)
      ((service α P).final .empty (calls (request id L W) (ss ++ [st]))) := by
  have hrate : 0 ≤ rate L W := (rate_pos hL hW).le
  induction ss using List.reverseRecOn generalizing st with
  | nil =>
    -- the first script finds the whole limit
    have hdata : ((hmget (tbKey id)).run ⟨st.redisMs, P⟩ .empty).1 =
        .ok (none : Option (BucketFields α)) := hmget_of_none rfl
    have hnone : AddsNone val id L W st none := by
      have hfirst := hgain.1
      simpa only [NoGain, hdata] using hfirst
    have hfull := hnone.1
    rw [Option.map_none, refill_eq_fill (by simp), Option.map_none, fill_none] at hfull
    have hspan : (0 : ℚ) ≤ (st.nowMs - lo) * rate L W :=
      mul_nonneg (sub_nonneg.2 (by exact_mod_cast hlo st (by simp))) hrate
    have hlimit : (0 : ℚ) ≤ L := capacity_nonneg hL
    have hfirst := spent_check hval lo (n := 0) hdata hnone (by push_cast; linarith)
      (by push_cast; linarith)
    simpa [calls, Machine.countP_cons_toNat] using hfirst
  | append_singleton ss p ih =>
    rw [calls_snoc, Machine.along_append] at hgain
    obtain ⟨hbefore, hlast, -⟩ := hgain
    obtain ⟨hord', -, hcross⟩ := List.pairwise_append.1 hord
    have hpst : (p.nowMs : ℚ) ≤ st.nowMs := by
      exact_mod_cast hcross p (by simp) st (by simp)
    obtain ⟨hcount, hentry⟩ := ih hlive.of_snoc hord' hbefore
      fun q hq => hlo q (List.mem_append_left _ hq)
    rw [calls_snoc, Machine.outputs_append, Machine.final_append, List.countP_append]
    set ks := (service α P).final .empty (calls (request id L W) (ss ++ [p])) with hks
    set n := ((service α P).outputs .empty (calls (request id L W) (ss ++ [p]))).countP admitted
    -- the key is there, with what the last check left
    obtain ⟨⟨v, t⟩, he⟩ := Option.ne_none_iff_exists'.1 (hlive.find (by simp))
    rw [← hks] at he
    obtain ⟨d, rfl, hd, hstored⟩ := hentry _ (Keyspace.find_eq_some_iff.1 he).1
    have hdata : ((hmget (tbKey id)).run ⟨st.redisMs, P⟩ ks).1 = .ok (some d) := by
      simp only [hmget, he]
    have hsome : AddsNone val id L W st (some d) := by
      simpa only [NoGain, hdata] using hlast
    have hgrow : (p.nowMs - lo) * rate L W + (st.nowMs - p.nowMs) * rate L W =
        (st.nowMs - lo) * rate L W := by ring
    have hpause : (0 : ℚ) ≤ (st.nowMs - p.nowMs) * rate L W :=
      mul_nonneg (sub_nonneg.2 hpst) hrate
    have hfill : val (refilled id L W st (some d)) ≤
        val d.tokens + (st.nowMs - p.nowMs) * rate L W := by
      have hrefill := hsome.1
      rw [Option.map_some, hd, refill_eq_fill (by simpa using hpst)] at hrefill
      exact hrefill.trans (min_le_right _ _)
    have hnext := spent_check hval lo (n := n) hdata hsome (by linarith) (by linarith)
    simpa [Machine.countP_cons_toNat] using hnext

/-- The bound on a run, from the account of it. -/
lemma withinSpan_of_noGain (hval : Reads val) (hL : 1 ≤ L) (hW : 1 ≤ W) {ss : List Stamp}
    (hlive : Unexpired α P id L W ss) (hord : ss.Pairwise fun a b => a.nowMs ≤ b.nowMs)
    (hgain : (service α P).Along (NoGain val P id L W) .empty (calls (request id L W) ss)) :
    WithinSpan α P id L W ss := by
  intro lo hi hlohi hspan
  have hrate : 0 ≤ rate L W := (rate_pos hL hW).le
  rw [← mul_rate]
  rcases List.eq_nil_or_concat ss with rfl | ⟨ss, st, rfl⟩
  · have hlength : (0 : ℚ) ≤ (hi - lo) * rate L W :=
      mul_nonneg (sub_nonneg.2 (by exact_mod_cast hlohi)) hrate
    have hlimit : (0 : ℚ) ≤ L := capacity_nonneg hL
    simp only [calls, List.map_nil, Machine.outputs_nil, List.countP_nil, Nat.cast_zero]
    linarith
  · rw [List.concat_eq_append] at *
    have hst : (st.nowMs : ℚ) ≤ hi := by exact_mod_cast (hspan st (by simp)).2
    refine (run_spent hval hL hW hlive hord hgain fun q hq => (hspan q hq).1).count.trans ?_
    exact add_le_add_right (mul_le_mul_of_nonneg_right (by linarith) hrate) _

/-- **In stamp order, no time is refilled twice.**  If no script carries a smaller stamp than
the one before it, then the run stays within the limit plus the refill of its span: in exact
numbers, and also in doubles, provided that their roundings add no tokens. -/
theorem withinSpan_of_inOrder (hL : 1 ≤ L) (hW : 1 ≤ W) (P : Expiry) (id : String)
    (ss : List Stamp) (hord : ss.IsChain fun a b => a.nowMs ≤ b.nowMs) :
    (Unexpired ℚ P id L W ss → WithinSpan ℚ P id L W ss) ∧
      (Unexpired Double P id L W ss →
        (service Double P).Along (NoGain Double.val P id L W) .empty
          (calls (request id L W) ss) →
        WithinSpan Double P id L W ss) := by
  have hsorted := List.isChain_iff_pairwise.1 hord
  exact ⟨fun hlive => withinSpan_of_noGain reads_rat hL hW hlive hsorted
      ((service ℚ P).along_of_always (noGain_rat P id L W) .empty _),
    fun hlive hgain => withinSpan_of_noGain reads_double hL hW hlive hsorted hgain⟩

/-- Five checks in a minute, on a clock that is up to two milliseconds behind Redis. -/
def minuteOfChecks : List Stamp :=
  [⟨1717243200000, 1717243200000⟩, ⟨1717243200000, 1717243200001⟩, ⟨1717243230000, 1717243230001⟩,
    ⟨1717243245000, 1717243245001⟩, ⟨1717243260000, 1717243260002⟩]

theorem withinSpan_minuteOfChecks : WithinSpan ℚ .past "user:1" 2 60 minuteOfChecks ∧
    WithinSpan Double .past "user:1" 2 60 minuteOfChecks := by
  obtain ⟨hexact, hdouble⟩ := withinSpan_of_inOrder (L := 2) (W := 60) (by decide) (by decide)
    .past "user:1" minuteOfChecks (by decide)
  exact ⟨hexact (by decide +kernel), hdouble (by decide +kernel) (by decide +kernel)⟩

end TokenBucket

end ShardLeak
