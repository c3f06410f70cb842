/-
# Lost keys

Redis may lose keys before their time: it evicts them, or restarts without its data.  A run in
which this happens is compared with the run of the same checks in which nothing is lost.  The
limiter then admits no check less in total, and for every loss of the key of a quota at most the
limit more; the loss of other keys costs nothing.

Both runs compute with exact numbers, and all clocks agree.  In doubles the comparison fails: a
bucket that is lost starts again without the rounding of its tokens, and may then allow less than
one that was never lost.
-/
import ShardLeak.FixedWindow.Admission
import ShardLeak.Insertion
import ShardLeak.Ranges

namespace ShardLeak

open RateLimit Redis

/-! ## Runs with losses -/

/-- A check at a time, or the loss of a key. -/
inductive Moment where
  | check (nowMs : ℤ)
  | loss (key : String)
deriving DecidableEq

namespace Moment

/-- The time of a check. -/
def time : Moment → Option ℤ
  | check t => some t
  | loss _ => none

/-- The check of a request, on clocks that agree. -/
def call (req : Request) (m : Moment) : Option Call := m.time.map fun t => ⟨req, .sync t⟩

/-- What happens to the database. -/
def event (req : Request) : Moment → Event
  | check t => .check ⟨req, .sync t⟩
  | loss key => .drop key

/-- The times of the checks. -/
def times (ms : List Moment) : List ℤ := ms.filterMap time

@[simp] lemma times_nil : times [] = [] := rfl

@[simp] lemma times_check (t : ℤ) (ms : List Moment) : times (check t :: ms) = t :: times ms := rfl

@[simp] lemma times_loss (key : String) (ms : List Moment) : times (loss key :: ms) = times ms :=
  rfl

end Moment

/-- A check stamped in `q` that was allowed. -/
def allowedDespite (q : ℤ → Prop) [DecidablePred q] :
    Event × Option (Except CheckError Result) → Bool
  | (.check c, some r) => admitted r && decide (q c.stamp.nowSecs)
  | _ => false

/-- Over exact rationals, the losses of a key cost the quota of the times `q` at most the limit
each: the checks that are allowed there are as many as without losses, and at most so many more. -/
def LossesCost (P : Expiry) (req : Request) (ms : List Moment) (key : String) (q : ℤ → Prop)
    [DecidablePred q] : Prop :=
  let kept := allowedOf (fun c => q c.stamp.nowSecs)
    ((service ℚ P).log .empty (ms.filterMap (Moment.call req)))
  let lossy := ((lossyService P).log .empty (ms.map (Moment.event req))).countP (allowedDespite q)
  kept ≤ lossy ∧ (lossy : ℤ) ≤ kept + ms.count (.loss key) * req.limit

section Rule

variable {P : Expiry} {q : ℤ → Prop} [DecidablePred q] {key : String}

/-- It is enough to keep an account of the losses, of which `R` knows those still to come. -/
lemma lossesCost_of_account (req : Request) {n : ℕ} (hn : req.limit = n)
    {R : List Moment → ℕ → ℕ → Keyspace (BucketFields ℚ) → Keyspace (BucketFields ℚ) → Prop}
    (hcheck : ∀ t ms k d ks ks', R (.check t :: ms) k d ks ks' → ∃ d' : ℕ,
      (admitted (Service.check P ks ⟨req, .sync t⟩).1 && decide (q (t / 1000))).toNat + d' =
        (admitted (Service.check P ks' ⟨req, .sync t⟩).1 && decide (q (t / 1000))).toNat + d ∧
      R ms k d' (Service.check P ks ⟨req, .sync t⟩).2 (Service.check P ks' ⟨req, .sync t⟩).2)
    (hother : ∀ lost ms k d ks ks', lost ≠ key → R (.loss lost :: ms) k d ks ks' →
      R ms k d ks (ks'.delete lost))
    (hloss : ∀ ms k d ks ks', R (.loss key :: ms) k d ks ks' → R ms (k + 1) d ks (ks'.delete key))
    (hend : ∀ k d ks ks', R [] k d ks ks' → d ≤ k * n) {ms : List Moment}
    (h : R ms 0 0 .empty .empty) : LossesCost P req ms key q := by
  obtain ⟨d, ⟨k, hk, hR⟩, hcount⟩ := (service ℚ P).countP_of_faults (N := lossyService P)
    (fun p => admitted p.2 && decide (q p.1.stamp.nowSecs)) (allowedDespite q)
    (f := Moment.call req) (g := Moment.event req)
    (R := fun cs d ks ks' => ∃ k, k + cs.count (.loss key) = ms.count (.loss key) ∧
      R cs k d ks ks')
    (by
      rintro (t | lost) cs d ks ks' c hc ⟨k, hk, hR⟩
      · obtain rfl := Option.some.inj hc
        obtain ⟨d', hone, hnext⟩ := hcheck t cs k d ks ks' hR
        exact ⟨d', hone, k, by simpa using hk, hnext⟩
      · cases hc)
    (by
      rintro (t | lost) cs d ks ks' hc ⟨k, hk, hR⟩
      · cases hc
      · refine ⟨rfl, ?_⟩
        by_cases hlost : lost = key
        · subst hlost
          rw [List.count_cons_self] at hk
          exact ⟨k + 1, by omega, hloss cs k d ks ks' hR⟩
        · have hne : Moment.loss lost ≠ .loss key := by simpa using hlost
          rw [List.count_cons_of_ne hne] at hk
          exact ⟨k, hk, hother lost cs k d ks ks' hlost hR⟩)
    ⟨0, by simp, h⟩
  have hd := hend k d _ _ hR
  rw [List.count_nil, add_zero] at hk
  rw [hk] at hd
  have hd' : (d : ℤ) ≤ ms.count (.loss key) * req.limit := by
    rw [hn]
    exact_mod_cast hd
  simp only [LossesCost, allowedOf]
  exact ⟨by omega, by omega⟩

end Rule

variable {L W : ℤ}

/-! ## Buckets -/

namespace TokenBucket

open Bucket

/-- The buckets of the two runs, with the account of the losses. -/
structure Account (L W : ℤ) (key : String) (ms : List Moment) (k d : ℕ)
    (ks ks' : Keyspace (BucketFields ℚ)) : Prop where
  order : (Moment.times ms).Pairwise (· ≤ ·)
  buckets : ∃ (s s' : Option (Level ℚ)) (t : ℤ), (∀ u ∈ Moment.times ms, t ≤ u) ∧
    Ready s (t : ℚ) ∧
    Tracks W key ((Moment.times ms).map Stamp.sync) ks s ∧
    Tracks W key ((Moment.times ms).map Stamp.sync) ks' s' ∧
    Refunded (L : ℚ) (rate L W) t k d s s'

lemma Tracks.congr {key : String} {ss : List Stamp} {ks ks' : Keyspace (BucketFields ℚ)}
    {s : Option (Level ℚ)} (h : Tracks W key ss ks s) (hks : ks' key = ks key) :
    Tracks W key ss ks' s := by
  refine ⟨h.fits, h.chain, ?_⟩
  rw [hks]
  exact h.entry

/-- A bucket that is lost is tracked by one that was never used. -/
lemma Tracks.lost {key : String} {ss : List Stamp} {ks : Keyspace (BucketFields ℚ)}
    {s : Option (Level ℚ)} (h : Tracks W key ss ks s) : Tracks W key ss (ks.delete key) none :=
  ⟨h.fits, h.chain, .inl ⟨Keyspace.delete_self .., rfl⟩⟩

lemma Account.check (hL : 1 ≤ L) (hW : 1 ≤ W) {P : Expiry} {id : String} {t : ℤ} {ms : List Moment}
    {k d : ℕ} {ks ks' : Keyspace (BucketFields ℚ)}
    (h : Account L W (tbKey id) (.check t :: ms) k d ks ks') : ∃ d' : ℕ,
      (admitted (Service.check P ks ⟨request id L W, .sync t⟩).1 && decide True).toNat + d' =
        (admitted (Service.check P ks' ⟨request id L W, .sync t⟩).1 && decide True).toNat + d ∧
      Account L W (tbKey id) ms k d' (Service.check P ks ⟨request id L W, .sync t⟩).2
        (Service.check P ks' ⟨request id L W, .sync t⟩).2 := by
  obtain ⟨horder, s, s', t₀, ht₀, hready, htracks, htracks', hrefunded⟩ := h
  rw [Moment.times_check, List.map_cons] at htracks htracks'
  obtain ⟨hout, hafter⟩ := htracks.step (P := P) hL hW
  obtain ⟨hout', hafter'⟩ := htracks'.step (P := P) hL hW
  have hcap : (L : ℚ) = (L.toNat : ℕ) := by
    rw [← Int.cast_natCast, Int.toNat_of_nonneg (by omega)]
  have ht : (t₀ : ℚ) ≤ t := by exact_mod_cast ht₀ t (by simp)
  obtain ⟨d', hcount, hnext⟩ := hrefunded.step hcap ht
  refine ⟨d', ?_, horder.of_cons, _, _, t, fun u hu => List.rel_of_pairwise_cons horder hu,
    ready_grant (capacity_nonneg hL) (rate_pos hL hW).le (hready.mono ht), hafter, hafter', hnext⟩
  rw [hout, hout']
  simpa only [admitted_ok, result_allowed, Stamp.sync_nowMs, decide_true, Bool.and_true]
    using hcount

lemma Account.other {key lost : String} {ms : List Moment} {k d : ℕ}
    {ks ks' : Keyspace (BucketFields ℚ)} (hlost : lost ≠ key)
    (h : Account L W key (.loss lost :: ms) k d ks ks') :
    Account L W key ms k d ks (ks'.delete lost) := by
  obtain ⟨horder, s, s', t, ht, hready, htracks, htracks', hrefunded⟩ := h
  exact ⟨horder, s, s', t, ht, hready, htracks,
    htracks'.congr (Keyspace.delete_of_ne hlost.symm _), hrefunded⟩

lemma Account.loss (hL : 1 ≤ L) (hW : 1 ≤ W) {key : String} {ms : List Moment} {k d : ℕ}
    {ks ks' : Keyspace (BucketFields ℚ)} (h : Account L W key (.loss key :: ms) k d ks ks') :
    Account L W key ms (k + 1) d ks (ks'.delete key) := by
  obtain ⟨horder, s, s', t, ht, hready, htracks, htracks', hrefunded⟩ := h
  have hcap := capacity_nonneg hL
  refine ⟨horder, s, none, t, ht, hready, htracks, htracks'.lost, hrefunded.lost hcap ?_⟩
  intro u hu
  exact fill_nonneg hcap (rate_pos hL hW).le (hready.mono hu)

lemma lossesCost (hL : 1 ≤ L) (hW : 1 ≤ W) (P : Expiry) (id : String) {ms : List Moment}
    (horder : (Moment.times ms).Pairwise (· ≤ ·))
    (hfits : ∀ t ∈ Moment.times ms, TimeFits t (W * 2)) :
    LossesCost P (request id L W) ms (tbKey id) fun _ => True := by
  have hn : L = (L.toNat : ℕ) := (Int.toNat_of_nonneg (by omega)).symm
  refine lossesCost_of_account (request id L W) hn (R := Account L W (tbKey id))
    (fun t ms k d ks ks' h => h.check hL hW) (fun lost ms k d ks ks' hlost h => h.other hlost)
    (fun ms k d ks ks' h => h.loss hL hW) ?_ ?_
  · rintro k d ks ks' ⟨-, s, s', t, -, -, -, -, hrefunded⟩
    have hgrants := hrefunded.grants
    rw [← Int.toNat_of_nonneg (show 0 ≤ L by omega)] at hgrants
    exact_mod_cast hgrants
  · obtain ⟨t, ht⟩ : ∃ t, ∀ u ∈ Moment.times ms, t ≤ u := by
      cases hms : Moment.times ms with
      | nil => exact ⟨0, by simp⟩
      | cons t ts =>
        rw [hms] at horder
        exact ⟨t, List.forall_mem_cons.2 ⟨le_rfl, fun u hu =>
          List.rel_of_pairwise_cons horder hu⟩⟩
    have hstart : Tracks W (tbKey id) ((Moment.times ms).map Stamp.sync) .empty none :=
      ⟨by simpa using hfits, isChain_paced_sync hW horder, .inl ⟨rfl, rfl⟩⟩
    exact ⟨horder, none, none, t, ht, ready_none _, hstart, hstart, .refl _ _⟩

end TokenBucket

/-! ## Windows -/

namespace FixedWindow

/-- A database that lost a key: the counters, of which at most one starts again. -/
lemma Tracks.delete {id : String} {ks : Keyspace (BucketFields ℚ)} {f : ℤ → ℕ}
    (h : Tracks id W ks f) (key : String) :
    Tracks id W (ks.delete key) fun j => if counterKey id W j = key then 0 else f j := by
  intro j
  by_cases hj : counterKey id W j = key
  · simp only [hj]
    exact .inl ⟨rfl, Keyspace.delete_self ..⟩
  · simp only [if_neg hj, Keyspace.delete_of_ne hj]
    exact h j

/-- The counters of the two runs, with the account of the losses of window `j`. -/
structure Account (id : String) (L W j : ℤ) (ms : List Moment) (k d : ℕ)
    (ks ks' : Keyspace (BucketFields ℚ)) : Prop where
  fits : ∀ t ∈ Moment.times ms, TimeFits 0 (windowEnd W (t / 1000))
  counters : ∃ f f' : ℤ → ℕ, Tracks id W ks f ∧ Tracks id W ks' f' ∧
    Counter.Refunded L.toNat j k d f f'

lemma Account.check {P : Expiry} {id : String} {j t : ℤ} {ms : List Moment} {k d : ℕ}
    {ks ks' : Keyspace (BucketFields ℚ)} (hL : 1 ≤ L ∧ Lua.FitsInt64 L) (hW : 1 ≤ W)
    (h : Account id L W j (.check t :: ms) k d ks ks') : ∃ d' : ℕ,
      (admitted (Service.check P ks ⟨request id L W, .sync t⟩).1 &&
          decide (InWindow W j (t / 1000))).toNat + d' =
        (admitted (Service.check P ks' ⟨request id L W, .sync t⟩).1 &&
          decide (InWindow W j (t / 1000))).toNat + d ∧
      Account id L W j ms k d' (Service.check P ks ⟨request id L W, .sync t⟩).2
        (Service.check P ks' ⟨request id L W, .sync t⟩).2 := by
  obtain ⟨hfits, f, f', htracks, htracks', hrefunded⟩ := h
  have hin : InTime W (.sync t) := by
    have hend := lt_windowEnd hW (t / 1000)
    simp only [InTime, Stamp.nowSecs, Stamp.sync_nowMs, Stamp.sync_redisMs]
    omega
  have hfirst : TimeFits 0 (windowEnd W (Stamp.sync t).nowSecs) := hfits t (by simp)
  obtain ⟨hout, hafter⟩ := htracks.step (P := P) hW hL.2 hin hfirst
  obtain ⟨hout', hafter'⟩ := htracks'.step (P := P) hW hL.2 hin hfirst
  have hn : L = (L.toNat : ℕ) := (Int.toNat_of_nonneg (by omega)).symm
  obtain ⟨d', hcount, hnext⟩ := hrefunded.step (r := ⟨t / 1000 / W, L⟩) fun _ => hn
  refine ⟨d', ?_, fun u hu => hfits u (by simp [hu]), _, _, hafter, hafter', hnext⟩
  rw [hout, hout']
  simp only [admitted_ok, result, inWindow_iff hW]
  rw [Counter.grant_fst, Counter.grant_fst] at hcount
  exact hcount

lemma Account.lost {id lost : String} {j : ℤ} {ms : List Moment} {k d : ℕ}
    {ks ks' : Keyspace (BucketFields ℚ)} (h : Account id L W j (.loss lost :: ms) k d ks ks') :
    Account id L W j ms (if counterKey id W j = lost then k + 1 else k) d ks (ks'.delete lost) := by
  obtain ⟨hfits, f, f', htracks, htracks', hrefunded⟩ := h
  refine ⟨hfits, f, _, htracks, htracks'.delete lost, ?_⟩
  split_ifs with hj
  · exact hrefunded.lost (by simp [hj])
  · obtain ⟨hlimit, hgrants, hbehind, hahead⟩ := hrefunded
    exact ⟨hlimit, hgrants, by simpa [hj] using hbehind, by simpa [hj] using hahead⟩

lemma lossesCost (hL : 1 ≤ L ∧ Lua.FitsInt64 L) (hW : 1 ≤ W) (P : Expiry) (id : String)
    {ms : List Moment} (hfits : ∀ t ∈ Moment.times ms, TimeFits 0 (windowEnd W (t / 1000)))
    (j : ℤ) : LossesCost P (request id L W) ms (counterKey id W j) (InWindow W j) := by
  have hn : L = (L.toNat : ℕ) := (Int.toNat_of_nonneg (by omega)).symm
  refine lossesCost_of_account (request id L W) hn (R := Account id L W j)
    (fun t ms k d ks ks' h => h.check hL hW) ?_ ?_ ?_ ?_
  · intro lost ms k d ks ks' hlost h
    have haccount := h.lost
    rwa [if_neg hlost.symm] at haccount
  · intro ms k d ks ks' h
    have haccount := h.lost
    rwa [if_pos rfl] at haccount
  · rintro k d ks ks' ⟨-, f, f', -, -, hrefunded⟩
    exact hrefunded.grants
  · exact ⟨hfits, 0, 0, fun i => .inl ⟨rfl, rfl⟩, fun i => .inl ⟨rfl, rfl⟩,
      .refl (by simp)⟩

end FixedWindow

/-- **A lost key costs at most one quota.**  Run checks of one configuration over exact rationals,
in the order of their stamps, at which also the scripts run, and with expiries that Redis accepts.
If any keys are lost at any times, as many checks are allowed as without the losses, and at most the
limit more for every loss of the key itself: of the bucket, over the whole run, and of the counter
of a window, in this window. -/
theorem losses_cost_one_quota {a : Algorithm} (ha : a = .tokenBucket ∨ a = .fixedWindow)
    (hL : 1 ≤ L ∧ Lua.FitsInt64 L) (hW : 1 ≤ W) (P : Expiry) (id : String) (ms : List Moment)
    (horder : (Moment.times ms).Pairwise (· ≤ ·))
    (hfits : ∀ t ∈ Moment.times ms, ExpiryFits W t a) :
    match a with
    | .tokenBucket => LossesCost P ⟨id, L, W, a⟩ ms (tbKey id) fun _ => True
    | .fixedWindow => ∀ k : ℤ, LossesCost P ⟨id, L, W, a⟩ ms (FixedWindow.counterKey id W k)
        (FixedWindow.InWindow W k)
    | .other _ => True := by
  rcases ha with rfl | rfl
  · exact TokenBucket.lossesCost hL.1 hW P id horder hfits
  · exact fun k => FixedWindow.lossesCost hL hW P id hfits k

/-- A limit of one in a minute, whose bucket is lost after the first of two checks. -/
theorem losses_cost_after_restart :
    LossesCost .past ⟨"user:1", 1, 60, .tokenBucket⟩
      [.check 0, .loss "shardleak:rate:tb:user:1", .check 1000] "shardleak:rate:tb:user:1"
      fun _ => True :=
  losses_cost_one_quota (a := .tokenBucket) (.inl rfl) (by decide) (by decide) .past "user:1"
    [.check 0, .loss "shardleak:rate:tb:user:1", .check 1000] (by decide) (by decide)

end ShardLeak
