/-
# Buckets with rounding errors

A bucket whose arithmetic rounds holds a little more or less than it should after every request.
Here nothing is known of it but that one refill errs by at most `ε`.  The admission law of
`ShardLeak/Lib/Bucket.lean` then holds with a margin of `ε` for every request since the start
point, in both directions.

A run is given by its readings: the time of each request, and the tokens that it finds.  `Drifts`
is the assumption on one refill, relative to what is due: the tokens after the last request and
the refill since then, but no more than the capacity.  By induction along the run, a request finds
at most what every earlier start point leaves, with the margins added, and at least what one of
them leaves, with the margins subtracted.

While requests are refused nothing is taken, and so the tokens grow with the time alone.  This
gives the two bounds on the time of the next grant, up to the errors of the requests in between.
-/
import ShardLeak.Lib.Bucket

namespace ShardLeak

namespace Bucket

variable {K : Type*} [Field K] [LinearOrder K]

/-- What a request finds: its time, and the tokens of the bucket after the refill. -/
structure Reading (K : Type*) where
  time : K
  tokens : K

/-- The decision on what was found. -/
def Reading.granted (a : Reading K) : Bool := decide (1 ≤ a.tokens)

/-- The decisions of a run. -/
def decisions (l : List (Reading K)) : List Bool := l.map Reading.granted

/-- The tokens at `b`, after the request at `a`, if nothing were rounded and nothing capped. -/
def due (rate : K) (a b : Reading K) : K := a.tokens - cost a.granted + (b.time - a.time) * rate

/-- From one request to the next, the tokens are refilled up to the capacity, with an error of at
most `ε`. -/
structure Drifts (cap rate ε : K) (a b : Reading K) : Prop where
  le_cap : b.tokens ≤ cap
  le_due : b.tokens ≤ due rate a b + ε
  due_le : b.tokens = cap ∨ due rate a b ≤ b.tokens + ε

variable {cap rate ε : K}

lemma grantsFrom_take_succ {l : List (Reading K)} {i j : ℕ} (hi : i < l.length) (hj : j ≤ i) :
    (grantsFrom ((decisions l).take (i + 1)) j : K) =
      grantsFrom ((decisions l).take i) j + cost l[i].granted := by
  have hlen : i < (decisions l).length := by simpa [decisions] using hi
  rw [List.take_succ_eq_append_getElem hlen, grantsFrom_append_of_le (by simp; omega)]
  simp [decisions]

lemma grantsFrom_take_self (bs : List Bool) (i : ℕ) : grantsFrom (bs.take i) i = 0 := by
  rw [grantsFrom, List.drop_eq_nil_of_le (by simp), List.count_nil]

variable [IsStrictOrderedRing K]

/-- **What a request finds.**  It is at most what every earlier request leaves, up to `ε` for every
request in between, and at least what one of them leaves: the last one that found the bucket
full. -/
theorem tokens_bounds {l : List (Reading K)} (hl : l.IsChain (Drifts cap rate ε))
    (hfirst : ∀ h : 0 < l.length, l[0].tokens = cap) (i : ℕ) (hi : i < l.length) :
    (∀ (j : ℕ) (hj : j ≤ i), l[i].tokens + grantsFrom ((decisions l).take i) j ≤
      cap + (l[i].time - l[j].time) * rate + (i - j) * ε) ∧
    ∃ (j : ℕ) (hj : j ≤ i), cap + (l[i].time - l[j].time) * rate ≤
      l[i].tokens + grantsFrom ((decisions l).take i) j + (i - j) * ε := by
  induction i with
  | zero =>
    have h0 : l[0].tokens = cap := hfirst hi
    refine ⟨fun j hj => ?_, 0, le_rfl, ?_⟩
    · obtain rfl : j = 0 := by omega
      rw [grantsFrom_take_self, h0]
      simp
    · rw [grantsFrom_take_self, h0]
      simp
  | succ i ih =>
    obtain ⟨hupper, j₀, hj₀, hlower⟩ := ih (by omega)
    have hstep : Drifts cap rate ε l[i] l[i + 1] := List.isChain_iff_getElem.1 hl i hi
    have hdue := hstep.le_due
    have hback : due rate l[i] l[i + 1] = l[i].tokens - cost l[i].granted +
        (l[i + 1].time - l[i].time) * rate := rfl
    push_cast
    constructor
    · intro j hj
      rcases Nat.lt_or_ge i j with hlt | hge
      · obtain rfl : j = i + 1 := by omega
        rw [grantsFrom_take_self]
        have hcap := hstep.le_cap
        push_cast
        linarith
      · rw [grantsFrom_take_succ (by omega) hge]
        have := hupper j hge
        linarith
    · rcases hstep.due_le with hfull | hle
      · -- the bucket is full again: this is the start point from now on
        refine ⟨i + 1, le_rfl, ?_⟩
        rw [grantsFrom_take_self, hfull]
        push_cast
        linarith
      · refine ⟨j₀, by omega, ?_⟩
        rw [grantsFrom_take_succ (by omega) hj₀]
        linarith

/-- **The admission law with a margin.**  If a request is granted, then it conforms to every start
point up to itself with `ε` more for every request in between; if it is refused, then it does not
conform to one of them with so much less. -/
theorem granted_of_drifts {l : List (Reading K)} (hl : l.IsChain (Drifts cap rate ε))
    (hfirst : ∀ h : 0 < l.length, l[0].tokens = cap) (i : ℕ) (hi : i < l.length) :
    (l[i].granted = true → ∀ (j : ℕ) (hj : j ≤ i),
      (grantsFrom ((decisions l).take i) j : K) + 1 ≤
        cap + (l[i].time - l[j].time) * rate + (i - j) * ε) ∧
    (l[i].granted = false → ∃ (j : ℕ) (hj : j ≤ i),
      cap + (l[i].time - l[j].time) * rate - (i - j) * ε <
        (grantsFrom ((decisions l).take i) j : K) + 1) := by
  obtain ⟨hupper, j, hj, hlower⟩ := tokens_bounds hl hfirst i hi
  constructor
  · intro hgranted k hk
    have hone : 1 ≤ l[i].tokens := of_decide_eq_true hgranted
    have := hupper k hk
    linarith
  · intro hrefused
    have hone : l[i].tokens < 1 := not_le.1 (of_decide_eq_false hrefused)
    exact ⟨j, hj, by linarith⟩

/-! ## Waiting -/

/-- While requests are refused, nothing is taken, so that the tokens grow with the time, up to `ε`
for every request. -/
lemma tokens_of_refused {l : List (Reading K)} (hl : l.IsChain (Drifts cap rate ε)) (hcap : 1 ≤ cap)
    {i k : ℕ} (hik : i ≤ k) (hk : k < l.length)
    (hrefused : ∀ (j : ℕ) (hj : j < k), i ≤ j → l[j].granted = false) :
    l[k].tokens ≤ l[i].tokens + (l[k].time - l[i].time) * rate + (k - i) * ε ∧
      (1 ≤ l[k].tokens ∨
        l[i].tokens + (l[k].time - l[i].time) * rate ≤ l[k].tokens + (k - i) * ε) := by
  induction k, hik using Nat.le_induction with
  | base => simp
  | succ k hik ih =>
    obtain ⟨hupper, hlower⟩ := ih (by omega) fun j hj => hrefused j (by omega)
    have hone : l[k].tokens < 1 :=
      not_le.1 (of_decide_eq_false (hrefused k (Nat.lt_succ_self k) hik))
    have hstep : Drifts cap rate ε l[k] l[k + 1] := List.isChain_iff_getElem.1 hl k hk
    have hdue : due rate l[k] l[k + 1] =
        l[k].tokens + (l[k + 1].time - l[k].time) * rate := by
      rw [due, hrefused k (Nat.lt_succ_self k) hik, cost_false, sub_zero]
    have hle := hstep.le_due
    rw [hdue] at hle
    push_cast
    refine ⟨by linarith, ?_⟩
    rcases hstep.due_le with hfull | hge
    · exact .inl (by rw [hfull]; exact hcap)
    · rw [hdue] at hge
      exact .inr (by linarith [hlower.resolve_left (not_le.2 hone)])

/-- **Too early.**  Until the refill, with the errors, makes up for what was lacking, requests are
refused. -/
theorem refused_of_early {l : List (Reading K)} (hl : l.IsChain (Drifts cap rate ε))
    (hcap : 1 ≤ cap) (hrate : 0 ≤ rate) (hε : 0 ≤ ε) {i k : ℕ} (hik : i ≤ k) (hk : k < l.length)
    (htimes : ∀ (j : ℕ) (hj : j < k), l[j].time ≤ l[k].time)
    (hearly : l[i].tokens + (l[k].time - l[i].time) * rate + (k - i) * ε < 1) :
    l[k].granted = false := by
  have hall : ∀ (j : ℕ) (hj : j ≤ k), i ≤ j → l[j].granted = false := by
    intro j hj hij
    induction j using Nat.strong_induction_on with
    | h j ih =>
      have hle := (tokens_of_refused hl hcap hij (by omega) fun m hm => ih m hm (by omega)).1
      -- the request comes no later than `k`, and after no more requests
      have htime : l[j].time ≤ l[k].time := by
        rcases hj.lt_or_eq with hlt | rfl
        · exact htimes j hlt
        · exact le_rfl
      have hgain : (l[j].time - l[i].time) * rate ≤ (l[k].time - l[i].time) * rate :=
        mul_le_mul_of_nonneg_right (by linarith) hrate
      have herr : ((j : K) - i) * ε ≤ (k - i) * ε :=
        mul_le_mul_of_nonneg_right (by linarith [(Nat.cast_le (α := K)).2 hj]) hε
      exact decide_eq_false (by linarith)
  exact hall k le_rfl hik

/-- **Late enough.**  Once the refill, less the errors, makes up for what was lacking, a request
has been granted. -/
theorem granted_of_late {l : List (Reading K)} (hl : l.IsChain (Drifts cap rate ε))
    (hcap : 1 ≤ cap) {i k : ℕ} (hik : i < k) (hk : k < l.length) (hi : l[i].granted = false)
    (hlate : 1 + (k - i) * ε ≤ l[i].tokens + (l[k].time - l[i].time) * rate) :
    ∃ (j : ℕ) (hj : j ≤ k), i < j ∧ l[j].granted = true := by
  by_contra hnone
  have hrefused : ∀ (j : ℕ) (hj : j ≤ k), i ≤ j → l[j].granted = false := by
    intro j hj hij
    rcases hij.lt_or_eq with hlt | rfl
    · exact Bool.eq_false_iff.2 fun h => hnone ⟨j, hj, hlt, h⟩
    · exact hi
  have hone : l[k].tokens < 1 := not_le.1 (of_decide_eq_false (hrefused k le_rfl hik.le))
  have hge := (tokens_of_refused hl hcap hik.le hk fun j hj => hrefused j hj.le).2
  linarith [hge.resolve_left (not_le.2 hone)]

end Bucket

end ShardLeak
