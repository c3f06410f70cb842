/-
# Counting down in doubles

The numbers of the script are doubles, and between two checks the tokens go through a string of at
most 14 digits.  A bucket that is checked again and again at one time should count down from its
limit to zero.  It does so up to a limit of `10 ^ 14 + 1`: above it, one of the first two counts
has 15 digits or more that do not end in a zero, and is rounded when it is printed.

In one direction, the tokens of the run are followed check by check.  Up to `10 ^ 14` an integer
is printed with all of its digits, and the double that is read back is the integer itself; so the
count at the `i`-th check is the limit less `i`, as long as the key is there.  The limit itself is
never printed, only the limit less one, which is why `10 ^ 14 + 1` is still good.

In the other direction, suppose that a run counts down from a larger limit, and look at its first
three counts.  Above `2 ^ 53` all doubles are even, but of two counts in a row one is odd.  Below,
a count of 15 digits or more that has come through the print, and from which the next check took
one, ends in a zero, and this cannot be so twice in a row.
-/
import ShardLeak.Lua.Double
import ShardLeak.RateLimit.Service
import ShardLeak.TokenBucket.Ideal

namespace ShardLeak

namespace TokenBucket

open RateLimit Redis Lua Rounding

/-- Stamps of one time, with the times of Redis given by `rs`. -/
def stampsAt (now : ℤ) (rs : ℕ → ℤ) (n : ℕ) : List Stamp :=
  (List.range n).map fun i => ⟨now, rs i⟩

/-- Checks at one time count down from the limit: check `i` is allowed and leaves `L - 1 - i`,
and once nothing is left, all checks are rejected. -/
def CountsDown (P : Expiry) (id : String) (L W now : ℤ) (rs : ℕ → ℤ) : Prop :=
  ∀ n i : ℕ, i < n → ∃ r : Result,
    ((service Double P).outputs .empty (calls (request id L W) (stampsAt now rs n)))[i]? =
      some (.ok r) ∧
    if (i : ℤ) < L then r.allowed = true ∧ r.remaining = L - 1 - i
    else r.allowed = false ∧ r.remaining = 0

/-- The stamp, printed and read again, is not before itself.  Otherwise the next check at the same
time finds an elapsed time, and refills the bucket. -/
def KeepsStamp (now : ℤ) : Prop := (num now : Double) ≤ Number.reread (num now)

instance (now : ℤ) : Decidable (KeepsStamp now) := inferInstanceAs (Decidable (_ ≤ _))

/-! ## Whole numbers -/

lemma num_two_mul {m : ℤ} (hm : |m| ≤ 2 ^ 53) : (num (m * 2) : Double).val = (m * 2 : ℤ) :=
  roundTo_of_representable (by norm_num) (by norm_num)
    ⟨m, 1, by exact_mod_cast hm, by push_cast; rfl⟩

lemma keepsStamp_of_le {now : ℤ} (h0 : 0 ≤ now) (h : now ≤ 10 ^ 14) : KeepsStamp now := by
  have hval : (num now : Double).val = now := num_val (by rw [abs_of_nonneg h0]; omega)
  have hprint : roundTo 10 14 (now : ℚ) = now :=
    roundTo_intCast (by norm_num) (by norm_num) (by rw [abs_of_nonneg h0]; exact_mod_cast h)
  show (num now : Double).val ≤ roundTo 2 53 (roundTo 10 14 (num now : Double).val)
  rw [hval, hprint]
  exact hval.ge

/-! ## One check -/

variable {P : Expiry} {id : String} {L W now : ℤ} {rs : ℕ → ℤ} {st : Stamp}
  {ks : Keyspace (BucketFields Double)}

lemma refill_same_time {cap rate now : Double} {data : Option (BucketFields Double)}
    (hlast : ∀ d ∈ data, now ≤ d.lastMs) :
    refill cap rate now data = Lua.min cap (data.elim cap BucketFields.tokens) := by
  have helapsed : ∀ last : Double, now ≤ last → Lua.max (num 0) (now - last) = num 0 := by
    intro last hle
    have hdiff : (now - last).val ≤ 0 :=
      roundTo_nonpos (by norm_num) (sub_nonpos.2 hle)
    have hzero : ¬ (num 0 : Double) < now - last := by
      show ¬ (num 0 : Double).val < (now - last).val
      rw [num_val (by norm_num), Int.cast_zero]
      exact not_lt.2 hdiff
    rw [Lua.max, if_neg hzero]
  have hadd : ∀ t : Double, t + num 0 * rate = t := by
    intro t
    have hmul : (num 0 * rate : Double).val = 0 := by
      show roundTo 2 53 ((num 0 : Double).val * rate.val) = 0
      rw [num_val (by norm_num), Int.cast_zero, zero_mul, roundTo_zero]
    apply Double.ext
    show roundTo 2 53 (t.val + (num 0 * rate : Double).val) = t.val
    rw [hmul, add_zero, t.rounded]
  cases data with
  | none => simp only [refill, helapsed now (le_refl now.val), hadd, Option.elim_none]
  | some d => simp only [refill, helapsed d.lastMs (hlast d rfl), hadd, Option.elim_some]

/-- What a check leaves of `t` tokens. -/
def left (t : Double) : Double := if num 1 ≤ t then t - num 1 else t

lemma spend_double (rate ttl t : Double) :
    (spend rate ttl t).1 = (if num 1 ≤ t then num 1 else num 0) ∧
      (spend rate ttl t).2.1 = left t := by
  unfold spend left
  split
  · exact ⟨rfl, rfl⟩
  · split <;> exact ⟨rfl, rfl⟩

lemma check_double {data : Option (BucketFields Double)} {s : ℤ}
    (hdata : ((hmget (tbKey id)).run ⟨st.redisMs, P⟩ ks).1 = .ok data)
    (hlast : ∀ d ∈ data, (num st.nowMs : Double) ≤ d.lastMs)
    (harg : Number.toArg (num (goInt (W * 2)) : Double) = some s)
    (hfits : TimeFits st.redisMs s) {t : Double}
    (ht : Lua.min (num L) (data.elim (num L) BucketFields.tokens) = t) :
    ∃ r : Result, Service.check P ks ⟨request id L W, st⟩ =
        (.ok r, ks.expireEntry ⟨st.redisMs, P⟩ (tbKey id)
          (.hash ⟨Number.reread (left t), Number.reread (num st.nowMs)⟩)
          (st.redisMs + s * 1000)) ∧
      (r.allowed = true ↔ num 1 ≤ t) ∧ r.remaining = Number.toReply (Number.floor (left t)) := by
  have hrun := tokenBucketLua_accepted (tbKey id) (num L : Double) (ratePerMs (request id L W))
    (num st.nowMs) (num (ttlSecs (request id L W))) hdata harg hfits
  have hcheck : Service.check P ks ⟨request id L W, st⟩ =
      checkTokenBucket P (request id L W) st ks := rfl
  rw [hcheck, checkTokenBucket, show (request id L W).identifier = id from rfl,
    show (request id L W).limit = L from rfl, hrun]
  simp only [storedFields, refill_same_time hlast, ht, (spend_double _ _ _).2]
  have hone : Number.toReply (num 1 : Double) = 1 := toReply_num (by norm_num)
  have hzero : Number.toReply (num 0 : Double) = 0 := toReply_num (by norm_num)
  refine ⟨_, rfl, ?_, ?_⟩
  · show (Number.toReply (spend (ratePerMs (request id L W)) (num (ttlSecs (request id L W))) t).1
      == 1) = true ↔ _
    rw [(spend_double _ _ _).1]
    by_cases h1 : num 1 ≤ t
    · simp [h1, hone]
    · simp [h1, hzero]
  · show Number.toReply (Number.floor
      (spend (ratePerMs (request id L W)) (num (ttlSecs (request id L W))) t).2.1) = _
    rw [(spend_double _ _ _).2]

lemma hmget_next {v : BucketFields Double} {s t : ℤ} (hs : 0 < s) :
    ((hmget (tbKey id)).run ⟨t, P⟩ (ks.expireEntry ⟨st.redisMs, P⟩ (tbKey id) (.hash v)
      (st.redisMs + s * 1000))).1 =
    .ok (if P.gone (st.redisMs + s * 1000) t then none else some v) := by
  have hfuture : ¬ st.redisMs + s * 1000 ≤ st.redisMs := by omega
  rw [Keyspace.expireEntry, if_neg hfuture]
  exact hmget_of_hash (Keyspace.insert_self ..)

/-- The bucket holds `x` tokens for a check at the same time. -/
def Holds (P : Expiry) (id : String) (L : ℤ) (st : Stamp) (ks : Keyspace (BucketFields Double))
    (x : Double) : Prop :=
  ∃ data : Option (BucketFields Double), ((hmget (tbKey id)).run ⟨st.redisMs, P⟩ ks).1 = .ok data ∧
    (∀ d ∈ data, (num st.nowMs : Double) ≤ d.lastMs) ∧
    Lua.min (num L) (data.elim (num L) BucketFields.tokens) = x

lemma holds_of_fresh (h : ((hmget (tbKey id)).run ⟨st.redisMs, P⟩ ks).1 = .ok none) :
    Holds P id L st ks (num L) :=
  ⟨none, h, by simp, by rw [Option.elim_none, Lua.min, ite_self]⟩

lemma Holds.check {x : Double} {s : ℤ} (h : Holds P id L st ks x)
    (harg : Number.toArg (num (goInt (W * 2)) : Double) = some s)
    (hfits : TimeFits st.redisMs s) :
    ∃ r : Result, (Service.check P ks ⟨request id L W, st⟩).1 = .ok r ∧
      (r.allowed = true ↔ num 1 ≤ x) ∧ r.remaining = Number.toReply (Number.floor (left x)) := by
  obtain ⟨data, hdata, hlast, hx⟩ := h
  obtain ⟨r, hcheck, hallowed, hrem⟩ := check_double hdata hlast harg hfits hx
  exact ⟨r, by rw [hcheck], hallowed, hrem⟩

lemma Holds.next {x : Double} {s t : ℤ} (h : Holds P id L st ks x)
    (hnow : KeepsStamp st.nowMs) (harg : Number.toArg (num (goInt (W * 2)) : Double) = some s)
    (hfits : TimeFits st.redisMs s) (hs : 0 < s)
    (hlive : P.gone (st.redisMs + s * 1000) t = false) :
    Holds P id L ⟨st.nowMs, t⟩ (Service.check P ks ⟨request id L W, st⟩).2
      (Lua.min (num L) (Number.reread (left x))) := by
  obtain ⟨data, hdata, hlast, hx⟩ := h
  obtain ⟨r, hcheck, -⟩ := check_double hdata hlast harg hfits hx
  rw [hcheck]
  refine ⟨_, hmget_next hs, ?_, ?_⟩
  · rw [hlive]
    rintro d ⟨⟩
    exact hnow
  · rw [hlive]
    rfl

/-- A key that is gone, or was deleted at once, leaves a fresh bucket. -/
lemma Holds.fresh {x : Double} {s t : ℤ} (h : Holds P id L st ks x)
    (harg : Number.toArg (num (goInt (W * 2)) : Double) = some s)
    (hfits : TimeFits st.redisMs s)
    (hgone : s ≤ 0 ∨ P.gone (st.redisMs + s * 1000) t = true) :
    Holds P id L ⟨st.nowMs, t⟩ (Service.check P ks ⟨request id L W, st⟩).2 (num L) := by
  obtain ⟨data, hdata, hlast, hx⟩ := h
  obtain ⟨r, hcheck, -⟩ := check_double hdata hlast harg hfits hx
  rw [hcheck]
  apply holds_of_fresh
  by_cases hs : 0 < s
  · rw [hmget_next hs, if_pos (hgone.resolve_left (by omega))]
  · have hpast : st.redisMs + s * 1000 ≤ st.redisMs := by omega
    rw [Keyspace.expireEntry, if_pos hpast]
    exact hmget_of_none (Keyspace.delete_self ..)

/-- A check that has a result had its TTL accepted. -/
lemma Holds.accepted {x : Double} {r : Result} (h : Holds P id L st ks x)
    (hr : (Service.check P ks ⟨request id L W, st⟩).1 = .ok r) :
    ∃ s, Number.toArg (num (goInt (W * 2)) : Double) = some s ∧ TimeFits st.redisMs s := by
  obtain ⟨data, hdata, -⟩ := h
  by_contra hacc
  have hrefused : ¬ Accepted st.redisMs
      (Number.toArg (num (ttlSecs (request id L W)) : Double)) :=
    fun ⟨s, hs, hfits⟩ => hacc ⟨s, hs, hfits⟩
  obtain ⟨e, -, hrun⟩ := tokenBucketLua_refused (tbKey id) (num L : Double)
    (ratePerMs (request id L W)) (num st.nowMs) (num (ttlSecs (request id L W)))
    (c := ⟨st.redisMs, P⟩) hdata hrefused
  have hcheck : Service.check P ks ⟨request id L W, st⟩ =
      checkTokenBucket P (request id L W) st ks := rfl
  rw [hcheck, checkTokenBucket, show (request id L W).identifier = id from rfl,
    show (request id L W).limit = L from rfl, hrun] at hr
  cases hr

/-- The TTL that Redis accepts is printed exactly. -/
lemma toArg_ttl (hW : 1 ≤ W) {t : ℤ} (hfits : TimeFits t (W * 2)) :
    Number.toArg (num (goInt (W * 2)) : Double) = some (W * 2) := by
  obtain ⟨⟨-, hbound⟩, -⟩ := hfits
  have hint : goInt (W * 2) = W * 2 := goInt_of_fits ⟨by omega, by omega⟩
  have hval : (num (W * 2) : Double).val = ((W * 2 : ℤ) : ℚ) :=
    num_two_mul (by rw [abs_of_pos (by omega)]; omega)
  have hsmall : |W * 2| < 10 ^ 17 := by
    rw [abs_of_pos (by omega)]
    omega
  rw [hint]
  show (if (num (W * 2) : Double).val.den = 1 ∧ |(num (W * 2) : Double).val.num| < 10 ^ 17 then
    some (num (W * 2) : Double).val.num else none) = _
  rw [hval, Rat.den_intCast, Rat.num_intCast, if_pos ⟨rfl, hsmall⟩]

lemma le_round {m : ℤ} {q : ℚ} (hm : |m| ≤ 2 ^ 53) (h0 : 0 ≤ m) (h : ((m * 2 : ℤ) : ℚ) ≤ q) :
    ((m * 2 : ℤ) : ℚ) ≤ roundTo 2 53 q := by
  have hkeep : roundTo 2 53 ((m * 2 : ℤ) : ℚ) = (m * 2 : ℤ) := num_two_mul hm
  rw [← hkeep]
  exact roundTo_mono (by norm_num) (by norm_num) (by exact_mod_cast (by omega : 0 ≤ m * 2)) h

/-- An accepted TTL that does not delete the key was neither wrapped around nor rounded. -/
lemma ttl_of_accepted (hW : 1 ≤ W ∧ FitsInt64 W) {t s : ℤ}
    (harg : Number.toArg (num (goInt (W * 2)) : Double) = some s) (hfits : TimeFits t s)
    (hs : 0 < s) : s = W * 2 := by
  have hval : (num (goInt (W * 2)) : Double).val = s := by
    have hif : (if (num (goInt (W * 2)) : Double).val.den = 1 ∧
        |(num (goInt (W * 2)) : Double).val.num| < 10 ^ 17 then
      some (num (goInt (W * 2)) : Double).val.num else none) = some s := harg
    split at hif
    · rename_i hden
      rw [← Option.some.inj hif]
      exact (Rat.coe_int_num_of_den_eq_one hden.1).symm
    · cases hif
  have hpos : 0 < goInt (W * 2) := by
    by_contra hneg
    have hle : (num (goInt (W * 2)) : Double).val ≤ 0 :=
      roundTo_nonpos (by norm_num) (by exact_mod_cast not_lt.1 hneg)
    rw [hval] at hle
    have : s ≤ 0 := by exact_mod_cast hle
    omega
  rw [goInt_of_pos hW hpos] at hval
  rcases le_or_gt W (2 ^ 53) with hle | hgt
  · rw [num_two_mul (by rw [abs_of_pos (by omega)]; exact hle)] at hval
    exact_mod_cast hval.symm
  · -- rounding does not make a larger TTL acceptable
    have hbig : ((2 ^ 53 * 2 : ℤ) : ℚ) ≤ (num (W * 2) : Double).val :=
      le_round (m := 2 ^ 53) (by norm_num) (by norm_num) (Int.cast_le.2 (by omega))
    rw [hval, Int.cast_le] at hbig
    obtain ⟨⟨-, hbound⟩, -⟩ := hfits
    omega

/-! ## The run -/

/-- The tokens that check `i` finds. -/
def tokensAt (L : ℤ) : ℕ → Double
  | 0 => num L
  | i + 1 => Lua.min (num L) (Number.reread (left (tokensAt L i)))

/-- The database before check `i`. -/
def keyspaceAt (P : Expiry) (id : String) (L W now : ℤ) (rs : ℕ → ℤ) (i : ℕ) :
    Keyspace (BucketFields Double) :=
  (service Double P).final .empty (calls (request id L W) (stampsAt now rs i))

lemma keyspaceAt_succ (i : ℕ) : keyspaceAt P id L W now rs (i + 1) =
    (Service.check P (keyspaceAt P id L W now rs i) ⟨request id L W, ⟨now, rs i⟩⟩).2 := by
  have hrun : calls (request id L W) (stampsAt now rs (i + 1)) =
      calls (request id L W) (stampsAt now rs i) ++ [⟨request id L W, ⟨now, rs i⟩⟩] := by
    simp [calls, stampsAt, List.range_succ]
  rw [keyspaceAt, hrun, Machine.final_append, Machine.final_cons, Machine.final_nil, service_step]
  rfl

lemma holds_zero : Holds P id L ⟨now, rs 0⟩ (keyspaceAt P id L W now rs 0) (num L) :=
  holds_of_fresh (hmget_of_none rfl)

lemma output_at {n i : ℕ} (hi : i < n) :
    ((service Double P).outputs .empty (calls (request id L W) (stampsAt now rs n)))[i]? =
      some (Service.check P (keyspaceAt P id L W now rs i) ⟨request id L W, ⟨now, rs i⟩⟩).1 := by
  have hlen : i < (calls (request id L W) (stampsAt now rs n)).length := by
    simpa [calls, stampsAt] using hi
  have htake : (calls (request id L W) (stampsAt now rs n)).take i =
      calls (request id L W) (stampsAt now rs i) := by
    simp [calls, stampsAt, ← List.map_take, List.take_range, min_eq_left hi.le]
  rw [List.getElem?_eq_getElem (by simpa using hlen), Machine.outputs_getElem _ _ _ _ hlen, htake]
  simp [keyspaceAt, calls, stampsAt]

/-- Redis accepts the TTL of every check, and keeps the key until the next one. -/
def Kept (P : Expiry) (W : ℤ) (rs : ℕ → ℤ) : Prop :=
  ∀ i, TimeFits (rs i) (W * 2) ∧ P.gone (rs i + W * 2 * 1000) (rs (i + 1)) = false

lemma holds_at (hW : 1 ≤ W) (hnow : KeepsStamp now) (hkept : Kept P W rs) (i : ℕ) :
    Holds P id L ⟨now, rs i⟩ (keyspaceAt P id L W now rs i) (tokensAt L i) := by
  induction i with
  | zero => exact holds_zero
  | succ i ih =>
    obtain ⟨hfits, hlive⟩ := hkept i
    rw [keyspaceAt_succ]
    exact ih.next hnow (toArg_ttl hW hfits) hfits (by omega) hlive

lemma check_at (hW : 1 ≤ W) (hnow : KeepsStamp now) (hkept : Kept P W rs) (id : String) (L : ℤ)
    (i : ℕ) :
    ∃ r : Result, (Service.check P (keyspaceAt P id L W now rs i)
        ⟨request id L W, ⟨now, rs i⟩⟩).1 = .ok r ∧
      (r.allowed = true ↔ num 1 ≤ tokensAt L i) ∧
      r.remaining = Number.toReply (Number.floor (left (tokensAt L i))) :=
  (holds_at hW hnow hkept i).check (toArg_ttl hW (hkept i).1) (hkept i).1

/-! ## Limits that count down -/

lemma num_le_num {m n : ℤ} (hm : |m| ≤ 2 ^ 53) (hn : |n| ≤ 2 ^ 53) :
    (num m : Double) ≤ num n ↔ m ≤ n := by
  show (num m : Double).val ≤ (num n : Double).val ↔ m ≤ n
  rw [num_val hm, num_val hn, Int.cast_le]

lemma num_sub_one {k : ℤ} (hk : |k| ≤ 2 ^ 53) : (num k - num 1 : Double) = num (k - 1) := by
  apply Double.ext
  show roundTo 2 53 ((num k : Double).val - (num 1 : Double).val) = roundTo 2 53 ((k - 1 : ℤ) : ℚ)
  rw [num_val hk, num_val (by norm_num)]
  push_cast
  rfl

lemma reread_num {k : ℤ} (h0 : 0 ≤ k) (hk : k ≤ 10 ^ 14) :
    Number.reread (num k : Double) = num k := by
  have hval : (num k : Double).val = k := num_val (by rw [abs_of_nonneg h0]; omega)
  have hprint : roundTo 10 14 (k : ℚ) = k :=
    roundTo_intCast (by norm_num) (by norm_num) (by rw [abs_of_nonneg h0]; exact_mod_cast hk)
  show Double.ofRat (roundTo 10 14 (num k : Double).val) = Double.ofRat k
  rw [hval, hprint]

lemma left_num {k : ℤ} (h0 : 0 ≤ k) (hk : k ≤ 2 ^ 53) : left (num k) = num (max (k - 1) 0) := by
  have habs : |k| ≤ 2 ^ 53 := by rwa [abs_of_nonneg h0]
  by_cases h1 : 1 ≤ k
  · rw [left, if_pos ((num_le_num (by norm_num) habs).2 h1), num_sub_one habs,
      max_eq_left (by omega)]
  · obtain rfl : k = 0 := by omega
    rw [left, if_neg fun h => h1 ((num_le_num (by norm_num) habs).1 h)]
    rfl

lemma tokensAt_of_le (hL : 1 ≤ L ∧ L ≤ 10 ^ 14 + 1) (i : ℕ) :
    tokensAt L i = num (max (L - i) 0) := by
  induction i with
  | zero => rw [tokensAt, Nat.cast_zero, sub_zero, max_eq_left (by omega)]
  | succ i ih =>
    have hcount : max (max (L - i) 0 - 1) 0 = max (L - ((i + 1 : ℕ) : ℤ)) 0 := by
      push_cast
      omega
    have hsmall : |max (L - ((i + 1 : ℕ) : ℤ)) 0| ≤ 2 ^ 53 ∧ |L| ≤ 2 ^ 53 := by
      rw [abs_of_nonneg (le_max_right _ _), abs_of_nonneg (by omega)]
      omega
    -- less is left than the limit
    have hlt : (num (max (L - ((i + 1 : ℕ) : ℤ)) 0) : Double) < num L := by
      show (num _ : Double).val < (num L : Double).val
      rw [num_val hsmall.1, num_val hsmall.2, Int.cast_lt]
      omega
    rw [tokensAt, ih, left_num (le_max_right _ _) (by omega), hcount,
      reread_num (le_max_right _ _) (by omega), Lua.min, if_pos hlt]

lemma countsDown_of_le (hL : 1 ≤ L ∧ L ≤ 10 ^ 14 + 1) (hW : 1 ≤ W) (hnow : KeepsStamp now)
    (hkept : Kept P W rs) : CountsDown P id L W now rs := by
  intro n i hi
  obtain ⟨r, hr, hallowed, hrem⟩ := check_at hW hnow hkept id L i
  have hsmall : |max (L - i) 0| ≤ 2 ^ 53 ∧ |max (max (L - i) 0 - 1) 0| ≤ 2 ^ 53 := by
    rw [abs_of_nonneg (le_max_right _ _), abs_of_nonneg (le_max_right _ _)]
    omega
  have hfloor : Number.floor (num (max (max (L - i) 0 - 1) 0) : Double) =
      num (max (max (L - i) 0 - 1) 0) := by
    show Double.ofRat ⌊(num (max (max (L - i) 0 - 1) 0) : Double).val⌋ = Double.ofRat _
    rw [num_val hsmall.2, Int.floor_intCast]
  rw [tokensAt_of_le hL, num_le_num (by norm_num) hsmall.1] at hallowed
  rw [tokensAt_of_le hL, left_num (le_max_right _ _) (by omega), hfloor, toReply_num hsmall.2]
    at hrem
  refine ⟨r, by rw [output_at hi, hr], ?_⟩
  split
  · rename_i hlt
    exact ⟨hallowed.2 (by omega), by rw [hrem]; omega⟩
  · rename_i hge
    refine ⟨Bool.eq_false_iff.2 fun h => ?_, by rw [hrem]; omega⟩
    have := hallowed.1 h
    omega

/-! ## Limits that do not -/

/-- A double that is a whole number. -/
def Whole (x : Double) : Prop := ∃ n : ℕ, x.val = n

lemma whole_ofRat {b p : ℕ} (hb : 1 < b) (hp : 1 ≤ p) (n : ℕ) :
    ∃ m : ℕ, roundTo b p (n : ℚ) = m := by
  obtain ⟨m, hm⟩ : ∃ m : ℤ, roundTo b p (n : ℚ) = m := by
    rcases le_or_gt ((b : ℤ) ^ p) n with hbig | hsmall
    · obtain ⟨m, hm⟩ := exists_roundTo_eq_mul (p := p) hb (x := (n : ℚ)) (by exact_mod_cast hbig)
      exact ⟨m * b, by rw [hm]; push_cast; rfl⟩
    · refine ⟨n, ?_⟩
      have h := roundTo_intCast (K := ℚ) (p := p) (n := (n : ℤ)) hb hp
        (by rw [abs_of_nonneg (by omega)]; exact hsmall.le)
      simpa using h
  have hm0 : 0 ≤ m := by
    have h := roundTo_nonneg (p := p) hb (x := (n : ℚ)) (by positivity)
    rw [hm] at h
    exact_mod_cast h
  exact ⟨m.toNat, by rw [hm]; exact_mod_cast (Int.toNat_of_nonneg hm0).symm⟩

lemma whole_num {n : ℤ} (hn : 0 ≤ n) : Whole (num n) := by
  obtain ⟨m, rfl⟩ := Int.eq_ofNat_of_zero_le hn
  exact whole_ofRat (by norm_num) (by norm_num) m

lemma Whole.min {x y : Double} (hx : Whole x) (hy : Whole y) : Whole (Lua.min x y) := by
  rw [Lua.min]
  split
  · exact hy
  · exact hx

lemma Whole.reread {x : Double} (hx : Whole x) : Whole (Number.reread x) := by
  obtain ⟨n, hn⟩ := hx
  obtain ⟨m, hm⟩ := whole_ofRat (b := 10) (p := 14) (by norm_num) (by norm_num) n
  obtain ⟨k, hk⟩ := whole_ofRat (b := 2) (p := 53) (by norm_num) (by norm_num) m
  refine ⟨k, ?_⟩
  show roundTo 2 53 (roundTo 10 14 x.val) = k
  rw [hn, hm, hk]

lemma Whole.left {x : Double} (hx : Whole x) : Whole (left x) := by
  rw [TokenBucket.left]
  split
  · rename_i h1
    obtain ⟨n, hn⟩ := hx
    have hone : (num 1 : Double).val = 1 := by
      rw [num_val (by norm_num), Int.cast_one]
    have hle : 1 ≤ n := by
      have h : (num 1 : Double).val ≤ x.val := h1
      rw [hone, hn] at h
      exact_mod_cast h
    obtain ⟨m, hm⟩ := whole_ofRat (b := 2) (p := 53) (by norm_num) (by norm_num) (n - 1)
    refine ⟨m, ?_⟩
    show roundTo 2 53 (x.val - (num 1 : Double).val) = m
    rw [hone, hn, ← hm, Nat.cast_sub hle, Nat.cast_one]
  · exact hx

/-- The reply tells a positive whole number as it is. -/
lemma Whole.val_eq {x : Double} (hx : Whole x) {m : ℤ} (hm : 0 < m)
    (h : Number.toReply (Number.floor x) = m) : x.val = m := by
  obtain ⟨n, hn⟩ := hx
  have hfloor : (Number.floor x : Double) = x := by
    apply Double.ext
    show roundTo 2 53 ((⌊x.val⌋ : ℤ) : ℚ) = x.val
    rw [hn, Int.floor_natCast, Int.cast_natCast, ← hn, x.rounded]
  have htrunc : Double.trunc x = n := by
    simp [Double.trunc, hn]
  rw [hfloor] at h
  have hreply : (if FitsInt64 (Double.trunc x) then Double.trunc x else -2 ^ 63) = m := h
  rw [htrunc] at hreply
  split at hreply
  · rw [hn, ← hreply, Int.cast_natCast]
  · omega

/-- The large doubles are even. -/
lemma two_dvd_of_val {x : Double} {v : ℤ} (hx : x.val = v) (hv : 2 ^ 53 ≤ v) : 2 ∣ v := by
  obtain ⟨n, hn⟩ := exists_roundTo_eq_mul (b := 2) (p := 53) (by norm_num) (x := (v : ℚ))
    (by exact_mod_cast hv)
  rw [← hx, x.rounded, hx] at hn
  exact ⟨n, by rw [mul_comm]; exact_mod_cast hn⟩

/-- If a count of 15 or 16 digits goes down by one, although it was printed in between, then it
ends in a zero. -/
lemma ten_dvd_of_count {cap x : Double} {v : ℤ} (hx : x.val = v) (hlow : 10 ^ 14 ≤ v)
    (hhigh : v < 2 ^ 53) (hcap : (left cap).val ≠ (v - 1 : ℤ))
    (h1 : num 1 ≤ Lua.min cap (Number.reread x))
    (hleft : (left (Lua.min cap (Number.reread x))).val = (v - 1 : ℤ)) : 10 ∣ v := by
  set u : Double := Number.reread x with hu
  have hone : (num 1 : Double).val = 1 := by
    rw [num_val (by norm_num), Int.cast_one]
  have hmin : Lua.min cap u = u := by
    rw [Lua.min] at hleft ⊢
    split at hleft
    · rename_i hlt
      rw [if_pos hlt]
    · exact absurd hleft hcap
  rw [hmin] at h1 hleft
  obtain ⟨n, hn⟩ : Whole u := by
    have hv : ((v.toNat : ℕ) : ℤ) = v := Int.toNat_of_nonneg (by omega)
    have hwhole : Whole x := ⟨v.toNat, by rw [hx, ← hv]; rfl⟩
    exact hwhole.reread
  -- the token that was taken is the difference of the two counts
  have hval : u.val = v := by
    have hsub : roundTo 2 53 (((n : ℤ) - 1 : ℤ) : ℚ) = (v - 1 : ℤ) := by
      rw [left, if_pos h1] at hleft
      rw [← hleft]
      show _ = roundTo 2 53 (u.val - (num 1 : Double).val)
      rw [hone, hn]
      push_cast
      rfl
    have hnv : (n : ℤ) - 1 = v - 1 := Double.eq_of_round hsub (by omega) (by omega)
    rw [hn]
    exact_mod_cast (by omega : (n : ℤ) = v)
  obtain ⟨m, hm⟩ := exists_roundTo_eq_mul (b := 10) (p := 14) (by norm_num) (x := (v : ℚ))
    (by exact_mod_cast hlow)
  have hprint : roundTo 2 53 ((m * 10 : ℤ) : ℚ) = v := by
    rw [← hval]
    show _ = roundTo 2 53 (roundTo 10 14 x.val)
    rw [hx, hm]
    push_cast
    rfl
  have hmv : m * 10 = v := Double.eq_of_round hprint (by omega) hhigh
  exact ⟨m, by omega⟩

/-! ## Exactly these limits -/

lemma CountsDown.check (h : CountsDown P id L W now rs) (i : ℕ) :
    ∃ r : Result, (Service.check P (keyspaceAt P id L W now rs i)
        ⟨request id L W, ⟨now, rs i⟩⟩).1 = .ok r ∧
      if (i : ℤ) < L then r.allowed = true ∧ r.remaining = L - 1 - i
      else r.allowed = false ∧ r.remaining = 0 := by
  obtain ⟨r, hr, hcount⟩ := h (i + 1) i (Nat.lt_succ_self i)
  rw [output_at (Nat.lt_succ_self i), Option.some.injEq] at hr
  exact ⟨r, hr, hcount⟩

/-- A bucket that counts down is never fresh again: the first check would be repeated. -/
lemma CountsDown.not_fresh (h : CountsDown P id L W now rs) (hL : 1 ≤ L) (i : ℕ) :
    ¬ Holds P id L ⟨now, rs (i + 1)⟩ (keyspaceAt P id L W now rs (i + 1)) (num L) := by
  intro hfresh
  obtain ⟨r, hr, hcount⟩ := h.check 0
  obtain ⟨r', hr', hcount'⟩ := h.check (i + 1)
  obtain ⟨s, harg, hfits⟩ := holds_zero.accepted hr
  obtain ⟨s', harg', hfits'⟩ := hfresh.accepted hr'
  obtain ⟨q, hq, hallowed, hrem⟩ := holds_zero.check harg hfits
  obtain ⟨q', hq', hallowed', hrem'⟩ := hfresh.check harg' hfits'
  obtain rfl : r = q := Except.ok.inj (hr.symm.trans hq)
  obtain rfl : r' = q' := Except.ok.inj (hr'.symm.trans hq')
  rw [if_pos (by exact_mod_cast hL)] at hcount
  split at hcount'
  · have hsame : r'.remaining = r.remaining := hrem'.trans hrem.symm
    rw [hcount.2, hcount'.2] at hsame
    push_cast at hsame
    omega
  · rw [hallowed'.2 (hallowed.1 hcount.1)] at hcount'
    exact absurd hcount'.1 (by simp)

lemma CountsDown.kept (h : CountsDown P id L W now rs) (hL : 1 ≤ L) (hW : 1 ≤ W ∧ FitsInt64 W)
    (hnow : KeepsStamp now) : Kept P W rs := by
  obtain ⟨r, hr, -⟩ := h.check 0
  obtain ⟨s, harg, hfits⟩ := holds_zero.accepted hr
  have hs : 0 < s := by
    by_contra hneg
    refine h.not_fresh hL 0 ?_
    rw [keyspaceAt_succ]
    exact holds_zero.fresh harg hfits (.inl (not_lt.1 hneg))
  obtain rfl : s = W * 2 := ttl_of_accepted hW harg hfits hs
  -- check by check, the TTL is accepted and the key stays
  have hstep : ∀ i x, Holds P id L ⟨now, rs i⟩ (keyspaceAt P id L W now rs i) x →
      TimeFits (rs i) (W * 2) ∧ P.gone (rs i + W * 2 * 1000) (rs (i + 1)) = false := by
    intro i x hx
    obtain ⟨r', hr', -⟩ := h.check i
    obtain ⟨s', harg', hfits'⟩ := hx.accepted hr'
    obtain rfl : W * 2 = s' := Option.some.inj (harg.symm.trans harg')
    refine ⟨hfits', Bool.eq_false_iff.2 fun hgone => h.not_fresh hL i ?_⟩
    rw [keyspaceAt_succ]
    exact hx.fresh harg hfits' (.inr hgone)
  have hholds : ∀ i, ∃ x, Holds P id L ⟨now, rs i⟩ (keyspaceAt P id L W now rs i) x := by
    intro i
    induction i with
    | zero => exact ⟨_, holds_zero⟩
    | succ i ih =>
      obtain ⟨x, hx⟩ := ih
      obtain ⟨hfits', hlive⟩ := hstep i x hx
      rw [keyspaceAt_succ]
      exact ⟨_, hx.next hnow harg hfits' hs hlive⟩
  intro i
  obtain ⟨x, hx⟩ := hholds i
  exact hstep i x hx

lemma whole_tokensAt (hL : 0 ≤ L) (i : ℕ) : Whole (tokensAt L i) := by
  induction i with
  | zero => exact whole_num hL
  | succ i ih => exact (whole_num hL).min ih.left.reread

/-- While tokens are left, the counts of a run that counts down are exact. -/
lemma CountsDown.left_val (h : CountsDown P id L W now rs) (hL : 1 ≤ L)
    (hW : 1 ≤ W) (hnow : KeepsStamp now) (hkept : Kept P W rs) (i : ℕ) {v : ℤ}
    (hv : L - 1 - i = v) (hpos : 0 < v) :
    num 1 ≤ tokensAt L i ∧ (left (tokensAt L i)).val = v := by
  obtain ⟨r, hr, hcount⟩ := h.check i
  obtain ⟨q, hq, hallowed, hrem⟩ := check_at hW hnow hkept id L i
  obtain rfl : r = q := Except.ok.inj (hr.symm.trans hq)
  rw [if_pos (by omega), hv] at hcount
  exact ⟨hallowed.1 hcount.1, (whole_tokensAt (by omega) i).left.val_eq hpos
    (hrem.symm.trans hcount.2)⟩

lemma CountsDown.le (h : CountsDown P id L W now rs) (hL : 1 ≤ L) (hW : 1 ≤ W)
    (hnow : KeepsStamp now) (hkept : Kept P W rs) : L ≤ 10 ^ 14 + 1 := by
  by_contra hlarge
  obtain ⟨-, h0⟩ := h.left_val hL hW hnow hkept 0 (v := L - 1) (by simp) (by omega)
  obtain ⟨hone1, h1⟩ := h.left_val hL hW hnow hkept 1 (v := L - 1 - 1) (by simp) (by omega)
  obtain ⟨hone2, h2⟩ :=
    h.left_val hL hW hnow hkept 2 (v := L - 1 - 1 - 1) (by push_cast; omega) (by omega)
  -- above the exact integers, one of two counts in a row is odd
  have hsmall : L - 1 ≤ 2 ^ 53 := by
    by_contra hbig
    have heven0 := two_dvd_of_val h0 (by omega)
    have heven1 := two_dvd_of_val h1 (by omega)
    omega
  have hcap : ∀ v : ℤ, v ≠ L - 1 → (left (num L)).val ≠ v := by
    intro v hv hval
    rw [tokensAt] at h0
    rw [h0, Int.cast_inj] at hval
    exact hv hval.symm
  have hten2 := ten_dvd_of_count h1 (by omega) (by omega) (hcap _ (by omega)) hone2 h2
  have hten1 := ten_dvd_of_count h0 (by omega) (by omega) (hcap _ (by omega)) hone1 h1
  omega

/-- **Checks at one time count down exactly up to a limit of `10 ^ 14 + 1`, while Redis accepts
the TTL and keeps the key.** -/
theorem countsDown_iff (hvalid : (request id L W).Valid) (hnow : KeepsStamp now) :
    CountsDown P id L W now rs ↔ L ≤ 10 ^ 14 + 1 ∧ Kept P W rs := by
  have hL : 1 ≤ L := hvalid.limit.1
  have hW : 1 ≤ W ∧ FitsInt64 W := hvalid.windowSeconds
  constructor
  · intro h
    have hkept := h.kept hL hW hnow
    exact ⟨h.le hL hW.1 hnow hkept, hkept⟩
  · rintro ⟨hle, hkept⟩
    exact countsDown_of_le ⟨hL, hle⟩ hW.1 hnow hkept

lemma kept_minute : Kept .past 60 fun _ => 1717243200000 := by
  intro i
  have hfits : TimeFits 1717243200000 (60 * 2) := by decide
  exact ⟨hfits, rfl⟩

/-- A limit of three, in a minute of the year 2024. -/
theorem countsDown_three :
    CountsDown .past "user:1" 3 60 1717243200000 fun _ => 1717243200000 :=
  (countsDown_iff ⟨by decide, by decide, by decide, .inl rfl⟩
    (keepsStamp_of_le (by norm_num) (by norm_num))).2 ⟨by norm_num, kept_minute⟩

/-- One more than the largest exact limit: `100000000000001` is printed as `1e+14`. -/
theorem not_countsDown_printed :
    ¬ CountsDown .past "user:1" (10 ^ 14 + 2) 60 1717243200000 fun _ => 1717243200000 := by
  intro h
  have hle := h.le (by norm_num) (by norm_num)
    (keepsStamp_of_le (by norm_num) (by norm_num)) kept_minute
  norm_num at hle

end TokenBucket

end ShardLeak
