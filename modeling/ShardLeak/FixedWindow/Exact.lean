/-
# The fixed window in doubles

A fixed window check computes with integers only: the start of the window, its end, the limit and
the count.  Where they have at most 53 binary digits, and the start is printed in full, no number
of the script is ever rounded, so that the checks return in doubles what they return over exact
numbers.  This holds of any two kinds of numbers that are exact on integers, and whatever token
bucket checks, whose numbers are rounded, run in between.

Larger limits and windows are rounded, and the checks that carry them share their counters with the
others.  Such a check may count beyond `2 ^ 53`, where every smaller limit is reached, and it may
open a counter that expires at another time, but not before the second `2 ^ 53`.  Two databases that
differ in this way only are the same to every check of smaller numbers.
-/
import ShardLeak.FixedWindow.Ideal
import ShardLeak.Lua.Exact
import ShardLeak.RateLimit.Isolation

namespace ShardLeak

namespace FixedWindow

open RateLimit Redis Lua

/-- A valid check at a time of at most 14 decimal digits, whose script runs before the second
`2 ^ 53`. -/
structure Dated (L W : ℤ) (st : Stamp) : Prop where
  limit : 1 ≤ L
  window : 1 ≤ W
  now : 0 ≤ st.nowSecs ∧ st.nowSecs < 10 ^ 14
  redis : st.redisMs < 2 ^ 53 * 1000

instance (L W : ℤ) (st : Stamp) : Decidable (Dated L W st) :=
  decidable_of_iff (1 ≤ L ∧ 1 ≤ W ∧ (0 ≤ st.nowSecs ∧ st.nowSecs < 10 ^ 14) ∧
    st.redisMs < 2 ^ 53 * 1000) ⟨fun ⟨h1, h2, h3, h4⟩ => ⟨h1, h2, h3, h4⟩,
      fun ⟨h1, h2, h3, h4⟩ => ⟨h1, h2, h3, h4⟩⟩

/-- The limit and the end of the window have at most 53 binary digits. -/
def FitsDouble (L W : ℤ) (st : Stamp) : Prop := L ≤ 2 ^ 53 ∧ windowEnd W st.nowSecs ≤ 2 ^ 53

instance (L W : ℤ) (st : Stamp) : Decidable (FitsDouble L W st) :=
  inferInstanceAs (Decidable (_ ∧ _))

variable {L W : ℤ} {st : Stamp}

lemma Dated.lt (h : Dated L W st) : st.nowSecs < 2 ^ 53 := h.now.2.trans (by norm_num)

lemma windowEnd_eq (W now : ℤ) : windowEnd W now = now / W * W + W := by
  rw [windowEnd]
  ring

lemma ediv_mul_mem (hW : 1 ≤ W) {now : ℤ} (h0 : 0 ≤ now) :
    0 ≤ now / W * W ∧ now / W * W ≤ now :=
  ⟨mul_nonneg (Int.ediv_nonneg h0 (by omega)) (by omega), Int.ediv_mul_le now (by omega)⟩

lemma abs_windowEnd (hW : 1 ≤ W) {now : ℤ} (h0 : 0 ≤ now) (hend : windowEnd W now ≤ 2 ^ 53) :
    |windowEnd W now| ≤ 2 ^ 53 := by
  have hfuture := lt_windowEnd hW now
  exact abs_le.2 ⟨by omega, hend⟩

lemma timeFits_windowEnd (hW : 1 ≤ W) {now : ℤ} (h0 : 0 ≤ now) (hend : windowEnd W now ≤ 2 ^ 53) :
    TimeFits 0 (windowEnd W now) := by
  have hfuture := lt_windowEnd hW now
  exact ⟨⟨by omega, by omega⟩, ⟨by omega, by omega⟩⟩

/-- A key without an expiry, or with one that is not before the second `2 ^ 53`. -/
def Late (t : Option ℤ) : Prop := ∀ e ∈ t, 2 ^ 53 * 1000 ≤ e

lemma result_of_le {n : ℕ} (h : L ≤ n) :
    result W L st.nowSecs n =
      ⟨false, 0, L, windowEnd W st.nowSecs, windowEnd W st.nowSecs - st.nowSecs⟩ := by
  simp [result, not_lt.2 h, h]

/-! ## The script over numbers that are exact on integers -/

section Numbers

variable {α : Type} [Number α] (hα : Exact α)

include hα

lemma windowStart_exact (hW : 1 ≤ W) {now : ℤ} (h0 : 0 ≤ now) (hnow : now < 2 ^ 53) :
    windowStart (num W : α) (num now) = num (now / W * W) := by
  have hdiv := Int.ediv_nonneg h0 (by omega : 0 ≤ W)
  have hdiv' := Int.ediv_le_self W h0
  rw [windowStart, hα.floor_div h0 hnow hW]
  rcases le_or_gt W (2 ^ 53) with hsmall | hlarge
  · rw [hα.mul (by rw [abs_of_nonneg hdiv]; omega) (by rw [abs_of_pos (by omega)]; omega)]
  · -- a window that is longer than the time since the epoch starts there
    rw [Int.ediv_eq_zero_of_lt h0 (by omega), hα.zero_mul, zero_mul]

lemma windowKey_exact (h : Dated L W st) (id : String) :
    windowKey (fwKey id) (windowStart (num W : α) (num st.nowSecs)) =
      counterKey id W (st.nowSecs / W) := by
  obtain ⟨hstart, hstart'⟩ := ediv_mul_mem h.window h.now.1
  rw [windowStart_exact hα h.window h.now.1 h.lt, counterKey, windowKey, windowKey,
    hα.tostring hstart (hstart'.trans_lt h.now.2), tostring_intCast]

lemma resetAt_exact (hW : 1 ≤ W) {now : ℤ} (h0 : 0 ≤ now) (hnow : now < 2 ^ 53)
    (hend : windowEnd W now ≤ 2 ^ 53) :
    windowStart (num W : α) (num now) + num W = num (windowEnd W now) := by
  obtain ⟨hstart, hstart'⟩ := ediv_mul_mem hW h0
  rw [windowEnd_eq] at hend
  rw [windowStart_exact hα hW h0 hnow, windowEnd_eq]
  exact hα.add (by rw [abs_of_nonneg hstart]; omega) (by rw [abs_of_pos (by omega)]; omega)

lemma remaining_exact {n : ℤ} (hL : 1 ≤ L ∧ L ≤ 2 ^ 53) (hn : 0 ≤ n) :
    Number.toReply (Lua.max (num 0) (num L - num n) : α) = Max.max 0 (L - n) := by
  rcases le_or_gt L n with hle | hlt
  · -- a count beyond the limit may be rounded, but not below it
    rw [Lua.max, if_neg (hα.sub_nonpos (by omega) hle), hα.toReply (by norm_num),
      max_eq_left (by omega)]
  · have hL' : |L| ≤ 2 ^ 53 := abs_le.2 ⟨by omega, hL.2⟩
    have hn' : |n| ≤ 2 ^ 53 := abs_le.2 ⟨by omega, by omega⟩
    have hsub : |L - n| ≤ 2 ^ 53 := abs_le.2 ⟨by omega, by omega⟩
    rw [hα.sub hL' hn', Lua.max, if_pos ((hα.lt_iff (by norm_num) hsub).2 (by omega)),
      hα.toReply hsub, max_eq_right (by omega)]

lemma parseResult_exact {E n a r : ℤ} (hL : 1 ≤ L ∧ L ≤ 2 ^ 53) (hE : |E| ≤ 2 ^ 53)
    (hn : 0 ≤ n) (ha : |a| ≤ 2 ^ 53) (hr : |r| ≤ 2 ^ 53) :
    parseResult (windowReply (num L : α) (num E) (num n) (num a) (num r)) L =
      .ok ⟨a == 1, Max.max 0 (L - n), L, E, r⟩ := by
  rw [windowReply, remaining_exact hα hL hn, hα.toReply ha, hα.toReply hE, hα.toReply hr]
  rfl

variable {P : Expiry} {id : String} {ks : Keyspace (BucketFields α)}

lemma check_opening (h : Dated L W st) (hend : windowEnd W st.nowSecs ≤ 2 ^ 53)
    (hfind : ks.find ⟨st.redisMs, P⟩ (counterKey id W (st.nowSecs / W)) = none) :
    (L ≤ 2 ^ 53 →
      (Service.check P ks ⟨request id L W, st⟩).1 = .ok (result W L st.nowSecs 0)) ∧
      (Service.check P ks ⟨request id L W, st⟩).2 =
        ks.expireEntry ⟨st.redisMs, P⟩ (counterKey id W (st.nowSecs / W)) (.string 1)
          (windowEnd W st.nowSecs * 1000) := by
  have hL := h.limit
  have hcount : (num 0 : α) < num L :=
    (hα.lt_iff_of_small le_rfl (by norm_num) (by omega)).2 (by omega)
  have habs := abs_windowEnd h.window h.now.1 hend
  have harg : Number.toArg (windowStart (num W : α) (num st.nowSecs) + num W) =
      some (windowEnd W st.nowSecs) := by
    rw [resetAt_exact hα h.window h.now.1 h.lt hend, hα.toArg habs]
  rw [← windowKey_exact hα h] at hfind ⊢
  rw [check_eq, checkFixedWindow]
  simp only [request]
  rw [fixedWindowLua_opened hfind hcount harg (timeFits_windowEnd h.window h.now.1 hend),
    resetAt_exact hα h.window h.now.1 h.lt hend]
  refine ⟨fun hL' => ?_, rfl⟩
  simp only [parseResult_exact hα (n := 1) (a := 1) (r := 0) ⟨hL, hL'⟩ habs (by norm_num)
    (by norm_num) (by norm_num)]
  simp [result, show 0 < L by omega]

/-- The first check of a window that ends after the second `2 ^ 53`. -/
lemma check_opening_large (h : Dated L W st) (hend : 2 ^ 53 < windowEnd W st.nowSecs)
    (hfind : ks.find ⟨st.redisMs, P⟩ (counterKey id W (st.nowSecs / W)) = none) :
    ∃ t, Late t ∧ (Service.check P ks ⟨request id L W, st⟩).2 =
      ks.insert (counterKey id W (st.nowSecs / W)) ⟨.string 1, t⟩ := by
  obtain ⟨hstart, -⟩ := ediv_mul_mem h.window h.now.1
  have hL := h.limit
  have hW := h.window
  have hcount : (num 0 : α) < num L :=
    (hα.lt_iff_of_small le_rfl (by norm_num) (by omega)).2 (by omega)
  rw [← windowKey_exact hα h] at hfind ⊢
  rw [check_eq, checkFixedWindow]
  simp only [request]
  by_cases hacc : Accepted 0 (Number.toArg (windowStart (num W : α) (num st.nowSecs) + num W))
  · obtain ⟨s, harg, hfits⟩ := hacc
    have hlarge : 2 ^ 53 ≤ s := by
      rw [windowStart_exact hα h.window h.now.1 h.lt] at harg
      rw [windowEnd_eq] at hend
      exact hα.large_of_toArg hstart (by omega) hend.le harg
    have hredis := h.redis
    rw [fixedWindowLua_opened hfind hcount harg hfits]
    refine ⟨some (s * 1000), ?_, ?_⟩
    · rintro _ ⟨⟩
      omega
    · simp only [Keyspace.expireEntry, if_neg (show ¬ s * 1000 ≤ st.redisMs by omega)]
  · obtain ⟨e, -, hrun⟩ := fixedWindowLua_unbounded hfind hcount hacc
    rw [hrun]
    exact ⟨none, by simp [Late], rfl⟩

lemma check_counting (h : Dated L W st) {n : ℕ} {t : Option ℤ} (hpos : 0 < n)
    (hfind : ks.find ⟨st.redisMs, P⟩ (counterKey id W (st.nowSecs / W)) = some ⟨.string n, t⟩) :
    (FitsDouble L W st →
      (Service.check P ks ⟨request id L W, st⟩).1 = .ok (result W L st.nowSecs n)) ∧
      (Service.check P ks ⟨request id L W, st⟩).2 =
        if (num (n : ℤ) : α) < num L ∧ FitsInt64 (n + 1) then
          ks.insert (counterKey id W (st.nowSecs / W)) ⟨.string (n + 1), t⟩
        else ks := by
  have hL := h.limit
  rw [← windowKey_exact hα h] at hfind ⊢
  rw [check_eq, checkFixedWindow]
  simp only [request]
  by_cases hcount : (num (n : ℤ) : α) < num L
  · have hlt : (n : ℤ) < L := hα.lt_of_lt (by omega) hcount
    by_cases hmore : FitsInt64 ((n : ℤ) + 1)
    · rw [fixedWindowLua_counted hfind hcount hmore (by omega), if_pos ⟨hcount, hmore⟩]
      refine ⟨fun hfits => ?_, rfl⟩
      obtain ⟨hlimit, hend⟩ := hfits
      have habs := abs_windowEnd h.window h.now.1 hend
      rw [resetAt_exact hα h.window h.now.1 h.lt hend]
      simp only [parseResult_exact hα (n := n + 1) (a := 1) (r := 0) ⟨hL, hlimit⟩ habs (by omega)
        (by norm_num) (by norm_num)]
      simp [result, hlt]
    · rw [fixedWindowLua_overflow hfind hcount hmore, if_neg fun hboth => hmore hboth.2]
      refine ⟨fun hfits => absurd ?_ hmore, rfl⟩
      have hlimit := hfits.1
      exact ⟨by omega, by omega⟩
  · -- the limit is reached: the check waits for the end of the window
    rw [fixedWindowLua_refused (get_of_string hfind) hcount, if_neg fun hboth => hcount hboth.1]
    refine ⟨fun hfits => ?_, rfl⟩
    obtain ⟨hlimit, hend⟩ := hfits
    have hle : L ≤ n := by
      by_contra hlt
      exact hcount ((hα.lt_iff (abs_le.2 ⟨by omega, by omega⟩)
        (abs_le.2 ⟨by omega, hlimit⟩)).2 (not_le.1 hlt))
    have habs := abs_windowEnd h.window h.now.1 hend
    have hfuture := lt_windowEnd h.window st.nowSecs
    have hnow := h.now
    have hwait : |windowEnd W st.nowSecs - st.nowSecs| ≤ 2 ^ 53 :=
      abs_le.2 ⟨by omega, by omega⟩
    have hretry : Number.ceil (num (windowEnd W st.nowSecs) - num st.nowSecs : α) =
        num (windowEnd W st.nowSecs - st.nowSecs) := by
      rw [hα.sub habs (abs_le.2 ⟨by omega, by omega⟩), hα.ceil hwait]
    rw [resetAt_exact hα h.window h.now.1 h.lt hend, hretry, result_of_le hle]
    simp only [readCount, parseResult_exact hα (n := n) (a := 0) ⟨hL, hlimit⟩ habs (by omega)
      (by norm_num) hwait]
    simp [hle]

end Numbers

/-! ## Two kinds of numbers -/

variable {α β : Type}

/-- Two times that are the same, or both not before the second `2 ^ 53`. -/
def SameTime (t t' : Option ℤ) : Prop := t = t' ∨ Late t ∧ Late t'

/-- A counter holds the same in two databases: nothing, one count, or two counts that have reached
every limit of 53 binary digits. -/
inductive SameCount :
    Option (Entry (BucketFields α)) → Option (Entry (BucketFields β)) → Prop
  | absent : SameCount none none
  | count {n : ℕ} {t t' : Option ℤ} (hpos : 0 < n) (hn : (n : ℤ) < 2 ^ 53) (ht : SameTime t t') :
      SameCount (some ⟨.string n, t⟩) (some ⟨.string n, t'⟩)
  | large {n n' : ℕ} {t t' : Option ℤ} (hn : 2 ^ 53 ≤ (n : ℤ)) (hn' : 2 ^ 53 ≤ (n' : ℤ))
      (ht : SameTime t t') : SameCount (some ⟨.string n, t⟩) (some ⟨.string n', t'⟩)

lemma SameCount.succ {n : ℕ} {t t' : Option ℤ} (hn : (n : ℤ) < 2 ^ 53) (ht : SameTime t t') :
    SameCount (α := α) (β := β) (some ⟨.string (n + 1), t⟩) (some ⟨.string (n + 1), t'⟩) := by
  rcases (show (n : ℤ) + 1 ≤ 2 ^ 53 by omega).lt_or_eq with hlt | heq
  · exact .count (n := n + 1) (by omega) (by push_cast; omega) ht
  · have hlarge : 2 ^ 53 ≤ ((n + 1 : ℕ) : ℤ) := by
      push_cast
      omega
    exact .large hlarge hlarge ht

/-- All counters hold the same in two databases. -/
def SameCounts (ks : Keyspace (BucketFields α)) (ks' : Keyspace (BucketFields β)) : Prop :=
  ∀ (id : String) (W k : ℤ), SameCount (ks (counterKey id W k)) (ks' (counterKey id W k))

variable {ks : Keyspace (BucketFields α)} {ks' : Keyspace (BucketFields β)} {key : String}

/-- Before the second `2 ^ 53`, a key is there in both or in none. -/
lemma SameTime.isLive {t t' : Option ℤ} (h : SameTime t t') {c : Clock}
    (hc : c.now < 2 ^ 53 * 1000) (v : Value (BucketFields α)) (v' : Value (BucketFields β)) :
    (⟨v, t⟩ : Entry (BucketFields α)).isLive c = (⟨v', t'⟩ : Entry (BucketFields β)).isLive c := by
  have hlate : ∀ {γ : Type} (w : Value γ) {u : Option ℤ}, Late u →
      (⟨w, u⟩ : Entry γ).isLive c = true := by
    intro γ w u hu
    cases u with
    | none => rfl
    | some e => simp [c.expiry.not_gone (hc.trans_le (hu e rfl))]
  rcases h with rfl | ⟨ht, ht'⟩
  · rfl
  · rw [hlate v ht, hlate v' ht']

lemma SameCounts.find (h : SameCounts ks ks') (id : String) (W k : ℤ) {c : Clock}
    (hc : c.now < 2 ^ 53 * 1000) :
    SameCount (ks.find c (counterKey id W k)) (ks'.find c (counterKey id W k)) := by
  have hkey := h id W k
  rw [Keyspace.find, Keyspace.find]
  generalize ks (counterKey id W k) = e, ks' (counterKey id W k) = e' at hkey
  cases hkey with
  | absent => exact .absent
  | @count n t t' hpos hn ht =>
    have hlive := ht.isLive (α := α) (β := β) hc (.string n) (.string n)
    rw [Option.filter_some, Option.filter_some, hlive]
    split
    · exact .count hpos hn ht
    · exact .absent
  | @large n n' t t' hn hn' ht =>
    have hlive := ht.isLive (α := α) (β := β) hc (.string n) (.string n')
    rw [Option.filter_some, Option.filter_some, hlive]
    split
    · exact .large hn hn' ht
    · exact .absent

/-- Only one key was written. -/
lemma SameCounts.congr (h : SameCounts ks ks') (key : String) {ls : Keyspace (BucketFields α)}
    {ls' : Keyspace (BucketFields β)} (hls : ∀ k ≠ key, ls k = ks k)
    (hls' : ∀ k ≠ key, ls' k = ks' k) (hkey : SameCount (ls key) (ls' key)) :
    SameCounts ls ls' := by
  intro id W k
  rcases eq_or_ne (counterKey id W k) key with rfl | hne
  · exact hkey
  · rw [hls _ hne, hls' _ hne]
    exact h id W k

lemma SameCounts.insert (h : SameCounts ks ks') {e : Entry (BucketFields α)}
    {e' : Entry (BucketFields β)} (he : SameCount (some e) (some e')) :
    SameCounts (ks.insert key e) (ks'.insert key e') := by
  refine h.congr key (fun k hk => Keyspace.insert_of_ne hk ..)
    (fun k hk => Keyspace.insert_of_ne hk ..) ?_
  rwa [Keyspace.insert_self, Keyspace.insert_self]

lemma SameCounts.delete (h : SameCounts ks ks') : SameCounts (ks.delete key) (ks'.delete key) := by
  refine h.congr key (fun k hk => Keyspace.delete_of_ne hk ..)
    (fun k hk => Keyspace.delete_of_ne hk ..) ?_
  rw [Keyspace.delete_self, Keyspace.delete_self]
  exact .absent

lemma SameCounts.expireEntry (h : SameCounts ks ks') (c : Clock) (t : ℤ) :
    SameCounts (ks.expireEntry c key (.string 1) t) (ks'.expireEntry c key (.string 1) t) := by
  rw [Keyspace.expireEntry, Keyspace.expireEntry]
  split
  · exact h.delete
  · exact h.insert (.count (n := 1) one_pos (by norm_num) (.inl rfl))

/-- Two large counts, of which any may go up. -/
lemma SameCounts.incr_large (h : SameCounts ks ks') {p q : Prop} [Decidable p] [Decidable q]
    {n n' : ℕ} {t t' : Option ℤ} (ht : SameTime t t') (hn : 2 ^ 53 ≤ (n : ℤ))
    (hn' : 2 ^ 53 ≤ (n' : ℤ)) (hks : ks key = some ⟨.string n, t⟩)
    (hks' : ks' key = some ⟨.string n', t'⟩) :
    SameCounts (if p then ks.insert key ⟨.string (n + 1), t⟩ else ks)
      (if q then ks'.insert key ⟨.string (n' + 1), t'⟩ else ks') := by
  have hmore : 2 ^ 53 ≤ ((n + 1 : ℕ) : ℤ) ∧ 2 ^ 53 ≤ ((n' + 1 : ℕ) : ℤ) := by omega
  refine h.congr key (fun k hk => ?_) (fun k hk => ?_) ?_
  · split
    · exact Keyspace.insert_of_ne hk ..
    · rfl
  · split
    · exact Keyspace.insert_of_ne hk ..
    · rfl
  · split_ifs
    · rw [Keyspace.insert_self, Keyspace.insert_self]
      exact .large hmore.1 hmore.2 ht
    · rw [Keyspace.insert_self, hks']
      exact .large hmore.1 hn' ht
    · rw [hks, Keyspace.insert_self]
      exact .large hn hmore.2 ht
    · rw [hks, hks']
      exact .large hn hn' ht

variable [Number α] [Number β]

/-- **One fixed window check.**  It writes the same, and returns the same if it is in range. -/
lemma SameCounts.check (hα : Exact α) (hβ : Exact β) (h : SameCounts ks ks')
    (hdated : Dated L W st) (P : Expiry) (id : String) :
    (FitsDouble L W st → (Service.check P ks ⟨request id L W, st⟩).1 =
        (Service.check P ks' ⟨request id L W, st⟩).1) ∧
      SameCounts (Service.check P ks ⟨request id L W, st⟩).2
        (Service.check P ks' ⟨request id L W, st⟩).2 := by
  have hfind := h.find id W (st.nowSecs / W) (c := ⟨st.redisMs, P⟩) hdated.redis
  generalize he : ks.find ⟨st.redisMs, P⟩ (counterKey id W (st.nowSecs / W)) = e,
    he' : ks'.find ⟨st.redisMs, P⟩ (counterKey id W (st.nowSecs / W)) = e' at hfind
  cases hfind with
  | absent =>
    rcases le_or_gt (windowEnd W st.nowSecs) (2 ^ 53) with hend | hend
    · obtain ⟨hout, hnext⟩ := check_opening hα hdated hend he
      obtain ⟨hout', hnext'⟩ := check_opening hβ hdated hend he'
      rw [hnext, hnext']
      refine ⟨fun hfits => ?_, h.expireEntry _ _⟩
      rw [hout hfits.1, hout' hfits.1]
    · obtain ⟨t, ht, hnext⟩ := check_opening_large hα hdated hend he
      obtain ⟨t', ht', hnext'⟩ := check_opening_large hβ hdated hend he'
      rw [hnext, hnext']
      exact ⟨fun hfits => absurd hfits.2 (not_le.2 hend),
        h.insert (.count (n := 1) one_pos (by norm_num) (.inr ⟨ht, ht'⟩))⟩
  | @count n t t' hpos hn ht =>
    obtain ⟨hout, hnext⟩ := check_counting hα hdated hpos he
    obtain ⟨hout', hnext'⟩ := check_counting hβ hdated hpos he'
    rw [hnext, hnext']
    refine ⟨fun hfits => by rw [hout hfits, hout' hfits], ?_⟩
    have hlimit := hdated.limit
    simp only [hα.lt_iff_of_small (Int.natCast_nonneg n) hn (by omega : 0 ≤ L),
      hβ.lt_iff_of_small (Int.natCast_nonneg n) hn (by omega : 0 ≤ L)]
    split
    · exact h.insert (.succ hn ht)
    · exact h
  | @large n n' t t' hn hn' ht =>
    obtain ⟨hout, hnext⟩ := check_counting hα hdated (by omega) he
    obtain ⟨hout', hnext'⟩ := check_counting hβ hdated (by omega) he'
    rw [hnext, hnext']
    refine ⟨fun hfits => ?_, ?_⟩
    · rw [hout hfits, hout' hfits, result_of_le (hfits.1.trans hn),
        result_of_le (hfits.1.trans hn')]
    · exact h.incr_large ht hn hn' (Keyspace.find_eq_some_iff.1 he).1
        (Keyspace.find_eq_some_iff.1 he').1

/-- Other checks do not touch the counters. -/
lemma SameCounts.other (h : SameCounts ks ks') (P : Expiry) {c : Call}
    (hc : c.req.algorithm ≠ .fixedWindow) :
    SameCounts (Service.check P ks c).2 (Service.check P ks' c).2 := by
  have hframe : ∀ (γ : Type) [Number γ] (ls : Keyspace (BucketFields γ)) (id : String) (W k : ℤ),
      (Service.check P ls c).2 (counterKey id W k) = ls (counterKey id W k) := by
    intro γ _ ls id W k
    refine check_frame P ls c ?_
    cases halg : c.req.algorithm with
    | tokenBucket => exact fun hkey => tbKey_ne_windowKey _ _ _ (Eq.symm hkey)
    | fixedWindow => exact absurd halg hc
    | other name => exact Set.notMem_empty _
  intro id W k
  rw [hframe, hframe]
  exact h id W k

/-- A fixed window check in range. -/
def InDoubleRange (c : Call) : Prop :=
  c.req.algorithm = .fixedWindow ∧ FitsDouble c.req.limit c.req.windowSeconds c.stamp

instance : DecidablePred InDoubleRange := fun _ => inferInstanceAs (Decidable (_ ∧ _))

/-- **Fixed window checks do not depend on the numbers.**  In a run of any checks, those of fixed
windows that are in range return the same over any two kinds of numbers that are exact on
integers. -/
theorem log_filter_exact (hα : Exact α) (hβ : Exact β) (P : Expiry) {cs : List Call}
    (hcs : ∀ c ∈ cs, c.req.algorithm = .fixedWindow →
      Dated c.req.limit c.req.windowSeconds c.stamp) :
    ((service α P).log .empty cs).filter (fun p => InDoubleRange p.1) =
      ((service β P).log .empty cs).filter (fun p => InDoubleRange p.1) := by
  have hstep : ∀ c ∈ cs, ∀ (ks : Keyspace (BucketFields α)) (ks' : Keyspace (BucketFields β)),
      SameCounts ks ks' →
        (InDoubleRange c → ((service α P).step ks c).1 = ((service β P).step ks' c).1) ∧
        SameCounts ((service α P).step ks c).2 ((service β P).step ks' c).2 := by
    rintro ⟨⟨id, L, W, a⟩, st⟩ hc ks ks' h
    by_cases ha : a = .fixedWindow
    · subst ha
      obtain ⟨hout, hnext⟩ := h.check hα hβ (hcs _ hc rfl) P id
      exact ⟨fun hrange => hout hrange.2, hnext⟩
    · exact ⟨fun hrange => absurd hrange.1 ha, h.other P ha⟩
  exact (service α P).log_filter_of_simulation hstep fun _ _ _ => .absent

/-- **In doubles, fixed window checks are exact.**  In a run of any checks, of which those of fixed
windows are valid, at times of at most 14 digits and before the second `2 ^ 53` of Redis' clock, the
fixed window checks with a limit of at most `2 ^ 53` and a window that ends at a second of at most
`2 ^ 53` return in the doubles of Redis what they return over the rationals, whatever larger
numbers the other checks carry. -/
theorem exact_in_doubles (P : Expiry) (cs : List Call)
    (hcs : ∀ c ∈ cs, c.req.algorithm = .fixedWindow →
      Dated c.req.limit c.req.windowSeconds c.stamp) :
    ((service Double P).log .empty cs).filter (fun p => InDoubleRange p.1) =
      ((service ℚ P).log .empty cs).filter (fun p => InDoubleRange p.1) :=
  log_filter_exact exact_double exact_rat P hcs

/-- Two checks of a minute of the year 2024; between them one of a bucket, and one whose window of
`10 ^ 16` seconds is not in range. -/
theorem exact_in_doubles_minute :
    ((service Double .past).log .empty [⟨request "user:1" 1 60, .sync 1717243200000⟩,
      ⟨⟨"user:1", 3, 7, .tokenBucket⟩, .sync 1717243201000⟩,
      ⟨request "user:1" 1 (10 ^ 16), .sync 1717243201000⟩,
      ⟨request "user:1" 1 60, .sync 1717243202000⟩]).filter (fun p => InDoubleRange p.1) =
      [(⟨request "user:1" 1 60, .sync 1717243200000⟩, .ok ⟨true, 0, 1, 1717243260, 0⟩),
        (⟨request "user:1" 1 60, .sync 1717243202000⟩, .ok ⟨false, 0, 1, 1717243260, 58⟩)] := by
  rw [exact_in_doubles .past _ (by decide)]
  decide +kernel

end FixedWindow

end ShardLeak
