/-
# The simulator and the backend

A fresh simulator and the backend, read at the same times, return the same.  Both sides are
compared with the ideal machines: the backend returns what they return by the theorems on its
runs, and the simulator keeps their state, a bucket that never expires and one slot for the
counter of the last window.

The comparison is made for one configuration and the readings of one clock in order, which is how
the playground uses the class: the simulator keeps its state apart for every configuration, and
the backend is asked about one.  For the bucket the two sides compute the same numbers from the
same level, and differ only in that a key of the backend expires; but it does so when the bucket
is full again.

For the window the slot of the simulator is overwritten when the next window begins, at which the
backend turns to a new key.  Both then show the counter of the current window.
-/
import ShardLeak.Insertion
import ShardLeak.Simulator.Check

namespace ShardLeak

open RateLimit Redis

/-- A result as the simulator shows it: `null` for the waiting time of an allowed check. -/
def shown (r : Result) : CheckResult ℚ :=
  ⟨r.allowed, r.remaining, r.resetAt, if r.allowed then none else some r.retryAfter⟩

/-- The simulator's check of a configuration at a time. -/
def checkEvent (id : String) (L W : ℤ) (a : Algorithm) (t : ℤ) : CheckEvent := ⟨id, a, L, W, t⟩

variable {L W : ℤ}

/-! ## Buckets -/

namespace TokenBucket

open Bucket

/-- A bucket's level as the simulator stores it. -/
def toState (l : Level ℚ) : TBState ℚ := ⟨l.tokens, l.last⟩

lemma refill_simulator {s : Option (Level ℚ)} {t : ℤ} (hlast : ∀ l ∈ s, l.last ≤ (t : ℚ)) :
    Lua.min (L : ℚ) (((s.map toState).getD ⟨L, t⟩).tokens +
      Lua.max (Lua.num 0) ((t : ℚ) - ((s.map toState).getD ⟨L, t⟩).lastMs) * rate L W) =
      fill (L : ℚ) (rate L W) s t := by
  cases s with
  | none => simp
  | some l =>
    have h : 0 ≤ (t : ℚ) - l.last := sub_nonneg.2 (hlast l rfl)
    simp [toState, fill, h]

lemma secsToFull_simulator (hL : 1 ≤ L) (hW : 1 ≤ W) {left : ℚ} (hleft : left ≤ L) :
    (if Lua.num 0 < rate L W ∧ left < L then
      Lua.Number.ceil ((L - left) / rate L W / Lua.num 1000) else Lua.num 0) =
        (⌈(L - left) / rate L W / 1000⌉ : ℚ) := by
  rw [← secsToFull_rat hL hW hleft]
  simp only [secsToFull, and_comm]

/-- One check of a simulator that holds the ideal bucket. -/
lemma check_simulator (hL : 1 ≤ L) (hW : 1 ≤ W) {id : String} {sim : Simulator ℚ}
    {s : Option (Level ℚ)} {t : ℤ}
    (hsim : sim.tb (Simulator.tbKey id (L : ℚ) W) = s.map toState)
    (hlast : ∀ l ∈ s, l.last ≤ (t : ℚ)) :
    (sim.check (checkEvent id L W .tokenBucket t)).1 =
        shown (result L W t (fill L (rate L W) s t)) ∧
      (sim.check (checkEvent id L W .tokenBucket t)).2.tb (Simulator.tbKey id (L : ℚ) W) =
        (grant (L : ℚ) (rate L W) s t).2.map toState := by
  have hrefill := refill_simulator (L := L) (W := W) hlast
  have hx : fill (L : ℚ) (rate L W) s t ≤ L := fill_le_cap _ _
  have hcheck : sim.check (checkEvent id L W .tokenBucket t) =
      sim.tokenBucket id (L : ℚ) W t := rfl
  have hrate : (L : ℚ) / W / Lua.num 1000 = rate L W := by simp [rate]
  rw [hcheck, Simulator.tokenBucket, grant_snd, grant_fst]
  simp only [hsim, hrate, hrefill]
  set x := fill (L : ℚ) (rate L W) s t
  by_cases h1 : 1 ≤ x
  · have hfull := secsToFull_simulator hL hW (show x - 1 ≤ (L : ℚ) by linarith)
    simp only [Lua.num_rat, Int.cast_one, h1, decide_true, if_true] at hfull ⊢
    rw [hfull]
    exact ⟨by simp [h1, shown, result, floor_secs], by simp [toState]⟩
  · have hfull := secsToFull_simulator hL hW hx
    simp only [Lua.num_rat, Int.cast_one, h1, decide_false, Bool.false_eq_true, if_false]
      at hfull ⊢
    rw [hfull]
    exact ⟨by simp [h1, shown, result, floor_secs], by simp [toState]⟩

/-- The simulator holds the ideal bucket, and the stamps to come are in order. -/
def Simulates (id : String) (L W : ℤ) (es : List CheckEvent) (sim : Simulator ℚ)
    (s : Option (Level ℚ)) : Prop :=
  sim.tb (Simulator.tbKey id (L : ℚ) W) = s.map toState ∧
    ∃ ts : List ℤ, es = ts.map (checkEvent id L W .tokenBucket) ∧ ts.Pairwise (· ≤ ·) ∧
      ∀ l ∈ s, ∀ t ∈ ts, l.last ≤ (t : ℚ)

/-- The simulator returns what the ideal bucket returns. -/
lemma outputs_simulator (hL : 1 ≤ L) (hW : 1 ≤ W) (id : String) {ts : List ℤ}
    (hts : ts.Pairwise (· ≤ ·)) :
    (simulator ℚ).outputs .new (ts.map (checkEvent id L W .tokenBucket)) =
      ((ideal L W).outputs none ts).map shown := by
  suffices H : (simulator ℚ).outputs .new (ts.map (checkEvent id L W .tokenBucket)) =
      ((ideal L W).outputs none ((ts.map (checkEvent id L W .tokenBucket)).map
        CheckEvent.nowMs)).map shown by
    rw [H, List.map_map]
    exact congrArg _ (congrArg _ (List.map_id ts))
  refine (simulator ℚ).outputs_eq_of_simulation (R := Simulates id L W) ?_ ⟨rfl, ts, rfl, hts, ?_⟩
  · rintro e es sim s ⟨hsim, us, hus, hsorted, hlast⟩
    cases us with
    | nil => simp at hus
    | cons u us =>
      obtain ⟨rfl, rfl⟩ := List.cons.inj hus
      obtain ⟨hout, hafter⟩ := check_simulator hL hW hsim fun l hl => hlast l hl u (by simp)
      refine ⟨hout, hafter, us, rfl, hsorted.of_cons, ?_⟩
      intro l hl v hv
      rw [ideal_step, grant_snd, Option.mem_some_iff] at hl
      subst hl
      exact Int.cast_le.2 (List.rel_of_pairwise_cons hsorted hv)
  · rintro l ⟨⟩

end TokenBucket

/-! ## Windows -/

namespace FixedWindow

/-- The slot of the simulator holds the counter of the last window in which a check was made; no
later window has been counted. -/
def Slot (W : ℤ) (f : ℤ → ℕ) (slot : Option (FWState ℚ)) (ts : List ℤ) : Prop :=
  (slot = none ∧ f = 0) ∨ ∃ k : ℤ, slot = some ⟨f k, (k * W : ℤ)⟩ ∧ (∀ j, k < j → f j = 0) ∧
    ∀ t ∈ ts, k ≤ t / 1000 / W

lemma nowSecs_simulator (t : ℤ) :
    Lua.Number.floor ((t : ℚ) / Lua.num 1000) = ((t / 1000 : ℤ) : ℚ) := by
  simp [TokenBucket.floor_secs]

lemma windowStart_simulator (hW : 1 ≤ W) (now : ℤ) :
    Lua.Number.floor ((now : ℚ) / W) * W = ((now / W * W : ℤ) : ℚ) :=
  windowStart_rat hW now

lemma windowStart_add (hW : 1 ≤ W) (now : ℤ) :
    ((now / W * W : ℤ) : ℚ) + W = windowEnd W now := by
  rw [← windowStart_rat hW]
  exact resetAt_rat hW now

lemma shown_result_zero (hL : 1 ≤ L) (now : ℤ) :
    shown (result W L now 0) = ⟨true, L - 1, windowEnd W now, none⟩ := by
  have h0 : (0 : ℤ) < L := by omega
  have h1 : max 0 (L - 1) = L - 1 := max_eq_right (by omega)
  simp [shown, result, h0, h1]

lemma shown_result_counted {n : ℕ} (h : (n : ℤ) < L) (now : ℤ) :
    shown (result W L now n) = ⟨true, L - (n + 1), windowEnd W now, none⟩ := by
  have h1 : max 0 (L - (n + 1 : ℕ)) = L - (n + 1 : ℕ) := max_eq_right (by omega)
  simp only [shown, result, decide_eq_true h, if_pos h, h1]
  simp

lemma shown_result_refused {n : ℕ} (h : ¬ (n : ℤ) < L) (now : ℤ) :
    shown (result W L now n) = ⟨false, 0, windowEnd W now, some (windowEnd W now - now)⟩ := by
  have h1 : max 0 (L - (n : ℤ)) = 0 := max_eq_left (by omega)
  simp only [shown, result, decide_eq_false h, if_neg h, h1]
  simp

/-- A check that counts makes its window the one of the slot. -/
lemma slot_grant {f : ℤ → ℕ} {k : ℤ} {ts : List ℤ} (hcount : (f k : ℤ) < L)
    (hnone : ∀ j, k < j → f j = 0) (hlater : ∀ u ∈ ts, k ≤ u / 1000 / W) :
    Slot W (Counter.grant f ⟨k, L⟩).2 (some ⟨f k + 1, (k * W : ℤ)⟩) ts := by
  have hgrant : (Counter.grant f ⟨k, L⟩).2 = Function.update f k (f k + 1) := by
    simp [Counter.grant, hcount]
  rw [hgrant]
  refine .inr ⟨k, by simp, fun j hj => ?_, hlater⟩
  rw [Function.update_of_ne hj.ne', hnone j hj]

/-- One check of a simulator whose slot holds the last counter. -/
lemma check_simulator (hL : 1 ≤ L) (hW : 1 ≤ W) {id : String} {sim : Simulator ℚ} {f : ℤ → ℕ}
    {t : ℤ} {ts : List ℤ} (hts : (t :: ts).Pairwise (· ≤ ·))
    (hslot : Slot W f (sim.fw (Simulator.fwKey id (L : ℚ) W)) (t :: ts)) :
    (sim.check (checkEvent id L W .fixedWindow t)).1 =
        shown (result W L (t / 1000) (f (t / 1000 / W))) ∧
      Slot W (Counter.grant f ⟨t / 1000 / W, L⟩).2
        ((sim.check (checkEvent id L W .fixedWindow t)).2.fw (Simulator.fwKey id (L : ℚ) W))
        ts := by
  have hcheck : sim.check (checkEvent id L W .fixedWindow t) =
      sim.fixedWindow id (L : ℚ) W t := rfl
  have hlater : ∀ u ∈ ts, t / 1000 / W ≤ u / 1000 / W := by
    intro u hu
    have htu : t ≤ u := List.rel_of_pairwise_cons hts hu
    exact Int.ediv_le_ediv (by omega) (Int.ediv_le_ediv (by decide) htu)
  rw [hcheck, Simulator.fixedWindow]
  simp only [nowSecs_simulator, windowStart_simulator hW, windowStart_add hW]
  set k := t / 1000 / W
  -- the first check of the window opens the slot, whatever it held
  have hopen : f k = 0 → (∀ j, k < j → f j = 0) →
      (⟨true, (L : ℚ) - Lua.num 1, windowEnd W (t / 1000), none⟩ : CheckResult ℚ) =
        shown (result W L (t / 1000) (f k)) ∧
      Slot W (Counter.grant f ⟨k, L⟩).2 (some ⟨Lua.num 1, (k * W : ℤ)⟩) ts := by
    intro hzero hnone
    have hcount : (f k : ℤ) < L := by
      rw [hzero]
      exact_mod_cast hL
    have hslot := slot_grant hcount hnone hlater
    rw [hzero] at hslot ⊢
    rw [shown_result_zero hL]
    exact ⟨by simp, by simpa using hslot⟩
  rcases hslot with ⟨hnone, rfl⟩ | ⟨i, hsome, hzero, hle⟩
  · simp only [hnone, Function.update_self]
    exact hopen rfl fun _ _ => rfl
  · have hik : i ≤ k := hle t (by simp)
    simp only [hsome]
    rcases hik.lt_or_eq with hlt | rfl
    · have hnew : ((i * W : ℤ) : ℚ) < (k * W : ℤ) := by
        exact_mod_cast mul_lt_mul_of_pos_right hlt (by omega)
      simp only [if_pos hnew, Function.update_self]
      exact hopen (hzero k hlt) fun j hj => hzero j (hlt.trans hj)
    · simp only [lt_irrefl, if_false]
      by_cases hcount : (f k : ℤ) < L
      · have hcount' : (f k : ℚ) < L := by exact_mod_cast hcount
        simp only [if_pos hcount', Function.update_self]
        rw [shown_result_counted hcount]
        exact ⟨by simp, by simpa using slot_grant hcount hzero hlater⟩
      · have hcount' : ¬ (f k : ℚ) < L := by exact_mod_cast hcount
        have hgrant : (Counter.grant f ⟨k, L⟩).2 = f := by
          simp [Counter.grant, hcount]
        simp only [if_neg hcount', hsome]
        rw [shown_result_refused hcount, hgrant]
        exact ⟨by simp, .inr ⟨k, rfl, hzero, hlater⟩⟩

/-- The simulator returns what the ideal counters return. -/
lemma outputs_simulator (hL : 1 ≤ L) (hW : 1 ≤ W) (id : String) {ts : List ℤ}
    (hts : ts.Pairwise (· ≤ ·)) :
    (simulator ℚ).outputs .new (ts.map (checkEvent id L W .fixedWindow)) =
      ((ideal W).outputs 0 (ts.map fun t => (L, t / 1000))).map shown := by
  suffices H : (simulator ℚ).outputs .new (ts.map (checkEvent id L W .fixedWindow)) =
      ((ideal W).outputs 0 ((ts.map (checkEvent id L W .fixedWindow)).map
        fun e => (e.limit, e.nowMs / 1000))).map shown by
    rw [H, List.map_map]
    rfl
  refine (simulator ℚ).outputs_eq_of_simulation (R := fun es sim f =>
    ∃ us : List ℤ, es = us.map (checkEvent id L W .fixedWindow) ∧ us.Pairwise (· ≤ ·) ∧
      Slot W f (sim.fw (Simulator.fwKey id (L : ℚ) W)) us) ?_ ⟨ts, rfl, hts, .inl ⟨rfl, rfl⟩⟩
  rintro e es sim f ⟨us, hus, hsorted, hslot⟩
  cases us with
  | nil => simp at hus
  | cons u us =>
    obtain ⟨rfl, rfl⟩ := List.cons.inj hus
    obtain ⟨hout, hafter⟩ := check_simulator hL hW hsorted hslot
    exact ⟨hout, us, rfl, hsorted.of_cons, hafter⟩

end FixedWindow

/-! ## The refinement -/

lemma TokenBucket.retryAfter_of_allowed {t : ℤ} {x : ℚ}
    (h : (TokenBucket.result L W t x).allowed = true) :
    (TokenBucket.result L W t x).retryAfter = 0 := by
  simpa [TokenBucket.result] using fun hx => absurd (of_decide_eq_true h) (not_le.2 hx)

lemma FixedWindow.retryAfter_of_allowed {now : ℤ} {n : ℕ}
    (h : (FixedWindow.result W L now n).allowed = true) :
    (FixedWindow.result W L now n).retryAfter = 0 := by
  simp only [FixedWindow.result] at h ⊢
  rw [if_pos (of_decide_eq_true h)]

/-- **The simulator refines the backend.**  At the same readings, the backend returns results,
and the simulator returns what is shown of them; an allowed check has no waiting time on
either side. -/
theorem simulator_refines_backend {a : Algorithm} (ha : a = .tokenBucket ∨ a = .fixedWindow)
    (hL : 1 ≤ L ∧ Lua.FitsInt64 L) (hW : 1 ≤ W) (P : Expiry) (id : String) (ts : List ℤ)
    (hts : ts.Pairwise (· ≤ ·)) (hfits : ∀ t ∈ ts, ExpiryFits W t a) :
    ∃ rs : List Result,
      (service ℚ P).outputs .empty (calls ⟨id, L, W, a⟩ (ts.map Stamp.sync)) = rs.map Except.ok ∧
      (simulator ℚ).outputs .new (ts.map (checkEvent id L W a)) = rs.map shown ∧
      ∀ r ∈ rs, r.allowed = true → r.retryAfter = 0 := by
  rcases ha with rfl | rfl
  · refine ⟨_, TokenBucket.outputs_sync hL.1 hW P id hts hfits,
      TokenBucket.outputs_simulator hL.1 hW id hts, ?_⟩
    exact (TokenBucket.ideal L W).forall_outputs (I := fun _ => True)
      (fun _ _ _ => ⟨TokenBucket.retryAfter_of_allowed, trivial⟩) trivial _
  · refine ⟨_, FixedWindow.outputs_sync hW hL.2 P id hfits,
      FixedWindow.outputs_simulator hL.1 hW id hts, ?_⟩
    exact (FixedWindow.ideal W).forall_outputs (I := fun _ => True)
      (fun _ _ _ => ⟨FixedWindow.retryAfter_of_allowed, trivial⟩) trivial _

/-- A bucket of two tokens in a minute, read four times, the last time after the backend's key is
gone. -/
theorem simulator_refines_expired_bucket : ∃ rs : List Result,
    (service ℚ .past).outputs .empty (calls ⟨"user:1", 2, 60, .tokenBucket⟩
      ([0, 0, 0, 200000].map Stamp.sync)) = rs.map Except.ok ∧
    (simulator ℚ).outputs .new
      ([0, 0, 0, 200000].map (checkEvent "user:1" 2 60 .tokenBucket)) = rs.map shown ∧
    ∀ r ∈ rs, r.allowed = true → r.retryAfter = 0 :=
  simulator_refines_backend (.inl rfl) (by decide) (by decide) .past "user:1" [0, 0, 0, 200000]
    (by decide) (by decide)

end ShardLeak
