/-
# What the fixed windows admit

The laws of quota counters, carried over to the runs of the fixed window check whose scripts
reach Redis before their windows end.

A check belongs to the window of its stamp, so that the checks admitted in a window are the grants
of one counter.  If all checks bring the same limit, the first ones are admitted until the limit
is reached, and what is announced as remaining is the limit less their number.

An interval that is as long as a window need not be a window.  It lies in two neighbouring ones,
so that twice the limit can pass, and no more.  All of this is stated for the positions of a run,
by looking at the prefix of the run before the check.
-/
import ShardLeak.FixedWindow.Ideal

namespace ShardLeak

namespace FixedWindow

open RateLimit Redis

variable {W : ℤ}

/-- A time in seconds that lies in the aligned window `k`. -/
def InWindow (W k now : ℤ) : Prop := k * W ≤ now ∧ now < (k + 1) * W

instance (W k now : ℤ) : Decidable (InWindow W k now) := inferInstanceAs (Decidable (_ ∧ _))

lemma inWindow_iff (hW : 1 ≤ W) {k now : ℤ} : InWindow W k now ↔ now / W = k := by
  rw [InWindow, Int.ediv_eq_iff_of_pos (by omega), add_one_mul]

/-- The number of checks that were allowed and are stamped at a time of `q`. -/
def allowedAt (q : ℤ → Prop) [DecidablePred q] (cs : List (ℤ × Stamp))
    (rs : List (Except CheckError Result)) : ℕ :=
  (cs.zip rs).countP fun p => admitted p.2 && decide (q p.1.2.nowSecs)

/-- Times that two conditions cover are counted by one of them. -/
lemma allowedAt_le_add {q q₁ q₂ : ℤ → Prop} [DecidablePred q] [DecidablePred q₁]
    [DecidablePred q₂] (h : ∀ now, q now → q₁ now ∨ q₂ now) (cs : List (ℤ × Stamp))
    (rs : List (Except CheckError Result)) :
    allowedAt q cs rs ≤ allowedAt q₁ cs rs + allowedAt q₂ cs rs := by
  simp only [allowedAt]
  induction cs.zip rs with
  | nil => simp
  | cons p l ih =>
    have hp := h p.1.2.nowSecs
    simp only [List.countP_cons, Bool.and_eq_true, decide_eq_true_eq]
    split_ifs <;> first | omega | (exfalso; tauto)

/-- The events of a run, as the counters see them. -/
def events (W : ℤ) (cs : List (ℤ × Stamp)) : List (Counter.Request ℤ) :=
  cs.map fun p => ⟨p.2.nowSecs / W, p.1⟩

lemma events_eq (W : ℤ) (cs : List (ℤ × Stamp)) :
    events W cs = (cs.map fun p => (p.1, p.2.nowSecs)).map (toCounter W) := by
  simp [events, toCounter]

/-- The checks allowed in a window are the grants of its counter. -/
lemma allowedAt_inWindow (hW : 1 ≤ W) (P : Expiry) (id : String) {cs : List (ℤ × Stamp)}
    (hcs : ∀ p ∈ cs, Timely W p) (k : ℤ) :
    allowedAt (InWindow W k) cs ((service ℚ P).outputs .empty (mixedCalls id W cs)) =
      Counter.machine.final 0 (events W cs) k := by
  rw [outputs_eq_ideal hW P id hcs, Counter.final_apply, events_eq, Counter.grantsOf, Machine.log,
    ideal_allowed, List.map_map, List.zip_map, List.countP_map, allowedAt, List.zip_map_right,
    List.countP_map, Pi.zero_apply, zero_add]
  apply List.countP_congr
  intro p _
  simp only [inWindow_iff hW]
  rfl

lemma timely_take {cs : List (ℤ × Stamp)} (hcs : ∀ p ∈ cs, Timely W p) (i : ℕ) :
    ∀ p ∈ cs.take i, Timely W p :=
  fun p hp => hcs p (List.mem_of_mem_take hp)

lemma allowedAt_take (hW : 1 ≤ W) (P : Expiry) (id : String) {cs : List (ℤ × Stamp)}
    (hcs : ∀ p ∈ cs, Timely W p) (k : ℤ) (i : ℕ) :
    allowedAt (InWindow W k) (cs.take i)
        (((service ℚ P).outputs .empty (mixedCalls id W cs)).take i) =
      Counter.machine.final 0 (events W (cs.take i)) k := by
  rw [← allowedAt_inWindow hW P id (timely_take hcs i), mixedCalls, mixedCalls, List.map_take,
    Machine.outputs_take]

lemma outputs_getElem? (hW : 1 ≤ W) (P : Expiry) (id : String) {cs : List (ℤ × Stamp)}
    (hcs : ∀ p ∈ cs, Timely W p) (i : ℕ) (hi : i < cs.length) :
    ((service ℚ P).outputs .empty (mixedCalls id W cs))[i]? =
      some (.ok (result W cs[i].1 cs[i].2.nowSecs
        (Counter.machine.final 0 (events W (cs.take i)) (cs[i].2.nowSecs / W)))) := by
  rw [outputs_eq_ideal hW P id hcs, List.getElem?_map, List.getElem?_eq_getElem (by simpa using hi),
    Machine.outputs_getElem _ _ _ _ (by simpa using hi), ideal_step, ideal_final, ← List.map_take,
    ← events_eq]
  simp

lemma events_take_succ (W : ℤ) {cs : List (ℤ × Stamp)} {i : ℕ} (hi : i < cs.length) :
    events W (cs.take (i + 1)) =
      events W (cs.take i) ++ [⟨cs[i].2.nowSecs / W, cs[i].1⟩] := by
  rw [events, events, ← List.take_append_getElem hi, List.map_append]
  rfl

/-- With one limit for all, the first checks of a window are allowed. -/
lemma allowedAt_eq_min (hW : 1 ≤ W) (P : Expiry) (id : String) {cs : List (ℤ × Stamp)}
    (hcs : ∀ p ∈ cs, Timely W p) {L : ℤ} (hL : 1 ≤ L) (hlim : ∀ p ∈ cs, p.1 = L) (k : ℤ) :
    (allowedAt (InWindow W k) cs ((service ℚ P).outputs .empty (mixedCalls id W cs)) : ℤ) =
      min ((cs.countP fun p => InWindow W k p.2.nowSecs : ℕ) : ℤ) L := by
  have hreq : ∀ r ∈ events W cs, r.key = k → r.limit = L := by
    intro r hr _
    obtain ⟨p, hp, rfl⟩ := List.mem_map.1 hr
    exact hlim p hp
  rw [allowedAt_inWindow hW P id hcs, Counter.final_eq_min k hreq (by simp; omega), events,
    List.countP_map, Pi.zero_apply, zero_add]
  simp only [Function.comp_def, inWindow_iff hW]

/-- An interval as long as a window lies in the window of its start and the one after it. -/
lemma inWindow_of_interval (hW : 1 ≤ W) {s now : ℤ} (hnow : s ≤ now ∧ now < s + W) :
    InWindow W (s / W) now ∨ InWindow W (s / W + 1) now := by
  obtain ⟨hlow, hhigh⟩ := (inWindow_iff hW).2 (rfl : s / W = s / W)
  rcases lt_or_ge now ((s / W + 1) * W) with hlt | hge
  · exact .inl ⟨hlow.trans hnow.1, hlt⟩
  · refine .inr ⟨hge, ?_⟩
    rw [add_one_mul (s / W + 1)]
    linarith [hnow.2]

/-- **The fixed window admits exactly the first checks of each window.**  In a run of checks
with one window size, each with its own limit, a check is allowed if and only if fewer checks
than its limit were allowed in its window before it, and its `remaining` is what its limit leaves
of those allowed, itself included.  With one limit for all, the first checks of a window are
allowed, whatever their order, and an interval as long as the window sees at most twice the
limit. -/
theorem admits_iff_below_limit (hW : 1 ≤ W) (P : Expiry) (id : String) (cs : List (ℤ × Stamp))
    (hcs : ∀ p ∈ cs, Timely W p) :
    let rs := (service ℚ P).outputs .empty (mixedCalls id W cs)
    (∀ (i : ℕ) (hi : i < cs.length) (k : ℤ), InWindow W k cs[i].2.nowSecs →
      ∃ r : Result, rs[i]? = some (.ok r) ∧
        (r.allowed = true ↔ (allowedAt (InWindow W k) (cs.take i) (rs.take i) : ℤ) < cs[i].1) ∧
        r.remaining = max 0
          (cs[i].1 - allowedAt (InWindow W k) (cs.take (i + 1)) (rs.take (i + 1)))) ∧
    (∀ L : ℤ, 1 ≤ L → (∀ p ∈ cs, p.1 = L) →
      (∀ k : ℤ, (allowedAt (InWindow W k) cs rs : ℤ) =
        min ((cs.countP fun p => InWindow W k p.2.nowSecs : ℕ) : ℤ) L) ∧
      ∀ s : ℤ, (allowedAt (fun now => s ≤ now ∧ now < s + W) cs rs : ℤ) ≤ 2 * L) := by
  intro rs
  have hcount : ∀ k i, allowedAt (InWindow W k) (cs.take i) (rs.take i) =
      Counter.machine.final 0 (events W (cs.take i)) k := fun k i => allowedAt_take hW P id hcs k i
  constructor
  · intro i hi k hk
    have hkey : cs[i].2.nowSecs / W = k := (inWindow_iff hW).1 hk
    refine ⟨_, outputs_getElem? hW P id hcs i hi, ?_, ?_⟩
    · simp [result, hcount, hkey]
    · rw [hcount, events_take_succ W hi, Machine.final_append, hkey, Machine.final_cons,
        Machine.final_nil, Counter.machine_step, Counter.grant_snd_apply, Counter.grant_fst]
      by_cases hlt : (Counter.machine.final 0 (events W (cs.take i)) k : ℤ) < cs[i].1
      · simp [result, hlt]
      · simp [result, hlt]
  · intro L hL hlim
    have hwindow : ∀ k : ℤ, (allowedAt (InWindow W k) cs rs : ℤ) =
        min ((cs.countP fun p => InWindow W k p.2.nowSecs : ℕ) : ℤ) L :=
      fun k => allowedAt_eq_min hW P id hcs hL hlim k
    have hle : ∀ k : ℤ, (allowedAt (InWindow W k) cs rs : ℤ) ≤ L := by
      intro k
      rw [hwindow k]
      exact min_le_right _ _
    refine ⟨hwindow, ?_⟩
    intro s
    have hcover : allowedAt (fun now => s ≤ now ∧ now < s + W) cs rs ≤
        allowedAt (InWindow W (s / W)) cs rs + allowedAt (InWindow W (s / W + 1)) cs rs :=
      allowedAt_le_add (fun now hnow => inWindow_of_interval hW hnow) cs rs
    have h1 := hle (s / W)
    have h2 := hle (s / W + 1)
    omega

/-- A check with a limit of one is refused after another one was allowed with a limit of two. -/
theorem second_of_window_refused :
    ∃ r : Result, ((service ℚ .past).outputs .empty
      (mixedCalls "user:1" 60 [(2, .sync 0), (1, .sync 1000)]))[1]? = some (.ok r) ∧
      r.allowed = false := by
  obtain ⟨r, hr, hlaw, -⟩ := (admits_iff_below_limit (W := 60) (by decide) .past "user:1"
    [(2, .sync 0), (1, .sync 1000)] (by decide)).1 1 (by decide) 0 (by decide)
  refine ⟨r, hr, Bool.eq_false_iff.2 ?_⟩
  intro hallowed
  exact absurd (hlaw.1 hallowed) (by decide +kernel)

end FixedWindow

end ShardLeak
