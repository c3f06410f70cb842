/-
# Peeks and checks

The playground shows what `peekTokens` and `peekWindow` return while nobody checks.  They compute
the refill and the window a second time: what they show at a reading is what the next check at
that reading decides by, and showing it changes nothing.

A peek repeats a part of the computation of `check`, in code of its own.  So first the two
computations are shown to be the same function of the entry, the configuration and the reading;
for the window this needs that the slot belongs to the current window or an earlier one, which
holds along every run with readings in order (`Slots`).

Since a peek changes nothing, the peeks of a session can be left out, and what is said about a
session without them holds of every session.
-/
import ShardLeak.Simulator.Refinement

namespace ShardLeak

open RateLimit

/-! ## What should hold -/

/-- The peeks at the reading `t` tell what a check at `t` returns. -/
structure PeeksPredict (sim : Simulator ℚ) (id : String) (L W t : ℤ) : Prop where
  tokens_allowed : (sim.check (checkEvent id L W .tokenBucket t)).1.allowed = true ↔
    1 ≤ sim.peekTokens id L W t
  tokens_remaining : (sim.check (checkEvent id L W .tokenBucket t)).1.remaining =
    if 1 ≤ sim.peekTokens id L W t then (⌊sim.peekTokens id L W t - 1⌋ : ℚ)
    else ⌊sim.peekTokens id L W t⌋
  window_allowed : (sim.check (checkEvent id L W .fixedWindow t)).1.allowed = true ↔
    (sim.peekWindow id L W t).count < L
  window_remaining : (sim.check (checkEvent id L W .fixedWindow t)).1.remaining =
    max 0 (L - (sim.peekWindow id L W t).count - 1)
  window_resetAt : (sim.check (checkEvent id L W .fixedWindow t)).1.resetAt - ⌊(t : ℚ) / 1000⌋ =
    (sim.peekWindow id L W t).secondsLeft
  one_le_secondsLeft : 1 ≤ (sim.peekWindow id L W t).secondsLeft
  secondsLeft_le : (sim.peekWindow id L W t).secondsLeft ≤ W

/-- A call of `peekTokens` or `peekWindow`. -/
def SimulatorCall.isPeek {α : Type} : SimulatorCall α → Bool
  | .peekTokens .. | .peekWindow .. => true
  | _ => false

variable {L W : ℤ} {id : String} {sim : Simulator ℚ}

/-! ## Tokens -/

namespace TokenBucket

/-- The refill of `check` is the one of `peekTokens`: a missing bucket is full in both. -/
lemma refill_eq_peekTokens (t : ℤ) :
    Lua.min (L : ℚ) (((sim.tb (Simulator.tbKey id (L : ℚ) W)).getD ⟨L, t⟩).tokens +
      Lua.max (Lua.num 0) ((t : ℚ) - ((sim.tb (Simulator.tbKey id (L : ℚ) W)).getD ⟨L, t⟩).lastMs) *
        ((L : ℚ) / W / Lua.num 1000)) = sim.peekTokens id L W t := by
  rw [Simulator.peekTokens]
  cases sim.tb (Simulator.tbKey id (L : ℚ) W) with
  | none => simp
  | some state => rfl

/-- A check decides by the tokens that a peek shows. -/
lemma check_eq_peekTokens (sim : Simulator ℚ) (id : String) (L W t : ℤ) :
    ((sim.check (checkEvent id L W .tokenBucket t)).1.allowed = true ↔
        1 ≤ sim.peekTokens id L W t) ∧
      (sim.check (checkEvent id L W .tokenBucket t)).1.remaining =
        if 1 ≤ sim.peekTokens id L W t then (⌊sim.peekTokens id L W t - 1⌋ : ℚ)
        else ⌊sim.peekTokens id L W t⌋ := by
  have hcheck : sim.check (checkEvent id L W .tokenBucket t) =
      sim.tokenBucket id (L : ℚ) W t := rfl
  rw [hcheck, Simulator.tokenBucket]
  simp only [refill_eq_peekTokens]
  by_cases h : 1 ≤ sim.peekTokens id L W t
  · simp [h]
  · simp [h]

end TokenBucket

/-! ## Windows -/

namespace FixedWindow

lemma peekWindow_of_slot (hW : 1 ≤ W) {f : ℤ → ℕ} {t : ℤ} {ts : List ℤ}
    (hslot : Slot W f (sim.fw (Simulator.fwKey id (L : ℚ) W)) (t :: ts)) :
    sim.peekWindow id (L : ℚ) W t =
      ⟨f (t / 1000 / W), (windowEnd W (t / 1000) - t / 1000 : ℤ)⟩ := by
  rw [Simulator.peekWindow]
  simp only [nowSecs_simulator, windowStart_simulator hW, windowStart_add hW]
  set k := t / 1000 / W
  rcases hslot with ⟨hnone, rfl⟩ | ⟨i, hsome, hzero, hle⟩
  · simp [hnone]
  · have hik : i ≤ k := hle t (by simp)
    simp only [hsome]
    rcases hik.lt_or_eq with hlt | rfl
    · have hnew : ((i * W : ℤ) : ℚ) < (k * W : ℤ) := by
        exact_mod_cast mul_lt_mul_of_pos_right hlt (by omega)
      rw [if_pos hnew, hzero k hlt]
      simp
    · rw [if_neg (lt_irrefl _), windowStart_add hW]
      simp

lemma windowEnd_sub (hW : 1 ≤ W) (now : ℤ) :
    1 ≤ windowEnd W now - now ∧ windowEnd W now - now ≤ W := by
  have hlt := lt_windowEnd hW now
  have hle : now / W * W ≤ now := Int.ediv_mul_le now (by omega)
  rw [windowEnd] at hlt ⊢
  constructor
  · omega
  · linarith

lemma remaining_result (now : ℤ) (n : ℕ) :
    (result W L now n).remaining = max 0 (L - n - 1) := by
  simp only [result]
  split <;> omega

/-- The simulator's slots hold counters of windows that have begun before the readings `ts`. -/
def Slots (sim : Simulator ℚ) (ts : List ℤ) : Prop :=
  ∀ (id : String) (L W : ℤ), 1 ≤ L → 1 ≤ W →
    ∃ f, Slot W f (sim.fw (Simulator.fwKey id (L : ℚ) W)) ts

lemma slots_new (ts : List ℤ) : Slots .new ts := fun _ _ _ _ _ => ⟨0, .inl ⟨rfl, rfl⟩⟩

lemma Slot.of_cons {f : ℤ → ℕ} {slot : Option (FWState ℚ)} {t : ℤ} {ts : List ℤ}
    (h : Slot W f slot (t :: ts)) : Slot W f slot ts := by
  rcases h with h | ⟨k, hsome, hzero, hle⟩
  · exact .inl h
  · exact .inr ⟨k, hsome, hzero, fun u hu => hle u (by simp [hu])⟩

lemma fwKey_inj {id' : String} {L' W' : ℤ}
    (h : Simulator.fwKey id (L : ℚ) W = Simulator.fwKey id' (L' : ℚ) W') :
    id = id' ∧ L = L' ∧ W = W' := by
  obtain ⟨hid, hL, hW⟩ := Simulator.key_inj h
  rw [Lua.tostring_intCast, Lua.tostring_intCast] at hL hW
  exact ⟨hid, Int.repr_injective hL, Int.repr_injective hW⟩

lemma Slots.check {e : CheckEvent} {ts : List ℤ}
    (hts : (e.nowMs :: ts).Pairwise (· ≤ ·)) (h : Slots sim (e.nowMs :: ts)) :
    Slots (sim.check e).2 ts := by
  intro id L W hL hW
  obtain ⟨f, hslot⟩ := h id L W hL hW
  by_cases ha : e.algorithm = .tokenBucket
  · have hfw : (sim.check e).2.fw = sim.fw := by
      simp [Simulator.check, Simulator.tokenBucket, ha]
    rw [hfw]
    exact ⟨f, hslot.of_cons⟩
  · have hcheck : sim.check e =
        sim.check (checkEvent e.identifier e.limit e.windowSeconds .fixedWindow e.nowMs) := by
      simp [Simulator.check, checkEvent, ha]
    rw [hcheck]
    by_cases hkey : Simulator.fwKey id (L : ℚ) W =
        Simulator.fwKey e.identifier (e.limit : ℚ) e.windowSeconds
    · obtain ⟨rfl, rfl, rfl⟩ := fwKey_inj hkey
      exact ⟨_, (check_simulator hL hW hts hslot).2⟩
    · -- the check is of another configuration
      have hsame : (sim.check (checkEvent e.identifier e.limit e.windowSeconds .fixedWindow
          e.nowMs)).2.fw (Simulator.fwKey id (L : ℚ) W) =
            sim.fw (Simulator.fwKey id (L : ℚ) W) :=
        Simulator.fixedWindow_fw_of_ne hkey (e.nowMs : ℚ)
      rw [hsame]
      exact ⟨f, hslot.of_cons⟩

/-- What holds along a run whose last reading is followed by `t`. -/
lemma slots_final {es : List CheckEvent} {t : ℤ}
    (hts : (es.map CheckEvent.nowMs ++ [t]).Pairwise (· ≤ ·)) :
    Slots ((simulator ℚ).final .new es) [t] := by
  refine ((simulator ℚ).final_of_upcoming (I := fun es sim =>
    (es.map CheckEvent.nowMs ++ [t]).Pairwise (· ≤ ·) ∧
      Slots sim (es.map CheckEvent.nowMs ++ [t])) ?_ ⟨hts, slots_new _⟩).2
  rintro e es sim ⟨hsorted, hslots⟩
  exact ⟨hsorted.of_cons, hslots.check hsorted⟩

/-- A check decides by the count that a peek shows. -/
lemma check_eq_peekWindow (hL : 1 ≤ L) (hW : 1 ≤ W) {t : ℤ} (h : Slots sim [t]) (id : String) :
    ((sim.check (checkEvent id L W .fixedWindow t)).1.allowed = true ↔
        (sim.peekWindow id L W t).count < L) ∧
      (sim.check (checkEvent id L W .fixedWindow t)).1.remaining =
        max 0 (L - (sim.peekWindow id L W t).count - 1) ∧
      (sim.check (checkEvent id L W .fixedWindow t)).1.resetAt - ⌊(t : ℚ) / 1000⌋ =
        (sim.peekWindow id L W t).secondsLeft := by
  obtain ⟨f, hslot⟩ := h id L W hL hW
  rw [(check_simulator hL hW (by simp) hslot).1, peekWindow_of_slot hW hslot]
  refine ⟨?_, ?_, ?_⟩
  · have hcast : (f (t / 1000 / W) : ℤ) < L ↔ (f (t / 1000 / W) : ℚ) < L := by
      exact_mod_cast Iff.rfl
    simpa [shown, result] using hcast
  · simp [shown, remaining_result]
  · simp [shown, result, TokenBucket.floor_secs]

lemma secondsLeft_mem (hL : 1 ≤ L) (hW : 1 ≤ W) {t : ℤ} (h : Slots sim [t]) (id : String) :
    1 ≤ (sim.peekWindow id L W t).secondsLeft ∧ (sim.peekWindow id L W t).secondsLeft ≤ W := by
  obtain ⟨f, hslot⟩ := h id L W hL hW
  obtain ⟨hlow, hhigh⟩ := windowEnd_sub hW (t / 1000)
  rw [peekWindow_of_slot hW hslot]
  dsimp only
  exact_mod_cast And.intro hlow hhigh

end FixedWindow

/-! ## Peeks in a run -/

/-- The other calls return what they return when nobody peeks. -/
lemma log_filter_peeks (sim : Simulator ℚ) (cs : List (SimulatorCall ℚ)) :
    ((playground ℚ).log sim cs).filter (fun e => ¬ e.1.isPeek) =
      (playground ℚ).log sim (cs.filter fun c => ¬ c.isPeek) := by
  have hpeek : ∀ c ∈ cs, ∀ s t : Simulator ℚ, s = t → ¬ ¬ c.isPeek = true →
      ((playground ℚ).step s c).2 = t := by
    rintro c - s _ rfl hpeek
    cases c with
    | check => simp [SimulatorCall.isPeek] at hpeek
    | peekTokens => rfl
    | peekWindow => rfl
    | reset => simp [SimulatorCall.isPeek] at hpeek
  have hother : ∀ c ∈ cs, ∀ s t : Simulator ℚ, s = t → ¬ c.isPeek = true →
      ((playground ℚ).step s c).1 = ((playground ℚ).step t c).1 ∧
        ((playground ℚ).step s c).2 = ((playground ℚ).step t c).2 := by
    rintro c - s _ rfl -
    exact ⟨rfl, rfl⟩
  exact (playground ℚ).log_filter hpeek hother rfl

/-- **Peeks predict checks.**  After any checks, the peeks at a reading that is not before the last
one tell what the checks at that reading return, and no peek changes what a later call returns. -/
theorem peeks_predict {es : List CheckEvent} {t : ℤ}
    (hts : (es.map CheckEvent.nowMs ++ [t]).Pairwise (· ≤ ·)) (hL : 1 ≤ L) (hW : 1 ≤ W)
    (id : String) (cs : List (SimulatorCall ℚ)) :
    PeeksPredict ((simulator ℚ).final .new es) id L W t ∧
      ((playground ℚ).log ((simulator ℚ).final .new es) cs).filter (fun e => ¬ e.1.isPeek) =
        (playground ℚ).log ((simulator ℚ).final .new es) (cs.filter fun c => ¬ c.isPeek) := by
  have hslots := FixedWindow.slots_final hts
  obtain ⟨hallowed, hremaining⟩ :=
    TokenBucket.check_eq_peekTokens ((simulator ℚ).final .new es) id L W t
  obtain ⟨hcount, hleft, hreset⟩ := FixedWindow.check_eq_peekWindow hL hW hslots id
  obtain ⟨hone, hmost⟩ := FixedWindow.secondsLeft_mem hL hW hslots id
  exact ⟨⟨hallowed, hremaining, hcount, hleft, hreset, hone, hmost⟩, log_filter_peeks _ cs⟩

/-- Two checks of a window and one of a bucket, seen in the next minute. -/
theorem peeks_predict_next_minute :
    PeeksPredict ((simulator ℚ).final .new [checkEvent "demo-user:1" 5 60 .fixedWindow 1000,
      checkEvent "demo-user:1" 5 60 .fixedWindow 2000,
      checkEvent "demo-user:1" 5 60 .tokenBucket 2000]) "demo-user:1" 5 60 61000 :=
  (peeks_predict (by decide) (by decide) (by decide) "demo-user:1" []).1

end ShardLeak
