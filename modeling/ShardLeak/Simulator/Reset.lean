/-
# Resetting an identifier in the simulator

`reset` deletes the keys that begin with the prefix of its identifier.  These are all keys of the
identifier, but identifiers have colons in them: the keys of another identifier begin with the
same prefix if the other one goes on after a colon, or if the one that is reset goes on with a
limit.

`Caught` are the identifiers of these two kinds, and `Hits` says for which limits a key of an
identifier begins with the prefix.  Whether a key begins with the prefix is decided by the text
alone, by the lemmas on separators in `ShardLeak/Lib/Text.lean`.

If nothing is caught, the state after the reset agrees with the one before on the keys of every
other identifier, and agreement is kept by all later calls.  If something is caught, then a check
of the caught identifier before the reset, and a peek at it afterwards, show that its state is
gone.
-/
import ShardLeak.Simulator.Check

namespace ShardLeak

open Lua

variable {α : Type}

/-! ## What should hold -/

/-- The identifier of a call. -/
def SimulatorCall.identifier : SimulatorCall α → String
  | .check id .. | .peekTokens id .. | .peekWindow id .. | .reset id => id

/-- A call of `check`. -/
def SimulatorCall.IsCheck : SimulatorCall α → Prop
  | .check .. => True
  | _ => False

/-- The calls on the identifier `y` in a log, with their answers. -/
def answersOn (y : String) (l : List (SimulatorCall α × SimulatorAnswer α)) :
    List (SimulatorCall α × SimulatorAnswer α) :=
  l.filter fun e => e.1.identifier = y

variable [Number α]

/-- After some checks and `reset(x)`, the answers to later calls on `y` are those of a fresh
simulator if `y` is `x`, and those without the reset if it is not. -/
def ResetsOnly (α : Type) [Number α] (x y : String) : Prop :=
  ∀ es fs : List (SimulatorCall α), (∀ e ∈ es, e.IsCheck) →
    answersOn y ((playground α).log (((playground α).final .new es).reset x) fs) =
      answersOn y ((playground α).log
        (if y = x then .new else (playground α).final .new es) fs)

/-- The identifier `y` goes on with a colon after `x`, or `x` is `y` with a colon and a limit. -/
def Caught (α : Type) [Number α] (x y : String) : Prop :=
  (x ++ ":").toList <+: y.toList ∨ ∃ limit : α, x = y ++ ":" ++ Number.tostring limit

namespace Simulator

/-! ## Keys -/

/-- The prefix of `x` catches a key of `y` with this limit. -/
def Hits (x y : String) (limit : α) : Prop :=
  x = y ∨ (x ++ ":").toList <+: y.toList ∨ x = y ++ ":" ++ Number.tostring limit

/-- Which keys begin with a prefix, whatever the map. -/
lemma startsWith_key (tag x y : String) (limit win : α) :
    startsWith (tag ++ y ++ ":" ++ Number.tostring limit ++ ":" ++ Number.tostring win)
        (tag ++ x ++ ":") = true ↔ Hits x y limit := by
  have hcolon : ":".toList = [':'] := rfl
  have hlimit : ':' ∉ (Number.tostring limit).toList := Number.avoids_tostring limit
  have hwin : ':' ∉ (Number.tostring win).toList := Number.avoids_tostring win
  have hequal : x = y ++ ":" ++ Number.tostring limit ↔
      x.toList = y.toList ++ ':' :: (Number.tostring limit).toList := by
    rw [← String.toList_inj]
    simp [hcolon]
  rw [startsWith, List.isPrefixOf_iff_prefix, Hits, hequal, ← String.toList_inj]
  simp only [String.toList_append, hcolon, List.append_assoc, List.cons_append,
    List.nil_append, List.prefix_append_right_inj, Text.prefix_cons_iff_of_separator,
    Text.prefix_cons_iff_of_notMem hlimit hwin, exists_eq_right]
  rw [or_left_comm]

lemma startsWith_tbKey (x y : String) (limit win : α) :
    startsWith (tbKey y limit win) ("tb:" ++ x ++ ":") = true ↔ Hits x y limit :=
  startsWith_key "tb:" x y limit win

lemma startsWith_fwKey (x y : String) (limit win : α) :
    startsWith (fwKey y limit win) ("fw:" ++ x ++ ":") = true ↔ Hits x y limit :=
  startsWith_key "fw:" x y limit win

/-! ## Simulators that agree on an identifier -/

/-- The maps hold the same for every limit and window of the identifier. -/
structure AgreeOn (y : String) (sim sim' : Simulator α) : Prop where
  tb : ∀ limit win : α, sim.tb (tbKey y limit win) = sim'.tb (tbKey y limit win)
  fw : ∀ limit win : α, sim.fw (fwKey y limit win) = sim'.fw (fwKey y limit win)

section Agree

variable {y id : String} {sim sim' : Simulator α}

lemma AgreeOn.update_tb (h : AgreeOn y sim sim') (key : String) (s : Option (TBState α)) :
    AgreeOn y { sim with tb := Function.update sim.tb key s }
      { sim' with tb := Function.update sim'.tb key s } where
  tb l w := by simp only [Function.update_apply, h.tb l w]
  fw := h.fw

lemma AgreeOn.update_fw (h : AgreeOn y sim sim') (key : String) (s : Option (FWState α)) :
    AgreeOn y { sim with fw := Function.update sim.fw key s }
      { sim' with fw := Function.update sim'.fw key s } where
  tb := h.tb
  fw l w := by simp only [Function.update_apply, h.fw l w]

lemma AgreeOn.trans {sim'' : Simulator α} (h : AgreeOn y sim sim') (h' : AgreeOn y sim' sim'') :
    AgreeOn y sim sim'' where
  tb l w := (h.tb l w).trans (h'.tb l w)
  fw l w := (h.fw l w).trans (h'.fw l w)

lemma AgreeOn.symm (h : AgreeOn y sim sim') : AgreeOn y sim' sim where
  tb l w := (h.tb l w).symm
  fw l w := (h.fw l w).symm

lemma agreeOn_check (hne : id ≠ y) (sim : Simulator α) (a : RateLimit.Algorithm)
    (limit win now : α) :
    AgreeOn y ((playground α).step sim (.check id a limit win now)).2 sim := by
  dsimp only [playground]
  split
  · obtain ⟨-, s, hs, -⟩ := tokenBucket_congr now (rfl : sim.tb (tbKey id limit win) = _)
    rw [hs]
    exact ⟨fun l w => Function.update_of_ne (fun h => hne (key_inj h).1.symm) _ _, fun _ _ => rfl⟩
  · obtain ⟨-, s, hs, -⟩ := fixedWindow_congr now (rfl : sim.fw (fwKey id limit win) = _)
    rw [hs]
    exact ⟨fun _ _ => rfl, fun l w => Function.update_of_ne (fun h => hne (key_inj h).1.symm) _ _⟩

lemma AgreeOn.check (h : AgreeOn y sim sim') (a : RateLimit.Algorithm) (limit win now : α) :
    ((playground α).step sim (.check y a limit win now)).1 =
        ((playground α).step sim' (.check y a limit win now)).1 ∧
      AgreeOn y ((playground α).step sim (.check y a limit win now)).2
        ((playground α).step sim' (.check y a limit win now)).2 := by
  dsimp only [playground]
  split
  · obtain ⟨hres, s, hs, hs'⟩ := tokenBucket_congr now (h.tb limit win)
    rw [hres, hs, hs']
    exact ⟨rfl, h.update_tb _ s⟩
  · obtain ⟨hres, s, hs, hs'⟩ := fixedWindow_congr now (h.fw limit win)
    rw [hres, hs, hs']
    exact ⟨rfl, h.update_fw _ s⟩

lemma AgreeOn.step (h : AgreeOn y sim sim') (c : SimulatorCall α) :
    (c.identifier = y → ((playground α).step sim c).1 = ((playground α).step sim' c).1) ∧
      AgreeOn y ((playground α).step sim c).2 ((playground α).step sim' c).2 := by
  cases c with
  | check id a limit win now =>
    by_cases hid : id = y
    · subst hid
      obtain ⟨hres, hafter⟩ := h.check a limit win now
      exact ⟨fun _ => hres, hafter⟩
    · refine ⟨fun hy => absurd hy hid, ?_⟩
      exact ((agreeOn_check hid sim a limit win now).trans h).trans
        (agreeOn_check hid sim' a limit win now).symm
  | peekTokens id limit win now =>
    refine ⟨fun hy => ?_, h⟩
    obtain rfl : id = y := hy
    simp only [playground, peekTokens, h.tb limit win]
  | peekWindow id limit win now =>
    refine ⟨fun hy => ?_, h⟩
    obtain rfl : id = y := hy
    simp only [playground, peekWindow, h.fw limit win]
  | reset id =>
    refine ⟨fun _ => rfl, ?_, ?_⟩
    · intro l w
      simp only [playground, reset, h.tb l w]
    · intro l w
      simp only [playground, reset, h.fw l w]

end Agree

/-! ## What a reset leaves -/

lemma agreeOn_reset_self (x : String) (sim : Simulator α) : AgreeOn x (sim.reset x) .new where
  tb l w := if_pos ((startsWith_tbKey x x l w).2 (.inl rfl))
  fw l w := if_pos ((startsWith_fwKey x x l w).2 (.inl rfl))

/-- No key of an identifier that is not caught is deleted. -/
lemma agreeOn_reset {x y : String} (hne : y ≠ x) (hcaught : ¬ Caught α x y) (sim : Simulator α) :
    AgreeOn y (sim.reset x) sim := by
  have hmiss : ∀ limit : α, ¬ Hits x y limit := by
    rintro limit (rfl | hpre | rfl)
    · exact hne rfl
    · exact hcaught (.inl hpre)
    · exact hcaught (.inr ⟨limit, rfl⟩)
  exact ⟨fun l w => if_neg fun h => hmiss l ((startsWith_tbKey x y l w).1 h),
    fun l w => if_neg fun h => hmiss l ((startsWith_fwKey x y l w).1 h)⟩

/-- A caught identifier has a key that is deleted. -/
lemma exists_hits_of_caught {x y : String} (h : Caught α x y) : ∃ limit : α, Hits x y limit := by
  rcases h with hpre | ⟨limit, hx⟩
  · exact ⟨num 1, .inr (.inl hpre)⟩
  · exact ⟨limit, .inr (.inr hx)⟩

section Deleted

variable {x y : String} {limit win now : α}

/-- The first check of a window, as a peek at the same reading sees it. -/
lemma peekWindow_fixedWindow_new (hirrefl : ∀ a : α, ¬ a < a) :
    ((Simulator.new.fixedWindow y limit win now).2.peekWindow y limit win now).count = num 1 := by
  simp [fixedWindow, peekWindow, Simulator.new, hirrefl]

lemma peekWindow_reset (h : Hits x y limit) (sim : Simulator α) :
    ((sim.reset x).peekWindow y limit win now).count = num 0 := by
  simp [peekWindow, reset, (startsWith_fwKey x y limit win).2 h]

end Deleted

end Simulator

/-! ## The theorem -/

open Simulator

/-- A check before the reset and a peek after it notice that a key was deleted. -/
lemma not_resetsOnly_of_hits (hirrefl : ∀ a : α, ¬ a < a) {x y : String} (hne : y ≠ x)
    {limit : α} (h : Hits x y limit) : ¬ ResetsOnly α x y := by
  intro hresets
  have hlogs := hresets [.check y .fixedWindow limit (num 1) (num 0)]
    [.peekWindow y limit (num 1) (num 0)] (by simp [SimulatorCall.IsCheck])
  rw [if_neg hne] at hlogs
  -- both logs have one entry, the peek with its answer
  have hpeek : SimulatorAnswer.window
        (((Simulator.new.fixedWindow y limit (num 1) (num 0)).2.reset x).peekWindow y limit
          (num 1) (num 0)) =
      .window ((Simulator.new.fixedWindow y limit (num 1) (num 0)).2.peekWindow y limit
          (num 1) (num 0)) := by
    simpa [answersOn, SimulatorCall.identifier, playground] using hlogs
  have hcount := congrArg WindowPeek.count (SimulatorAnswer.window.inj hpeek)
  rw [peekWindow_reset h, peekWindow_fixedWindow_new hirrefl] at hcount
  exact absurd (Number.eq_one_of_num 0 hcount) (by decide)

/-- **What a reset affects.** -/
theorem resetsOnly_iff (hirrefl : ∀ a : α, ¬ a < a) (x y : String) :
    ResetsOnly α x y ↔ y = x ∨ ¬ Caught α x y := by
  constructor
  · intro hresets
    by_contra! hcond
    obtain ⟨hne, hcaught⟩ := hcond
    obtain ⟨limit, hhits⟩ := exists_hits_of_caught hcaught
    exact not_resetsOnly_of_hits hirrefl hne hhits hresets
  · rintro hcond es fs -
    rw [answersOn, answersOn]
    refine (playground α).log_filter_congr (R := AgreeOn y) (fun _ _ c h => h.step c) ?_ fs
    by_cases hyx : y = x
    · rw [if_pos hyx, hyx]
      exact agreeOn_reset_self x _
    · rw [if_neg hyx]
      exact agreeOn_reset hyx (hcond.resolve_left hyx) _

/-- The tenth demo user keeps its state when the first one is reset. -/
theorem resetsOnly_demo_user : ResetsOnly ℚ "demo-user:1" "demo-user:10" := by
  refine (resetsOnly_iff lt_irrefl _ _).2 (.inr ?_)
  rintro (hpre | ⟨limit, heq⟩)
  · exact absurd hpre (by decide)
  · have hlen := congrArg String.length heq
    simp only [String.length_append] at hlen
    have h1 : "demo-user:1".length = 11 := rfl
    have h2 : "demo-user:10".length = 12 := rfl
    omega

/-- A reset of `demo-user` resets `demo-user:1`. -/
theorem not_resetsOnly_demo_user : ¬ ResetsOnly ℚ "demo-user" "demo-user:1" := by
  have hhits : Hits "demo-user" "demo-user:1" (1 : ℚ) := .inr (.inl (by decide))
  exact not_resetsOnly_of_hits lt_irrefl (by decide) hhits

end ShardLeak
