/-
# One check more

Two runs of one configuration are compared, of which the second has one check more.  If that
check is rejected, the others cannot tell.  If it is allowed, it costs the others at most one
admission, up to any point of the run: from then on one of the two runs is ahead by at most the
one token, or the one unit of the count, that the check took.

The comparison is the rule on two phases of `ShardLeak/Lib/Machine.lean`.  In one phase the two
runs have admitted equally many checks, in the other the run without the inserted check is one
ahead.  For the bucket the phases are those of `Behind`, and for the counter those of `Ahead`; the
keys of Redis drop out by the comparison with the ideal machines.
-/
import Mathlib.Data.List.InsertIdx
import ShardLeak.FixedWindow.Ideal
import ShardLeak.TokenBucket.Admission

namespace ShardLeak

open RateLimit Redis

/-- The runs `rs`, and `rs'` with a check inserted at position `i`: a rejected check changes no
other result, and an allowed one lowers the number of the others that are allowed, in every
prefix, by zero or one. -/
def CostsAtMostOne (rs rs' : List (Except CheckError Result)) (i : ℕ) : Prop :=
  ∃ r : Result, rs'[i]? = some (.ok r) ∧
    (r.allowed = false → rs'.eraseIdx i = rs) ∧
    (r.allowed = true → ∀ n : ℕ,
      ((rs'.eraseIdx i).take n).countP admitted ≤ (rs.take n).countP admitted ∧
      (rs.take n).countP admitted ≤ ((rs'.eraseIdx i).take n).countP admitted + 1)

/-- It is enough to compare what follows the inserted check. -/
lemma costsAtMostOne_of_machine {σ ε : Type*} (M : Machine σ ε Result) (s : σ) (es : List ε)
    (e : ε) (fs : List ε)
    (hsame : (M.step (M.final s es) e).1.allowed = false →
      M.outputs (M.step (M.final s es) e).2 fs = M.outputs (M.final s es) fs)
    (hcost : (M.step (M.final s es) e).1.allowed = true → ∀ n : ℕ, ∃ d : Bool,
      (M.outputs (M.final s es) (fs.take n)).countP Result.allowed =
        (M.outputs (M.step (M.final s es) e).2 (fs.take n)).countP Result.allowed + d.toNat) :
    CostsAtMostOne ((M.outputs s (es ++ fs)).map Except.ok)
      ((M.outputs s (es ++ e :: fs)).map Except.ok) es.length := by
  refine ⟨(M.step (M.final s es) e).1, ?_, ?_, ?_⟩
  · rw [List.getElem?_map, M.getElem?_outputs_insert]
    rfl
  · intro hr
    rw [List.eraseIdx_map, M.eraseIdx_outputs_insert, hsame hr, M.outputs_append]
  · intro ha n
    -- what the prefix has of the checks after the inserted one
    obtain ⟨d, hd⟩ := hcost ha (n - es.length)
    rw [M.outputs_take, M.outputs_take] at hd
    have hd1 : d.toNat ≤ 1 := Bool.toNat_le d
    have hcomp : admitted ∘ (Except.ok : Result → Except CheckError Result) = Result.allowed := rfl
    rw [List.eraseIdx_map, M.eraseIdx_outputs_insert, M.outputs_append, ← List.map_take,
      ← List.map_take, List.countP_map, List.countP_map, hcomp, List.take_append, List.take_append,
      List.countP_append, List.countP_append, M.length_outputs]
    omega

variable {L W : ℤ}

/-! ## Buckets -/

namespace TokenBucket

open Bucket

/-- Buckets with the same level from a time on return the same. -/
lemma outputs_congr {s s' : Option (Level ℚ)} {t : ℤ} {us : List ℤ}
    (h : ∀ u : ℚ, t ≤ u → fill (L : ℚ) (rate L W) s u = fill (L : ℚ) (rate L W) s' u)
    (hus : (t :: us).Pairwise (· ≤ ·)) :
    (ideal L W).outputs s us = (ideal L W).outputs s' us := by
  cases us with
  | nil => rfl
  | cons u us =>
    have hfill := h u (by exact_mod_cast List.rel_of_pairwise_cons hus (by simp))
    simp only [Machine.outputs_cons, ideal_step, grant_snd, grant_fst, hfill]

lemma costsAtMostOne (hL : 1 ≤ L) (hW : 1 ≤ W) (P : Expiry) (id : String) {us vs : List ℤ} {t : ℤ}
    (hts : (us ++ t :: vs).Pairwise (· ≤ ·)) (hfits : ∀ u ∈ us ++ t :: vs, TimeFits u (W * 2)) :
    CostsAtMostOne
      ((service ℚ P).outputs .empty (calls (request id L W) ((us ++ vs).map Stamp.sync)))
      ((service ℚ P).outputs .empty (calls (request id L W) ((us ++ t :: vs).map Stamp.sync)))
      us.length := by
  have hsub : (us ++ vs).Sublist (us ++ t :: vs) :=
    List.Sublist.append_left (List.sublist_cons_self t vs) us
  rw [outputs_sync hL hW P id (hts.sublist hsub) fun u hu => hfits u (hsub.subset hu),
    outputs_sync hL hW P id hts hfits]
  have hrate := (rate_pos hL hW).le
  have hafter : (t :: vs).Pairwise (· ≤ ·) := (List.pairwise_append.1 hts).2.1
  have hbefore : (us ++ [t]).Sublist (us ++ t :: vs) := List.Sublist.append_left (by simp) us
  have hready : Ready ((ideal L W).final none us) (t : ℚ) :=
    ready_ideal_final hL hW (hts.sublist hbefore)
  apply costsAtMostOne_of_machine
  · intro hr
    rw [ideal_step, result_allowed] at hr
    exact outputs_congr (fun u hu => fill_of_refused hrate hready hu hr) hafter
  · intro ha n
    rw [ideal_step, result_allowed] at ha
    have hbehind := behind_of_grant hrate hready ha
    have hprefix : ((t : ℚ) :: (vs.take n).map Int.cast).Pairwise (· ≤ ·) :=
      pairwise_cast (hafter.sublist ((List.take_sublist n vs).cons_cons t))
    obtain ⟨d, hd⟩ := count_of_behind hbehind hprefix
    rw [ideal_allowed, ideal_allowed, List.countP_map, List.countP_map] at hd
    exact ⟨d, hd⟩

end TokenBucket

/-! ## Windows -/

namespace FixedWindow

lemma costsAtMostOne (hW : 1 ≤ W) (hL : Lua.FitsInt64 L) (P : Expiry) (id : String)
    {us vs : List ℤ} {t : ℤ}
    (hfits : ∀ u ∈ us ++ t :: vs, TimeFits 0 (windowEnd W (u / 1000))) :
    CostsAtMostOne
      ((service ℚ P).outputs .empty (calls (request id L W) ((us ++ vs).map Stamp.sync)))
      ((service ℚ P).outputs .empty (calls (request id L W) ((us ++ t :: vs).map Stamp.sync)))
      us.length := by
  have hsub : (us ++ vs).Sublist (us ++ t :: vs) :=
    List.Sublist.append_left (List.sublist_cons_self t vs) us
  rw [outputs_sync hW hL P id fun u hu => hfits u (hsub.subset hu),
    outputs_sync hW hL P id hfits, List.map_append, List.map_append, List.map_cons]
  have hcost := costsAtMostOne_of_machine (ideal W) 0 (us.map fun t => (L, t / 1000))
    (L, t / 1000) (vs.map fun t => (L, t / 1000))
  rw [List.length_map] at hcost
  set f := (ideal W).final 0 (us.map fun t => (L, t / 1000))
  apply hcost
  · intro hr
    rw [ideal_step, result_allowed] at hr
    have hstate : ((ideal W).step f (L, t / 1000)).2 = f := Counter.grant_snd_of_refused hr
    rw [hstate]
  · intro ha n
    rw [ideal_step, result_allowed] at ha
    have hahead := Counter.ahead_of_grant ha
    obtain ⟨d, hd⟩ := Counter.count_of_ahead
      (((vs.map fun t => (L, t / 1000)).take n).map (toCounter W)) hahead
    rw [ideal_allowed, ideal_allowed, List.countP_map, List.countP_map] at hd
    exact ⟨d, hd⟩

end FixedWindow

/-- Redis accepts the expiry that a check at `t` sets. -/
def ExpiryFits (W t : ℤ) : Algorithm → Prop
  | .tokenBucket => TimeFits t (W * 2)
  | .fixedWindow => TimeFits 0 (FixedWindow.windowEnd W (t / 1000))
  | .other _ => True

instance (W t : ℤ) : (a : Algorithm) → Decidable (ExpiryFits W t a)
  | .tokenBucket => inferInstanceAs (Decidable (TimeFits ..))
  | .fixedWindow => inferInstanceAs (Decidable (TimeFits ..))
  | .other _ => inferInstanceAs (Decidable True)

/-- **A check more costs the others at most one admission, and a rejected one costs nothing.** -/
theorem check_costs_at_most_one {a : Algorithm} (ha : a = .tokenBucket ∨ a = .fixedWindow)
    (hL : 1 ≤ L ∧ Lua.FitsInt64 L) (hW : 1 ≤ W) (P : Expiry) (id : String) (us vs : List ℤ) (t : ℤ)
    (hts : (us ++ t :: vs).Pairwise (· ≤ ·)) (hfits : ∀ u ∈ us ++ t :: vs, ExpiryFits W u a) :
    CostsAtMostOne
      ((service ℚ P).outputs .empty (calls ⟨id, L, W, a⟩ ((us ++ vs).map Stamp.sync)))
      ((service ℚ P).outputs .empty (calls ⟨id, L, W, a⟩ ((us ++ t :: vs).map Stamp.sync)))
      us.length := by
  rcases ha with rfl | rfl
  · exact TokenBucket.costsAtMostOne hL.1 hW P id hts hfits
  · exact FixedWindow.costsAtMostOne hW hL.2 P id hfits

/-- A check between two others, of a limit of one in a minute: it takes the place of the later
one. -/
theorem check_costs_one_of_two : CostsAtMostOne
    ((service ℚ .past).outputs .empty
      (calls ⟨"user:1", 1, 60, .tokenBucket⟩ (([0] ++ [61000]).map Stamp.sync)))
    ((service ℚ .past).outputs .empty
      (calls ⟨"user:1", 1, 60, .tokenBucket⟩ (([0] ++ 60000 :: [61000]).map Stamp.sync))) 1 :=
  check_costs_at_most_one (.inl rfl) (by decide) (by decide) .past "user:1" [0] [61000] 60000
    (by decide) (by decide)

end ShardLeak
