/-
# The browser simulator

The class `Simulator` of `frontend-demo/lib/simulator.ts`.  The numbers of JavaScript are doubles,
as those of a script are, so the same class stands for them.  The simulated latency of a result
is left out.

Each of the two maps of the class is a function to an option, and the keys are the strings that
the class builds, with the limit and the window in them.  So the simulator has a bucket for each
configuration where the backend has one for each identifier.  A bucket never expires, and of the
windows of a configuration only the last one is kept.

The methods are those of the source: `check`, the two peeks, and `reset`, which compares prefixes
of keys.  The calls of the playground are the events of a machine, so that a session of a user is
a run.
-/
import ShardLeak.Lib.Machine
import ShardLeak.Lua.Number
import ShardLeak.RateLimit.Types

namespace ShardLeak

open Lua

/-- `TBState`. -/
structure TBState (α : Type) where
  tokens : α
  lastMs : α

/-- `FWState`. -/
structure FWState (α : Type) where
  count : α
  windowStart : α

/-- The two maps of a `Simulator`. -/
structure Simulator (α : Type) where
  tb : String → Option (TBState α)
  fw : String → Option (FWState α)

/-- `CheckResult`, with `resetAt` in Unix seconds. -/
structure CheckResult (α : Type) where
  allowed : Bool
  remaining : α
  resetAt : α
  retryAfter : Option α

/-- What `peekWindow` returns. -/
structure WindowPeek (α : Type) where
  count : α
  secondsLeft : α

/-- The argument of `check`, and the reading of `Date.now()`. -/
structure CheckEvent where
  identifier : String
  algorithm : RateLimit.Algorithm
  limit : ℤ
  windowSeconds : ℤ
  nowMs : ℤ

namespace Simulator

variable {α : Type}

/-- A fresh simulator. -/
def new : Simulator α := ⟨fun _ => none, fun _ => none⟩

variable [Number α]

/-- `tbKey`. -/
def tbKey (id : String) (limit win : α) : String :=
  "tb:" ++ id ++ ":" ++ Number.tostring limit ++ ":" ++ Number.tostring win

/-- `fwKey`. -/
def fwKey (id : String) (limit win : α) : String :=
  "fw:" ++ id ++ ":" ++ Number.tostring limit ++ ":" ++ Number.tostring win

/-- `tokenBucket`. -/
def tokenBucket (sim : Simulator α) (identifier : String) (limit windowSeconds nowMs : α) :
    CheckResult α × Simulator α :=
  let key := tbKey identifier limit windowSeconds
  let ratePerMs := limit / windowSeconds / num 1000
  let state := (sim.tb key).getD ⟨limit, nowMs⟩
  let elapsed := Lua.max (num 0) (nowMs - state.lastMs)
  let tokens := Lua.min limit (state.tokens + elapsed * ratePerMs)
  let allowed := decide (num 1 ≤ tokens)
  let newTokens := if allowed then tokens - num 1 else tokens
  let secsToFull :=
    if num 0 < ratePerMs ∧ newTokens < limit then
      Number.ceil ((limit - newTokens) / ratePerMs / num 1000)
    else num 0
  (⟨allowed, Number.floor newTokens, Number.floor (nowMs / num 1000) + secsToFull,
      if allowed then none else some (Number.ceil ((num 1 - newTokens) / ratePerMs / num 1000))⟩,
    { sim with tb := Function.update sim.tb key (some ⟨newTokens, nowMs⟩) })

/-- `fixedWindow`. -/
def fixedWindow (sim : Simulator α) (identifier : String) (limit windowSeconds nowMs : α) :
    CheckResult α × Simulator α :=
  let nowSecs := Number.floor (nowMs / num 1000)
  let windowStart := Number.floor (nowSecs / windowSeconds) * windowSeconds
  let resetAt := windowStart + windowSeconds
  let key := fwKey identifier limit windowSeconds
  let opened : CheckResult α × Simulator α :=
    (⟨true, limit - num 1, resetAt, none⟩,
      { sim with fw := Function.update sim.fw key (some ⟨num 1, windowStart⟩) })
  match sim.fw key with
  | none => opened
  | some state =>
    if state.windowStart < windowStart then opened
    else if state.count < limit then
      let state := { state with count := state.count + num 1 }
      (⟨true, limit - state.count, resetAt, none⟩,
        { sim with fw := Function.update sim.fw key (some state) })
    else (⟨false, num 0, resetAt, some (resetAt - nowSecs)⟩, sim)

/-- `check`. -/
def check (sim : Simulator α) (e : CheckEvent) : CheckResult α × Simulator α :=
  if e.algorithm = .tokenBucket then
    sim.tokenBucket e.identifier (num e.limit) (num e.windowSeconds) (num e.nowMs)
  else sim.fixedWindow e.identifier (num e.limit) (num e.windowSeconds) (num e.nowMs)

/-- `peekTokens`. -/
def peekTokens (sim : Simulator α) (identifier : String) (limit windowSeconds nowMs : α) : α :=
  match sim.tb (tbKey identifier limit windowSeconds) with
  | none => limit
  | some state =>
    let ratePerMs := limit / windowSeconds / num 1000
    let elapsed := Lua.max (num 0) (nowMs - state.lastMs)
    Lua.min limit (state.tokens + elapsed * ratePerMs)

/-- `peekWindow`. -/
def peekWindow (sim : Simulator α) (identifier : String) (limit windowSeconds nowMs : α) :
    WindowPeek α :=
  let nowSecs := Number.floor (nowMs / num 1000)
  let windowStart := Number.floor (nowSecs / windowSeconds) * windowSeconds
  let stale : WindowPeek α := ⟨num 0, windowStart + windowSeconds - nowSecs⟩
  match sim.fw (fwKey identifier limit windowSeconds) with
  | none => stale
  | some state =>
    if state.windowStart < windowStart then stale
    else ⟨state.count, state.windowStart + windowSeconds - nowSecs⟩

/-- `key.startsWith(prefix)`. -/
def startsWith (key pre : String) : Bool := pre.toList.isPrefixOf key.toList

omit [Number α] in
/-- `reset`. -/
def reset (sim : Simulator α) (identifier : String) : Simulator α where
  tb k := if startsWith k ("tb:" ++ identifier ++ ":") then none else sim.tb k
  fw k := if startsWith k ("fw:" ++ identifier ++ ":") then none else sim.fw k

/-! ### What a check reads and writes -/

lemma key_inj {tag id id' : String} {l w l' w' : α}
    (h : tag ++ id ++ ":" ++ Number.tostring l ++ ":" ++ Number.tostring w =
      tag ++ id' ++ ":" ++ Number.tostring l' ++ ":" ++ Number.tostring w') :
    id = id' ∧ Number.tostring l = Number.tostring l' ∧ Number.tostring w = Number.tostring w' := by
  obtain ⟨h₁, hw⟩ := Text.join_inj rfl (Number.avoids_tostring w) (Number.avoids_tostring w') h
  obtain ⟨h₂, hl⟩ := Text.join_inj rfl (Number.avoids_tostring l) (Number.avoids_tostring l') h₁
  exact ⟨(Text.append_inj_of_length rfl h₂).2, hl, hw⟩

section Check

variable {id : String} {limit win : α} {sim sim' : Simulator α}

lemma tokenBucket_congr (now : α)
    (h : sim.tb (tbKey id limit win) = sim'.tb (tbKey id limit win)) :
    (sim.tokenBucket id limit win now).1 = (sim'.tokenBucket id limit win now).1 ∧
      ∃ s, (sim.tokenBucket id limit win now).2 =
          { sim with tb := Function.update sim.tb (tbKey id limit win) s } ∧
        (sim'.tokenBucket id limit win now).2 =
          { sim' with tb := Function.update sim'.tb (tbKey id limit win) s } := by
  dsimp only [tokenBucket]
  rw [h]
  exact ⟨rfl, _, rfl, rfl⟩

lemma fixedWindow_congr (now : α)
    (h : sim.fw (fwKey id limit win) = sim'.fw (fwKey id limit win)) :
    (sim.fixedWindow id limit win now).1 = (sim'.fixedWindow id limit win now).1 ∧
      ∃ s, (sim.fixedWindow id limit win now).2 =
          { sim with fw := Function.update sim.fw (fwKey id limit win) s } ∧
        (sim'.fixedWindow id limit win now).2 =
          { sim' with fw := Function.update sim'.fw (fwKey id limit win) s } := by
  simp only [fixedWindow, h]
  cases hs : sim'.fw (fwKey id limit win) with
  | none => exact ⟨rfl, _, rfl, rfl⟩
  | some state =>
    dsimp only
    split_ifs
    · exact ⟨rfl, _, rfl, rfl⟩
    · exact ⟨rfl, _, rfl, rfl⟩
    · -- a refused check writes nothing, which is what the entry was
      refine ⟨rfl, some state, ?_, ?_⟩
      · rw [← hs, ← h, Function.update_eq_self]
      · rw [← hs, Function.update_eq_self]

lemma fixedWindow_fw_of_ne {key : String} (hne : key ≠ fwKey id limit win) (now : α) :
    (sim.fixedWindow id limit win now).2.fw key = sim.fw key := by
  obtain ⟨-, s, hs, -⟩ := fixedWindow_congr now (rfl : sim.fw (fwKey id limit win) = _)
  rw [hs]
  exact Function.update_of_ne hne _ _

end Check

end Simulator

/-- The simulator as a machine. -/
def simulator (α : Type) [Number α] : Machine (Simulator α) CheckEvent (CheckResult α) :=
  ⟨Simulator.check⟩

/-- A call of a method, for any numbers, with the reading of `Date.now()`. -/
inductive SimulatorCall (α : Type) where
  | check (identifier : String) (algorithm : RateLimit.Algorithm) (limit windowSeconds nowMs : α)
  | peekTokens (identifier : String) (limit windowSeconds nowMs : α)
  | peekWindow (identifier : String) (limit windowSeconds nowMs : α)
  | reset (identifier : String)

/-- What a call returns. -/
inductive SimulatorAnswer (α : Type) where
  | result (r : CheckResult α)
  | tokens (n : α)
  | window (w : WindowPeek α)
  | done

/-- The methods as a machine. -/
def playground (α : Type) [Number α] :
    Machine (Simulator α) (SimulatorCall α) (SimulatorAnswer α) where
  step sim
    | .check id a limit win now =>
      let out := if a = .tokenBucket then sim.tokenBucket id limit win now
        else sim.fixedWindow id limit win now
      (.result out.1, out.2)
    | .peekTokens id limit win now => (.tokens (sim.peekTokens id limit win now), sim)
    | .peekWindow id limit win now => (.window (sim.peekWindow id limit win now), sim)
    | .reset id => (.done, sim.reset id)

@[simp] lemma simulator_step {α : Type} [Number α] (sim : Simulator α) (e : CheckEvent) :
    (simulator α).step sim e = sim.check e := rfl

end ShardLeak
