/-
# The fixed window check

The script of `internal/ratelimit/fixed_window.go` and the function that sends it.

The script finds the aligned window of the time that it is given, reads the counter of this
window, and increments it if the limit allows it.  Only the increment that makes the counter one
sets the expiry, to the end of the window, so a counter whose first expiry was refused never gets
another one.  The key of the counter is the key of the identifier with the printed start of the
window.

As for the bucket, the runs of the script are listed once (`WindowRun`): a wrong type, a limit
that is reached, a counter at the end of its range, an increment of an old counter, and the first
increment with an accepted or a refused expiry.
-/
import ShardLeak.RateLimit.TokenBucket

namespace ShardLeak

namespace RateLimit

open Lua Redis

variable {α : Type} [Number α]

/-- `window_start`. -/
def windowStart (windowSeconds now : α) : α :=
  Number.floor (now / windowSeconds) * windowSeconds

/-- `window_key`: the counter of the window that starts at `start`. -/
def windowKey (key : String) (start : α) : String := key ++ ":" ++ Number.tostring start

/-- `fixedWindowLua`. -/
def fixedWindowLua (key : String) (limit windowSeconds now : α) :
    Script (BucketFields α) (List ℤ) := do
  let start := windowStart windowSeconds now
  let resetAt := start + windowSeconds
  let count : α := match ← get (windowKey key start) with
    | some n => num n
    | none => num 0
  let (count, allowed, retryAfterSec) ←
    if count < limit then do
      let newCount : α := num (← incr (windowKey key start))
      if newCount = num 1 then
        expireat (windowKey key start) (Number.toArg resetAt)
      pure (newCount, num 1, num 0)
    else pure (count, num 0, Number.ceil (resetAt - now))
  let remaining := Lua.max (num 0) (limit - count)
  pure [Number.toReply (allowed : α), Number.toReply remaining, Number.toReply resetAt,
    Number.toReply (retryAfterSec : α)]

/-! ## What the script does -/

section Script

/-- The count that the script reads. -/
def readCount : Option ℤ → α
  | none => num 0
  | some n => num n

/-- The four numbers that the script returns. -/
def windowReply (limit resetAt count allowed retryAfterSec : α) : List ℤ :=
  [Number.toReply allowed, Number.toReply (Lua.max (num 0) (limit - count)),
    Number.toReply resetAt, Number.toReply retryAfterSec]

variable {c : Clock} {ks : Keyspace (BucketFields α)} {key : String} {limit windowSeconds now : α}

/-- A key of the wrong type ends the script before it writes. -/
lemma fixedWindowLua_wrongType {h : BucketFields α} {t : Option ℤ}
    (hfind : ks.find c (windowKey key (windowStart windowSeconds now)) = some ⟨.hash h, t⟩) :
    (fixedWindowLua key limit windowSeconds now).run c ks = (.error .wrongType, ks) :=
  Script.bind_error (get_of_hash hfind)

lemma fixedWindowLua_refused {n : Option ℤ}
    (hget : (get (windowKey key (windowStart windowSeconds now))).run c ks = (.ok n, ks))
    (hcount : ¬ readCount n < limit) :
    (fixedWindowLua key limit windowSeconds now).run c ks =
      (.ok (windowReply limit (windowStart windowSeconds now + windowSeconds) (readCount n)
        (num 0) (Number.ceil (windowStart windowSeconds now + windowSeconds - now))), ks) := by
  rw [fixedWindowLua, Script.bind_ok hget]
  cases n with
  | none =>
    have hcount' : ¬ (num 0 : α) < limit := hcount
    simp only [if_neg hcount']
    rfl
  | some n =>
    have hcount' : ¬ (num n : α) < limit := hcount
    simp only [if_neg hcount']
    rfl

lemma fixedWindowLua_overflow {n : ℤ} {t : Option ℤ}
    (hfind : ks.find c (windowKey key (windowStart windowSeconds now)) = some ⟨.string n, t⟩)
    (hcount : num n < limit) (hfits : ¬ FitsInt64 (n + 1)) :
    (fixedWindowLua key limit windowSeconds now).run c ks = (.error .incrOverflow, ks) := by
  rw [fixedWindowLua, Script.bind_ok (get_of_string hfind)]
  simp only [if_pos hcount]
  exact Script.bind_error (incr_overflow hfind hfits)

/-- An existing counter is incremented and keeps its expiry: its new count is not one. -/
lemma fixedWindowLua_counted {n : ℤ} {t : Option ℤ}
    (hfind : ks.find c (windowKey key (windowStart windowSeconds now)) = some ⟨.string n, t⟩)
    (hcount : num n < limit) (hfits : FitsInt64 (n + 1)) (hpos : 1 ≤ n) :
    (fixedWindowLua key limit windowSeconds now).run c ks =
      (.ok (windowReply limit (windowStart windowSeconds now + windowSeconds) (num (n + 1))
        (num 1) (num 0)),
      ks.insert (windowKey key (windowStart windowSeconds now)) ⟨.string (n + 1), t⟩) := by
  have hne : (num (n + 1) : α) ≠ num 1 := by
    intro h
    have h1 := Number.eq_one_of_num _ h
    omega
  rw [fixedWindowLua, Script.bind_ok (get_of_string hfind)]
  simp only [if_pos hcount]
  rw [Script.bind_ok (incr_of_string hfind hfits)]
  simp only [if_neg hne]
  rfl

/-- The first increment of a window, with an accepted expiry. -/
lemma fixedWindowLua_opened {s : ℤ}
    (hfind : ks.find c (windowKey key (windowStart windowSeconds now)) = none)
    (hcount : num 0 < limit)
    (harg : Number.toArg (windowStart windowSeconds now + windowSeconds) = some s)
    (hfits : TimeFits 0 s) :
    (fixedWindowLua key limit windowSeconds now).run c ks =
      (.ok (windowReply limit (windowStart windowSeconds now + windowSeconds) (num 1)
        (num 1) (num 0)),
      ks.expireEntry c (windowKey key (windowStart windowSeconds now)) (.string 1) (s * 1000)) := by
  have hexpire : (expireat (windowKey key (windowStart windowSeconds now))
      (Number.toArg (windowStart windowSeconds now + windowSeconds))).run c
        (ks.insert (windowKey key (windowStart windowSeconds now)) ⟨.string 1, none⟩) =
      (.ok (), ks.expireEntry c (windowKey key (windowStart windowSeconds now)) (.string 1)
        (s * 1000)) := by
    rw [harg, expireat, expireGeneric_insert hfits rfl, zero_add]
  rw [fixedWindowLua, Script.bind_ok (get_of_none hfind)]
  simp only [if_pos hcount]
  rw [Script.bind_ok (incr_of_none hfind)]
  simp only [if_pos]
  rw [Script.bind_ok hexpire]
  rfl

/-- The first increment of a window, with a refused expiry: the counter stays without one. -/
lemma fixedWindowLua_unbounded
    (hfind : ks.find c (windowKey key (windowStart windowSeconds now)) = none)
    (hcount : num 0 < limit)
    (hacc : ¬ Accepted 0 (Number.toArg (windowStart windowSeconds now + windowSeconds))) :
    ∃ e ≠ Redis.Error.wrongType, (fixedWindowLua key limit windowSeconds now).run c ks =
      (.error e, ks.insert (windowKey key (windowStart windowSeconds now)) ⟨.string 1, none⟩) := by
  obtain ⟨e, hne, he⟩ := expireGeneric_refused hacc "expireat"
    (windowKey key (windowStart windowSeconds now)) c
    (ks.insert (windowKey key (windowStart windowSeconds now)) ⟨.string 1, none⟩)
  refine ⟨e, hne, ?_⟩
  rw [fixedWindowLua, Script.bind_ok (get_of_none hfind)]
  simp only [if_pos hcount]
  rw [Script.bind_ok (incr_of_none hfind)]
  simp only [if_pos]
  exact Script.bind_error he

/-- The runs of the script on the counter `wk`, with what the script wrote. -/
inductive WindowRun (c : Clock) (ks : Keyspace (BucketFields α)) (wk : String) (limit resetAt : α) :
    Except Redis.Error (List ℤ) × Keyspace (BucketFields α) → Prop
  | wrongType {h : BucketFields α} {t : Option ℤ} (hfind : ks.find c wk = some ⟨.hash h, t⟩) :
      WindowRun c ks wk limit resetAt (.error .wrongType, ks)
  | overflow : WindowRun c ks wk limit resetAt (.error .incrOverflow, ks)
  | refused {n : Option ℤ} {retryAfterSec : α} (hget : (get wk).run c ks = (.ok n, ks))
      (hcount : ¬ readCount n < limit) :
      WindowRun c ks wk limit resetAt
        (.ok (windowReply limit resetAt (readCount n) (num 0) retryAfterSec), ks)
  | counted {n : ℤ} {t : Option ℤ} (hfind : ks.find c wk = some ⟨.string n, t⟩) (hpos : 1 ≤ n)
      (hcount : num n < limit) :
      WindowRun c ks wk limit resetAt
        (.ok (windowReply limit resetAt (num (n + 1)) (num 1) (num 0)),
          ks.insert wk ⟨.string (n + 1), t⟩)
  | opened {s : ℤ} (hfind : ks.find c wk = none) (hcount : num 0 < limit)
      (harg : Number.toArg resetAt = some s) (hfits : TimeFits 0 s) :
      WindowRun c ks wk limit resetAt
        (.ok (windowReply limit resetAt (num 1) (num 1) (num 0)),
          ks.expireEntry c wk (.string 1) (s * 1000))
  | unbounded {e : Redis.Error} (hne : e ≠ .wrongType) (hfind : ks.find c wk = none)
      (hcount : num 0 < limit) (hacc : ¬ Accepted 0 (Number.toArg resetAt)) :
      WindowRun c ks wk limit resetAt (.error e, ks.insert wk ⟨.string 1, none⟩)

/-- **Every run of the script is one of these**, where counters are positive. -/
theorem fixedWindowLua_run (c : Clock) (ks : Keyspace (BucketFields α)) (key : String)
    (limit windowSeconds now : α)
    (hpos : ∀ n t, ks (windowKey key (windowStart windowSeconds now)) =
      some ⟨.string n, t⟩ → 1 ≤ n) :
    WindowRun c ks (windowKey key (windowStart windowSeconds now)) limit
      (windowStart windowSeconds now + windowSeconds)
      ((fixedWindowLua key limit windowSeconds now).run c ks) := by
  rcases hfind : ks.find c (windowKey key (windowStart windowSeconds now)) with _ | ⟨n | h, t⟩
  · by_cases hcount : (num 0 : α) < limit
    · by_cases hacc : Accepted 0 (Number.toArg (windowStart windowSeconds now + windowSeconds))
      · obtain ⟨s, harg, hfits⟩ := hacc
        rw [fixedWindowLua_opened hfind hcount harg hfits]
        exact .opened hfind hcount harg hfits
      · obtain ⟨e, hne, he⟩ := fixedWindowLua_unbounded hfind hcount hacc
        rw [he]
        exact .unbounded hne hfind hcount hacc
    · rw [fixedWindowLua_refused (get_of_none hfind) hcount]
      exact .refused (get_of_none hfind) hcount
  · have hn : 1 ≤ n := hpos n t (Keyspace.find_eq_some_iff.1 hfind).1
    by_cases hcount : num n < limit
    · by_cases hfits : FitsInt64 (n + 1)
      · rw [fixedWindowLua_counted hfind hcount hfits hn]
        exact .counted hfind hn hcount
      · rw [fixedWindowLua_overflow hfind hcount hfits]
        exact .overflow
    · rw [fixedWindowLua_refused (get_of_string hfind) hcount]
      exact .refused (get_of_string hfind) hcount
  · rw [fixedWindowLua_wrongType hfind]
    exact .wrongType hfind

end Script

/-- The prefix of the keys of an identifier's counters. -/
def fwKey (identifier : String) : String := "shardleak:rate:fw:" ++ identifier

/-- `checkFixedWindow`. -/
def checkFixedWindow (P : Expiry) (req : Request) (s : Stamp) (ks : Keyspace (BucketFields α)) :
    Except CheckError Result × Keyspace (BucketFields α) :=
  match (fixedWindowLua (fwKey req.identifier) (num req.limit : α) (num req.windowSeconds)
      (num s.nowSecs)).run ⟨s.redisMs, P⟩ ks with
  | (.error e, ks') => (.error (.fixedWindowRedis e), ks')
  | (.ok vals, ks') => (parseResult vals req.limit, ks')

end RateLimit

end ShardLeak
