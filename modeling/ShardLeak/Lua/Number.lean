/-
# The numbers of a Lua script

A script computes with one kind of number.  Here it is a class, so that a script is written
once and read in several ways: over the rationals, where every operation is exact, or over the
numbers of an interpreter that rounds.  What is proved of every such class holds whatever the
rounding does.

The class lists what the scripts of `internal/ratelimit` use: the four operations, comparison,
`floor` and `ceil`, integers as numbers, and the conversions.  A number leaves a script in three
ways.  As a reply it becomes an integer; as an argument of a command it is printed, and Redis
reads the text back as an integer, which may fail; and `reread` is a number that was stored as
text and is read again by the next script.  Each of these may round.

The class has two laws only: a printed number holds no colon, so that it can be the last part of a
key, and no other integer is read as the number one, which is how a script knows that it opened a
counter.
-/
import Mathlib.Algebra.Order.Floor.Defs
import Mathlib.Data.Rat.Floor
import ShardLeak.Lib.Text

namespace ShardLeak

namespace Lua

/-- A number type for scripts. -/
class Number (α : Type) extends Add α, Sub α, Mul α, Div α, LT α, LE α where
  /-- The number read from the decimal notation of an integer: `tonumber` of an argument
  that the caller printed from an `int`, or of an integer reply. -/
  num : ℤ → α
  /-- `math.floor`. -/
  floor : α → α
  /-- `math.ceil`. -/
  ceil : α → α
  /-- `tostring`. -/
  tostring : α → String
  /-- `tonumber (tostring x)`: what a later script reads back of a stored number. -/
  reread : α → α
  /-- The integer that a number becomes in the reply of a script. -/
  toReply : α → ℤ
  /-- The integer that a command reads from a number given as its argument, if it is one. -/
  toArg : α → Option ℤ
  [decLt : DecidableLT α]
  [decLe : DecidableLE α]
  [decEq : DecidableEq α]
  /-- A printed number has no colon in it. -/
  avoids_tostring : ∀ x, Text.Avoids ':' (tostring x)
  /-- No other integer is read as the number one. -/
  eq_one_of_num : ∀ n, num n = num 1 → n = 1

attribute [reducible, instance] Number.decLt Number.decLe Number.decEq

export Number (num)

variable {α : Type} [Number α]

/-- `math.max` of two numbers. -/
def max (x y : α) : α := if x < y then y else x

/-- `math.min` of two numbers. -/
def min (x y : α) : α := if y < x then y else x

/-- The range of a signed 64-bit integer. -/
def FitsInt64 (n : ℤ) : Prop := -2 ^ 63 ≤ n ∧ n < 2 ^ 63

instance (n : ℤ) : Decidable (FitsInt64 n) := inferInstanceAs (Decidable (_ ∧ _))

/-- The integer a rational stands for, if it is one of 64 bits. -/
def ratToInt64? (q : ℚ) : Option ℤ := if q.den = 1 ∧ FitsInt64 q.num then some q.num else none

lemma ratToInt64?_intCast {n : ℤ} (h : FitsInt64 n) : ratToInt64? n = some n := by
  simp [ratToInt64?, h]

/-! ## Exact numbers -/

/-- The notation of an exact rational. -/
def ratToString (q : ℚ) : String :=
  if q.den = 1 then Int.repr q.num else Int.repr q.num ++ "/" ++ Nat.repr q.den

lemma avoids_ratToString (q : ℚ) : Text.Avoids ':' (ratToString q) := by
  have hnum : Text.Avoids ':' (Int.repr q.num) := Text.avoids_intRepr rfl (by decide) _
  unfold ratToString
  split
  · exact hnum
  · exact Text.avoids_append.2 ⟨Text.avoids_append.2 ⟨hnum, by decide⟩, Text.avoids_natRepr rfl _⟩

/-- Arithmetic over exact rationals. -/
instance : Number ℚ where
  num n := n
  floor q := ⌊q⌋
  ceil q := ⌈q⌉
  tostring := ratToString
  reread q := q
  toReply q := if 0 ≤ q then ⌊q⌋ else ⌈q⌉
  toArg := ratToInt64?
  avoids_tostring := avoids_ratToString
  eq_one_of_num n h := by exact_mod_cast h

@[simp] lemma num_rat (n : ℤ) : (num n : ℚ) = n := rfl

@[simp] lemma floor_rat (q : ℚ) : Number.floor q = (⌊q⌋ : ℚ) := rfl

@[simp] lemma ceil_rat (q : ℚ) : Number.ceil q = (⌈q⌉ : ℚ) := rfl

@[simp] lemma reread_rat (q : ℚ) : Number.reread q = q := rfl

@[simp] lemma tostring_intCast (n : ℤ) : Number.tostring (n : ℚ) = Int.repr n := by
  simp [Number.tostring, ratToString]

@[simp] lemma toReply_intCast (n : ℤ) : Number.toReply (n : ℚ) = n := by
  simp [Number.toReply]

@[simp] lemma toReply_zero : Number.toReply (0 : ℚ) = 0 := toReply_intCast 0

@[simp] lemma toReply_one : Number.toReply (1 : ℚ) = 1 := toReply_intCast 1

lemma toArg_intCast {n : ℤ} (h : FitsInt64 n) : Number.toArg (n : ℚ) = some n :=
  ratToInt64?_intCast h

lemma eq_of_toArg_intCast {n s : ℤ} (h : Number.toArg (n : ℚ) = some s) : s = n := by
  have hif : (if FitsInt64 n then some n else none) = some s := by
    simpa [Number.toArg, ratToInt64?] using h
  split at hif
  · exact (Option.some.inj hif).symm
  · exact absurd hif (by simp)

@[simp] lemma max_rat (x y : ℚ) : max x y = Max.max x y := by
  unfold max
  split
  · rename_i h
    exact (max_eq_right (le_of_lt h)).symm
  · rename_i h
    exact (max_eq_left (not_lt.1 h)).symm

@[simp] lemma min_rat (x y : ℚ) : min x y = Min.min x y := by
  unfold min
  split
  · rename_i h
    exact (min_eq_right (le_of_lt h)).symm
  · rename_i h
    exact (min_eq_left (not_lt.1 h)).symm

end Lua

end ShardLeak
