/-
# Keys with an expiry

The part of a Redis database that rate limiting uses: a partial map from keys to values,
each with an optional time of expiry, and the clock that says which of them are gone.

A key whose time has passed stays in the map until it is written again, but `find` does not show
it; this is how a script sees the database, whether or not Redis has already removed the key.
When a key is gone is a parameter, of which nothing is known but that no key goes before its time
(`Expiry`).  The rule of Redis is an instance, and so is a rule that never drops a key, so that
what holds of every rule does not depend on the instant at which a key goes.

The values are the two kinds that the scripts use, integers in strings and hashes with the fields
of a bucket, so that a command may find a value of the wrong type.  Properties of all entries are
kept by the operations one at a time (`All`).
-/
import Mathlib.Algebra.Order.Ring.Int
import Mathlib.Logic.Function.Basic

namespace ShardLeak

namespace Redis

/-- The value of a key: a counter, or a hash whose fields are the record `η`.  Of the strings
of Redis only decimal integers occur here, and a hash is always written and read with all of
its fields. -/
inductive Value (η : Type) where
  | string (n : ℤ)
  | hash (fields : η)
deriving DecidableEq

/-- A key's value, and the time in milliseconds at which it expires. -/
structure Entry (η : Type) where
  value : Value η
  expireAt : Option ℤ
deriving DecidableEq

/-- A database. -/
abbrev Keyspace (η : Type) : Type := String → Option (Entry η)

/-- When an expiry takes effect: `gone e t` says that a key with expiry `e` is gone at time
`t`.  No key goes before its time. -/
structure Expiry where
  gone : ℤ → ℤ → Bool
  due : ∀ {e t}, gone e t = true → e ≤ t

namespace Expiry

/-- A key is gone once the clock has passed its expiry, as in Redis. -/
def past : Expiry := ⟨fun e t => decide (e < t), fun h => le_of_lt (of_decide_eq_true h)⟩

/-- A key is gone from the very instant of its expiry on. -/
def atTime : Expiry := ⟨fun e t => decide (e ≤ t), fun h => of_decide_eq_true h⟩

/-- No key is ever gone. -/
def never : Expiry := ⟨fun _ _ => false, fun h => absurd h (by decide)⟩

lemma not_gone (P : Expiry) {e t : ℤ} (h : t < e) : P.gone e t = false := by
  by_contra hg
  exact absurd (P.due (by simpa using hg)) (not_le.2 h)

end Expiry

/-- The time of Redis, frozen while a script runs. -/
structure Clock where
  now : ℤ
  expiry : Expiry

variable {η : Type}

namespace Entry

/-- The entry is still there at the time of the clock. -/
def isLive (c : Clock) (e : Entry η) : Bool := e.expireAt.all fun t => !c.expiry.gone t c.now

@[simp] lemma isLive_none (c : Clock) (v : Value η) : isLive c ⟨v, none⟩ = true := rfl

@[simp] lemma isLive_some (c : Clock) (v : Value η) (t : ℤ) :
    isLive c ⟨v, some t⟩ = !c.expiry.gone t c.now := rfl

end Entry

namespace Keyspace

/-- The empty database. -/
def empty : Keyspace η := fun _ => none

/-- What a command finds at a key: an expired entry counts as absent. -/
def find (c : Clock) (ks : Keyspace η) (k : String) : Option (Entry η) :=
  (ks k).filter (Entry.isLive c)

/-- Write an entry. -/
def insert (ks : Keyspace η) (k : String) (e : Entry η) : Keyspace η :=
  Function.update ks k (some e)

/-- Delete a key. -/
def delete (ks : Keyspace η) (k : String) : Keyspace η := Function.update ks k none

@[simp] lemma empty_apply (k : String) : (empty : Keyspace η) k = none := rfl

@[simp] lemma insert_self (ks : Keyspace η) (k : String) (e : Entry η) :
    ks.insert k e k = some e := Function.update_self ..

lemma insert_of_ne {k k' : String} (h : k' ≠ k) (ks : Keyspace η) (e : Entry η) :
    ks.insert k e k' = ks k' := Function.update_of_ne h ..

@[simp] lemma delete_self (ks : Keyspace η) (k : String) : ks.delete k k = none :=
  Function.update_self ..

lemma delete_of_ne {k k' : String} (h : k' ≠ k) (ks : Keyspace η) :
    ks.delete k k' = ks k' := Function.update_of_ne h ..

@[simp] lemma insert_insert (ks : Keyspace η) (k : String) (e e' : Entry η) :
    (ks.insert k e).insert k e' = ks.insert k e' := Function.update_idem ..

@[simp] lemma delete_insert (ks : Keyspace η) (k : String) (e : Entry η) :
    (ks.insert k e).delete k = ks.delete k := Function.update_idem ..

lemma find_eq_none {c : Clock} {ks : Keyspace η} {k : String} (h : ks k = none) :
    ks.find c k = none := by
  simp [find, h]

lemma find_eq_some_iff {c : Clock} {ks : Keyspace η} {k : String} {e : Entry η} :
    ks.find c k = some e ↔ ks k = some e ∧ e.isLive c = true := by
  simp [find, Option.filter_eq_some_iff]

lemma find_insert_self {c : Clock} {ks : Keyspace η} {k : String} {e : Entry η}
    (h : e.isLive c = true) : (ks.insert k e).find c k = some e :=
  find_eq_some_iff.2 ⟨insert_self .., h⟩

/-- Databases with the same entry at a key show the same thing there. -/
lemma find_congr {c : Clock} {ks ks' : Keyspace η} {k : String} (h : ks k = ks' k) :
    ks.find c k = ks'.find c k := by
  rw [find, find, h]

/-! ## Predicates on all entries -/

/-- Every entry satisfies `Q`, whether or not it is due. -/
def All (Q : String → Entry η → Prop) (ks : Keyspace η) : Prop := ∀ k e, ks k = some e → Q k e

variable {Q : String → Entry η → Prop} {ks : Keyspace η} {k : String}

lemma all_empty : All Q (empty : Keyspace η) := fun _ _ h => absurd h (by simp)

lemma All.insert (h : All Q ks) {e : Entry η} (he : Q k e) : All Q (ks.insert k e) := by
  intro j d hj
  rcases eq_or_ne j k with rfl | hne
  · obtain rfl : e = d := by simpa using hj
    exact he
  · rw [insert_of_ne hne] at hj
    exact h j d hj

lemma All.delete (h : All Q ks) : All Q (ks.delete k) := by
  intro j d hj
  rcases eq_or_ne j k with rfl | hne
  · simp at hj
  · rw [delete_of_ne hne] at hj
    exact h j d hj

lemma All.of_find (h : All Q ks) {c : Clock} {e : Entry η} (hfind : ks.find c k = some e) :
    Q k e :=
  h k e (find_eq_some_iff.1 hfind).1

end Keyspace

end Redis

end ShardLeak
