/-
# Scripts and their commands

A script runs atomically on the database, at one time of the clock.  An error of a command
ends the script, and what the script wrote before the error stays.

A script is therefore a function from the clock and the database to a result or an error, together
with the database, and its sequencing keeps the writes of the part that failed.  The commands
follow the manual of Redis: `GET` and `INCR` refuse a hash, `HMGET` and `HSET` refuse a string,
`INCR` refuses to leave the range of 64 bits, and writing a hash keeps the expiry of the key while
a new key has none.

`EXPIRE` and `EXPIREAT` are one function with a base time.  Their argument may be no integer, or
too large to be added to the base in milliseconds; then they fail.  A time that is not in the
future deletes the key.  `expireEntry` is what an accepted expiry leaves, in both cases.
-/
import ShardLeak.Lua.Number
import ShardLeak.Redis.Keyspace

namespace ShardLeak

namespace Redis

/-- The errors of the commands used here. -/
inductive Error where
  | wrongType
  | notAnInteger
  | incrOverflow
  | invalidExpire (command : String)
deriving DecidableEq

/-- The text of an error. -/
def Error.text : Error → String
  | .wrongType => "WRONGTYPE Operation against a key holding the wrong kind of value"
  | .notAnInteger => "ERR value is not an integer or out of range"
  | .incrOverflow => "ERR increment or decrement would overflow"
  | .invalidExpire command => "ERR invalid expire time in '" ++ command ++ "' command"

/-- A script on databases with hashes `η`, with a result in `β`. -/
structure Script (η β : Type) where
  run : Clock → Keyspace η → Except Error β × Keyspace η

variable {η β γ : Type}

namespace Script

/-- Run `x`, and then `f` on its result unless `x` failed. -/
def bind (x : Script η β) (f : β → Script η γ) : Script η γ where
  run c ks :=
    match x.run c ks with
    | (.ok b, ks') => (f b).run c ks'
    | (.error e, ks') => (.error e, ks')

instance : Monad (Script η) where
  pure b := ⟨fun _ ks => (.ok b, ks)⟩
  bind := bind

@[simp] lemma pure_run (b : β) (c : Clock) (ks : Keyspace η) :
    (pure b : Script η β).run c ks = (.ok b, ks) := rfl

lemma bind_ok {x : Script η β} {f : β → Script η γ} {c : Clock} {ks ks' : Keyspace η} {b : β}
    (h : x.run c ks = (.ok b, ks')) : (x >>= f).run c ks = (f b).run c ks' := by
  show (bind x f).run c ks = _
  simp only [bind, h]

lemma bind_error {x : Script η β} {f : β → Script η γ} {c : Clock} {ks ks' : Keyspace η}
    {e : Error} (h : x.run c ks = (.error e, ks')) :
    (x >>= f).run c ks = (.error e, ks') := by
  show (bind x f).run c ks = _
  simp only [bind, h]

end Script

/-! ## Commands -/

/-- `GET` of a counter. -/
def get (k : String) : Script η (Option ℤ) where
  run c ks := match ks.find c k with
    | none => (.ok none, ks)
    | some ⟨.string n, _⟩ => (.ok (some n), ks)
    | some ⟨.hash _, _⟩ => (.error .wrongType, ks)

/-- `INCR`: a missing counter starts from zero, and an existing one keeps its expiry. -/
def incr (k : String) : Script η ℤ where
  run c ks := match ks.find c k with
    | none => (.ok 1, ks.insert k ⟨.string 1, none⟩)
    | some ⟨.string n, t⟩ =>
      if Lua.FitsInt64 (n + 1) then (.ok (n + 1), ks.insert k ⟨.string (n + 1), t⟩)
      else (.error .incrOverflow, ks)
    | some ⟨.hash _, _⟩ => (.error .wrongType, ks)

/-- `HMGET` of the fields of a hash. -/
def hmget (k : String) : Script η (Option η) where
  run c ks := match ks.find c k with
    | none => (.ok none, ks)
    | some ⟨.hash h, _⟩ => (.ok (some h), ks)
    | some ⟨.string _, _⟩ => (.error .wrongType, ks)

/-- `HSET` of the fields of a hash: an existing hash keeps its expiry. -/
def hset (k : String) (h : η) : Script η Unit where
  run c ks := match ks.find c k with
    | none => (.ok (), ks.insert k ⟨.hash h, none⟩)
    | some ⟨.hash _, t⟩ => (.ok (), ks.insert k ⟨.hash h, t⟩)
    | some ⟨.string _, _⟩ => (.error .wrongType, ks)

/-- The time `s` seconds after `base` fits in 64 bits of milliseconds. -/
def TimeFits (base s : ℤ) : Prop := Lua.FitsInt64 (s * 1000) ∧ Lua.FitsInt64 (base + s * 1000)

instance (base s : ℤ) : Decidable (TimeFits base s) := inferInstanceAs (Decidable (_ ∧ _))

/-- The common part of `EXPIRE` and `EXPIREAT`: the time has to fit, and one that is not in the
future deletes the key. -/
def expireGeneric (command : String) (base : ℤ) (k : String) (secs : Option ℤ) :
    Script η Unit where
  run c ks := match secs with
    | none => (.error .notAnInteger, ks)
    | some s =>
      if TimeFits base s then
        match ks.find c k with
        | none => (.ok (), ks)
        | some e =>
          if base + s * 1000 ≤ c.now then (.ok (), ks.delete k)
          else (.ok (), ks.insert k { e with expireAt := some (base + s * 1000) })
      else (.error (.invalidExpire command), ks)

/-- `EXPIRE`: seconds from now. -/
def expire (k : String) (secs : Option ℤ) : Script η Unit where
  run c := (expireGeneric "expire" c.now k secs).run c

/-- `EXPIREAT`: seconds since the epoch. -/
def expireat (k : String) (secs : Option ℤ) : Script η Unit := expireGeneric "expireat" 0 k secs

/-! ## What the commands do -/

variable {c : Clock} {ks : Keyspace η} {k : String}

lemma get_of_none (h : ks.find c k = none) : (get k).run c ks = (.ok none, ks) := by
  simp only [Redis.get, h]

lemma get_of_string {n : ℤ} {t : Option ℤ} (h : ks.find c k = some ⟨.string n, t⟩) :
    (get k).run c ks = (.ok (some n), ks) := by
  simp only [Redis.get, h]

lemma get_of_hash {v : η} {t : Option ℤ} (h : ks.find c k = some ⟨.hash v, t⟩) :
    (get k).run c ks = (.error .wrongType, ks) := by
  simp only [Redis.get, h]

lemma get_eq_ok {m : Option ℤ} (h : ((get k).run c ks).1 = .ok m) :
    (m = none ∧ ks.find c k = none) ∨ ∃ n t, m = some n ∧ ks.find c k = some ⟨.string n, t⟩ := by
  rcases hfind : ks.find c k with _ | ⟨n | v, t⟩
  · rw [get_of_none hfind] at h
    exact .inl ⟨(Except.ok.inj h).symm, rfl⟩
  · rw [get_of_string hfind] at h
    exact .inr ⟨n, t, (Except.ok.inj h).symm, rfl⟩
  · rw [get_of_hash hfind] at h
    exact absurd h (by simp)

lemma incr_of_none (h : ks.find c k = none) :
    (incr k).run c ks = (.ok 1, ks.insert k ⟨.string 1, none⟩) := by
  simp only [incr, h]

lemma incr_of_string {n : ℤ} {t : Option ℤ} (h : ks.find c k = some ⟨.string n, t⟩)
    (hfits : Lua.FitsInt64 (n + 1)) :
    (incr k).run c ks = (.ok (n + 1), ks.insert k ⟨.string (n + 1), t⟩) := by
  simp only [incr, h, if_pos hfits]

lemma incr_overflow {n : ℤ} {t : Option ℤ} (h : ks.find c k = some ⟨.string n, t⟩)
    (hfits : ¬ Lua.FitsInt64 (n + 1)) : (incr k).run c ks = (.error .incrOverflow, ks) := by
  simp only [incr, h, if_neg hfits]

/-- An expiry argument that is accepted at the base time. -/
def Accepted (base : ℤ) (secs : Option ℤ) : Prop := ∃ s ∈ secs, TimeFits base s

/-- An entry with a new expiry; it is deleted if the expiry is not in the future. -/
def Keyspace.expireEntry (c : Clock) (ks : Keyspace η) (k : String) (v : Value η) (t : ℤ) :
    Keyspace η :=
  if t ≤ c.now then ks.delete k else ks.insert k ⟨v, some t⟩

lemma Keyspace.All.expireEntry {Q : String → Entry η → Prop} (h : ks.All Q) {v : Value η} {t : ℤ}
    (he : Q k ⟨v, some t⟩) : (ks.expireEntry c k v t).All Q := by
  rw [Keyspace.expireEntry]
  split
  · exact h.delete
  · exact h.insert he

/-- If the key is still there, it holds the value. -/
lemma Keyspace.value_of_expireEntry {v : Value η} {t : ℤ} {e : Entry η}
    (h : ks.expireEntry c k v t k = some e) : e.value = v := by
  rw [Keyspace.expireEntry] at h
  split at h
  · simp at h
  · obtain rfl : ⟨v, some t⟩ = e := by simpa using h
    rfl

/-- An accepted expiry of an entry that was just written. -/
lemma expireGeneric_insert {command : String} {base s : ℤ} {e : Entry η}
    (hfits : TimeFits base s) (hlive : e.isLive c = true) :
    (expireGeneric command base k (some s)).run c (ks.insert k e) =
      (.ok (), ks.expireEntry c k e.value (base + s * 1000)) := by
  simp only [expireGeneric, if_pos hfits, Keyspace.find_insert_self hlive, Keyspace.expireEntry]
  split <;> simp

/-- A refused expiry changes nothing, and its error does not speak of the type of the key. -/
lemma expireGeneric_refused {base : ℤ} {secs : Option ℤ} (h : ¬ Accepted base secs)
    (command k : String) (c : Clock) (ks : Keyspace η) :
    ∃ e ≠ Error.wrongType, (expireGeneric command base k secs).run c ks = (.error e, ks) := by
  cases secs with
  | none => exact ⟨.notAnInteger, by simp, rfl⟩
  | some s =>
    have hfits : ¬ TimeFits base s := fun hf => h ⟨s, rfl, hf⟩
    exact ⟨.invalidExpire command, by simp, by simp only [expireGeneric, if_neg hfits]⟩

lemma hmget_snd : ((hmget k).run c ks).2 = ks := by
  simp only [hmget]
  split <;> rfl

lemma hmget_of_none (h : ks k = none) : ((hmget k).run c ks).1 = .ok none := by
  simp only [hmget, Keyspace.find_eq_none h]

lemma hmget_of_hash {v : η} {t : ℤ} (h : ks k = some ⟨.hash v, some t⟩) :
    ((hmget k).run c ks).1 = .ok (if c.expiry.gone t c.now then none else some v) := by
  cases hgone : c.expiry.gone t c.now with
  | true =>
    have hfind : ks.find c k = none := by simp [Keyspace.find, h, hgone]
    simp only [hmget, hfind, if_true]
  | false =>
    have hfind : ks.find c k = some ⟨.hash v, some t⟩ :=
      Keyspace.find_eq_some_iff.2 ⟨h, by simp [hgone]⟩
    simp only [hmget, hfind, Bool.false_eq_true, if_false]

/-- Reading a hash fails only on a string. -/
lemma hmget_eq_error {e : Error} (h : ((hmget k).run c ks).1 = .error e) :
    ∃ n t, ks.find c k = some ⟨.string n, t⟩ ∧ e = .wrongType := by
  simp only [hmget] at h
  rcases hf : ks.find c k with _ | ⟨n | v, t⟩
  · simp [hf] at h
  · exact ⟨n, t, rfl, by simpa [hf] using h.symm⟩
  · simp [hf] at h

/-- The expiry of the entry that a command finds. -/
def Keyspace.expiryOf (c : Clock) (ks : Keyspace η) (k : String) : Option ℤ :=
  (ks.find c k).bind Entry.expireAt

/-- Writing a hash where a hash or nothing was read. -/
lemma hset_of_hmget {data : Option η} (h : ((hmget k).run c ks).1 = .ok data) (v : η) :
    (hset k v).run c ks = (.ok (), ks.insert k ⟨.hash v, ks.expiryOf c k⟩) := by
  simp only [hmget] at h
  simp only [hset, Keyspace.expiryOf]
  rcases hf : ks.find c k with _ | ⟨_ | _, _⟩
  · rfl
  · simp [hf] at h
  · rfl

lemma isLive_of_find (v : Value η) :
    (⟨v, ks.expiryOf c k⟩ : Entry η).isLive c = true := by
  rw [Keyspace.expiryOf]
  rcases hf : ks.find c k with _ | e
  · rfl
  · exact (Keyspace.find_eq_some_iff.1 hf).2

end Redis

end ShardLeak
