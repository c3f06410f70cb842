/-
# Scripts and the keys they touch

A script is local to a set of keys if it writes no other key, and what it returns and writes
depends on the entries of these keys alone.  Every command is local to its key, and locality is
kept by sequencing.

This is the frame rule of the scripts.  It makes two things out of one proof for each command:
that the entries of all other keys stay as they are, and that the reply is the same on two
databases that agree on the keys of the script.  A script that computes its key from its arguments
is local to the set with that one key.

The proofs follow the commands.  Each command first looks at its key, and then leaves the database
as it is, writes the entry, or deletes it; `local_of_find` says so once for all of them.
-/
import Mathlib.Data.Set.Basic
import ShardLeak.Redis.Script

namespace ShardLeak

namespace Redis

variable {η β γ : Type}

/-- Two databases have the same entries on a set of keys. -/
def Keyspace.AgreeOn (K : Set String) (ks ks' : Keyspace η) : Prop := ∀ k ∈ K, ks k = ks' k

/-- A script that touches only the keys of `K`. -/
structure Script.Local (K : Set String) (x : Script η β) : Prop where
  /-- No other key is written. -/
  frame : ∀ c ks, ∀ k ∉ K, (x.run c ks).2 k = ks k
  /-- Nothing else decides the result and what is written. -/
  congr : ∀ c ks ks', Keyspace.AgreeOn K ks ks' →
    (x.run c ks).1 = (x.run c ks').1 ∧ Keyspace.AgreeOn K (x.run c ks).2 (x.run c ks').2

namespace Script

variable {K : Set String}

lemma Local.mono {K' : Set String} {x : Script η β} (h : x.Local K) (hK : K ⊆ K') : x.Local K' := by
  constructor
  · intro c ks k hk
    exact h.frame c ks k fun hmem => hk (hK hmem)
  · intro c ks ks' hagree
    obtain ⟨hres, hks⟩ := h.congr c ks ks' fun k hk => hagree k (hK hk)
    refine ⟨hres, ?_⟩
    intro k hk
    by_cases hmem : k ∈ K
    · exact hks k hmem
    · -- a key that the script does not touch
      rw [h.frame c ks k hmem, h.frame c ks' k hmem]
      exact hagree k hk

lemma local_pure (b : β) : (pure b : Script η β).Local K :=
  ⟨fun _ _ _ _ => rfl, fun _ _ _ h => ⟨rfl, h⟩⟩

lemma Local.bind {x : Script η β} {f : β → Script η γ} (hx : x.Local K)
    (hf : ∀ b, (f b).Local K) : (x >>= f).Local K := by
  constructor
  · intro c ks k hk
    rcases hrun : x.run c ks with ⟨e | b, ks₁⟩
    · -- `x` failed, and `f` is not run
      rw [bind_error hrun]
      simpa [hrun] using hx.frame c ks k hk
    · rw [bind_ok hrun, (hf b).frame c ks₁ k hk]
      simpa [hrun] using hx.frame c ks k hk
  · intro c ks ks' hagree
    obtain ⟨hres, hks⟩ := hx.congr c ks ks' hagree
    rcases hrun : x.run c ks with ⟨r, ks₁⟩
    rcases hrun' : x.run c ks' with ⟨r', ks₁'⟩
    rw [hrun, hrun'] at hres hks
    obtain rfl : r = r' := hres
    cases r with
    | error e =>
      rw [bind_error hrun, bind_error hrun']
      exact ⟨rfl, hks⟩
    | ok b =>
      rw [bind_ok hrun, bind_ok hrun']
      exact (hf b).congr c ks₁ ks₁' hks

/-- A command that decides by what it finds at a key whether to leave the database as it is, to
write an entry there, or to delete it. -/
lemma local_of_find {x : Script η β} {k : String}
    (h : ∀ (c : Clock) (o : Option (Entry η)), ∃ r : Except Error β,
      (∀ ks, Keyspace.find c ks k = o → x.run c ks = (r, ks)) ∨
      (∃ e, ∀ ks, Keyspace.find c ks k = o → x.run c ks = (r, ks.insert k e)) ∨
      (∀ ks, Keyspace.find c ks k = o → x.run c ks = (r, ks.delete k))) : x.Local {k} := by
  constructor
  · intro c ks j hj
    have hne : j ≠ k := by simpa using hj
    obtain ⟨r, hleave | ⟨e, hwrite⟩ | hdelete⟩ := h c (ks.find c k)
    · rw [hleave ks rfl]
    · rw [hwrite ks rfl]
      exact Keyspace.insert_of_ne hne ..
    · rw [hdelete ks rfl]
      exact Keyspace.delete_of_ne hne ..
  · intro c ks ks' hagree
    -- both databases show the same thing at `k`, so the command decides alike
    have hfind : ks.find c k = ks'.find c k := Keyspace.find_congr (hagree k rfl)
    obtain ⟨r, hleave | ⟨e, hwrite⟩ | hdelete⟩ := h c (ks'.find c k)
    · rw [hleave ks hfind, hleave ks' rfl]
      exact ⟨rfl, hagree⟩
    · rw [hwrite ks hfind, hwrite ks' rfl]
      refine ⟨rfl, ?_⟩
      rintro j rfl
      simp
    · rw [hdelete ks hfind, hdelete ks' rfl]
      refine ⟨rfl, ?_⟩
      rintro j rfl
      simp

end Script

/-! ## Commands -/

variable (k : String)

lemma local_get : (get k : Script η _).Local {k} := by
  apply Script.local_of_find
  intro c o
  rcases o with _ | ⟨n | v, t⟩
  · exact ⟨.ok none, .inl fun ks h => get_of_none h⟩
  · exact ⟨.ok (some n), .inl fun ks h => get_of_string h⟩
  · exact ⟨.error .wrongType, .inl fun ks h => get_of_hash h⟩

lemma local_incr : (incr k : Script η _).Local {k} := by
  apply Script.local_of_find
  intro c o
  rcases o with _ | ⟨n | v, t⟩
  · exact ⟨.ok 1, .inr (.inl ⟨_, fun ks h => incr_of_none h⟩)⟩
  · by_cases hfits : Lua.FitsInt64 (n + 1)
    · exact ⟨.ok (n + 1), .inr (.inl ⟨_, fun ks h => incr_of_string h hfits⟩)⟩
    · exact ⟨.error .incrOverflow, .inl fun ks h => incr_overflow h hfits⟩
  · exact ⟨.error .wrongType, .inl fun ks h => by simp only [incr, h]⟩

lemma local_hmget : (hmget k : Script η _).Local {k} := by
  apply Script.local_of_find
  intro c o
  rcases o with _ | ⟨n | v, t⟩
  · exact ⟨.ok none, .inl fun ks h => by simp only [hmget, h]⟩
  · exact ⟨.error .wrongType, .inl fun ks h => by simp only [hmget, h]⟩
  · exact ⟨.ok (some v), .inl fun ks h => by simp only [hmget, h]⟩

lemma local_hset (v : η) : (hset k v).Local {k} := by
  apply Script.local_of_find
  intro c o
  rcases o with _ | ⟨n | w, t⟩
  · exact ⟨.ok (), .inr (.inl ⟨⟨.hash v, none⟩, fun ks h => by simp only [hset, h]⟩)⟩
  · exact ⟨.error .wrongType, .inl fun ks h => by simp only [hset, h]⟩
  · exact ⟨.ok (), .inr (.inl ⟨⟨.hash v, t⟩, fun ks h => by simp only [hset, h]⟩)⟩

/-- The base time may be the time of the script. -/
lemma local_expireGeneric (command : String) (base : Clock → ℤ) (secs : Option ℤ) :
    (⟨fun c => (expireGeneric command (base c) k secs).run c⟩ : Script η Unit).Local {k} := by
  apply Script.local_of_find
  intro c o
  rcases secs with _ | s
  · exact ⟨_, .inl fun ks _ => rfl⟩
  · by_cases hfits : TimeFits (base c) s
    · rcases o with _ | e
      · exact ⟨.ok (), .inl fun ks h => by simp only [expireGeneric, if_pos hfits, h]⟩
      · by_cases hdue : base c + s * 1000 ≤ c.now
        · refine ⟨.ok (), .inr (.inr fun ks h => ?_)⟩
          simp only [expireGeneric, if_pos hfits, h, if_pos hdue]
        · refine ⟨.ok (), .inr (.inl ⟨{ e with expireAt := some (base c + s * 1000) },
            fun ks h => ?_⟩)⟩
          simp only [expireGeneric, if_pos hfits, h, if_neg hdue]
    · exact ⟨.error (.invalidExpire command), .inl fun ks _ => by
        simp only [expireGeneric, if_neg hfits]⟩

lemma local_expire (secs : Option ℤ) : (expire k secs : Script η Unit).Local {k} :=
  local_expireGeneric k "expire" Clock.now secs

lemma local_expireat (secs : Option ℤ) : (expireat k secs : Script η Unit).Local {k} :=
  local_expireGeneric k "expireat" (fun _ => 0) secs

end Redis

end ShardLeak
