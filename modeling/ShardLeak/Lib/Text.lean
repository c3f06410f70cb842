/-
# Printed numbers and separators

What is needed of the decimal notation and of strings joined with a separator: a printed
number holds no character but digits and a sign, and a string can be split in only one way
at its last separator.

The keys of a store are often joined in this way, and two of them are to be equal only if their
parts are.  The last part must not contain the separator, the parts before it may.  This is enough
where a key ends in a number.

The second fact is on prefixes: when does a joined string begin with a given string that ends in
the separator itself?  Either the parts up to there agree, or the prefix ends within the first
part, or it goes on after it.  The cases are told apart by walking along the two strings.
-/
import Mathlib.Data.Int.Notation
import Mathlib.Data.List.Basic
import Std.Data.String.ToInt

namespace ShardLeak

namespace Text

/-- A string without the character `c`. -/
def Avoids (c : Char) (s : String) : Prop := c ∉ s.toList

instance (c : Char) (s : String) : Decidable (Avoids c s) :=
  inferInstanceAs (Decidable (c ∉ s.toList))

lemma avoids_append {c : Char} {s t : String} :
    Avoids c (s ++ t) ↔ Avoids c s ∧ Avoids c t := by
  simp [Avoids, not_or]

lemma avoids_natRepr {c : Char} (hc : c.isDigit = false) (n : ℕ) : Avoids c (Nat.repr n) := by
  intro hmem
  rw [Nat.toList_repr] at hmem
  have := Nat.isDigit_of_mem_toDigits (by decide) (by decide) hmem
  rw [hc] at this
  exact absurd this (by decide)

lemma avoids_intRepr {c : Char} (hc : c.isDigit = false) (hm : c ≠ '-') (z : ℤ) :
    Avoids c (Int.repr z) := by
  cases z with
  | ofNat n => exact avoids_natRepr hc n
  | negSucc n =>
    refine avoids_append.2 ⟨?_, avoids_natRepr hc _⟩
    simpa [Avoids] using hm

/-- Two lists that end in a separator and a part free of separators are equal only if their
parts are. -/
lemma append_cons_inj_of_notMem_right {α : Type*} {c : α} {a a' d d' : List α} (hd : c ∉ d)
    (hd' : c ∉ d') (h : a ++ c :: d = a' ++ c :: d') : a = a' ∧ d = d' := by
  rcases List.append_eq_append_iff.1 h with ⟨m, ha, hm⟩ | ⟨m, ha, hm⟩
  · cases m with
    | nil => exact ⟨by simpa using ha.symm, by simpa using hm⟩
    | cons e m =>
      -- the second separator would stand in `d`
      obtain ⟨-, rfl⟩ := List.cons.inj hm
      exact absurd (by simp) hd
  · cases m with
    | nil => exact ⟨by simpa using ha, by simpa using hm.symm⟩
    | cons e m =>
      obtain ⟨-, rfl⟩ := List.cons.inj hm
      exact absurd (by simp) hd'

/-- What begins with a part that ends in a separator: up to there, or up to the part's own
separator, or farther. -/
lemma prefix_cons_iff_of_separator {α : Type*} {c : α} {x y r : List α} :
    x ++ [c] <+: y ++ c :: r ↔
      x ++ [c] <+: y ∨ x = y ∨ ∃ z, x = y ++ c :: z ∧ z ++ [c] <+: r := by
  constructor
  · rintro ⟨s, hs⟩
    rw [List.append_assoc, List.singleton_append] at hs
    rcases List.append_eq_append_iff.1 hs with ⟨m, hy, hm⟩ | ⟨m, hx, hm⟩
    · cases m with
      | nil => exact .inr (.inl (by simpa using hy.symm))
      | cons e m =>
        obtain ⟨rfl, -⟩ := List.cons.inj hm
        exact .inl ⟨m, by simp [hy]⟩
    · cases m with
      | nil => exact .inr (.inl (by simpa using hx))
      | cons e m =>
        obtain ⟨rfl, hr⟩ := List.cons.inj hm
        exact .inr (.inr ⟨m, hx, s, by simp [hr]⟩)
  · rintro (⟨s, rfl⟩ | rfl | ⟨z, rfl, s, rfl⟩)
    · exact ⟨s ++ c :: r, by simp⟩
    · exact ⟨r, by simp⟩
    · exact ⟨s, by simp⟩

/-- A part without the separator is passed over as a whole, or not at all. -/
lemma prefix_cons_iff_of_notMem {α : Type*} {c : α} {z l w : List α} (hl : c ∉ l) (hw : c ∉ w) :
    z ++ [c] <+: l ++ c :: w ↔ z = l := by
  rw [prefix_cons_iff_of_separator]
  constructor
  · rintro (hpre | rfl | ⟨v, -, hpre⟩)
    · exact absurd (hpre.subset (by simp)) hl
    · rfl
    · exact absurd (hpre.subset (by simp)) hw
  · exact fun h => .inr (.inl h)

lemma append_append_append (a b c d : String) : a ++ b ++ c ++ d = a ++ (b ++ c ++ d) := by
  simp only [String.append_assoc]

lemma append_inj_of_length {s t a b : String} (hlen : s.length = t.length)
    (h : s ++ a = t ++ b) : s = t ∧ a = b := by
  have hl : s.toList ++ a.toList = t.toList ++ b.toList := by
    rw [← String.toList_append, ← String.toList_append, h]
  obtain ⟨h1, h2⟩ := List.append_inj hl (by rwa [String.length_toList, String.length_toList])
  exact ⟨String.toList_inj.1 h1, String.toList_inj.1 h2⟩

/-- A string can be split in only one way at its last separator. -/
theorem join_inj {c : Char} {sep a a' d d' : String} (hsep : sep.toList = [c]) (hd : Avoids c d)
    (hd' : Avoids c d') (h : a ++ sep ++ d = a' ++ sep ++ d') : a = a' ∧ d = d' := by
  have hl := congrArg String.toList h
  simp only [String.toList_append, List.append_assoc, hsep] at hl
  obtain ⟨h1, h2⟩ := append_cons_inj_of_notMem_right hd hd' hl
  exact ⟨String.toList_inj.1 h1, String.toList_inj.1 h2⟩

end Text

end ShardLeak
