/-
# Tables with uniqueness constraints

A table is a list of rows of which no two clash; two rows clash if they agree on the columns of
some uniqueness constraint.  The operations of SQL are kept to what preserves this: an insertion
can be refused, and an update may not touch the constrained columns.

Here a row clashes with another as a relation that the user of the file supplies, one for each
table, and the constraint is a field of the structure.  A table that breaks it cannot be built,
and the operations below have to say why the rows that they return keep it: a selection or a
deletion keeps a sublist, an update has to be of a kind that no clash can notice, and an insertion
compares the new row with all others.

New rows are added at the head, and a selection is sorted by a key of its rows, the largest first.
-/
import Mathlib.Data.List.Basic
import Mathlib.Data.List.Pairwise
import Mathlib.Data.List.Sort

namespace ShardLeak

/-- A table of rows of which no two clash. -/
structure Table (ρ : Type*) (clash : ρ → ρ → Prop) where
  rows : List ρ
  apart : rows.Pairwise fun a b => ¬ clash a b

namespace Table

variable {ρ : Type*} {clash : ρ → ρ → Prop}

@[ext] lemma ext {t t' : Table ρ clash} (h : t.rows = t'.rows) : t = t' := by
  cases t
  cases t'
  congr

/-- The table without rows. -/
def empty : Table ρ clash := ⟨[], .nil⟩

/-! ## Operations -/

/-- Insert a row that clashes with no other. -/
def insert [DecidableRel clash] (r : ρ) (t : Table ρ clash) : Option (Table ρ clash) :=
  if h : ∀ a ∈ t.rows, ¬ clash r a then some ⟨r :: t.rows, .cons h t.apart⟩ else none

/-- Delete the rows with `p`. -/
def delete (p : ρ → Bool) (t : Table ρ clash) : Table ρ clash :=
  ⟨t.rows.filter fun r => !p r, t.apart.filter _⟩

/-- Change every row, but not what it clashes with. -/
def update (f : ρ → ρ) (hf : ∀ a b, clash (f a) (f b) → clash a b) (t : Table ρ clash) :
    Table ρ clash :=
  ⟨t.rows.map f, List.pairwise_map.2 (t.apart.imp fun h hc => h (hf _ _ hc))⟩

/-- The rows with `p`, in the order of decreasing `key`. -/
def select (p : ρ → Bool) (key : ρ → ℤ) (t : Table ρ clash) : List ρ :=
  (t.rows.filter p).mergeSort fun a b => decide (key b ≤ key a)

/-! ## What they do -/

variable {t t' : Table ρ clash} {r : ρ}

@[simp] lemma update_rows (f : ρ → ρ) (hf : ∀ a b, clash (f a) (f b) → clash a b)
    (t : Table ρ clash) : (t.update f hf).rows = t.rows.map f := rfl

section Insert

variable [DecidableRel clash]

lemma insert_eq_some_iff :
    t.insert r = some t' ↔ (∀ a ∈ t.rows, ¬ clash r a) ∧ t'.rows = r :: t.rows := by
  unfold insert
  split
  · rename_i h
    simp only [Option.some.injEq]
    exact ⟨fun ht => ⟨h, ht ▸ rfl⟩, fun ht => Table.ext ht.2.symm⟩
  · rename_i h
    simp [h]

lemma insert_eq_none_iff : t.insert r = none ↔ ∃ a ∈ t.rows, clash r a := by
  unfold insert
  split
  · rename_i h
    simpa using h
  · rename_i h
    simpa using h

lemma exists_insert (h : ∀ a ∈ t.rows, ¬ clash r a) :
    ∃ t', t.insert r = some t' ∧ t'.rows = r :: t.rows :=
  ⟨⟨r :: t.rows, .cons h t.apart⟩, insert_eq_some_iff.2 ⟨h, rfl⟩, rfl⟩

end Insert

lemma eq_of_clash [Std.Symm clash] {a b : ρ} (ha : a ∈ t.rows) (hb : b ∈ t.rows)
    (h : clash a b) : a = b := by
  by_contra hne
  have hsymm : Std.Symm fun x y : ρ => ¬ clash x y :=
    ⟨fun _ _ hn hc => hn (Std.Symm.symm _ _ hc)⟩
  exact t.apart.forall ha hb hne h

/-- A search by constrained columns finds the row, if there is one. -/
lemma find?_eq_some_iff [Std.Symm clash] {p : ρ → Bool}
    (hp : ∀ a b, p a = true → p b = true → clash a b) :
    t.rows.find? p = some r ↔ r ∈ t.rows ∧ p r = true := by
  constructor
  · intro h
    exact ⟨List.mem_of_find?_eq_some h, List.find?_some h⟩
  · rintro ⟨hr, hpr⟩
    obtain ⟨a, ha⟩ := Option.isSome_iff_exists.1 (List.find?_isSome.2 ⟨r, hr, hpr⟩)
    have heq : a = r := eq_of_clash (List.mem_of_find?_eq_some ha) hr
      (hp a r (List.find?_some ha) hpr)
    rw [ha, heq]

lemma mem_select {p : ρ → Bool} {key : ρ → ℤ} : r ∈ t.select p key ↔ r ∈ t.rows ∧ p r = true := by
  rw [select, List.mem_mergeSort, List.mem_filter]

lemma pairwise_select {p : ρ → Bool} {key : ρ → ℤ} {R : ρ → ρ → Prop} [Std.Symm R]
    (h : t.rows.Pairwise R) : (t.select p key).Pairwise R :=
  ((List.mergeSort_perm _ _).pairwise_iff fun {_ _} hab => Std.Symm.symm _ _ hab).2 (h.filter p)

lemma sorted_select {p : ρ → Bool} {key : ρ → ℤ} :
    (t.select p key).Pairwise fun a b => key b ≤ key a := by
  have h : (t.select p key).Pairwise fun a b => decide (key b ≤ key a) = true :=
    List.pairwise_mergeSort
      (fun a b c hab hbc => by simp only [decide_eq_true_eq] at hab hbc ⊢; omega)
      (fun a b => by simp only [Bool.or_eq_true, decide_eq_true_eq]; omega) (t.rows.filter p)
  exact h.imp fun hab => by simpa using hab

end Table

end ShardLeak
