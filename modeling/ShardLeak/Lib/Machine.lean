/-
# Deterministic machines with output

A machine reads a list of events; at every event it emits an output and moves to a new
state.  This file fixes the notation for its runs and proves, once, the inductions over
runs that everything else uses: invariants, simulation of one machine by another, the
comparison of two runs of one machine, and the projection of a run to the events that an
observer can see.

The first part is on one run.  An invariant may speak of the state alone (`final_invariant`), of
the log so far (`log_invariant`), of the events still to come (`final_of_upcoming`), or of clients
whose next event depends on what they were answered (`Reach.invariant`).  A condition that every
step has to meet is carried along by `Along`.

The second part compares two runs.  A simulation relates the steps of two machines; the counting
rules bound how many events more one run grants than another; and the rules on logs leave out the
entries that an observer cannot see, or that leave no trace in the state.  All of them are stated
for a step and proved by induction on the list of events, so that a user of this file only ever
looks at one step.
-/
import Mathlib.Data.List.Basic
import Mathlib.Data.List.Count

namespace ShardLeak

/-- A deterministic machine with states `σ`, events `ε` and outputs `ο`. -/
structure Machine (σ ε ο : Type*) where
  /-- The output at an event, and the state after it. -/
  step : σ → ε → ο × σ

namespace Machine

variable {σ τ ε ο : Type*} (M : Machine σ ε ο)

/-- The state after a list of events. -/
def final (s : σ) (es : List ε) : σ := es.foldl (fun s e => (M.step s e).2) s

/-- The outputs along a list of events. -/
def outputs : σ → List ε → List ο
  | _, [] => []
  | s, e :: es => (M.step s e).1 :: outputs (M.step s e).2 es

/-- The events of a run, each with its output. -/
def log (s : σ) (es : List ε) : List (ε × ο) := es.zip (M.outputs s es)

@[simp] lemma final_nil (s : σ) : M.final s [] = s := rfl

@[simp] lemma final_cons (s : σ) (e : ε) (es : List ε) :
    M.final s (e :: es) = M.final (M.step s e).2 es := rfl

@[simp] lemma final_append (s : σ) (es fs : List ε) :
    M.final s (es ++ fs) = M.final (M.final s es) fs := by
  simp [final]

@[simp] lemma outputs_nil (s : σ) : M.outputs s [] = [] := rfl

@[simp] lemma outputs_cons (s : σ) (e : ε) (es : List ε) :
    M.outputs s (e :: es) = (M.step s e).1 :: M.outputs (M.step s e).2 es := rfl

lemma outputs_append (s : σ) (es fs : List ε) :
    M.outputs s (es ++ fs) = M.outputs s es ++ M.outputs (M.final s es) fs := by
  induction es generalizing s with
  | nil => rfl
  | cons e es ih => simp [ih]

@[simp] lemma length_outputs (s : σ) (es : List ε) : (M.outputs s es).length = es.length := by
  induction es generalizing s with
  | nil => rfl
  | cons e es ih => simp [ih]

@[simp] lemma log_nil (s : σ) : M.log s [] = [] := rfl

@[simp] lemma log_cons (s : σ) (e : ε) (es : List ε) :
    M.log s (e :: es) = (e, (M.step s e).1) :: M.log (M.step s e).2 es := rfl

lemma log_append (s : σ) (es fs : List ε) :
    M.log s (es ++ fs) = M.log s es ++ M.log (M.final s es) fs := by
  induction es generalizing s with
  | nil => rfl
  | cons e es ih => simp [ih]

lemma outputs_getElem (s : σ) (es : List ε) (i : ℕ) (hi : i < es.length)
    (ho : i < (M.outputs s es).length) :
    (M.outputs s es)[i] = (M.step (M.final s (es.take i)) es[i]).1 := by
  induction es generalizing s i with
  | nil => simp at hi
  | cons e es ih =>
    cases i with
    | zero => rfl
    | succ i => simpa using ih (M.step s e).2 i (by simpa using hi) (by simpa using hi)

lemma final_take_succ (s : σ) (es : List ε) (i : ℕ) (hi : i < es.length) :
    M.final s (es.take (i + 1)) = (M.step (M.final s (es.take i)) es[i]).2 := by
  rw [← List.take_append_getElem hi, final_append, final_cons, final_nil]

lemma outputs_take (s : σ) (es : List ε) (i : ℕ) :
    M.outputs s (es.take i) = (M.outputs s es).take i := by
  induction es generalizing s i with
  | nil => simp
  | cons e es ih =>
    cases i with
    | zero => rfl
    | succ i => simp [ih]

/-! ## Invariants -/

/-- The condition `C` holds of the state and the event at every step of a run. -/
def Along (C : σ → ε → Prop) : σ → List ε → Prop
  | _, [] => True
  | s, e :: es => C s e ∧ Along C (M.step s e).2 es

instance decidableAlong (C : σ → ε → Prop) [∀ s e, Decidable (C s e)] :
    ∀ s es, Decidable (M.Along C s es)
  | _, [] => isTrue trivial
  | s, e :: es =>
    have := decidableAlong C (M.step s e).2 es
    inferInstanceAs (Decidable (C s e ∧ M.Along C (M.step s e).2 es))

@[simp] lemma along_nil (C : σ → ε → Prop) (s : σ) : M.Along C s [] := trivial

@[simp] lemma along_cons {C : σ → ε → Prop} {s : σ} {e : ε} {es : List ε} :
    M.Along C s (e :: es) ↔ C s e ∧ M.Along C (M.step s e).2 es := Iff.rfl

lemma along_append {C : σ → ε → Prop} {s : σ} {es fs : List ε} :
    M.Along C s (es ++ fs) ↔ M.Along C s es ∧ M.Along C (M.final s es) fs := by
  induction es generalizing s with
  | nil => simp
  | cons e es ih => simp [ih, and_assoc]

lemma along_getElem {C : σ → ε → Prop} {s : σ} {es : List ε} (h : M.Along C s es) (i : ℕ)
    (hi : i < es.length) :
    M.Along C s (es.take i) ∧ C (M.final s (es.take i)) es[i] := by
  induction es generalizing s i with
  | nil => simp at hi
  | cons e es ih =>
    cases i with
    | zero => exact ⟨trivial, h.1⟩
    | succ i =>
      obtain ⟨hbefore, hat⟩ := ih h.2 i (by simpa using hi)
      exact ⟨⟨h.1, hbefore⟩, hat⟩

/-- What is known of the events may be used along the run. -/
lemma along_and_of_forall {C : σ → ε → Prop} {D : ε → Prop} {s : σ} {es : List ε}
    (h : M.Along C s es) (hD : ∀ e ∈ es, D e) : M.Along (fun s e => C s e ∧ D e) s es := by
  induction es generalizing s with
  | nil => trivial
  | cons e es ih =>
    exact ⟨⟨h.1, hD e (by simp)⟩, ih h.2 fun d hd => hD d (by simp [hd])⟩

lemma along_of_always {C : σ → ε → Prop} (h : ∀ s e, C s e) (s : σ) (es : List ε) :
    M.Along C s es := by
  induction es generalizing s with
  | nil => trivial
  | cons e es ih => exact ⟨h s e, ih _⟩

lemma along_of_forall {D : ε → Prop} {es : List ε} (hD : ∀ e ∈ es, D e) (s : σ) :
    M.Along (fun _ e => D e) s es := by
  induction es generalizing s with
  | nil => trivial
  | cons e es ih => exact ⟨hD e (by simp), ih (fun d hd => hD d (by simp [hd])) _⟩

/-- Two conditions that agree where an invariant holds agree along the run. -/
lemma along_congr {I : σ → Prop} {C D : σ → ε → Prop} {s : σ} {es : List ε}
    (hstep : ∀ s, ∀ e ∈ es, I s → I (M.step s e).2)
    (h : ∀ s, ∀ e ∈ es, I s → (C s e ↔ D s e)) (hs : I s) : M.Along C s es ↔ M.Along D s es := by
  induction es generalizing s with
  | nil => rfl
  | cons e es ih =>
    rw [along_cons, along_cons, h s e (by simp) hs]
    exact and_congr_right fun _ => ih (fun s d hd => hstep s d (by simp [hd]))
      (fun s d hd => h s d (by simp [hd])) (hstep s e (by simp) hs)

lemma final_invariant {C : σ → ε → Prop} {I : σ → Prop}
    (hstep : ∀ s e, I s → C s e → I (M.step s e).2) {s : σ} {es : List ε}
    (h : I s) (hC : M.Along C s es) : I (M.final s es) := by
  induction es generalizing s with
  | nil => exact h
  | cons e es ih => exact ih (hstep s e h hC.1) hC.2

/-- An invariant that may speak of the events still to come. -/
lemma final_of_upcoming {I : List ε → σ → Prop}
    (hstep : ∀ e es s, I (e :: es) s → I es (M.step s e).2) {es : List ε} {s : σ}
    (h : I es s) : I [] (M.final s es) := by
  induction es generalizing s with
  | nil => exact h
  | cons e es ih => exact ih (hstep e es s h)

/-- What every step preserves, whatever the event, holds after every run. -/
lemma final_of_forall {I : σ → Prop} (hstep : ∀ s e, I s → I (M.step s e).2) {s : σ} (h : I s)
    (es : List ε) : I (M.final s es) :=
  M.final_invariant (C := fun _ _ => True) (fun s e h _ => hstep s e h) h
    (M.along_of_forall (fun _ _ => trivial) s)

lemma forall_outputs {I : σ → Prop} {p : ο → Prop}
    (hstep : ∀ s e, I s → p (M.step s e).1 ∧ I (M.step s e).2) {s : σ} (h : I s) (es : List ε) :
    ∀ o ∈ M.outputs s es, p o := by
  induction es generalizing s with
  | nil => simp
  | cons e es ih =>
    intro o ho
    obtain ⟨hp, hI⟩ := hstep s e h
    rcases List.mem_cons.1 ho with rfl | ho
    · exact hp
    · exact ih hI o ho

/-- An invariant that may speak of the log: it holds of the empty log and is preserved when
a step adds its entry. -/
lemma log_invariant {C : σ → ε → Prop} {I : List (ε × ο) → σ → Prop}
    (hstep : ∀ l s e, I l s → C s e → I (l ++ [(e, (M.step s e).1)]) (M.step s e).2)
    {s : σ} {es : List ε} (h : I [] s) (hC : M.Along C s es) :
    I (M.log s es) (M.final s es) := by
  suffices H : ∀ l s, I l s → M.Along C s es → I (l ++ M.log s es) (M.final s es) by
    simpa using H [] s h hC
  clear h hC s
  induction es with
  | nil => intro l s h _; simpa using h
  | cons e es ih =>
    intro l s h hC
    simpa using ih (l ++ [(e, (M.step s e).1)]) _ (hstep l s e h hC.1) hC.2

/-! ## Clients that remember -/

/-- The runs from `s₀` in which every event is one that `C` allows after the log so far, with this
log and the state reached. -/
inductive Reach (C : List (ε × ο) → ε → Prop) (s₀ : σ) : List (ε × ο) → σ → Prop
  | nil : Reach C s₀ [] s₀
  | snoc {l : List (ε × ο)} {s : σ} {e : ε} (h : Reach C s₀ l s) (he : C l e) :
      Reach C s₀ (l ++ [(e, (M.step s e).1)]) (M.step s e).2

namespace Reach

variable {M} {C : List (ε × ο) → ε → Prop} {s₀ s : σ} {l : List (ε × ο)}

/-- What holds at the start and is kept by every step that is allowed holds in every run. -/
theorem invariant {I : List (ε × ο) → σ → Prop} (h₀ : I [] s₀)
    (hstep : ∀ l s e, M.Reach C s₀ l s → I l s → C l e →
      I (l ++ [(e, (M.step s e).1)]) (M.step s e).2)
    (h : M.Reach C s₀ l s) : I l s := by
  induction h with
  | nil => exact h₀
  | snoc h he ih => exact hstep _ _ _ h ih he

end Reach

/-- **The erasure rule.**  If the entries outside `vis` do not change what a relation sees of the
state, and those of `vis` are answered alike in related states, then a run without the former is
answered as before, and ends in a related state. -/
theorem log_erase (vis : ε × ο → Bool) {R : σ → σ → Prop}
    (hinv : ∀ s t e, R s t → ¬ vis (e, (M.step s e).1) = true → R (M.step s e).2 t)
    (hvis : ∀ s t e, R s t → vis (e, (M.step s e).1) = true →
      (M.step s e).1 = (M.step t e).1 ∧ R (M.step s e).2 (M.step t e).2)
    {s t : σ} (h : R s t) (es : List ε) :
    M.log t (((M.log s es).filter vis).map Prod.fst) = (M.log s es).filter vis ∧
      R (M.final s es) (M.final t (((M.log s es).filter vis).map Prod.fst)) := by
  induction es generalizing s t with
  | nil => exact ⟨rfl, h⟩
  | cons e es ih =>
    by_cases he : vis (e, (M.step s e).1) = true
    · obtain ⟨ho, hR⟩ := hvis s t e h he
      obtain ⟨hlog, hfinal⟩ := ih hR
      simp only [log_cons, List.filter_cons, he, if_true, List.map_cons, final_cons]
      rw [hlog, ← ho]
      exact ⟨rfl, hfinal⟩
    · simp only [log_cons, List.filter_cons, he, Bool.false_eq_true, if_false, final_cons]
      exact ih (hinv s t e h he)

/-! ## Simulation -/

/-- If every step of `M` is matched by a step of `N`, up to a translation `f` of the events and
`g` of the outputs, then so is every run.  The relation may speak of the events still to
come. -/
theorem outputs_eq_of_simulation {φ π : Type*} {N : Machine τ φ π} {f : ε → φ} {g : π → ο}
    {R : List ε → σ → τ → Prop}
    (hstep : ∀ e es s t, R (e :: es) s t →
      (M.step s e).1 = g (N.step t (f e)).1 ∧ R es (M.step s e).2 (N.step t (f e)).2)
    {es : List ε} {s : σ} {t : τ} (h : R es s t) :
    M.outputs s es = (N.outputs t (es.map f)).map g := by
  induction es generalizing s t with
  | nil => rfl
  | cons e es ih =>
    obtain ⟨ho, hR⟩ := hstep e es s t h
    simp [ho, ih hR]

/-! ## Two runs of one machine -/

/-- An event is inserted into a run: what the other events return. -/
lemma eraseIdx_outputs_insert (s : σ) (es : List ε) (e : ε) (fs : List ε) :
    (M.outputs s (es ++ e :: fs)).eraseIdx es.length =
      M.outputs s es ++ M.outputs (M.step (M.final s es) e).2 fs := by
  have hlen : (M.outputs s es).length = es.length := M.length_outputs s es
  rw [outputs_append, outputs_cons, ← hlen, List.eraseIdx_append_of_length_le (Nat.le_refl _)]
  simp

/-- What the inserted event returns. -/
lemma getElem?_outputs_insert (s : σ) (es : List ε) (e : ε) (fs : List ε) :
    (M.outputs s (es ++ e :: fs))[es.length]? = some (M.step (M.final s es) e).1 := by
  have hlen : (M.outputs s es).length = es.length := M.length_outputs s es
  rw [outputs_append, outputs_cons, ← hlen, List.getElem?_append_right (Nat.le_refl _)]
  simp

lemma countP_cons_toNat (p : ο → Bool) (o : ο) (l : List ο) :
    (o :: l).countP p = l.countP p + (p o).toNat := by
  cases h : p o <;> simp [h]

/-- **The account rule.**  If every step adds to a count the outputs with `p`, but for the events
with `q`, then so does every run. -/
theorem count_of_account (count : σ → ℕ) {p : ο → Bool} {q : ε → Bool}
    (hstep : ∀ s e, count (M.step s e).2 + (q e).toNat = count s + (p (M.step s e).1).toNat)
    (s : σ) (es : List ε) :
    count (M.final s es) + es.countP q = count s + (M.outputs s es).countP p := by
  induction es generalizing s with
  | nil => rfl
  | cons e es ih =>
    have hfirst := hstep s e
    have hrest := ih (M.step s e).2
    simp only [final_cons, outputs_cons, countP_cons_toNat]
    omega

/-- **The two-phase rule.**  Two runs on the same events are compared by a relation with two
phases: in the phase `false` they have granted equally many events, in the phase `true` the
first is one ahead.  If every step keeps the account, so does every run. -/
theorem countP_of_phases {granted : ο → Bool} {R : List ε → Bool → σ → σ → Prop}
    (hstep : ∀ e es d s s', R (e :: es) d s s' →
      ∃ d' : Bool, (granted (M.step s e).1).toNat + d.toNat =
          (granted (M.step s' e).1).toNat + d'.toNat ∧
        R es d' (M.step s e).2 (M.step s' e).2)
    {es : List ε} {d : Bool} {s s' : σ} (h : R es d s s') :
    ∃ d' : Bool, (M.outputs s es).countP granted + d.toNat =
      (M.outputs s' es).countP granted + d'.toNat := by
  induction es generalizing d s s' with
  | nil => exact ⟨d, rfl⟩
  | cons e es ih =>
    obtain ⟨d₁, hcount, hnext⟩ := hstep e es d s s' h
    obtain ⟨d₂, hrest⟩ := ih hnext
    refine ⟨d₂, ?_⟩
    simp only [outputs_cons, countP_cons_toNat]
    omega

/-- **The lead rule.**  Two machines read the events `cs`, each in its own way, and are compared
by a relation that carries the lead `d` of the second: how many events more than the first it
has granted.  If every step keeps the account, so does every run; with no lead at the start,
the first grants no more than the second. -/
theorem countP_of_lead {κ φ : Type*} {N : Machine τ φ ο} {granted : ο → Bool} {f : κ → ε}
    {g : κ → φ} {R : List κ → ℕ → σ → τ → Prop}
    (hstep : ∀ c cs d s t, R (c :: cs) d s t →
      ∃ d' : ℕ, (granted (M.step s (f c)).1).toNat + d' = (granted (N.step t (g c)).1).toNat + d ∧
        R cs d' (M.step s (f c)).2 (N.step t (g c)).2)
    {cs : List κ} {d : ℕ} {s : σ} {t : τ} (h : R cs d s t) :
    ∃ d' : ℕ, (M.outputs s (cs.map f)).countP granted + d' =
      (N.outputs t (cs.map g)).countP granted + d := by
  induction cs generalizing d s t with
  | nil => exact ⟨d, rfl⟩
  | cons c cs ih =>
    obtain ⟨d₁, hcount, hnext⟩ := hstep c cs d s t h
    obtain ⟨d₂, hrest⟩ := ih hnext
    refine ⟨d₂, ?_⟩
    simp only [List.map_cons, outputs_cons, countP_cons_toNat]
    omega

/-- **The lead rule with faults.**  The second machine reads all events `cs`, and the first only
those that `f` translates: the others are faults, in which nothing is granted.  If every step keeps
the account, so does every run. -/
theorem countP_of_faults {κ φ π : Type*} {N : Machine τ φ π} (granted : ε × ο → Bool)
    (granted' : φ × π → Bool) {f : κ → Option ε} {g : κ → φ}
    {R : List κ → ℕ → σ → τ → Prop}
    (hread : ∀ c cs d s t e, f c = some e → R (c :: cs) d s t →
      ∃ d' : ℕ, (granted (e, (M.step s e).1)).toNat + d' =
          (granted' (g c, (N.step t (g c)).1)).toNat + d ∧
        R cs d' (M.step s e).2 (N.step t (g c)).2)
    (hfault : ∀ c cs d s t, f c = none → R (c :: cs) d s t →
      granted' (g c, (N.step t (g c)).1) = false ∧ R cs d s (N.step t (g c)).2)
    {cs : List κ} {d : ℕ} {s : σ} {t : τ} (h : R cs d s t) :
    ∃ d' : ℕ, R [] d' (M.final s (cs.filterMap f)) (N.final t (cs.map g)) ∧
      (M.log s (cs.filterMap f)).countP granted + d' =
        (N.log t (cs.map g)).countP granted' + d := by
  induction cs generalizing d s t with
  | nil => exact ⟨d, h, rfl⟩
  | cons c cs ih =>
    cases hc : f c with
    | none =>
      obtain ⟨hfalse, hnext⟩ := hfault c cs d s t hc h
      obtain ⟨d', hend, hcount⟩ := ih hnext
      refine ⟨d', by simpa [hc] using hend, ?_⟩
      simpa [hc, hfalse] using hcount
    | some e =>
      obtain ⟨d₁, hone, hnext⟩ := hread c cs d s t e hc h
      obtain ⟨d₂, hend, hcount⟩ := ih hnext
      refine ⟨d₂, by simpa [hc] using hend, ?_⟩
      simp only [List.filterMap_cons, hc, List.map_cons, log_cons, countP_cons_toNat]
      omega

/-- **The projection rule.**  An observer sees the events of `vis`.  If the other events do
not change what it sees of the state, and its own events depend on nothing else, then it
cannot tell a run from the run of its own events alone. -/
theorem log_filter {vis : ε → Prop} [DecidablePred vis] {R : σ → σ → Prop} {es : List ε}
    (hinv : ∀ e ∈ es, ∀ s t, R s t → ¬ vis e → R (M.step s e).2 t)
    (hvis : ∀ e ∈ es, ∀ s t, R s t → vis e →
      (M.step s e).1 = (M.step t e).1 ∧ R (M.step s e).2 (M.step t e).2)
    {s t : σ} (h : R s t) :
    (M.log s es).filter (fun p => vis p.1) = M.log t (es.filter vis) := by
  induction es generalizing s t with
  | nil => rfl
  | cons e es ih =>
    have hrest : ∀ {s t}, R s t →
        (M.log s es).filter (fun p => vis p.1) = M.log t (es.filter vis) :=
      ih (fun d hd => hinv d (by simp [hd])) fun d hd => hvis d (by simp [hd])
    by_cases he : vis e
    · obtain ⟨ho, hR⟩ := hvis e (by simp) s t h he
      simp [he, ho, hrest hR]
    · simp [he, hrest (hinv e (by simp) s t h he)]

/-- If every step of `M` and of `N` on an event keeps a relation between their states, and the
events of `vis` return the same on both, then an observer of these events cannot tell the two
machines apart. -/
theorem log_filter_of_simulation {N : Machine τ ε ο} {vis : ε → Prop} [DecidablePred vis]
    {R : σ → τ → Prop} {es : List ε}
    (hstep : ∀ e ∈ es, ∀ s t, R s t →
      (vis e → (M.step s e).1 = (N.step t e).1) ∧ R (M.step s e).2 (N.step t e).2)
    {s : σ} {t : τ} (h : R s t) :
    (M.log s es).filter (fun p => vis p.1) = (N.log t es).filter (fun p => vis p.1) := by
  induction es generalizing s t with
  | nil => rfl
  | cons e es ih =>
    obtain ⟨hout, hR⟩ := hstep e (by simp) s t h
    have hrest := ih (fun d hd => hstep d (List.mem_cons_of_mem _ hd)) hR
    by_cases he : vis e
    · simp [he, hout he, hrest]
    · simp [he, hrest]

/-- **The unwinding rule.**  If every step keeps a relation between two states, and the events of
`vis` return the same in related states, then an observer of these events cannot tell from which
of the two a run started. -/
theorem log_filter_congr {vis : ε → Prop} [DecidablePred vis] {R : σ → σ → Prop}
    (hstep : ∀ s t e, R s t →
      (vis e → (M.step s e).1 = (M.step t e).1) ∧ R (M.step s e).2 (M.step t e).2)
    {s t : σ} (h : R s t) (es : List ε) :
    (M.log s es).filter (fun p => vis p.1) = (M.log t es).filter (fun p => vis p.1) :=
  M.log_filter_of_simulation (fun e _ s t h => hstep s t e h) h

lemma map_snd_log (s : σ) (es : List ε) : (M.log s es).map Prod.snd = M.outputs s es :=
  List.map_snd_zip (by simp)

end Machine

end ShardLeak
