/-
# Which database errors are counted

Every error of a method of the store that is neither `ErrNotFound` nor `ErrConflict` should be
counted in `shardleak_db_errors_total`.  All are, but for the error that ends the iteration over
the rows of a list early: the two list methods return it as it is.

Each shape of method (`ShardLeak/Postgres/Store.lean`) has one lemma on what it adds to the
counter, where a method that misses an error adds one too few (`Counts`).  For a run, the account
is kept by every call: the counter after it, and the errors that were missed, are together the
counter before it and the errors that were returned.  So all errors are counted if and only if no
list of the run ends early.
-/
import ShardLeak.Lib.Machine
import ShardLeak.Postgres.Store

namespace ShardLeak

namespace Store

open Api Postgres

/-! ## Calls -/

/-- A call of a method, with what PostgreSQL answers. -/
inductive StoreCall where
  | createUser (out : Except PgxError User)
  | getUserByEmail (out : Except PgxError User)
  | getUserByID (out : Except PgxError User)
  | createAPIKey (out : Except PgxError APIKey)
  | getAPIKeysByUser (out : Except PgxError (Rows APIKey))
  | getAPIKeyByHash (out : Except PgxError APIKey)
  | revokeAPIKey (out : Except PgxError ℕ)
  | createLimitConfig (out : Except PgxError LimitConfig)
  | getLimitConfig (out : Except PgxError LimitConfig)
  | deleteLimitConfig (out : Except PgxError ℕ)
  | listLimitConfigs (out : Except PgxError (Rows LimitConfig))

/-- The error that a method returns, and the counter after it. -/
def errorOf {β : Type} (method : Counted β) (n : ℕ) : Option StoreError × ℕ :=
  match method n with
  | (.ok _, n) => (none, n)
  | (.error e, n) => (some e, n)

/-- The method that is called. -/
def StoreCall.run : StoreCall → ℕ → Option StoreError × ℕ
  | .createUser out => errorOf (Store.createUser out)
  | .getUserByEmail out => errorOf (Store.getUserByEmail out)
  | .getUserByID out => errorOf (Store.getUserByID out)
  | .createAPIKey out => errorOf (Store.createAPIKey out)
  | .getAPIKeysByUser out => errorOf (Store.getAPIKeysByUser out)
  | .getAPIKeyByHash out => errorOf (Store.getAPIKeyByHash out)
  | .revokeAPIKey out => errorOf (Store.revokeAPIKey out)
  | .createLimitConfig out => errorOf (Store.createLimitConfig out)
  | .getLimitConfig out => errorOf (Store.getLimitConfig out)
  | .deleteLimitConfig out => errorOf (Store.deleteLimitConfig out)
  | .listLimitConfigs out => errorOf (Store.listLimitConfigs out)

/-- The store as a machine, whose state is the counter `DBErrorsTotal`. -/
def store : Machine ℕ StoreCall (Option StoreError) := ⟨fun n c => c.run n⟩

/-! ## What should hold -/

/-- An error other than `ErrNotFound` and `ErrConflict`. -/
def isFailure : Option StoreError → Bool
  | none | some .notFound | some .conflict => false
  | some (.wrapped _ _) | some (.unwrapped _) => true

/-- The counter is increased by the number of failures. -/
def AllCounted (n : ℕ) (cs : List StoreCall) : Prop :=
  store.final n cs = n + (store.outputs n cs).countP isFailure

instance (n : ℕ) (cs : List StoreCall) : Decidable (AllCounted n cs) :=
  inferInstanceAs (Decidable (_ = _))

/-- All rows that came were scanned, but an error ended the iteration. -/
def Rows.endsEarly {ρ : Type} (rs : Rows ρ) : Bool := rs.rows.all Except.isOk && rs.err.isSome

/-- The call lists rows, and their iteration ends early. -/
def StoreCall.endsEarly : StoreCall → Bool
  | .getAPIKeysByUser (.ok rs) => rs.endsEarly
  | .listLimitConfigs (.ok rs) => rs.endsEarly
  | _ => false

/-! ## The account of a call -/

variable {β ρ : Type}

/-- The method counts its failures, but for one that is missed if `b` is true. -/
def Counts (b : Bool) (method : Counted β) : Prop :=
  ∀ n, (errorOf method n).2 + b.toNat = n + (isFailure (errorOf method n).1).toNat

lemma counts_dbErr (op : String) (e : PgxError) : Counts false (dbErr op e : Counted β) :=
  fun _ => rfl

lemma counts_insertOrConflict (op : String) (out : Except PgxError ρ) :
    Counts false (insertOrConflict op out) := by
  cases out with
  | ok r => exact fun _ => rfl
  | error e =>
    rw [insertOrConflict]
    split
    · exact fun _ => rfl
    · exact counts_dbErr op e

lemma counts_getRow (op : String) (out : Except PgxError ρ) : Counts false (getRow op out) := by
  unfold getRow
  split
  · exact fun _ => rfl
  · exact fun _ => rfl
  · exact counts_dbErr op _

lemma counts_execRows (op : String) (out : Except PgxError ℕ) : Counts false (execRows op out) := by
  cases out with
  | error e => exact counts_dbErr op e
  | ok affected =>
    intro n
    by_cases h : affected = 0
    · simp [errorOf, execRows, isFailure, h]
    · simp [errorOf, execRows, isFailure, h]

/-- The rows are scanned up to the first one that fails. -/
lemma scan_cases (l : List (Except PgxError ρ)) :
    (l.all Except.isOk = true ∧ ∃ rs, l.mapM (m := Except PgxError) id = .ok rs) ∨
      (l.all Except.isOk = false ∧ ∃ e, l.mapM (m := Except PgxError) id = .error e) := by
  induction l with
  | nil => exact .inl ⟨rfl, [], rfl⟩
  | cons r l ih =>
    rw [List.mapM_cons]
    cases r with
    | error e => exact .inr ⟨rfl, e, rfl⟩
    | ok v =>
      rcases ih with ⟨hall, rs, hrs⟩ | ⟨hall, e, he⟩
      · rw [hrs]
        exact .inl ⟨hall, v :: rs, rfl⟩
      · rw [he]
        exact .inr ⟨hall, e, rfl⟩

/-- A list method misses the error that ends an iteration. -/
lemma counts_listRows (op scanOp : String) (rs : Rows ρ) :
    Counts rs.endsEarly (listRows op scanOp (.ok rs)) := by
  obtain ⟨rows, err⟩ := rs
  rcases scan_cases rows with ⟨hall, l, hl⟩ | ⟨hall, e, he⟩
  · cases err with
    | none =>
      simp only [Rows.endsEarly, hall, listRows, hl]
      exact fun _ => rfl
    | some e =>
      simp only [Rows.endsEarly, hall, listRows, hl]
      exact fun _ => rfl
  · simp only [Rows.endsEarly, hall, listRows, he]
    exact counts_dbErr scanOp e

lemma counts_run (c : StoreCall) (n : ℕ) :
    (c.run n).2 + c.endsEarly.toNat = n + (isFailure (c.run n).1).toNat := by
  cases c with
  | createUser out => exact counts_insertOrConflict _ out n
  | getUserByEmail out => exact counts_getRow _ out n
  | getUserByID out => exact counts_getRow _ out n
  | createAPIKey out =>
    cases out with
    | ok k => rfl
    | error e => exact counts_dbErr (β := APIKey) _ e n
  | getAPIKeysByUser out =>
    cases out with
    | ok rs => exact counts_listRows _ _ rs n
    | error e => exact counts_dbErr (β := List APIKey) _ e n
  | getAPIKeyByHash out => exact counts_getRow _ out n
  | revokeAPIKey out => exact counts_execRows _ out n
  | createLimitConfig out => exact counts_insertOrConflict _ out n
  | getLimitConfig out => exact counts_getRow _ out n
  | deleteLimitConfig out => exact counts_execRows _ out n
  | listLimitConfigs out =>
    cases out with
    | ok rs => exact counts_listRows _ _ rs n
    | error e => exact counts_dbErr (β := List LimitConfig) _ e n

/-- **Failures are counted, but for iterations that end early.** -/
theorem allCounted_iff (n : ℕ) (cs : List StoreCall) :
    AllCounted n cs ↔ ∀ c ∈ cs, ¬ c.endsEarly = true := by
  have haccount := store.count_of_account id (fun n c => counts_run c n) n cs
  simp only [id] at haccount
  rw [← List.countP_eq_zero, AllCounted]
  omega

/-- A key was read, and then the connection was lost: the error is returned, and not counted. -/
theorem not_allCounted_lost_connection :
    ¬ AllCounted 0 [.getAPIKeysByUser (.ok ⟨[.ok ⟨"1", "user-a", "5e88", "laptop", 0, none⟩],
      some .other⟩)] := by
  decide

end Store

end ShardLeak
