/-
# The store

The methods of `internal/store/store.go`.  Each is a function of what PostgreSQL answers to its
query, which may be anything, and of the counter `DBErrorsTotal`.

The methods have four shapes: an insertion that reports a conflict, a query of one row, a query of
all rows, and a statement that counts the rows it affected.  Each method is its shape with its own
name of the operation, so that what is shown of a shape holds of all of its methods.
`CreateAPIKey` is the exception: it does not tell a conflict from other errors.

A list method reads its rows one by one, and may be interrupted.  Such outcomes occur only where
PostgreSQL is not available; on an available database, `query` and `exec` run a statement of
`ShardLeak/Postgres/Tables.lean` and give its outcome to the method.
-/
import ShardLeak.Postgres.Tables

namespace ShardLeak

namespace Store

open Api Postgres

/-- The errors of the methods: `ErrNotFound`, `ErrConflict`, an error that `dbErr` wrapped, and
one that is returned as it is. -/
inductive StoreError where
  | notFound
  | conflict
  | wrapped (op : String) (err : PgxError)
  | unwrapped (err : PgxError)
deriving DecidableEq

/-- A result that depends on the counter `DBErrorsTotal`, and the counter after it. -/
abbrev Counted (β : Type) : Type := ℕ → Except StoreError β × ℕ

/-- The rows of a query, each of which may fail to be scanned, and the error that ends the
iteration, if there is one. -/
structure Rows (ρ : Type) where
  rows : List (Except PgxError ρ)
  err : Option PgxError

/-- All rows are there. -/
def Rows.complete {ρ : Type} (l : List ρ) : Rows ρ := ⟨l.map .ok, none⟩

variable {β ρ : Type}

/-- `dbErr`. -/
def dbErr (op : String) (err : PgxError) : Counted β := fun n => (.error (.wrapped op err), n + 1)

/-- `isUniqueViolation`. -/
def isUniqueViolation : PgxError → Bool
  | .pg code => code == "23505"
  | _ => false

lemma isUniqueViolation_of_ne {e : PgxError} (h : e ≠ .pg "23505") :
    isUniqueViolation e = false := by
  unfold isUniqueViolation
  split
  · rename_i code
    exact beq_false_of_ne fun hcode => h (congrArg PgxError.pg hcode)
  · rfl

/-! ## Methods by their shape -/

/-- A method that inserts a row and reports a conflict. -/
def insertOrConflict (op : String) : Except PgxError ρ → Counted ρ
  | .ok r => fun n => (.ok r, n)
  | .error e => if isUniqueViolation e then fun n => (.error .conflict, n) else dbErr op e

/-- A method that reads one row. -/
def getRow (op : String) : Except PgxError ρ → Counted ρ
  | .ok r => fun n => (.ok r, n)
  | .error .noRows => fun n => (.error .notFound, n)
  | .error e => dbErr op e

/-- A method that reads all rows. -/
def listRows (op scanOp : String) : Except PgxError (Rows ρ) → Counted (List ρ)
  | .error e => dbErr op e
  | .ok rs => match rs.rows.mapM (m := Except PgxError) id with
    | .error e => dbErr scanOp e
    | .ok l => match rs.err with
      | none => fun n => (.ok l, n)
      | some e => fun n => (.error (.unwrapped e), n)

/-- A method that changes rows, given the number of those it affected. -/
def execRows (op : String) : Except PgxError ℕ → Counted Unit
  | .error e => dbErr op e
  | .ok affected => fun n => (if affected = 0 then .error .notFound else .ok (), n)

/-! ## The methods -/

/-- `CreateUser`. -/
def createUser : Except PgxError User → Counted User := insertOrConflict "create user"

/-- `GetUserByEmail`. -/
def getUserByEmail : Except PgxError User → Counted User := getRow "get user by email"

/-- `GetUserByID`. -/
def getUserByID : Except PgxError User → Counted User := getRow "get user by id"

/-- `CreateAPIKey`, which does not tell conflicts from other errors. -/
def createAPIKey : Except PgxError APIKey → Counted APIKey
  | .ok k => fun n => (.ok k, n)
  | .error e => dbErr "create api key" e

/-- `GetAPIKeysByUser`. -/
def getAPIKeysByUser : Except PgxError (Rows APIKey) → Counted (List APIKey) :=
  listRows "list api keys" "scan api key"

/-- `GetAPIKeyByHash`. -/
def getAPIKeyByHash : Except PgxError APIKey → Counted APIKey := getRow "get api key by hash"

/-- `RevokeAPIKey`. -/
def revokeAPIKey : Except PgxError ℕ → Counted Unit := execRows "revoke api key"

/-- `CreateLimitConfig`. -/
def createLimitConfig : Except PgxError LimitConfig → Counted LimitConfig :=
  insertOrConflict "create limit config"

/-- `GetLimitConfig`. -/
def getLimitConfig : Except PgxError LimitConfig → Counted LimitConfig :=
  getRow "get limit config"

/-- `DeleteLimitConfig`. -/
def deleteLimitConfig : Except PgxError ℕ → Counted Unit := execRows "delete limit config"

/-- `ListLimitConfigs`. -/
def listLimitConfigs : Except PgxError (Rows LimitConfig) → Counted (List LimitConfig) :=
  listRows "list limit configs" "scan limit config"

lemma getRow_ok (op : String) (n : ℕ) {out : Except PgxError ρ} {r : ρ}
    (h : (getRow op out n).1 = .ok r) : out = .ok r := by
  unfold getRow at h
  split at h
  · rw [Except.ok.inj h]
  · cases h
  · cases h

lemma listRows_complete (op scanOp : String) (l : List ρ) (n : ℕ) :
    listRows op scanOp (.ok (.complete l)) n = (.ok l, n) := by
  have hscan : (l.map Except.ok).mapM (m := Except PgxError) id = .ok l := by
    induction l with
    | nil => rfl
    | cons r l ih =>
      rw [List.map_cons, List.mapM_cons, ih]
      rfl
  simp only [listRows, Rows.complete, hscan]

/-! ## On an available database -/

/-- The database and the counter `DBErrorsTotal`. -/
structure Backend where
  db : Database
  dbErrorsTotal : ℕ

/-- Run a query and then the method on its answer. -/
def query (stmt : Database → Except PgxError ρ) (method : Except PgxError ρ → Counted β)
    (b : Backend) : Except StoreError β × Backend :=
  let res := method (stmt b.db) b.dbErrorsTotal
  (res.1, { b with dbErrorsTotal := res.2 })

/-- Run a statement that may write, and then the method on its answer. -/
def exec (stmt : Database → Except PgxError (ρ × Database))
    (method : Except PgxError ρ → Counted β) (b : Backend) : Except StoreError β × Backend :=
  let out := stmt b.db
  let res := method (out.map Prod.fst) b.dbErrorsTotal
  (res.1, ⟨(out.map Prod.snd).toOption.getD b.db, res.2⟩)

variable {stmt : Database → Except PgxError (ρ × Database)}
  {method : Except PgxError ρ → Counted β} {b : Backend}

/-- A query changes no table. -/
lemma query_db {stmt : Database → Except PgxError ρ} {method : Except PgxError ρ → Counted β}
    {res : Except StoreError β} {b' : Backend} (h : query stmt method b = (res, b')) :
    b'.db = b.db :=
  congrArg (fun out => out.2.db) h.symm

lemma query_fst (stmt : Database → Except PgxError ρ) (method : Except PgxError ρ → Counted β)
    (b : Backend) : (query stmt method b).1 = (method (stmt b.db) b.dbErrorsTotal).1 := rfl

lemma exec_ok {r : ρ} {db : Database} (h : stmt b.db = .ok (r, db)) :
    exec stmt method b = ((method (.ok r) b.dbErrorsTotal).1,
      ⟨db, (method (.ok r) b.dbErrorsTotal).2⟩) := by
  simp only [exec, h]
  rfl

lemma exec_error {e : PgxError} (h : stmt b.db = .error e) :
    exec stmt method b = ((method (.error e) b.dbErrorsTotal).1,
      ⟨b.db, (method (.error e) b.dbErrorsTotal).2⟩) := by
  simp only [exec, h]
  rfl

/-- What a statement leaves alone when it succeeds, it leaves alone. -/
lemma exec_frame {γ : Type} {f : Database → γ}
    (h : ∀ r db, stmt b.db = .ok (r, db) → f db = f b.db) :
    f (exec stmt method b).2.db = f b.db := by
  cases hout : stmt b.db with
  | error e => rw [exec_error hout]
  | ok out =>
    obtain ⟨r, db⟩ := out
    rw [exec_ok hout]
    exact h r db hout

end Store

end ShardLeak
