/-
# The life of an account

An account begins with a signup and never ends.  From then on exactly the credentials whose email
is spelled alike, up to case and surrounding spaces, and whose password verifies against the hash
of that signup, open a session for it.  The invariant is that the table of users is written down in
the log: it is what the successful signups inserted, the newest first.

Only one kind of request writes to this table, and it adds a row; so the users of a state can be
computed from the log (`signedUp`), and a login is a search in the log.  That an email was signed
up, that a signup is refused with a conflict, and that a login finds its user are then statements
about the log alone.  What the hashes do is left open, but for their verification: a login
succeeds where the library says that the password matches the hash of the signup.
-/
import ShardLeak.Consistency

namespace ShardLeak

namespace Api

open Go Lua Postgres RateLimit Redis Store

/-- The credentials signed up, and got the row of these defaults. -/
def Registered (p : Libs) (l : List (Endpoint × Answer)) (cred : Credentials) (salt : String)
    (new : Defaults) : Prop :=
  (.route (.signup (some cred) (some salt) new),
    .reply ⟨201, .user new.id (normalize p cred.email) new.now⟩) ∈ l

/-- Credentials that match those of a signup. -/
structure Matches (p : Libs) (cred cred₀ : Credentials) (salt : String) : Prop where
  email : normalize p cred.email = normalize p cred₀.email
  password : p.compareHash (p.bcrypt salt cred₀.password) cred.password = true

/-! ## The users of a log -/

/-- The row that an entry of the log added to the users. -/
def signedUp (p : Libs) : Endpoint × Answer → Option User
  | (.route (.signup (some cred) (some salt) new), .reply r) =>
    if r = ⟨201, .user new.id (normalize p cred.email) new.now⟩ then
      some (newUser p cred salt new)
    else none
  | _ => none

variable {α : Type} [Number α] {p : Libs} {P : Expiry} {secret : String} {s s₀ : KeyState α}
  {l : List (Endpoint × Answer)} {es : List Endpoint}

/-- No request but a signup that is answered with 201 changes the users. -/
lemma users_step (P : Expiry) (secret : String) (s : KeyState α) (e : Endpoint) :
    (serve p P secret s e).2.backend.db.users.rows =
      (signedUp p (e, (serve p P secret s e).1)).toList ++ s.backend.db.users.rows := by
  cases e with
  | route r =>
    have heffect := handle_effect p secret s.backend r
    simp only [serve]
    generalize (handle p secret s.backend r).1 = reply at heffect
    generalize hdb : (handle p secret s.backend r).2.db = db at heffect
    cases heffect with
    | none h =>
      have hnone : signedUp p (.route r, .reply reply) = none := by
        unfold signedUp
        split
        · rename_i heq
          obtain ⟨-, heq⟩ := Prod.mk.inj heq
          obtain rfl := Answer.reply.inj heq
          exact if_neg fun hreply => h (.inl (congrArg Reply.status hreply))
        · rfl
      rw [hnone]
      rfl
    | signedUp hvalid hfree ht =>
      rw [signedUp, if_pos rfl]
      exact ht
    | byCaller hcaller h =>
      have hnone : ∀ auth now req, signedUp p (.route (.guarded auth now req), .reply reply) =
          none := fun _ _ _ => rfl
      rw [hnone]
      cases h <;> rfl
  | _ => rfl

lemma users_final (P : Expiry) (secret : String) (s₀ : KeyState α) (es : List Endpoint) :
    ((server α p P secret).final s₀ es).backend.db.users.rows =
      (((server α p P secret).log s₀ es).filterMap (signedUp p)).reverse ++
        s₀.backend.db.users.rows := by
  have hall := (server α p P secret).along_of_forall (fun e (_ : e ∈ es) => trivial) s₀
  refine (server α p P secret).log_invariant
    (I := fun l s => s.backend.db.users.rows =
      (l.filterMap (signedUp p)).reverse ++ s₀.backend.db.users.rows) ?_ rfl hall
  intro l s e h _
  rw [server_step, users_step, h, List.filterMap_append, List.reverse_append, List.append_assoc]
  cases hrow : signedUp p (e, (serve p P secret s e).1) <;> simp [hrow]

lemma signedUp_eq_some {e : Endpoint × Answer} {u : User} : signedUp p e = some u ↔
    ∃ cred salt new, e = (.route (.signup (some cred) (some salt) new),
        .reply ⟨201, .user new.id (normalize p cred.email) new.now⟩) ∧
      newUser p cred salt new = u := by
  constructor
  · intro h
    unfold signedUp at h
    split at h
    · split at h
      · rename_i cred salt new r hreply
        obtain rfl := hreply
        exact ⟨cred, salt, new, rfl, Option.some.inj h⟩
      · cases h
    · cases h
  · rintro ⟨cred, salt, new, rfl, rfl⟩
    exact if_pos rfl

lemma mem_users_final (P : Expiry) (secret : String) (h₀ : s₀.backend.db.users.rows = [])
    (es : List Endpoint) {u : User} :
    u ∈ ((server α p P secret).final s₀ es).backend.db.users.rows ↔
      ∃ cred salt new, Registered p ((server α p P secret).log s₀ es) cred salt new ∧
        newUser p cred salt new = u := by
  rw [users_final, h₀, List.append_nil, List.mem_reverse, List.mem_filterMap]
  constructor
  · rintro ⟨e, he, hu⟩
    obtain ⟨cred, salt, new, rfl, hrow⟩ := signedUp_eq_some.1 hu
    exact ⟨cred, salt, new, he, hrow⟩
  · rintro ⟨cred, salt, new, he, hrow⟩
    exact ⟨_, he, signedUp_eq_some.2 ⟨cred, salt, new, rfl, hrow⟩⟩

lemma valid_of_registered (P : Expiry) (secret : String) (s₀ : KeyState α) (es : List Endpoint)
    {cred : Credentials} {salt : String} {new : Defaults}
    (h : Registered p ((server α p P secret).log s₀ es) cred salt new) : cred.Valid p := by
  have hall := (server α p P secret).along_of_forall (fun e (_ : e ∈ es) => trivial) s₀
  refine (server α p P secret).log_invariant
    (I := fun l _ => ∀ cred salt new, Registered p l cred salt new → cred.Valid p) ?_
    (fun _ _ _ h => by cases h) hall cred salt new h
  intro l s e ih _ cred salt new hmem
  rcases List.mem_append.1 hmem with hmem | hmem
  · exact ih cred salt new hmem
  · obtain ⟨rfl, hreply⟩ := Prod.mk.inj (List.mem_singleton.1 hmem)
    have heffect := handle_effect p secret s.backend (.signup (some cred) (some salt) new)
    rw [← Answer.reply.inj hreply] at heffect
    generalize (handle p secret s.backend _).2.db = db at heffect
    cases heffect with
    | none hquiet => exact absurd (.inl rfl) hquiet
    | signedUp hvalid => exact hvalid

/-! ## Logging in -/

section Login

variable {b : Backend} {cred : Credentials} {now : ℤ}

lemma login_eq (hemail : normalize p cred.email ≠ "") (hpassword : cred.password ≠ "") :
    (AuthHandler.login p secret (some cred) now b).1 =
      match (selectUserByEmail (normalize p cred.email) b.db) with
      | .error _ => .writeError 401 "UNAUTHORIZED" "invalid credentials"
      | .ok u => if p.compareHash u.passwordHash cred.password = true then
          ⟨200, .token (createToken u.id secret now)⟩
        else .writeError 401 "UNAUTHORIZED" "invalid credentials" := by
  simp only [AuthHandler.login, query]
  rw [if_neg (not_or.2 ⟨hemail, hpassword⟩)]
  cases hselect : selectUserByEmail (normalize p cred.email) b.db with
  | error e =>
    simp only [getUserByEmail]
    cases e <;> rfl
  | ok u =>
    simp only [getUserByEmail, getRow]
    by_cases hhash : p.compareHash u.passwordHash cred.password = true
    · rw [if_neg (not_not.2 hhash), if_pos hhash]
    · rw [if_pos hhash, if_neg hhash]

lemma selectUserByEmail_of_mem {u : User} {db : Database} (hu : u ∈ db.users.rows)
    (htext : IsText u.email) : selectUserByEmail u.email db = .ok u := by
  have hfind : db.users.rows.find? (fun r => r.email = u.email) = some u := by
    rw [Table.find?_eq_some_iff fun a b ha hb => .inr
      ((of_decide_eq_true ha).trans (of_decide_eq_true hb).symm)]
    exact ⟨hu, by simp⟩
  rw [selectUserByEmail, bind_ok (textParam_of_isText htext)]
  exact oneRow_eq_ok.2 hfind

end Login

lemma validEmail_ne_empty {email : String} (h : validEmail email = true) : email ≠ "" := by
  rintro rfl
  exact absurd h (by decide)

/-- What should hold of the accounts after the events `es`. -/
structure Membership (α : Type) [Number α] (p : Libs) (P : Expiry) (secret : String)
    (s₀ : KeyState α) (es : List Endpoint) : Prop where
  /-- Credentials open a session of the account that they match. -/
  login : ∀ cred now id,
    (handle p secret ((server α p P secret).final s₀ es).backend (.login (some cred) now)).1 =
        ⟨200, .token (createToken id secret now)⟩ ↔
      cred.password ≠ "" ∧ ∃ cred₀ salt new,
        Registered p ((server α p P secret).log s₀ es) cred₀ salt new ∧ new.id = id ∧
        Matches p cred cred₀ salt
  /-- An unknown email and a wrong password get the same answer. -/
  refused : ∀ cred now, normalize p cred.email ≠ "" → cred.password ≠ "" →
    (∀ cred₀ salt new, Registered p ((server α p P secret).log s₀ es) cred₀ salt new →
      ¬ Matches p cred cred₀ salt) →
    (handle p secret ((server α p P secret).final s₀ es).backend (.login (some cred) now)).1 =
      .writeError 401 "UNAUTHORIZED" "invalid credentials"
  /-- An email is signed up once, however it is spelled. -/
  signup : ∀ cred salt new, cred.Valid p → IsText (p.bcrypt salt cred.password) →
    (∀ cred₀ salt₀ new₀, Registered p ((server α p P secret).log s₀ es) cred₀ salt₀ new₀ →
      new₀.id ≠ new.id) →
    ((∃ cred₀ salt₀ new₀, Registered p ((server α p P secret).log s₀ es) cred₀ salt₀ new₀ ∧
        normalize p cred₀.email = normalize p cred.email) →
      (handle p secret ((server α p P secret).final s₀ es).backend
        (.signup (some cred) (some salt) new)).1 =
          .writeError 409 "CONFLICT" "email already registered") ∧
    ((∀ cred₀ salt₀ new₀, Registered p ((server α p P secret).log s₀ es) cred₀ salt₀ new₀ →
        normalize p cred₀.email ≠ normalize p cred.email) →
      (handle p secret ((server α p P secret).final s₀ es).backend
        (.signup (some cred) (some salt) new)).1 =
          ⟨201, .user new.id (normalize p cred.email) new.now⟩)

lemma signup_of_valid {b : Backend} {cred : Credentials} {salt : String} (hvalid : cred.Valid p)
    (hhash : IsText (p.bcrypt salt cred.password)) (new : Defaults) :
    (AuthHandler.signup p (some cred) (some salt) new b).1 =
      if ∃ u ∈ b.db.users.rows, User.Clash (newUser p cred salt new) u then
        .writeError 409 "CONFLICT" "email already registered"
      else ⟨201, .user new.id (normalize p cred.email) new.now⟩ := by
  have hbcrypt : hashPassword p (some salt) cred.password =
      some (p.bcrypt salt cred.password) := if_neg (not_lt.2 hvalid.max)
  simp only [AuthHandler.signup, hbcrypt]
  rw [if_neg (not_not.2 hvalid.email), if_neg (not_lt.2 hvalid.min)]
  have hins : insertUser (normalize p cred.email) (p.bcrypt salt cred.password) new b.db =
      (insertRow (newUser p cred salt new) b.db.users).map
        fun t => (newUser p cred salt new, { b.db with users := t }) := by
    rw [insertUser, bind_ok (textParam_of_isText hvalid.isText),
      bind_ok (textParam_of_isText hhash)]
    simp only [newUser]
    cases insertRow (⟨new.id, normalize p cred.email, p.bcrypt salt cred.password, new.now⟩ : User)
      b.db.users <;> rfl
  rcases insertRow_cases (newUser p cred salt new) b.db.users with
    ⟨hclash, hrow⟩ | ⟨hfree, t, -, hrow⟩
  · rw [if_pos hclash]
    rw [hrow] at hins
    rw [exec_error hins]
    rfl
  · rw [if_neg (by simpa using hfree)]
    rw [hrow] at hins
    rw [exec_ok hins]
    rfl

/-- **The life of an account.**  Run the server on a database without users.  Then credentials open
a session exactly for the account whose signup they match; an unknown email and a wrong password get
the same answer; and an email that somebody signed up with, in whatever spelling, is refused. -/
theorem membership (α : Type) [Number α] (p : Libs) (P : Expiry) (secret : String)
    (s₀ : KeyState α) (h₀ : s₀.backend.db.users.rows = []) (es : List Endpoint) :
    Membership α p P secret s₀ es := by
  have husers : ∀ u, u ∈ ((server α p P secret).final s₀ es).backend.db.users.rows ↔ _ := fun _ =>
    mem_users_final P secret h₀ es
  constructor
  · intro cred now id
    simp only [handle]
    constructor
    · intro hreply
      obtain ⟨cred', u, hcred, hu, hemail, hhash, ht, -⟩ := login_token (congrArg Reply.body hreply)
      obtain rfl := Option.some.inj hcred
      obtain ⟨cred₀, salt, new, hin, rfl⟩ := (husers u).1 hu
      have hid : new.id = id := (congrArg (fun t => t.claims.subject) ht).symm
      refine ⟨fun hempty => ?_, cred₀, salt, new, hin, hid, hemail.symm, hhash⟩
      simp [AuthHandler.login, hempty, Reply.writeError] at hreply
    · rintro ⟨hpassword, cred₀, salt, new, hin, rfl, hemail, hhash⟩
      have hvalid := valid_of_registered P secret s₀ es hin
      have hne : normalize p cred.email ≠ "" := by
        rw [hemail]
        exact validEmail_ne_empty hvalid.email
      have hmem := (husers _).2 ⟨cred₀, salt, new, hin, rfl⟩
      have hselect := selectUserByEmail_of_mem hmem (by simpa using hvalid.isText)
      rw [newUser_email] at hselect
      rw [login_eq hne hpassword, hemail, hselect]
      simp only [newUser_id, newUser_passwordHash, hhash, if_true]
  · intro cred now hne hpassword hnone
    simp only [handle]
    rw [login_eq hne hpassword]
    cases hselect : selectUserByEmail (normalize p cred.email)
      ((server α p P secret).final s₀ es).backend.db with
    | error e => rfl
    | ok u =>
      obtain ⟨hu, hemail⟩ := selectUserByEmail_ok hselect
      obtain ⟨cred₀, salt, new, hin, rfl⟩ := (husers u).1 hu
      exact if_neg fun hhash => hnone cred₀ salt new hin ⟨hemail.symm, hhash⟩
  · intro cred salt new hvalid hhash hfresh
    simp only [handle]
    rw [signup_of_valid hvalid hhash]
    constructor
    · rintro ⟨cred₀, salt₀, new₀, hin, hemail⟩
      exact if_pos ⟨_, (husers _).2 ⟨cred₀, salt₀, new₀, hin, rfl⟩, .inr hemail.symm⟩
    · intro hfree
      refine if_neg ?_
      rintro ⟨u, hu, hclash⟩
      obtain ⟨cred₀, salt₀, new₀, hin, rfl⟩ := (husers u).1 hu
      rcases hclash with hid | hemail
      · exact hfresh cred₀ salt₀ new₀ hin hid.symm
      · exact hfree cred₀ salt₀ new₀ hin hemail.symm

theorem membership_new_user : Membership ℚ plainLibs .past "secret" ⟨⟨.empty, 0⟩, .empty, .zero⟩
    [.route newSignup, .route (.login (some sameCredentials) 0)] :=
  membership ℚ plainLibs .past "secret" ⟨⟨.empty, 0⟩, .empty, .zero⟩ rfl _

end Api

end ShardLeak
