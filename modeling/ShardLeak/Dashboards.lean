/-
# Users do not see each other

The requests behind `JWTAuth` of one user are answered as if nobody else used the server: what a
user sees of the tables are the rows with the user's own id, and no request of anybody else touches
them.  The uniqueness constraints on ids and hashes are the one thing that users share, so the ids
and hashes that the system makes for the user have to differ from those of the others.

The proof is a simulation between the run of all requests and the run of the user's own.  The two
states have the same rows of this user, and may differ in all others (`Own`); a request of
somebody else moves the first state only and leaves the relation as it is, and a request of the
user moves both and is answered alike, since its statement reads the rows of the user.

An insertion is the exception, because a uniqueness constraint reads all rows.  The new id and the
new hash are therefore required to be different from those of the others, in the tables and in the
run (`Apart`).
-/
import ShardLeak.Api.Agreement
import ShardLeak.Api.Site
import ShardLeak.Configs

namespace ShardLeak

namespace Api

open Go Lua Postgres RateLimit Redis Store

/-! ## The requests of a user -/

/-- A request behind `JWTAuth` that passes as the user `u`. -/
def Endpoint.By (p : Libs) (secret u : String) : Endpoint → Prop
  | .route (.guarded auth now _) => callerOf p secret auth now = some u
  | _ => False

instance (p : Libs) (secret u : String) : DecidablePred (Endpoint.By p secret u)
  | .route (.guarded auth now _) =>
    inferInstanceAs (Decidable (callerOf p secret auth now = some u))
  | .route (.signup _ _ _) | .route (.login _ _) | .badRequest | .preflight | .notFound
  | .methodNotAllowed | .health | .ready _ _ | .metrics | .check _ => .isFalse id

/-- The id and the hash of the key that a request may create. -/
def newKeyOf (p : Libs) : Endpoint → Option (String × String)
  | .route (.guarded _ _ (.createAPIKey _ (some bytes) new)) =>
    some (new.id, p.hashAPIKey (plaintextOf bytes))
  | _ => none

/-- The id of the configuration that a request may create. -/
def newConfigOf : Endpoint → Option String
  | .route (.guarded _ _ (.createLimit _ new)) => some new.id
  | _ => none

variable {p : Libs} {secret u : String}

/-- The ids and hashes of the keys that the user creates differ from those of all others. -/
def KeysApart (p : Libs) (secret u : String) (db : Database) (es : List Endpoint) : Prop :=
  ∀ e ∈ es, e.By p secret u → ∀ d ∈ newKeyOf p e,
    (∀ k ∈ db.apiKeys.rows, k.userID ≠ u → k.id ≠ d.1 ∧ k.keyHash ≠ d.2) ∧
    ∀ e' ∈ es, ¬ e'.By p secret u → ∀ d' ∈ newKeyOf p e', d'.1 ≠ d.1 ∧ d'.2 ≠ d.2

/-- The ids of the configurations that the user creates differ from those of all others. -/
def ConfigsApart (p : Libs) (secret u : String) (db : Database) (es : List Endpoint) : Prop :=
  ∀ e ∈ es, e.By p secret u → ∀ id ∈ newConfigOf e,
    (∀ c ∈ db.limitConfigs.rows, c.userID ≠ u → c.id ≠ id) ∧
    ∀ e' ∈ es, ¬ e'.By p secret u → ∀ id' ∈ newConfigOf e', id' ≠ id

/-- The ids and hashes that the system makes for the user differ from those of all others. -/
structure Apart (p : Libs) (secret u : String) (db : Database) (es : List Endpoint) : Prop where
  keys : KeysApart p secret u db es
  configs : ConfigsApart p secret u db es

instance (db : Database) (es : List Endpoint) : Decidable (KeysApart p secret u db es) :=
  inferInstanceAs (Decidable (∀ _ ∈ _, _ → ∀ _ ∈ _, _ ∧ _))

instance (db : Database) (es : List Endpoint) : Decidable (ConfigsApart p secret u db es) :=
  inferInstanceAs (Decidable (∀ _ ∈ _, _ → ∀ _ ∈ _, _ ∧ _))

/-! ## What the user sees of the tables -/

/-- The user's rows are the same; those of the others clash with nothing that is made for the
user. -/
structure Own (u : String) (K : Set (String × String)) (C : Set String) (db db' : Database) :
    Prop where
  user : ∃ r ∈ db.users.rows, r ∈ db'.users.rows ∧ r.id = u
  apiKeys : (db.apiKeys.rows.filter fun k => k.userID = u) =
    db'.apiKeys.rows.filter fun k => k.userID = u
  limitConfigs : (db.limitConfigs.rows.filter fun c => c.userID = u) =
    db'.limitConfigs.rows.filter fun c => c.userID = u
  keysApart : ∀ k, k ∈ db.apiKeys.rows ∨ k ∈ db'.apiKeys.rows → k.userID ≠ u →
    ∀ d ∈ K, k.id ≠ d.1 ∧ k.keyHash ≠ d.2
  configsApart : ∀ c, c ∈ db.limitConfigs.rows ∨ c ∈ db'.limitConfigs.rows → c.userID ≠ u →
    c.id ∉ C

section Rows

variable {ρ : Type} {rows rows' : List ρ} {own q : ρ → Bool}

lemma find?_of_own (h : rows.filter own = rows'.filter own) (hq : ∀ r, q r = true → own r = true) :
    rows.find? q = rows'.find? q := by
  have hfilter : ∀ l : List ρ, l.find? q = (l.filter own).find? q := by
    intro l
    rw [List.find?_filter]
    congr 1
    ext r
    cases hr : q r
    · simp
    · simp [hq r hr]
  rw [hfilter rows, hfilter rows', h]

lemma countP_of_own (h : rows.filter own = rows'.filter own)
    (hq : ∀ r, q r = true → own r = true) : rows.countP q = rows'.countP q := by
  have hfilter : ∀ l : List ρ, l.countP q = (l.filter own).countP q := by
    intro l
    rw [List.countP_filter]
    congr 1
    ext r
    cases hr : q r
    · simp
    · simp [hq r hr]
  rw [hfilter rows, hfilter rows', h]

end Rows

/-! ## The requests of the others -/

section Others

variable {K : Set (String × String)} {C : Set String} {db db' db₁ : Database} {v : String}

/-- A row of somebody else changes nothing of the user's rows. -/
lemma filter_cons_of_other {ρ : Type} {owner : ρ → String} {r : ρ} {rows rows' : List ρ}
    (hrows : rows' = r :: rows) (hr : owner r ≠ u) :
    (rows'.filter fun r => owner r = u) = rows.filter fun r => owner r = u := by
  rw [hrows, List.filter_cons, decide_eq_false hr]
  rfl

/-- A revocation marks the rows of a user among all rows. -/
lemma filter_map_revokeRow (id v : String) (now : ℤ) (rows : List APIKey) :
    ((rows.map (revokeRow id v now)).filter fun k => k.userID = u) =
      (rows.filter fun k => k.userID = u).map (revokeRow id v now) := by
  have hown : ((fun k : APIKey => decide (k.userID = u)) ∘ revokeRow id v now) =
      fun k : APIKey => decide (k.userID = u) := by
    funext k
    simp only [Function.comp_apply, (revokeRow_fields id v now k).2.1]
  rw [List.filter_map, hown]

lemma filter_revokeRow_of_other (hv : v ≠ u) (id : String) (now : ℤ) (rows : List APIKey) :
    ((rows.map (revokeRow id v now)).filter fun k => k.userID = u) =
      rows.filter fun k => k.userID = u := by
  rw [filter_map_revokeRow]
  refine (List.map_congr_left fun k hk => if_neg fun hrevocable => ?_).trans (List.map_id _)
  exact hv ((revocable_iff.1 hrevocable).2.1.symm.trans
    (of_decide_eq_true (List.mem_filter.1 hk).2))

lemma filter_delete_of_other (hv : v ≠ u) (id : String) (rows : List LimitConfig) :
    ((rows.filter fun c => !isConfig v id c).filter fun c => c.userID = u) =
      rows.filter fun c => c.userID = u := by
  rw [List.filter_filter]
  apply List.filter_congr
  intro c _
  by_cases hc : c.userID = u
  · have hkeep : isConfig v id c = false := by
      rw [Bool.eq_false_iff]
      exact fun hconfig => hv ((isConfig_iff.1 hconfig).1.symm.trans hc)
    simp [hc, hkeep]
  · simp [hc]

/-- What another user does to the tables, the user does not see. -/
lemma Own.other (h : Own u K C db db') {req : Protected} {reply : Reply}
    (heffect : Effect p db v req reply db₁) (hv : v ≠ u)
    (hkey : ∀ body bytes new, req = .createAPIKey body (some bytes) new →
      ∀ d ∈ K, new.id ≠ d.1 ∧ p.hashAPIKey (plaintextOf bytes) ≠ d.2)
    (hconfig : ∀ body new, req = .createLimit body new → new.id ∉ C) : Own u K C db₁ db' := by
  cases heffect with
  | none => exact h
  | @createdKey name bytes new t hname huser hfree ht =>
    refine ⟨h.user, (filter_cons_of_other ht hv).trans h.apiKeys, h.limitConfigs, ?_,
      h.configsApart⟩
    rintro k (hk | hk) hother
    · rcases List.mem_cons.1 (ht ▸ hk) with rfl | hk
      · exact hkey _ bytes new rfl
      · exact h.keysApart k (.inl hk) hother
    · exact h.keysApart k (.inr hk) hother
  | @revokedKey param now id hid hrow =>
    refine ⟨h.user, ?_, h.limitConfigs, ?_, h.configsApart⟩
    · exact (filter_revokeRow_of_other hv id now db.apiKeys.rows).trans h.apiKeys
    · rintro k (hk | hk) hother
      · obtain ⟨k, hold, rfl⟩ := List.mem_map.1 hk
        obtain ⟨hkid, hkuser, hkhash, -⟩ := revokeRow_fields id v now k
        rw [hkuser] at hother
        rw [hkid, hkhash]
        exact h.keysApart k (.inl hold) hother
      · exact h.keysApart k (.inr hk) hother
  | @createdLimit req new t hvalid huser hfree ht =>
    refine ⟨h.user, h.apiKeys, (filter_cons_of_other ht hv).trans h.limitConfigs, h.keysApart, ?_⟩
    rintro c (hc | hc) hother
    · rcases List.mem_cons.1 (ht ▸ hc) with rfl | hc
      · exact hconfig _ new rfl
      · exact h.configsApart c (.inl hc) hother
    · exact h.configsApart c (.inr hc) hother
  | @deletedLimit param id hid hrow =>
    refine ⟨h.user, h.apiKeys, ?_, h.keysApart, ?_⟩
    · exact (filter_delete_of_other hv id db.limitConfigs.rows).trans h.limitConfigs
    · rintro c (hc | hc) hother
      · exact h.configsApart c (.inl (List.mem_of_mem_filter hc)) hother
      · exact h.configsApart c (.inr hc) hother

end Others

/-! ## The requests of the user -/

section Self

variable {K : Set (String × String)} {C : Set String} {db db' : Database} {userID : String}

/-- The user's own rows decide whether a row clashes that no other row clashes with. -/
lemma exists_clash_iff {ρ : Type} {clash : ρ → ρ → Prop} {own : ρ → Bool} {r : ρ}
    {rows rows' : List ρ} (h : rows.filter own = rows'.filter own)
    (hother : ∀ a, a ∈ rows ∨ a ∈ rows' → ¬ own a = true → ¬ clash r a) :
    (∃ a ∈ rows, clash r a) ↔ ∃ a ∈ rows', clash r a := by
  have hmem : ∀ a, a ∈ rows ∧ own a = true ↔ a ∈ rows' ∧ own a = true := by
    intro a
    rw [← List.mem_filter, ← List.mem_filter, h]
  constructor
  · rintro ⟨a, ha, hclash⟩
    have hown : own a = true := not_not.1 fun hn => hother a (.inl ha) hn hclash
    exact ⟨a, ((hmem a).1 ⟨ha, hown⟩).1, hclash⟩
  · rintro ⟨a, ha, hclash⟩
    have hown : own a = true := not_not.1 fun hn => hother a (.inr ha) hn hclash
    exact ⟨a, ((hmem a).2 ⟨ha, hown⟩).1, hclash⟩

/-- The insertion of a row of the user, into a table of which the user sees the same. -/
lemma insertRow_agree {ρ δ : Type} {clash : ρ → ρ → Prop} [DecidableRel clash]
    {R : Database → Database → Prop} {f : ρ → δ} {r : ρ} {t t' : Table ρ clash} {own : ρ → Bool}
    (h : t.rows.filter own = t'.rows.filter own)
    (hother : ∀ a, a ∈ t.rows ∨ a ∈ t'.rows → ¬ own a = true → ¬ clash r a)
    {g g' : Table ρ clash → Except PgxError (ρ × Database)}
    (hnext : ∀ t₁ t₁', t₁.rows = r :: t.rows → t₁'.rows = r :: t'.rows →
      WritesAlike R f (g t₁) (g' t₁')) :
    WritesAlike R f (insertRow r t >>= g) (insertRow r t' >>= g') := by
  rcases insertRow_cases r t with ⟨hclash, hrow⟩ | ⟨hfree, t₁, ht, hrow⟩
  · rcases insertRow_cases r t' with ⟨-, hrow'⟩ | ⟨hfree', -⟩
    · rw [bind_error hrow, bind_error hrow']
      exact .error _
    · obtain ⟨a, ha, hc⟩ := (exists_clash_iff h hother).1 hclash
      exact absurd hc (hfree' a ha)
  · rcases insertRow_cases r t' with ⟨hclash', -⟩ | ⟨-, t₁', ht', hrow'⟩
    · obtain ⟨a, ha, hc⟩ := (exists_clash_iff h hother).2 hclash'
      exact absurd hc (hfree a ha)
    · rw [bind_ok hrow, bind_ok hrow']
      exact hnext t₁ t₁' ht ht'

lemma filter_cons_congr {ρ : Type} {own : ρ → Bool} {r : ρ} {rows rows' rows₁ rows₁' : List ρ}
    (h : rows.filter own = rows'.filter own) (h₁ : rows₁ = r :: rows) (h₁' : rows₁' = r :: rows') :
    rows₁.filter own = rows₁'.filter own := by
  rw [h₁, h₁', List.filter_cons, List.filter_cons, h]

lemma mem_of_ne {ρ : Type} {r a : ρ} {rows rows' rows₁ rows₁' : List ρ} (h₁ : rows₁ = r :: rows)
    (h₁' : rows₁' = r :: rows') (ha : a ∈ rows₁ ∨ a ∈ rows₁') (hne : a ≠ r) :
    a ∈ rows ∨ a ∈ rows' := by
  rw [h₁, h₁'] at ha
  exact ha.imp (fun h => (List.mem_cons.1 h).resolve_left hne)
    fun h => (List.mem_cons.1 h).resolve_left hne

lemma Own.references (h : Own u K C db db') :
    referencesUser u db = .ok () ∧ referencesUser u db' = .ok () := by
  obtain ⟨r, hr, hr', hid⟩ := h.user
  exact ⟨referencesUser_of_mem ⟨r, hr, hid⟩, referencesUser_of_mem ⟨r, hr', hid⟩⟩

lemma Own.insertAPIKey (h : Own u K C db db') (hu : p.uuid userID = some u) {keyHash : String}
    (name : String) {new : Defaults} (hK : (new.id, keyHash) ∈ K) :
    WritesAlike (Own u K C) APIKey.shown (insertAPIKey p.uuid userID keyHash name new db)
      (Postgres.insertAPIKey p.uuid userID keyHash name new db') := by
  unfold Postgres.insertAPIKey
  refine .bind _ fun v hv => .bind _ fun hash hhash => .bind _ fun n hn => ?_
  obtain rfl := Option.some.inj (hu.symm.trans (uuidParam_eq_ok.1 hv))
  obtain ⟨-, rfl⟩ := textParam_eq_ok.1 hhash
  refine insertRow_agree h.apiKeys ?_ fun t t' ht ht' => ?_
  · intro k hk hother hclash
    obtain ⟨hid, hkey⟩ := h.keysApart k hk (by simpa using hother) _ hK
    rcases hclash with hclash | hclash
    · exact hid hclash.symm
    · exact hkey hclash.symm
  · obtain ⟨href, href'⟩ := h.references
    rw [bind_ok href, bind_ok href']
    refine .ok rfl ⟨h.user, filter_cons_congr h.apiKeys ht ht', h.limitConfigs, ?_,
      h.configsApart⟩
    intro k hk hother
    exact h.keysApart k (mem_of_ne ht ht' hk (by rintro rfl; exact hother rfl)) hother

lemma Own.insertLimitConfig (h : Own u K C db db') (hu : p.uuid userID = some u)
    (identifier algorithm : String) (limit windowSeconds : ℤ) {new : Defaults}
    (hC : new.id ∈ C) :
    WritesAlike (Own u K C) (fun n => n)
      (insertLimitConfig p.uuid userID identifier algorithm limit windowSeconds new db)
      (Postgres.insertLimitConfig p.uuid userID identifier algorithm limit windowSeconds new
        db') := by
  unfold Postgres.insertLimitConfig
  refine .bind _ fun l _ => .bind _ fun w _ => .bind _ fun v hv => .bind _ fun i _ =>
    .bind _ fun a _ => .bind _ fun _ _ => ?_
  obtain rfl := Option.some.inj (hu.symm.trans (uuidParam_eq_ok.1 hv))
  refine insertRow_agree h.limitConfigs ?_ fun t t' ht ht' => ?_
  · rintro c hc hother (hclash | ⟨hclash, -⟩)
    · exact h.configsApart c hc (by simpa using hother) (hclash ▸ hC)
    · exact hother (by simpa using hclash.symm)
  · obtain ⟨href, href'⟩ := h.references
    rw [bind_ok href, bind_ok href']
    refine .ok rfl ⟨h.user, h.apiKeys, filter_cons_congr h.limitConfigs ht ht', h.keysApart, ?_⟩
    intro c hc hother
    exact h.configsApart c (mem_of_ne ht ht' hc (by rintro rfl; exact hother rfl)) hother

lemma Own.updateAPIKey (h : Own u K C db db') (hu : p.uuid userID = some u) (id : Bytes)
    (now : ℤ) :
    WritesAlike (Own u K C) (fun n => n) (updateAPIKey p.uuid id userID now db)
      (Postgres.updateAPIKey p.uuid id userID now db') := by
  unfold Postgres.updateAPIKey
  refine .bind _ fun s _ => .bind _ fun id _ => .bind _ fun v hv => ?_
  obtain rfl := Option.some.inj (hu.symm.trans (uuidParam_eq_ok.1 hv))
  have hown : ∀ k : APIKey, revocable id u k = true → decide (k.userID = u) = true := fun k hk =>
    decide_eq_true (revocable_iff.1 hk).2.1
  refine .ok (countP_of_own h.apiKeys hown) ⟨h.user, ?_, h.limitConfigs, ?_, h.configsApart⟩
  · rw [Table.update_rows, Table.update_rows, filter_map_revokeRow, filter_map_revokeRow, h.apiKeys]
  · have hstep : ∀ k, k.userID ≠ u → ∀ t : Table APIKey APIKeyClash,
        k ∈ (t.update (revokeRow id u now) revokeRow_clash).rows → k ∈ t.rows := by
      intro k hother t hk
      obtain ⟨k₀, hk₀, rfl⟩ := List.mem_map.1 hk
      rw [(revokeRow_fields id u now k₀).2.1] at hother
      rwa [revokeRow, if_neg fun hrevocable => hother (revocable_iff.1 hrevocable).2.1]
    intro k hk hother
    exact h.keysApart k (hk.imp (hstep k hother _) (hstep k hother _)) hother

lemma Own.deleteLimitConfig (h : Own u K C db db') (hu : p.uuid userID = some u)
    (param : Bytes) :
    WritesAlike (Own u K C) (fun n => n) (deleteLimitConfig p.uuid userID param db)
      (Postgres.deleteLimitConfig p.uuid userID param db') := by
  unfold Postgres.deleteLimitConfig
  refine .bind _ fun v hv => .bind _ fun id _ => ?_
  obtain rfl := Option.some.inj (hu.symm.trans (uuidParam_eq_ok.1 hv))
  have hown : ∀ c : LimitConfig, isConfig u id c = true → decide (c.userID = u) = true :=
    fun c hc => decide_eq_true (isConfig_iff.1 hc).1
  refine .ok (countP_of_own h.limitConfigs hown) ⟨h.user, h.apiKeys, ?_, h.keysApart, ?_⟩
  · have hcomm : ∀ rows : List LimitConfig,
        ((rows.filter fun c => !isConfig u id c).filter fun c => c.userID = u) =
          (rows.filter fun c => c.userID = u).filter fun c => !isConfig u id c := by
      intro rows
      rw [List.filter_filter, List.filter_filter]
      exact List.filter_congr fun c _ => Bool.and_comm _ _
    exact (hcomm _).trans ((congrArg _ h.limitConfigs).trans (hcomm _).symm)
  · intro c hc hother
    exact h.configsApart c (hc.imp List.mem_of_mem_filter List.mem_of_mem_filter) hother

lemma Own.agrees (h : Own u K C db db') (hu : p.uuid userID = some u) {req : Protected}
    (hK : ∀ body bytes new, req = .createAPIKey body (some bytes) new →
      (new.id, p.hashAPIKey (plaintextOf bytes)) ∈ K)
    (hC : ∀ body new, req = .createLimit body new → new.id ∈ C) :
    Agrees p p userID (Own u K C) db db' req := by
  cases req with
  | me =>
    obtain ⟨r, hr, hr', hid⟩ := h.user
    have hfind : ∀ t : Table User User.Clash, r ∈ t.rows →
        t.rows.find? (fun r => r.id = u) = some r := by
      intro t hrow
      rw [Table.find?_eq_some_iff fun a b ha hb => .inl
        ((of_decide_eq_true ha).trans (of_decide_eq_true hb).symm)]
      exact ⟨hrow, by simp [hid]⟩
    simp only [Agrees, selectUserByID]
    rw [bind_ok (uuidParam_of_some hu), bind_ok (uuidParam_of_some hu), hfind _ hr, hfind _ hr']
  | createAPIKey body random new =>
    rintro name bytes rfl rfl
    exact h.insertAPIKey hu name (hK _ bytes new rfl)
  | listAPIKeys =>
    simp only [Agrees, selectAPIKeys]
    rw [bind_ok (uuidParam_of_some hu), bind_ok (uuidParam_of_some hu), Table.select,
      Table.select, h.apiKeys]
  | revokeAPIKey id now => exact h.updateAPIKey hu id now
  | createLimit body new =>
    rintro req rfl
    exact h.insertLimitConfig hu _ _ _ _ (hC _ new rfl)
  | listLimits =>
    simp only [Agrees, selectLimitConfigs]
    rw [bind_ok (uuidParam_of_some hu), bind_ok (uuidParam_of_some hu), Table.select,
      Table.select, h.limitConfigs]
  | getLimit param =>
    simp only [Agrees, selectLimitConfig]
    rw [bind_ok (uuidParam_of_some hu), bind_ok (uuidParam_of_some hu)]
    cases bytesParam param with
    | error e => rfl
    | ok id =>
      have hfind := find?_of_own h.limitConfigs (q := isConfig u id) fun c hc =>
        decide_eq_true (isConfig_iff.1 hc).1
      exact congrArg oneRow hfind
  | deleteLimit param => exact h.deleteLimitConfig hu param

end Self

/-! ## Runs -/

section Runs

variable {α : Type} [Number α] {P : Expiry} {s t : KeyState α} {es : List Endpoint}

/-- What is made for the user in a run. -/
def keysMadeFor (p : Libs) (secret u : String) (es : List Endpoint) : Set (String × String) :=
  {d | ∃ e ∈ es, e.By p secret u ∧ newKeyOf p e = some d}

def configsMadeFor (p : Libs) (secret u : String) (es : List Endpoint) : Set String :=
  {id | ∃ e ∈ es, e.By p secret u ∧ newConfigOf e = some id}

omit [Number α] in
lemma Apart.own (h : Apart p secret u s.backend.db es) (huser : UserExists s.backend.db u) :
    Own u (keysMadeFor p secret u es) (configsMadeFor p secret u es) s.backend.db s.backend.db where
  user := by
    obtain ⟨r, hr, hid⟩ := huser
    exact ⟨r, hr, hr, hid⟩
  apiKeys := rfl
  limitConfigs := rfl
  keysApart := by
    rintro k hk hother d ⟨e, he, hby, hd⟩
    exact (h.keys e he hby d hd).1 k (hk.elim id id) hother
  configsApart := by
    rintro c hc hother ⟨e, he, hby, hd⟩
    exact (h.configs e he hby c.id hd).1 c (hc.elim id id) hother rfl

lemma Own.step_other {db : Database} (hapart : Apart p secret u db es)
    (h : Own u (keysMadeFor p secret u es) (configsMadeFor p secret u es) s.backend.db
      t.backend.db) {e : Endpoint} (he : e ∈ es) (hother : ¬ e.By p secret u) :
    Own u (keysMadeFor p secret u es) (configsMadeFor p secret u es)
      (serve p P secret s e).2.backend.db t.backend.db := by
  cases e with
  | route r =>
    have heffect := handle_effect p secret s.backend r
    simp only [serve]
    generalize (handle p secret s.backend r).1 = reply at heffect
    generalize (handle p secret s.backend r).2.db = db₁ at heffect
    cases heffect with
    | none => exact h
    | signedUp hvalid hfree ht =>
      obtain ⟨r, hr, hr', hid⟩ := h.user
      exact ⟨⟨r, ht ▸ .tail _ hr, hr', hid⟩, h.apiKeys, h.limitConfigs, h.keysApart,
        h.configsApart⟩
    | @byCaller auth now req reply db' v hcaller heffect =>
      have hv : v ≠ u := by
        rintro rfl
        exact hother hcaller
      refine h.other heffect hv ?_ ?_
      · rintro body bytes new rfl d ⟨e, hmem, hby, hd⟩
        exact (hapart.keys e hmem hby d hd).2 _ he hother _ rfl
      · rintro body new rfl ⟨e, hmem, hby, hd⟩
        exact (hapart.configs e hmem hby new.id hd).2 _ he hother _ rfl rfl
  | _ => exact h

lemma Own.step_self
    (h : Own u (keysMadeFor p secret u es) (configsMadeFor p secret u es) s.backend.db
      t.backend.db) {e : Endpoint} (he : e ∈ es) (hby : e.By p secret u) :
    (serve p P secret s e).1 = (serve p P secret t e).1 ∧
      Own u (keysMadeFor p secret u es) (configsMadeFor p secret u es)
        (serve p P secret s e).2.backend.db (serve p P secret t e).2.backend.db := by
  match e, he, hby with
  | .route (.guarded auth now req), he, hby =>
    have hcaller : callerOf p secret auth now = some u := hby
    obtain ⟨userID, hsubject, hu⟩ := Option.bind_eq_some_iff.1 hcaller
    have hsubject := (Option.filter_eq_some_iff.1 hsubject).1
    have hrun : ∀ b, handle p secret b (.guarded auth now req) = req.handler p (some userID) b := by
      intro b
      rcases jwtAuth_eq secret (req.handler p) auth now b with ⟨hnone, -⟩ | ⟨v, hv, hrun⟩
      · rw [hsubject] at hnone
        cases hnone
      · obtain rfl := Option.some.inj (hsubject.symm.trans hv)
        exact hrun
    have hagrees : Agrees p p userID _ s.backend.db t.backend.db req :=
      h.agrees hu (fun body bytes new hreq => ⟨_, he, hby, by rw [hreq]; rfl⟩)
        fun body new hreq => ⟨_, he, hby, by rw [hreq]; rfl⟩
    have hown : Own u (keysMadeFor p secret u es) (configsMadeFor p secret u es)
        s.backend.db t.backend.db := h
    obtain ⟨hreply, hown⟩ := handler_agree hown rfl hagrees
    simp only [serve, hrun]
    exact ⟨congrArg Answer.reply hreply, hown⟩

/-- **Users do not see each other.**  Run the server from any state in which a user exists, and let
the ids and hashes that the system makes for the user differ from those of the others.  Then the
requests behind `JWTAuth` of this user are answered as in a run in which nobody else makes
requests. -/
theorem dashboards_isolated (α : Type) [Number α] (p : Libs) (P : Expiry) (secret u : String)
    (s : KeyState α) (es : List Endpoint) (huser : UserExists s.backend.db u)
    (hapart : Apart p secret u s.backend.db es) :
    ((server α p P secret).log s es).filter (fun e => e.1.By p secret u) =
      (server α p P secret).log s (es.filter (Endpoint.By p secret u)) := by
  have hinv : ∀ e ∈ es, ∀ s t : KeyState α,
      Own u (keysMadeFor p secret u es) (configsMadeFor p secret u es) s.backend.db t.backend.db →
      ¬ e.By p secret u →
      Own u (keysMadeFor p secret u es) (configsMadeFor p secret u es)
        ((server α p P secret).step s e).2.backend.db t.backend.db :=
    fun e he s t h hother => h.step_other hapart he hother
  have hvis : ∀ e ∈ es, ∀ s t : KeyState α,
      Own u (keysMadeFor p secret u es) (configsMadeFor p secret u es) s.backend.db t.backend.db →
      e.By p secret u → ((server α p P secret).step s e).1 = ((server α p P secret).step t e).1 ∧
        Own u (keysMadeFor p secret u es) (configsMadeFor p secret u es)
          ((server α p P secret).step s e).2.backend.db
          ((server α p P secret).step t e).2.backend.db :=
    fun e he s t h hby => h.step_self he hby
  exact (server α p P secret).log_filter hinv hvis (hapart.own huser)

end Runs

/-- A request of a user with a token of the first second. -/
def asUser (userID : String) (req : Protected) : Endpoint :=
  .route (.guarded (.bearer (createToken userID "secret" 0)) second req)

/-- Bob configures the identifier that Alice configures, and creates a key before she lists
hers. -/
def bothAtWork : List Endpoint :=
  [asUser bob (.createLimit (some ⟨"user:1", "fixed_window", 5, 1⟩) ⟨"a", 2⟩),
    asUser alice (.createLimit (some ⟨"user:1", "token_bucket", 10, 60⟩) ⟨"b", 3⟩),
    asUser bob (.createAPIKey (some ⟨"laptop"⟩) (some [7]) ⟨"c", 4⟩),
    asUser alice (.createAPIKey (some ⟨"laptop"⟩) (some [8]) ⟨"d", 5⟩),
    asUser alice .listAPIKeys, asUser bob (.deleteLimit (utf8 "user:1")), asUser alice .listLimits]

theorem dashboards_isolated_both :
    ((server ℚ plainLibs .past "secret").log ⟨twoUsers, .empty, .zero⟩ bothAtWork).filter
        (fun e => e.1.By plainLibs "secret" alice) =
      (server ℚ plainLibs .past "secret").log ⟨twoUsers, .empty, .zero⟩
        (bothAtWork.filter (Endpoint.By plainLibs "secret" alice)) :=
  dashboards_isolated ℚ plainLibs .past "secret" alice ⟨twoUsers, .empty, .zero⟩ bothAtWork
    ⟨_, .head _, rfl⟩ ⟨by decide +kernel, by decide +kernel⟩

end Api

end ShardLeak
