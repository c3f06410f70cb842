/-
# Every user has a map of configurations

The configurations of all users are in one table.  To each user the table is a private map from
identifiers to configurations: whatever the other users do, the answers of the handlers are those
of the map.

The map of a user is read off the table (`view`), and `MapStep` says what each request is answered
for a given map, and what it does to it.  A request of a user is then a step of the user's map,
and leaves the maps of all others as they are (`Steps`); the runs of the maps follow by induction.
As a map determines its answers, the requests of the other users can be left out without being
noticed.

The order in which a list is returned is that of the creation times.  It is determined if no two
rows are created at one time, and the ids of new rows have to differ; `Fresh` is this condition,
on the rows and on those still to come.
-/
import ShardLeak.Api.Dashboard
import ShardLeak.Lib.Machine

namespace ShardLeak

namespace Api

open Go Postgres Store

/-! ## The handlers as a machine -/

/-- A request to `LimitsHandler`: a body, with the defaults of a new row, or a path parameter. -/
inductive LimitsRequest where
  | create (req : CreateLimitRequest) (new : Defaults)
  | get (identifier : Bytes)
  | list
  | delete (identifier : Bytes)
deriving DecidableEq

/-- A request of a user. -/
structure LimitsCall where
  userID : String
  req : LimitsRequest
deriving DecidableEq

/-- The handler of a request. -/
def LimitsRequest.handler (p : Libs) : LimitsRequest → Handler
  | .create req new => LimitsHandler.create p (some req) new
  | .get identifier => LimitsHandler.get p identifier
  | .list => LimitsHandler.list p
  | .delete identifier => LimitsHandler.delete p identifier

/-- The handlers as a machine on the shared table. -/
def limits (p : Libs) : Machine Backend LimitsCall Reply :=
  ⟨fun b c => c.req.handler p (some c.userID) b⟩

/-! ## The private map -/

/-- A map from identifiers to configurations. -/
abbrev PrivateMap : Type := String → Option LimitConfigResponse

/-- The configuration that a creation adds. -/
def created (req : CreateLimitRequest) (new : Defaults) : LimitConfigResponse :=
  ⟨req.identifier, req.algorithm, req.limit, req.windowSeconds, new.now, new.now⟩

/-- What a map answers to a request, and the map after it. -/
inductive MapStep (m : PrivateMap) : LimitsRequest → Reply → PrivateMap → Prop
  | conflict {req : CreateLimitRequest} {new : Defaults} (h : m req.identifier ≠ none) :
      MapStep m (.create req new)
        (.writeError 409 "CONFLICT" "configuration already exists for this identifier") m
  | created {req : CreateLimitRequest} {new : Defaults} (h : m req.identifier = none) :
      MapStep m (.create req new) ⟨201, .config (created req new)⟩
        (Function.update m req.identifier (some (created req new)))
  | found {param : Bytes} {id : String} {c : LimitConfigResponse} (hid : text? param = some id)
      (h : m id = some c) : MapStep m (.get param) ⟨200, .config c⟩ m
  | missing {param : Bytes} {id : String} (hid : text? param = some id) (h : m id = none) :
      MapStep m (.get param) (.writeError 404 "NOT_FOUND" "configuration not found") m
  | deleted {param : Bytes} {id : String} (hid : text? param = some id) (h : m id ≠ none) :
      MapStep m (.delete param) ⟨200, .status "deleted"⟩ (Function.update m id none)
  | notDeleted {param : Bytes} {id : String} (hid : text? param = some id) (h : m id = none) :
      MapStep m (.delete param) (.writeError 404 "NOT_FOUND" "configuration not found") m
  /-- Every entry once, the newest first. -/
  | listed {l : List LimitConfigResponse} (hmem : ∀ c, c ∈ l ↔ ∃ id, m id = some c)
      (hnewest : l.Pairwise fun c d => d.createdAt < c.createdAt) :
      MapStep m .list ⟨200, .configs l⟩ m

/-- The requests are answered by a map that is at first `m`. -/
def MapRun : PrivateMap → List (LimitsRequest × Reply) → Prop
  | _, [] => True
  | m, (req, reply) :: l => ∃ m', MapStep m req reply m' ∧ MapRun m' l

/-- The requests of the user `u` in a log, with their answers. -/
def seenByUser (u : String) (l : List (LimitsCall × Reply)) : List (LimitsRequest × Reply) :=
  (l.filter fun e => e.1.userID = u).map fun e => (e.1.req, e.2)

/-- A map determines its answers. -/
lemma MapStep.unique {m m₁ m₂ : PrivateMap} {req : LimitsRequest} {r₁ r₂ : Reply}
    (h₁ : MapStep m req r₁ m₁) (h₂ : MapStep m req r₂ m₂) : r₁ = r₂ ∧ m₁ = m₂ := by
  cases h₁ with
  | conflict h =>
    cases h₂ with
    | conflict => exact ⟨rfl, rfl⟩
    | created h' => exact absurd h' h
  | created h =>
    cases h₂ with
    | conflict h' => exact absurd h h'
    | created => exact ⟨rfl, rfl⟩
  | found hid h =>
    cases h₂ with
    | found hid' h' =>
      rw [hid, Option.some.injEq] at hid'
      rw [← hid', h, Option.some.injEq] at h'
      exact ⟨by rw [h'], rfl⟩
    | missing hid' h' =>
      rw [hid, Option.some.injEq] at hid'
      rw [← hid', h] at h'
      cases h'
  | missing hid h =>
    cases h₂ with
    | found hid' h' =>
      rw [hid, Option.some.injEq] at hid'
      rw [← hid', h] at h'
      cases h'
    | missing => exact ⟨rfl, rfl⟩
  | deleted hid h =>
    cases h₂ with
    | deleted hid' h' =>
      rw [hid, Option.some.injEq] at hid'
      exact ⟨rfl, by rw [hid']⟩
    | notDeleted hid' h' =>
      rw [hid, Option.some.injEq] at hid'
      exact absurd (hid' ▸ h') h
  | notDeleted hid h =>
    cases h₂ with
    | deleted hid' h' =>
      rw [hid, Option.some.injEq] at hid'
      exact absurd (hid' ▸ h) h'
    | notDeleted => exact ⟨rfl, rfl⟩
  | listed hmem hnewest =>
    cases h₂ with
    | listed hmem' hnewest' =>
      -- two lists of the same entries in the same order
      refine ⟨?_, rfl⟩
      have hne : ∀ {l : List LimitConfigResponse},
          (l.Pairwise fun c d => d.createdAt < c.createdAt) → l.Nodup := fun h =>
        h.imp fun hlt heq => by rw [heq] at hlt; exact lt_irrefl _ hlt
      have hperm := (List.perm_ext_iff_of_nodup (hne hnewest) (hne hnewest')).2
        fun c => (hmem c).trans (hmem' c).symm
      rw [hperm.eq_of_pairwise (fun _ _ _ _ h h' => absurd h (lt_asymm h')) hnewest hnewest']

lemma MapRun.unique {m : PrivateMap} {l l' : List (LimitsRequest × Reply)} (h : MapRun m l)
    (h' : MapRun m l') (hreq : l.map Prod.fst = l'.map Prod.fst) : l = l' := by
  induction l generalizing m l' with
  | nil => exact (List.map_eq_nil_iff.1 hreq.symm).symm
  | cons e l ih =>
    obtain ⟨req, reply⟩ := e
    cases l' with
    | nil => cases hreq
    | cons e' l' =>
      obtain ⟨req', reply'⟩ := e'
      obtain ⟨m₁, hstep, hrun⟩ := h
      obtain ⟨m₂, hstep', hrun'⟩ := h'
      obtain ⟨rfl, hrest⟩ := List.cons.inj hreq
      obtain ⟨rfl, rfl⟩ := hstep.unique hstep'
      rw [ih hrun hrun' hrest]

/-! ## The table as a map -/

/-- What the user `u` sees of the table. -/
def view (b : Backend) (u : String) : PrivateMap := fun id =>
  (b.db.limitConfigs.rows.find? (isConfig u id)).map limitConfigResponse

variable {p : Libs} {b b' : Backend} {u v id : String} {c : LimitsCall} {es : List LimitsCall}

lemma view_eq_some {r : LimitConfigResponse} : view b u id = some r ↔
    ∃ d ∈ b.db.limitConfigs.rows, isConfig u id d = true ∧ limitConfigResponse d = r := by
  have hfind : ∀ d, b.db.limitConfigs.rows.find? (isConfig u id) = some d ↔
      d ∈ b.db.limitConfigs.rows ∧ isConfig u id d = true := fun d =>
    Table.find?_eq_some_iff fun _ _ => isConfig_clash
  simp only [view, Option.map_eq_some_iff, hfind, and_assoc]

lemma view_ne_none {d : LimitConfig} (hd : d ∈ b.db.limitConfigs.rows) :
    view b d.userID d.identifier = some (limitConfigResponse d) :=
  view_eq_some.2 ⟨d, hd, isConfig_iff.2 ⟨rfl, rfl⟩, rfl⟩

lemma view_insert {r : LimitConfig} (b' : Backend)
    (h : b'.db.limitConfigs.rows = r :: b.db.limitConfigs.rows) (v id : String) :
    view b' v id = if r.userID = v ∧ r.identifier = id then some (limitConfigResponse r)
      else view b v id := by
  rw [view, h, List.find?_cons]
  by_cases hr : r.userID = v ∧ r.identifier = id
  · rw [if_pos hr, isConfig_iff.2 hr]
    rfl
  · rw [if_neg hr, Bool.eq_false_iff.2 (mt isConfig_iff.1 hr)]
    rfl

lemma view_delete {s : String} (b' : Backend)
    (h : b'.db.limitConfigs.rows = b.db.limitConfigs.rows.filter fun r => !isConfig u s r)
    (v id : String) : view b' v id = if v = u ∧ id = s then none else view b v id := by
  rw [view, h, List.find?_filter]
  by_cases hsame : v = u ∧ id = s
  · obtain ⟨rfl, rfl⟩ := hsame
    rw [if_pos ⟨rfl, rfl⟩, Option.map_eq_none_iff, List.find?_eq_none]
    intro r _
    cases isConfig v id r <;> simp
  · rw [if_neg hsame, view]
    congr 2
    ext r
    by_cases hr : isConfig v id r = true
    · -- a row has one user and one identifier
      have hkeep : isConfig u s r = false := by
        rw [Bool.eq_false_iff]
        intro hs
        obtain ⟨hv, hid⟩ := isConfig_iff.1 hr
        obtain ⟨hu, hs⟩ := isConfig_iff.1 hs
        exact hsame ⟨hv.symm.trans hu, hid.symm.trans hs⟩
      simp [hr, hkeep]
    · simp [Bool.eq_false_iff.2 hr]

/-! ## One request -/

/-- The input passes the validation, and the columns can hold it. -/
def LimitsRequest.Valid : LimitsRequest → Prop
  | .create req _ => req.Valid
  | .get param | .delete param => param ≠ [] ∧ IsTextBytes param
  | .list => True

/-- A valid request of an existing user, whose id is in canonical form. -/
structure LimitsCall.Valid (p : Libs) (users : List User) (c : LimitsCall) : Prop where
  exists_user : ∃ r ∈ users, r.id = c.userID
  canonical : p.uuid c.userID = some c.userID
  ne_empty : c.userID ≠ ""
  input : c.req.Valid

/-- The defaults of the rows that the requests may insert. -/
def newRows (es : List LimitsCall) : List Defaults :=
  es.filterMap fun c => match c.req with
    | .create _ new => some new
    | _ => none

/-- Different ids, and different times. -/
def Defaults.Apart (a b : Defaults) : Prop := a.id ≠ b.id ∧ a.now ≠ b.now

/-- The rows were created at different times, and the new ones will be different from them. -/
structure Fresh (b : Backend) (es : List LimitsCall) : Prop where
  times : b.db.limitConfigs.rows.Pairwise fun r s => r.createdAt ≠ s.createdAt
  new : ∀ r ∈ b.db.limitConfigs.rows, ∀ d ∈ newRows es, d.id ≠ r.id ∧ d.now ≠ r.createdAt
  later : (newRows es).Pairwise Defaults.Apart

lemma mem_newRows_cons {d : Defaults} (h : d ∈ newRows es) : d ∈ newRows (c :: es) := by
  obtain ⟨e, he, hd⟩ := List.mem_filterMap.1 h
  exact List.mem_filterMap.2 ⟨e, .tail _ he, hd⟩

lemma newRows_create {req : CreateLimitRequest} {new : Defaults} (hc : c.req = .create req new) :
    newRows (c :: es) = new :: newRows es := by
  simp [newRows, hc]

/-- Rows that stay are fresh for fewer requests. -/
lemma Fresh.sublist (h : Fresh b (c :: es))
    (hrows : b'.db.limitConfigs.rows.Sublist b.db.limitConfigs.rows) : Fresh b' es where
  times := h.times.sublist hrows
  new r hr d hd := h.new r (hrows.subset hr) d (mem_newRows_cons hd)
  later := by
    have hsub : (newRows es).Sublist (newRows (c :: es)) :=
      (List.sublist_cons_self c es).filterMap _
    exact h.later.sublist hsub

lemma Fresh.insert {req : CreateLimitRequest} {new : Defaults} (h : Fresh b (c :: es))
    (hc : c.req = .create req new) {r : LimitConfig} (hid : r.id = new.id)
    (htime : r.createdAt = new.now)
    (hrows : b'.db.limitConfigs.rows = r :: b.db.limitConfigs.rows) : Fresh b' es where
  times := by
    rw [hrows]
    refine .cons (fun s hs => ?_) h.times
    rw [htime]
    exact (h.new s hs new (by rw [newRows_create hc]; exact .head _)).2
  new s hs d hd := by
    rw [hrows, List.mem_cons] at hs
    rcases hs with rfl | hs
    · have hlater := h.later
      rw [newRows_create hc, List.pairwise_cons] at hlater
      obtain ⟨hne, hnow⟩ := hlater.1 d hd
      exact ⟨fun heq => hne (hid.symm.trans heq.symm), fun heq => hnow (htime.symm.trans heq.symm)⟩
    · exact h.new s hs d (mem_newRows_cons hd)
  later := by
    have hlater := h.later
    rw [newRows_create hc, List.pairwise_cons] at hlater
    exact hlater.2

/-- What a request does: its user sees a step of the private map, and nobody else sees
anything. -/
structure Steps (b : Backend) (c : LimitsCall) (es : List LimitsCall) (out : Reply × Backend) :
    Prop where
  own : MapStep (view b c.userID) c.req out.1 (view out.2 c.userID)
  others : ∀ v ≠ c.userID, view out.2 v = view b v
  users : out.2.db.users = b.db.users
  fresh : Fresh out.2 es

lemma Steps.of_same {reply : Reply} (h : Fresh b (c :: es))
    (hown : MapStep (view b c.userID) c.req reply (view b c.userID)) :
    Steps b c es (reply, b) where
  own := hown
  others _ _ := rfl
  users := rfl
  fresh := h.sublist (.refl _)

lemma steps_create {userID : String} {req : CreateLimitRequest} {new : Defaults}
    (hvalid : (LimitsCall.mk userID (.create req new)).Valid p b.db.users.rows)
    (h : Fresh b (⟨userID, .create req new⟩ :: es)) :
    Steps b ⟨userID, .create req new⟩ es ((limits p).step b ⟨userID, .create req new⟩) := by
  obtain ⟨huser, huuid, hne, hinput⟩ := hvalid
  have hnew : ∀ r ∈ b.db.limitConfigs.rows, new.id ≠ r.id := fun r hr =>
    (h.new r hr new (by rw [newRows_create rfl]; exact .head _)).1
  rcases create_of_valid hne huuid huser hinput new with
    ⟨⟨r, hr, hclash⟩, hout⟩ | ⟨hfree, t, ht, hout⟩
  · obtain ⟨rfl, hid⟩ := hclash.resolve_left (hnew r hr)
    have hown : MapStep (view b r.userID) (.create req new) _ (view b r.userID) :=
      .conflict (by rw [hid, view_ne_none hr]; exact nofun)
    rw [show (limits p).step b ⟨r.userID, .create req new⟩ = _ from hout]
    exact .of_same h hown
  · rw [show (limits p).step b ⟨userID, .create req new⟩ = _ from hout]
    have hview := view_insert { b with db := { b.db with limitConfigs := t } } ht
    constructor
    · have hnone : view b userID req.identifier = none := by
        rw [Option.eq_none_iff_forall_ne_some]
        intro r hr
        obtain ⟨d, hd, hconfig, -⟩ := view_eq_some.1 hr
        obtain ⟨hu, hid⟩ := isConfig_iff.1 hconfig
        exact hfree d hd (.inr ⟨hu.symm, hid.symm⟩)
      have hmap : view { b with db := { b.db with limitConfigs := t } } userID =
          Function.update (view b userID) req.identifier (some (created req new)) := by
        ext1 id
        rw [hview userID id]
        by_cases hid : req.identifier = id
        · rw [if_pos ⟨rfl, hid⟩, ← hid, Function.update_self]
          rfl
        · rw [if_neg fun hr => hid hr.2, Function.update_of_ne (Ne.symm hid)]
      rw [hmap]
      exact .created hnone
    · intro v hv
      ext1 id
      rw [hview v id, if_neg fun hr => hv hr.1.symm]
    · rfl
    · exact h.insert rfl rfl rfl ht

lemma steps_get {userID : String} {param : Bytes}
    (hvalid : (LimitsCall.mk userID (.get param)).Valid p b.db.users.rows)
    (h : Fresh b (⟨userID, .get param⟩ :: es)) :
    Steps b ⟨userID, .get param⟩ es ((limits p).step b ⟨userID, .get param⟩) := by
  obtain ⟨-, huuid, hne, hparam, id, hid, htext⟩ := hvalid
  rw [show (limits p).step b ⟨userID, .get param⟩ = _ from
    get_of_text hne huuid hparam hid htext]
  refine .of_same h ?_
  cases hfind : b.db.limitConfigs.rows.find? (isConfig userID id) with
  | none => exact .missing hid (by rw [view, hfind]; rfl)
  | some r => exact .found hid (by rw [view, hfind]; rfl)

lemma steps_list {userID : String}
    (hvalid : (LimitsCall.mk userID .list).Valid p b.db.users.rows)
    (h : Fresh b (⟨userID, .list⟩ :: es)) :
    Steps b ⟨userID, .list⟩ es ((limits p).step b ⟨userID, .list⟩) := by
  obtain ⟨-, huuid, hne, -⟩ := hvalid
  rw [show (limits p).step b ⟨userID, .list⟩ = _ from list_of_uuid hne huuid]
  refine .of_same h (.listed (fun r => ?_) ?_)
  · simp only [List.mem_map, Table.mem_select, decide_eq_true_eq]
    constructor
    · rintro ⟨d, ⟨hd, rfl⟩, rfl⟩
      exact ⟨d.identifier, view_ne_none hd⟩
    · rintro ⟨id, hr⟩
      obtain ⟨d, hd, hconfig, rfl⟩ := view_eq_some.1 hr
      exact ⟨d, ⟨hd, (isConfig_iff.1 hconfig).1⟩, rfl⟩
  · -- in decreasing order, and no two at the same time
    have hsymm : Std.Symm fun r s : LimitConfig => r.createdAt ≠ s.createdAt :=
      ⟨fun _ _ hne heq => hne heq.symm⟩
    rw [List.pairwise_map]
    exact (Table.sorted_select.and (Table.pairwise_select h.times)).imp fun hrs =>
      lt_of_le_of_ne hrs.1 (Ne.symm hrs.2)

lemma steps_delete {userID : String} {param : Bytes}
    (hvalid : (LimitsCall.mk userID (.delete param)).Valid p b.db.users.rows)
    (h : Fresh b (⟨userID, .delete param⟩ :: es)) :
    Steps b ⟨userID, .delete param⟩ es ((limits p).step b ⟨userID, .delete param⟩) := by
  obtain ⟨-, huuid, hne, hparam, id, hid, htext⟩ := hvalid
  rw [show (limits p).step b ⟨userID, .delete param⟩ = _ from
    delete_of_text hne huuid hparam hid htext]
  have hview := view_delete (b := b) { b with db := { b.db with
    limitConfigs := b.db.limitConfigs.delete (isConfig userID id) } } rfl
  constructor
  · have hmap : view { b with db := { b.db with
        limitConfigs := b.db.limitConfigs.delete (isConfig userID id) } } userID =
        Function.update (view b userID) id none := by
      ext1 id'
      rw [hview userID id']
      by_cases hsame : id' = id
      · rw [if_pos ⟨rfl, hsame⟩, hsame, Function.update_self]
      · rw [if_neg fun hr => hsame hr.2, Function.update_of_ne hsame]
    rw [hmap]
    by_cases hsome : ∃ r ∈ b.db.limitConfigs.rows, isConfig userID id r = true
    · obtain ⟨r, hr, hconfig⟩ := hsome
      rw [if_pos ⟨r, hr, hconfig⟩]
      refine .deleted hid ?_
      rw [view_eq_some.2 ⟨r, hr, hconfig, rfl⟩]
      exact nofun
    · have hnone : view b userID id = none := by
        rw [Option.eq_none_iff_forall_ne_some]
        intro r hr
        obtain ⟨d, hd, hconfig, -⟩ := view_eq_some.1 hr
        exact hsome ⟨d, hd, hconfig⟩
      rw [if_neg hsome, Function.update_eq_self_iff.2 hnone.symm]
      exact .notDeleted hid hnone
  · intro v hv
    ext1 id'
    rw [hview v id', if_neg fun hr => hv hr.1]
  · rfl
  · exact h.sublist List.filter_sublist

/-- Every valid request is a step of its user's map, and of nobody else's. -/
lemma steps (hvalid : c.Valid p b.db.users.rows) (h : Fresh b (c :: es)) :
    Steps b c es ((limits p).step b c) := by
  obtain ⟨userID, req⟩ := c
  cases req with
  | create req new => exact steps_create hvalid h
  | get param => exact steps_get hvalid h
  | list => exact steps_list hvalid h
  | delete param => exact steps_delete hvalid h

/-! ## Runs -/

/-- Along a run, the user `u` sees the answers of a map. -/
lemma mapRun_view (u : String) (hvalid : ∀ c ∈ es, c.Valid p b.db.users.rows) (h : Fresh b es) :
    MapRun (view b u) (seenByUser u ((limits p).log b es)) := by
  induction es generalizing b with
  | nil => trivial
  | cons c es ih =>
    have hsteps := steps (hvalid c (.head _)) h
    have hrest : MapRun (view ((limits p).step b c).2 u)
        (seenByUser u ((limits p).log ((limits p).step b c).2 es)) := by
      apply ih _ hsteps.fresh
      rw [hsteps.users]
      exact fun d hd => hvalid d (.tail _ hd)
    rw [Machine.log_cons, seenByUser]
    by_cases hu : c.userID = u
    · subst hu
      simp only [List.filter_cons, decide_true, if_true, List.map_cons]
      exact ⟨_, hsteps.own, hrest⟩
    · simp only [List.filter_cons, hu, decide_false, Bool.false_eq_true, if_false]
      rw [← hsteps.others u (Ne.symm hu)]
      exact hrest

/-- The requests that a user sees do not depend on the state. -/
lemma map_fst_seenByUser (u : String) (b : Backend) (es : List LimitsCall) :
    (seenByUser u ((limits p).log b es)).map Prod.fst =
      (es.filter fun c => c.userID = u).map LimitsCall.req := by
  induction es generalizing b with
  | nil => rfl
  | cons c es ih =>
    rw [Machine.log_cons, seenByUser]
    by_cases hu : c.userID = u
    · simp only [List.filter_cons, hu, decide_true, if_true, List.map_cons]
      exact congrArg _ (ih _)
    · simp only [List.filter_cons, hu, decide_false, Bool.false_eq_true, if_false]
      exact ih _

/-- **Every user sees a private map.**  The answers to the requests of a user are those of a map
that is empty at first, and no request of another user changes them. -/
theorem private_maps (p : Libs) (b : Backend) (es : List LimitsCall)
    (hempty : b.db.limitConfigs.rows = []) (hvalid : ∀ c ∈ es, c.Valid p b.db.users.rows)
    (hapart : (newRows es).Pairwise Defaults.Apart) (u : String) :
    MapRun (fun _ => none) (seenByUser u ((limits p).log b es)) ∧
      seenByUser u ((limits p).log b es) =
        seenByUser u ((limits p).log b (es.filter fun c => c.userID = u)) := by
  have hfresh : ∀ fs : List LimitsCall, fs.Sublist es → Fresh b fs := by
    intro fs hfs
    refine ⟨by rw [hempty]; exact .nil, by rw [hempty]; exact nofun, ?_⟩
    exact hapart.sublist (hfs.filterMap _)
  have hview : view b u = fun _ => none := by
    ext1 id
    rw [view, hempty]
    rfl
  have hfilter : (es.filter fun c => c.userID = u).Sublist es := List.filter_sublist
  have hall := mapRun_view u hvalid (hfresh es (.refl _))
  have hown := mapRun_view u (fun c hc => hvalid c (hfilter.subset hc)) (hfresh _ hfilter)
  rw [hview] at hall hown
  refine ⟨hall, hall.unique hown ?_⟩
  rw [map_fst_seenByUser, map_fst_seenByUser, List.filter_filter]
  simp

/-- Two users. -/
def alice : String := "0d9c1a8e-7c1b-4a55-9c55-1f2e3d4c5b6a"

def bob : String := "3f1b7d60-52c4-4a0e-b8a3-6d5e4c3b2a19"

/-- A database with the two users. -/
def twoUsers : Backend :=
  ⟨{ Database.empty with
      users := ⟨[⟨alice, "alice@example.com", "", 0⟩, ⟨bob, "bob@example.com", "", 1⟩],
        by decide⟩ }, 0⟩

/-- Both users create a configuration for `user:1`, and one of them deletes it. -/
def sameName : List LimitsCall :=
  [⟨alice, .create ⟨"user:1", "token_bucket", 10, 60⟩ ⟨"a", 2⟩⟩,
    ⟨bob, .create ⟨"user:1", "fixed_window", 5, 1⟩ ⟨"b", 3⟩⟩, ⟨bob, .delete (utf8 "user:1")⟩,
    ⟨alice, .list⟩]

lemma sameName_valid : ∀ c ∈ sameName, c.Valid plainLibs twoUsers.db.users.rows := by
  have halice : plainLibs.uuid alice = some alice := by decide +kernel
  have hbob : plainLibs.uuid bob = some bob := by decide +kernel
  simp only [sameName, List.forall_mem_cons]
  refine ⟨?_, ?_, ?_, ?_, nofun⟩
  · exact ⟨⟨_, .head _, rfl⟩, halice, by decide, by decide, by decide, .inl rfl, by decide,
      by decide⟩
  · exact ⟨⟨_, .tail _ (.head _), rfl⟩, hbob, by decide, by decide, by decide, .inr rfl,
      by decide, by decide⟩
  · exact ⟨⟨_, .tail _ (.head _), rfl⟩, hbob, by decide, by decide, "user:1", text?_utf8 _,
      by decide⟩
  · exact ⟨⟨_, .head _, rfl⟩, halice, by decide, trivial⟩

theorem private_maps_same_name :
    MapRun (fun _ => none) (seenByUser alice ((limits plainLibs).log twoUsers sameName)) ∧
      seenByUser alice ((limits plainLibs).log twoUsers sameName) =
        seenByUser alice ((limits plainLibs).log twoUsers
          (sameName.filter fun c => c.userID = alice)) :=
  private_maps plainLibs twoUsers sameName rfl sameName_valid
    (.cons (by simp [Defaults.Apart]) (.cons nofun .nil)) alice

end Api

end ShardLeak
