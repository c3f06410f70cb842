/-
# The page with the configurations

`app/dashboard/limits/page.tsx`.  The page reads the configurations once, when it is opened, and
from then on changes its own copy after every creation and deletion.  As long as nobody else edits
the configurations of its user, and the answers are delivered in the order in which the server gave
them, the copy has the rows of the table.

The page and its server are a session in the sense of `ShardLeak/Lib/Session.lean`.  What has to
be shown is one step: if the copy has the rows of the table and an answer is sent, then the page
that has received it has the rows of the table after it.  An error leaves both as they are, since
a request that is refused changes nothing.

The page trims an identifier before it sends it, and deletes by the identifier that it shows.
Only identifiers that survive the path of a URL can be deleted in this way
(`ShardLeak/Paths.lean`), which is a condition on the calls here.
-/
import ShardLeak.Dashboards
import ShardLeak.Frontend.Client
import ShardLeak.Lib.Session

namespace ShardLeak

namespace Frontend

open Api Go Lua Postgres RateLimit Redis Store

/-! ## The page -/

/-- `String.prototype.trim` removes these. -/
def isTrimmed (c : Char) : Bool :=
  let n := c.toNat
  (9 ≤ n && n ≤ 13) || n == 0x20 || n == 0xa0 || n == 0x1680 || (0x2000 ≤ n && n ≤ 0x200a) ||
    n == 0x2028 || n == 0x2029 || n == 0x202f || n == 0x205f || n == 0x3000 || n == 0xfeff

/-- `String.prototype.trim`. -/
def trim (s : String) : String :=
  String.ofList ((s.toList.dropWhile isTrimmed).reverse.dropWhile isTrimmed).reverse

/-- The state of `LimitsPage`, with the messages of `alert`. -/
structure LimitsPage where
  configs : Listing LimitConfigResponse
  showCreate : Bool
  identifier : String
  algorithm : AlgorithmName
  limit : ℚ
  windowSeconds : ℚ
  formError : String
  creating : Bool
  deleting : Option String
  alerts : List String
deriving DecidableEq

namespace LimitsPage

/-- The page when it is opened. -/
def new : LimitsPage := ⟨.new, false, "", .tokenBucket, 100, 60, "", false, none, []⟩

/-- What the user can do. -/
inductive Action where
  | toggleCreate
  | createFirst
  | setIdentifier (s : String)
  | setAlgorithm (a : AlgorithmName)
  | setLimit (n : ℚ)
  | setWindowSeconds (n : ℚ)
  | create
  | delete (id : String)

/-- `handleCreate`, up to its call. -/
def handleCreate (p : LimitsPage) : LimitsPage × List LimitsCall :=
  if trim p.identifier = "" then ({ p with formError := "Identifier is required." }, [])
  else if p.limit ≤ 0 then ({ p with formError := "Limit must be greater than zero." }, [])
  else if p.windowSeconds ≤ 0 then
    ({ p with formError := "Window must be greater than zero." }, [])
  else ({ p with formError := "", creating := true },
    [.create ⟨trim p.identifier, p.algorithm, p.limit, p.windowSeconds⟩])

/-- The buttons and fields, where they are shown and enabled. -/
def act (p : LimitsPage) : Action → LimitsPage × List LimitsCall
  | .toggleCreate => ({ p with showCreate := !p.showCreate, formError := "" }, [])
  | .createFirst =>
    (if !p.configs.loading ∧ p.configs.rows = [] then { p with showCreate := true } else p, [])
  | .setIdentifier s => (if p.showCreate then { p with identifier := s } else p, [])
  | .setAlgorithm a => (if p.showCreate then { p with algorithm := a } else p, [])
  | .setLimit n => (if p.showCreate then { p with limit := n } else p, [])
  | .setWindowSeconds n => (if p.showCreate then { p with windowSeconds := n } else p, [])
  | .create => if p.showCreate ∧ ¬ p.creating then p.handleCreate else (p, [])
  | .delete id =>
    if ¬ p.configs.loading ∧ (∃ c ∈ p.configs.rows, c.identifier = id) ∧ p.deleting ≠ some id then
      ({ p with deleting := some id }, [.delete id])
    else (p, [])

/-- The field `configs` of a body. -/
def configsOf : Answer → Option (List LimitConfigResponse)
  | .reply ⟨_, .configs cs⟩ => some cs
  | _ => none

/-- A body that is a configuration. -/
def configOf : Answer → Option LimitConfigResponse
  | .reply ⟨_, .config c⟩ => some c
  | _ => none

/-- What a call has established, when it returns: `load`, and the rest of `handleCreate` and
`handleDelete`. -/
def settle (p : LimitsPage) (call : LimitsCall) (answer : Option Answer) : LimitsPage :=
  match call, request answer with
  | .list, o => { p with configs := p.configs.load configsOf o }
  | .create _, .ok a =>
    { p with
      configs := { p.configs with rows := (configOf a).toList ++ p.configs.rows }
      identifier := ""
      limit := 100
      windowSeconds := 60
      algorithm := .tokenBucket
      showCreate := false
      creating := false }
  | .create _, .apiError status _ message =>
    { p with
      formError := if status = 409 then "A configuration for this identifier already exists."
        else message
      creating := false }
  | .create _, .failed _ =>
    { p with formError := "Failed to create configuration.", creating := false }
  | .delete id, .ok _ =>
    { p with
      configs := { p.configs with rows := p.configs.rows.filter fun c => c.identifier ≠ id }
      deleting := none }
  | .delete _, o => { p with alerts := p.alerts ++ [o.message], deleting := none }

/-- The page as a client of the server. -/
def client : Client LimitsPage LimitsCall Answer Action :=
  ⟨act, settle⟩

variable {α : Type} [Number α]

/-- The page and the server. -/
def session (α : Type) [Number α] (L : WebLibs) (P : Expiry) (secret : String) (J : Encoders)
    (token : Option String) :
    Machine (Session LimitsPage LimitsCall Answer (KeyState α))
      (Happening Action System (RawRequest × System)) Unit :=
  Session.machine client (site α L P secret) fun call sys => (call.raw J token, sys)

/-- The page is opened: it sends its first call. -/
def opened (s : KeyState α) : Session LimitsPage LimitsCall Answer (KeyState α) :=
  ⟨.new, [.list], [], s⟩

/-! ## What should hold -/

/-- The configurations of a user. -/
def ownConfigs (u : String) (s : KeyState α) : List LimitConfig :=
  s.backend.db.limitConfigs.rows.filter fun c => c.userID = u

/-- The page has the configurations of the user, once it has loaded them. -/
def Mirrors (u : String) (l : Listing LimitConfigResponse) (s : KeyState α) : Prop :=
  l.Mirrors ((ownConfigs u s).map limitConfigResponse)

/-- The calls of the page are on plain identifiers. -/
def PlainCall : LimitsCall → Prop
  | .delete identifier => Api.Plain identifier
  | _ => True

instance : DecidablePred PlainCall
  | .delete identifier => inferInstanceAs (Decidable (Api.Plain identifier))
  | .list | .create _ => .isTrue trivial

/-- A request that creates or deletes a configuration. -/
def Edits : Endpoint → Bool
  | .route (.guarded _ _ (.createLimit _ _)) => true
  | .route (.guarded _ _ (.deleteLimit _)) => true
  | _ => false

/-- A request of somebody else, or one that does not edit configurations. -/
def Elsewhere (L : WebLibs) (secret u : String) (e : RawRequest × System) : Prop :=
  ¬ ((endpoint L e.1 e.2).By L.toLibs secret u ∧ Edits (endpoint L e.1 e.2) = true)

instance (L : WebLibs) (secret u : String) : DecidablePred (Elsewhere L secret u) := fun _ =>
  inferInstanceAs (Decidable (¬ (_ ∧ _)))

/-! ## What the page does with an answer -/

/-- What an answer changes of the configurations on the page. -/
def follow (l : Listing LimitConfigResponse) (call : LimitsCall) (answer : Option Answer) :
    Listing LimitConfigResponse :=
  match call, request answer with
  | .list, o => l.load configsOf o
  | .create _, .ok a => { l with rows := (configOf a).toList ++ l.rows }
  | .delete id, .ok _ => { l with rows := l.rows.filter fun c => c.identifier ≠ id }
  | _, _ => l

lemma act_configs (p : LimitsPage) (i : Action) : (p.act i).1.configs = p.configs := by
  cases i <;> simp only [act]
  case createFirst | setIdentifier | setAlgorithm | setLimit | setWindowSeconds =>
    split_ifs <;> rfl
  case create =>
    unfold handleCreate
    split_ifs <;> rfl
  case delete =>
    split_ifs <;> rfl

lemma settle_configs (p : LimitsPage) (call : LimitsCall) (answer : Option Answer) :
    (p.settle call answer).configs = follow p.configs call answer := by
  unfold settle follow
  cases call <;> cases request answer <;> rfl

/-- An answer that does not come, or refuses, leaves the configurations on the page as they are, or
tells that they could not be loaded. -/
lemma follow_of_error {l : Listing LimitConfigResponse} {rows : List LimitConfigResponse}
    (call : LimitsCall) {answer : Option Answer} (hl : l.Mirrors rows)
    (hmessage : (request answer).message ≠ "") : (follow l call answer).Mirrors rows := by
  unfold follow
  cases call with
  | list => exact Listing.mirrors_load_of_error _ l hmessage rows
  | create data =>
    cases hout : request answer with
    | ok a => exact absurd (congrArg Outcome.message hout) hmessage
    | apiError status code message => exact hl
    | failed message => exact hl
  | delete id =>
    cases hout : request answer with
    | ok a => exact absurd (congrArg Outcome.message hout) hmessage
    | apiError status code message => exact hl
    | failed message => exact hl

/-! ## What the server does -/

variable {p : Libs} {P : Expiry} {secret u : String}

lemma ownConfigs_elsewhere {s : KeyState α} {e : Endpoint}
    (h : ¬ (e.By p secret u ∧ Edits e = true)) :
    ownConfigs u (serve p P secret s e).2 = ownConfigs u s := by
  cases e with
  | route r =>
    have heffect := handle_effect p secret s.backend r
    simp only [serve, ownConfigs]
    generalize (handle p secret s.backend r).2.db = db at heffect ⊢
    generalize (handle p secret s.backend r).1 = reply at heffect
    cases heffect with
    | none => rfl
    | signedUp => rfl
    | @byCaller auth now req reply db v hcaller heffect =>
      cases heffect with
      | none => rfl
      | createdKey => rfl
      | revokedKey => rfl
      | @createdLimit req new t hvalid huser hfree ht =>
        have hv : v ≠ u := fun hv => h ⟨hv ▸ hcaller, rfl⟩
        exact filter_cons_of_other ht hv
      | @deletedLimit param id hid hrow =>
        have hv : v ≠ u := fun hv => h ⟨hv ▸ hcaller, rfl⟩
        exact filter_delete_of_other hv id s.backend.db.limitConfigs.rows
  | _ => rfl

section Own

variable {L : WebLibs} {token : Option String} {sys : System}

lemma serve_createLimit (htoken : TokenOf L secret u token) (P : Expiry) (s : KeyState α)
    (body : Option CreateLimitRequest) (new : Defaults) :
    let out := serve L.toLibs P secret s (guardedBy L token sys (.createLimit body new))
    (∃ r, Refused r ∧ out.1 = .reply r ∧ ownConfigs u out.2 = ownConfigs u s) ∨
      ∃ c, out.1 = .reply ⟨201, .config (limitConfigResponse c)⟩ ∧
        ownConfigs u out.2 = c :: ownConfigs u s := by
  have hanswer := own_effect htoken s.backend sys.now (.createLimit body new) fun userID hne =>
    createLimit_cases hne body new
  simp only [serve, guardedBy, ownConfigs] at hanswer ⊢
  generalize (handle L.toLibs secret s.backend _).2.db = db at hanswer ⊢
  generalize (handle L.toLibs secret s.backend _).1 = reply at hanswer ⊢
  rcases hanswer with ⟨hrefused, rfl⟩ | ⟨hreports, heffect⟩
  · exact .inl ⟨reply, hrefused, rfl, rfl⟩
  · cases heffect with
    | none h => exact absurd hreports h
    | @createdLimit req _ t _ _ _ ht =>
      refine .inr ⟨rowOf u req new, rfl, ?_⟩
      simp only [ht, List.filter_cons]
      simp [rowOf]

lemma serve_deleteLimit (htoken : TokenOf L secret u token) (P : Expiry) (s : KeyState α)
    (id : String) :
    let out := serve L.toLibs P secret s (guardedBy L token sys (.deleteLimit (utf8 id)))
    (∃ r, Refused r ∧ out.1 = .reply r ∧ ownConfigs u out.2 = ownConfigs u s) ∨
      (out.1 = .reply ⟨200, .status "deleted"⟩ ∧
        ownConfigs u out.2 = (ownConfigs u s).filter fun c => c.identifier ≠ id) := by
  have hanswer := own_effect htoken s.backend sys.now (.deleteLimit (utf8 id)) fun userID hne =>
    deleteLimit_cases hne _
  simp only [serve, guardedBy, ownConfigs] at hanswer ⊢
  generalize (handle L.toLibs secret s.backend _).2.db = db at hanswer ⊢
  generalize (handle L.toLibs secret s.backend _).1 = reply at hanswer ⊢
  rcases hanswer with ⟨hrefused, rfl⟩ | ⟨hreports, heffect⟩
  · exact .inl ⟨reply, hrefused, rfl, rfl⟩
  · cases heffect with
    | none h => exact absurd hreports h
    | @deletedLimit _ id' hid _ =>
      obtain rfl : id' = id := Option.some.inj (hid.symm.trans (text?_utf8 id))
      refine .inr ⟨rfl, ?_⟩
      simp only [Table.delete, List.filter_filter]
      refine List.filter_congr fun c _ => ?_
      by_cases hc : c.userID = u
      · by_cases hi : c.identifier = id' <;> simp [isConfig, hc, hi]
      · simp [hc]

/-- Every answer to the page keeps its copy the same as the table. -/
lemma follow_arrive (htoken : TokenOf L secret u token) {J : Encoders}
    {l : Listing LimitConfigResponse} {s : KeyState α} {call : LimitsCall} (hplain : PlainCall call)
    (hl : Mirrors u l s) :
    Mirrors u (follow l call (some ((site α L P secret).step s (call.raw J token, sys)).1))
      ((site α L P secret).step s (call.raw J token, sys)).2 := by
  simp only [site_step, Mirrors] at hl ⊢
  cases call with
  | list =>
    rw [endpoint_listLimits, ownConfigs_elsewhere (by simp [guardedBy, Edits])]
    rcases listLimits_answer L.toLibs secret s.backend (authOf L token) sys.now with
      hr | ⟨v, hcaller, hreply⟩
    · exact follow_of_error _ hl hr.message
    · obtain rfl := htoken.eq hcaller
      intro _ _
      simp only [serve, guardedBy, hreply, follow, request_reply (by decide : isOk 200 = true)]
      exact (List.mergeSort_perm _ _).map _
  | create data =>
    rw [endpoint_createLimit]
    rcases serve_createLimit htoken P s (decodeBody L.createLimitRequest (J.limit data)) sys.new
      with ⟨r, hr, hanswer, hsame⟩ | ⟨c, hanswer, hrows⟩
    · rw [hanswer, hsame]
      exact follow_of_error _ hl hr.message
    · rw [hanswer, hrows]
      simp only [follow, request_reply (by decide : isOk 201 = true)]
      exact fun hloading herror => (hl hloading herror).cons _
  | delete id =>
    rcases endpoint_deleteLimit L J token sys hplain with hendpoint | hendpoint
    · rw [hendpoint]
      rcases serve_deleteLimit htoken P s id with ⟨r, hr, hanswer, hsame⟩ | ⟨hanswer, hrows⟩
      · rw [hanswer, hsame]
        exact follow_of_error _ hl hr.message
      · rw [hanswer, hrows]
        simp only [follow, request_reply (by decide : isOk 200 = true)]
        intro hloading herror
        have h := (hl hloading herror).filter fun c => c.identifier ≠ id
        rwa [List.filter_map] at h
    · -- the path of a dot or of nothing
      rw [hendpoint]
      exact follow_of_error _ hl
        (show (request (some (.plain 404))).message ≠ "" by decide)

end Own

lemma follows {L : WebLibs} {token : Option String} (htoken : TokenOf L secret u token)
    (P : Expiry) (J : Encoders) :
    Session.Follows client (site α L P secret) (fun call sys => (call.raw J token, sys))
      LimitsPage.configs follow PlainCall (Elsewhere L secret u) (Mirrors u) where
  act := act_configs
  settle := settle_configs
  arrive := fun _ _ _ _ hplain hl => follow_arrive htoken hplain hl
  lose := fun _ _ call hl => follow_of_error call hl (by decide)
  other := fun l s e he hl => by
    have hsame : ownConfigs u ((site α L P secret).step s e).2 = ownConfigs u s :=
      ownConfigs_elsewhere he
    unfold Mirrors
    rwa [hsame]

/-- **The page mirrors the table.**  Open the page in any state of the server, with a token of the
user, and let anything happen then: actions, requests that arrive in any order or not at all, and
requests of others.  Once the answers that are under way are delivered, a page that was loaded
without an error has the user's configurations and no others, provided that nobody else edits them,
that the answers come in order, and that the user deletes plain identifiers only. -/
theorem limits_page_mirrors (α : Type) [Number α] (L : WebLibs) (P : Expiry)
    {token : Option String} (htoken : TokenOf L secret u token) (J : Encoders) (s : KeyState α)
    {es : List (Happening Action System (RawRequest × System))}
    (hes : (session α L P secret J token).Along
      (Session.Fair PlainCall (Elsewhere L secret u)) (opened s) es) :
    let t := (session α L P secret J token).final (opened s) es
    Mirrors u (Session.settled client t).configs t.server :=
  (follows htoken P J).final (Listing.mirrors_new _) hes

/-- A creation, while somebody asks for the metrics, and a deletion that is not answered yet. -/
def pageVisit : List (Happening Action System (RawRequest × System)) :=
  [.arrive 0 plainSystem, .deliver 0, .act .toggleCreate, .act (.setIdentifier " user-1"),
    .act .create, .other (⟨.get, utf8 "/metrics", "", []⟩, plainSystem), .arrive 0 plainSystem,
    .deliver 0, .act (.delete "user-1"), .arrive 0 plainSystem]

theorem limits_page_mirrors_visit :
    let t := (session ℚ pageWeb .past "secret" pageEncoders (some "new-token")).final
      (opened newUserState) pageVisit
    Mirrors "6f1d2c3b-9a8e-4b7d-8c6f-5e4d3c2b1a09" (Session.settled client t).configs
      t.server :=
  limits_page_mirrors ℚ pageWeb .past tokenOf_newToken pageEncoders newUserState
    (by decide +kernel)

/-- If the answer to the creation overtakes the first list, then the new configuration is lost. -/
example :
    let t := (session ℚ pageWeb .past "secret" pageEncoders (some "new-token")).final
      (opened newUserState) [.arrive 0 plainSystem, .act .toggleCreate,
        .act (.setIdentifier "user-1"), .act .create, .arrive 0 plainSystem, .deliver 1, .deliver 0]
    t.client.configs = ⟨[], false, ""⟩ ∧
      (ownConfigs "6f1d2c3b-9a8e-4b7d-8c6f-5e4d3c2b1a09" t.server).length = 1 := by
  decide +kernel

end LimitsPage

end Frontend

end ShardLeak
