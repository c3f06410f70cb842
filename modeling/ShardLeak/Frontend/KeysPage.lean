/-
# The page with the API keys

`app/dashboard/api-keys/page.tsx`.  Like the page with the configurations, it reads the keys once
and follows its own calls from then on.  A key that was revoked stays in the table; the page marks
it by its own clock, so that only the mark is compared here, and not its time.

The page and its server are a session in the sense of `ShardLeak/Lib/Session.lean`, where the page
is the client and everything else that happens is an event of the server.  What has to be shown is
one step: if the copy has the rows of the table and an answer is sent, then the page that has
received it has the rows of the table after it.

The answer to a creation shows the new row, but for its hash, and the page adds it to its own.
The answer to a revocation shows nothing, and the page marks the row by the id that it asked for.
-/
import ShardLeak.Frontend.LimitsPage

namespace ShardLeak

namespace Frontend

open Api Go Lua Postgres RateLimit Redis Store

/-! ## The page -/

/-- `APIKeyMeta`, with what the page reads of `revoked_at`. -/
structure KeyRow where
  id : String
  name : String
  createdAt : ℤ
  revoked : Bool
deriving DecidableEq

/-- The state of `APIKeysPage`, with the messages of `alert`. -/
structure KeysPage where
  keys : Listing KeyRow
  showCreate : Bool
  keyName : String
  formError : String
  creating : Bool
  newKey : Option (String × String)
  revoking : Option String
  alerts : List String
deriving DecidableEq

namespace KeysPage

/-- The page when it is opened. -/
def new : KeysPage := ⟨.new, false, "", "", false, none, none, []⟩

/-- What the user can do; a revocation has to be confirmed. -/
inductive Action where
  | toggleCreate
  | createFirst
  | setKeyName (s : String)
  | enter
  | create
  | dismiss
  | revoke (id : String) (confirmed : Bool)

/-- `handleCreate`, up to its call. -/
def handleCreate (p : KeysPage) : KeysPage × List KeysCall :=
  if trim p.keyName = "" then ({ p with formError := "Name is required." }, [])
  else ({ p with formError := "", creating := true }, [.create (trim p.keyName)])

/-- The buttons and the field, where they are shown and enabled.  The key `Enter` in the field
creates a key even while another one is created. -/
def act (p : KeysPage) : Action → KeysPage × List KeysCall
  | .toggleCreate => ({ p with showCreate := !p.showCreate, formError := "" }, [])
  | .createFirst =>
    (if !p.keys.loading ∧ p.keys.rows = [] then { p with showCreate := true } else p, [])
  | .setKeyName s => (if p.showCreate then { p with keyName := s } else p, [])
  | .enter => if p.showCreate then p.handleCreate else (p, [])
  | .create => if p.showCreate ∧ ¬ p.creating then p.handleCreate else (p, [])
  | .dismiss => ({ p with newKey := none }, [])
  | .revoke id confirmed =>
    if ¬ p.keys.loading ∧ (∃ k ∈ p.keys.rows, k.id = id ∧ ¬ k.revoked) ∧ p.revoking ≠ some id ∧
        confirmed then
      ({ p with revoking := some id }, [.revoke id])
    else (p, [])

/-- A row of the reply. -/
def rowOfMeta (k : APIKeyMeta) : KeyRow := ⟨k.id, k.name, k.createdAt, k.revokedAt.isSome⟩

/-- The field `api_keys` of a body. -/
def keysOf : Answer → Option (List KeyRow)
  | .reply ⟨_, .apiKeys ks⟩ => some (ks.map rowOfMeta)
  | _ => none

/-- A body that is a new key: its row, and the plaintext. -/
def keyOf : Answer → Option (KeyRow × String)
  | .reply ⟨_, .apiKey id name key createdAt⟩ => some (⟨id, name, createdAt, false⟩, key)
  | _ => none

/-- The rows after a revocation. -/
def markRevoked (id : String) (rows : List KeyRow) : List KeyRow :=
  rows.map fun k => if k.id = id then { k with revoked := true } else k

/-- What a call has established, when it returns: `load`, and the rest of `handleCreate` and
`handleRevoke`. -/
def settle (p : KeysPage) (call : KeysCall) (answer : Option Answer) : KeysPage :=
  match call, request answer with
  | .list, o => { p with keys := p.keys.load keysOf o }
  | .create _, .ok a =>
    { p with
      newKey := (keyOf a).map fun k => (k.1.name, k.2)
      keys := { p.keys with rows := ((keyOf a).map Prod.fst).toList ++ p.keys.rows }
      keyName := ""
      showCreate := false
      creating := false }
  | .create _, .apiError _ _ message => { p with formError := message, creating := false }
  | .create _, .failed _ => { p with formError := "Failed to create API key.", creating := false }
  | .revoke id, .ok _ =>
    { p with
      keys := { p.keys with rows := markRevoked id p.keys.rows }
      revoking := none }
  | .revoke _, o => { p with alerts := p.alerts ++ [o.message], revoking := none }

/-- The page as a client of the server. -/
def client : Client KeysPage KeysCall Answer Action := ⟨act, settle⟩

variable {α : Type} [Number α]

/-- The page and the server. -/
def session (α : Type) [Number α] (L : WebLibs) (P : Expiry) (secret : String) (J : Encoders)
    (token : Option String) :
    Machine (Session KeysPage KeysCall Answer (KeyState α))
      (Happening Action System (RawRequest × System)) Unit :=
  Session.machine client (site α L P secret) fun call sys => (call.raw J token, sys)

/-- The page is opened: it sends its first call. -/
def opened (s : KeyState α) : Session KeysPage KeysCall Answer (KeyState α) :=
  ⟨.new, [.list], [], s⟩

/-! ## What should hold -/

/-- The API keys of a user. -/
def ownKeys (u : String) (s : KeyState α) : List APIKey :=
  s.backend.db.apiKeys.rows.filter fun k => k.userID = u

/-- A row of the table as the page has it. -/
def rowOfKey (k : APIKey) : KeyRow := ⟨k.id, k.name, k.createdAt, k.revokedAt.isSome⟩

/-- The page has the API keys of the user, once it has loaded them, with the marks. -/
def Mirrors (u : String) (l : Listing KeyRow) (s : KeyState α) : Prop :=
  l.Mirrors ((ownKeys u s).map rowOfKey)

/-- The calls of the page are on ids that PostgreSQL reads as themselves. -/
def IdCall (L : WebLibs) : KeysCall → Prop
  | .revoke id => IsSlug id ∧ uuidOf L.uuid (utf8 id) = some id
  | _ => True

instance (L : WebLibs) : DecidablePred (IdCall L)
  | .revoke _ => inferInstanceAs (Decidable (_ ∧ _))
  | .list | .create _ => .isTrue trivial

/-- A request that creates or revokes an API key. -/
def Edits : Endpoint → Bool
  | .route (.guarded _ _ (.createAPIKey _ _ _)) => true
  | .route (.guarded _ _ (.revokeAPIKey _ _)) => true
  | _ => false

/-- A request of somebody else, or one that does not edit API keys. -/
def Elsewhere (L : WebLibs) (secret u : String) (e : RawRequest × System) : Prop :=
  ¬ ((endpoint L e.1 e.2).By L.toLibs secret u ∧ Edits (endpoint L e.1 e.2) = true)

instance (L : WebLibs) (secret u : String) : DecidablePred (Elsewhere L secret u) := fun _ =>
  inferInstanceAs (Decidable (¬ (_ ∧ _)))

/-! ## What the page does with an answer -/

/-- What an answer changes of the keys on the page. -/
def follow (l : Listing KeyRow) (call : KeysCall) (answer : Option Answer) : Listing KeyRow :=
  match call, request answer with
  | .list, o => l.load keysOf o
  | .create _, .ok a => { l with rows := ((keyOf a).map Prod.fst).toList ++ l.rows }
  | .revoke id, .ok _ => { l with rows := markRevoked id l.rows }
  | _, _ => l

lemma act_keys (p : KeysPage) (i : Action) : (p.act i).1.keys = p.keys := by
  have hcreate : p.handleCreate.1.keys = p.keys := by
    unfold handleCreate
    split_ifs <;> rfl
  cases i <;> simp only [act]
  case createFirst | setKeyName | revoke =>
    split_ifs <;> rfl
  case enter | create =>
    split_ifs
    · exact hcreate
    · rfl

lemma settle_keys (p : KeysPage) (call : KeysCall) (answer : Option Answer) :
    (p.settle call answer).keys = follow p.keys call answer := by
  unfold settle follow
  cases call <;> cases request answer <;> rfl

/-- An answer that does not come, or refuses, leaves the keys on the page as they are, or tells that
they could not be loaded. -/
lemma follow_of_error {l : Listing KeyRow} {rows : List KeyRow} (call : KeysCall)
    {answer : Option Answer} (hl : l.Mirrors rows) (hmessage : (request answer).message ≠ "") :
    (follow l call answer).Mirrors rows := by
  unfold follow
  cases call with
  | list => exact Listing.mirrors_load_of_error _ l hmessage rows
  | create name =>
    cases hout : request answer with
    | ok a => exact absurd (congrArg Outcome.message hout) hmessage
    | apiError status code message => exact hl
    | failed message => exact hl
  | revoke id =>
    cases hout : request answer with
    | ok a => exact absurd (congrArg Outcome.message hout) hmessage
    | apiError status code message => exact hl
    | failed message => exact hl

/-! ## What the server does -/

variable {p : Libs} {P : Expiry} {secret u : String}

lemma ownKeys_elsewhere {s : KeyState α} {e : Endpoint}
    (h : ¬ (e.By p secret u ∧ Edits e = true)) :
    ownKeys u (serve p P secret s e).2 = ownKeys u s := by
  cases e with
  | route r =>
    have heffect := handle_effect p secret s.backend r
    simp only [serve, ownKeys]
    generalize (handle p secret s.backend r).2.db = db at heffect ⊢
    generalize (handle p secret s.backend r).1 = reply at heffect
    cases heffect with
    | none => rfl
    | signedUp => rfl
    | @byCaller auth now req reply db v hcaller heffect =>
      cases heffect with
      | none => rfl
      | createdLimit => rfl
      | deletedLimit => rfl
      | @createdKey name bytes new t hname huser hfree ht =>
        have hv : v ≠ u := fun hv => h ⟨hv ▸ hcaller, rfl⟩
        exact filter_cons_of_other ht hv
      | @revokedKey param now id hid hrow =>
        have hv : v ≠ u := fun hv => h ⟨hv ▸ hcaller, rfl⟩
        exact filter_revokeRow_of_other hv id now s.backend.db.apiKeys.rows
  | _ => rfl

section Own

variable {L : WebLibs} {token : Option String} {sys : System}

lemma serve_createAPIKey (htoken : TokenOf L secret u token) (P : Expiry) (s : KeyState α)
    (body : Option CreateAPIKeyRequest) (random : Option Bytes) (new : Defaults) :
    let out := serve L.toLibs P secret s (guardedBy L token sys (.createAPIKey body random new))
    (∃ r, Refused r ∧ out.1 = .reply r ∧ ownKeys u out.2 = ownKeys u s) ∨
      ∃ k plaintext, k.revokedAt = none ∧
        out.1 = .reply ⟨201, .apiKey k.id k.name plaintext k.createdAt⟩ ∧
        ownKeys u out.2 = k :: ownKeys u s := by
  have hanswer := own_effect htoken s.backend sys.now (.createAPIKey body random new)
    fun userID hne => createAPIKey_cases' hne body random new
  simp only [serve, guardedBy, ownKeys] at hanswer ⊢
  generalize (handle L.toLibs secret s.backend _).2.db = db at hanswer ⊢
  generalize (handle L.toLibs secret s.backend _).1 = reply at hanswer ⊢
  rcases hanswer with ⟨hrefused, rfl⟩ | ⟨hreports, heffect⟩
  · exact .inl ⟨reply, hrefused, rfl, rfl⟩
  · cases heffect with
    | none h => exact absurd hreports h
    | @createdKey name bytes _ t _ _ _ ht =>
      refine .inr ⟨Api.newKey L.toLibs u name bytes new, plaintextOf bytes, rfl, rfl, ?_⟩
      simp only [ht, List.filter_cons]
      simp [Api.newKey]

lemma serve_revokeAPIKey (htoken : TokenOf L secret u token) (P : Expiry) (s : KeyState α)
    {id : String} (hid : uuidOf L.uuid (utf8 id) = some id) (now : ℤ) :
    let out := serve L.toLibs P secret s (guardedBy L token sys (.revokeAPIKey (utf8 id) now))
    (∃ r, Refused r ∧ out.1 = .reply r ∧ ownKeys u out.2 = ownKeys u s) ∨
      (out.1 = .reply ⟨200, .status "revoked"⟩ ∧
        ownKeys u out.2 = (ownKeys u s).map (revokeRow id u now)) := by
  have hanswer := own_effect htoken s.backend sys.now (.revokeAPIKey (utf8 id) now)
    fun userID hne => revokeAPIKey_cases' hne _ now
  simp only [serve, guardedBy, ownKeys] at hanswer ⊢
  generalize (handle L.toLibs secret s.backend _).2.db = db at hanswer ⊢
  generalize (handle L.toLibs secret s.backend _).1 = reply at hanswer ⊢
  rcases hanswer with ⟨hrefused, rfl⟩ | ⟨hreports, heffect⟩
  · exact .inl ⟨reply, hrefused, rfl, rfl⟩
  · cases heffect with
    | none h => exact absurd hreports h
    | @revokedKey _ _ id' hid' _ =>
      obtain rfl := Option.some.inj (hid'.symm.trans hid)
      exact .inr ⟨rfl, filter_map_revokeRow id' u now s.backend.db.apiKeys.rows⟩

lemma map_revokeRow (u id : String) (now : ℤ) {rows : List APIKey}
    (h : ∀ k ∈ rows, k.userID = u) :
    (rows.map (revokeRow id u now)).map rowOfKey = markRevoked id (rows.map rowOfKey) := by
  simp only [markRevoked, List.map_map]
  apply List.map_congr_left
  intro k hk
  simp only [Function.comp_apply, revokeRow, revocable, rowOfKey, h k hk]
  by_cases hid : k.id = id
  · cases hrevoked : k.revokedAt <;> simp [hid, hrevoked]
  · simp [hid]

/-- Every answer to the page keeps its copy the same as the table. -/
lemma follow_arrive (htoken : TokenOf L secret u token) {J : Encoders} {l : Listing KeyRow}
    {s : KeyState α} {call : KeysCall} (hid : IdCall L call) (hl : Mirrors u l s) :
    Mirrors u (follow l call (some ((site α L P secret).step s (call.raw J token, sys)).1))
      ((site α L P secret).step s (call.raw J token, sys)).2 := by
  simp only [site_step, Mirrors] at hl ⊢
  cases call with
  | list =>
    rw [endpoint_listAPIKeys, ownKeys_elsewhere (by simp [guardedBy, Edits])]
    rcases listAPIKeys_answer L.toLibs secret s.backend (authOf L token) sys.now with
      hr | ⟨v, hcaller, hreply⟩
    · exact follow_of_error _ hl hr.message
    · obtain rfl := htoken.eq hcaller
      intro _ _
      simp only [serve, guardedBy, hreply, follow, request_reply (by decide : isOk 200 = true)]
      have h := (List.mergeSort_perm (ownKeys u s) fun a b =>
        decide (b.createdAt ≤ a.createdAt)).map rowOfKey
      simp only [Listing.load, keysOf, Option.getD_some, List.map_map]
      exact h
  | create name =>
    rw [endpoint_createAPIKey]
    rcases serve_createAPIKey htoken P s (decodeBody L.createAPIKeyRequest (J.name name))
      sys.random sys.new with ⟨r, hr, hanswer, hsame⟩ | ⟨k, plaintext, hlive, hanswer, hrows⟩
    · rw [hanswer, hsame]
      exact follow_of_error _ hl hr.message
    · rw [hanswer, hrows]
      simp only [follow, request_reply (by decide : isOk 201 = true)]
      intro hloading herror
      have hrow : rowOfKey k = ⟨k.id, k.name, k.createdAt, false⟩ := by
        rw [rowOfKey, hlive]
        rfl
      rw [List.map_cons, hrow]
      exact (hl hloading herror).cons _
  | revoke id =>
    rw [endpoint_revokeAPIKey hid.1]
    rcases serve_revokeAPIKey htoken P s hid.2 sys.new.now with
      ⟨r, hr, hanswer, hsame⟩ | ⟨hanswer, hrows⟩
    · rw [hanswer, hsame]
      exact follow_of_error _ hl hr.message
    · have huser : ∀ k ∈ ownKeys u s, k.userID = u := fun k hk =>
        of_decide_eq_true (List.mem_filter.1 hk).2
      rw [hanswer, hrows, map_revokeRow u id sys.new.now huser]
      simp only [follow, request_reply (by decide : isOk 200 = true)]
      exact fun hloading herror => (hl hloading herror).map _

end Own

lemma follows {L : WebLibs} {token : Option String} (htoken : TokenOf L secret u token)
    (P : Expiry) (J : Encoders) :
    Session.Follows client (site α L P secret) (fun call sys => (call.raw J token, sys))
      KeysPage.keys follow (IdCall L) (Elsewhere L secret u) (Mirrors u) where
  act := act_keys
  settle := settle_keys
  arrive := fun _ _ _ _ hid hl => follow_arrive htoken hid hl
  lose := fun _ _ call hl => follow_of_error call hl (by decide)
  other := fun l s e he hl => by
    have hsame : ownKeys u ((site α L P secret).step s e).2 = ownKeys u s := ownKeys_elsewhere he
    unfold Mirrors
    rwa [hsame]

/-- **The page of the API keys mirrors the table.**  In every session of the page, from any state of
the server, once the answers that are under way are delivered, a page that was loaded without an
error has the user's keys and no others, and shows exactly those as revoked that are: provided that
nobody else creates or revokes keys of the user, that the answers come in order, and that the page
revokes ids in canonical form, as the table hands them out. -/
theorem keys_page_mirrors (α : Type) [Number α] (L : WebLibs) (P : Expiry) {token : Option String}
    (htoken : TokenOf L secret u token) (J : Encoders) (s : KeyState α)
    {es : List (Happening Action System (RawRequest × System))}
    (hes : (session α L P secret J token).Along
      (Session.Fair (IdCall L) (Elsewhere L secret u)) (opened s) es) :
    let t := (session α L P secret J token).final (opened s) es
    Mirrors u (Session.settled client t).keys t.server :=
  (follows htoken P J).final (Listing.mirrors_new _) hes

/-- What the handlers read in the example, with a byte for the new key. -/
def keySystem : System := { plainSystem with random := some [7] }

/-- A key is created, and revoked. -/
def keysVisit : List (Happening Action System (RawRequest × System)) :=
  [.arrive 0 keySystem, .deliver 0, .act .toggleCreate, .act (.setKeyName " ci"), .act .enter,
    .arrive 0 keySystem, .deliver 0, .act (.revoke "6f1d2c3b-9a8e-4b7d-8c6f-5e4d3c2b1a09" true),
    .arrive 0 keySystem]

theorem keys_page_mirrors_visit :
    let t := (session ℚ pageWeb .past "secret" pageEncoders (some "new-token")).final
      (opened newUserState) keysVisit
    Mirrors "6f1d2c3b-9a8e-4b7d-8c6f-5e4d3c2b1a09" (Session.settled client t).keys t.server :=
  keys_page_mirrors ℚ pageWeb .past tokenOf_newToken pageEncoders newUserState
    (by decide +kernel)

end KeysPage

end Frontend

end ShardLeak
