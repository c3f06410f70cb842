/-
# A client that follows a server

A client has a view of what a server holds.  It changes this view only by the answers to its own
requests, as they are delivered.  Requests and answers are under way for any time, the requests
arrive in any order, and the server has other clients.  This file has the one induction that is
needed: what every answer establishes between the view and the server holds of the view once the
answers that are under way have been delivered.

The view that counts is not what the client shows at the moment, but what it will show: `settled`
delivers all the answers that are under way.  An answer that the server sends then changes the
settled view and the server at once, by one step each, and the delivery of an answer does not
change the settled view at all.  This is why nothing has to be known of the delays.

What has to be assumed is in `Fair`: no answer overtakes another one and none is lost.  Requests
may be reordered and lost without any harm, since a request that did not arrive has changed
nothing.
-/
import ShardLeak.Lib.Machine

namespace ShardLeak

/-- A client with states `π`: what the user changes by an action, with the requests that are sent
then, and what the answer to a request changes.  `none` stands for no answer. -/
structure Client (π ρ ω ι : Type*) where
  act : π → ι → π × List ρ
  settle : π → ρ → Option ω → π

/-- A client and its server, with the requests and the answers that are under way. -/
structure Session (π ρ ω σ : Type*) where
  client : π
  sent : List ρ
  answered : List (ρ × Option ω)
  server : σ

/-- What can happen: the user acts, a request arrives (and the server reads `x`) or is lost, an
answer is delivered or lost, or something else happens to the server. -/
inductive Happening (ι φ ε : Type*) where
  | act (i : ι)
  | arrive (k : ℕ) (x : φ)
  | lose (k : ℕ)
  | deliver (k : ℕ)
  | drop (k : ℕ)
  | other (e : ε)

namespace Session

variable {π ρ ω ι σ ε φ κ : Type*}

/-- The session after one happening. -/
def step (C : Client π ρ ω ι) (M : Machine σ ε ω) (send : ρ → φ → ε) (s : Session π ρ ω σ) :
    Happening ι φ ε → Session π ρ ω σ
  | .act i => { s with client := (C.act s.client i).1, sent := s.sent ++ (C.act s.client i).2 }
  | .arrive k x => match s.sent[k]? with
    | none => s
    | some q => { s with
        sent := s.sent.eraseIdx k
        answered := s.answered ++ [(q, some (M.step s.server (send q x)).1)]
        server := (M.step s.server (send q x)).2 }
  | .lose k => match s.sent[k]? with
    | none => s
    | some q => { s with sent := s.sent.eraseIdx k, answered := s.answered ++ [(q, none)] }
  | .deliver k => match s.answered[k]? with
    | none => s
    | some a => { s with
        client := C.settle s.client a.1 a.2
        answered := s.answered.eraseIdx k }
  | .drop k => match s.answered[k]? with
    | none => s
    | some a => { s with answered := s.answered.set k (a.1, none) }
  | .other e => { s with server := (M.step s.server e).2 }

/-- The session as a machine. -/
def machine (C : Client π ρ ω ι) (M : Machine σ ε ω) (send : ρ → φ → ε) :
    Machine (Session π ρ ω σ) (Happening ι φ ε) Unit := ⟨fun s h => ((), s.step C M send h)⟩

/-- The client once the answers that are under way have been delivered. -/
def settled (C : Client π ρ ω ι) (s : Session π ρ ω σ) : π :=
  s.answered.foldl (fun p a => C.settle p a.1 a.2) s.client

/-- The answers are delivered in the order of the requests at the server, and none is lost; the
requests have `Q`, and what else happens to the server has `D`. -/
def Fair (Q : ρ → Prop) (D : ε → Prop) (s : Session π ρ ω σ) : Happening ι φ ε → Prop
  | .arrive k _ => ∀ q ∈ s.sent[k]?, Q q
  | .deliver k => k = 0
  | .drop _ => False
  | .other e => D e
  | _ => True

instance (Q : ρ → Prop) (D : ε → Prop) [DecidablePred Q] [DecidablePred D] (s : Session π ρ ω σ)
    (h : Happening ι φ ε) : Decidable (Fair Q D s h) :=
  match h with
  | .act _ => isTrue trivial
  | .arrive k _ => inferInstanceAs (Decidable (∀ q ∈ s.sent[k]?, Q q))
  | .lose _ => isTrue trivial
  | .deliver k => inferInstanceAs (Decidable (k = 0))
  | .drop _ => isFalse id
  | .other e => inferInstanceAs (Decidable (D e))

/-- The view `v` of a client follows a server: it changes with the answers only, by `upd`, and the
relation `R` survives every answer, every loss of a request, and what else happens. -/
structure Follows (C : Client π ρ ω ι) (M : Machine σ ε ω) (send : ρ → φ → ε) (v : π → κ)
    (upd : κ → ρ → Option ω → κ) (Q : ρ → Prop) (D : ε → Prop) (R : κ → σ → Prop) : Prop where
  act : ∀ p i, v (C.act p i).1 = v p
  settle : ∀ p q o, v (C.settle p q o) = upd (v p) q o
  arrive : ∀ c s q x, Q q → R c s →
    R (upd c q (some (M.step s (send q x)).1)) (M.step s (send q x)).2
  lose : ∀ c s q, R c s → R (upd c q none) s
  other : ∀ c s e, D e → R c s → R c (M.step s e).2

variable {C : Client π ρ ω ι} {M : Machine σ ε ω} {send : ρ → φ → ε} {v : π → κ}
  {upd : κ → ρ → Option ω → κ} {Q : ρ → Prop} {D : ε → Prop} {R : κ → σ → Prop}

lemma Follows.foldl (h : Follows C M send v upd Q D R) (p : π) (as : List (ρ × Option ω)) :
    v (as.foldl (fun p a => C.settle p a.1 a.2) p) = as.foldl (fun c a => upd c a.1 a.2) (v p) := by
  induction as generalizing p with
  | nil => rfl
  | cons a as ih => rw [List.foldl_cons, List.foldl_cons, ih, h.settle]

/-- An answer that is sent extends the view to come. -/
lemma Follows.settled_append (h : Follows C M send v upd Q D R) (p : π) (q : ρ) (o : Option ω)
    (as : List (ρ × Option ω)) (rs rs' : List ρ) (s s' : σ) :
    v (settled C ⟨p, rs', as ++ [(q, o)], s'⟩) = upd (v (settled C ⟨p, rs, as, s⟩)) q o := by
  simp only [settled, List.foldl_append, List.foldl_cons, List.foldl_nil, h.settle]

lemma Follows.step (h : Follows C M send v upd Q D R) {s : Session π ρ ω σ}
    {e : Happening ι φ ε} (hR : R (v (settled C s)) s.server) (hfair : Fair Q D s e) :
    R (v (settled C (s.step C M send e))) (s.step C M send e).server := by
  obtain ⟨p, rs, as, t⟩ := s
  cases e with
  | act i =>
    simp only [settled, Session.step, h.foldl, h.act] at hR ⊢
    exact hR
  | arrive k x =>
    cases hk : rs[k]? with
    | none => simpa only [Session.step, hk] using hR
    | some q =>
      simp only [Session.step, hk]
      rw [h.settled_append p q _ as rs]
      exact h.arrive _ t q x (hfair q hk) hR
  | lose k =>
    cases hk : rs[k]? with
    | none => simpa only [Session.step, hk] using hR
    | some q =>
      simp only [Session.step, hk]
      rw [h.settled_append p q _ as rs]
      exact h.lose _ t q hR
  | deliver k =>
    obtain rfl : k = 0 := hfair
    -- the first answer is applied now instead of later
    cases as with
    | nil => exact hR
    | cons a as => exact hR
  | drop k => exact absurd hfair id
  | other e => exact h.other _ t e hfair hR

/-- **The following rule.**  A view that follows the server is related to it in every fair run,
once the answers that are under way have been delivered. -/
theorem Follows.final (h : Follows C M send v upd Q D R) {s : Session π ρ ω σ}
    {es : List (Happening ι φ ε)} (hR : R (v (settled C s)) s.server)
    (hes : (machine C M send).Along (Fair Q D) s es) :
    R (v (settled C ((machine C M send).final s es))) ((machine C M send).final s es).server :=
  (machine C M send).final_invariant (I := fun s => R (v (settled C s)) s.server)
    (fun _ _ hR hfair => h.step hR hfair) hR hes

end Session

end ShardLeak
