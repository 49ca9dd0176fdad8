import FeedTraffic.Proofs.SessionMemory
import FeedTraffic.Proofs.Stateful
import FeedTraffic.Traffic.Visitor

/-!
# What one action does to a visitor

Each action is written out as one equation.  A visitor with a session draws the requests of a
recipe, sends them, and reads the pages that passed if the recipe browses; nothing else about the
visitor changes.  A visitor without a session does the same after beginning one.
-/

namespace FeedTraffic.Traffic.Visitor

open FeedTraffic.Feed FeedTraffic.Http FeedTraffic.Random FeedTraffic.Stateful FeedTraffic.User

variable {σ : Type}

/-! ## Sessions -/

/-- A visitor who has just begun a session. -/
def begun (v : Visitor σ) : Visitor σ :=
  { v with
    store := ⟨some v.store.view⟩
    words := (Session.start v.store.view v.words).2
    session := some (Session.start v.store.view v.words).1 }

theorem bind_apply {α β : Type} (c : StateM (Visitor σ) α) (f : α → StateM (Visitor σ) β)
    (v : Visitor σ) : (c >>= f) v = f (c v).1 (c v).2 := rfl

theorem samples_apply (v : Visitor σ) :
    samples v = (v.store.view, { v with store := ⟨some v.store.view⟩ }) := by
  simp only [samples, bind, StateT.bind, get, getThe, MonadStateOf.get, StateT.get,
    SampleStore.get_eq]
  rfl

theorem beginSession_apply (v : Visitor σ) :
    beginSession v = ((Session.start v.store.view v.words).1, begun v) := by
  simp only [beginSession, bind, StateT.bind, samples_apply]
  rfl

theorem current_of_none {v : Visitor σ} (absent : v.session = none) :
    current v = beginSession v := by
  simp only [current, bind, StateT.bind, get, getThe, MonadStateOf.get, StateT.get, pure, absent]

theorem current_of_some {v : Visitor σ} {s : Session} (known : v.session = some s) :
    current v = (s, v) := by
  simp only [current, bind, StateT.bind, get, getThe, MonadStateOf.get, StateT.get, pure, known]
  rfl

/-! ## Memory -/

theorem remember_apply {v : Visitor σ} {s : Session} (known : v.session = some s)
    (body : String) :
    remember body v = ((), { v with session := some (s.remember body).2 }) := by
  simp only [remember, bind, StateT.bind, current_of_some known]
  rfl

theorem forM_remember_apply {v : Visitor σ} {s : Session} (known : v.session = some s)
    (bodies : List String) :
    bodies.forM remember v = ((), { v with session := some (s.rememberAll bodies).2 }) := by
  induction bodies generalizing v s with
  | nil =>
    obtain ⟨scene, session⟩ := v
    cases known
    rfl
  | cons body rest ih =>
    have first := remember_apply known body
    have later := ih (v := { v with session := some (s.remember body).2 }) rfl
    change (remember body >>= fun _ => rest.forM remember) v = _
    rw [bind_apply, first]
    exact later

/-! ## Recipes -/

/-- The bodies that a session reads after a recipe: those of passed requests to browse. -/
def passedPages (recipe : Recipe) (sent : List Sent) : List String :=
  if recipe = .browseFollowingFeed then sent.filterMap (·.body?) else []

section Perform

variable (site : Site σ) (now : Nat) (recipe : Recipe) (v : Visitor σ) (s : Session)

/-- What a visitor with a session draws for a recipe. -/
def drawn : List Request × Words :=
  recipe.requests ⟨v.store.view, s.requester, now⟩ s v.words

/-- What the service makes of the requests that are drawn. -/
def exchanged : List Sent × σ :=
  sendAll site.service site.base (drawn now recipe v s).1 v.service

def performed : Visitor σ :=
  { store := ⟨some v.store.view⟩
    words := (drawn now recipe v s).2
    service := (exchanged site now recipe v s).2
    session := some (s.rememberAll (passedPages recipe (exchanged site now recipe v s).1)).2 }

variable {v s}

/-- What a visitor with a session has before anything is sent. -/
theorem prepare_of_some (known : v.session = some s) :
    prepare now recipe v =
      ((drawn now recipe v s).1,
        { v with store := ⟨some v.store.view⟩, words := (drawn now recipe v s).2 }) := by
  rw [prepare, bind_apply, current_of_some known, bind_apply, samples_apply]
  rfl

theorem prepare_of_none (absent : v.session = none) :
    prepare now recipe v = prepare now recipe (begun v) := by
  have begins : current (begun v) = current v := by
    rw [current_of_none absent, beginSession_apply]
    exact current_of_some rfl
  simp only [prepare, bind, StateT.bind, begins]

theorem perform_of_some (known : v.session = some s) :
    perform site now recipe v =
      ((exchanged site now recipe v s).1, performed site now recipe v s) := by
  rw [perform, bind_apply, prepare_of_some now recipe known, bind_apply]
  let sent := (exchanged site now recipe v s).1
  let after : Visitor σ :=
    { store := ⟨some v.store.view⟩
      words := (drawn now recipe v s).2
      service := (exchanged site now recipe v s).2
      session := v.session }
  by_cases browsing : recipe = .browseFollowingFeed
  · have pages : passedPages recipe sent = sent.filterMap (·.body?) := if_pos browsing
    have reads := forM_remember_apply (v := after) known (sent.filterMap (·.body?))
    rw [if_pos browsing]
    change ((sent.filterMap (·.body?)).forM remember >>= fun _ => pure sent) after = _
    rw [bind_apply, reads, performed, pages]
    rfl
  · have pages : passedPages recipe sent = [] := if_neg browsing
    rw [if_neg browsing]
    rw [performed, pages]
    exact congrArg (fun session => (sent, { after with session })) known

theorem perform_of_none (absent : v.session = none) :
    perform site now recipe v = perform site now recipe (begun v) := by
  simp only [perform, bind, StateT.bind, prepare_of_none now recipe absent]

end Perform

/-! ## Many actions -/

theorem run_cons (site : Site σ) (now : Nat) (action : Action) (actions : List (Nat × Action))
    (v : Visitor σ) :
    run site ((now, action) :: actions) v =
      let first := act site now action v
      let later := run site actions first.2
      (first.1 :: later.1, later.2) := by
  rw [run, mapM_cons_apply]
  rfl

def runRecipes (site : Site σ) (history : List (Nat × Recipe)) :
    StateM (Visitor σ) (List (List Sent)) :=
  run site (history.map fun (now, recipe) => (now, .run recipe))

theorem runRecipes_cons (site : Site σ) (now : Nat) (recipe : Recipe)
    (history : List (Nat × Recipe)) (v : Visitor σ) :
    runRecipes site ((now, recipe) :: history) v =
      let first := Visitor.perform site now recipe v
      let later := runRecipes site history first.2
      (first.1 :: later.1, later.2) :=
  run_cons site now (.run recipe) _ v

end FeedTraffic.Traffic.Visitor
