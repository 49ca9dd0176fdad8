import FeedTraffic.Proofs.Recordings
import FeedTraffic.Proofs.Refusals
import FeedTraffic.Proofs.Requests

/-!
# Load tests on two services

Visitors see of a service only what becomes of the requests that they send, and they send requests
to the feed alone.  So two services that keep together over such requests keep together over a turn
of any visitor, and from turn to turn over a whole load test, whoever takes the turns.  A service
and its recording are an example: the recording shows that nothing but the feed was asked for.
-/

namespace FeedTraffic.Traffic

open FeedTraffic.Feed FeedTraffic.Http FeedTraffic.Mock FeedTraffic.Random FeedTraffic.Settings
open FeedTraffic.Stateful FeedTraffic.User

variable {σ τ : Type} {R : σ → τ → Prop}

/-- Two scenes that only differ in their services, and these are related. -/
structure Scene.Alike (R : σ → τ → Prop) (a : Scene σ) (b : Scene τ) : Prop where
  store : a.store = b.store
  words : a.words = b.words
  service : R a.service b.service

structure Visitor.Alike (R : σ → τ → Prop) (v : Visitor σ) (w : Visitor τ) : Prop
    extends Scene.Alike R v.toScene w.toScene where
  session : v.session = w.session

structure Crowd.Alike (R : σ → τ → Prop) (c : Crowd σ) (d : Crowd τ) : Prop
    extends Scene.Alike R c.toScene d.toScene where
  sessions : c.sessions = d.sessions

/-- Two sites of one address at which requests to the feed come to the same. -/
structure Site.Alike (R : σ → τ → Prop) (a : Site σ) (b : Site τ) : Prop where
  base : a.base = b.base
  sends : ∀ rs : List Request, (∀ r ∈ rs, r.endpoint ≠ .health) →
    InStep R (sendAll a.service a.base rs) (sendAll b.service b.base rs)

/-- Where single requests go together, all do. -/
theorem sendAll_inStep {service : Service σ} {other : Service τ} {base : Url} {rs : List Request}
    (each : ∀ r ∈ rs, InStep R (send service base r) (send other base r)) :
    InStep R (sendAll service base rs) (sendAll other base rs) := by
  induction rs with
  | nil => exact InStep.pure []
  | cons r rs ih =>
    have rest := ih fun q member => each q (List.mem_cons_of_mem r member)
    refine InStep.bind (each r List.mem_cons_self) fun sent => ?_
    by_cases stops : sent.failure?.isSome
    · simp only [stops, if_true]
      exact InStep.pure [sent]
    · simp only [stops]
      exact InStep.bind rest fun later => InStep.pure (sent :: later)

/-! ## Visitors -/

namespace Visitor

theorem Alike.begun {v : Visitor σ} {w : Visitor τ} (h : Alike R v w) :
    Alike R v.begun w.begun where
  store := by simp only [Visitor.begun, h.store]
  words := by simp only [Visitor.begun, h.store, h.words]
  service := h.service
  session := by simp only [Visitor.begun, h.store, h.words]

/-- Whatever is drawn for a recipe asks for the feed. -/
theorem drawn_on_feed (now : Nat) (recipe : Recipe) (v : Visitor σ) (s : Session) :
    ∀ r ∈ (drawn now recipe v s).1, r.endpoint ≠ .health := by
  let ctx : Context := ⟨v.store.view, s.requester, now⟩
  have listed : Yields ctx.samples.randomPostId fun _ => True := Yields.trivial _
  have opened : Yields (s.pickPost ctx.samples.fallbackPostId) fun _ => True := Yields.trivial _
  intro r member
  exact ((requests_made listed opened recipe v.words True.intro).2 r member).on_feed

theorem Alike.drawn {v : Visitor σ} {w : Visitor τ} (h : Alike R v w) (now : Nat)
    (recipe : Recipe) (s : Session) :
    Visitor.drawn now recipe v s = Visitor.drawn now recipe w s := by
  simp only [Visitor.drawn, h.store, h.words]

/-- What begins a session first if there is none goes together if it does so from a session on. -/
theorem inStep_of_session {α : Type} {c : StateM (Visitor σ) α} {d : StateM (Visitor τ) α}
    (c_begins : ∀ v, v.session = none → c v = c v.begun)
    (d_begins : ∀ w, w.session = none → d w = d w.begun)
    (go_on : ∀ v w s, Alike R v w → v.session = some s → w.session = some s →
      (c v).1 = (d w).1 ∧ Alike R (c v).2 (d w).2) : InStep (Alike R) c d := by
  intro v w alike
  cases known : v.session with
  | none =>
    have absent : w.session = none := alike.session.symm.trans known
    have begun := alike.begun
    rw [c_begins v known, d_begins w absent]
    exact go_on v.begun w.begun _ begun rfl begun.session.symm
  | some s => exact go_on v w s alike known (alike.session.symm.trans known)

theorem prepare_inStep (now : Nat) (recipe : Recipe) :
    InStep (Alike R) (fun v : Visitor σ => prepare now recipe v)
      (fun w : Visitor τ => prepare now recipe w) := by
  apply inStep_of_session
  · exact fun v absent => prepare_of_none now recipe absent
  · exact fun w absent => prepare_of_none now recipe absent
  · intro v w s alike v_known w_known
    have stores : (⟨some v.store.view⟩ : SampleStore) = ⟨some w.store.view⟩ := by rw [alike.store]
    rw [prepare_of_some now recipe v_known, prepare_of_some now recipe w_known,
      alike.drawn now recipe s]
    exact ⟨rfl, ⟨stores, rfl, alike.service⟩, alike.session⟩

section Sites

variable {a : Site σ} {b : Site τ} (sites : Site.Alike R a b) (now : Nat)

include sites

theorem perform_inStep (recipe : Recipe) :
    InStep (Alike R) (perform a now recipe) (perform b now recipe) := by
  apply inStep_of_session
  · exact fun v absent => perform_of_none a now recipe absent
  · exact fun w absent => perform_of_none b now recipe absent
  · intro v w s alike v_known w_known
    have drawn_eq := alike.drawn now recipe s
    obtain ⟨same, left⟩ :=
      sites.sends _ (drawn_on_feed now recipe v s) v.service w.service alike.service
    rw [drawn_eq] at same left
    have sent : (exchanged a now recipe v s).1 = (exchanged b now recipe w s).1 := by
      rw [exchanged, drawn_eq]
      exact same
    rw [perform_of_some a now recipe v_known, perform_of_some b now recipe w_known]
    refine ⟨sent, ⟨?_, congrArg Prod.snd drawn_eq, ?_⟩, ?_⟩
    · simp only [performed, alike.store]
    · simp only [performed, exchanged, drawn_eq]
      exact left
    · simp only [performed, sent]

theorem act_inStep (action : Action) : InStep (Alike R) (act a now action) (act b now action) := by
  cases action with
  | startSession =>
    intro v w alike
    simp only [act, bind_apply, beginSession_apply]
    exact ⟨rfl, alike.begun⟩
  | run recipe => exact perform_inStep sites now recipe

theorem recount_inStep (action : Action) :
    InStep (Alike R) (recount a now action) (recount b now action) := by
  refine InStep.bind (act_inStep sites now action) fun sent => ?_
  cases action with
  | startSession =>
    intro v w alike
    exact ⟨congrArg (fun session => (session.toList.map sessionRecord, sent)) alike.session, alike⟩
  | run recipe => exact InStep.pure _

end Sites

end Visitor

/-- What a visitor does alike is done alike in a crowd. -/
theorem Crowd.lift_inStep {α : Type} (user : Nat) {m : StateM (Visitor σ) α}
    {m' : StateM (Visitor τ) α} (step : InStep (Visitor.Alike R) m m') :
    InStep (Crowd.Alike R) (lift user m) (lift user m') := by
  intro c d alike
  have found : Visitor.Alike R (c.visitor user) (d.visitor user) :=
    ⟨alike.toAlike, congrFun alike.sessions user⟩
  obtain ⟨same, left⟩ := step _ _ found
  refine ⟨same, left.toAlike, funext fun other => ?_⟩
  by_cases own : other = user
  · exact (if_pos own).trans (left.session.trans (if_pos own).symm)
  · exact (if_neg own).trans ((congrFun alike.sessions other).trans (if_neg own).symm)

/-! ## Load tests -/

namespace Attack

section Sites

variable {a : Site σ} {b : Site τ} (sites : Site.Alike R a b)

include sites

theorem attempt_inStep (now : Nat) (action : Action) :
    InStep (Visitor.Alike R) (attempt a now action) (attempt b now action) := by
  cases action with
  | startSession => exact Visitor.recount_inStep sites now .startSession
  | run recipe =>
    by_cases closed : b.base.isOpaque = true
    · simp only [attempt, sites.base, closed, if_true]
      exact InStep.bind (Visitor.prepare_inStep now recipe) fun _ => InStep.pure _
    · simp only [attempt, sites.base, closed]
      exact Visitor.recount_inStep sites now (.run recipe)

/-- One turn, whoever takes it. -/
theorem takeTurn_inStep (turn : Turn) :
    InStep (Crowd.Alike R) (takeTurn a turn) (takeTurn b turn) :=
  Crowd.lift_inStep turn.visitor (attempt_inStep sites turn.now turn.action)

/-- Any number of turns, in any order. -/
theorem visits_inStep (turns : List Turn) :
    InStep (Scene.Alike R) (visits a turns) (visits b turns) := by
  intro scene other alike
  have all := InStep.mapM (takeTurn_inStep sites) turns
  obtain ⟨same, left⟩ := all { toScene := scene } { toScene := other } ⟨alike, rfl⟩
  exact ⟨same, left.toAlike⟩

end Sites

theorem install_inStep (config : Config) :
    InStep (Scene.Alike R) (install config) (install config) := by
  intro scene other alike
  simp only [install, bind, StateT.bind, get, getThe, MonadStateOf.get, StateT.get, pure,
    alike.store]
  by_cases same : (other.store.install config.samples).1 = true <;> simp only [same]
  · exact ⟨rfl, rfl, alike.words, alike.service⟩
  · exact ⟨rfl, rfl, alike.words, alike.service⟩

theorem base_of_plan {config : Config} {ss : List Scenario} {url : Url}
    (planned : (plan config).2 = .ok (ss, url)) : base config = .ok url := by
  rcases found : scenarios config with ⟨records, r | listed⟩
  · simp only [plan, found] at planned
    cases planned
  · simp only [plan, found] at planned
    cases address : base config with
    | error r =>
      rw [address] at planned
      cases planned
    | ok u =>
      rw [address] at planned
      cases planned
      rfl

/-- A load test keeps to the feed: on two services that only have to keep together over requests to
the feed it gives the same, whatever course it takes. -/
theorem run_inStep {service : Service σ} {other : Service τ} (course : Course) (config : Config)
    (sites : ∀ url, base config = .ok url → Site.Alike R (site service url) (site other url)) :
    InStep (Scene.Alike R) (run service course config) (run other course config) := by
  refine InStep.bind (install_inStep config) fun installed => ?_
  rcases planned : plan config with ⟨records, r | ⟨ss, url⟩⟩
  · exact InStep.pure _
  · have alike := sites url (base_of_plan (congrArg Prod.snd planned))
    refine InStep.bind (visits_inStep alike (course.turns config ss)) fun done => ?_
    cases course.failure with
    | none => exact InStep.pure _
    | some causes => exact InStep.pure _

end Attack

end FeedTraffic.Traffic
