import FeedTraffic.Proofs.Visitors
import Mathlib.Logic.Function.Basic

/-!
# Samples that many users share

Samples are put in, looked at, and used by every user whose session begins; a look puts in the
built-in set where there is none.  So the first call, whichever it is, settles what all later ones
get, and a set that is put in counts as installed just when it is that one.
-/

namespace FeedTraffic.Traffic

open FeedTraffic.Feed FeedTraffic.Random FeedTraffic.Stateful FeedTraffic.User

variable {σ : Type}

/-- A call that has to do with the shared samples. -/
inductive Call where
  /-- Puts in a set. -/
  | install (samples : Samples)
  | look
  /-- A user begins a new session. -/
  | start (user : Nat)
  /-- A user asks for the own session, which begins if there is none. -/
  | enter (user : Nat)
  deriving DecidableEq, Repr

inductive Answer where
  | installed (same : Bool)
  | known (samples : Samples)
  | session (s : Session)
  deriving DecidableEq, Repr

namespace Crowd

def fresh (words : Words) (service : σ) : Crowd σ := { words, service }

theorem withVisitor_eq (c : Crowd σ) (user : Nat) (v : Visitor σ) :
    c.withVisitor user v =
      { toScene := v.toScene, sessions := Function.update c.sessions user v.session } := by
  have sessions : (c.withVisitor user v).sessions = Function.update c.sessions user v.session :=
    funext fun other => (Function.update_apply c.sessions user v.session other).symm
  rw [← sessions]
  rfl

end Crowd

namespace Call

def perform : Call → StateM (Crowd σ) Answer
  | install samples => fun c =>
    let (same, store) := c.store.install samples
    (.installed same, { c with store })
  | look => fun c =>
    let (samples, store) := c.store.get
    (.known samples, { c with store })
  | start user => do
    let s ← Crowd.lift user Visitor.beginSession
    pure (.session s)
  | enter user => do
    let s ← Crowd.lift user Visitor.current
    pure (.session s)

def performAll (calls : List Call) : StateM (Crowd σ) (List Answer) := calls.mapM perform

/-- The set that a call puts in if there is none. -/
def brings : Call → Samples
  | install samples => samples
  | look | start _ | enter _ => .default

/-- What a call gives back where everybody uses one set. -/
def answer (kept : Samples) (c : Crowd σ) : Call → Answer
  | install samples => .installed (decide (samples = kept))
  | look => .known kept
  | start _ => .session (Session.start kept c.words).1
  | enter user => .session ((c.sessions user).getD (Session.start kept c.words).1)

/-! ## One call -/

def BegunWith (kept : Samples) (s : Session) : Prop := ∃ words, s = (Session.start kept words).1

/-- All use one set: it is in the store or comes there with the next call, and where there is a
session there is the set that it was begun with. -/
structure Uses (kept : Samples) (next : Call) (c : Crowd σ) : Prop where
  store : c.store.installed.getD next.brings = kept
  begun : ∀ user s, c.sessions user = some s → c.store = ⟨some kept⟩ ∧ BegunWith kept s

/-- The crowd when a set is there and all sessions were begun with it. -/
structure Settled (kept : Samples) (c : Crowd σ) : Prop where
  store : c.store = ⟨some kept⟩
  begun : ∀ user s, c.sessions user = some s → BegunWith kept s

theorem Settled.uses {kept : Samples} {c : Crowd σ} (h : Settled kept c) (next : Call) :
    Uses kept next c where
  store := by rw [h.store]; rfl
  begun user s session := ⟨h.store, h.begun user s session⟩

section Step

variable {kept : Samples} {c : Crowd σ}

/-- A user begins a session with the set that there is, or with the built-in one. -/
theorem lift_beginSession (user : Nat) (view : c.store.view = kept) :
    Crowd.lift user Visitor.beginSession c =
      ((Session.start kept c.words).1,
        { c with
          store := ⟨some kept⟩
          words := (Session.start kept c.words).2
          sessions := Function.update c.sessions user (some (Session.start kept c.words).1) }) := by
  subst view
  simp only [Crowd.lift, Visitor.beginSession_apply, Crowd.withVisitor_eq]
  rfl

/-- A new session leaves all sessions begun with the set. -/
theorem settled_update {c : Crowd σ} (begun : ∀ user s, c.sessions user = some s → BegunWith kept s)
    (user : Nat) (words later : Words) :
    Settled kept
      { c with
        store := ⟨some kept⟩
        words := later
        sessions := Function.update c.sessions user (some (Session.start kept words).1) } where
  store := rfl
  begun := by
    have all := Function.forall_update_iff c.sessions (a := user)
      (b := some (Session.start kept words).1)
      (p := fun _ entry => ∀ s, entry = some s → BegunWith kept s)
    refine all.mpr ⟨?_, fun other _ => begun other⟩
    rintro s begins
    exact ⟨words, (Option.some.inj begins).symm⟩

/-- A call gives back what it should, and from then on the set is there. -/
theorem perform_step {next : Call} (h : Uses kept next c) :
    (perform next c).1 = answer kept c next ∧ Settled kept (perform next c).2 := by
  have begun : ∀ user s, c.sessions user = some s → BegunWith kept s :=
    fun user s session => (h.begun user s session).2
  cases next with
  | install samples =>
    have left := SampleStore.install_snd samples c.store
    have told := SampleStore.install_fst samples c.store
    have same : c.store.installed.getD samples = kept := h.store
    rw [same] at left
    rw [left] at told
    refine ⟨?_, left, begun⟩
    exact congrArg Answer.installed (told.trans (decide_eq_decide.mpr eq_comm))
  | look =>
    have view : c.store.view = kept := h.store
    have got := SampleStore.get_eq c.store
    rw [view] at got
    exact ⟨congrArg (Answer.known ∘ Prod.fst) got, congrArg Prod.snd got, begun⟩
  | start user =>
    have begins := lift_beginSession user (h.store : c.store.view = kept)
    simp only [perform, bind, StateT.bind, begins]
    exact ⟨rfl, settled_update begun user c.words _⟩
  | enter user =>
    cases session : c.sessions user with
    | none =>
      -- the same as beginning a session
      have begins := lift_beginSession user (h.store : c.store.view = kept)
      have current : Crowd.lift user Visitor.current c =
          Crowd.lift user Visitor.beginSession c := by
        have absent : (c.visitor user).session = none := session
        rw [Crowd.lift, Visitor.current_of_none absent]
        rfl
      simp only [perform, bind, StateT.bind, current, begins, answer, session]
      exact ⟨rfl, settled_update begun user c.words _⟩
    | some s =>
      have present : (c.visitor user).session = some s := session
      have current : Crowd.lift user Visitor.current c = (s, c) := by
        have same : Function.update c.sessions user (some s) = c.sessions :=
          Function.update_eq_self_iff.mpr session.symm
        simp only [Crowd.lift, Visitor.current_of_some present, Crowd.withVisitor_eq, present, same]
        rfl
      simp only [perform, bind, StateT.bind, current, answer, session]
      exact ⟨rfl, (h.begun user s session).1, begun⟩

end Step

/-! ## Many calls -/

/-- After calls everything is settled with what the first one brought; before the first one the
next call will settle it. -/
theorem performAll_uses {kept : Samples} {past : List Call} {next : Call} {c : Crowd σ}
    (h : Uses kept (past.headD next) c) :
    Uses kept next (performAll past c).2 ∧ (past ≠ [] → Settled kept (performAll past c).2) := by
  induction past generalizing c with
  | nil => exact ⟨h, fun nonempty => absurd rfl nonempty⟩
  | cons call past ih =>
    have settled : Settled kept (perform call c).2 := (perform_step h).2
    obtain ⟨uses, later⟩ := ih (settled.uses _)
    rw [performAll, mapM_cons_apply]
    refine ⟨uses, fun _ => ?_⟩
    by_cases last : past = []
    · subst last
      exact settled
    · exact later last

/-- In a process that starts without samples and without sessions, the first call alone says which
set is kept.  It is there after that call and after every later one; it is what everybody sees and
begins a session with; and a set that is put in is reported as installed just when it is that
one. -/
theorem first_call_settles_samples (words : Words) (service : σ) (past : List Call) (next : Call) :
    let kept := (past.headD next).brings
    let before := (performAll past (.fresh words service)).2
    let now := perform next before
    (past = [] → before.store.installed = none) ∧
    (past ≠ [] → before.store.installed = some kept) ∧
    now.2.store.installed = some kept ∧
    now.1 = answer kept before next ∧
    (∀ samples, next = .install samples →
      (now.1 = .installed true ↔ now.2.store.installed = some samples)) ∧
    ∀ user s, now.2.sessions user = some s → BegunWith kept s := by
  intro kept before now
  have start : Uses kept (past.headD next) (.fresh words service) := ⟨rfl, nofun⟩
  obtain ⟨uses, later⟩ := performAll_uses start
  obtain ⟨answered, settled⟩ := perform_step uses
  have stored : now.2.store.installed = some kept := congrArg SampleStore.installed settled.store
  refine ⟨?_, fun nonempty => congrArg SampleStore.installed (later nonempty).store, stored,
    answered, ?_, settled.begun⟩
  · intro nothing_yet
    subst nothing_yet
    rfl
  · rintro samples rfl
    rw [stored, answered, Option.some_inj]
    simp [answer, eq_comm]

/-- A set that comes after the first session is told to come too late, and comes too late for the
next session as well. -/
theorem first_call_settles_samples_late_install :
    let own : Samples := { pubkeys := ["02aa"], postIds := ["ff00"], fallbackPostId := "ff00" }
    let after (past : List Call) : Crowd Unit := (performAll past (.fresh (.cyclic []) ())).2
    (perform (.install own) (after [.start 0, .enter 0])).1 = .installed false ∧
      (perform (.install .default) (after [.start 0, .enter 0])).1 = .installed true ∧
      (after [.start 0, .enter 0, .install own]).store.installed = some .default ∧
      ∀ s, (perform (.enter 1) (after [.start 0, .enter 0, .install own])).2.sessions 1 = some s →
        BegunWith .default s := by
  intro own after
  obtain ⟨-, -, -, late, -, -⟩ :=
    first_call_settles_samples (.cyclic []) () [.start 0, .enter 0] (.install own)
  obtain ⟨-, -, stored, -, told, -⟩ :=
    first_call_settles_samples (.cyclic []) () [.start 0, .enter 0] (.install .default)
  obtain ⟨-, kept, -, -, -, begun⟩ :=
    first_call_settles_samples (.cyclic []) () [.start 0, .enter 0, .install own] (.enter 1)
  exact ⟨late.trans (congrArg Answer.installed (by decide)), (told _ rfl).mpr stored,
    kept (List.cons_ne_nil _ _), begun 1⟩

end Call

end FeedTraffic.Traffic
