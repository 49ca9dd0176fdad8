import FeedTraffic.Traffic.Measurement

/-!
# Requests that a client starts

A client sends some requests of its own accord and others because an answer sent it elsewhere.  A
recorder in front of a service passes all of them on and keeps the addresses of the former.  It
changes nothing about an exchange, and of each exchange it keeps one address.
-/

namespace FeedTraffic.Http

variable {σ : Type}

/-- A service with the requests that its client started. -/
structure Recording (σ : Type) where
  service : σ
  /-- Where they went, the first one first. -/
  started : List Url := []
  /-- How many requests may still come of the last one; if none, the next one is started anew. -/
  pending : Nat := 0

/-- Whether an answer to a request sends the client elsewhere. -/
def leadsOn (u : Url) : Except Failure Response → Bool
  | .ok r => (r.next? u).isSome
  | .error _ => false

def Service.recorded (service : Service σ) : Service (Recording σ) := fun u kept =>
  let (answer, state) := service u kept.service
  let left := if kept.pending = 0 then maxRequests else kept.pending
  (answer,
    { service := state
      started := if kept.pending = 0 then kept.started ++ [u] else kept.started
      pending := if leadsOn u answer then left - 1 else 0 })

/-- One request of an exchange: it ends here, or goes on elsewhere if there are requests left. -/
theorem follow_succ (service : Service σ) (left : Nat) (u : Url) (s : σ) :
    follow service (left + 1) u s =
      let asked := service u s
      match asked.1 with
      | .error cause => (.failed cause u, asked.2)
      | .ok r =>
        match r.next? u with
        | none => (.answered r, asked.2)
        | some v =>
          if left = 0 then (.failed .redirects u, asked.2) else follow service left v asked.2 := by
  rw [follow]
  rcases asked : service u s with ⟨answer, state⟩
  cases answer with
  | error cause =>
    simp only [bind, StateT.bind, asked]
    rfl
  | ok r =>
    simp only [bind, StateT.bind, asked]
    cases r.next? u with
    | none => rfl
    | some v =>
      by_cases last : left = 0
      · simp only [last, if_true]
        rfl
      · simp only [last, if_false]

/-- In the midst of an exchange the recorder counts as the client does. -/
theorem follow_recorded (service : Service σ) (left : Nat) (u : Url) (kept : Recording σ)
    (counts : left + 1 = if kept.pending = 0 then maxRequests else kept.pending) :
    follow service.recorded (left + 1) u kept =
      let plain := follow service (left + 1) u kept.service
      (plain.1,
        { service := plain.2
          started := if kept.pending = 0 then kept.started ++ [u] else kept.started }) := by
  induction left generalizing u kept with
  | zero =>
    rw [follow_succ, follow_succ]
    rcases asked : service u kept.service with ⟨answer, state⟩
    simp only [Service.recorded, asked, ← counts]
    cases answer with
    | error cause => rfl
    | ok r => cases next : r.next? u <;> simp [leadsOn, next]
  | succ left ih =>
    rw [follow_succ, follow_succ]
    rcases asked : service u kept.service with ⟨answer, state⟩
    simp only [Service.recorded, asked, ← counts]
    cases answer with
    | error cause => rfl
    | ok r =>
      cases next : r.next? u with
      | none => simp [leadsOn, next]
      | some v =>
        -- the recorder waits for the rest of the exchange
        have rest := ih v
          { service := state
            started := if kept.pending = 0 then kept.started ++ [u] else kept.started
            pending := left + 1 } rfl
        simpa [leadsOn, next] using rest

/-- A recorder keeps the address that an exchange begins with, and otherwise changes nothing. -/
theorem exchange_recorded (service : Service σ) (u : Url) (s : σ) (started : List Url) :
    exchange service.recorded u { service := s, started } =
      ((exchange service u s).1,
        { service := (exchange service u s).2, started := started ++ [u.withoutUser] }) :=
  follow_recorded service (maxRequests - 1) u.withoutUser { service := s, started } rfl

end FeedTraffic.Http

namespace FeedTraffic.Traffic

open FeedTraffic.Feed FeedTraffic.Http

/-- Sending a request starts one, to its own address. -/
theorem send_recorded {σ : Type} (service : Service σ) (base : Url) (r : Request) (s : σ)
    (started : List Url) :
    send service.recorded base r { service := s, started } =
      ((send service base r s).1,
        { service := (send service base r s).2
          started := started ++ [(address base r).withoutUser] }) := by
  simp only [send, bind, StateT.bind, exchange_recorded]
  rfl

end FeedTraffic.Traffic
