import FeedTraffic.Proofs.Stateful
import FeedTraffic.Traffic.Totals
import Mathlib.Data.List.Basic

/-!
# Measurements and verdicts

There are two notions of success: a status of success, by which a request is measured at first,
and the verdict on its answer.  A second measurement is made exactly when they differ, so the last
one always says what the verdict says, and the counts of a test are counts of verdicts.  The text
of an error is another matter: the verdict's own message is kept only where the status was one of
success.
-/

namespace FeedTraffic.Traffic

open FeedTraffic.Feed FeedTraffic.Http

/-- Whether a reply is an answer with the verdict that the request passed. -/
def passes (r : Request) : Reply → Bool
  | .answered answer =>
    decide (Verdict.classify answer.status r.expect answer.text = .pass)
  | .failed _ _ => false

theorem passes_iff (r : Request) (reply : Reply) :
    passes r reply = true ↔ ∃ answer, reply = .answered answer ∧
      Verdict.classify answer.status r.expect answer.text = .pass := by
  cases reply with
  | answered answer => simp [passes]
  | failed cause address => simp [passes]

theorem isSuccess_iff (status : Nat) :
    Status.isSuccess status = true ↔ 200 ≤ status ∧ status ≤ 299 := by
  simp only [Status.isSuccess, Bool.and_eq_true, decide_eq_true_eq]

/-! ## The two measurements -/

namespace Measurement

theorem ofStatus_name (name : String) (status : Nat) : (ofStatus name status).name = name := by
  by_cases h : Status.isSuccess status <;> simp [ofStatus, h]

theorem ofStatus_update (name : String) (status : Nat) :
    (ofStatus name status).update = false := by
  by_cases h : Status.isSuccess status <;> simp [ofStatus, h]

theorem ofStatus_success (name : String) (status : Nat) :
    (ofStatus name status).success = Status.isSuccess status := by
  by_cases h : Status.isSuccess status <;> simp [ofStatus, h]

theorem ofStatus_error (name : String) (status : Nat) :
    (ofStatus name status).error =
      if Status.isSuccess status then "" else Status.text status ++ ": " ++ name := by
  by_cases h : Status.isSuccess status <;> simp [ofStatus, h]

end Measurement

namespace Sent

abbrev raw (r : Request) (answer : Response) : Measurement :=
  .ofStatus r.endpoint.path answer.status

theorem ofResponse_of_pass {r : Request} {answer : Response}
    (verdict : Verdict.classify answer.status r.expect answer.text = .pass) :
    ofResponse r answer =
      ⟨r, if Status.isSuccess answer.status then [raw r answer]
        else [raw r answer, (raw r answer).passed], .passed answer.text⟩ := by
  simp only [ofResponse, verdict, Measurement.ofStatus_success]

theorem ofResponse_of_fail {r : Request} {answer : Response} {message : String}
    (verdict : Verdict.classify answer.status r.expect answer.text = .fail message) :
    ofResponse r answer =
      if Status.isSuccess answer.status then
        ⟨r, [raw r answer, (raw r answer).failed message],
          .failed ((raw r answer).failed message) message⟩
      else ⟨r, [raw r answer], .failed (raw r answer) message⟩ := by
  by_cases h : Status.isSuccess answer.status <;>
    simp [ofResponse, verdict, Measurement.ofStatus_success, h]

/-- What the measurements and the outcome of a request have to do with its reply. -/
structure Settles (r : Request) (reply : Reply) (sent : Sent) : Prop where
  /-- One measurement that takes no other's place comes first, and one that does may follow. -/
  shape : ∃ first, first.update = false ∧
    (sent.measurements = [first] ∨
      ∃ second, second.update = true ∧ second.success = !first.success ∧
        sent.measurements = [first, second])
  /-- The second is made exactly when verdict and status of an answer disagree. -/
  second_iff : sent.measurements.length = 2 ↔ ∃ answer, reply = .answered answer ∧
    ¬(Verdict.classify answer.status r.expect answer.text = .pass ↔
      200 ≤ answer.status ∧ answer.status ≤ 299)
  /-- The last measurement is a success exactly when there is an answer that passes. -/
  success_iff : ∃ last, sent.measurements.getLast? = some last ∧
    (last.success = true ↔ ∃ answer, reply = .answered answer ∧
      Verdict.classify answer.status r.expect answer.text = .pass)
  /-- The name is the path of the endpoint. -/
  name : ∀ m ∈ sent.measurements, m.name = r.endpoint.path
  passed_iff : ∀ body, sent.outcome = .passed body ↔ ∃ answer, reply = .answered answer ∧
    Verdict.classify answer.status r.expect answer.text = .pass ∧ answer.text = body
  lost_iff : (∃ cause address, sent.outcome = .lost cause address) ↔
    ∃ cause address, reply = .failed cause address
  failed_iff : (∃ last message, sent.outcome = .failed last message) ↔
    ∃ answer message, reply = .answered answer ∧
      Verdict.classify answer.status r.expect answer.text = .fail message

theorem settles_of_loss (r : Request) (cause : Failure) (address : Url) :
    Settles r (.failed cause address) (ofReply r (.failed cause address)) where
  shape := ⟨.ofLoss r.endpoint.path, rfl, Or.inl rfl⟩
  second_iff := by simp [ofReply]
  success_iff := ⟨.ofLoss r.endpoint.path, rfl, by simp [Measurement.ofLoss]⟩
  name := by simp [ofReply, Measurement.ofLoss]
  passed_iff := by simp [ofReply]
  lost_iff := by simp [ofReply]
  failed_iff := by simp [ofReply]

/-! An answer is measured a second time exactly when its status and its verdict disagree. -/

section Answer

variable (r : Request) (answer : Response)

/-- The measurement that takes the place of the first where the verdict says otherwise. -/
def revised : Measurement :=
  match Verdict.classify answer.status r.expect answer.text with
  | .pass => (raw r answer).passed
  | .fail message => (raw r answer).failed message

theorem revised_update : (revised r answer).update = true := by
  rw [revised]
  split <;> rfl

theorem revised_name : (revised r answer).name = r.endpoint.path := by
  rw [← Measurement.ofStatus_name r.endpoint.path answer.status, revised]
  split <;> rfl

theorem revised_success : (revised r answer).success = passes r (.answered answer) := by
  rw [revised, passes]
  split
  · rename_i verdict
    rw [verdict]
    rfl
  · rename_i verdict
    rw [verdict]
    rfl

theorem ofResponse_measurements :
    (ofResponse r answer).measurements =
      if Status.isSuccess answer.status = passes r (.answered answer) then [raw r answer]
      else [raw r answer, revised r answer] := by
  cases verdict : Verdict.classify answer.status r.expect answer.text with
  | pass =>
    rw [ofResponse_of_pass verdict]
    simp only [passes, revised, verdict, decide_true]
  | fail message =>
    rw [ofResponse_of_fail verdict]
    by_cases good : Status.isSuccess answer.status = true <;>
      simp [passes, revised, verdict, good]

theorem agree_iff :
    Status.isSuccess answer.status = passes r (.answered answer) ↔
      (Verdict.classify answer.status r.expect answer.text = .pass ↔
        200 ≤ answer.status ∧ answer.status ≤ 299) := by
  rw [Bool.eq_iff_iff, isSuccess_iff, passes, decide_eq_true_eq]
  exact iff_comm

theorem length_measurements :
    (ofResponse r answer).measurements.length = 2 ↔
      ¬(Verdict.classify answer.status r.expect answer.text = .pass ↔
        200 ≤ answer.status ∧ answer.status ≤ 299) := by
  rw [← agree_iff, ofResponse_measurements]
  by_cases agree : Status.isSuccess answer.status = passes r (.answered answer)
  · simp [agree]
  · simp [agree]

/-- The last measurement of an answer, the only one or the second. -/
def final : Measurement :=
  if Status.isSuccess answer.status = passes r (.answered answer) then raw r answer
  else revised r answer

theorem getLast_measurements :
    (ofResponse r answer).measurements.getLast? = some (final r answer) := by
  rw [ofResponse_measurements, final]
  split <;> rfl

/-- The last measurement says what the verdict says. -/
theorem final_success : (final r answer).success = passes r (.answered answer) := by
  by_cases agree : Status.isSuccess answer.status = passes r (.answered answer)
  · rw [final, if_pos agree]
    exact (Measurement.ofStatus_success _ _).trans agree
  · rw [final, if_neg agree]
    exact revised_success r answer

theorem ofResponse_outcome :
    (Verdict.classify answer.status r.expect answer.text = .pass ∧
        (ofResponse r answer).outcome = .passed answer.text) ∨
      ∃ message, Verdict.classify answer.status r.expect answer.text = .fail message ∧
        (ofResponse r answer).outcome = .failed (final r answer) message := by
  cases verdict : Verdict.classify answer.status r.expect answer.text with
  | pass =>
    rw [ofResponse_of_pass verdict]
    exact Or.inl ⟨rfl, rfl⟩
  | fail message =>
    refine Or.inr ⟨message, rfl, ?_⟩
    rw [ofResponse_of_fail verdict]
    by_cases good : Status.isSuccess answer.status = true <;>
      simp [final, passes, revised, verdict, good]

theorem shape_of_answer :
    ∃ first, first.update = false ∧
      ((ofResponse r answer).measurements = [first] ∨
        ∃ second, second.update = true ∧ second.success = !first.success ∧
          (ofResponse r answer).measurements = [first, second]) := by
  have fresh := Measurement.ofStatus_update r.endpoint.path answer.status
  have success := Measurement.ofStatus_success r.endpoint.path answer.status
  have measurements := ofResponse_measurements r answer
  by_cases agree : Status.isSuccess answer.status = passes r (.answered answer)
  · rw [if_pos agree] at measurements
    exact ⟨raw r answer, fresh, Or.inl measurements⟩
  · rw [if_neg agree] at measurements
    have differs : (revised r answer).success = !(raw r answer).success := by
      rw [revised_success, success]
      exact Bool.eq_not_of_ne (Ne.symm agree)
    exact ⟨raw r answer, fresh,
      Or.inr ⟨revised r answer, revised_update r answer, differs, measurements⟩⟩

theorem settles_of_answer : Settles r (.answered answer) (ofResponse r answer) where
  shape := shape_of_answer r answer
  second_iff := by simp [length_measurements]
  success_iff := by
    refine ⟨final r answer, getLast_measurements r answer, ?_⟩
    rw [final_success, passes_iff]
  name := by
    intro m member
    have named : m = raw r answer ∨ m = revised r answer := by
      rw [ofResponse_measurements] at member
      split at member
      · exact Or.inl (List.mem_singleton.mp member)
      · simpa using member
    rcases named with rfl | rfl
    · exact Measurement.ofStatus_name _ _
    · exact revised_name r answer
  passed_iff := by
    intro body
    rcases ofResponse_outcome r answer with ⟨verdict, ended⟩ | ⟨message, verdict, ended⟩
    · simp [verdict, ended]
    · simp [verdict, ended]
  lost_iff := by
    rcases ofResponse_outcome r answer with ⟨-, ended⟩ | ⟨message, -, ended⟩
    · simp [ended]
    · simp [ended]
  failed_iff := by
    rcases ofResponse_outcome r answer with ⟨verdict, ended⟩ | ⟨message, verdict, ended⟩
    · simp [verdict, ended]
    · simp [verdict, ended]

end Answer

theorem settles (r : Request) (reply : Reply) : Settles r reply (ofReply r reply) := by
  cases reply with
  | failed cause address => exact settles_of_loss r cause address
  | answered answer => exact settles_of_answer r answer

end Sent

/-! ## Counts of verdicts -/

namespace Count

theorem add_name (m : Measurement) (c : Count) : (add m c).name = c.name := by
  cases update : m.update <;> cases success : m.success <;> simp only [add, update, success]

/-- One more request that passed or failed. -/
def tally (passed : Bool) (c : Count) : Count :=
  if passed then { c with successes := c.successes + 1 } else { c with failures := c.failures + 1 }

/-- A first measurement and the one that takes its place count as the second alone. -/
theorem add_add_of_update {first second : Measurement} (fresh : first.update = false)
    (update : second.update = true) (differs : second.success = !first.success) (c : Count) :
    add second (add first c) = tally second.success c := by
  cases success : first.success <;>
    simp [add, tally, fresh, update, differs, success]

theorem add_of_fresh {m : Measurement} (fresh : m.update = false) (c : Count) :
    add m c = tally m.success c := by
  cases success : m.success <;> simp [add, tally, fresh, success]

end Count

namespace Totals

theorem change_change (name : String) {f g : Count → Count} (keeps : ∀ c, (f c).name = c.name)
    (totals : Totals) :
    (totals.change name f).change name g = totals.change name (fun c => g (f c)) := by
  induction totals with
  | nil => simp [change, keeps]
  | cons c cs ih =>
    by_cases h : c.name = name
    · simp [change, h, keeps]
    · simp [change, h, ih]

/-- A change that adds to one size of a count adds as much to the sum over all counts. -/
theorem sum_change {name : String} {f : Count → Count} {size : Count → Nat} {n : Nat}
    (fresh : size { name } = 0) (adds : ∀ c, size (f c) = size c + n) (totals : Totals) :
    ((totals.change name f).map size).sum = (totals.map size).sum + n := by
  induction totals with
  | nil => simp [change, adds, fresh]
  | cons c cs ih =>
    by_cases h : c.name = name
    · simp only [change, h, if_true, List.map_cons, List.sum_cons, adds]
      omega
    · simp only [change, h, if_false, List.map_cons, List.sum_cons, ih]
      omega

theorem successes_tally (name : String) (passed : Bool) (totals : Totals) :
    successes (totals.change name (Count.tally passed)) =
      successes totals + (if passed then 1 else 0) :=
  sum_change rfl (by intro c; cases passed <;> rfl) totals

theorem failures_tally (name : String) (passed : Bool) (totals : Totals) :
    failures (totals.change name (Count.tally passed)) =
      failures totals + (if passed then 0 else 1) :=
  sum_change rfl (by intro c; cases passed <;> rfl) totals

/-- All measurements of one request together count one verdict. -/
theorem foldl_add_measurements {r : Request} {reply : Reply} {sent : Sent}
    (h : sent.Settles r reply) (totals : Totals) :
    sent.measurements.foldl add totals =
      totals.change ("GET " ++ r.endpoint.path) (Count.tally (passes r reply)) := by
  obtain ⟨last, at_end, success⟩ := h.success_iff
  have verdict : last.success = passes r reply := by
    rw [Bool.eq_iff_iff, success, passes_iff]
  have name := h.name
  obtain ⟨first, fresh, one | ⟨second, update, differs, two⟩⟩ := h.shape
  · rw [one] at at_end name ⊢
    obtain rfl : first = last := Option.some.inj at_end
    have named : nameOf first = "GET " ++ r.endpoint.path :=
      congrArg ("GET " ++ ·) (name first List.mem_cons_self)
    have tallied : Count.add first = Count.tally (passes r reply) :=
      funext fun c => verdict ▸ Count.add_of_fresh fresh c
    simp only [List.foldl_cons, List.foldl_nil, add, named, tallied]
  · rw [two] at at_end name ⊢
    obtain rfl : second = last := Option.some.inj at_end
    have first_named : nameOf first = "GET " ++ r.endpoint.path :=
      congrArg ("GET " ++ ·) (name first List.mem_cons_self)
    have second_named : nameOf second = "GET " ++ r.endpoint.path :=
      congrArg ("GET " ++ ·) (name second (List.mem_cons_of_mem _ List.mem_cons_self))
    have tallied : (fun c => Count.add second (Count.add first c)) =
        Count.tally (passes r reply) :=
      funext fun c => verdict ▸ Count.add_add_of_update fresh update differs c
    simp only [List.foldl_cons, List.foldl_nil, add, first_named, second_named]
    rw [change_change _ (Count.add_name first), tallied]

/-- The measurements of requests with their replies add one success for each that passes and one
failure for each other. -/
theorem counts_of_replies (pairs : List (Request × Reply)) (totals : Totals) :
    let sent := pairs.map fun p => Sent.ofReply p.1 p.2
    let counted := (sent.flatMap (·.measurements)).foldl add totals
    let passed := pairs.countP fun p => passes p.1 p.2
    successes counted = successes totals + passed ∧
      successes counted + failures counted =
        successes totals + failures totals + pairs.length := by
  induction pairs generalizing totals with
  | nil => exact ⟨rfl, rfl⟩
  | cons p rest ih =>
    have step := foldl_add_measurements (Sent.settles p.1 p.2) totals
    obtain ⟨passed, all⟩ := ih ((Sent.ofReply p.1 p.2).measurements.foldl add totals)
    rw [step, successes_tally] at passed
    rw [step, successes_tally, failures_tally] at all
    simp only [List.map_cons, List.flatMap_cons, List.foldl_append, List.countP_cons,
      List.length_cons]
    rw [step]
    constructor
    · rw [passed]
      omega
    · rw [all]
      cases passes p.1 p.2 <;> simp <;> omega

end Totals

/-! ## Sending -/

section Sending

variable {σ : Type} (service : Service σ) (base : Url)

def replies (rs : List Request) : StateM σ (List Reply) :=
  rs.mapM fun r => exchange service (address base r)

theorem send_apply (r : Request) (s : σ) :
    send service base r s =
      let got := exchange service (address base r) s
      (Sent.ofReply r got.1, got.2) := rfl

theorem mapM_send (rs : List Request) (s : σ) :
    rs.mapM (send service base) s =
      let got := replies service base rs s
      ((rs.zip got.1).map (fun p => Sent.ofReply p.1 p.2), got.2) := by
  induction rs generalizing s with
  | nil => rfl
  | cons r rest ih =>
    have later := ih (exchange service (address base r) s).2
    simp only [replies] at later
    simp only [replies, Stateful.mapM_cons_apply, send_apply, later, List.zip_cons_cons,
      List.map_cons]

/-- Whatever a service does, the measurements of a request and its outcome are those of the
verdict on the last answer, or of its loss.  Over any number of requests the measurements count
one success for each that passes and one failure for each other. -/
theorem send_settles_verdict :
    (∀ r s, Sent.Settles r (exchange service (address base r) s).1 (send service base r s).1) ∧
      ∀ (rs : List Request) (s : σ),
        let sent := (rs.mapM (send service base) s).1
        let totals := Totals.ofMeasurements (sent.flatMap (·.measurements))
        let passed := (rs.zip (replies service base rs s).1).countP fun p => passes p.1 p.2
        Totals.successes totals = passed ∧
          Totals.successes totals + Totals.failures totals = rs.length := by
  constructor
  · intro r s
    exact Sent.settles r _
  · intro rs s sent totals passed
    have counted := Totals.counts_of_replies (rs.zip (replies service base rs s).1) []
    have sends : sent = (rs.zip (replies service base rs s).1).map
        (fun p => Sent.ofReply p.1 p.2) := congrArg Prod.fst (mapM_send service base rs s)
    have none_lost : (rs.zip (replies service base rs s).1).length = rs.length := by
      rw [List.length_zip, replies, Stateful.length_mapM, Nat.min_self]
    simp only [← sends, none_lost] at counted
    obtain ⟨successes, all⟩ := counted
    constructor
    · exact successes.trans (Nat.zero_add _)
    · exact all.trans (Nat.zero_add _)

end Sending

/-! ## Texts of errors -/

/-- The text of a status starts with a digit. -/
theorem head_statusText (status : Nat) :
    ∃ c, (Status.text status).toList.head? = some c ∧ c.isDigit = true := by
  cases digits : Nat.toDigits 10 status with
  | nil => exact absurd digits Nat.toDigits_ne_nil
  | cons c rest =>
    have digit : c ∈ Nat.toDigits 10 status := digits ▸ List.mem_cons_self
    have front : (toString status).toList = c :: rest := Nat.toList_repr.trans digits
    refine ⟨c, ?_, Nat.isDigit_of_mem_toDigits (by decide) (by decide) digit⟩
    simp only [Status.text, String.toList_append, front, List.cons_append, List.head?_cons]

/-- The message of a verdict starts with a letter. -/
theorem head_preamble (expect : Expectation) (status : Nat) :
    ∃ c, (Verdict.preamble expect status).toList.head? = some c ∧ c.isDigit = false := by
  cases expect with
  | ok => exact ⟨'G', by simp [Verdict.preamble, String.toList_append], rfl⟩
  | clientError =>
    by_cases h : status = 200
    · exact ⟨'E', by simp [Verdict.preamble, h], rfl⟩
    · exact ⟨'U', by simp [Verdict.preamble, h, String.toList_append], rfl⟩

theorem head_append {s t : String} {c : Char} (h : s.toList.head? = some c) :
    (s ++ t).toList.head? = some c := by
  rw [String.toList_append, List.head?_append, h, Option.some_or]

/-- No verdict's message is the text by which an answer without success is measured. -/
theorem message_ne_statusText {r : Request} {answer : Response} {message : String}
    (verdict : Verdict.classify answer.status r.expect answer.text = .fail message) :
    Status.text answer.status ++ ": " ++ r.endpoint.path ≠ message := by
  intro same
  obtain ⟨digit, in_text, isDigit⟩ := head_statusText answer.status
  obtain ⟨letter, in_message, isLetter⟩ := head_preamble r.expect answer.status
  have quoted : Verdict.preamble r.expect answer.status ++ Verdict.quote answer.text = message := by
    simp only [Verdict.classify] at verdict
    split at verdict
    · cases verdict
    · exact Verdict.fail.inj verdict
  have heads : some digit = some letter := by
    rw [← head_append (head_append in_text), ← head_append in_message, same, quoted]
  rw [Option.some.inj heads, isLetter] at isDigit
  cases isDigit

theorem statusText_ne_empty (r : Request) (answer : Response) :
    Status.text answer.status ++ ": " ++ r.endpoint.path ≠ "" := by
  obtain ⟨digit, in_text, -⟩ := head_statusText answer.status
  intro empty
  have head := head_append (t := r.endpoint.path) (head_append (t := ": ") in_text)
  rw [empty] at head
  cases head

/-- The text of the last measurement, for either verdict. -/
theorem final_error (r : Request) (answer : Response) :
    (Sent.final r answer).error =
      if Status.isSuccess answer.status then
        match Verdict.classify answer.status r.expect answer.text with
        | .pass => ""
        | .fail message => message
      else Status.text answer.status ++ ": " ++ r.endpoint.path := by
  have error := Measurement.ofStatus_error r.endpoint.path answer.status
  cases verdict : Verdict.classify answer.status r.expect answer.text with
  | pass =>
    by_cases good : Status.isSuccess answer.status = true <;>
      simp [Sent.final, Sent.revised, passes, verdict, good, Measurement.passed, error]
  | fail message =>
    by_cases good : Status.isSuccess answer.status = true <;>
      simp [Sent.final, Sent.revised, passes, verdict, good, Measurement.failed, error]

/-- An answer whose status is no success keeps the text of its status, whatever the verdict. -/
theorem reported_text_iff {σ : Type} (service : Service σ) (base : Url) (r : Request) (s : σ)
    (answer : Response) (answered : (exchange service (address base r) s).1 = .answered answer) :
    let sent := (send service base r s).1
    let status := answer.status
    ∃ last, sent.measurements.getLast? = some last ∧
      (∀ message, Verdict.classify status r.expect answer.text = .fail message →
        sent.outcome = .failed last message ∧
          (last.error = message ↔ 200 ≤ status ∧ status ≤ 299)) ∧
      (Verdict.classify status r.expect answer.text = .pass →
        (last.error = "" ↔ 200 ≤ status ∧ status ≤ 299)) ∧
      (¬(200 ≤ status ∧ status ≤ 299) →
        last.error = Status.text status ++ ": " ++ r.endpoint.path) := by
  intro sent status
  have settled : sent = Sent.ofResponse r answer := by
    simp only [sent, send_apply, answered, Sent.ofReply]
  have error := final_error r answer
  refine ⟨Sent.final r answer, settled ▸ Sent.getLast_measurements r answer, ?_, ?_, ?_⟩
  · intro message verdict
    have ended : sent.outcome = .failed (Sent.final r answer) message := by
      rcases Sent.ofResponse_outcome r answer with ⟨passed, -⟩ | ⟨_, failed, outcome⟩
      · rw [passed] at verdict
        cases verdict
      · rw [settled, outcome, Verdict.fail.inj (failed.symm.trans verdict)]
    refine ⟨ended, ?_⟩
    rw [error, verdict, ← isSuccess_iff]
    by_cases good : Status.isSuccess status = true
    · simp [status, good]
    · rw [if_neg good]
      exact iff_of_false (message_ne_statusText verdict) good
  · intro verdict
    rw [error, verdict, ← isSuccess_iff]
    by_cases good : Status.isSuccess status = true
    · simp [status, good]
    · rw [if_neg good]
      exact iff_of_false (statusText_ne_empty r answer) good
  · intro outside
    rw [error, if_neg (mt (isSuccess_iff status).mp outside)]

private def localBase : Url := { scheme := "http", authority := some "127.0.0.1", path := "/" }

theorem reported_text_iff_partial_content :
    let script : Script := { cues := [.respond (.ofText 206 "half")] }
    let r : Request := { endpoint := .posts }
    (exchange Script.service (address localBase r) script).1 = .answered (.ofText 206 "half") ∧
      ∃ last, (send Script.service localBase r script).1.measurements.getLast? = some last ∧
        last.error = "Got 206: half" := by
  intro script r
  have answered : (exchange Script.service (address localBase r) script).1 =
      .answered (.ofText 206 "half") := rfl
  have verdict : Verdict.classify 206 .ok (Response.ofText 206 "half").text =
      .fail "Got 206: half" := by decide +kernel
  obtain ⟨last, at_end, failing, -, -⟩ :=
    reported_text_iff Script.service localBase r script _ answered
  exact ⟨answered, last, at_end, (failing _ verdict).2.mpr (by decide)⟩

/-- The message of a verdict is lost where the status was no success to begin with, and a request
that passes with such a status leaves the text of that status behind. -/
theorem reported_text_of_refusals :
    let broken : Script := { cues := [.respond (.ofText 500 "boom")] }
    let refusing : Script := { cues := [.respond (.ofText 400 "")] }
    let wellFormed : Request := { endpoint := .posts }
    let malformed : Request := { endpoint := .posts, expect := .clientError }
    Verdict.classify 500 .ok (Response.ofText 500 "boom").text = .fail "Got 500: boom" ∧
      (send Script.service localBase wellFormed broken).1.failure?.map (·.error) =
        some "500 Internal Server Error: /get-posts" ∧
      Verdict.classify 400 .clientError (Response.ofText 400 "").text = .pass ∧
      (send Script.service localBase malformed refusing).1.measurements.getLast?.map (·.error) =
        some "400 Bad Request: /get-posts" := by
  decide +kernel

end FeedTraffic.Traffic
