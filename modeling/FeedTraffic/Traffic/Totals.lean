import FeedTraffic.Traffic.Measurement

/-!
# Totals

Passed and failed requests are counted for each request name.  A measurement that takes the place
of another moves one count from one side to the other.  A summary lists the counts by name.
-/

namespace FeedTraffic.Traffic

structure Count where
  name : String
  successes : Nat := 0
  /-- Requests without an answer included. -/
  failures : Nat := 0
  deriving DecidableEq, Repr

namespace Count

def add (m : Measurement) (c : Count) : Count :=
  match m.update, m.success with
  | false, true => { c with successes := c.successes + 1 }
  | false, false => { c with failures := c.failures + 1 }
  | true, true => { c with successes := c.successes + 1, failures := c.failures - 1 }
  | true, false => { c with successes := c.successes - 1, failures := c.failures + 1 }

end Count

/-- Counts, no two of one name. -/
abbrev Totals := List Count

namespace Totals

/-- Changes the count of a name; a new name starts from zero. -/
def change (name : String) (f : Count → Count) : Totals → Totals
  | [] => [f { name }]
  | c :: cs => if c.name = name then f c :: cs else c :: change name f cs

/-- A name is there once: at its old place, or else behind all others. -/
theorem names_change (name : String) (f : Count → Count) (keeps : ∀ c, (f c).name = c.name)
    (totals : Totals) :
    (totals.change name f).map (·.name) =
      if name ∈ totals.map (·.name) then totals.map (·.name)
      else totals.map (·.name) ++ [name] := by
  induction totals with
  | nil => simp [change, keeps]
  | cons c cs ih =>
    by_cases h : c.name = name
    · simp [change, h, keeps]
    · have other : ¬name = c.name := fun e => h e.symm
      simp only [change, h, if_false, List.map_cons, ih, List.mem_cons, other, false_or]
      split <;> rfl

def put (c : Count) (totals : Totals) : Totals := totals.change c.name fun _ => c

def nameOf (m : Measurement) : String := "GET " ++ m.name

def add (totals : Totals) (m : Measurement) : Totals := totals.change (nameOf m) (Count.add m)

def ofMeasurements (ms : List Measurement) : Totals := ms.foldl add []

/-- The counts by name. -/
def summarize (totals : Totals) : List Count := totals.mergeSort fun a b => decide (a.name ≤ b.name)

theorem summarize_perm (totals : Totals) : (summarize totals).Perm totals :=
  List.mergeSort_perm _ _

theorem pairwise_summarize (totals : Totals) :
    (summarize totals).Pairwise fun a b => a.name ≤ b.name := by
  have sorted :=
    @List.pairwise_mergeSort Count (fun a b => decide (a.name ≤ b.name))
      (by simpa using fun a b c => String.le_trans) (by simpa using fun a b => String.le_total _ _)
      totals
  simpa [summarize] using sorted

def successes (cs : List Count) : Nat := (cs.map (·.successes)).sum

def failures (cs : List Count) : Nat := (cs.map (·.failures)).sum

end Totals

end FeedTraffic.Traffic
