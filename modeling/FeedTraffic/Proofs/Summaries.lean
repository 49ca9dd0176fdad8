import FeedTraffic.Command.Report
import FeedTraffic.Proofs.Measuring
import Mathlib.Data.List.Nodup

/-!
# The summary of a load test

The counts of a test come in any order.  Their summary is sorted by name, and since no two counts
share a name, nothing of that order is left in it.  Sorting by characters is sorting by bytes: a
smaller character has the smaller first byte, or the same number of bytes and smaller ones.
-/

namespace FeedTraffic.Text.Utf8

/-! ## The order of bytes -/

/-- The bytes of a character: its number in digits of six bits, the first of them behind a mark
that says how many there are. -/
theorem encodeChar_cases (c : Char) :
    (c.toNat < 0x80 ∧ String.utf8EncodeChar c = [UInt8.ofNat c.toNat]) ∨
    (∃ i j, c.toNat = i * 64 + j ∧ i < 0x20 ∧ j < 64 ∧ 0x80 ≤ c.toNat ∧
      String.utf8EncodeChar c = [UInt8.ofNat (i + 0xC0), UInt8.ofNat (j + 0x80)]) ∨
    (∃ i j k, c.toNat = (i * 64 + j) * 64 + k ∧ i < 0x10 ∧ j < 64 ∧ k < 64 ∧ 0x800 ≤ c.toNat ∧
      String.utf8EncodeChar c =
        [UInt8.ofNat (i + 0xE0), UInt8.ofNat (j + 0x80), UInt8.ofNat (k + 0x80)]) ∨
    ∃ i j k l, c.toNat = ((i * 64 + j) * 64 + k) * 64 + l ∧ i < 8 ∧ j < 64 ∧ k < 64 ∧ l < 64 ∧
      0x10000 ≤ c.toNat ∧ String.utf8EncodeChar c =
        [UInt8.ofNat (i + 0xF0), UInt8.ofNat (j + 0x80), UInt8.ofNat (k + 0x80),
          UInt8.ofNat (l + 0x80)] := by
  have valid : c.toNat < 0xD800 ∨ 0xDFFF < c.toNat ∧ c.toNat < 0x110000 := c.valid
  simp only [String.utf8EncodeChar, Char.toNat_val]
  by_cases one : c.toNat ≤ 0x7F
  · exact Or.inl ⟨by omega, if_pos one⟩
  by_cases two : c.toNat ≤ 0x7FF
  · refine Or.inr (Or.inl ⟨c.toNat / 64 % 0x20, c.toNat % 64, ?_⟩)
    rw [if_neg one, if_pos two]
    exact ⟨by omega, by omega, by omega, by omega, rfl⟩
  by_cases three : c.toNat ≤ 0xFFFF
  · refine Or.inr (Or.inr (Or.inl
      ⟨c.toNat / 4096 % 0x10, c.toNat / 64 % 64, c.toNat % 64, ?_⟩))
    rw [if_neg one, if_neg two, if_pos three]
    exact ⟨by omega, by omega, by omega, by omega, by omega, rfl⟩
  · refine Or.inr (Or.inr (Or.inr
      ⟨c.toNat / 262144 % 8, c.toNat / 4096 % 64, c.toNat / 64 % 64, c.toNat % 64, ?_⟩))
    rw [if_neg one, if_neg two, if_neg three]
    exact ⟨by omega, by omega, by omega, by omega, by omega, by omega, rfl⟩

/-- Bytes that begin with a smaller character are smaller, whatever follows. -/
theorem encodeChar_append_lt {c d : Char} (smaller : c < d) (s t : List UInt8) :
    String.utf8EncodeChar c ++ s < String.utf8EncodeChar d ++ t := by
  have less : c.toNat < d.toNat := smaller
  rcases encodeChar_cases c with
      ⟨hc, cs⟩ | ⟨i, j, hc, _, _, _, cs⟩ | ⟨i, j, k, hc, _, _, _, _, cs⟩ |
      ⟨i, j, k, l, hc, _, _, _, _, _, cs⟩ <;>
    rcases encodeChar_cases d with
      ⟨hd, ds⟩ | ⟨i', j', hd, _, _, _, ds⟩ | ⟨i', j', k', hd, _, _, _, _, ds⟩ |
      ⟨i', j', k', l', hd, _, _, _, _, _, ds⟩ <;>
    rw [cs, ds] <;>
    simp only [List.cons_append, List.cons_lt_cons_iff, UInt8.lt_iff_toNat_lt, ← UInt8.toNat_inj,
      UInt8.toNat_ofNat'] <;>
    omega

theorem encode_lt_encode {cs ds : List Char} (smaller : cs < ds) : encode cs < encode ds := by
  induction ds generalizing cs with
  | nil => exact absurd smaller (List.not_lt_nil cs)
  | cons d ds ih =>
    rw [encode, encode, List.flatMap_cons]
    cases cs with
    | nil =>
      rcases first : String.utf8EncodeChar d with _ | ⟨b, bs⟩
      · simp at first
      · exact List.nil_lt_cons b _
    | cons c cs =>
      rw [List.flatMap_cons]
      rcases List.cons_lt_cons_iff.mp smaller with first | ⟨rfl, rest⟩
      · exact encodeChar_append_lt first _ _
      · exact List.append_left_lt (ih rest)

end FeedTraffic.Text.Utf8

namespace FeedTraffic.Traffic

def Count.nameBytes (c : Count) : List UInt8 := Text.Utf8.encode c.name.toList

namespace Totals

/-! ## One count for each name -/

theorem nodup_add (m : Measurement) {totals : Totals} (distinct : (totals.map (·.name)).Nodup) :
    ((totals.add m).map (·.name)).Nodup := by
  rw [add, names_change _ _ (Count.add_name m)]
  split
  · exact distinct
  · rename_i fresh
    simpa [List.nodup_append, distinct] using fresh

/-- The counts of a load test have distinct names. -/
theorem nodup_ofMeasurements (ms : List Measurement) :
    ((ofMeasurements ms).map (·.name)).Nodup :=
  ms.foldlRecOn (motive := fun totals => (totals.map (·.name)).Nodup) add List.nodup_nil
    fun _ distinct m _ => nodup_add m distinct

variable {totals : Totals} (distinct : (totals.map (·.name)).Nodup)

include distinct

theorem summarize_eq_of_perm {order : Totals} (h : order.Perm totals) :
    order.summarize = totals.summarize := by
  have both : order.summarize.Perm totals.summarize :=
    (summarize_perm order).trans (h.trans (summarize_perm totals).symm)
  refine List.Perm.eq_of_pairwise ?_ (pairwise_summarize order) (pairwise_summarize totals) both
  intro a b ha hb le ge
  have a_counted : a ∈ totals := h.mem_iff.mp ((summarize_perm order).mem_iff.mp ha)
  have b_counted : b ∈ totals := (summarize_perm totals).mem_iff.mp hb
  exact List.inj_on_of_nodup_map distinct a_counted b_counted (String.le_antisymm le ge)

/-- A summary ascends by the bytes of its names, and no two are the same. -/
theorem summarize_ascends :
    totals.summarize.Pairwise fun a b => a.nameBytes < b.nameBytes := by
  have apart : totals.summarize.Pairwise fun a b => a.name ≠ b.name := by
    have names := ((summarize_perm totals).map (·.name)).nodup_iff.mpr distinct
    exact List.pairwise_map.mp names
  refine (pairwise_summarize totals).imp₂ ?_ apart
  intro a b le ne
  have less : a.name < b.name := by
    apply String.not_le.mp
    exact fun ge => ne (String.le_antisymm le ge)
  exact Text.Utf8.encode_lt_encode less

omit distinct

theorem successes_summarize : successes totals.summarize = successes totals :=
  ((summarize_perm totals).map _).sum_nat

theorem failures_summarize : failures totals.summarize = failures totals :=
  ((summarize_perm totals).map _).sum_nat

end Totals

open Command Text in
/-- Counts of distinct names have one summary, in whatever order they come.  It holds every count
once and as it is, strictly ascending by the bytes of the names, so its sums are the sums of the
counts; and those are what is printed below it. -/
theorem summary_of_counts (totals : Totals) (distinct : (totals.map (·.name)).Nodup) :
    let summary := totals.summarize
    let successes := Totals.successes totals
    let failures := Totals.failures totals
    (∀ order : Totals, order.Perm totals → order.summarize = summary) ∧
    summary.Pairwise (fun a b => a.nameBytes < b.nameBytes) ∧
    summary.Perm totals ∧
    Totals.successes summary = successes ∧ Totals.failures summary = failures ∧
    Report.totals summary =
      "\n" ++ Report.line (Style.paint [.bold] "## TOTALS") ++
        String.join (summary.map fun c => Report.line (Report.count c)) ++ "\n" ++
        Report.line (Style.paint [.bold, if 0 < failures then .red else .green]
          (toString successes ++ " passed, " ++ toString failures ++ " failed")) := by
  intro summary successes failures
  have passed : Totals.successes summary = successes := Totals.successes_summarize
  have failed : Totals.failures summary = failures := Totals.failures_summarize
  refine ⟨fun order => Totals.summarize_eq_of_perm distinct, Totals.summarize_ascends distinct,
    Totals.summarize_perm totals, passed, failed, ?_⟩
  rw [Report.totals, passed, failed]

/-- A lost request and two answered ones, measured in descending order of their names.  By units of
sixteen bits the last two names would change places, for the smile is two units, the first of which
is the smaller one. -/
theorem summary_of_counts_smile :
    let totals := Totals.ofMeasurements
      [.ofStatus "/😀" 200, .ofStatus "/～" 204, .ofLoss "/a"]
    (totals.map (·.name)).Nodup ∧
      totals.summarize =
        [{ name := "GET /a", failures := 1 }, { name := "GET /～", successes := 1 },
          { name := "GET /😀", successes := 1 }] ∧
      Totals.successes totals.summarize = 2 := by
  intro totals
  have distinct : (totals.map (·.name)).Nodup := Totals.nodup_ofMeasurements _
  obtain ⟨same, -, -, passed, -⟩ := summary_of_counts totals distinct
  have ascending : Totals.summarize totals.reverse = totals.reverse :=
    List.mergeSort_of_pairwise (by decide)
  have sorted : totals.summarize = totals.reverse :=
    (same _ (List.reverse_perm totals)).symm.trans ascending
  exact ⟨distinct, sorted, passed⟩

end FeedTraffic.Traffic
