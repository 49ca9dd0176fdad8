import FeedTraffic.Http.Url
import FeedTraffic.Proofs.Form
import Mathlib.Data.List.Basic

/-!
# Texts of web addresses

The text of a web address without query and fragment is a front and a path.  The front gives the
scheme and the host, whatever path stands behind it.  A path is worked off segment by segment, so
a segment that is put behind a path which does not end with a slash stands below what that path
is read as.
-/

namespace FeedTraffic.Http.Form

/-- A character that does not part stretches belongs to the last one. -/
theorem splitOn_concat {sep c : Char} (other : c ≠ sep) (cs : List Char) :
    ∃ before last, splitOn sep (cs ++ [c]) = before ++ [last ++ [c]] := by
  induction cs with
  | nil =>
    refine ⟨[], [], ?_⟩
    simp [splitOn, other]
  | cons d cs ih =>
    obtain ⟨before, last, parts⟩ := ih
    rw [List.cons_append, splitOn, parts]
    by_cases same : d = sep
    · exact ⟨[] :: before, last, if_pos same⟩
    · rw [if_neg same]
      cases before with
      | nil => exact ⟨[], d :: last, rfl⟩
      | cons s before => exact ⟨(d :: s) :: before, last, rfl⟩

theorem escapeWhere_ne_nil {p : Char → Bool} {cs : List Char} (filled : cs ≠ []) :
    escapeWhere p cs ≠ [] := by
  obtain ⟨c, rest, rfl⟩ := List.exists_cons_of_ne_nil filled
  apply List.append_ne_nil_of_left_ne_nil
  by_cases escaped : (decide (c.toNat ≤ 0x1F) || decide (0x7F ≤ c.toNat) || p c) = true
  · simp only [escaped, if_true]
    obtain ⟨b, bs, bytes⟩ := List.exists_cons_of_ne_nil (String.utf8EncodeChar_ne_nil (c := c))
    rw [bytes]
    exact List.cons_ne_nil _ _
  · simp only [escaped]
    exact List.cons_ne_nil _ _

end FeedTraffic.Http.Form

namespace FeedTraffic.Http.Url

open Form (escapeWhere splitOn)

/-! ## Texts without blanks, queries and fragments -/

/-- A character that is no blank and no control character, does not count as a slash without being
one, and begins neither query nor fragment. -/
def IsSolid (c : Char) : Prop := 0x20 < c.toNat ∧ c ∉ ['\\', '?', '#']

instance : DecidablePred IsSolid := fun _ => inferInstanceAs (Decidable (_ ∧ _))

def AreSolid (cs : List Char) : Prop := ∀ c ∈ cs, IsSolid c

-- decided along the text, never over all characters that there are
instance : DecidablePred AreSolid := fun cs => List.decidableBAll IsSolid cs

/-- What may stand behind the host of an address without query and fragment: nothing, or a slash
and more. -/
structure IsPath (cs : List Char) : Prop where
  solid : AreSolid cs
  slash : ∀ c ∈ cs.head?, c = '/'

theorem clean_of_solid {s : String} (solid : AreSolid s.toList) : clean s = s.toList := by
  have no_edge : ∀ cs : List Char, AreSolid cs →
      cs.dropWhile (fun c => decide (c.toNat ≤ 0x20)) = cs := by
    intro cs all
    cases cs with
    | nil => rfl
    | cons c cs =>
      have above := (all c List.mem_cons_self).1
      apply List.dropWhile_cons_of_neg
      simpa using above
  have no_break : ∀ c ∈ s.toList, decide (c ≠ '\t' ∧ c ≠ '\n' ∧ c ≠ '\r') = true := by
    intro c member
    have above := (solid c member).1
    apply decide_eq_true
    refine ⟨?_, ?_, ?_⟩ <;> rintro rfl <;> exact absurd above (by decide)
  have backwards : AreSolid s.toList.reverse :=
    fun c member => solid c (List.mem_reverse.mp member)
  rw [clean, no_edge _ solid, no_edge _ backwards, List.reverse_reverse,
    List.filter_eq_self.mpr no_break]

theorem cut_of_solid {cs : List Char} (solid : AreSolid cs) :
    cut cs = (cs, none, none) := by
  have whole (mark : Char) (no_mark : ¬IsSolid mark) : cs.takeWhile (· ≠ mark) = cs :=
    Form.takeWhile_of_not_mem fun member => no_mark (solid mark member)
  simp only [cut, whole '#' (by decide), whole '?' (by decide), Nat.lt_irrefl, if_false]

/-- A text that goes on behind its first colon has one there. -/
theorem eq_before_colon {cs : List Char} (more : (cs.takeWhile (· ≠ ':')).length < cs.length) :
    cs = cs.takeWhile (· ≠ ':') ++ ':' :: cs.drop ((cs.takeWhile (· ≠ ':')).length + 1) := by
  have parts : cs.takeWhile (· ≠ ':') ++ cs.dropWhile (· ≠ ':') = cs :=
    List.takeWhile_append_dropWhile
  have first := List.head?_dropWhile_not (fun c => decide (c ≠ ':')) cs
  generalize cs.takeWhile (· ≠ ':') = name at *
  cases rest : cs.dropWhile (· ≠ ':') with
  | nil =>
    rw [rest, List.append_nil] at parts
    exact absurd more (parts ▸ Nat.lt_irrefl _)
  | cons c rest' =>
    rw [rest] at parts first
    have colon : c = ':' := by simpa using first
    subst colon
    rw [← parts]
    simp

/-- What follows a scheme and its colon has no part in the scheme. -/
theorem scheme?_eq_some {cs rest : List Char} {scheme : String}
    (found : scheme? cs = some (scheme, rest)) :
    ∃ name, cs = name ++ ':' :: rest ∧
      ∀ other, scheme? (name ++ ':' :: other) = some (scheme, other) := by
  have free : ':' ∉ cs.takeWhile (· ≠ ':') := fun member =>
    absurd (List.mem_takeWhile_imp member) (by decide)
  rw [scheme?] at found
  split at found
  · rename_i accepted
    obtain ⟨rfl, rfl⟩ := Prod.mk.inj (Option.some.inj found)
    simp only [Bool.and_eq_true, decide_eq_true_eq] at accepted
    refine ⟨_, eq_before_colon accepted.1.1, fun other => ?_⟩
    generalize cs.takeWhile (· ≠ ':') = name at *
    have before : (name ++ ':' :: other).takeWhile (· ≠ ':') = name :=
      Form.takeWhile_append_cons free other
    have shorter : name.length < (name ++ ':' :: other).length := by simp
    have behind : (name ++ ':' :: other).drop (name.length + 1) = other := by simp
    simp only [scheme?, before, behind, decide_eq_true shorter, accepted.1.2, accepted.2,
      Bool.and_self, if_true]
  · cases found

/-! ## Fronts and paths -/

/-- The path that is read from what stands behind a host. -/
def webPath (cs : List Char) : String := joinSegments (walk [] (segments true (cs.drop 1)))

theorem IsPath.of_prefix {cs whole : List Char} (h : IsPath whole) (begins : cs <+: whole) :
    IsPath cs := by
  obtain ⟨rest, rfl⟩ := begins
  refine ⟨fun c member => h.solid c (List.mem_append_left rest member), fun c first => ?_⟩
  apply h.slash
  rw [List.head?_append, first]
  exact Option.mem_some_self c

theorem IsPath.append {front back : List Char} (first : IsPath front) (second : IsPath back) :
    IsPath (front ++ back) := by
  refine ⟨List.forall_mem_append.mpr ⟨first.solid, second.solid⟩, ?_⟩
  cases front with
  | nil => exact second.slash
  | cons c front => exact first.slash

/-- Whether a character ends the host of a web address. -/
def endsHost (c : Char) : Bool := c == '/' || c == '\\' || c == '?' || c == '#'

theorem endsHost_of_slash {c : Char} (slash : (decide (c = '/') || decide (c = '\\')) = true) :
    endsHost c = true := by
  simp only [Bool.or_eq_true, decide_eq_true_eq] at slash
  rcases slash with rfl | rfl <;> rfl

theorem IsSolid.eq_slash {c : Char} (solid : IsSolid c) (ends : endsHost c = true) : c = '/' := by
  have listed : c ∈ ['/', '\\', '?', '#'] := by simpa [endsHost, or_assoc] using ends
  exact (List.mem_cons.mp listed).resolve_right solid.2

theorem ofWeb_eq (scheme : String) (cs : List Char) :
    ofWeb scheme cs =
      let rest := cs.dropWhile fun c => c = '/' || c = '\\'
      let (path, query, fragment) := cut (rest.dropWhile (!endsHost ·))
      (readAuthority scheme (rest.takeWhile (!endsHost ·))).map fun a =>
        { scheme, authority := some a, path := webPath path
          query := queryText true query, fragment := fragmentText fragment } := by
  rfl

/-- What stands behind the scheme of a web address without query and fragment: slashes, a host and
a path. -/
structure WebParts (lead host path : List Char) : Prop where
  slashes : ∀ c ∈ lead, c = '/'
  named : host ≠ []
  inside : ∀ c ∈ host, endsHost c = false
  follows : IsPath path

/-- Slashes, a host and a path are read one after another. -/
theorem WebParts.ofWeb_eq {lead host path : List Char} (parts : WebParts lead host path)
    (scheme : String) :
    ofWeb scheme (lead ++ (host ++ path)) =
      (readAuthority scheme host).map fun authority =>
        { scheme, authority := some authority, path := webPath path } := by
  have at_host : (lead ++ (host ++ path)).dropWhile (fun c => c = '/' || c = '\\') =
      host ++ path := by
    have passed : ∀ c ∈ lead, (decide (c = '/') || decide (c = '\\')) = true := by
      intro c member
      rw [parts.slashes c member]
      rfl
    obtain ⟨c, more, rfl⟩ := List.exists_cons_of_ne_nil parts.named
    rw [List.dropWhile_append_of_pos passed, List.cons_append]
    apply List.dropWhile_cons_of_neg
    intro slash
    have within := parts.inside c List.mem_cons_self
    exact Bool.false_ne_true (within.symm.trans (endsHost_of_slash slash))
  have in_host : ∀ c ∈ host, (!endsHost c) = true := by
    intro c member
    rw [parts.inside c member]
    rfl
  have no_host : path.takeWhile (!endsHost ·) = [] ∧ path.dropWhile (!endsHost ·) = path := by
    cases path with
    | nil => exact ⟨rfl, rfl⟩
    | cons c more =>
      obtain rfl := parts.follows.slash c rfl
      exact ⟨rfl, rfl⟩
  have before : (host ++ path).takeWhile (!endsHost ·) = host := by
    rw [List.takeWhile_append_of_pos in_host, no_host.1, List.append_nil]
  have behind : (host ++ path).dropWhile (!endsHost ·) = path := by
    rw [List.dropWhile_append_of_pos in_host, no_host.2]
  simp only [Url.ofWeb_eq, at_host, before, behind, cut_of_solid parts.follows.solid]
  rfl

theorem readAuthority_nil {scheme : String} (web : isWeb scheme = true) :
    readAuthority scheme [] = .error .emptyHost := by
  simp only [readAuthority, splitService, web, List.take_nil, List.reverse_nil,
    List.takeWhile_nil]
  rfl

/-- A web address is read from such parts only: without a host there is none. -/
theorem exists_webParts {scheme : String} (web : isWeb scheme = true) {cs : List Char} {u : Url}
    (solid : AreSolid cs) (read : ofWeb scheme cs = .ok u) :
    ∃ lead host path, cs = lead ++ (host ++ path) ∧ WebParts lead host path := by
  simp only [ofWeb_eq] at read
  have outer : cs.takeWhile (fun c => c = '/' || c = '\\') ++
      cs.dropWhile (fun c => c = '/' || c = '\\') = cs := List.takeWhile_append_dropWhile
  have slashes : ∀ c ∈ cs.takeWhile (fun c => c = '/' || c = '\\'), c = '/' := by
    intro c member
    have kind := List.mem_takeWhile_imp (p := fun c => c = '/' || c = '\\') member
    apply (solid c ((List.takeWhile_prefix _).subset member)).eq_slash
    exact endsHost_of_slash kind
  generalize cs.takeWhile (fun c => c = '/' || c = '\\') = lead at *
  generalize cs.dropWhile (fun c => c = '/' || c = '\\') = rest at *
  subst outer
  have inner : rest.takeWhile (!endsHost ·) ++ rest.dropWhile (!endsHost ·) = rest :=
    List.takeWhile_append_dropWhile
  have inside : ∀ c ∈ rest.takeWhile (!endsHost ·), endsHost c = false := by
    intro c member
    simpa using List.mem_takeWhile_imp (p := (!endsHost ·)) member
  have stops := List.head?_dropWhile_not (!endsHost ·) rest
  generalize rest.takeWhile (!endsHost ·) = host at *
  generalize rest.dropWhile (!endsHost ·) = path at *
  subst inner
  have named : host ≠ [] := by
    rintro rfl
    rw [readAuthority_nil web] at read
    cases read
  have path_solid : AreSolid path := fun c member => solid c (by simp [member])
  refine ⟨lead, host, path, rfl, slashes, named, inside, path_solid, fun c first => ?_⟩
  rw [Option.mem_def.mp first] at stops
  have ends : endsHost c = true := by simpa using stops
  exact (path_solid c (List.mem_of_mem_head? first)).eq_slash ends

/-- A text stands for an address without query and fragment up to where the path begins: with any
other path behind it, it gives the same address with that path. -/
structure IsFront (read : List Char → Except AddressFault Url) (u : Url) (front : List Char) :
    Prop where
  query : u.query = none
  fragment : u.fragment = none
  ends : ∀ c ∈ front.getLast?, c ≠ '/'
  reads : ∀ path, IsPath path → read (front ++ path) = .ok { u with path := webPath path }

/-- What a web address is read from has a front. -/
theorem ofWeb_front {scheme : String} (web : isWeb scheme = true) {cs : List Char} {u : Url}
    (solid : AreSolid cs) (read : ofWeb scheme cs = .ok u) :
    ∃ front path, cs = front ++ path ∧ front ≠ [] ∧ IsPath path ∧
      IsFront (ofWeb scheme) u front := by
  obtain ⟨lead, host, path, rfl, parts⟩ := exists_webParts web solid read
  rw [parts.ofWeb_eq] at read
  cases found : readAuthority scheme host with
  | error fault =>
    rw [found] at read
    cases read
  | ok authority =>
    rw [found] at read
    obtain rfl := Except.ok.inj read
    have filled : lead ++ host ≠ [] := List.append_ne_nil_of_right_ne_nil lead parts.named
    refine ⟨lead ++ host, path, (List.append_assoc _ _ _).symm, filled, parts.follows, rfl, rfl,
      ?_, ?_⟩
    · rintro c last rfl
      rw [List.getLast?_append_of_ne_nil lead parts.named] at last
      exact absurd (parts.inside '/' (List.mem_of_getLast? last)) (by decide)
    · intro other follows
      have other_parts : WebParts lead host other := { parts with follows }
      rw [List.append_assoc, other_parts.ofWeb_eq, found]
      rfl

/-- An address of no web scheme does not become one of the web. -/
theorem ofOther_scheme {scheme : String} {cs : List Char} {u : Url}
    (read : ofOther scheme cs = .ok u) : u.scheme = scheme := by
  simp only [ofOther] at read
  split at read
  · rename_i more _
    cases found : readAuthority scheme (more.takeWhile (· ≠ '/')) with
    | error fault =>
      rw [found] at read
      cases read
    | ok authority =>
      rw [found] at read
      rw [← Except.ok.inj read]
  all_goals rw [← Except.ok.inj read]

/-- The text of a web address has a front. -/
theorem ofText_front {s : String} {u : Url} (web : isWeb u.scheme = true)
    (solid : AreSolid s.toList) (read : ofText s = .ok u) :
    ∃ front path, s.toList = front ++ path ∧ IsPath path ∧
      IsFront (fun cs => ofText (String.ofList cs)) u front := by
  rw [ofText, clean_of_solid solid] at read
  cases found : scheme? s.toList with
  | none =>
    rw [found] at read
    cases read
  | some parts =>
    obtain ⟨scheme, behind⟩ := parts
    simp only [found] at read
    obtain ⟨name, text, any_behind⟩ := scheme?_eq_some found
    have of_web : isWeb scheme = true := by
      by_contra other
      rw [if_neg other] at read
      exact other (ofOther_scheme read ▸ web)
    rw [if_pos of_web] at read
    rw [text] at solid
    obtain ⟨front, path, rfl, named, follows, fronts⟩ :=
      ofWeb_front of_web (fun c member => solid c (by simp [member])) read
    refine ⟨name ++ ':' :: front, path, by simp [text], follows, fronts.query, fronts.fragment,
      ?_, ?_⟩
    · intro c last
      rw [List.getLast?_append_of_ne_nil _ (List.cons_ne_nil _ _),
        List.getLast?_cons_of_ne_nil named] at last
      exact fronts.ends c last
    · intro other follows
      have at_colon : name ++ ':' :: front ++ other = name ++ ':' :: (front ++ other) := by simp
      have all : AreSolid (String.ofList (name ++ ':' :: (front ++ other))).toList := by
        intro c member
        rw [String.toList_ofList, ← at_colon] at member
        rcases List.mem_append.mp member with before | after
        · apply solid
          rw [← List.cons_append, ← List.append_assoc]
          exact List.mem_append_left path before
        · exact follows.solid c after
      simp only [at_colon, ofText, clean_of_solid all, String.toList_ofList, any_behind, of_web,
        if_true]
      exact fronts.reads other follows

/-! ## Segments -/

/-- Text that stands for itself as a segment. -/
structure IsSegment (cs : List Char) : Prop where
  whole : '/' ∉ cs
  stays : dots cs ≠ ['.']
  goes_on : dots cs ≠ ['.', '.']
  plain : escapeWhere isPathEscape cs = cs

/-- Of segments that others follow, only what they leave above matters to the others. -/
theorem walk_append (done ss : List (List Char)) :
    ∃ above, ∀ more, more ≠ [] → walk done (ss ++ more) = walk above more := by
  induction ss generalizing done with
  | nil => exact ⟨done, fun more _ => rfl⟩
  | cons s ss ih =>
    have goes_on {more : List (List Char)} (filled : more ≠ []) : (ss ++ more).isEmpty = false := by
      simp [filled]
    by_cases back : dots s = ['.', '.']
    · obtain ⟨above, same⟩ := ih (done.drop 1)
      refine ⟨above, fun more filled => ?_⟩
      rw [List.cons_append, walk, if_pos back, goes_on filled]
      exact same more filled
    by_cases here : dots s = ['.']
    · obtain ⟨above, same⟩ := ih done
      refine ⟨above, fun more filled => ?_⟩
      rw [List.cons_append, walk, if_neg back, if_pos here, goes_on filled]
      exact same more filled
    · obtain ⟨above, same⟩ := ih (escapeWhere isPathEscape s :: done)
      refine ⟨above, fun more filled => ?_⟩
      rw [List.cons_append, walk, if_neg back, if_neg here]
      exact same more filled

theorem walk_segment {x : List Char} (h : IsSegment x) (done : List (List Char)) :
    walk done [x] = done.reverse ++ [x] := by
  rw [walk, if_neg h.goes_on, if_neg h.stays, h.plain, walk, List.reverse_cons]

/-- Below what a path is read as stands a segment behind it, in the place of the empty segment if
the path was read with one at its end. -/
theorem walk_concat (ss : List (List Char)) {last x : List Char} (filled : last ≠ [])
    (h : IsSegment x) :
    ∃ front l, walk [] (ss ++ [last]) = front ++ [l] ∧
      walk [] (ss ++ [last, x]) = front ++ (if l = [] then [] else [l]) ++ [x] := by
  obtain ⟨above, same⟩ := walk_append [] ss
  rw [same _ (List.cons_ne_nil _ _), same _ (List.cons_ne_nil _ _)]
  by_cases back : dots last = ['.', '.']
  · refine ⟨(above.drop 1).reverse, [], ?_, ?_⟩
    · rw [walk, if_pos back, List.isEmpty_nil, if_pos rfl, walk, List.reverse_cons]
    · rw [walk, if_pos back, List.isEmpty_cons, if_neg Bool.false_ne_true, walk_segment h,
        if_pos rfl, List.append_nil]
  by_cases here : dots last = ['.']
  · refine ⟨above.reverse, [], ?_, ?_⟩
    · rw [walk, if_neg back, if_pos here, List.isEmpty_nil, if_pos rfl, walk, List.reverse_cons]
    · rw [walk, if_neg back, if_pos here, List.isEmpty_cons, if_neg Bool.false_ne_true,
        walk_segment h, if_pos rfl, List.append_nil]
  · refine ⟨above.reverse, escapeWhere isPathEscape last, ?_, ?_⟩
    · rw [walk, if_neg back, if_neg here, walk, List.reverse_cons]
    · rw [walk, if_neg back, if_neg here, walk_segment h, List.reverse_cons,
        if_neg (Form.escapeWhere_ne_nil filled)]

theorem segments_of_solid {cs : List Char} (solid : AreSolid cs) :
    segments true cs = splitOn '/' cs := by
  have stays : ∀ c ∈ cs, (if c = '\\' then '/' else c) = id c := by
    intro c member
    apply if_neg
    rintro rfl
    exact absurd (solid _ member) (by decide)
  rw [segments, if_pos rfl, List.map_congr_left stays, List.map_id]

theorem webPath_cons {cs : List Char} (solid : AreSolid cs) :
    webPath ('/' :: cs) = joinSegments (walk [] (splitOn '/' cs)) := by
  rw [webPath, List.drop_succ_cons, List.drop_zero, segments_of_solid solid]

theorem webPath_nil : webPath [] = "/" := by decide

/-- Behind a host without a path, a segment is read as it is written. -/
theorem webPath_segment {x : List Char} (solid : AreSolid x) (h : IsSegment x) :
    webPath ('/' :: x) = String.ofList ('/' :: x) := by
  rw [webPath_cons solid, Form.splitOn_of_not_mem h.whole, walk_segment h]
  simp [joinSegments]

theorem joinSegments_concat (front : List (List Char)) (l : List Char) :
    joinSegments (front ++ [l]) = joinSegments front ++ String.ofList ('/' :: l) := by
  simp [joinSegments, String.ofList_append]

/-- Only in the place of an empty segment, or below nothing, a segment is the whole path. -/
theorem joinSegments_eq_iff (front : List (List Char)) (l x : List Char) :
    joinSegments (front ++ (if l = [] then [] else [l]) ++ [x]) = String.ofList ('/' :: x) ↔
      joinSegments (front ++ [l]) = "/" := by
  rw [joinSegments_concat, joinSegments_concat]
  by_cases empty : l = []
  · subst empty
    have root : "/" = String.ofList ['/'] := rfl
    rw [if_pos rfl, List.append_nil, root]
    simp
  · -- both would leave no room for the segment that is there
    have some_length : 0 < l.length := List.length_pos_iff.mpr empty
    rw [if_neg empty, joinSegments_concat]
    constructor
    · intro same
      have lengths := congrArg String.length same
      simp only [String.length_append, String.length_ofList, List.length_cons] at lengths
      omega
    · intro same
      have lengths := congrArg String.length same
      have one : "/".length = 1 := rfl
      simp only [String.length_append, String.length_ofList, List.length_cons, one] at lengths
      omega

/-- A segment behind a path that does not end with a slash is all of the path that is read exactly
if the path itself is read as the root. -/
theorem webPath_append_iff {path x : List Char} (follows : IsPath (path ++ '/' :: x))
    (ends : ∀ c ∈ path.getLast?, c ≠ '/') (h : IsSegment x) :
    webPath (path ++ '/' :: x) = String.ofList ('/' :: x) ↔ webPath path = "/" := by
  cases path with
  | nil =>
    have solid : AreSolid x := fun c member => follows.solid c (by simp [member])
    exact iff_of_true (webPath_segment solid h) webPath_nil
  | cons slash p =>
    obtain rfl := follows.slash slash rfl
    have filled : p ≠ [] := by
      rintro rfl
      exact ends '/' rfl rfl
    obtain ⟨q, c, rfl⟩ := (List.eq_nil_or_concat' p).resolve_left filled
    have other : c ≠ '/' := ends c (List.getLast?_concat (l := '/' :: q))
    have solid : AreSolid (q ++ [c] ++ '/' :: x) :=
      fun d member => follows.solid d (List.mem_cons_of_mem _ member)
    have own_solid : AreSolid (q ++ [c]) := fun d member => solid d (List.mem_append_left _ member)
    obtain ⟨before, last, parts⟩ := Form.splitOn_concat other q
    obtain ⟨front, l, own, below⟩ := walk_concat before (List.concat_ne_nil c last) h
    rw [List.cons_append, webPath_cons own_solid, webPath_cons solid, Form.splitOn_append,
      Form.splitOn_of_not_mem h.whole, parts, List.append_assoc, List.singleton_append, own, below]
    exact joinSegments_eq_iff front l x

/-! ## References from the root -/

theorem walk_ne_nil (done : List (List Char)) {ss : List (List Char)} (filled : ss ≠ []) :
    walk done ss ≠ [] := by
  induction ss generalizing done with
  | nil => exact absurd rfl filled
  | cons s ss ih =>
    cases ss with
    | nil =>
      rw [walk]
      split
      · simp [walk]
      · split <;> simp [walk]
    | cons t ss =>
      rw [walk]
      split
      · exact ih _ (List.cons_ne_nil t ss)
      · split <;> exact ih _ (List.cons_ne_nil t ss)

theorem startsWith_webPath (cs : List Char) : (webPath cs).startsWith "/" = true := by
  obtain ⟨s, ss, parts⟩ :=
    List.exists_cons_of_ne_nil (walk_ne_nil [] (Form.splitOn_ne_nil '/' _))
  rw [String.startsWith_string_iff, webPath, segments, parts, joinSegments]
  exact ⟨s ++ ss.flatMap fun s => '/' :: s, by simp⟩

/-- Web addresses have a root. -/
theorem ofText_rooted {s : String} {u : Url} (web : isWeb u.scheme = true)
    (solid : AreSolid s.toList) (read : ofText s = .ok u) :
    u.path.startsWith "/" = true := by
  obtain ⟨front, path, text, follows, fronts⟩ := ofText_front web solid read
  have again : ofText (String.ofList (front ++ path)) = .ok { u with path := webPath path } :=
    fronts.reads path follows
  rw [← text, String.ofList_toList, read] at again
  have own : u.path = webPath path := congrArg Url.path (Except.ok.inj again)
  rw [own]
  exact startsWith_webPath path

theorem scheme?_of_slash (cs : List Char) : scheme? ('/' :: cs) = none := by
  simp [scheme?]

/-- A slash and a segment name the address below the root of the base, without anything that the
base has behind its host. -/
theorem join_segment {base : Url} (web : isWeb base.scheme = true)
    (rooted : base.path.startsWith "/" = true) {x : List Char} (h : IsSegment x)
    (follows : IsPath ('/' :: x)) :
    base.join (String.ofList ('/' :: x)) =
      .ok { base with path := String.ofList ('/' :: x), query := none, fragment := none } := by
  have text : (String.ofList ('/' :: x)).toList = '/' :: x := String.toList_ofList
  have solid : AreSolid (String.ofList ('/' :: x)).toList := by
    rw [text]
    exact follows.solid
  have cleaned : clean (String.ofList ('/' :: x)) = '/' :: x := by
    rw [clean_of_solid solid, text]
  have one_slash : ((('/' :: x).take 2).length = 2 &&
      (('/' :: x).take 2).all (isSlash true)) = false := by
    cases x with
    | nil => rfl
    | cons c x =>
      have no_slash : c ≠ '/' := fun same => h.whole (same ▸ List.mem_cons_self)
      have no_other : c ≠ '\\' := by
        rintro rfl
        exact absurd (follows.solid '\\' (by simp)) (by decide)
      simp [isSlash, no_slash, no_other]
  have named : pathFrom true base.path ('/' :: x) = String.ofList ('/' :: x) :=
    webPath_segment (fun c member => follows.solid c (List.mem_cons_of_mem _ member)) h
  have no_opaque : base.isOpaque = false := by
    rw [isOpaque, rooted, Bool.not_true, Bool.and_false]
  simp only [join, cleaned, scheme?_of_slash, web, no_opaque, one_slash,
    cut_of_solid follows.solid, named]
  rfl

end FeedTraffic.Http.Url
