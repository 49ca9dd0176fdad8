import FeedTraffic.Proofs.JsonReading
import FeedTraffic.Proofs.SessionMemory
import Mathlib.Data.List.Forall2

/-!
# The texts of a feed page

A page may be written in many ways: members may stand in any order, others that nobody asks for
may stand between them and hold anything, and its text may be any text of the JSON value.  All of
them are read as the same posts.  One fault in a page, wherever it is, and nothing is read at all.
-/

namespace FeedTraffic.Json

open Text.Utf16 (isHighSurrogate isLowSurrogate pair)

/-! ## Strings of characters -/

/-- However a text is spelled, the pieces give it back. -/
theorem text?_of_spells {cs : List Char} {ps : List Piece} (h : Spells cs ps) :
    Piece.text? ps = some cs := by
  induction h with
  | nil => rfl
  | char rest ih => simp [Piece.text?, ih]
  | @number c cs ps narrow rest ih =>
    have valid : c.toNat < 0xD800 ∨ 0xDFFF < c.toNat ∧ c.toNat < 0x110000 := c.valid
    have high : isHighSurrogate c.toNat = false := by
      simp only [isHighSurrogate, Bool.and_eq_false_iff, decide_eq_false_iff_not]
      omega
    have low : isLowSurrogate c.toNat = false := by
      simp only [isLowSurrogate, Bool.and_eq_false_iff, decide_eq_false_iff_not]
      omega
    rw [Piece.text?.eq_def]
    simp [high, low, ih]
  | @pair c cs ps wide rest ih =>
    have valid : c.toNat < 0xD800 ∨ 0xDFFF < c.toNat ∧ c.toNat < 0x110000 := c.valid
    have high : isHighSurrogate (0xD800 + (c.toNat - 0x10000) / 0x400) = true := by
      simp only [isHighSurrogate, Bool.and_eq_true, decide_eq_true_iff]
      omega
    have low : isLowSurrogate (0xDC00 + (c.toNat - 0x10000) % 0x400) = true := by
      simp only [isLowSurrogate, Bool.and_eq_true, decide_eq_true_iff]
      omega
    have whole : 0x10000 + (0xD800 + (c.toNat - 0x10000) / 0x400 - 0xD800) * 0x400 +
        (0xDC00 + (c.toNat - 0x10000) % 0x400 - 0xDC00) = c.toNat := by
      omega
    rw [Piece.text?.eq_def]
    simp only [high, low, pair, whole, ih, if_true, Char.ofNat_toNat, Option.map_some]

/-- Whether a character may stand for itself in a string. -/
def isLiteral (c : Char) : Bool := c != '"' && c != '\\' && decide (32 ≤ c.toNat)

theorem arePieces_of_literal {cs : List Char} (h : cs.all isLiteral = true) :
    ArePieces (cs.map .char) cs := by
  induction cs with
  | nil => exact .nil
  | cons c cs ih =>
    simp only [List.all_cons, Bool.and_eq_true, isLiteral, bne_iff_ne, decide_eq_true_iff] at h
    obtain ⟨⟨⟨no_quote, no_backslash⟩, no_control⟩, rest⟩ := h
    exact .cons (.literal no_quote no_backslash no_control) (ih rest)

theorem spells_chars (cs : List Char) : Spells cs (cs.map .char) := by
  induction cs with
  | nil => exact .nil
  | cons c cs ih => exact .char ih

/-! ## Objects -/

/-- The members of an object whose keys are texts: those with a name have these values in order,
and any others stand around them. -/
inductive Members (name : String) : List Json → List (List Piece × Json) → Prop where
  | nil : Members name [] []
  | known {vs : List Json} {ms : List (List Piece × Json)} {k : List Piece} (v : Json)
      (key : Spells name.toList k) (rest : Members name vs ms) :
      Members name (v :: vs) ((k, v) :: ms)
  | other {vs : List Json} {ms : List (List Piece × Json)} {k : List Piece} {key : String}
      (v : Json) (different : key ≠ name) (spelled : Spells key.toList k)
      (rest : Members name vs ms) : Members name vs ((k, v) :: ms)

theorem valuesOf_of_members {name : String} {vs : List Json} {ms : List (List Piece × Json)}
    (h : Members name vs ms) :
    ∃ named, (Json.object ms).members? = some named ∧ Feed.Page.valuesOf name named = vs := by
  induction h with
  | nil => exact ⟨[], rfl, rfl⟩
  | @known vs ms k v key rest ih =>
    obtain ⟨named, read, values⟩ := ih
    refine ⟨(name, v) :: named, ?_, ?_⟩
    · simp only [members?] at read
      simp [members?, text?_of_spells key, read]
    · simp only [Feed.Page.valuesOf] at values
      simp [Feed.Page.valuesOf, values]
  | @other vs ms k key v different spelled rest ih =>
    obtain ⟨named, read, values⟩ := ih
    refine ⟨(key, v) :: named, ?_, ?_⟩
    · simp only [members?] at read
      simp [members?, text?_of_spells spelled, read]
    · simp only [Feed.Page.valuesOf] at values
      simp [Feed.Page.valuesOf, different, values]

end FeedTraffic.Json

namespace FeedTraffic.Feed

open FeedTraffic.Json

/-! ## Pages and what is none -/

/-- A post with its identifier: a text, or none where it is null or missing. -/
inductive IsPost : Option String → Json → Prop where
  | absent {ms : List (List Piece × Json)} (h : Members "id" [] ms) : IsPost none (.object ms)
  | null {ms : List (List Piece × Json)} (h : Members "id" [.null] ms) : IsPost none (.object ms)
  | text {id : String} {ps : List Piece} {ms : List (List Piece × Json)}
      (spelled : Spells id.toList ps) (h : Members "id" [.text ps] ms) :
      IsPost (some id) (.object ms)

inductive IsPage : List (Option String) → Json → Prop where
  | mk {ids : List (Option String)} {items : List Json} {ms : List (List Piece × Json)}
      (posts : List.Forall₂ IsPost ids items) (h : Members "posts" [.array items] ms) :
      IsPage ids (.object ms)

/-- A post with two identifiers, or with one that is neither a text nor null. -/
inductive BadPost : Json → Prop where
  | repeated {vs : List Json} {ms : List (List Piece × Json)} (h : Members "id" vs ms)
      (twice : 2 ≤ vs.length) : BadPost (.object ms)
  | mistyped {v : Json} {ms : List (List Piece × Json)} (h : Members "id" [v] ms)
      (not_null : v ≠ .null) (no_text : ∀ ps, v ≠ .text ps) : BadPost (.object ms)

/-- A page with two lists of posts, or with one that holds a bad post anywhere. -/
inductive BadPage : Json → Prop where
  | repeated {vs : List Json} {ms : List (List Piece × Json)} (h : Members "posts" vs ms)
      (twice : 2 ≤ vs.length) : BadPage (.object ms)
  | post {item : Json} {items : List Json} {ms : List (List Piece × Json)} (bad : BadPost item)
      (member : item ∈ items) (h : Members "posts" [.array items] ms) : BadPage (.object ms)

/-! ## Reading posts -/

namespace Page

theorem post?_of_isPost {id : Option String} {v : Json} (h : IsPost id v) :
    post? v = some id := by
  cases h with
  | absent h =>
    obtain ⟨named, read, values⟩ := valuesOf_of_members h
    simp [post?, read, values]
  | null h =>
    obtain ⟨named, read, values⟩ := valuesOf_of_members h
    simp [post?, read, values, identifier?]
  | text spelled h =>
    obtain ⟨named, read, values⟩ := valuesOf_of_members h
    simp [post?, read, values, identifier?, string?, text?_of_spells spelled]

theorem identifier?_eq_none {v : Json} (not_null : v ≠ .null) (no_text : ∀ ps, v ≠ .text ps) :
    identifier? v = none := by
  cases v with
  | null => exact absurd rfl not_null
  | text ps => exact absurd rfl (no_text ps)
  | _ => rfl

theorem post?_of_badPost {v : Json} (h : BadPost v) : post? v = none := by
  cases h with
  | @repeated vs ms h twice =>
    obtain ⟨named, read, values⟩ := valuesOf_of_members h
    match vs, twice, values with
    | a :: b :: vs, _, values => simp [post?, read, values]
  | mistyped h not_null no_text =>
    obtain ⟨named, read, values⟩ := valuesOf_of_members h
    simp [post?, read, values, identifier?_eq_none not_null no_text]

theorem mapM_post?_of_forall₂ {ids : List (Option String)} {items : List Json}
    (h : List.Forall₂ IsPost ids items) : items.mapM post? = some ids := by
  induction h with
  | nil => rfl
  | cons first _ ih => simp [post?_of_isPost first, ih]

/-- One bad post spoils the list, wherever it stands. -/
theorem mapM_post?_of_badPost {item : Json} {items : List Json} (bad : BadPost item)
    (member : item ∈ items) : items.mapM post? = none := by
  induction items with
  | nil => cases member
  | cons first rest ih =>
    rcases List.mem_cons.mp member with rfl | later
    · simp [post?_of_badPost bad]
    · simp [ih later]

/-! ## Reading pages -/

theorem ofJson?_of_isPage {ids : List (Option String)} {v : Json} (h : IsPage ids v) :
    ofJson? v = some ⟨ids⟩ := by
  cases h with
  | mk posts h =>
    obtain ⟨named, read, values⟩ := valuesOf_of_members h
    simp [ofJson?, read, values, posts?, mapM_post?_of_forall₂ posts]

theorem ofJson?_of_badPage {v : Json} (h : BadPage v) : ofJson? v = none := by
  cases h with
  | @repeated vs ms h twice =>
    obtain ⟨named, read, values⟩ := valuesOf_of_members h
    match vs, twice, values with
    | a :: b :: vs, _, values => simp [ofJson?, read, values]
  | post bad member h =>
    obtain ⟨named, read, values⟩ := valuesOf_of_members h
    simp [ofJson?, read, values, posts?, mapM_post?_of_badPost bad member]

end Page

end FeedTraffic.Feed

namespace FeedTraffic.User.Session

open FeedTraffic.Feed FeedTraffic.Json

theorem remember_of_page {s : Session} {body : String} {ids : List (Option String)}
    (h : Page.ofBody? body = some ⟨ids⟩) :
    s.remember body = (((ids.take 3).filterMap id).length,
      { s with posts := (s.posts ++ (ids.take 3).filterMap id).rtake 50 }) := by
  simp only [remember, discoveries, h, extend, List.rtake, postsPerPage, maxPosts]

theorem remember_of_no_page {s : Session} {body : String} (h : Page.ofBody? body = none) :
    s.remember body = (0, s) := by
  simp only [remember, h]

/-- A text of a page adds the identifiers of the first three posts that have one, however it is
written.  A text with anything but blanks behind an object adds nothing, and neither does one in
which a list of posts or an identifier comes twice or in which any identifier has the wrong
type. -/
theorem remember_page_or_nothing (s : Session) :
    (∀ ids page text, IsPage ids page → IsDocument page text →
      s.remember text = (((ids.take 3).filterMap id).length,
        { s with posts := (s.posts ++ (ids.take 3).filterMap id).rtake 50 })) ∧
    (∀ members front behind text, IsText (.object members) front → ¬Blanks behind →
      text.toList = front ++ behind → s.remember text = (0, s)) ∧
    (∀ page text, BadPage page → IsDocument page text → s.remember text = (0, s)) := by
  refine ⟨?_, ?_, ?_⟩
  · intro ids page text is_page document
    apply remember_of_page
    simp [Page.ofBody?, ofText?_of_isDocument document, Page.ofJson?_of_isPage is_page]
  · intro members front behind text object more chars
    apply remember_of_no_page
    simp [Page.ofBody?, ofText?_of_trailing object more chars]
  · intro page text bad document
    apply remember_of_no_page
    simp [Page.ofBody?, ofText?_of_isDocument document, Page.ofJson?_of_badPage bad]

/-- A smile escaped as a pair, behind a member that nobody knows; the same page with a letter
behind it; and a number for the identifier of a fourth post. -/
theorem remember_page_or_nothing_smile :
    let s : Session := { requester := "02" }
    let page := "\x7b\"x\":[0], \"posts\" :[\x7b\"id\":\"\\ud83D\\uDe00\"\x7d,\x7b\x7d]\x7d"
    let bad := "\x7b\"posts\":[\x7b\x7d,\x7b\x7d,\x7b\x7d,\x7b\"id\":0\x7d]\x7d"
    s.remember page = (1, { s with posts := ["😀"] }) ∧
      s.remember (page ++ "x") = (0, s) ∧ s.remember bad = (0, s) := by
  intro s page bad
  obtain ⟨reads, refuses, spoils⟩ := remember_page_or_nothing s
  have dense : Blanks [] := nofun
  have blank : Blanks [' '] := by simp [Blanks]
  have x : ArePieces ("x".toList.map .char) "x".toList :=
    arePieces_of_literal (by decide)
  have posts : ArePieces ("posts".toList.map .char) "posts".toList :=
    arePieces_of_literal (by decide)
  have id : ArePieces ("id".toList.map .char) "id".toList :=
    arePieces_of_literal (by decide)
  have zero := IsText.number dense (.positive .zero .absent .absent)
  have empty := IsText.noMembers dense dense
  have high : IsPiece (.unit 0xD83D) _ :=
    .number (.lower (n := 13) (by decide)) (.lower (n := 8) (by decide))
      (.lower (n := 3) (by decide)) (.upper (n := 13) (by decide))
  have low : IsPiece (.unit 0xDE00) _ :=
    .number (.upper (n := 13) (by decide)) (.lower (n := 14) (by decide))
      (.lower (n := 0) (by decide)) (.lower (n := 0) (by decide))
  have smile := IsText.text dense (.cons high (.cons low .nil))
  have unknown := IsText.array dense zero .none dense
  have post := IsText.object dense (.mk dense id dense smile) .none dense
  have items := IsText.array dense post (.more dense empty .none) dense
  have text := IsText.object dense (.mk dense x dense unknown)
    (.more dense (.mk blank posts blank items) .none) dense
  have spelled : Spells "😀".toList [.unit 0xD83D, .unit 0xDE00] :=
    Spells.pair (c := '😀') (by decide) .nil
  have is_page : IsPage [some "😀", none] _ :=
    .mk (.cons (.text spelled (.known _ (spells_chars _) .nil)) (.cons (.absent .nil) .nil))
      (.other (.array [.number ['0']]) (by decide : "x" ≠ "posts") (spells_chars _)
        (.known _ (spells_chars _) .nil))
  have mistyped := IsText.object dense (.mk dense id dense zero) .none dense
  have four := IsText.array dense empty
    (.more dense empty (.more dense empty (.more dense mistyped .none))) dense
  have whole := IsText.object dense (.mk dense posts dense four) .none dense
  let fourth : Json := .object [("id".toList.map .char, .number ['0'])]
  have bad_post : BadPost fourth :=
    .mistyped (.known (.number ['0']) (spells_chars _) .nil) nofun nofun
  have member : fourth ∈ [.object [], .object [], .object [], fourth] :=
    .tail _ (.tail _ (.tail _ (.head _)))
  have bad_page := BadPage.post bad_post member (.known _ (spells_chars _) .nil)
  refine ⟨?_, ?_, ?_⟩
  · exact reads _ _ page is_page ⟨_, [], text, dense, by decide⟩
  · have more : ¬Blanks ['x'] := fun blanks => by simpa using blanks 'x'
    exact refuses _ _ _ _ text more (by decide)
  · exact spoils _ bad bad_page ⟨_, [], whole, dense, by decide⟩

end FeedTraffic.User.Session
