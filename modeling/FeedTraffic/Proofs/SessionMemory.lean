import FeedTraffic.User.Session
import Mathlib.Data.List.DropRight

/-!
# What a session remembers over a whole visit

Bodies come in one after another, and posts are dropped after every single one.  The posts that
are left are the same as if all of them had been kept and the oldest dropped once, at the end.
A body never drives out posts of its own: it adds three at most, and there is room for fifty.
-/

namespace FeedTraffic.User.Session

open FeedTraffic.Feed

/-- Remembers the posts of bodies, one body after another, and counts them for each. -/
def rememberAll (s : Session) : List String → List Nat × Session
  | [] => ([], s)
  | body :: bodies =>
    let first := s.remember body
    let later := first.2.rememberAll bodies
    (first.1 :: later.1, later.2)

/-! ## Dropping early and dropping late -/

theorem rtake_append_rtake {α : Type} (n : Nat) (xs ys : List α) :
    (xs.rtake n ++ ys).rtake n = (xs ++ ys).rtake n := by
  have shorter : n - ys.length ≤ n := Nat.sub_le _ _
  simp only [List.rtake_eq_reverse_take_reverse, List.reverse_append, List.reverse_reverse,
    List.take_append, List.take_take, List.length_reverse, Nat.min_eq_left shorter]

theorem rtake_of_length_le {α : Type} {n : Nat} {xs : List α} (h : xs.length ≤ n) :
    xs.rtake n = xs := by
  rw [List.rtake, Nat.sub_eq_zero_of_le h, List.drop_zero]

theorem rtake_suffix {α : Type} (n : Nat) (xs : List α) : xs.rtake n <:+ xs :=
  List.drop_suffix _ _

theorem length_rtake {α : Type} (n : Nat) (xs : List α) :
    (xs.rtake n).length = min n xs.length := by
  rw [List.rtake, List.length_drop]
  omega

/-! ## One body -/

theorem length_discoveries_le (body : String) : (discoveries body).length ≤ postsPerPage := by
  cases page : Page.ofBody? body with
  | none => simp [discoveries, page]
  | some p =>
    have taken : (p.posts.take postsPerPage).length ≤ postsPerPage := List.length_take_le _ _
    simp only [discoveries, page]
    exact Nat.le_trans (List.length_filterMap_le _ _) taken

theorem remember_fst (s : Session) (body : String) :
    (s.remember body).1 = (discoveries body).length := by
  cases page : Page.ofBody? body with
  | none => simp [remember, discoveries, page]
  | some p => simp only [remember, page]

theorem remember_requester (s : Session) (body : String) :
    (s.remember body).2.requester = s.requester := by
  cases page : Page.ofBody? body with
  | none => simp only [remember, page]
  | some p => simp only [remember, page, extend]

/-- Nothing is remembered that was not remembered before or found on the page. -/
theorem mem_remember {s : Session} {body id : String} (member : id ∈ (s.remember body).2.posts) :
    id ∈ s.posts ∨ id ∈ discoveries body := by
  cases page : Page.ofBody? body with
  | none =>
    simp only [remember, page] at member
    exact Or.inl member
  | some p =>
    simp only [remember, page, extend] at member
    exact List.mem_append.mp (List.mem_of_mem_drop member)

/-- A body that is no page adds nothing, and then there is nothing to drop either. -/
theorem remember_posts {s : Session} (room : s.posts.length ≤ maxPosts) (body : String) :
    (s.remember body).2.posts = (s.posts ++ discoveries body).rtake maxPosts := by
  cases page : Page.ofBody? body with
  | none => simp only [remember, discoveries, page, List.append_nil, rtake_of_length_le room]
  | some p => simp only [remember, page, extend, List.rtake]

theorem length_remember_le {s : Session} (room : s.posts.length ≤ maxPosts) (body : String) :
    (s.remember body).2.posts.length ≤ maxPosts := by
  rw [remember_posts room, length_rtake]
  exact Nat.min_le_left _ _

/-- The posts of a body are there, and behind all others, once it has been read. -/
theorem discoveries_suffix_remember {s : Session} (room : s.posts.length ≤ maxPosts)
    (body : String) : discoveries body <:+ (s.remember body).2.posts := by
  have fits : (discoveries body).length ≤ maxPosts :=
    Nat.le_trans (length_discoveries_le body) (by decide)
  rw [remember_posts room]
  apply List.suffix_of_suffix_length_le (List.suffix_append _ _) (rtake_suffix _ _)
  rw [length_rtake, List.length_append]
  omega

/-! ## All bodies -/

theorem rememberAll_append (s : Session) (front back : List String) :
    s.rememberAll (front ++ back) =
      let first := s.rememberAll front
      let later := first.2.rememberAll back
      (first.1 ++ later.1, later.2) := by
  induction front generalizing s with
  | nil => rfl
  | cons body rest ih => simp only [List.cons_append, rememberAll, ih]

theorem rememberAll_fst (s : Session) (bodies : List String) :
    (s.rememberAll bodies).1 = bodies.map fun body => (discoveries body).length := by
  induction bodies generalizing s with
  | nil => rfl
  | cons body rest ih => simp only [rememberAll, remember_fst, ih, List.map_cons]

theorem rememberAll_requester (s : Session) (bodies : List String) :
    (s.rememberAll bodies).2.requester = s.requester := by
  induction bodies generalizing s with
  | nil => rfl
  | cons body rest ih => exact (ih _).trans (remember_requester s body)

theorem length_rememberAll_le {s : Session} (room : s.posts.length ≤ maxPosts)
    (bodies : List String) : (s.rememberAll bodies).2.posts.length ≤ maxPosts := by
  induction bodies generalizing s with
  | nil => exact room
  | cons body rest ih => exact ih (length_remember_le room body)

theorem rememberAll_posts {s : Session} (room : s.posts.length ≤ maxPosts)
    (bodies : List String) :
    (s.rememberAll bodies).2.posts = (s.posts ++ bodies.flatMap discoveries).rtake maxPosts := by
  induction bodies generalizing s with
  | nil => simp only [rememberAll, List.flatMap_nil, List.append_nil, rtake_of_length_le room]
  | cons body rest ih =>
    have later := ih (length_remember_le room body)
    rw [remember_posts room, rtake_append_rtake] at later
    rw [List.flatMap_cons, ← List.append_assoc]
    exact later

/-- After each body its own posts stand behind all others. -/
theorem discoveries_suffix_rememberAll {s : Session} (room : s.posts.length ≤ maxPosts)
    {bodies : List String} {k : Nat} {body : String} (at_k : bodies[k]? = some body) :
    discoveries body <:+ (s.rememberAll (bodies.take (k + 1))).2.posts := by
  have split : bodies.take (k + 1) = bodies.take k ++ [body] := by
    rw [List.take_add_one, at_k, Option.toList_some]
  rw [split, rememberAll_append]
  exact discoveries_suffix_remember (length_rememberAll_le room _) body

/-- A session with at most fifty posts reads bodies one after another.  It is left with the last
posts, fifty at most, of those it had and those on the bodies' pages; of a page only the first
three entries matter, and of these the ones with an identifier.  Each body is counted by what it
adds, and what it adds stands last when it has been read. -/
theorem rememberAll_keeps_newest (s : Session) (room : s.posts.length ≤ 50)
    (bodies : List String) :
    let found (body : String) : List String :=
      match Page.ofBody? body with
      | none => []
      | some page => (page.posts.take 3).filterMap id
    let all := s.posts ++ bodies.flatMap found
    (s.rememberAll bodies).2.posts <:+ all ∧
      (s.rememberAll bodies).2.posts.length = min 50 all.length ∧
      (s.rememberAll bodies).1 = bodies.map (fun body => (found body).length) ∧
      (∀ k body, bodies[k]? = some body →
        found body <:+ (s.rememberAll (bodies.take (k + 1))).2.posts) ∧
      ∀ k, (s.rememberAll (bodies.take k)).2.posts.length ≤ 50 ∧
        (s.rememberAll (bodies.take k)).2.requester = s.requester := by
  intro found all
  have posts : (s.rememberAll bodies).2.posts = all.rtake 50 := rememberAll_posts room bodies
  refine ⟨?_, ?_, rememberAll_fst s bodies, ?_, ?_⟩
  · rw [posts]
    exact rtake_suffix 50 all
  · rw [posts, length_rtake]
  · intro k body at_k
    exact discoveries_suffix_rememberAll room at_k
  · intro k
    exact ⟨length_rememberAll_le room _, rememberAll_requester s _⟩

/-- A page of four entries, one of them null, read with room for one more post. -/
theorem rememberAll_keeps_newest_at_bound :
    let s : Session := { requester := "02", posts := List.replicate 49 "p" }
    let page := "\x7b\"posts\":[\x7b\"id\":\"a1\"\x7d,\x7b\"id\":null\x7d,"
      ++ "\x7b\"id\":\"b2\"\x7d,\x7b\"id\":\"d4\"\x7d]\x7d"
    let bodies := [page, "<html>"]
    s.posts.length ≤ 50 ∧
      (s.rememberAll bodies).2.posts <:+ s.posts ++ ["a1", "b2"] ∧
      (s.rememberAll bodies).2.posts.length = 50 ∧
      (s.rememberAll bodies).1 = [2, 0] := by
  intro s page bodies
  have room : s.posts.length ≤ 50 := by decide
  have read : discoveries page = ["a1", "b2"] := by decide +kernel
  have skipped : discoveries "<html>" = [] := by decide +kernel
  obtain ⟨last, length, counts, -, -⟩ := rememberAll_keeps_newest s room bodies
  have all : bodies.flatMap discoveries = ["a1", "b2"] := by
    simp only [bodies, List.flatMap_cons, List.flatMap_nil, read, skipped, List.append_nil]
  refine ⟨room, ?_, ?_, ?_⟩
  · exact all ▸ last
  · exact length.trans (congrArg (fun found => min 50 (s.posts ++ found).length) all)
  · refine counts.trans ?_
    exact congrArg₂ (fun m n => [m, n]) (congrArg List.length read) (congrArg List.length skipped)

end FeedTraffic.User.Session
