import Courier.Proofs.Http.Segments
import Mathlib.Data.List.DropRight

/-!
# Addresses that paths are appended to

A URL is read from its text, so what is appended to an address is read together with it. An address
that reads as the URL of a service without query and fragment (`Rooted`) keeps its part: scheme,
host and port stay, and its segments are gone through before those that are appended. These may
still take segments of the address away, and may turn into a query or a fragment
(`Rooted.parse_append`).

Each reader of a part gets one lemma about a text with another one appended to it; the URL of the
whole is put together from these, in the order in which it is read.
-/

set_option autoImplicit false

namespace Courier.Http.Url

/-! ## Where a text is cut -/

section

variable {α : Type} {p : α → Bool} {c : α} {xs : List α}

theorem drop_takeWhile (p : α → Bool) (xs : List α) :
    xs.drop (xs.takeWhile p).length = xs.dropWhile p :=
  (congrArg _ List.takeWhile_append_dropWhile.symm).trans List.drop_left

theorem dropWhile_append_of_mem (stop : c ∈ xs) (h : p c = false) (ys : List α) :
    (xs ++ ys).dropWhile p = xs.dropWhile p ++ ys := by
  have left : ¬ (xs.dropWhile p).isEmpty := fun nil => by
    have all := List.dropWhile_eq_nil_iff.1 (List.isEmpty_iff.1 nil) c stop
    rw [h] at all
    cases all
  rw [List.dropWhile_append, if_neg left]

theorem takeWhile_append_of_mem (stop : c ∈ xs) (h : p c = false) (ys : List α) :
    (xs ++ ys).takeWhile p = xs.takeWhile p := by
  have short : ¬ (xs.takeWhile p).length = xs.length := fun same => by
    have all := (List.takeWhile_sublist p).eq_of_length same
    have kept := List.takeWhile_eq_self_iff.1 all c stop
    rw [h] at kept
    cases kept
  rw [List.takeWhile_append, if_neg short]

end

/-! ## Ends and breaks

A text is cleaned before it is read: blanks at both ends are cut off and line breaks are left out
everywhere. An inner slash keeps the two sides apart.
-/

/-- What is read of a text at the end of a URL. -/
def settled (cs : List Char) : List Char := (cs.rdropWhile isEdge).filter fun c => !isBreak c

variable {c : Char}

/-- Blanks at the end of an appended text are at the end of the whole. -/
theorem rdropWhile_append (h : isEdge c = false) (xs ys : List Char) :
    (xs ++ c :: ys).rdropWhile isEdge = xs ++ c :: ys.rdropWhile isEdge := by
  induction ys using List.reverseRecOn with
  | nil => rw [List.rdropWhile_concat_neg isEdge xs c (by simp [h]), List.rdropWhile_nil]
  | append_singleton ys y ih =>
    rw [← List.cons_append, ← List.append_assoc, List.rdropWhile_concat, ih,
      List.rdropWhile_concat]
    split
    · rfl
    · simp only [List.append_assoc, List.cons_append]

theorem settled_append (h : isEdge c = false) (xs ys : List Char) :
    settled (xs ++ c :: ys) = (xs ++ [c]).filter (fun c => !isBreak c) ++ settled ys := by
  rw [settled, rdropWhile_append h, List.append_cons, List.filter_append]
  rfl

/-- What is dropped of a whole is dropped of its parts, at the front of the one and the end of the
other. -/
theorem cleaned_append (xs ys : List Char) :
    cleaned (xs ++ '/' :: ys) =
      (xs.dropWhile isEdge).filter (fun c => !isBreak c) ++ '/' :: settled ys := by
  have front : (xs ++ '/' :: ys).dropWhile isEdge = xs.dropWhile isEdge ++ '/' :: ys := by
    rw [List.dropWhile_append]
    by_cases blank : (xs.dropWhile isEdge).isEmpty
    · rw [if_pos blank, List.isEmpty_iff.1 blank]
      rfl
    · rw [if_neg blank]
  change settled ((xs ++ '/' :: ys).dropWhile isEdge) = _
  rw [front, settled_append rfl, List.filter_append, List.append_assoc]
  rfl

/-! ## The parts of a URL

Scheme, authority and what follows, each for a text with more behind it.
-/

/-- The scheme of a text is that of any longer one. -/
theorem scheme?_append {cs rest : List Char} {scheme : String}
    (h : scheme? cs = some (scheme, rest)) (ys : List Char) :
    scheme? (cs ++ ys) = some (scheme, rest ++ ys) ∧ rest <:+ cs := by
  unfold scheme? at h ⊢
  simp only [drop_takeWhile] at h ⊢
  -- the colon is in the text already, so the name before it is the same
  cases after : cs.dropWhile (· != ':') with
  | nil => simp [after] at h
  | cons colon more =>
    have tail : colon :: more <:+ cs := after ▸ List.dropWhile_suffix _
    by_cases isColon : colon = ':'
    · subst isColon
      have stop : ':' ∈ cs := tail.mem List.mem_cons_self
      rw [dropWhile_append_of_mem stop rfl, takeWhile_append_of_mem stop rfl, after,
        List.cons_append]
      rw [after] at h
      simp only [Option.ite_none_right_eq_some, Option.some.injEq, Prod.mk.injEq] at h ⊢
      obtain ⟨good, same, rfl⟩ := h
      exact ⟨⟨good, same, rfl⟩, (List.suffix_cons _ _).trans tail⟩
    · rw [after] at h
      split at h
      · exact absurd (List.cons.inj ‹_›).1 isColon
      · cases h

theorem tail?_eq_none {α : Type} {cs : List α} (h : cs.tail? = none) : cs = [] := by
  cases cs with
  | nil => rfl
  | cons => cases h

theorem parts_eq (service : Bool) (cs : List Char) :
    parts service cs = ((cs.takeWhile (· != '#')).takeWhile (· != '?'),
      (((cs.takeWhile (· != '#')).dropWhile (· != '?')).tail?).map
        (percentEncode (keptInQuery service)),
      ((cs.dropWhile (· != '#')).tail?).map (percentEncode keptInFragment)) := by
  simp only [parts, drop_takeWhile]

/-- Query and fragment of what is appended to a path. -/
theorem parts_append {service : Bool} {xs : List Char}
    (h : (parts service xs).2 = (none, none)) (ys : List Char) :
    parts service (xs ++ ys) = (xs ++ (parts service ys).1, (parts service ys).2) := by
  simp only [parts_eq, Prod.mk.injEq, Option.map_eq_none_iff] at h
  obtain ⟨query, fragment⟩ := h
  have noFragment := List.dropWhile_eq_nil_iff.1 (tail?_eq_none fragment)
  rw [List.takeWhile_eq_self_iff.2 noFragment] at query
  have noQuery := List.dropWhile_eq_nil_iff.1 (tail?_eq_none query)
  simp only [parts_eq, List.takeWhile_append_of_pos noFragment,
    List.takeWhile_append_of_pos noQuery, List.dropWhile_append_of_pos noFragment,
    List.dropWhile_append_of_pos noQuery]

/-- What comes after it is not of the path. -/
def isMark (c : Char) : Bool := c == '?' || c == '#'

theorem parts_path (service : Bool) (cs : List Char) :
    (parts service cs).1 = cs.takeWhile fun c => !isMark c := by
  have same : (fun c => decide ((c != '?') = true ∧ (c != '#') = true)) = fun c => !isMark c := by
    funext c
    simp only [isMark, bne, Bool.not_or, Bool.decide_and, Bool.decide_eq_true]
  rw [parts_eq, List.takeWhile_takeWhile, same]

/-- Without marks there is nothing but the path. -/
theorem parts_unmarked {service : Bool} {cs : List Char} (h : ∀ c ∈ cs, isMark c = false) :
    parts service cs = (cs, none, none) := by
  have unmarked (c : Char) (hc : c ∈ cs) : (c != '#') = true ∧ (c != '?') = true := by
    simpa [isMark, and_comm] using h c hc
  have noFragment (c : Char) (hc : c ∈ cs) := (unmarked c hc).1
  have noQuery (c : Char) (hc : c ∈ cs) := (unmarked c hc).2
  rw [parts_eq, List.takeWhile_eq_self_iff.2 noFragment, List.takeWhile_eq_self_iff.2 noQuery,
    List.dropWhile_eq_nil_iff.2 noFragment, List.dropWhile_eq_nil_iff.2 noQuery]
  rfl

/-- The segments of an address, which ends in a slash, come before those that are appended. -/
theorem segmentsOf_append (service : Bool) (xs : List Char) :
    ∃ above, ∀ ys, segmentsOf service (xs ++ '/' :: ys) =
      .segments (resolve above (split service ys)) := by
  cases xs with
  | nil => exact ⟨[], fun ys => rfl⟩
  | cons x xs =>
    refine ⟨(split service xs).foldl descend [], fun ys => ?_⟩
    rw [List.cons_append, segmentsOf, split_append, resolve_append _ _ (split_ne_nil service ys)]

/-! ## Appended paths

The base is read as far as its authority, so appending a path does not touch what has been read of
it.
-/

def segments (u : Url) : List (List Char) :=
  match u.path with
  | .segments parts => parts
  | .flat _ => []

/-- How a query stands in a target. -/
def marked : Option (List Char) → List Char
  | some query => '?' :: query
  | none => []

theorem requestPath_eq {url : Url} {parts : List (List Char)} (h : url.path = .segments parts) :
    url.requestPath = parts.flatMap ('/' :: ·) ++ marked url.query := by
  rw [requestPath, h]
  cases url.query <;> rfl

/-- An address that paths can be appended to, and its URL. -/
structure Rooted (base : String) (root : Url) : Prop where
  reads : parse? (base ++ "/") = some root
  service : root.isRequestable
  query : root.query = none
  fragment : root.fragment = none

variable {base path : String} {root url : Url}

/-- How the URL of a service has been read. -/
theorem read_service {s : String} (h : parse? s = some url) (service : url.isRequestable) :
    ∃ n rest, servicePort? url.scheme = some n ∧
      scheme? (cleaned s.toList) = some (url.scheme, rest) ∧
      withAuthority? url.scheme (some n) (rest.dropWhile (isSlash true)) = some url := by
  obtain ⟨⟨scheme, rest⟩, hs, read⟩ := Option.bind_eq_some_iff.1 h
  cases port : servicePort? scheme with
  | some n =>
    simp only [port] at read
    obtain ⟨place, -, rfl⟩ := Option.map_eq_some_iff.1 read
    exact ⟨n, rest, port, hs, read⟩
  | none =>
    have same : url.scheme = scheme := by
      simp only [port] at read
      split at read
      · next found => cases found
      · obtain ⟨place, -, rfl⟩ := Option.map_eq_some_iff.1 read
        rfl
      · cases read
        rfl
    -- the two schemes that can be requested have ports
    rw [isRequestable, same, Bool.or_eq_true, beq_iff_eq, beq_iff_eq] at service
    -- so there is no third case
    rcases service with rfl | rfl <;> cases port

theorem concat_of_suffix {xs ys : List Char} {c : Char} (h : xs <:+ ys ++ [c]) (ne : xs ≠ []) :
    ∃ more, xs = more ++ [c] := by
  rcases List.suffix_concat_iff.1 h with rfl | ⟨more, same, -⟩
  · exact absurd rfl ne
  · exact ⟨more, same⟩

/-- The authority ends at the slash that the address ends in, so that what follows goes to the
path. -/
theorem withAuthority?_append {scheme : String} {n : Option Nat} {xs : List Char}
    (h : withAuthority? scheme n (xs ++ ['/']) = some root) (query : root.query = none)
    (fragment : root.fragment = none) :
    ∃ above, ∀ ys, withAuthority? scheme n (xs ++ '/' :: ys) = some { root with
      path := .segments (resolve above (split n.isSome (parts n.isSome ys).1))
      query := (parts n.isSome ys).2.1
      fragment := (parts n.isSome ys).2.2 } := by
  obtain ⟨⟨host, port⟩, place, rfl⟩ := Option.map_eq_some_iff.1 h
  have stop : '/' ∈ xs ++ ['/'] := List.mem_append_right _ List.mem_cons_self
  -- the slash put at the end stops the authority at the latest
  let inAuthority (c : Char) : Bool := !(isSlash n.isSome c || c == '?' || c == '#')
  obtain ⟨below, left⟩ : ∃ below, (xs ++ ['/']).dropWhile inAuthority = below ++ ['/'] := by
    refine concat_of_suffix (List.dropWhile_suffix _) fun nil => ?_
    exact absurd (List.dropWhile_eq_nil_iff.1 nil _ stop) (by simp [inAuthority, isSlash])
  obtain ⟨above, appended⟩ := segmentsOf_append n.isSome below
  refine ⟨above, fun ys => ?_⟩
  -- a base without query and fragment has nothing behind its path
  have none : (parts n.isSome (below ++ ['/'])).2 = (none, none) := by
    rw [drop_takeWhile, left] at query fragment
    exact Prod.ext query fragment
  have inside := takeWhile_append_of_mem (p := inAuthority) stop rfl ys
  have after := dropWhile_append_of_mem (p := inAuthority) stop rfl ys
  rw [left] at after
  rw [List.append_cons, withAuthority?, drop_takeWhile, inside, after, place, parts_append none,
    List.append_assoc, List.singleton_append]
  dsimp only [Option.map_some]
  rw [appended]

theorem withAuthority?_nil (scheme : String) (n : Nat) :
    withAuthority? scheme (some n) [] = none := rfl

/-- A host that is read is not empty. -/
theorem hostAndPort?_host {n : Nat} {cs : List Char} {host : String} {port : Option Nat}
    (h : hostAndPort? (some n) cs = some (host, port)) : host ≠ "" := by
  obtain ⟨found, name, rest⟩ := Option.bind_eq_some_iff.1 h
  have same : found = host := by
    split at rest
    · cases rest
      rfl
    · cases rest
      rfl
    · split at rest <;> cases rest
      rfl
    · cases rest
  simp only [Option.isSome_some, if_true, serviceHost?, Option.ite_none_left_eq_some,
    Option.some.injEq] at name
  obtain ⟨filled, rfl⟩ := name
  rintro rfl
  rw [← String.toList_inj, String.toList_ofList] at same
  rw [List.map_eq_nil_iff.1 same] at filled
  exact filled rfl

theorem withAuthority?_host {scheme : String} {n : Nat} {cs : List Char}
    (h : withAuthority? scheme (some n) cs = some url) : url.host.any (· ≠ "") := by
  obtain ⟨⟨host, port⟩, place, rfl⟩ := Option.map_eq_some_iff.1 h
  exact decide_eq_true (hostAndPort?_host place)

namespace Rooted

/-- **What is appended to an address is a path below it**, with whatever query and fragment it
has. -/
theorem parse_append (h : Rooted base root) {ys : List Char} (slash : path.toList = '/' :: ys) :
    parse? (base ++ path) = some { root with
      path := .segments (resolve root.segments.dropLast.reverse
        (split true (parts true (settled ys)).1))
      query := (parts true (settled ys)).2.1
      fragment := (parts true (settled ys)).2.2 } := by
  obtain ⟨n, rest, port, named, read⟩ := read_service h.reads h.service
  rw [String.toList_append, show "/".toList = ['/'] from rfl, cleaned_append] at named
  let front := (base.toList.dropWhile isEdge).filter fun c => !isBreak c
  change scheme? (front ++ ['/']) = _ at named
  obtain ⟨scheme, tail⟩ := scheme?_append named (settled ys)
  have left : rest.dropWhile (isSlash true) ≠ [] := fun nil => by
    rw [nil, withAuthority?_nil] at read
    cases read
  -- what follows the slashes after the scheme ends as the address does
  obtain ⟨address, ends⟩ := concat_of_suffix ((List.dropWhile_suffix _).trans tail) left
  rw [ends] at read
  obtain ⟨above, appended⟩ := withAuthority?_append read h.query h.fragment
  have dropped : (rest ++ settled ys).dropWhile (isSlash true) = address ++ '/' :: settled ys := by
    rw [List.dropWhile_append, if_neg (by simpa using left), ends, List.append_assoc]
    rfl
  -- the address by itself is the case in which nothing is appended
  have own : root.segments = above.reverse ++ [[]] := by
    have itself := Option.some.inj (read.symm.trans (appended []))
    rw [itself]
    exact List.reverse_cons
  rw [own, List.dropLast_concat, List.reverse_reverse, parse?, String.toList_append, slash,
    cleaned_append, List.append_cons, scheme, Option.bind_some]
  simp only [port, dropped]
  exact appended (settled ys)

theorem host_ne (h : Rooted base root) : root.host.any (· ≠ "") := by
  obtain ⟨n, rest, port, named, read⟩ := read_service h.reads h.service
  exact withAuthority?_host read

end Rooted

end Courier.Http.Url
