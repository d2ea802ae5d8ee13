import Courier.Proofs.Http.Addresses
import Courier.Proofs.Http.Percent
import Courier.Proofs.Http.Resources

/-!
# Identifiers in paths

An identifier stands in a path as it is, and a URL is read from the whole. Most identifiers become
one segment that reads as what they are; these are the *plain* ones (`Resource.Plain`). Slashes,
marks, breaks, dots and escapes have a meaning of their own, and an identifier with any of those
asks for something else, be it the resource of another identifier.

`identifier_law` says of all identifiers what is asked for. Plain ones name their own resource, and
no others do: a segment is not longer than the part of the identifier that it comes from, so it
reads as all of it only if nothing has been lost.
-/

set_option autoImplicit false

namespace Courier.Http

open Text.Utf8 (encode)

namespace Resource

/-- The segments before the identifier. -/
def above : Resource → List (List Char)
  | .preferences | .lastNotification => ["api".toList, "v1".toList, "users".toList]
  | .rendering | .template => ["api".toList, "v1".toList, "templates".toList]

/-- The segments after it. -/
def below : Resource → List (List Char)
  | .preferences => ["preferences".toList]
  | .lastNotification => ["last-notification".toList]
  | .rendering => ["render".toList]
  | .template => []

def query (language : String) : Resource → Option (List Char)
  | .template => some (formEncode "language" ++ '=' :: formEncode language)
  | _ => none

/-- The target is the resource's own for this identifier: that stands in one segment, which reads as
the identifier. -/
structure Names (root : Url) (language id : String) (url : Url) (r : Resource) : Prop where
  path : ∃ segment, '/' ∉ segment ∧ percentDecode (encode segment) = encode id.toList ∧
    url.path = .segments (root.segments.dropLast ++ (r.above ++ segment :: r.below))
  query : url.query = r.query language

/-- Identifiers of which nothing means anything in a URL. -/
structure Plain (r : Resource) (id : List Char) : Prop where
  whole : ∀ c ∈ id, Url.isSlash true c = false
  unmarked : ∀ c ∈ id, Url.isMark c = false
  unbroken : ∀ c ∈ id, Url.isBreak c = false
  dots : Url.isDots id = false
  /-- There are no escapes in it. -/
  literal : percentDecode (encode id) = encode id
  /-- At the end of a URL it does not end in blanks. -/
  ending : r.below = [] → id.rdropWhile Url.isEdge = id

instance (r : Resource) (cs : List Char) : Decidable (r.Plain cs) :=
  decidable_of_iff ((cs.all fun c => !Url.isSlash true c) ∧ (cs.all fun c => !Url.isMark c) ∧
      (cs.all fun c => !Url.isBreak c) ∧ Url.isDots cs = false ∧
      percentDecode (encode cs) = encode cs ∧ (r.below = [] → cs.rdropWhile Url.isEdge = cs)) <| by
    simp only [List.all_eq_true, Bool.not_eq_true']
    exact ⟨fun ⟨whole, unmarked, unbroken, dots, literal, ending⟩ =>
      ⟨whole, unmarked, unbroken, dots, literal, ending⟩,
      fun h => ⟨h.whole, h.unmarked, h.unbroken, h.dots, h.literal, h.ending⟩⟩

/-! ## What is read of an identifier

The identifier is written between two texts of the path. What is read of it as a path is the part
before the first mark, less line breaks, in pieces between slashes.
-/

def back (r : Resource) : List Char := r.below.flatMap ('/' :: ·)

/-- What is left of an identifier. Only one at the end may lose characters there. -/
def kept (r : Resource) (id : List Char) : List Char :=
  if r.below = [] then Url.settled id else id.filter fun c => !Url.isBreak c

variable {r : Resource} {c : Client} {root url : Url} {language id : String} {cs : List Char}

theorem below_cases (r : Resource) :
    r.below = [] ∨ ∃ word, r.below = [word] ∧ Url.settled word = word := by
  cases r with
  | template => exact .inl rfl
  | _ => exact .inr ⟨_, rfl, by decide⟩

theorem plain_of_mem_below {word : List Char} (h : word ∈ r.below) : r.Plain word := by
  cases r with
  | template => exact absurd h List.not_mem_nil
  | _ =>
    obtain rfl := List.mem_singleton.1 h
    decide +kernel

theorem map_below (r : Resource) : r.below.map (percentEncode Url.keptInPath) = r.below := by
  cases r <;> decide +kernel

/-- The path of a resource has the identifier in it, behind words that mean nothing else. -/
theorem path_toList (r : Resource) (id : String) :
    ∃ front, (r.path id).toList = '/' :: (front ++ '/' :: (id.toList ++ r.back)) ∧
      (front.all fun c => !Url.isBreak c) ∧ (front.all fun c => !Url.isMark c) ∧
      Url.split true front = r.above := by
  have text (before after : String) :
      (before ++ id ++ after).toList = before.toList ++ (id.toList ++ after.toList) := by
    rw [String.toList_append, String.toList_append, List.append_assoc]
  cases r with
  | template =>
    have text : (path .template id).toList = "/api/v1/templates/".toList ++ id.toList :=
      String.toList_append
    have nothing : back .template = [] := rfl
    refine ⟨"api/v1/templates".toList, ?_, by decide, by decide, by decide⟩
    rw [nothing, List.append_nil]
    exact text
  | rendering =>
    exact ⟨"api/v1/templates".toList, text "/api/v1/templates/" "/render", by decide, by decide,
      by decide⟩
  | preferences =>
    exact ⟨"api/v1/users".toList, text "/api/v1/users/" "/preferences", by decide, by decide,
      by decide⟩
  | lastNotification =>
    exact ⟨"api/v1/users".toList, text "/api/v1/users/" "/last-notification", by decide, by decide,
      by decide⟩

/-- Only an identifier at the end may lose what is dropped there. -/
theorem settled_tail (r : Resource) (cs : List Char) :
    Url.settled (cs ++ r.back) = r.kept cs ++ r.back := by
  rcases r.below_cases with none | ⟨word, only, whole⟩
  · rw [kept, if_pos none, back, none, List.flatMap_nil, List.append_nil, List.append_nil]
  · have back : r.back = '/' :: word := by
      rw [back, only, List.flatMap_singleton]
    rw [kept, if_neg (by simp [only]), back, Url.settled_append rfl, whole, List.filter_append,
      List.append_assoc]
    rfl

/-- Path, query and fragment of what follows the slash before the identifier. -/
def pieces (r : Resource) (cs : List Char) : List Char × Option (List Char) × Option (List Char) :=
  Url.parts true (r.kept cs ++ r.back)

/-- How the URL of a resource has been read with some identifier. -/
structure Reads (c : Client) (root : Url) (language id : String) (r : Resource) (url : Url) :
    Prop where
  found : r.url? c language id = some url
  server : (url.scheme, url.host, url.port) = (root.scheme, root.host, root.port)
  path : url.path = .segments (Url.resolve (root.segments.dropLast ++ r.above).reverse
    (Url.split true (r.pieces id.toList).1))
  query : (r.pieces id.toList).2.1 = none → url.query = r.query language

theorem foldl_above (r : Resource) (done : List (List Char)) :
    r.above.foldl Url.descend done.reverse = (done ++ r.above).reverse := by
  have undotted : ∀ w ∈ r.above, Url.isDots w = false := by cases r <;> decide +kernel
  have encoded : r.above.map (percentEncode Url.keptInPath) = r.above := by
    cases r <;> decide +kernel
  rw [Url.foldl_descend _ undotted, encoded, List.reverse_append]

/-- What is read of the address with a path behind it. -/
theorem parse_path (h : Url.Rooted c.base root) (r : Resource) (id : String) :
    Url.parse? (c.base ++ r.path id) = some { root with
      path := .segments (Url.resolve (root.segments.dropLast ++ r.above).reverse
        (Url.split true (r.pieces id.toList).1))
      query := (r.pieces id.toList).2.1
      fragment := (r.pieces id.toList).2.2 } := by
  obtain ⟨front, text, unbroken, unmarked, above⟩ := r.path_toList id
  have unbroken : (front ++ ['/']).filter (fun c => !Url.isBreak c) = front ++ ['/'] := by
    rw [List.filter_append, List.filter_eq_self.2 (List.all_eq_true.1 unbroken)]
    rfl
  -- the text before the id holds neither mark, so both are looked for in the pieces
  have unmarked : (Url.parts true (front ++ ['/'])).2 = (none, none) := by
    simp only [List.all_eq_true, Bool.not_eq_true'] at unmarked
    rw [Url.parts_unmarked (List.forall_mem_append.2 ⟨unmarked, List.forall_mem_singleton.2 rfl⟩)]
  have read := h.parse_append text
  rw [Url.settled_append rfl, unbroken, settled_tail, Url.parts_append unmarked,
    List.append_assoc, List.singleton_append] at read
  dsimp only at read
  rw [Url.split_append, above, Url.resolve_append _ _ (Url.split_ne_nil true _),
    foldl_above] at read
  exact read

theorem withPair_eq (h : url.host.any (· ≠ "")) (name value : String) :
    ∃ query, url.withPair name value = { url with query := some query } ∧
      (url.query = none → query = formEncode name ++ '=' :: formEncode value) := by
  rw [Url.withPair, if_pos h]
  refine ⟨_, rfl, fun none => ?_⟩
  rw [none]

/-- Every identifier makes a URL. -/
theorem reads (h : Url.Rooted c.base root) (language id : String) (r : Resource) :
    ∃ url, Reads c root language id r url := by
  obtain ⟨found, read, named, server, segments, asked⟩ :
      ∃ found, Url.parse? (c.base ++ r.path id) = some found ∧ found.host.any (· ≠ "") ∧
        (found.scheme, found.host, found.port) = (root.scheme, root.host, root.port) ∧
        found.path = .segments (Url.resolve (root.segments.dropLast ++ r.above).reverse
          (Url.split true (r.pieces id.toList).1)) ∧
        found.query = (r.pieces id.toList).2.1 :=
    ⟨_, parse_path h r id, h.host_ne, rfl, rfl, rfl⟩
  cases r with
  | template =>
    obtain ⟨query, added, own⟩ := withPair_eq named "language" language
    refine ⟨found.withPair "language" language, congrArg (Option.map _) read, ?_, ?_, ?_⟩
    all_goals rw [added]
    · exact server
    · exact segments
    · exact fun none => congrArg some (own (asked.trans none))
  | _ => exact ⟨found, read, server, segments, asked.trans⟩

/-! ## Plain identifiers

Nothing of a plain identifier is cut, left out or taken for a place in the path.
-/

theorem kept_of_plain (h : r.Plain cs) : r.kept cs = cs := by
  have unbroken : cs.filter (fun c => !Url.isBreak c) = cs :=
    List.filter_eq_self.2 fun c mem => by rw [h.unbroken c mem]; rfl
  rw [kept]
  split
  · rw [Url.settled, h.ending ‹_›, unbroken]
  · exact unbroken

theorem unmarked_back (r : Resource) : ∀ c ∈ r.back, Url.isMark c = false := by
  have all : r.back.all fun c => !Url.isMark c := by cases r <;> decide +kernel
  simpa only [List.all_eq_true, Bool.not_eq_true'] using all

theorem pieces_of_plain (h : r.Plain cs) : r.pieces cs = (cs ++ r.back, none, none) := by
  rw [pieces, kept_of_plain h]
  exact Url.parts_unmarked (List.forall_mem_append.2 ⟨h.unmarked, r.unmarked_back⟩)

theorem split_back (r : Resource) (cs : List Char) :
    Url.split true (cs ++ r.back) = Url.split true cs ++ r.below := by
  rcases r.below_cases with none | ⟨word, only, -⟩
  · rw [back, none, List.flatMap_nil, List.append_nil, List.append_nil]
  · have plain : r.Plain word := plain_of_mem_below (only ▸ List.mem_cons_self)
    rw [back, only, List.flatMap_singleton, Url.split_append, Url.split_of_whole plain.whole]

theorem Reads.segments (h : Reads c root language id r url) (plain : r.Plain id.toList) :
    url.path = .segments (root.segments.dropLast ++
      (r.above ++ percentEncode Url.keptInPath id.toList :: r.below)) := by
  have undotted : ∀ w ∈ id.toList :: r.below, Url.isDots w = false :=
    List.forall_mem_cons.2 ⟨plain.dots, fun w mem => (plain_of_mem_below mem).dots⟩
  rw [h.path, pieces_of_plain plain, split_back, Url.split_of_whole plain.whole,
    List.singleton_append, Url.resolve_of_no_dots _ undotted, List.reverse_reverse, List.map_cons,
    map_below, List.append_assoc]

/-- **A plain identifier names its own resource.** -/
theorem Reads.names (h : Reads c root language id r url) (plain : r.Plain id.toList) :
    r.Names root language id url where
  path := by
    have slash : '/' ∉ id.toList := fun mem => nomatch plain.whole '/' mem
    exact ⟨_, slash_not_mem_percentEncode slash,
      (percentDecode_percentEncode _).trans plain.literal, h.segments plain⟩
  query := h.query (by rw [pieces_of_plain plain])

/-! ## All others

The converse. If the URL names the resource of the identifier, the segment at its place is the
identifier itself, so that nothing of it was lost.
-/

theorem kept_sublist (r : Resource) (cs : List Char) : (r.kept cs).Sublist cs := by
  rw [kept]
  split
  · exact List.filter_sublist.trans (List.rdropWhile_prefix _ _).sublist
  · exact List.filter_sublist

theorem unbroken_of_kept (h : r.kept cs = cs) : ∀ c ∈ cs, Url.isBreak c = false := by
  intro c mem
  rw [← h, kept] at mem
  split at mem <;> simpa using (List.mem_filter.1 mem).2

theorem ending_of_kept (h : r.kept cs = cs) (none : r.below = []) :
    cs.rdropWhile Url.isEdge = cs := by
  rw [kept, if_pos none, Url.settled] at h
  have whole : (List.filter (fun c => !Url.isBreak c) (cs.rdropWhile Url.isEdge)).Sublist
    (cs.rdropWhile Url.isEdge) := List.filter_sublist
  rw [h] at whole
  exact (List.rdropWhile_prefix _ _).sublist.antisymm whole

/-- The parts of the path come from before the first mark of the identifier, if it has one. -/
theorem mem_pieces {w : List Char} (h : w ∈ Url.split true (r.pieces cs).1) :
    w ∈ r.below ∨ w ∈ Url.split true ((r.kept cs).takeWhile fun c => !Url.isMark c) := by
  rw [pieces, Url.parts_path] at h
  -- a mark of the identifier hides the words behind it
  by_cases marked : ∃ c ∈ r.kept cs, Url.isMark c = true
  · obtain ⟨c, mem, mark⟩ := marked
    have stop : (!Url.isMark c) = false := by rw [mark]; rfl
    rw [Url.takeWhile_append_of_mem mem stop] at h
    exact .inr h
  · have unmarked (c : Char) (mem : c ∈ r.kept cs) : (!Url.isMark c) = true := by
      rw [Bool.not_eq_true']
      exact Bool.eq_false_iff.2 fun mark => marked ⟨c, mem, mark⟩
    have back (c : Char) (mem : c ∈ r.back) : (!Url.isMark c) = true := by
      rw [r.unmarked_back c mem]
      rfl
    rw [List.takeWhile_append_of_pos unmarked, List.takeWhile_eq_self_iff.2 back, split_back,
      List.mem_append] at h
    rw [List.takeWhile_eq_self_iff.2 unmarked]
    exact h.symm

theorem plain_nil (r : Resource) : r.Plain [] := by
  refine ⟨?_, ?_, ?_, by decide, rfl, fun _ => rfl⟩ <;> exact fun c mem => nomatch mem

/-- **Whatever reads as the identifier at its place makes it a plain one.** -/
theorem plain_of_place (above : List (List Char)) {segment : List Char}
    (place : (Url.resolve above.reverse (Url.split true (r.pieces cs).1))[above.length]? =
      some segment) (reads : percentDecode (encode segment) = encode cs) : r.Plain cs := by
  rcases Url.resolve_getElem? place with before | rfl | ⟨w, mem, undotted, rfl⟩
  · -- nothing above is at this place
    simp at before
  · obtain rfl : [] = cs := Text.Utf8.encode_inj reads
    exact r.plain_nil
  · rw [percentDecode_percentEncode] at reads
    rcases mem_pieces mem with word | piece
    · have plain := plain_of_mem_below word
      obtain rfl := Text.Utf8.encode_inj (plain.literal.symm.trans reads)
      exact plain
    · -- the part is a piece of the identifier, and no shorter
      obtain ⟨sub, whole⟩ := Url.mem_split piece
      have inKept := sub.trans (List.takeWhile_sublist _)
      have long : (encode cs).length ≤ (encode w).length := reads ▸ length_percentDecode_le _
      obtain rfl := Text.Utf8.eq_of_sublist (inKept.trans (r.kept_sublist cs)) long
      -- nothing of the identifier has been lost on the way
      have kept : r.kept w = w := (r.kept_sublist w).antisymm inKept
      rw [kept] at sub
      have unmarked := List.takeWhile_eq_self_iff.1 ((List.takeWhile_sublist _).antisymm sub)
      exact {
        whole
        unmarked := fun c mem => by simpa using unmarked c mem
        unbroken := unbroken_of_kept kept
        dots := undotted
        literal := reads
        ending := ending_of_kept kept }

/-- An identifier names its resource exactly if it is plain. -/
theorem Reads.names_iff (h : Reads c root language id r url) :
    r.Names root language id url ↔ r.Plain id.toList := by
  refine ⟨fun named => ?_, h.names⟩
  obtain ⟨segment, -, reads, path⟩ := named.path
  have same := UrlPath.segments.inj (h.path.symm.trans path)
  refine plain_of_place (root.segments.dropLast ++ r.above) ?_ reads
  rw [same, ← List.append_assoc, List.getElem?_append_right (Nat.le_refl _), Nat.sub_self]
  rfl

/-! ## Targets

Two identifiers that name their resources do not share a target, since the encoding of a segment can
be undone.
-/

theorem Reads.requestPath (h : Reads c root language id r url) (plain : r.Plain id.toList) :
    url.requestPath = (root.segments.dropLast ++ r.above).flatMap ('/' :: ·) ++
      '/' :: (percentEncode Url.keptInPath id.toList ++
        (r.back ++ Url.marked (r.query language))) := by
  rw [Url.requestPath_eq (h.segments plain), (h.names plain).query, ← List.append_assoc,
    List.flatMap_append, List.flatMap_cons, back]
  simp only [List.append_assoc, List.cons_append]

/-- What stands before the first question mark is known from the whole. -/
theorem eq_of_append_mark {xs ys us vs : List Char} (hx : '?' ∉ xs) (hy : '?' ∉ ys)
    (h : xs ++ '?' :: us = ys ++ '?' :: vs) : xs = ys := by
  have before {zs : List Char} (hz : '?' ∉ zs) (ws : List Char) :
      (zs ++ '?' :: ws).takeWhile (· != '?') = zs := by
    have inside (c : Char) (mem : c ∈ zs) : (c != '?') = true :=
      bne_iff_ne.2 fun same => hz (same ▸ mem)
    rw [List.takeWhile_append_of_pos inside]
    exact List.append_nil zs
  rw [← before hx us, h, before hy vs]

/-- **Two plain identifiers never share a target**, whatever the languages. -/
theorem Reads.apart {language' id' : String} {url' : Url} (h : Reads c root language id r url)
    (h' : Reads c root language' id' r url') (plain : r.Plain id.toList)
    (plain' : r.Plain id'.toList) (differ : id ≠ id') : url.requestPath ≠ url'.requestPath := by
  intro same
  rw [h.requestPath plain, h'.requestPath plain'] at same
  have rest := List.tail_eq_of_cons_eq (List.append_cancel_left same)
  -- around the identifiers the targets are the same words, so that the segments must differ
  have written : percentEncode Url.keptInPath id.toList =
      percentEncode Url.keptInPath id'.toList := by
    cases r with
    | template =>
      exact eq_of_append_mark (mark_not_mem_percentEncode _) (mark_not_mem_percentEncode _) rest
    | _ => exact List.append_cancel_right rest
  refine differ (String.toList_inj.1 (Text.Utf8.encode_inj ?_))
  rw [← plain.literal, ← plain'.literal, ← percentDecode_percentEncode, written,
    percentDecode_percentEncode]

end Resource

/-- What the calls for a resource ask for with an identifier. -/
structure IdentifierLaw (c : Client) (root : Url) (r : Resource) (language id : String)
    (url : Url) : Prop where
  found : r.url? c language id = some url
  /-- The call asks for it, and for nothing else. -/
  asks : r.Asks c language id url
  server : (url.scheme, url.host, url.port) = (root.scheme, root.host, root.port)
  names : r.Names root language id url ↔ r.Plain id.toList
  /-- Another one is not asked for by this target. -/
  apart : r.Plain id.toList → ∀ language' id' url', r.url? c language' id' = some url' →
    r.Plain id'.toList → id ≠ id' → url.requestPath ≠ url'.requestPath

/-- **One identifier, one resource**, as far as it is plain: with every identifier, each call asks
the service of its address for one target. That is the resource's own for just the plain ones, and
then it is no other one's. -/
theorem identifier_law {c : Client} {root : Url} (h : Url.Rooted c.base root) (r : Resource)
    (language id : String) : ∃ url, IdentifierLaw c root r language id url := by
  obtain ⟨url, reads⟩ := Resource.reads h language id r
  have requestable : url.isRequestable := by
    have scheme : url.scheme = root.scheme := congrArg (·.1) reads.server
    rw [Url.isRequestable, scheme]
    exact h.service
  refine ⟨url, reads.found, Resource.asks reads.found requestable, reads.server, reads.names_iff,
    fun plain language' id' url' found' plain' differ => ?_⟩
  obtain ⟨read, reads'⟩ := Resource.reads h language' id' r
  obtain rfl := Option.some.inj (found'.symm.trans reads'.found)
  exact reads.apart reads' plain plain' differ

/-- A template with a blank in its code. -/
theorem identifier_law_template :
    let c := Client.templates "http://templates.test/" {}
    let root : Url := ⟨"http", some "templates.test", none, .segments [[]], none, none⟩
    Url.Rooted c.base root ∧ Resource.Plain .template "order confirmed".toList ∧
      ∃ url, IdentifierLaw c root .template "en" "order confirmed" url ∧
        url.text = "http://templates.test/api/v1/templates/order%20confirmed?language=en" := by
  intro c root
  have rooted : Url.Rooted c.base root := ⟨by decide +kernel, rfl, rfl, rfl⟩
  obtain ⟨url, law⟩ := identifier_law rooted .template "en" "order confirmed"
  have text : (Resource.template.url? c "en" "order confirmed").map Url.text =
      some "http://templates.test/api/v1/templates/order%20confirmed?language=en" := by
    decide +kernel
  rw [law.found] at text
  exact ⟨rooted, by decide +kernel, url, law, Option.some.inj text⟩

/-- One that is not plain asks for what is another user's, or another template's. -/
theorem shared_target :
    let c := Client.users "http://users.test" {}
    "x/../u2" ≠ "u2" ∧ ∀ r : Resource, ∃ url,
      r.url? c "en" "x/../u2" = some url ∧ r.Asks c "en" "x/../u2" url ∧
      r.url? c "en" "u2" = some url ∧ r.Asks c "en" "u2" url := by
  intro c
  refine ⟨by decide, fun r => ?_⟩
  have same : r.url? c "en" "x/../u2" = r.url? c "en" "u2" := by cases r <;> decide +kernel
  have good : (r.url? c "en" "u2").any Url.isRequestable := by cases r <;> decide +kernel
  obtain ⟨url, own, requestable⟩ := (Option.any_eq_true _ _).1 good
  exact ⟨url, same.trans own, Resource.asks (same.trans own) requestable, own,
    Resource.asks own requestable⟩

end Courier.Http
