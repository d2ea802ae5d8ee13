import Courier.Http.Url
import Mathlib.Data.List.Basic

/-!
# Segments of a path

A path is cut at its slashes, and what is between them becomes one segment after the other. A part
of dots is no segment: it takes the one before away, or is skipped (`resolve_step`). So a segment of
the path comes from a part that is no dots, or is an empty one at the end (`resolve_getElem?`).
-/

set_option autoImplicit false

namespace Courier.Http.Url

variable {service : Bool} {cs w : List Char}

/-! ## Cutting

A slash cuts in two, and between slashes nothing is cut.
-/

theorem split_ne_nil (service : Bool) (cs : List Char) : split service cs ≠ [] := by
  fun_cases split service cs <;> simp

/-- A slash cuts. -/
theorem split_append (xs ys : List Char) :
    split service (xs ++ '/' :: ys) = split service xs ++ split service ys := by
  induction xs with
  | nil =>
    obtain ⟨part, more, cut⟩ := List.exists_cons_of_ne_nil (split_ne_nil service ys)
    simp [split, cut, isSlash]
  | cons x xs ih =>
    obtain ⟨part, more, cut⟩ := List.exists_cons_of_ne_nil (split_ne_nil service xs)
    rw [List.cons_append, split, ih, split, cut, List.cons_append]
    dsimp only
    split <;> rfl

theorem split_of_whole (h : ∀ c ∈ cs, isSlash service c = false) : split service cs = [cs] := by
  induction cs with
  | nil => rfl
  | cons c cs ih =>
    rw [List.forall_mem_cons] at h
    rw [split, ih h.2]
    simp [h.1]

/-- A part of a path is a piece of it without a slash. -/
theorem mem_split (h : w ∈ split service cs) :
    w.Sublist cs ∧ ∀ c ∈ w, isSlash service c = false := by
  -- by induction on the text: its first character ends the first part, or is the first of it
  induction cs generalizing w with
  | nil =>
    obtain rfl := List.mem_singleton.1 h
    exact ⟨.slnil, fun c hc => absurd hc List.not_mem_nil⟩
  | cons c cs ih =>
    obtain ⟨part, more, cut⟩ := List.exists_cons_of_ne_nil (split_ne_nil service cs)
    rw [cut] at ih
    rw [split, cut] at h
    dsimp only at h
    split at h
    · rcases List.mem_cons.1 h with rfl | h
      · exact ⟨List.nil_sublist _, fun c hc => absurd hc List.not_mem_nil⟩
      · exact ⟨(ih h).1.cons c, (ih h).2⟩
    · rcases List.mem_cons.1 h with rfl | h
      · have part := ih List.mem_cons_self
        refine ⟨part.1.cons_cons c, List.forall_mem_cons.2 ⟨?_, part.2⟩⟩
        exact Bool.eq_false_iff.2 ‹_›
      · have part := ih (List.mem_cons_of_mem _ h)
        exact ⟨part.1.cons c, part.2⟩

/-! ## Places in a path

Two dots go up one place and a single dot stays. Without either, the segments of a path are its
places in order.
-/

/-- The path after a segment that is not the last. The path is in reverse. -/
def descend (done : List (List Char)) (segment : List Char) : List (List Char) :=
  if isDoubleDot segment then ascend done
  else if isSingleDot segment then done
  else percentEncode keptInPath segment :: done

/-- Parts that are not the last are gone through one by one, whatever follows. -/
theorem resolve_append (done parts : List (List Char)) {more : List (List Char)} (h : more ≠ []) :
    resolve done (parts ++ more) = resolve (parts.foldl descend done) more := by
  induction parts generalizing done with
  | nil => rfl
  | cons segment parts ih =>
    have inside : (parts ++ more).isEmpty = false := by simp [h]
    rw [List.cons_append, resolve, inside, List.foldl_cons, ih, ih, ih, descend]
    simp only [Bool.false_eq_true, if_false]
    split <;> [rfl; split <;> rfl]

/-- Segments that stand for a place in the path. -/
def isDots (segment : List Char) : Bool := isDoubleDot segment || isSingleDot segment

/-- Parts that are no dots become segments in their order, each with its octets escaped. -/
theorem resolve_of_no_dots (done : List (List Char)) {parts : List (List Char)}
    (h : ∀ w ∈ parts, isDots w = false) :
    resolve done parts = done.reverse ++ parts.map (percentEncode keptInPath) := by
  induction parts generalizing done with
  | nil => simp [resolve]
  | cons w parts ih =>
    rw [List.forall_mem_cons, isDots, Bool.or_eq_false_iff] at h
    rw [resolve, h.1.1, h.1.2]
    simp only [Bool.false_eq_true, if_false]
    rw [ih _ h.2, List.reverse_cons, List.append_assoc]
    rfl

theorem foldl_descend (done : List (List Char)) {parts : List (List Char)}
    (h : ∀ w ∈ parts, isDots w = false) :
    parts.foldl descend done = (parts.map (percentEncode keptInPath)).reverse ++ done := by
  induction parts generalizing done with
  | nil => rfl
  | cons w parts ih =>
    rw [List.forall_mem_cons, isDots, Bool.or_eq_false_iff] at h
    rw [List.foldl_cons, descend, h.1.1, h.1.2, ih _ h.2, List.map_cons, List.reverse_cons,
      List.append_assoc]
    rfl

theorem mem_reverse_cons {done : List (List Char)} {last segment : List Char} {i : Nat}
    (h : (last :: done).reverse[i]? = some segment) :
    done.reverse[i]? = some segment ∨ segment = last := by
  rw [List.reverse_cons] at h
  rcases Nat.lt_or_ge i done.reverse.length with inside | past
  · rw [List.getElem?_append_left inside] at h
    exact .inl h
  · rw [List.getElem?_append_right past] at h
    exact .inr (List.mem_singleton.1 (List.mem_of_getElem? h))

/-- A segment that is still there when another is taken away stands in its old place. -/
theorem mem_reverse_ascend {done : List (List Char)} {segment : List Char} {i : Nat}
    (h : (ascend done).reverse[i]? = some segment) : done.reverse[i]? = some segment := by
  cases done with
  | nil => exact h
  | cons last done =>
    rw [ascend] at h
    split at h
    · exact h
    · have inside : i < done.reverse.length := (List.getElem?_eq_some_iff.1 h).1
      rw [List.reverse_cons, List.getElem?_append_left inside]
      exact h

/-- One part of a path leaves a segment of its own, or takes one away, or leaves an empty one at the
end. -/
theorem resolve_step (done parts : List (List Char)) (w : List Char) :
    ∃ next : List (List Char), resolve done (w :: parts) = resolve next parts ∧
      ∀ (i : Nat) (segment : List Char), next.reverse[i]? = some segment →
        done.reverse[i]? = some segment ∨ segment = [] ∨
          (isDots w = false ∧ segment = percentEncode keptInPath w) := by
  -- at the end of a path dots leave an empty segment, on top of what they have left
  have closed {done : List (List Char)} {last : Bool} {i : Nat} {segment : List Char}
      (h : (if last then [] :: done else done).reverse[i]? = some segment) :
      done.reverse[i]? = some segment ∨ segment = [] := by
    split at h
    · exact mem_reverse_cons h
    · exact .inl h
  rw [resolve]
  split
  · exact ⟨_, rfl, fun i segment h => (closed h).imp mem_reverse_ascend .inl⟩
  · split
    · exact ⟨_, rfl, fun i segment h => (closed h).imp id .inl⟩
    · have own : isDots w = false := by simp [isDots, *]
      exact ⟨_, rfl, fun i segment h => (mem_reverse_cons h).imp id fun last => .inr ⟨own, last⟩⟩

/-- At a place of the path is the segment that has been there before, or one that has come since,
and then is empty or was written for a part that is no dots. -/
theorem resolve_getElem? {done parts : List (List Char)} {i : Nat} {segment : List Char}
    (h : (resolve done parts)[i]? = some segment) :
    done.reverse[i]? = some segment ∨ segment = [] ∨
      ∃ w ∈ parts, isDots w = false ∧ segment = percentEncode keptInPath w := by
  induction parts generalizing done with
  | nil => exact .inl h
  | cons w parts ih =>
    obtain ⟨next, step, places⟩ := resolve_step done parts w
    rw [step] at h
    rcases ih h with before | empty | ⟨v, mem, came⟩
    · exact (places i segment before).imp id (.imp id fun own => ⟨w, List.mem_cons_self, own⟩)
    · exact .inr (.inl empty)
    · exact .inr (.inr ⟨v, List.mem_cons_of_mem _ mem, came⟩)

end Courier.Http.Url
