import Courier.Proofs.InMemory.Catalogue
import Mathlib.Data.List.Permutation

/-!
# Renderings in memory

Values without braces take their places at once, whatever the order they are put there in, and no
placeholder is left (`substitution_law`).

Values with braces are another matter. One that holds the placeholder of another is filled by it, if
the other comes later, so that the order shows in the text (`content_by_order`). It does not where
the values are settled, and of values that hold whole placeholders it is known what each order makes
(`rendering_orders`).
-/

set_option autoImplicit false

namespace Courier

namespace Placeholder

/-- A text with values in place, put there one by one: what `fill` does in the order of names. -/
def oneByOne (order : List (String × Json)) (s : String) : String :=
  String.ofList (fillList order s.toList)

/-- A text with values in place, put there all at once. -/
def atOnce (values : List (String × Json)) (s : String) : String :=
  String.ofList (textOf ((pieces s.toList).map (Piece.filled values)))

/-- A text with values in place, where a value has places for those that come later. -/
def nested (order : List (String × Json)) (s : String) : String :=
  String.ofList (textOf (expanded order (pieces s.toList)))

end Placeholder

namespace InMemory

open Placeholder

variable {code language : String} {t : Template} {values : Dict Json}
  {order : List (String × Json)}

theorem contentWith_eq (order : List (String × Json)) (t : Template) :
    contentWith order t = t.withTexts (oneByOne order) := rfl

/-! ## Orders -/

/-- The values of a template are settled in all its texts. -/
def SettledIn (t : Template) (values : Dict Json) : Prop :=
  ∀ s ∈ t.texts, Settled (completed t values).entries (pieces s.toList)

theorem contentWith_settled (settled : SettledIn t values)
    (h : order.Perm (completed t values).entries) :
    contentWith order t = t.withTexts (atOnce (completed t values).entries) := by
  rw [contentWith_eq]
  refine Template.withTexts_congr fun s hs => congrArg String.ofList ?_
  have filled := fillList_perm (completed t values).ascending.nodup (settled s hs) h
  rwa [textOf_pieces] at filled

theorem settledIn_of_tame (made : Made t) (names : ∀ e ∈ values.entries, Braceless e.1.toList)
    (tame : ∀ e ∈ values.entries, Tame (insertion e.2)) : SettledIn t values :=
  fun _ hs => settled_of_tame (completed t values).ascending.nodup (completed_names made names)
    (completed_insertions (tame_of_not_mem List.not_mem_nil) tame) (made.tame hs)

/-! ## Values without braces

No value can then form a placeholder, whatever stands around it, and the order is of no account.
-/

/-- No name and no value brings a brace. -/
def Clean (values : Dict Json) : Prop :=
  ∀ e ∈ values.entries, Braceless e.1.toList ∧ Braceless (insertion e.2)

instance (values : Dict Json) : Decidable (Clean values) :=
  List.decidableBAll _ values.entries

theorem Clean.names (clean : Clean values) : ∀ e ∈ values.entries, Braceless e.1.toList :=
  fun e mem => (clean e mem).1

theorem Clean.tame (clean : Clean values) : ∀ e ∈ values.entries, Tame (insertion e.2) :=
  fun e mem => Braceless.tame (clean e mem).2

/-- What comes of values without braces. -/
structure SubstitutionLaw (values : Dict Json) : Prop where
  /-- In a text of plain pieces they take their places as if all at once, in whatever order. -/
  fills : ∀ ps, (∀ p ∈ ps, p.Plain) →
    let template := String.ofList (textOf ps)
    let filled := String.ofList (textOf (ps.map (Piece.filled values.entries)))
    fill values template = filled ∧
      ∀ order, order.Perm values.entries → oneByOne order template = filled
  /-- With the required ones given every template is rendered, in whatever order, and no placeholder
  is left. -/
  renders : ∀ code language t, findTemplate code language = .ok t →
    (∀ v ∈ t.placeholders, v.required → values.contains v.name) →
    ∀ {R : Signature} {σ : Type} (server : Timed.Server R σ) (today : Flow (Timed R) DateTime)
      (ctx : Context) (w w' : Timed.World σ) (time : DateTime),
      ctx.check w.time = .ok () → Timed.run server today w = some (time, w') →
      ∃ r, Timed.run server (renderTemplate today ctx code language values) w =
          some (.ok r, w') ∧
        (∀ order, order.Perm (completed t values).entries → contentWith order t = r.content) ∧
        ∀ s ∈ r.content.texts, ∀ name, ¬ mark name <:+: s.toList

theorem oneByOne_clean (clean : Clean values) {ps : List Piece} (plain : ∀ p ∈ ps, p.Plain)
    (h : order.Perm values.entries) : oneByOne order (String.ofList (textOf ps)) =
      String.ofList (textOf (ps.map (Piece.filled values.entries))) := by
  have settled : Settled values.entries ps :=
    settled_of_tame values.ascending.nodup clean.names clean.tame fun p hp => (plain p hp).tame
  rw [oneByOne, String.toList_ofList, fillList_perm values.ascending.nodup settled h]

/-- A piece has no brace left once its value is in place. -/
theorem braceless_filled {entries : List (String × Json)} {names : List String} {p : Piece}
    (clean : ∀ e ∈ entries, Braceless (insertion e.2)) (among : p.Among names)
    (all : ∀ n ∈ names, ∃ v, entries.lookup n = some v) : Braceless (p.filled entries).text := by
  cases p with
  | literal s => exact among
  | hole n =>
    obtain ⟨v, found⟩ := all n among
    rw [Piece.filled, found]
    obtain ⟨before, after, rfl, -⟩ := List.lookup_eq_some_iff.1 found
    exact clean (n, v) (List.mem_append_right _ List.mem_cons_self)

/-- What they make of a template has no brace left. -/
theorem braceless_atOnce (made : Made t) (clean : Clean values)
    (given : ∀ v ∈ t.placeholders, v.required → values.contains v.name) {s : String}
    (hs : s ∈ t.texts) : Braceless (atOnce (completed t values).entries s).toList := by
  rw [atOnce, String.toList_ofList]
  intro c hc
  obtain ⟨p, hp, hc⟩ := List.mem_flatMap.1 hc
  obtain ⟨q, hq, rfl⟩ := List.mem_map.1 hp
  refine braceless_filled ?_ (made.texts s hs q hq) ?_ c hc
  · exact completed_insertions (List.forall_mem_nil _) fun e mem => (clean e mem).2
  · intro n hn
    obtain ⟨v, hv, rfl⟩ := List.mem_map.1 hn
    exact Option.isSome_iff_exists.1 (contains_completed given hv)

/-- **Placeholder substitution.** Values without braces are put in place as if all at once, whatever
the order, and leave no placeholder in a template that has what it requires. -/
theorem substitution_law (clean : Clean values) : SubstitutionLaw values := by
  constructor
  case fills =>
    intro ps plain
    exact ⟨oneByOne_clean clean plain (.refl _), fun order h => oneByOne_clean clean plain h⟩
  case renders =>
    intro code language t found given R σ server today ctx w w' time opened told
    obtain ⟨conduct, made⟩ := of_findTemplate found
    obtain ⟨r, rendered, content⟩ := rendering_given time found given
    have settled : SettledIn t values := settledIn_of_tame made clean.names clean.tame
    have verbatim : r.content = t.withTexts (atOnce (completed t values).entries) :=
      content.trans (contentWith_settled settled (.refl _))
    refine ⟨r, ?_, fun order h => (contentWith_settled settled h).trans verbatim.symm, ?_⟩
    · rw [run_renderTemplate conduct opened told, rendered]
    · intro s hs name within
      rw [verbatim, Template.texts_withTexts] at hs
      obtain ⟨u, hu, rfl⟩ := List.mem_map.1 hs
      have brace : '\x7b' ∈ mark name := List.mem_cons_self
      exact (braceless_atOnce made clean given hu _ (within.subset brace)).1 rfl

/-- A server that is never asked. -/
def idle : Timed.Server ⟨Empty, Empty.elim⟩ Unit where
  work _ r _ := nomatch r

theorem substitution_law_greeting :
    let values := Dict.ofList
      [("name", .string "John Doe"), ("count", .number (.integer 3)), ("gone", .null)]
    let ps : List Piece := [.literal "Hi ".toList, .hole "name", .literal ", ".toList,
      .hole "count", .literal " new".toList, .hole "gone"]
    Clean values ∧
      (∀ order, order.Perm values.entries →
        oneByOne order (String.ofList (textOf ps)) = "Hi John Doe, 3 new") ∧
      ∃ r, Timed.run idle
          (renderTemplate (pure default) .background "welcome_email" "en" values) ⟨0, ()⟩ =
            some (.ok r, ⟨0, ()⟩) ∧
        r.content.subject = some "Welcome, John Doe!" ∧
        ∀ s ∈ r.content.texts, ∀ name, ¬ mark name <:+: s.toList := by
  intro values ps
  have clean : Clean values := by decide +kernel
  have law := substitution_law clean
  refine ⟨clean, fun order h => ?_, ?_⟩
  · have plain : ∀ p ∈ ps, p.Plain := by decide +kernel
    rw [(law.fills ps plain).2 order h]
    decide +kernel
  · obtain ⟨r, ran, content, none⟩ := law.renders "welcome_email" "en" _ rfl (by decide +kernel)
      idle (pure default) .background ⟨0, ()⟩ ⟨0, ()⟩ default rfl rfl
    refine ⟨r, ran, ?_, none⟩
    rw [← content _ (.refl _)]
    decide +kernel

/-! ## Values with braces -/

/-- What the order of the values makes of a template that has become some content. -/
structure OrderLaw (t : Template) (values : Dict Json) (c : Content) : Prop where
  /-- They have been put in place in some order. -/
  ordered : ∃ order, order.Perm (completed t values).entries ∧ c = contentWith order t
  /-- If they are settled, every order makes the same, and each value stands there verbatim. -/
  settled : SettledIn t values →
    (∀ order, order.Perm (completed t values).entries → contentWith order t = c) ∧
      c = t.withTexts (atOnce (completed t values).entries)
  /-- With names without braces, values are settled if they keep apart in the end. -/
  apart : (∀ e ∈ values.entries, Braceless e.1.toList) →
    (∀ s ∈ t.texts, Apart (completed t values).entries (pieces s.toList)) → SettledIn t values
  /-- They do so if none has two opening braces in a row or ends with one. -/
  tame : (∀ e ∈ values.entries, Braceless e.1.toList) →
    (∀ e ∈ values.entries, Tame (insertion e.2)) → SettledIn t values
  /-- Where they have whole placeholders, later ones are put in place in what earlier ones
  brought. -/
  nests : (∀ e ∈ values.entries, Braceless e.1.toList) →
    (∀ e ∈ values.entries, Tidy (insertion e.2)) →
    ∀ order, order.Perm (completed t values).entries →
      contentWith order t = t.withTexts (nested order)

/-- Values that hold whole placeholders make of a template what their order says. -/
theorem contentWith_nested (made : Made t) (names : ∀ e ∈ values.entries, Braceless e.1.toList)
    (tidy : ∀ e ∈ values.entries, Tidy (insertion e.2))
    (h : order.Perm (completed t values).entries) :
    contentWith order t = t.withTexts (nested order) := by
  rw [contentWith_eq]
  refine Template.withTexts_congr fun s hs => congrArg String.ofList ?_
  have names : ∀ e ∈ order, Braceless e.1.toList :=
    fun e mem => completed_names made names e (h.mem_iff.1 mem)
  have tidy : ∀ e ∈ order, Tidy (insertion e.2) :=
    fun e mem => completed_insertions (List.forall_mem_nil _) tidy e (h.mem_iff.1 mem)
  have filled := fillList_expanded names tidy (made.tame hs)
  rwa [textOf_pieces] at filled

/-- **The order of the values shows in a rendering only where one brings the placeholder of
another.** -/
theorem rendering_orders {R : Signature} {σ : Type} {server : Timed.Server R σ}
    {today : Flow (Timed R) DateTime} {ctx : Context} {w w' : Timed.World σ} {r : Rendering}
    (ran : Timed.run server (renderTemplate today ctx code language values) w =
      some (.ok r, w')) :
    ∃ t, findTemplate code language = .ok t ∧ OrderLaw t values r.content := by
  obtain ⟨time, rendered⟩ := rendering_of_run ran
  obtain ⟨t, found, content⟩ := content_of_rendering rendered
  obtain ⟨-, made⟩ := of_findTemplate found
  refine ⟨t, found, ?_⟩
  constructor
  case ordered => exact ⟨_, .refl _, content⟩
  case settled =>
    intro settled
    have verbatim := content.trans (contentWith_settled settled (.refl _))
    exact ⟨fun order h => (contentWith_settled settled h).trans verbatim.symm, verbatim⟩
  case apart =>
    intro names apart s hs
    exact (apart s hs).settled (completed t values).ascending.nodup (completed_names made names)
      (named_pieces _)
  case tame => exact fun names tame => settledIn_of_tame made names tame
  case nests => exact fun names tidy order h => contentWith_nested made names tidy h

/-- A value with a placeholder of its own name, and another in braces that are none. -/
theorem rendering_orders_own :
    let values := Dict.ofList
      [("name", .string "\x7b\x7bname\x7d\x7d"), ("app_name", .string "\x7bX\x7d")]
    ∃ r, Timed.run idle
        (renderTemplate (pure default) .background "welcome_email" "en" values) ⟨0, ()⟩ =
          some (.ok r, ⟨0, ()⟩) ∧
      ∃ t, findTemplate "welcome_email" "en" = .ok t ∧
        (∀ order, order.Perm (completed t values).entries → contentWith order t = r.content) ∧
        r.content.body.text =
          "Welcome \x7b\x7bname\x7d\x7d!\n\nThank you for joining \x7bX\x7d." := by
  intro values
  obtain ⟨r, rendered, -⟩ : ∃ r, rendering "welcome_email" "en" values default = .ok r ∧
    r.content = contentOf _ values := rendering_given default rfl (by decide +kernel)
  have ran : Timed.run idle
      (renderTemplate (pure default) .background "welcome_email" "en" values) ⟨0, ()⟩ =
        some (.ok r, ⟨0, ()⟩) := by
    rw [run_renderTemplate (by decide +kernel) rfl rfl, rendered]
  obtain ⟨t, found, law⟩ := rendering_orders ran
  obtain rfl := Except.ok.inj found
  have settled := law.apart (by decide +kernel) (by decide +kernel)
  obtain ⟨agree, verbatim⟩ := law.settled settled
  refine ⟨r, ran, _, rfl, agree, ?_⟩
  rw [verbatim]
  decide +kernel

/-- The order shows where one value brings the placeholder of another. Where two bring each other's
no order leaves them as they are. -/
theorem content_by_order :
    let leaking := Dict.ofList
      [("name", .string "\x7b\x7bapp_name\x7d\x7d"), ("app_name", .string "X")]
    let filler := ", order #7 totalling "
    let name := "\x7b\x7bname\x7d\x7d"
    let total := "\x7b\x7border_total\x7d\x7d"
    let crossing := Dict.ofList [("order_id", .string "7"),
      ("name", .string (name ++ filler ++ total ++ filler ++ name)),
      ("order_total", .string (total ++ filler ++ name ++ filler ++ total))]
    (∃ t one two, findTemplate "welcome_email" "en" = .ok t ∧
      one.Perm (completed t leaking).entries ∧ two.Perm (completed t leaking).entries ∧
      contentWith one t ≠ contentWith two t) ∧
    ∃ t, findTemplate "order_confirmation" "en" = .ok t ∧
      ∀ order, order.Perm (completed t crossing).entries →
        contentWith order t ≠ t.withTexts (atOnce (completed t crossing).entries) := by
  intro leaking filler name total crossing
  constructor
  · refine ⟨_, leaking.entries, leaking.entries.reverse, rfl, ?_, ?_, ?_⟩
    · decide +kernel
    · decide +kernel
    · decide +kernel
  · refine ⟨_, rfl, fun order h same => ?_⟩
    have text : String.ofList _ = String.ofList _ := congrArg (fun c => c.body.text) same
    refine absurd (String.ofList_inj.1 text) ?_
    have listed := List.mem_permutations'.2 h
    clear h same text
    revert order
    decide +kernel

end InMemory

end Courier
