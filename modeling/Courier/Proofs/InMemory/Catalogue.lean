import Courier.InMemory.Templates
import Courier.Proofs.InMemory.Filling
import Courier.Proofs.Resilience.Schedule

/-!
# The catalogue

Every template of the catalogue is made of plain text and of the placeholders it lists (`Made`), and
the service answers for all of them. The values that are put in place are those given and nothing
where an optional one is missing, so that no placeholder goes without.
-/

set_option autoImplicit false

namespace Courier

/-- A template with something else in the place of each of its texts. -/
def Template.withTexts (t : Template) (f : String → String) : Content where
  subject := t.subject.map f
  body := ⟨t.body.html.map f, f t.body.text⟩

/-- The texts of a template. -/
def Template.texts (t : Template) : List String :=
  t.subject.toList ++ t.body.html.toList ++ [t.body.text]

/-- The texts of a content. -/
def Content.texts (c : Content) : List String :=
  c.subject.toList ++ c.body.html.toList ++ [c.body.text]

theorem Template.texts_withTexts (t : Template) (f : String → String) :
    (t.withTexts f).texts = t.texts.map f := by
  obtain ⟨_, _, _, _, subject, ⟨html, text⟩, _⟩ := t
  cases subject <;> cases html <;> rfl

theorem Template.withTexts_congr {t : Template} {f g : String → String}
    (h : ∀ s ∈ t.texts, f s = g s) : t.withTexts f = t.withTexts g := by
  obtain ⟨_, _, _, _, subject, ⟨html, text⟩, _⟩ := t
  cases subject <;> cases html <;> simp_all [texts, withTexts]

namespace Placeholder

/-- A piece of plain text, or the place of one of these names. -/
def Piece.Among (names : List String) : Piece → Prop
  | literal s => Braceless s
  | hole n => n ∈ names

instance (names : List String) : (p : Piece) → Decidable (p.Among names)
  | .literal s => inferInstanceAs (Decidable (Braceless s))
  | .hole n => inferInstanceAs (Decidable (n ∈ names))

end Placeholder

namespace InMemory

open Placeholder

variable {code language : String} {t : Template} {values : Dict Json} {n : String}

/-! ## The catalogue

Facts about the few entries there are, checked by evaluation. The later modules use `Made` only, so
an entry may be added as long as these still hold.
-/

/-- The texts of an entry. -/
def Entry.texts (e : Entry) : List String := [e.subject] ++ e.html.toList ++ [e.text]

theorem catalogue_answers : ∀ e ∈ catalogue, Conduct.of e.code = .answers := by
  decide +kernel

theorem catalogue_names : ∀ e ∈ catalogue, ∀ v ∈ e.placeholders, Braceless v.name.toList := by
  decide +kernel

theorem catalogue_made : ∀ e ∈ catalogue, ∀ s ∈ e.texts, ∀ p ∈ pieces s.toList,
    p.Among (e.placeholders.map (·.name)) := by
  decide +kernel

/-- How the templates are made: of plain text and the placeholders they list. -/
structure Made (t : Template) : Prop where
  names : ∀ v ∈ t.placeholders, Braceless v.name.toList
  texts : ∀ s ∈ t.texts, ∀ p ∈ pieces s.toList, p.Among (t.placeholders.map (·.name))

/-- A template that is found is one of these. -/
theorem of_findTemplate (found : findTemplate code language = .ok t) :
    Conduct.of code = .answers ∧ Made t := by
  unfold findTemplate at found
  cases hit : catalogue.find? fun e => e.code == code with
  | none =>
    rw [hit] at found
    cases found
  | some e =>
    rw [hit] at found
    obtain rfl := Except.ok.inj found
    have listed := List.mem_of_find?_eq_some hit
    obtain rfl : e.code = code := by simpa using List.find?_some hit
    exact ⟨catalogue_answers e listed, catalogue_names e listed, catalogue_made e listed⟩

theorem Made.plain (made : Made t) {s : String} (hs : s ∈ t.texts) :
    ∀ p ∈ pieces s.toList, p.Plain := by
  intro p hp
  have among := made.texts s hs p hp
  cases p with
  | literal s => exact among
  | hole n =>
    obtain ⟨v, hv, rfl⟩ := List.mem_map.1 among
    exact made.names v hv

theorem Made.tame (made : Made t) {s : String} (hs : s ∈ t.texts) :
    ∀ p ∈ pieces s.toList, p.Tame :=
  fun p hp => (made.plain hs p hp).tame

/-! ## The values for a template

The values given, completed by a null for each placeholder that has none.
-/

theorem mem_insertNulls {vs : List TemplateVariable} {d : Dict Json} {e : String × Json}
    (h : e ∈ (vs.foldl (fun d v => d.insertNew v.name .null) d).entries) :
    e ∈ d.entries ∨ ∃ v ∈ vs, e = (v.name, .null) := by
  induction vs generalizing d with
  | nil => exact .inl h
  | cons v vs ih =>
    rcases ih h with before | ⟨w, hw, rfl⟩
    · exact (Dict.mem_insertNew before).symm.imp id fun same => ⟨v, List.mem_cons_self, same⟩
    · exact .inr ⟨w, List.mem_cons_of_mem _ hw, rfl⟩

/-- After nulls were put in for placeholders, none of their names is missing, nor is any that was
there before. -/
theorem contains_insertNulls {vs : List TemplateVariable} {d : Dict Json}
    (h : (∃ v ∈ vs, v.name = n) ∨ d.contains n) :
    (vs.foldl (fun d v => d.insertNew v.name .null) d).contains n := by
  induction vs generalizing d with
  | nil =>
    rcases h with ⟨v, hv, -⟩ | present
    · exact absurd hv List.not_mem_nil
    · exact present
  | cons w vs ih =>
    refine ih ?_
    rcases h with ⟨v, hv, rfl⟩ | present
    · rcases List.mem_cons.1 hv with rfl | later
      · exact .inr (Dict.contains_insertNew (.inl rfl))
      · exact .inl ⟨v, later, rfl⟩
    · exact .inr (Dict.contains_insertNew (.inr present))

theorem mem_completed {e : String × Json} (h : e ∈ (completed t values).entries) :
    e ∈ values.entries ∨ ∃ v ∈ t.placeholders, e = (v.name, .null) :=
  (mem_insertNulls h).imp id fun ⟨v, hv, same⟩ => ⟨v, List.mem_of_mem_filter hv, same⟩

theorem contains_completed (given : ∀ v ∈ t.placeholders, v.required → values.contains v.name)
    {v : TemplateVariable} (hv : v ∈ t.placeholders) : (completed t values).contains v.name := by
  refine contains_insertNulls ?_
  cases needed : v.required with
  | true => exact .inr (given v hv needed)
  | false => exact .inl ⟨v, List.mem_filter.2 ⟨hv, by simp [needed]⟩, rfl⟩

theorem completed_names (made : Made t) (names : ∀ e ∈ values.entries, Braceless e.1.toList) :
    ∀ e ∈ (completed t values).entries, Braceless e.1.toList := by
  intro e mem
  rcases mem_completed mem with given | ⟨v, hv, rfl⟩
  · exact names e given
  · exact made.names v hv

/-- What holds of no text and of every given value holds of all that is put in place. -/
theorem completed_insertions {P : List Char → Prop} (none : P [])
    (given : ∀ e ∈ values.entries, P (insertion e.2)) :
    ∀ e ∈ (completed t values).entries, P (insertion e.2) := by
  intro e mem
  rcases mem_completed mem with own | ⟨v, -, rfl⟩
  · exact given e own
  · exact none

/-! ## The run -/

section

variable {R : Signature} {σ : Type} {server : Timed.Server R σ} {ctx : Context}
  {w w' : Timed.World σ} {today : Flow (Timed R) DateTime} {time : DateTime} {r : Rendering}

/-- The service in memory is reached at once, if it answers for the key. -/
theorem run_reach {service key : String} (conduct : Conduct.of key = .answers)
    (opened : ctx.check w.time = .ok ()) :
    Timed.run server (reach ctx service key) w = some (.ok (), w) := by
  have waited : Timed.run server (Timed.pause ctx (Conduct.of key).takes false) w =
      some (.ok (), w) := by
    rw [conduct]
    exact Timed.run_pause opened
  rw [reach, Timed.run_bind_of_run waited, conduct]
  rfl

/-- A template that can be rendered is, at the time that is told. -/
theorem run_renderTemplate (conduct : Conduct.of code = .answers)
    (opened : ctx.check w.time = .ok ()) (told : Timed.run server today w = some (time, w')) :
    Timed.run server (renderTemplate today ctx code language values) w =
      some (rendering code language values time, w') := by
  rw [renderTemplate, Timed.run_bind_of_run (run_reach conduct opened),
    Timed.run_bind_of_run told]
  rfl

/-- What is rendered is one of the renderings. -/
theorem rendering_of_run
    (ran : Timed.run server (renderTemplate today ctx code language values) w = some (.ok r, w')) :
    ∃ time, rendering code language values time = .ok r := by
  rw [renderTemplate] at ran
  obtain ⟨reached, w'', -, ran⟩ := Timed.exists_run_of_bind ran
  cases reached with
  | error e => cases ran
  | ok =>
    obtain ⟨time, _, -, told⟩ := Timed.exists_run_of_bind ran
    exact ⟨time, congrArg Prod.fst (Option.some.inj told)⟩

end

/-- A template is rendered if all required values are given. -/
theorem rendering_given (time : DateTime) (found : findTemplate code language = .ok t)
    (given : ∀ v ∈ t.placeholders, v.required → values.contains v.name) :
    ∃ r, rendering code language values time = .ok r ∧ r.content = contentOf t values := by
  have missing : (t.placeholders.find? fun v => v.required && !values.contains v.name) = none := by
    rw [List.find?_eq_none]
    intro v hv
    cases needed : v.required with
    | true => simp [given v hv needed]
    | false => simp
  let r : Rendering := {
    templateId := t.templateId
    language := language
    version := t.version.getD "latest"
    content := contentOf t values
    renderedAt := time
    variablesUsed := values.keys }
  refine ⟨r, ?_, rfl⟩
  rw [rendering, found]
  simp only [bind, Except.bind, missing]
  rfl

/-- What is rendered is the content that the values make of a template. -/
theorem content_of_rendering {time : DateTime} {r : Rendering}
    (rendered : rendering code language values time = .ok r) :
    ∃ t, findTemplate code language = .ok t ∧ r.content = contentOf t values := by
  rw [rendering] at rendered
  cases found : findTemplate code language with
  | error e =>
    rw [found] at rendered
    cases rendered
  | ok t =>
    rw [found] at rendered
    refine ⟨t, rfl, ?_⟩
    simp only [bind, Except.bind] at rendered
    split at rendered
    · cases rendered
    · obtain rfl := Except.ok.inj rendered
      rfl

end InMemory

end Courier
