import Courier.Proofs.Config.Settings

/-!
# Variables have no order

Variables are taken one after the other and the first fault ends it, yet a configuration does not
tell in which order they came. What is accepted is said without one (`Config.Accepted`): no setting
is given twice and none that must be is left out, each has what its text reads as, and the rest what
they have by default. So the order of variables and the case of their names make no difference, and
a name of no setting makes none either (`Config.ofVariables_law`).

The order of variables is taken away in two steps: `Becomes` says of a list of settings what it
makes of a configuration, and every part of that is about members of the list. The induction is over
the list, once, in `readVariables_ok_iff`.
-/

set_option autoImplicit false

namespace Courier

namespace Config

open Setting (all)

/-! ## What variables are accepted

An acceptance without the order: what each setting becomes, that none is given twice, that all
required ones are there and that they fit together.
-/

/-- The setting that a name is of. -/
def setting? (name : String) : Option Setting := all.find? fun s => s.name == lowerName name

/-- The variables that are of settings. -/
def known (vars : List Variable) : List (Setting × String) :=
  vars.filterMap fun v => (setting? v.1).map fun s => (s, v.2)

/-- The settings that are given. -/
def given (pairs : List (Setting × String)) : List String := pairs.map (·.1.name)

variable {seen seen' : List String} {c c' : Config} {vars others : List Variable}
  {pairs : List (Setting × String)}

section

variable {v : Variable} {s : Setting}

theorem mem_of_setting (h : setting? v.1 = some s) : s ∈ all := List.mem_of_find?_eq_some h

theorem known_cons_of_none (h : setting? v.1 = none) : known (v :: vars) = known vars :=
  List.filterMap_cons_none (by rw [h]; rfl)

theorem known_cons_of_some (h : setting? v.1 = some s) :
    known (v :: vars) = (s, v.2) :: known vars :=
  List.filterMap_cons_some (by rw [h]; rfl)

theorem known_append (vars others : List Variable) :
    known (vars ++ others) = known vars ++ known others := List.filterMap_append

end

/-- Settings that were not given before become, by the texts that come with them, what they are
in another configuration. -/
structure Becomes (pairs : List (Setting × String)) (seen : List String) (c c' : Config) :
    Prop where
  once : (given pairs).Nodup
  fresh : ∀ name ∈ given pairs, name ∉ seen
  read : ∀ p ∈ pairs, p.1.read p.2 = .ok (p.1.of c')
  kept : ∀ s ∈ all, s.name ∉ given pairs → s.of c' = s.of c

theorem becomes_nil_iff : Becomes [] seen c c' ↔ c = c' := by
  constructor
  · intro h
    exact (Setting.ext_of fun s hs => h.kept s hs List.not_mem_nil).symm
  · rintro rfl
    exact ⟨.nil, nofun, nofun, fun _ _ _ => rfl⟩

/-- One setting more makes of a configuration what it is set to, before the others. It sits in a
place of its own (`Setting.of_set`), so that what the others make is not touched by it. -/
theorem becomes_cons_iff {s : Setting} {text : String} (hs : s ∈ all) :
    Becomes ((s, text) :: pairs) seen c c' ↔
      s.name ∉ seen ∧ ∃ c₁, s.set text c = .ok c₁ ∧ Becomes pairs (s.name :: seen) c₁ c' := by
  constructor
  · rintro ⟨once, fresh, read, kept⟩
    obtain ⟨new, once⟩ := List.nodup_cons.1 once
    obtain ⟨here, read⟩ := List.forall_mem_cons.1 read
    obtain ⟨first, fresh⟩ := List.forall_mem_cons.1 fresh
    obtain ⟨c₁, set⟩ := Setting.exists_set hs here c
    obtain ⟨same, others⟩ := Setting.of_set hs set
    refine ⟨first, c₁, set, once, fun name mem => ?_, read, fun t ht absent => ?_⟩
    · rw [List.mem_cons, not_or]
      refine ⟨?_, fresh name mem⟩
      rintro rfl
      exact new mem
    -- a setting is known by its name
    · by_cases own : t.name = s.name
      · obtain rfl := List.inj_on_of_nodup_map Setting.names_nodup ht hs own
        exact Except.ok.inj (here.symm.trans same)
      · rw [others t ht own]
        exact kept t ht fun mem => (List.mem_cons.1 mem).elim own absent
  · rintro ⟨first, c₁, set, once, fresh, read, kept⟩
    obtain ⟨same, others⟩ := Setting.of_set hs set
    have new : s.name ∉ given pairs := fun mem => fresh _ mem List.mem_cons_self
    constructor
    case once => exact List.nodup_cons.2 ⟨new, once⟩
    case fresh =>
      exact List.forall_mem_cons.2
        ⟨first, fun name mem seen => fresh name mem (List.mem_cons_of_mem _ seen)⟩
    case read => exact List.forall_mem_cons.2 ⟨by rw [kept s hs new]; exact same, read⟩
    case kept =>
      intro t ht absent
      obtain ⟨other, absent⟩ := not_or.1 (mt List.mem_cons.2 absent)
      rw [kept t ht absent, others t ht other]

/-- Variables are read if they make something of the configuration. -/
theorem readVariables_ok_iff : readVariables seen c vars = .ok (seen', c') ↔
    Becomes (known vars) seen c c' ∧ seen' = (given (known vars)).reverse ++ seen := by
  -- by induction on the variables that are to be read; `seen` are the settings given before
  induction vars generalizing seen c with
  | nil =>
    rw [readVariables, Except.ok.injEq, Prod.mk.injEq, and_comm, eq_comm (a := seen)]
    exact and_congr_left fun _ => becomes_nil_iff.symm
  | cons v vars ih =>
    obtain ⟨name, text⟩ := v
    rw [readVariables]
    cases hs : setting? name with
    | none =>
      rw [known_cons_of_none (v := (name, text)) hs]
      rw [setting?] at hs
      rw [hs]
      exact ih
    | some s =>
      rw [known_cons_of_some (v := (name, text)) hs,
        becomes_cons_iff (mem_of_setting (v := (name, text)) hs)]
      rw [setting?] at hs
      rw [hs]
      dsimp only
      -- a setting that was given before ends the reading
      by_cases old : s.name ∈ seen
      · rw [if_pos (List.contains_iff_mem.2 old)]
        exact iff_of_false nofun fun h => h.1.1 old
      · rw [if_neg (mt List.contains_iff_mem.1 old)]
        have names : (given ((s, text) :: known vars)).reverse ++ seen =
            (given (known vars)).reverse ++ s.name :: seen := by
          simp [given]
        rw [names]
        cases set : s.set text c with
        | error reason =>
          exact iff_of_false nofun fun ⟨⟨_, c₁, done, _⟩, _⟩ => nomatch done
        | ok c₁ =>
          dsimp only
          rw [ih]
          constructor
          · exact fun ⟨becomes, all⟩ => ⟨⟨old, c₁, rfl, becomes⟩, all⟩
          · rintro ⟨⟨-, _, ⟨⟩, becomes⟩, all⟩
            exact ⟨becomes, all⟩

/-- What is given of settings makes a configuration. -/
structure Accepted (pairs : List (Setting × String)) (c : Config) : Prop where
  once : (given pairs).Nodup
  complete : ∀ s ∈ all, s.required = true → s.name ∈ given pairs
  read : ∀ p ∈ pairs, p.1.read p.2 = .ok (p.1.of c)
  default : ∀ s ∈ all, s.name ∉ given pairs → s.of c = s.of {}
  fits : c.validate = .ok ()

theorem accepted_iff : Accepted pairs c ↔ Becomes pairs [] {} c ∧
    (∀ s ∈ all, s.required = true → s.name ∈ given pairs) ∧ c.validate = .ok () :=
  ⟨fun h => ⟨⟨h.once, fun _ _ => List.not_mem_nil, h.read, h.default⟩, h.complete, h.fits⟩,
    fun ⟨h, complete, fits⟩ => ⟨h.once, complete, h.read, h.kept, fits⟩⟩

/-- What has been read is accepted if nothing is missing and all of it fits together. -/
theorem ofVariables_of_read (h : readVariables [] {} vars = .ok (seen, c)) :
    ofVariables vars = .ok c' ↔
      c = c' ∧ (∀ s ∈ all, s.required = true → s.name ∈ seen) ∧ c.validate = .ok () := by
  -- what happens after the reading depends on the names seen and the settings read only
  have rest : ofVariables vars =
      (all.find? fun s => s.required && !seen.contains s.name).elim (c.validate.map fun _ => c)
        fun s => .error (.missing s.name) := by
    rw [ofVariables, h]
    show Except.bind _ _ = _
    simp only [Except.bind]
    cases all.find? fun s => s.required && !seen.contains s.name with
    | none => cases c.validate <;> rfl
    | some s => rfl
  rw [rest]
  cases found : all.find? fun s => s.required && !seen.contains s.name with
  | some s =>
    have missing := List.find?_some
      (p := fun s : Setting => s.required && !seen.contains s.name) found
    simp only [Bool.and_eq_true, Bool.not_eq_true', List.contains_eq_mem,
      decide_eq_false_iff_not] at missing
    refine iff_of_false nofun ?_
    rintro ⟨-, complete, -⟩
    exact missing.2 (complete s (List.mem_of_find?_eq_some found) missing.1)
  | none =>
    have complete : ∀ s ∈ all, s.required = true → s.name ∈ seen := by
      intro s hs required
      simpa [required] using List.find?_eq_none.1 found s hs
    cases fits : c.validate with
    | error e =>
      refine iff_of_false nofun ?_
      rintro ⟨-, -, ⟨⟩⟩
    | ok =>
      constructor
      · rintro ⟨⟩
        exact ⟨rfl, complete, rfl⟩
      · rintro ⟨rfl, -⟩
        rfl

/-- **What a configuration is read from**, in terms that know of no order. -/
theorem ofVariables_ok_iff : ofVariables vars = .ok c ↔ Accepted (known vars) c := by
  rw [accepted_iff]
  cases hr : readVariables [] {} vars with
  | error e =>
    have nothing : ofVariables vars = .error e := by rw [ofVariables, hr]; rfl
    rw [nothing]
    refine iff_of_false nofun fun ⟨becomes, _⟩ => ?_
    cases hr.symm.trans (readVariables_ok_iff.2 ⟨becomes, rfl⟩)
  | ok found =>
    obtain ⟨seen, c₁⟩ := found
    rw [ofVariables_of_read hr]
    obtain ⟨becomes, names⟩ := readVariables_ok_iff.1 hr
    have mem (name : String) : name ∈ seen ↔ name ∈ given (known vars) := by simp [names]
    simp only [mem]
    constructor
    · rintro ⟨rfl, complete, fits⟩
      exact ⟨becomes, complete, fits⟩
    · rintro ⟨becomes', complete, fits⟩
      have same := hr.symm.trans (readVariables_ok_iff.2 ⟨becomes', names⟩)
      obtain rfl := (Prod.mk.inj (Except.ok.inj same)).2
      exact ⟨rfl, complete, fits⟩

/-! ## Order, case and names of no setting

The acceptance above does not mention the order, nor the spelling, nor other variables. So the
reading does not depend on them.
-/

/-- Nothing that makes a list of settings acceptable is about their order. -/
theorem Accepted.perm {more : List (Setting × String)} (h : pairs.Perm more)
    (accepted : Accepted pairs c) : Accepted more c := by
  have names : (given pairs).Perm (given more) := h.map _
  constructor
  case once => exact names.nodup_iff.1 accepted.once
  case complete => exact fun s hs required => names.mem_iff.1 (accepted.complete s hs required)
  case read => exact fun p mem => accepted.read p (h.mem_iff.2 mem)
  case default =>
    exact fun s hs absent => accepted.default s hs fun mem => absent (names.mem_iff.1 mem)
  case fits => exact accepted.fits

/-- A variable whose name has other letters in capitals. Letters that no setting has may change in
any way. -/
structure Recased (v w : Variable) : Prop where
  name : lowerName v.1 = lowerName w.1 ∨ setting? v.1 = none ∧ setting? w.1 = none
  value : v.2 = w.2

theorem Recased.setting {v w : Variable} (h : Recased v w) : setting? v.1 = setting? w.1 := by
  rcases h.name with same | ⟨hv, hw⟩
  · rw [setting?, setting?, same]
  · rw [hv, hw]

theorem known_of_recased (h : List.Forall₂ Recased vars others) : known vars = known others := by
  induction h with
  | nil => rfl
  | @cons v w vars others first rest ih =>
    cases hv : setting? v.1 with
    | none => rw [known_cons_of_none hv, known_cons_of_none (first.setting ▸ hv), ih]
    | some s =>
      rw [known_cons_of_some hv, known_cons_of_some (first.setting ▸ hv), ih, first.value]

/-- The same variables in another order and case. -/
def Rearranged (vars others : List Variable) : Prop :=
  ∃ between, vars.Perm between ∧ List.Forall₂ Recased between others

/-- A configuration is accepted or not whatever the order of the variables and the case of their
names. -/
theorem ofVariables_rearranged (h : Rearranged vars others) :
    ofVariables vars = .ok c ↔ ofVariables others = .ok c := by
  obtain ⟨between, perm, recased⟩ := h
  have pairs : (known vars).Perm (known others) := by
    rw [← known_of_recased recased]
    exact perm.filterMap _
  rw [ofVariables_ok_iff, ofVariables_ok_iff]
  exact ⟨.perm pairs, .perm pairs.symm⟩

/-- The name is that of a setting. -/
def ofSetting (v : Variable) : Bool := (setting? v.1).isSome

/-- Names of no setting are passed over, even where something else is at fault. -/
theorem readVariables_filter (vars : List Variable) (seen : List String) (c : Config) :
    readVariables seen c (vars.filter ofSetting) = readVariables seen c vars := by
  induction vars generalizing seen c with
  | nil => rfl
  | cons v vars ih =>
    obtain ⟨name, text⟩ := v
    cases hs : setting? name with
    | none =>
      rw [List.filter_cons_of_neg (by simp [ofSetting, hs]), ih]
      rw [setting?] at hs
      rw [readVariables, hs]
    | some s =>
      rw [List.filter_cons_of_pos (by simp [ofSetting, hs]), readVariables, readVariables]
      simp only [ih]

theorem ofVariables_filter (vars : List Variable) :
    ofVariables (vars.filter ofSetting) = ofVariables vars := by
  rw [ofVariables, ofVariables, readVariables_filter]

/-- A setting that is given twice is accepted under no condition. -/
theorem ofVariables_twice {before between after : List Variable} {v w : Variable} {s : Setting}
    (hv : setting? v.1 = some s) (hw : setting? w.1 = some s) :
    ofVariables (before ++ v :: between ++ w :: after) ≠ .ok c := by
  intro accepted
  have once := (ofVariables_ok_iff.1 accepted).once
  have both : known (before ++ v :: between ++ w :: after) =
      known before ++ (s, v.2) :: known between ++ (s, w.2) :: known after := by
    simp only [known_append, known_cons_of_some hv, known_cons_of_some hw]
  rw [both, given, List.map_append, List.nodup_append] at once
  exact once.2.2 s.name (by simp) s.name (by simp) rfl

/-- Two readings accept the same configuration or none, and what is derived of it is the same. -/
structure Agree (a b : Except ConfigFault Config) : Prop where
  accept : ∀ c, a = .ok c ↔ b = .ok c
  derive : ∀ c c', a = .ok c → b = .ok c' →
    c.retryPolicy = c'.retryPolicy ∧ c.publishPolicy = c'.publishPolicy ∧
      c.breakerConfig = c'.breakerConfig ∧ c.pipelineSettings = c'.pipelineSettings

/-- **Variables have no order**, and names no case. Those of no setting do not matter at all, and
what is given twice is rejected, wherever it stands. -/
theorem ofVariables_law (vars : List Variable) :
    (∀ others, Rearranged vars others → Agree (ofVariables vars) (ofVariables others)) ∧
    (∀ others, vars.filter ofSetting = others.filter ofSetting →
      ofVariables vars = ofVariables others) ∧
    ∀ before v between w after s, vars = before ++ v :: between ++ w :: after →
      setting? v.1 = some s → setting? w.1 = some s → ∃ fault, ofVariables vars = .error fault := by
  refine ⟨fun others h => ?_, fun others h => ?_, ?_⟩
  · have same (c : Config) : ofVariables vars = .ok c ↔ ofVariables others = .ok c :=
      ofVariables_rearranged h
    refine ⟨same, fun c c' here there => ?_⟩
    obtain rfl := Except.ok.inj (((same c).1 here).symm.trans there)
    exact ⟨rfl, rfl, rfl, rfl⟩
  · rw [← ofVariables_filter vars, h, ofVariables_filter]
  · rintro before v between w after s rfl hv hw
    cases h : ofVariables (before ++ v :: between ++ w :: after) with
    | error fault => exact ⟨fault, rfl⟩
    | ok c => exact absurd h (ofVariables_twice hv hw)

/-- The order is turned round, the names have other capitals, and one of no setting has changed
altogether. The settings come out as they did; but a timeout that is given in two spellings is
rejected. -/
theorem ofVariables_law_recased :
    let vars : List Variable := [("REDIS_URL", "redis://cache"), ("DATABASE_URL", "postgres://db"),
      ("RABBITMQ_URL", "amqp://broker"), ("USE_MOCK_SERVICES", "true"), ("EDITOR", "ed"),
      ("REQUEST_TIMEOUT_MS", "1500")]
    let others : List Variable := [("request_timeout_ms", "1500"), ("Pager", "ed"),
      ("use_mock_services", "true"), ("RabbitMQ_URL", "amqp://broker"),
      ("database_url", "postgres://db"), ("Redis_Url", "redis://cache")]
    Rearranged vars others ∧
      (∃ c, ofVariables vars = .ok c ∧ ofVariables others = .ok c ∧
        c.pipelineSettings.requestTimeout = 1500) ∧
      ofVariables (vars.filter ofSetting) = ofVariables vars ∧
      ∃ fault, ofVariables (("Request_Timeout_Ms", "1500") :: vars) = .error fault := by
  intro vars others
  have rearranged : Rearranged vars others := by
    refine ⟨vars.reverse, (List.reverse_perm vars).symm, ?_⟩
    have same {name name' value : String} (h : lowerName name = lowerName name') :
        Recased (name, value) (name', value) := ⟨.inl h, rfl⟩
    have unknown : Recased ("EDITOR", "ed") ("Pager", "ed") :=
      ⟨.inr ⟨by decide +kernel, by decide +kernel⟩, rfl⟩
    exact .cons (same (by decide +kernel)) <| .cons unknown <|
      .cons (same (by decide +kernel)) <| .cons (same (by decide +kernel)) <|
      .cons (same (by decide +kernel)) <| .cons (same (by decide +kernel)) .nil
  have law := ofVariables_law vars
  have accepted : ofVariables vars =
      .ok { redisUrl := "redis://cache", databaseUrl := "postgres://db",
            rabbitmqUrl := "amqp://broker", useMockServices := true, requestTimeoutMs := 1500 } :=
    rfl
  refine ⟨rearranged, ⟨_, accepted, ((law.1 others rearranged).accept _).1 accepted, rfl⟩, ?_, ?_⟩
  · exact (ofVariables_law _).2.1 vars (by simp)
  · exact (ofVariables_law _).2.2 [] ("Request_Timeout_Ms", "1500") vars.dropLast
      ("REQUEST_TIMEOUT_MS", "1500") [] _ rfl rfl rfl

end Config

end Courier
