import Courier.Config.Variables
import Mathlib.Data.List.Nodup

/-!
# Settings and their places

Every setting has a place of its own in a configuration (`Setting.all_sits`). To set it changes what
is there and nothing else (`Setting.of_set`), and whether that can be done hangs on the text alone
(`Setting.exists_set`). A configuration is what all settings have in it (`Setting.ext_of`), so
nothing else need be known of how one is built.

That every setting has its own place is one statement about the list of all settings, proved for
each by the lemma of its kind. All that is said of single settings afterwards is said by their
places.
-/

set_option autoImplicit false

namespace Courier

/-- What a setting can have. -/
inductive SettingValue where
  | text (s : String)
  | nat16 (n : UInt16)
  | nat32 (n : UInt32)
  | nat64 (n : UInt64)
  | flag (b : Bool)
  | double (x : Binary64)

namespace Config

/-- All that is in a configuration, in the order of the settings. -/
def values (c : Config) : List SettingValue := [
  .nat16 c.serverPort,
  .text c.redisUrl,
  .nat64 c.idempotencyTtlSeconds,
  .text c.databaseUrl,
  .text c.rabbitmqUrl,
  .text c.exchangeName,
  .text c.emailQueueName,
  .text c.pushQueueName,
  .text c.dlqName,
  .nat64 c.queueMessageTtlMs,
  .nat64 c.dlqMessageTtlMs,
  .nat32 c.publishMaxAttempts,
  .text c.userServiceUrl,
  .text c.templateServiceUrl,
  .nat64 c.httpTimeoutMs,
  .flag c.useMockServices,
  .nat32 c.circuitBreakerMaxFailures,
  .nat64 c.circuitBreakerTimeoutSeconds,
  .nat32 c.circuitBreakerHalfOpenMax,
  .nat32 c.maxRetryAttempts,
  .nat64 c.initialRetryDelayMs,
  .nat64 c.maxRetryDelayMs,
  .double c.retryBackoffMultiplier,
  .flag c.retryJitter,
  .nat64 c.requestTimeoutMs,
  .nat64 c.compensationTimeoutMs,
  .text c.defaultLanguage,
  .flag c.trackLastNotification,
  .nat64 c.healthCheckTimeoutMs]

/-- A configuration is made of nothing but these. -/
theorem values_injective {c c' : Config} (h : c.values = c'.values) : c = c' := by
  cases c
  cases c'
  simp only [values, List.cons.injEq, SettingValue.text.injEq, SettingValue.nat16.injEq,
    SettingValue.nat32.injEq, SettingValue.nat64.injEq, SettingValue.flag.injEq,
    SettingValue.double.injEq, and_true] at h
  simp only [Config.mk.injEq]
  exact h

end Config

namespace Setting

open Config (values)

/-- The setting is read without regard to what is set already, and touches its own place only. -/
def Sits (s : Setting) (i : Nat) : Prop :=
  ∃ read : String → Except String SettingValue, ∀ text c,
    (s.set text c).map values = (read text).map fun x => (values c).set i x

variable {α : Type} {name : String} {i : Nat}

theorem ofReader_sits {read : String → Except String α} {put : α → Config → Config}
    (value : α → SettingValue) (h : ∀ x c, (put x c).values = c.values.set i (value x)) :
    (ofReader name read put).Sits i := by
  refine ⟨fun text => (read text).map value, fun text c => ?_⟩
  cases hr : read text with
  | error e => simp only [ofReader, hr, Except.map]
  | ok x => simp only [ofReader, hr, Except.map, h]

theorem text_sits {put : String → Config → Config}
    (h : ∀ x c, (put x c).values = c.values.set i (.text x)) : (text name put).Sits i :=
  ofReader_sits .text h

theorem requiredText_sits {put : String → Config → Config}
    (h : ∀ x c, (put x c).values = c.values.set i (.text x)) : (requiredText name put).Sits i :=
  (text_sits h : (text name put).Sits i)

theorem nat16_sits {put : UInt16 → Config → Config}
    (h : ∀ x c, (put x c).values = c.values.set i (.nat16 x)) : (nat16 name put).Sits i :=
  ofReader_sits (fun n => .nat16 (.ofNat n)) fun n => h (.ofNat n)

theorem nat32_sits {put : UInt32 → Config → Config}
    (h : ∀ x c, (put x c).values = c.values.set i (.nat32 x)) : (nat32 name put).Sits i :=
  ofReader_sits (fun n => .nat32 (.ofNat n)) fun n => h (.ofNat n)

theorem nat64_sits {put : UInt64 → Config → Config}
    (h : ∀ x c, (put x c).values = c.values.set i (.nat64 x)) : (nat64 name put).Sits i :=
  ofReader_sits (fun n => .nat64 (.ofNat n)) fun n => h (.ofNat n)

theorem double_sits {put : Binary64 → Config → Config}
    (h : ∀ x c, (put x c).values = c.values.set i (.double x)) : (double name put).Sits i :=
  ofReader_sits .double h

theorem flag_sits {put : Bool → Config → Config}
    (h : ∀ x c, (put x c).values = c.values.set i (.flag x)) : (flag name put).Sits i :=
  ofReader_sits .flag h

/-- Every setting sits where it stands in the list. -/
theorem all_sits : ∀ p ∈ all.zipIdx, p.1.Sits p.2 := by
  simp only [all, List.zipIdx_cons, List.zipIdx_nil, List.forall_mem_cons, Nat.reduceAdd]
  and_intros
  all_goals first
    | exact text_sits fun _ _ => rfl
    | exact requiredText_sits fun _ _ => rfl
    | exact nat16_sits fun _ _ => rfl
    | exact nat32_sits fun _ _ => rfl
    | exact nat64_sits fun _ _ => rfl
    | exact double_sits fun _ _ => rfl
    | exact flag_sits fun _ _ => rfl
    | exact nofun

/-! ## Places

Two settings of different names sit at different places of the configuration, so that setting one
leaves the others.
-/

/-- The place of a setting. -/
def place (s : Setting) : Nat := (all.map (·.name)).idxOf s.name

/-- What a setting has in a configuration. -/
def of (s : Setting) (c : Config) : Option SettingValue := (values c)[s.place]?

/-- A text as a setting reads it. -/
def read (s : Setting) (text : String) : Except String (Option SettingValue) :=
  (s.set text {}).map s.of

theorem names_nodup : (all.map (·.name)).Nodup := by decide

variable {s t : Setting} {c c' : Config} {text : String}

theorem place_all {i : Nat} (hi : i < all.length) : all[i].place = i := by
  have found := names_nodup.idxOf_getElem i (by simpa using hi)
  rwa [List.getElem_map] at found

theorem sits (hs : s ∈ all) : s.place < all.length ∧ s.Sits s.place := by
  obtain ⟨i, hi, rfl⟩ := List.getElem_of_mem hs
  rw [place_all hi]
  exact ⟨hi, all_sits (all[i], i) (by simp [List.mem_zipIdx_iff_getElem?])⟩

theorem place_ne (hs : s ∈ all) (h : t.name ≠ s.name) : s.place ≠ t.place := fun same =>
  h ((List.idxOf_inj (List.mem_map_of_mem hs)).1 same).symm

/-- A configuration is what all settings have in it. -/
theorem ext_of (h : ∀ s ∈ all, s.of c = s.of c') : c = c' := by
  refine Config.values_injective (List.ext_getElem? fun i => ?_)
  by_cases hi : i < all.length
  · have same := h all[i] (List.getElem_mem hi)
    rwa [of, of, place_all hi] at same
  · have past (c : Config) : c.values.length ≤ i := Nat.le_of_not_lt hi
    rw [List.getElem?_eq_none (past c), List.getElem?_eq_none (past c')]

section

variable {i : Nat} {reads : String → Except String SettingValue} {x : SettingValue}
  (sets : ∀ text c, (s.set text c).map values = (reads text).map fun x => (values c).set i x)

include sets

/-- What was set is what the text reads as. The configuration it was set in plays no part in
that. -/
theorem reads_of_set (h : s.set text c = .ok c') :
    ∃ x, reads text = .ok x ∧ values c' = (values c).set i x := by
  have here := sets text c
  rw [h] at here
  cases hr : reads text with
  | error e =>
    rw [hr] at here
    cases here
  | ok x =>
    rw [hr] at here
    exact ⟨x, rfl, Except.ok.inj here⟩

/-- What is read of a text can be set in any configuration. -/
theorem set_of_reads (h : reads text = .ok x) (c : Config) :
    ∃ c', s.set text c = .ok c' ∧ values c' = (values c).set i x := by
  have here := sets text c
  rw [h] at here
  cases hc : s.set text c with
  | error e =>
    rw [hc] at here
    cases here
  | ok c' =>
    rw [hc] at here
    exact ⟨c', rfl, Except.ok.inj here⟩

end

/-- What a setting has after it was set is what the text reads as. All others have what they had. -/
theorem of_set (hs : s ∈ all) (h : s.set text c = .ok c') :
    s.read text = .ok (s.of c') ∧ ∀ t ∈ all, t.name ≠ s.name → t.of c' = t.of c := by
  obtain ⟨inside, reads, sets⟩ := sits hs
  have hi (c : Config) : s.place < c.values.length := inside
  obtain ⟨x, hr, now⟩ := reads_of_set sets h
  obtain ⟨c₀, alone, first⟩ := set_of_reads sets hr {}
  constructor
  · rw [read, alone, of, now, List.getElem?_set_self (hi c)]
    show Except.ok (s.of c₀) = _
    rw [of, first, List.getElem?_set_self (hi {})]
  · intro t ht other
    rw [of, of, now, List.getElem?_set_ne (place_ne hs other)]

/-- Whether a text can be read does not hang on what is set already. -/
theorem exists_set (hs : s ∈ all) {x : Option SettingValue} (h : s.read text = .ok x)
    (c : Config) : ∃ c', s.set text c = .ok c' := by
  obtain ⟨-, reads, sets⟩ := sits hs
  cases alone : s.set text {} with
  | error e =>
    rw [read, alone] at h
    cases h
  | ok c₀ =>
    obtain ⟨y, hr, -⟩ := reads_of_set sets alone
    obtain ⟨c', done, -⟩ := set_of_reads sets hr c
    exact ⟨c', done⟩

end Setting

end Courier
