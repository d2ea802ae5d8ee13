import Courier.Notification.Preferences

/-!
# What a user has agreed to

`Preferences.refusal?` and `Preferences.recipient` go through the rules one after the other and stop
at the first that is violated. Here the rules stand on their own: whether the user wants to be
notified (`Wants`), at which address a channel reaches the user (`Reaches`), which rule is in the
way (`Obstacle.Blocks`), and in which order a channel has its rules (`Channel.rules`). The two
functions decide them; nothing about a user that the rules do not mention plays a part.

The order of the rules is stated as data and not read off the functions, so that a rule that is
asked out of turn would show in `firstBlocked_of_recipient`.
-/

set_option autoImplicit false

namespace Courier

/-- What a channel asks of the preferences, in the order in which it is told. -/
def Channel.rules : Channel → List Obstacle
  | .email => [.emailDisabled, .emailUnverified, .noEmail]
  | .push => [.pushDisabled, .noDevice]

/-- The preferences violate the rule. -/
def Obstacle.Blocks (p : Preferences) : Obstacle → Prop
  | .emailDisabled => p.emailEnabled = false
  | .emailUnverified => p.emailVerified = false
  | .noEmail => ∀ address, p.email = some address → address = ""
  | .pushDisabled => p.pushEnabled = false
  | .noDevice => ∀ token ∈ p.deviceTokens, token = ""

namespace Preferences

variable {p : Preferences} {channel : Channel} {address : String} {obstacle : Obstacle}

/-- The user wants to be notified, and through this channel. -/
structure Wants (p : Preferences) (channel : Channel) : Prop where
  enabled : p.enabled = true
  optedIn : p.optedOut = false
  channelOptedIn : p.optedOutChannels.get? channel.name ≠ some true

/-- The channel reaches the user at this address: the one that is registered and verified, or the
first device that has a token. -/
inductive Reaches (p : Preferences) : Channel → String → Prop
  | email (address : String) (enabled : p.emailEnabled = true) (verified : p.emailVerified = true)
      (registered : p.email = some address) (nonempty : address ≠ "") : Reaches p .email address
  | push (before after : List String) (token : String) (enabled : p.pushEnabled = true)
      (devices : p.deviceTokens = before ++ token :: after) (empty : ∀ t ∈ before, t = "")
      (nonempty : token ≠ "") : Reaches p .push token

/-- The first rule of the channel that is violated. -/
def FirstBlocked (p : Preferences) (channel : Channel) (obstacle : Obstacle) : Prop :=
  ∃ before after, channel.rules = before ++ obstacle :: after ∧
    (∀ o ∈ before, ¬ o.Blocks p) ∧ obstacle.Blocks p

/-- The language the user is addressed in: the preferred one if there is one. -/
inductive Speaks (p : Preferences) (fallback : String) : String → Prop
  | preferred (language : String) (chosen : p.language = some language) (nonempty : language ≠ "") :
      Speaks p fallback language
  | fallback (unchosen : ∀ language, p.language = some language → language = "") :
      Speaks p fallback fallback

/-! ## Refusals

The check of the preferences as equivalences: when nothing is refused, and when which reason is
given.
-/

theorem isOptedOut_iff :
    p.isOptedOut channel = true ↔
      p.optedOut = true ∨ p.optedOutChannels.get? channel.name = some true := by
  unfold isOptedOut
  cases p.optedOutChannels.get? channel.name <;> simp

/-- Nothing is in the way exactly if the user wants to be notified through the channel. -/
theorem refusal?_eq_none_iff : p.refusal? channel = none ↔ p.Wants channel := by
  unfold refusal?
  constructor
  · intro h
    split at h
    · cases h
    · next enabled =>
      split at h
      · cases h
      · next optedIn =>
        rw [isOptedOut_iff, not_or] at optedIn
        exact ⟨by simpa using enabled, by simpa using optedIn.1, optedIn.2⟩
  · rintro ⟨enabled, optedIn, channelOptedIn⟩
    have out : ¬ p.isOptedOut channel = true := by
      rw [isOptedOut_iff, optedIn]
      simpa using channelOptedIn
    simp [enabled, out]

theorem refusal?_eq_disabled_iff : p.refusal? channel = some .disabled ↔ p.enabled = false := by
  unfold refusal?
  cases p.enabled
  · simp
  · cases p.isOptedOut channel <;> simp

/-- A user who has opted out is told so only if notifications are switched on. -/
theorem refusal?_eq_optedOut_iff :
    p.refusal? channel = some .optedOut ↔
      p.enabled = true ∧
        (p.optedOut = true ∨ p.optedOutChannels.get? channel.name = some true) := by
  unfold refusal?
  rw [← isOptedOut_iff]
  cases p.enabled
  · simp
  · cases p.isOptedOut channel <;> simp

/-! ## Recipients -/

theorem find?_token_iff {tokens : List String} {token : String} :
    tokens.find? (fun t => t ≠ "") = some token ↔
      token ≠ "" ∧ ∃ before after, tokens = before ++ token :: after ∧ ∀ t ∈ before, t = "" := by
  simp [List.find?_eq_some_iff_append]

/-- The recipient is the address at which the channel reaches the user, and there is none
otherwise. -/
theorem recipient_eq_ok_iff :
    p.recipient channel = .ok address ↔ p.Reaches channel address := by
  constructor
  · intro h
    cases channel with
    | email =>
      unfold recipient at h
      -- only one of the four combinations gets as far as the address
      cases enabled : p.emailEnabled <;> cases verified : p.emailVerified <;>
        simp only [enabled, verified] at h <;> try cases h
      cases registered : p.email with
      | none => simp [registered] at h
      | some found =>
        by_cases empty : found = ""
        · simp [registered, empty] at h
        · simp only [registered, empty, if_false] at h
          cases h
          exact .email address enabled verified registered empty
    | push =>
      unfold recipient at h
      cases enabled : p.pushEnabled with
      | false => simp [enabled] at h
      | true =>
        cases found : p.deviceTokens.find? (fun t => t ≠ "") with
        | none =>
          simp only [enabled, found] at h
          cases h
        | some token =>
          simp only [enabled, found] at h
          cases h
          obtain ⟨nonempty, before, after, devices, empty⟩ := find?_token_iff.1 found
          exact .push before after address enabled devices empty nonempty
  · intro h
    cases h with
    | email _ enabled verified registered nonempty =>
      simp [recipient, enabled, verified, registered, nonempty]
    | push before after _ enabled devices empty nonempty =>
      have found := find?_token_iff.2 ⟨nonempty, before, after, devices, empty⟩
      simp only [recipient, enabled, found]
      rfl

/-- What a channel tells is the first of its rules that is violated. -/
theorem firstBlocked_of_recipient (h : p.recipient channel = .error obstacle) :
    p.FirstBlocked channel obstacle := by
  cases channel with
  | email =>
    unfold recipient at h
    cases enabled : p.emailEnabled with
    | false =>
      simp only [enabled] at h
      cases h
      exact ⟨[], _, rfl, by simp, enabled⟩
    | true =>
      cases verified : p.emailVerified with
      | false =>
        simp only [enabled, verified] at h
        cases h
        exact ⟨[.emailDisabled], _, rfl, by simp [Obstacle.Blocks, enabled], verified⟩
      | true =>
        have missing : obstacle = .noEmail ∧ ∀ address, p.email = some address → address = "" := by
          cases registered : p.email with
          | none => simpa [enabled, verified, registered, eq_comm] using h
          | some found =>
            by_cases empty : found = ""
            · simpa [enabled, verified, registered, empty, eq_comm] using h
            · simp [enabled, verified, registered, empty] at h
        obtain ⟨rfl, blocks⟩ := missing
        exact ⟨[.emailDisabled, .emailUnverified], [], rfl,
          by simp [Obstacle.Blocks, enabled, verified], blocks⟩
  | push =>
    unfold recipient at h
    cases enabled : p.pushEnabled with
    | false =>
      simp only [enabled] at h
      cases h
      exact ⟨[], _, rfl, by simp, enabled⟩
    | true =>
      cases found : p.deviceTokens.find? (fun t => t ≠ "") with
      | some token =>
        simp only [enabled, found] at h
        cases h
      | none =>
        simp only [enabled, found] at h
        cases h
        refine ⟨[.pushDisabled], [], rfl, by simp [Obstacle.Blocks, enabled], ?_⟩
        intro token mem
        simpa using List.find?_eq_none.1 found token mem

/-- The language is the one the user has chosen, unless that is empty. -/
theorem languageOr_speaks (p : Preferences) (fallback : String) :
    p.Speaks fallback (p.languageOr fallback) := by
  unfold languageOr
  cases chosen : p.language with
  | none => exact .fallback (by simp [chosen])
  | some language =>
    by_cases empty : language = ""
    · subst empty
      exact .fallback (by simp [chosen])
    · simp only [Option.filter, decide_eq_true empty, if_true, Option.getD_some]
      exact .preferred language chosen empty

end Preferences

end Courier
