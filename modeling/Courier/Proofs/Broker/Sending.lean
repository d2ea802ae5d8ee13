import Courier.Broker.Publisher
import Courier.Proofs.Flow.Rules
import Courier.Proofs.Notification.Letters

/-!
# Sending until it is confirmed

A message is sent copy by copy to a broker that takes it, refuses it or fails, each time after a
time of its own. The copies whose word came in time and was no success are `Vain`; they only grow,
one with each attempt, and `Settled` says what may come behind them. `SendLaw` is what a sender and
a worker can rely on.

The invariant of the loop is `Vain`. It holds before the first attempt, when nothing has been sent,
and an attempt either keeps it or settles the matter in one of the four ways of `Settled`.
-/

set_option autoImplicit false

namespace Courier.Broker

open Timed (Ends World)

/-- A broker whose words on the copies of a message are written down beforehand, with the time after
which each of them comes. -/
structure Scripted where
  word : Nat → Except String Confirmation
  takes : Nat → Nat
  /-- How long a jittered wait takes. -/
  stretch : Nat → Nat := id

/-- The state is what has been sent, and when, the latest first. -/
def Scripted.server (s : Scripted) : Timed.Server Wire (List (Nat × Message)) where
  work now
    | .dial _, sent => .immediate (.ok ()) sent
    | .declare _, sent => .immediate (.ok ()) sent
    | .isOpen, sent => .immediate true sent
    | .publish m, sent =>
      ⟨(now, m) :: sent, some (s.takes sent.length), (s.word sent.length, (now, m) :: sent)⟩
  stretch := s.stretch

section

variable {s : Scripted} {ctx : Context} {m : Message}
  {w : World (List (Nat × Message))} {sent : List (Nat × Message)}

/-- Without a success there is a failure after which a message may be sent again. -/
theorem confirmed_of_not_taken (key : String) {word : Except String Confirmation}
    (h : word ≠ .ok .taken) :
    ∃ e, confirmed key word = .error e ∧ e.isRetryable = true ∧ ∀ why, e ≠ .interrupted why := by
  match word, h with
  | .error reason, _ => exact ⟨.broker reason, rfl, rfl, nofun⟩
  | .ok .refused, _ => exact ⟨.nacked key, rfl, rfl, nofun⟩
  | .ok .taken, h => exact absurd rfl h

/-! ## An attempt -/

/-- An attempt ends in one of three ways: before anything is sent, while the broker's word is waited
for, or with that word. -/
theorem attempt_ends {post : Except Interruption (Except PublishFailure Unit) →
      World (List (Nat × Message)) → Prop}
    (closed : ∀ why, post (.error why) w)
    (late : ∀ why t, ctx.check (w.time + s.takes w.state.length) ≠ .ok () →
      post (.error why) ⟨t, (w.time, m) :: w.state⟩)
    (heard : ∀ t, ctx.check (w.time + s.takes w.state.length) = .ok () →
      post (.ok (confirmed m.routingKey (s.word w.state.length))) ⟨t, (w.time, m) :: w.state⟩) :
    Ends s.server (attempt ctx m) w post := by
  refine Flow.holds_bind_iff.2 (Timed.ends_ifOpen (fun why _ => closed why) fun _ => ?_)
  refine Timed.ends_race rfl ?_ ?_
  · intro why t _ _ missed
    exact late why t missed
  · intro inTime
    exact heard _ inTime

/-! ## All attempts

What has been sent in vain when a round begins, and how the whole is settled. `retryFrom_settles` is
the induction on the attempts that are left.
-/

/-- Copies of a message on each of which the broker's word came in time and was no success, the
latest first. -/
inductive Vain (s : Scripted) (ctx : Context) (m : Message) : List (Nat × Message) → Prop
  | nil : Vain s ctx m []
  | cons {sent : List (Nat × Message)} (t : Nat) (before : Vain s ctx m sent)
      (word : s.word sent.length ≠ .ok .taken)
      (inTime : ctx.check (t + s.takes sent.length) = .ok ()) : Vain s ctx m ((t, m) :: sent)

/-- How a message stands when no other attempt is made. -/
inductive Settled (s : Scripted) (ctx : Context) (m : Message) (attempts : Nat) :
    Except Interruption (Except PublishFailure Unit) → List (Nat × Message) → Prop
  | taken {sent : List (Nat × Message)} (t : Nat) (before : Vain s ctx m sent)
      (few : sent.length < attempts) (word : s.word sent.length = .ok .taken)
      (inTime : ctx.check (t + s.takes sent.length) = .ok ()) :
      Settled s ctx m attempts (.ok (.ok ())) ((t, m) :: sent)
  | exhausted {sent : List (Nat × Message)} (t : Nat) (e : PublishFailure)
      (all : Vain s ctx m ((t, m) :: sent)) (count : sent.length + 1 = attempts)
      (told : confirmed m.routingKey (s.word sent.length) = .error e)
      (genuine : ∀ why, e ≠ .interrupted why) :
      Settled s ctx m attempts (.ok (.error e)) ((t, m) :: sent)
  | stopped {sent : List (Nat × Message)} (why : Interruption) (before : Vain s ctx m sent)
      (few : sent.length < attempts) : Settled s ctx m attempts (.error why) sent
  | unheard {sent : List (Nat × Message)} (t : Nat) (why : Interruption)
      (before : Vain s ctx m sent) (few : sent.length < attempts)
      (missed : ctx.check (t + s.takes sent.length) ≠ .ok ()) :
      Settled s ctx m attempts (.error why) ((t, m) :: sent)

/-- **How sending goes on** behind copies that were sent in vain. -/
theorem retryFrom_settles {policy : RetryPolicy} (left index : Nat)
    (before : Vain s ctx m w.state) (counted : w.state.length + left + 1 = policy.attempts) :
    Ends s.server (retryFrom policy ctx PublishFailure.isRetryable (attempt ctx m) left index) w
      fun result w' => Settled s ctx m policy.attempts result w'.state := by
  have few : w.state.length < policy.attempts := by omega
  -- by induction on the retries that are left; the copies sent before were in vain
  induction left generalizing index w with
  | zero =>
    apply attempt_ends
    · exact fun why => .stopped why before few
    · exact fun why _ missed => .unheard _ why before few missed
    · intro t inTime
      by_cases word : s.word w.state.length = .ok .taken
      · rw [word]
        exact .taken _ before few word inTime
      · obtain ⟨e, told, -, genuine⟩ := confirmed_of_not_taken m.routingKey word
        rw [told]
        exact .exhausted _ e (.cons _ before word inTime) counted told genuine
  | succ left ih =>
    refine Flow.holds_bind_iff.2 (attempt_ends ?_ ?_ ?_)
    · exact fun why => .stopped why before few
    · exact fun why _ missed => .unheard _ why before few missed
    · intro t inTime
      by_cases word : s.word w.state.length = .ok .taken
      · rw [word]
        exact .taken _ before few word inTime
      · -- another copy, after a wait
        obtain ⟨e, told, again, -⟩ := confirmed_of_not_taken m.routingKey word
        have vain : Vain s ctx m ((w.time, m) :: w.state) := .cons _ before word inTime
        have more : ((w.time, m) :: w.state).length + left + 1 = policy.attempts := by
          rw [List.length_cons]
          omega
        have few' : ((w.time, m) :: w.state).length < policy.attempts := by omega
        rw [told]
        simp only [again, if_true]
        refine Flow.holds_bind_iff.2 (Timed.ends_pause rfl ?_ ?_)
        · exact fun why _ _ _ => .stopped why vain few'
        · exact fun _ => ih _ vain more few'

end

/-! ## The law

Read off from how it is settled, for the copies in the order they were sent.
-/

/-- The broker's word on a copy, counted from 0, comes before the context is interrupted. -/
def Heard (s : Scripted) (ctx : Context) (copies : List (Nat × Message)) (i : Nat)
    (word : Except String Confirmation) : Prop :=
  ∃ c, copies[i]? = some c ∧ s.word i = word ∧ ctx.check (c.1 + s.takes i) = .ok ()

/-- What becomes of a message that may be sent so many times: the result, and the copies in the
order in which they are sent. -/
structure SendLaw (s : Scripted) (ctx : Context) (m : Message) (attempts : Nat)
    (result : Except PublishFailure Unit) (copies : List (Nat × Message)) : Prop where
  few : copies.length ≤ attempts
  same : ∀ c ∈ copies, c.2 = m
  /-- A success is one that was heard. -/
  succeeded : result = .ok () ↔ ∃ i, Heard s ctx copies i (.ok .taken)
  /-- Nothing is sent after a copy that was taken. -/
  last : ∀ i, Heard s ctx copies i (.ok .taken) → i + 1 = copies.length ∧
    ∀ k < i, ∃ word, Heard s ctx copies k word ∧ word ≠ .ok .taken
  /-- A failure of its own stands for as many failures as there may be attempts. -/
  failed : (∃ e, result = .error e ∧ ∀ why, e ≠ .interrupted why) ↔
    copies.length = attempts ∧ ∀ k < attempts, ∃ word, Heard s ctx copies k word ∧ word ≠ .ok .taken
  told : ∀ e, result = .error e → (∀ why, e ≠ .interrupted why) →
    confirmed m.routingKey (s.word (attempts - 1)) = .error e

section

variable {s : Scripted} {ctx : Context} {m : Message} {attempts t : Nat}
  {sent : List (Nat × Message)}

theorem Vain.same (h : Vain s ctx m sent) : ∀ c ∈ sent, c.2 = m := by
  induction h with
  | nil => exact fun _ hc => absurd hc List.not_mem_nil
  | cons t before word inTime ih => exact List.forall_mem_cons.2 ⟨rfl, ih⟩

theorem Vain.same_more (h : Vain s ctx m sent) : ∀ c ∈ (t, m) :: sent, c.2 = m :=
  List.forall_mem_cons.2 ⟨rfl, h.same⟩

theorem copies_last : (((t, m) :: sent).reverse)[sent.length]? = some (t, m) := by
  rw [List.reverse_cons, ← List.length_reverse, List.getElem?_concat_length]

theorem copies_before {i : Nat} (h : i < sent.length) :
    (((t, m) :: sent).reverse)[i]? = sent.reverse[i]? := by
  rw [List.reverse_cons, List.getElem?_append_left (by rwa [List.length_reverse])]

theorem heard_before {i : Nat} {word : Except String Confirmation} (h : i < sent.length) :
    Heard s ctx ((t, m) :: sent).reverse i word ↔ Heard s ctx sent.reverse i word := by
  unfold Heard
  rw [copies_before h]

/-- Of every copy that was sent in vain some word was heard that was no success. -/
theorem Vain.heard (h : Vain s ctx m sent) :
    ∀ k < sent.length, ∃ word, Heard s ctx sent.reverse k word ∧ word ≠ .ok .taken := by
  induction h with
  | nil => exact fun k hk => absurd hk (Nat.not_lt_zero k)
  | @cons sent t before word inTime ih =>
    intro k hk
    rcases Nat.lt_succ_iff_lt_or_eq.1 hk with hl | rfl
    · obtain ⟨other, heard, ne⟩ := ih k hl
      exact ⟨other, (heard_before hl).2 heard, ne⟩
    · exact ⟨_, ⟨_, copies_last, rfl, inTime⟩, word⟩

/-- Nothing was taken. -/
theorem Vain.not_taken (h : Vain s ctx m sent) (i : Nat) :
    ¬ Heard s ctx sent.reverse i (.ok .taken) := by
  rintro ⟨c, hc, word, -⟩
  obtain ⟨hi, -⟩ := List.getElem?_eq_some_iff.1 hc
  rw [List.length_reverse] at hi
  obtain ⟨other, ⟨-, -, told, -⟩, ne⟩ := h.heard i hi
  exact ne (told.symm.trans word)

/-- Behind copies that were sent in vain only the last one can have been taken. -/
theorem Vain.taken_last (h : Vain s ctx m sent) {i : Nat}
    (taken : Heard s ctx ((t, m) :: sent).reverse i (.ok .taken)) : i = sent.length := by
  have there := taken
  obtain ⟨c, hc, -⟩ := there
  obtain ⟨hi, -⟩ := List.getElem?_eq_some_iff.1 hc
  rw [List.length_reverse] at hi
  rcases Nat.lt_succ_iff_lt_or_eq.1 hi with hl | he
  · exact absurd ((heard_before hl).1 taken) (h.not_taken i)
  · exact he

theorem not_heard_last {word : Except String Confirmation}
    (missed : ctx.check (t + s.takes sent.length) ≠ .ok ()) :
    ¬ Heard s ctx ((t, m) :: sent).reverse sent.length word := by
  rintro ⟨c, hc, -, inTime⟩
  cases copies_last.symm.trans hc
  exact missed inTime

/-- A message that was given up. -/
theorem SendLaw.of_interrupted {why : Interruption} (few : sent.length ≤ attempts)
    (same : ∀ c ∈ sent, c.2 = m) (none_taken : ∀ i, ¬ Heard s ctx sent.reverse i (.ok .taken))
    (unfinished : ¬ (sent.length = attempts ∧
      ∀ k < attempts, ∃ word, Heard s ctx sent.reverse k word ∧ word ≠ .ok .taken)) :
    SendLaw s ctx m attempts (.error (.interrupted why)) sent.reverse := by
  constructor
  case few => rwa [List.length_reverse]
  case same => exact fun c hc => same c (List.mem_reverse.1 hc)
  case succeeded => exact iff_of_false nofun fun ⟨i, taken⟩ => none_taken i taken
  case last => exact fun i taken => absurd taken (none_taken i)
  case failed =>
    rw [List.length_reverse]
    refine iff_of_false ?_ unfinished
    rintro ⟨_, ⟨⟩, genuine⟩
    exact genuine why rfl
  case told =>
    rintro _ ⟨⟩ genuine
    exact absurd rfl (genuine why)

/-- What a sender is told. -/
def outcome : Except Interruption (Except PublishFailure Unit) → Except PublishFailure Unit
  | .error why => .error (.interrupted why)
  | .ok result => result

/-- Each way in which a message comes to stand fulfils the law. -/
theorem Settled.law {result : Except Interruption (Except PublishFailure Unit)}
    (h : Settled s ctx m attempts result sent) :
    SendLaw s ctx m attempts (outcome result) sent.reverse := by
  cases h with
  | @taken sent t before few word inTime =>
    have heard : Heard s ctx ((t, m) :: sent).reverse sent.length (.ok .taken) :=
      ⟨_, copies_last, word, inTime⟩
    constructor
    case few => rwa [List.length_reverse]
    case same => exact fun c hc => before.same_more c (List.mem_reverse.1 hc)
    case succeeded => exact iff_of_true rfl ⟨_, heard⟩
    case last =>
      intro i taken
      obtain rfl := before.taken_last taken
      refine ⟨by rw [List.length_reverse, List.length_cons], fun k hk => ?_⟩
      obtain ⟨other, told, ne⟩ := before.heard k hk
      exact ⟨other, (heard_before hk).2 told, ne⟩
    case failed =>
      refine iff_of_false ?_ ?_
      · rintro ⟨_, ⟨⟩, -⟩
      · rintro ⟨-, all⟩
        obtain ⟨other, ⟨-, -, told, -⟩, ne⟩ := all sent.length few
        exact ne (told.symm.trans word)
    case told =>
      rintro _ ⟨⟩
  | @exhausted sent t e all count told genuine =>
    constructor
    case few => rw [List.length_reverse]; exact Nat.le_of_eq count
    case same => exact fun c hc => all.same c (List.mem_reverse.1 hc)
    case succeeded => exact iff_of_false nofun fun ⟨i, h⟩ => all.not_taken i h
    case last => exact fun i h => absurd h (all.not_taken i)
    case failed =>
      rw [List.length_reverse]
      refine iff_of_true ⟨e, rfl, genuine⟩ ⟨count, fun k hk => all.heard k ?_⟩
      rwa [← count] at hk
    case told =>
      rintro _ ⟨⟩ -
      rw [← count]
      exact told
  | stopped why before few =>
    apply SendLaw.of_interrupted (Nat.le_of_lt few) before.same before.not_taken
    rintro ⟨count, -⟩
    omega
  -- the copy is with the broker, but its word came too late to count
  | @unheard sent t why before few missed =>
    apply SendLaw.of_interrupted few before.same_more
    · intro i taken
      obtain rfl := before.taken_last taken
      exact not_heard_last missed taken
    · rintro ⟨-, all⟩
      obtain ⟨other, told, -⟩ := all sent.length few
      exact not_heard_last missed told

end

/-! ## Publishing -/

/-- A program that sends one message, to an exchange and under a key and an identifier, with a body
of some kind, as a policy allows. -/
def Sends (s : Scripted) (ctx : Context) (policy : RetryPolicy) (start : Nat)
    (program : Flow (Timed Wire) (Except PublishFailure Unit)) (exchange routingKey : String)
    (id : Uuid) (body : String → Prop) : Prop :=
  ∃ m result w', Timed.run s.server program ⟨start, []⟩ = some (result, w') ∧
    m.exchange = exchange ∧ m.routingKey = routingKey ∧ m.messageId = id.toString ∧
    m.persistent = true ∧ body m.body ∧
    SendLaw s ctx m policy.attempts result w'.state.reverse

namespace Publisher

/-- A sender that begins with nothing sent fulfils the law, whatever the broker says. -/
theorem send_lawful (s : Scripted) (p : Publisher) (ctx : Context) (m : Message) (start : Nat) :
    ∃ result w', Timed.run s.server (p.send ctx m) ⟨start, []⟩ = some (result, w') ∧
      SendLaw s ctx m p.policy.attempts result w'.state.reverse := by
  have counted : ([] : List (Nat × Message)).length + (p.policy.attempts - 1) + 1 =
      p.policy.attempts := by
    have pos : 1 ≤ p.policy.attempts := Nat.le_max_right _ _
    rw [List.length_nil]
    omega
  have sent : Ends s.server (retry p.policy ctx PublishFailure.isRetryable (attempt ctx m))
      ⟨start, []⟩ _ := retryFrom_settles _ 0 .nil counted
  refine Timed.ends_iff.1 (Flow.holds_bind_iff.2 (sent.mono Timed.ending_mono ?_))
  intro result w' settled
  cases result <;> exact settled.law

/-- **Confirmed publishing**, whatever the broker says to each copy and however long it takes. -/
theorem publisher_sends (s : Scripted) (p : Publisher) (ctx : Context) (start : Nat) (id : Uuid) :
    (∀ (channel : Channel) (delivery : Delivery),
      Sends s ctx p.policy start (p.publish ctx channel id delivery) p.exchange channel.routingKey
        id fun body => delivery.Wellformed → delivery.Legible →
          Decoder.ofText Delivery.codec.decode body = .ok delivery) ∧
    ∀ letter : DeadLetter,
      Sends s ctx p.policy start (p.deadLetter ctx id letter) "" p.deadLetterQueue id
        fun body => letter.Wellformed → letter.Legible →
          Decoder.ofText DeadLetter.codec.decode body = .ok letter := by
  constructor
  · intro channel delivery
    obtain ⟨result, w', hr, law⟩ := send_lawful s p ctx (p.message channel id delivery) start
    refine ⟨p.message channel id delivery, result, w', hr, rfl, rfl, rfl, rfl, ?_, law⟩
    exact Delivery.ofText_text
  · intro letter
    obtain ⟨result, w', hr, law⟩ := send_lawful s p ctx (p.letterMessage id letter) start
    refine ⟨p.letterMessage id letter, result, w', hr, rfl, rfl, rfl, rfl, ?_, law⟩
    exact DeadLetter.ofText_text

/-- A delivery with a number of its own in it. -/
def numbered (d : Binary64) : Delivery where
  metadata := some (Dict.empty.insert "x" (.number (.double d)))

/-- One half, to a broker that refuses the first copy and fails at the second. -/
theorem publisher_sends_third_copy :
    let s : Scripted :=
      ⟨fun | 0 => .ok .refused | 1 => .error "closed" | _ => .ok .taken, fun _ => 5, id⟩
    let p : Publisher := ⟨"notifications", "dead", { jitter := false }⟩
    let half := numbered (.finite false 4503599627370496 (-53))
    Sends s .background p.policy 0 (p.publish .background .email default half) "notifications"
        "email" default
        (fun body => Decoder.ofText Delivery.codec.decode body = .ok half) := by
  intro s p half
  obtain ⟨m, result, w', hr, he, hk, hi, hp, hb, law⟩ :=
    (publisher_sends s p .background 0 default).1 .email half
  have only {m : Dict Json} (h : half.metadata = some m) :
      ∀ e ∈ m.entries, e = ("x", .number (.double (.finite false 4503599627370496 (-53)))) := by
    cases h
    exact fun e he => List.mem_singleton.1 he
  have formed : half.Wellformed := by
    constructor
    case createdAt =>
      show DateTime.yearInRange _ = true
      decide
    case metadata =>
      intro m hm e he
      rw [only hm e he]
      exact ⟨_, _, _, rfl⟩
  have read : JsonNumber.Legible (.double (.finite false 4503599627370496 (-53))) := by
    unfold JsonNumber.Legible
    decide +kernel
  have legible : half.Legible := by
    constructor
    case numbers =>
      intro m hm e he
      rw [only hm e he]
      exact read
    case shallow =>
      intro m hm e he
      rw [only hm e he]
      exact Nat.zero_le _
  exact ⟨m, result, w', hr, he, hk, hi, hp, hb formed legible, law⟩

/-- A double whose text reads as its neighbour is not what a worker gets, though the message was
taken. -/
theorem publish_misread :
    let s : Scripted := ⟨fun _ => .ok .taken, fun _ => 0, id⟩
    let p : Publisher := ⟨"notifications", "dead", { jitter := false }⟩
    let unlucky := numbered (.finite false 8835501541107562 (-53))
    ∃ w' c, Timed.run s.server (p.publish .background .email default unlucky) ⟨0, []⟩ =
        some (.ok (), w') ∧ w'.state = [c] ∧
      Decoder.ofText Delivery.codec.decode c.2.body ≠ .ok unlucky := by
  intro s p unlucky
  refine ⟨_, _, rfl, rfl, ?_⟩
  intro read
  have misread : (Decoder.ofText Delivery.codec.decode (Delivery.codec.text unlucky)).toOption ≠
      some unlucky := by
    rw [Decoder.ofText, Codec.text, Document.ofText, Json.toString, String.toList_ofList]
    decide +kernel
  exact misread (congrArg Except.toOption read)

end Publisher

end Courier.Broker
