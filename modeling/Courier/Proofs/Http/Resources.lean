import Courier.Http.Clients
import Courier.Proofs.Flow.Layers

/-!
# Resources of the services

Each call of a client is about one resource of a service, named by an identifier in its path. The
requests that it sends are all the same one, however often it tries, and it does come to send it
where its context and the breaker let it through (`Resource.asks`).

What is shown is about the requests alone. Whether the identifier in the path is read as what was
meant is a matter of the URL, and comes after this.
-/

set_option autoImplicit false

namespace Courier

/-! ## Coming to a question -/

namespace Flow

variable {S : Signature} {α β : Type} {p : Flow S α} {f : α → Flow S β} {op : S.Op} {a : α}
  {log : List (Exchange S)}

/-- With some answers to what it asks before, the program comes to this question. -/
def ComesTo (p : Flow S α) (op : S.Op) : Prop := ∃ log next, Reaches p log (.ask op next)

theorem ComesTo.bind (h : p.ComesTo op) (f : α → Flow S β) : (p >>= f).ComesTo op := by
  obtain ⟨log, next, reached⟩ := h
  refine ⟨log, fun x => next x >>= f, ?_⟩
  generalize left : Flow.ask op next = rest at reached
  induction reached with
  | start p =>
    subst left
    exact .start _
  | ask op' next' x h ih => exact .ask op' _ x (ih left)

theorem ComesTo.after (runs : Runs p log a) (h : (f a).ComesTo op) : (p >>= f).ComesTo op := by
  induction runs with
  | done a => exact h
  | ask op' next x runs ih =>
    obtain ⟨log, next, reached⟩ := ih h
    exact ⟨_, next, .ask op' _ x reached⟩

end Flow

open Courier.Flow (ComesTo Runs)

namespace Timed

variable {R : Signature} {α ε : Type} {ctx : Context} {P : (Timed R).Op → Prop}

theorem asks_ifOpen {work : Flow (Timed R) (Except Interruption α)} (now : P .now)
    (h : work.Asks P) : (ifOpen ctx work).Asks P :=
  Flow.Asks.bind (q := check ctx) ⟨now, fun _ => True.intro⟩ fun opened => match opened with
    | .error _ => True.intro
    | .ok () => h

theorem comesTo_ifOpen {work : Flow (Timed R) (Except Interruption α)} {op : (Timed R).Op}
    {now : Nat} (opened : ctx.check now = .ok ()) (h : work.ComesTo op) :
    (ifOpen ctx work).ComesTo op := by
  have looked : Runs (check (R := R) ctx) [⟨.now, now⟩] (.ok ()) := by
    rw [← opened]
    exact Runs.ask (S := Timed R) Op.now (fun t => .done (ctx.check t)) now (.done _)
  exact .after looked h

/-- Retried work asks what an attempt asks, and waits in between. -/
theorem asks_retryFrom {policy : RetryPolicy} {retryable : ε → Bool}
    {attempt : Flow (Timed R) (Except Interruption (Except ε α))} (now : P .now)
    (pause : ∀ delay jitter, P (.pause ctx delay jitter)) (h : attempt.Asks P) (left index : Nat) :
    (retryFrom policy ctx retryable attempt left index).Asks P := by
  -- by induction on the attempts that are left, each of which asks the same
  induction left generalizing index with
  | zero => exact h
  | succ left ih =>
    refine h.bind fun result => ?_
    match result with
    | .error _ | .ok (.ok _) => exact True.intro
    | .ok (.error e) =>
      dsimp only
      split
      · refine .bind (asks_ifOpen now ⟨pause _ _, fun _ => True.intro⟩) fun waited => ?_
        match waited with
        | .error _ => exact True.intro
        | .ok () => exact ih (index + 1)
      · exact True.intro

theorem comesTo_retryFrom {policy : RetryPolicy} {retryable : ε → Bool}
    {attempt : Flow (Timed R) (Except Interruption (Except ε α))} {op : (Timed R).Op}
    (h : attempt.ComesTo op) (left index : Nat) :
    (retryFrom policy ctx retryable attempt left index).ComesTo op := by
  cases left with
  | zero => exact h
  | succ left => exact h.bind _

end Timed

namespace Http

variable {α : Type} {ctx : Context} {request : Request} {c : Client} {service : String}

/-! ## One request -/

/-- An operation that sends no other request. -/
def Sends (request : Request) : (Timed Link).Op → Prop
  | .plain (.send r) | .race _ (.send r) => r = request
  | _ => True

/-- A call that sends one request, if anything, and does so if its context is open. -/
structure AsksFor (ctx : Context) (request : Request) (call : Flow (Timed Link) α) : Prop where
  only : call.Asks (Sends request)
  once : ∀ now, ctx.check now = .ok () → call.ComesTo (.race ctx (.send request))

/-- An exchange sends its request and no other. -/
theorem AsksFor.exchange (good : request.url.isRequestable)
    (read : Response → Except ClientFailure α) :
    AsksFor ctx request (exchange service ctx (some request) read) := by
  rw [Http.exchange]
  simp only [good, if_true]
  refine ⟨.bind ⟨rfl, fun _ => True.intro⟩ fun answer => ?_, fun _ _ => ?_⟩
  · match answer with
    | .error _ | .ok (.error _) => exact True.intro
    | .ok (.ok response) =>
      dsimp only
      split <;> exact True.intro
  · exact .bind ⟨[], _, .start _⟩ _

/-- Behind a breaker it does so as well, if it is let through. -/
theorem AsksFor.behindBreaker {attempt : Flow (Timed Link) (Attempt α)}
    (h : AsksFor ctx request attempt) :
    AsksFor ctx request (behindBreaker service attempt) := by
  constructor
  · refine .bind ⟨True.intro, fun _ => True.intro⟩ fun answer => ?_
    match answer with
    | .error _ => exact True.intro
    | .ok ticket =>
      exact h.only.bind fun result => .bind ⟨True.intro, fun _ => True.intro⟩ fun _ => True.intro
  · intro now opened
    -- for some ticket the attempt is made; which one does not matter to what it sends
    let ticket : Ticket := ⟨0, false⟩
    have granted : Runs (Timed.plain (R := Link) .ticket) [⟨.plain .ticket, .ok ticket⟩]
        (.ok ticket) := .ask (S := Timed Link) (.plain .ticket) .done (.ok ticket) (.done _)
    exact .after granted ((h.once now opened).bind _)

theorem AsksFor.retried {attempt : Flow (Timed Link) (Attempt α)}
    (h : AsksFor ctx request attempt) (policy : RetryPolicy) (retryable : ClientFailure → Bool) :
    AsksFor ctx request (retry policy ctx retryable (Timed.ifOpen ctx attempt)) := by
  constructor
  · exact Timed.asks_retryFrom True.intro (fun _ _ => True.intro)
      (Timed.asks_ifOpen True.intro h.only) _ _
  · exact fun now opened =>
      Timed.comesTo_retryFrom (Timed.comesTo_ifOpen opened (h.once now opened)) _ _

theorem AsksFor.result {β : Type} {call : Flow (Timed Link) α} (h : AsksFor ctx request call)
    (f : α → β) : AsksFor ctx request (do return f (← call)) :=
  ⟨h.only.bind fun _ => True.intro, fun now opened => (h.once now opened).bind _⟩

theorem AsksFor.ask (good : request.url.isRequestable) (decode : Decoder α) :
    AsksFor ctx request (c.ask ctx (some request) decode) :=
  (((AsksFor.exchange good _).behindBreaker).retried c.policy _).result flatten

/-! ## Calls and what they are about -/

/-- What a client asks a service for, by an identifier. -/
inductive Resource where
  /-- The preferences of a user. -/
  | preferences
  /-- When a user was last notified. -/
  | lastNotification
  /-- A template with values in place. -/
  | rendering
  | template
  deriving DecidableEq, Repr

namespace Resource

def path : Resource → String → String
  | .preferences => Client.preferencesPath
  | .lastNotification => Client.lastNotificationPath
  | .rendering => Client.renderPath
  | .template => Client.templatePath

/-- The URL with an identifier in it. A template is asked for in a language. -/
def url? (c : Client) (language : String) (r : Resource) (id : String) : Option Url :=
  let url := Url.parse? (c.base ++ r.path id)
  if r = .template then url.map (·.withPair "language" language) else url

/-- The call for a resource sends requests for the URL, and no others. -/
def Asks (c : Client) (language id : String) (url : Url) : Resource → Prop
  | .preferences => ∀ ctx, AsksFor ctx ⟨.get, url, none⟩ (c.getPreferences ctx id)
  | .lastNotification => ∀ ctx sentAt, ∃ body,
      AsksFor ctx ⟨.put, url, some body⟩ (c.recordSent ctx id sentAt)
  | .rendering => ∀ ctx values,
      AsksFor ctx ⟨.post, url, some (Client.renderBody language values)⟩
        (c.renderTemplate ctx id language values)
  | .template => ∀ ctx, AsksFor ctx ⟨.get, url, none⟩ (c.getTemplate ctx id language)

variable {r : Resource} {language id : String} {url : Url}

/-- **Every call asks for its URL.** -/
theorem asks (read : r.url? c language id = some url) (good : url.isRequestable) :
    r.Asks c language id url := by
  cases r with
  | preferences =>
    intro ctx
    have request : c.request? .get (Client.preferencesPath id) = some ⟨.get, url, none⟩ :=
      congrArg (Option.map _) read
    rw [Client.getPreferences, request]
    exact .ask good _
  | lastNotification =>
    intro ctx sentAt
    let body := Json.object [("sent_at", .string sentAt.toString)]
    have request : c.request? .put (Client.lastNotificationPath id) (some body) =
        some ⟨.put, url, some body⟩ := congrArg (Option.map _) read
    refine ⟨body, ?_⟩
    rw [Client.recordSent, request]
    exact ((AsksFor.exchange good _).retried c.policy _).result flatten
  | rendering =>
    intro ctx values
    have request : c.request? .post (Client.renderPath id)
        (some (Client.renderBody language values)) = some ⟨.post, url, _⟩ :=
      congrArg (Option.map _) read
    rw [Client.renderTemplate, request]
    exact .ask good _
  | template =>
    intro ctx
    have request : ((c.request? .get (Client.templatePath id)).map fun r =>
        { r with url := r.url.withPair "language" language }) = some ⟨.get, url, none⟩ := by
      -- the language is added after the URL has been read, so that it is the same URL with a query
      obtain ⟨found, there, rfl⟩ := Option.map_eq_some_iff.1 read
      have plain : Url.parse? (c.base ++ Client.templatePath id) = some found := there
      rw [Client.request?, plain]
      rfl
    rw [Client.getTemplate, request]
    exact .ask good _

end Resource

end Http

end Courier
