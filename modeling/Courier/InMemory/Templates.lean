import Courier.InMemory.Conduct
import Courier.InMemory.Placeholder
import Courier.Notification.Template

/-!
# The template service in memory

A catalogue of four templates in one language each caller chooses. A rendering needs a value for
every required placeholder; an optional one without a value is left empty.
-/

set_option autoImplicit false

namespace Courier

/-- The name of the template service in messages. -/
def templateService : String := "template-service"

namespace InMemory

/-- An entry of the catalogue. -/
structure Entry where
  code : String
  name : String
  version : String
  subject : String
  html : Option String
  text : String
  placeholders : List TemplateVariable

/-- A placeholder, as it stands in the templates. -/
def hole (name : String) : String := "\x7b\x7b" ++ name ++ "\x7d\x7d"

/-- The templates there are. Every hole of a text is the name of a placeholder listed beside it. -/
def catalogue : List Entry := [
  { code := "welcome_email"
    name := "Welcome Email"
    version := "2.3.0"
    subject := "Welcome, " ++ hole "name" ++ "!"
    html := some ("<html><body><h1>Welcome " ++ hole "name" ++ "!</h1><p>Thank you for joining " ++
      hole "app_name" ++ ".</p></body></html>")
    text := "Welcome " ++ hole "name" ++ "!\n\nThank you for joining " ++ hole "app_name" ++ "."
    placeholders := [⟨"name", true⟩, ⟨"app_name", false⟩] },
  { code := "password_reset"
    name := "Password Reset"
    version := "1.5.2"
    subject := "Reset your password"
    html := some ("<html><body><p>Reset your password: <a href=\"" ++ hole "reset_url" ++ "\">" ++
      hole "reset_url" ++ "</a></p></body></html>")
    text := "Reset your password: " ++ hole "reset_url"
    placeholders := [⟨"reset_url", true⟩] },
  { code := "order_confirmation"
    name := "Order Confirmation"
    version := "3.1.0"
    subject := "Order #" ++ hole "order_id" ++ " confirmed"
    html := some ("<html><body><p>Hi " ++ hole "name" ++ ", order #" ++ hole "order_id" ++
      " totalling " ++ hole "order_total" ++ " is confirmed.</p></body></html>")
    text := "Hi " ++ hole "name" ++ ", order #" ++ hole "order_id" ++ " totalling " ++
      hole "order_total" ++ " is confirmed."
    placeholders := [⟨"name", true⟩, ⟨"order_id", true⟩, ⟨"order_total", true⟩] },
  { code := "push_notification"
    name := "Push Notification"
    version := "1.0.0"
    subject := hole "title"
    html := none
    text := hole "message"
    placeholders := [⟨"title", true⟩, ⟨"message", true⟩] }]

/-- The template of a code, in the language asked for (`lookup`). Nothing is translated. -/
def findTemplate (code language : String) : Except ClientFailure Template :=
  match catalogue.find? fun e => e.code == code with
  | none => .error (.status templateService 404 ("template not found: " ++ code))
  | some e => .ok {
      templateId := code
      name := e.name
      language := language
      version := some e.version
      subject := some e.subject
      body := ⟨e.html, e.text⟩
      placeholders := e.placeholders }

/-- The values for a template: those given, and null for every optional placeholder without one. -/
def completed (t : Template) (values : Dict Json) : Dict Json :=
  (t.placeholders.filter fun v => !v.required).foldl (fun d v => d.insertNew v.name .null) values

/-- The content of a template with values in place, which are put there in the order given. -/
def contentWith (values : List (String × Json)) (t : Template) : Content :=
  let put (s : String) := String.ofList (Placeholder.fillList values s.toList)
  { subject := t.subject.map put
    body := ⟨t.body.html.map put, put t.body.text⟩ }

/-- The content of a template for the variables of a request. -/
def contentOf (t : Template) (values : Dict Json) : Content :=
  contentWith (completed t values).entries t

/-- Renders a template of the catalogue at a given time. -/
def rendering (code language : String) (values : Dict Json) (time : DateTime) :
    Except ClientFailure Rendering := do
  let t ← findTemplate code language
  match t.placeholders.find? fun v => v.required && !values.contains v.name with
  | some v => throw (.status templateService 422 ("missing required variable: " ++ v.name))
  | none => return {
      templateId := t.templateId
      language := language
      version := t.version.getD "latest"
      content := contentOf t values
      renderedAt := time
      variablesUsed := values.keys }

/-- Looks a template up. -/
def getTemplate {R : Signature} (ctx : Context) (code language : String) :
    Flow (Timed R) (Except ClientFailure Template) := do
  match ← reach ctx templateService code with
  | .error e => return .error e
  | .ok () => return findTemplate code language

/-- Renders a template, at the time that `today` tells. -/
def renderTemplate {R : Signature} (today : Flow (Timed R) DateTime) (ctx : Context)
    (code language : String) (values : Dict Json) :
    Flow (Timed R) (Except ClientFailure Rendering) := do
  match ← reach ctx templateService code with
  | .error e => return .error e
  | .ok () => return rendering code language values (← today)

end InMemory

end Courier
