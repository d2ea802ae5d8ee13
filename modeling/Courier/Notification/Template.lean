import Courier.Json.Shape

/-!
# Templates and renderings

A template has a subject and a body with placeholders; a rendering is what it becomes when values
take their places.

`Template` is what the template service tells of a template and `Rendering` what it makes of one.
The pipeline asks for renderings only.
-/

set_option autoImplicit false

namespace Courier

/-- A body in plain text, perhaps with a marked-up version of it. -/
structure Body where
  html : Option String := none
  text : String := ""
  deriving DecidableEq, Repr, Inhabited

namespace Body

def shape : Shape Body where
  title := "TemplateBody"
  blank := {}
  slots := [
    .plain "html" .defaulted (.option .string) (·.html) fun x r => { r with html := x },
    .plain "text" .required .string (·.text) fun x r => { r with text := x }]

def codec : Codec Body := shape.codec

end Body

/-- A placeholder's name, and whether a value must be given for it. -/
structure TemplateVariable where
  name : String := ""
  required : Bool := false
  deriving DecidableEq, Repr, Inhabited

namespace TemplateVariable

def shape : Shape TemplateVariable where
  title := "TemplateVariable"
  blank := {}
  slots := [
    .plain "name" .required .string (·.name) fun x r => { r with name := x },
    .plain "required" .defaulted .bool (·.required) fun x r => { r with required := x }]

def codec : Codec TemplateVariable := shape.codec

end TemplateVariable

structure Template where
  templateId : String := ""
  name : String := ""
  language : String := ""
  version : Option String := none
  subject : Option String := none
  body : Body := {}
  placeholders : List TemplateVariable := []
  deriving DecidableEq, Repr, Inhabited

namespace Template

def shape : Shape Template where
  title := "Template"
  blank := {}
  slots := [
    .plain "template_id" .required .string (·.templateId) fun x r => { r with templateId := x },
    .plain "name" .required .string (·.name) fun x r => { r with name := x },
    .plain "language" .required .string (·.language) fun x r => { r with language := x },
    .plain "version" .defaulted (.option .string) (·.version) fun x r => { r with version := x },
    .plain "subject" .defaulted (.option .string) (·.subject) fun x r => { r with subject := x },
    .plain "body" .required Body.codec (·.body) fun x r => { r with body := x },
    .plain "variables" .defaulted (.list TemplateVariable.codec) (·.placeholders)
      fun x r => { r with placeholders := x }]

def codec : Codec Template := shape.codec

end Template

/-- A subject and a body with every value in its place. -/
structure Content where
  subject : Option String := none
  body : Body := {}
  deriving DecidableEq, Repr, Inhabited

namespace Content

def shape : Shape Content where
  title := "RenderedContent"
  blank := {}
  slots := [
    .plain "subject" .defaulted (.option .string) (·.subject) fun x r => { r with subject := x },
    .plain "body" .required Body.codec (·.body) fun x r => { r with body := x }]

def codec : Codec Content := shape.codec

end Content

/-- What a template became. -/
structure Rendering where
  templateId : String := ""
  language : String := ""
  version : String := ""
  content : Content := {}
  renderedAt : DateTime := default
  variablesUsed : List String := []
  deriving DecidableEq, Repr, Inhabited

namespace Rendering

def shape : Shape Rendering where
  title := "RenderResponse"
  blank := {}
  slots := [
    .plain "template_id" .required .string (·.templateId) fun x r => { r with templateId := x },
    .plain "language" .required .string (·.language) fun x r => { r with language := x },
    .plain "version" .required .string (·.version) fun x r => { r with version := x },
    .plain "rendered" .required Content.codec (·.content) fun x r => { r with content := x },
    .plain "rendered_at" .required .time (·.renderedAt) fun x r => { r with renderedAt := x },
    .plain "variables_used" .defaulted (.list .string) (·.variablesUsed)
      fun x r => { r with variablesUsed := x }]

def codec : Codec Rendering := shape.codec

end Rendering

end Courier
