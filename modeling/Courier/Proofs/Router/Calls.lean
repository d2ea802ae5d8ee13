import Courier.Router.Handle

/-!
# What a call is about

A call is known by what can be read of it: a method, a path by its parts (`route`), and for some
calls a body. For each kind of call `handle` is what is done for it, and then an answer.

The paths are spelled out here as callers write them, so that what is said of a kind of call is
about texts and not about routes.
-/

set_option autoImplicit false

namespace Courier

namespace Router

/-! ## Paths -/

theorem split_ne_nil (cs : List Char) : pathParts.split cs ≠ [] := by
  induction cs with
  | nil => simp [pathParts.split]
  | cons c rest ih =>
    unfold pathParts.split
    split
    · simp
    · split <;> simp

theorem split_part {part : List Char} (h : '/' ∉ part) : pathParts.split part = [part] := by
  induction part with
  | nil => rfl
  | cons c rest ih =>
    simp only [List.mem_cons, not_or] at h
    simp [pathParts.split, ih h.2, Ne.symm h.1]

/-- A slash ends a part. -/
theorem split_append {part : List Char} (h : '/' ∉ part) (rest : List Char) :
    pathParts.split (part ++ '/' :: rest) = part :: pathParts.split rest := by
  induction part with
  | nil =>
    obtain ⟨first, more, hs⟩ := List.exists_cons_of_ne_nil (split_ne_nil rest)
    simp [pathParts.split, hs]
  | cons c part ih =>
    simp only [List.mem_cons, not_or] at h
    simp [pathParts.split, ih h.2, Ne.symm h.1]

/-- The parts of a path under that of notifications. -/
theorem pathParts_root (rest : List Char) :
    pathParts ("/api/v1/notifications/" ++ String.ofList rest) =
      [] :: "api".toList :: "v1".toList :: "notifications".toList :: pathParts.split rest := by
  have parts : ("/api/v1/notifications/" ++ String.ofList rest).toList =
      [] ++ '/' :: ("api".toList ++ '/' :: ("v1".toList ++ '/' ::
        ("notifications".toList ++ '/' :: rest))) := by
    simp
  rw [pathParts, parts, split_append (by simp), split_append (by decide), split_append (by decide),
    split_append (by decide)]

theorem route_find {encoded : List Char} (part : '/' ∉ encoded) (some : encoded ≠ []) :
    route "GET" ("/api/v1/notifications/" ++ String.ofList encoded) = .find encoded := by
  rw [route, pathParts_root, split_part part]
  simp [isRead, some]

theorem route_report {encoded : List Char} (part : '/' ∉ encoded) (some : encoded ≠ []) :
    route "POST" ("/api/v1/notifications/" ++ String.ofList (encoded ++ "/status".toList)) =
      .report encoded := by
  rw [route, pathParts_root]
  have parts : pathParts.split (encoded ++ "/status".toList) = [encoded, "status".toList] :=
    split_append part "status".toList
  rw [parts]
  simp [some]

/-! ## Calls -/

/-- The call submits a request. -/
structure Call.Submits (call : Call) (request : Request) : Prop where
  method : call.method = "POST"
  path : call.path = "/api/v1/notifications"
  body : readBody Request.codec.decode call.contentType call.body = .ok request

/-- The call asks for the health of the service. -/
structure Call.AsksHealth (call : Call) : Prop where
  method : call.method = "GET"
  path : call.path = "/health"

/-- The call asks for a record. -/
structure Call.LooksUp (call : Call) (id : Uuid) : Prop where
  method : call.method = "GET"
  path : ∃ encoded, '/' ∉ encoded ∧ readId encoded = .ok id ∧
    call.path = "/api/v1/notifications/" ++ String.ofList encoded

/-- The call brings word of what became of a notification, though perhaps none that can be read. -/
structure Call.BringsWord (call : Call) (id : Uuid) : Prop where
  method : call.method = "POST"
  path : ∃ encoded, '/' ∉ encoded ∧ readId encoded = .ok id ∧
    call.path = "/api/v1/notifications/" ++ String.ofList (encoded ++ "/status".toList)

variable {s : Service} {call : Call} {request : Request} {id : Uuid} {encoded : List Char}

theorem ne_nil_of_readId (h : readId encoded = .ok id) : encoded ≠ [] := by
  rintro rfl
  have spelled : Text.Utf8.decode? (Http.percentDecode (Text.Utf8.encode [])) = some "" := by
    simp [Text.Utf8.decode?, Text.Utf8.pieces, Text.Utf8.encode, Http.percentDecode]
  have refused : Uuid.parse? "" = none := by decide
  simp [readId, spelled, refused] at h

/-- A record is looked up within the time of a request. -/
def lookUp (p : Pipeline) (id : Uuid) : Flow Backend (Except Failure Notification) := do
  Pipeline.find (← p.requestContext) id

/-- So is a worker's word taken. -/
def takeWord (p : Pipeline) (id : Uuid) (word : StatusReport) :
    Flow Backend (Except Failure Notification) := do
  Pipeline.report (← p.requestContext) id word

/-- The answer to what becomes of a request. -/
def submitAnswer : Except Failure Reply → Answer
  | .ok reply => replied reply
  | .error e => failed e "Failed to process notification"

theorem handle_eq_respond (h : call.method ≠ "HEAD") : handle s call = respond s call := by
  simp only [handle, h, if_false]
  exact Flow.bind_done _

theorem handle_asksHealth (h : call.AsksHealth) : handle s call =
    Health.check s.healthTimeout >>= fun report => pure (healthAnswer report) := by
  have goes : route call.method call.path = .health := by rw [h.method, h.path]; decide
  rw [handle_eq_respond (by rw [h.method]; decide), respond, goes]

theorem handle_submit (h : call.Submits request) :
    handle s call = s.pipeline.submit request >>= fun result => pure (submitAnswer result) := by
  have goes : route call.method call.path = .create := by rw [h.method, h.path]; decide
  rw [handle_eq_respond (by rw [h.method]; decide)]
  simp only [respond, goes, h.body]
  refine congrArg _ (funext fun result => ?_)
  cases result <;> rfl

/-- A call about a record is answered by what becomes of it. -/
theorem handle_lookUp (h : call.LooksUp id) :
    handle s call = lookUp s.pipeline id >>= fun found =>
      pure (recordAnswer found "Notification retrieved" "Failed to retrieve notification") := by
  obtain ⟨encoded, part, read, path⟩ := h.path
  have goes : route call.method call.path = .find encoded := by
    rw [h.method, path, route_find part (ne_nil_of_readId read)]
  rw [handle_eq_respond (by rw [h.method]; decide)]
  simp only [respond, goes, read, lookUp, Flow.bind_def, Flow.bind_assoc]

/-- A worker's word is taken if it can be read. -/
theorem handle_bringsWord (h : call.BringsWord id) : handle s call =
    match readBody StatusReport.codec.decode call.contentType call.body with
    | .error e => pure (.bad e)
    | .ok word => takeWord s.pipeline id word >>= fun found =>
      pure (recordAnswer found "Status updated" "Failed to update notification status") := by
  obtain ⟨encoded, part, read, path⟩ := h.path
  have goes : route call.method call.path = .report encoded := by
    rw [h.method, path, route_report part (ne_nil_of_readId read)]
  rw [handle_eq_respond (by rw [h.method]; decide)]
  simp only [respond, goes, read]
  cases readBody StatusReport.codec.decode call.contentType call.body with
  | error e => rfl
  | ok word => simp only [takeWord, Flow.bind_def, Flow.bind_assoc]

end Router

end Courier
