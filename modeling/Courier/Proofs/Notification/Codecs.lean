import Courier.Health.Report
import Courier.Notification.Delivery
import Courier.Notification.Preferences
import Courier.Proofs.Json.Fields

/-!
# The codecs are inverse

Every type that is sent, kept or answered is taken back from what is written of it, whatever is left
out, and whatever order the maps in it are written in (`codecs_inverse`). Times must be ones that
can be written. What is free in a request, a record, a message or a dead letter must have its fields
in order, as every value in memory has; in a text its numbers must be ones that are read back, since
not every double is read as it was written. Whole numbers always are.

What holds of a type is said of its fields, one line for each, in the order of its shape.

The three parts behind the fields of a shape say, in this order: that setting one field leaves the
others alone, that all fields together make up the record, and that a blank record is well-formed
and shallow.
-/

set_option autoImplicit false

namespace Courier

open Codec Slot

variable {floor : Nat}

theorem DateTime.datable_default : (default : DateTime).Datable := by
  unfold DateTime.Datable
  decide

namespace Body

theorem lawful : codec.LawfulAll (floor + 1) :=
  Shape.lawful (by decide)
    (.cons (lawful_simple (lawful_string.option nofun) fun _ _ => rfl) <|
     .cons (lawful_simple lawful_string fun _ _ => rfl) .nil)
    (by simp [apart_iff]) (fun _ => rfl) trivial (Nat.le_add_left _ _)

end Body

namespace TemplateVariable

theorem lawful : codec.LawfulAll (floor + 1) :=
  Shape.lawful (by decide)
    (.cons (lawful_simple lawful_string fun _ _ => rfl) <|
     .cons (lawful_simple lawful_bool fun _ _ => rfl) .nil)
    (by simp [apart_iff]) (fun _ => rfl) trivial (Nat.le_add_left _ _)

end TemplateVariable

namespace Template

theorem lawful : codec.LawfulAll (floor + 3) :=
  Shape.lawful (by decide)
    (.cons (lawful_simple lawful_string fun _ _ => rfl) <|
     .cons (lawful_simple lawful_string fun _ _ => rfl) <|
     .cons (lawful_simple lawful_string fun _ _ => rfl) <|
     .cons (lawful_simple (lawful_string.option nofun) fun _ _ => rfl) <|
     .cons (lawful_simple (lawful_string.option nofun) fun _ _ => rfl) <|
     .cons (lawful_simple Body.lawful fun _ _ => rfl) <|
     .cons (lawful_simple TemplateVariable.lawful.list fun _ _ => rfl) .nil)
    (by simp [apart_iff]) (fun _ => rfl) trivial (Nat.le_add_left 2 (floor + 1))

end Template

namespace Content

theorem lawful : codec.LawfulAll (floor + 2) :=
  Shape.lawful (by decide)
    (.cons (lawful_simple (lawful_string.option nofun) fun _ _ => rfl) <|
     .cons (lawful_simple Body.lawful fun _ _ => rfl) .nil)
    (by simp [apart_iff]) (fun _ => rfl) trivial (Nat.le_add_left _ _)

end Content

namespace Rendering

theorem lawful : codec.Lawful (floor + 3) (·.renderedAt.Datable) fun _ => True :=
  Shape.lawful (by decide)
    (.cons (lawful_simple lawful_string fun _ _ => rfl) <|
     .cons (lawful_simple lawful_string fun _ _ => rfl) <|
     .cons (lawful_simple lawful_string fun _ _ => rfl) <|
     .cons (lawful_simple Content.lawful fun _ _ => rfl) <|
     .cons (lawful_plain lawful_time (fun _ _ => rfl) id id) <|
     .cons (lawful_simple lawful_string.list fun _ _ => rfl) .nil)
    (by simp [apart_iff]) (fun _ => rfl) DateTime.datable_default (Nat.le_add_left _ _)

end Rendering

namespace Preferences

theorem lawful : codec.LawfulAll (floor + 2) :=
  Shape.lawful (by decide)
    (.cons (lawful_simple lawful_string fun _ _ => rfl) <|
     .cons (lawful_simple lawful_bool fun _ _ => rfl) <|
     .cons (lawful_simple lawful_bool fun _ _ => rfl) <|
     .cons (lawful_simple lawful_bool.dict fun _ _ => rfl) <|
     .cons (lawful_simple lawful_bool fun _ _ => rfl) <|
     .cons (lawful_simple lawful_bool fun _ _ => rfl) <|
     .cons (lawful_simple lawful_bool fun _ _ => rfl) <|
     .cons (lawful_simple (lawful_string.option nofun) fun _ _ => rfl) <|
     .cons (lawful_simple lawful_string.list fun _ _ => rfl) <|
     .cons (lawful_simple (lawful_string.option nofun) fun _ _ => rfl) .nil)
    (by simp [apart_iff]) (fun _ => rfl) trivial (Nat.le_add_left _ _)

end Preferences

namespace Reply

theorem lawful : codec.Lawful (floor + 1) (·.createdAt.Datable) fun _ => True :=
  Shape.lawful (by decide)
    (.cons (lawful_simple lawful_uuid fun _ _ => rfl) <|
     .cons (lawful_simple lawful_label fun _ _ => rfl) <|
     .cons (lawful_offered lawful_string nofun nofun rfl fun _ _ => rfl) <|
     .cons (lawful_offered lawful_string nofun nofun rfl fun _ _ => rfl) <|
     .cons (lawful_plain lawful_time (fun _ _ => rfl) id id) .nil)
    (by simp [apart_iff]) (fun _ => rfl) DateTime.datable_default (Nat.le_add_left _ _)

end Reply

namespace HealthCheck

theorem lawful : codec.LawfulAll (floor + 1) :=
  Shape.lawful (by decide)
    (.cons (lawful_simple lawful_label fun _ _ => rfl) <|
     .cons (lawful_offered lawful_nat64 nofun nofun rfl fun _ _ => rfl) <|
     .cons (lawful_offered lawful_label nofun nofun rfl fun _ _ => rfl) <|
     .cons (lawful_offered lawful_string nofun nofun rfl fun _ _ => rfl) .nil)
    (by simp [apart_iff]) (fun _ => rfl) trivial (Nat.le_add_left _ _)

end HealthCheck

namespace HealthReport

theorem lawful : codec.Lawful (floor + 3) (·.timestamp.Datable) fun _ => True :=
  Shape.lawful (by decide)
    (.cons (lawful_simple lawful_label fun _ _ => rfl) <|
     .cons (lawful_plain lawful_time (fun _ _ => rfl) id id) <|
     .cons (lawful_simple HealthCheck.lawful.dict fun _ _ => rfl) .nil)
    (by simp [apart_iff]) (fun _ => rfl) DateTime.datable_default (Nat.le_add_left _ _)

end HealthReport

/-! ## Types with free values -/

/-- It holds of every free value in a map. -/
def Dict.Free (P : Json → Prop) (d : Dict Json) : Prop := ∀ e ∈ d.entries, P e.2

theorem Codec.lawful_values :
    (dict free).Lawful (floor + 1) (Dict.Free Json.Ordered) (Dict.Free Json.Legible) :=
  lawful_dict lawful_free

namespace Request

/-- It holds of every free value of the request. -/
def Free (P : Json → Prop) (r : Request) : Prop := r.values.Free P ∧ ∀ m ∈ r.metadata, m.Free P

def Formed (r : Request) : Prop := r.Free Json.Ordered ∧ ∀ t ∈ r.scheduledFor, t.Datable

theorem lawful : codec.Lawful (floor + 2) Formed (Free Json.Legible) :=
  Shape.lawful (by decide)
    (.cons (lawful_simple lawful_string fun _ _ => rfl) <|
     .cons (lawful_simple lawful_label fun _ _ => rfl) <|
     .cons (lawful_simple lawful_string fun _ _ => rfl) <|
     .cons (lawful_simple lawful_string fun _ _ => rfl) <|
     .cons (lawful_plain lawful_values (fun _ _ => rfl) (·.1.1) (·.1)) <|
     .cons (lawful_simple lawful_int32 fun _ _ => rfl) <|
     .cons (lawful_present lawful_values nofun nofun rfl (fun _ _ => rfl) (·.1.2) (·.2)) <|
     .cons (lawful_offered lawful_string nofun nofun rfl fun _ _ => rfl) <|
     .cons (lawful_present lawful_time nofun nofun rfl (fun _ _ => rfl) (·.2) fun _ _ _ => trivial)
     .nil)
    (by simp [apart_iff]) (fun _ => rfl) ⟨⟨nofun, nofun⟩, nofun⟩ (Nat.le_add_left _ _)

end Request

namespace Notification

/-- It holds of every free value of the record. -/
def Free (P : Json → Prop) (n : Notification) : Prop :=
  n.values.Free P ∧ ∀ m ∈ n.metadata, m.Free P

def Formed (n : Notification) : Prop :=
  n.Free Json.Ordered ∧ n.createdAt.Datable ∧ n.updatedAt.Datable ∧
    ∀ t ∈ n.scheduledFor, t.Datable

theorem lawful : codec.Lawful (floor + 2) Formed (Free Json.Legible) :=
  Shape.lawful (by decide)
    (.cons (lawful_simple lawful_uuid fun _ _ => rfl) <|
     .cons (lawful_simple lawful_string fun _ _ => rfl) <|
     .cons (lawful_simple lawful_string fun _ _ => rfl) <|
     .cons (lawful_simple lawful_label fun _ _ => rfl) <|
     .cons (lawful_simple lawful_label fun _ _ => rfl) <|
     .cons (lawful_simple lawful_label fun _ _ => rfl) <|
     .cons (lawful_plain lawful_values (fun _ _ => rfl) (·.1.1) (·.1)) <|
     .cons (lawful_plain (lawful_option nofun lawful_values) (fun _ _ => rfl) (·.1.2) (·.2)) <|
     .cons (lawful_simple (lawful_string.option nofun) fun _ _ => rfl) <|
     .cons (lawful_plain lawful_time (fun _ _ => rfl) (·.2.1) fun _ => trivial) <|
     .cons (lawful_plain lawful_time (fun _ _ => rfl) (·.2.2.1) fun _ => trivial) <|
     .cons (lawful_plain (lawful_option nofun lawful_time) (fun _ _ => rfl) (·.2.2.2)
      fun _ _ _ => trivial) .nil)
    (by simp [apart_iff]) (fun _ => rfl)
    ⟨⟨nofun, nofun⟩, DateTime.datable_default, DateTime.datable_default, nofun⟩
    (Nat.le_add_left _ _)

end Notification

namespace Delivery

/-- It holds of every free value of the message. -/
def Free (P : Json → Prop) (d : Delivery) : Prop := ∀ m ∈ d.metadata, m.Free P

def Formed (d : Delivery) : Prop := d.Free Json.Ordered ∧ d.createdAt.Datable

theorem lawful : codec.Lawful (floor + 2) Formed (Free Json.Legible) :=
  Shape.lawful (by decide)
    (.cons (lawful_simple lawful_uuid fun _ _ => rfl) <|
     .cons (lawful_simple lawful_label fun _ _ => rfl) <|
     .cons (lawful_simple lawful_string fun _ _ => rfl) <|
     .cons (lawful_simple lawful_string fun _ _ => rfl) <|
     .cons (lawful_simple lawful_string fun _ _ => rfl) <|
     .cons (lawful_offered lawful_string nofun nofun rfl fun _ _ => rfl) <|
     .cons (lawful_simple lawful_string fun _ _ => rfl) <|
     .cons (lawful_offered lawful_string nofun nofun rfl fun _ _ => rfl) <|
     .cons (lawful_simple lawful_string fun _ _ => rfl) <|
     .cons (lawful_present lawful_values nofun nofun rfl (fun _ _ => rfl) (·.1) id) <|
     .cons (lawful_plain lawful_time (fun _ _ => rfl) (·.2) fun _ => trivial) .nil)
    (by simp [apart_iff]) (fun _ => rfl) ⟨nofun, DateTime.datable_default⟩ (Nat.le_add_left _ _)

end Delivery

namespace DeadLetter

def Formed (l : DeadLetter) : Prop := l.message.Ordered ∧ l.failedAt.Datable

theorem lawful : codec.Lawful (floor + 1) Formed (·.message.Legible) :=
  Shape.lawful (by decide)
    (.cons (lawful_plain lawful_free (fun _ _ => rfl) (·.1) id) <|
     .cons (lawful_simple lawful_string fun _ _ => rfl) <|
     .cons (lawful_simple lawful_string fun _ _ => rfl) <|
     .cons (lawful_plain lawful_time (fun _ _ => rfl) (·.2) fun _ => trivial) <|
     .cons (lawful_simple lawful_nat32 fun _ _ => rfl) <|
     .cons (lawful_simple lawful_string fun _ _ => rfl) .nil)
    (by simp [apart_iff]) (fun _ => rfl) ⟨trivial, DateTime.datable_default⟩ (Nat.le_add_left _ _)

end DeadLetter

/-! ## All of them -/

/-- **Decoding undoes encoding, and encoding what was decoded.** In a text that takes numbers that
are read back, as all whole ones are. -/
theorem codecs_inverse :
    (Request.codec.Inverse Request.Formed (Request.Free Json.Legible) ∧
      Reply.codec.Inverse (·.createdAt.Datable) (fun _ => True) ∧
      Notification.codec.Inverse Notification.Formed (Notification.Free Json.Legible) ∧
      Delivery.codec.Inverse Delivery.Formed (Delivery.Free Json.Legible) ∧
      DeadLetter.codec.Inverse DeadLetter.Formed (·.message.Legible) ∧
      Preferences.codec.Inverse (fun _ => True) (fun _ => True) ∧
      Template.codec.Inverse (fun _ => True) (fun _ => True) ∧
      Rendering.codec.Inverse (·.renderedAt.Datable) (fun _ => True) ∧
      HealthReport.codec.Inverse (·.timestamp.Datable) (fun _ => True)) ∧
    ∀ v : Json, v.Whole → v.Legible :=
  ⟨⟨Request.lawful.inverse, Reply.lawful.inverse, Notification.lawful.inverse,
      Delivery.lawful.inverse, DeadLetter.lawful.inverse,
      Preferences.lawful.inverse, Template.lawful.inverse, Rendering.lawful.inverse,
      HealthReport.lawful.inverse⟩,
    fun _ => Json.Whole.legible⟩

/-- A request is taken back with the fields of a free value the other way round. -/
theorem codecs_inverse_swapped :
    let order := Json.object [("items", .array []), ("total", Json.nat 7)]
    let swapped := Json.object [("total", Json.nat 7), ("items", .array [])]
    let request : Request := { userId := "u", values := Dict.empty.insert "order" order }
    let written := Json.object [("request_id", .string ""), ("notification_type", .string "email"),
      ("user_id", .string "u"), ("template_code", .string ""),
      ("variables", .object [("order", swapped)]), ("priority", Json.nat 0)]
    Decoder.ofJson Request.codec.decode written = .ok request := by
  intro order swapped request written
  refine codecs_inverse.1.1.held request ⟨⟨?ordered, nofun⟩, nofun⟩ written ?reordered
  -- the object in memory has its fields in order, and the text has them the other way round
  case ordered =>
    have above : KeysAbove "items" [("total", Json.nat 7)] := by
      intro e he
      rw [List.mem_singleton.1 he]
      decide
    have ordered : order.Ordered := ⟨⟨above, nofun, trivial⟩, trivial, trivial, trivial⟩
    intro e he
    rw [List.mem_singleton.1 he]
    exact ordered
  case reordered =>
    have turned : order.Reordered swapped :=
      ⟨_, _, rfl, ⟨_, _, rfl, .refl (.array []), _, _, rfl, rfl, rfl⟩,
        .inr ⟨by decide, .swap _ _ _⟩⟩
    have values : Json.Reordered (.object [("order", order)]) (.object [("order", swapped)]) :=
      ⟨_, _, rfl, ⟨_, _, rfl, turned, rfl⟩, .inl rfl⟩
    exact ⟨_, _, rfl, ⟨_, _, rfl, rfl, _, _, rfl, rfl, _, _, rfl, rfl, _, _, rfl, rfl,
      _, _, rfl, values, _, _, rfl, rfl, rfl⟩, .inl rfl⟩

end Courier
