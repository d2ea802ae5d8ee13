import Courier.Proofs.Notification.Codecs

/-!
# Deliveries and dead letters are read back

A worker takes the text of a message for the very delivery, or dead letter, that was sent, as far as
JSON text can carry what is free in it: a text may be nested 127 levels deep, two of which a
delivery has of its own and one a dead letter, and a double is read as it was written only if it is
`Legible`.
-/

set_option autoImplicit false

namespace Courier

namespace Delivery

/-- A time that can be written, and values as they are read. -/
structure Wellformed (d : Delivery) : Prop where
  createdAt : d.createdAt.Datable
  metadata : ∀ m, d.metadata = some m → ∀ e ∈ m.entries, e.2.Canonical

/-- A text can carry what is free in it. -/
structure Legible (d : Delivery) : Prop where
  numbers : ∀ m, d.metadata = some m → ∀ e ∈ m.entries, e.2.Legible
  shallow : ∀ m, d.metadata = some m → ∀ e ∈ m.entries, e.2.nesting ≤ 125

variable {d : Delivery}

theorem nesting_le {n : Nat} (h : ∀ m, d.metadata = some m → ∀ e ∈ m.entries, e.2.nesting ≤ n) :
    (codec.encode d).nesting ≤ n + 2 := by
  -- only the map has depth
  have values : ∀ m, d.metadata = some m → Json.nestingFields m.entries ≤ n :=
    fun m hm => Json.nestingFields_le (h m hm)
  apply Shape.nesting_le
  simpa [shape, Slot.plain, Slot.present, Codec.uuid, Codec.label, Codec.string, Codec.time,
    Codec.dict, Codec.free, Json.nesting] using values

/-- **A worker reads the delivery that was sent.** -/
theorem ofText_text (formed : d.Wellformed) (legible : d.Legible) :
    Decoder.ofText codec.decode (codec.text d) = .ok d := by
  have ordered : d.Formed :=
    ⟨fun m hm e he => (formed.metadata m hm e he).ordered, formed.createdAt⟩
  exact lawful.ofText_text ordered legible.numbers (nesting_le legible.shallow)

end Delivery

namespace DeadLetter

/-- A time that can be written, and a value as it is read. -/
structure Wellformed (l : DeadLetter) : Prop where
  failedAt : l.failedAt.Datable
  message : l.message.Canonical

/-- A text can carry what is free in it. -/
structure Legible (l : DeadLetter) : Prop where
  numbers : l.message.Legible
  shallow : l.message.nesting ≤ 126

variable {l : DeadLetter}

theorem nesting_le (l : DeadLetter) : (codec.encode l).nesting ≤ l.message.nesting + 1 := by
  apply Shape.nesting_le
  simp [shape, Slot.plain, Codec.free, Codec.string, Codec.time, Codec.nat32, Codec.imap,
    Codec.natural, Json.nat, Json.nesting]

/-- **The dead letter that was kept is read back.** -/
theorem ofText_text (formed : l.Wellformed) (legible : l.Legible) :
    Decoder.ofText codec.decode (codec.text l) = .ok l :=
  lawful.ofText_text ⟨formed.message.ordered, formed.failedAt⟩ legible.numbers
    (Nat.le_trans l.nesting_le (Nat.succ_le_succ legible.shallow))

end DeadLetter

end Courier
