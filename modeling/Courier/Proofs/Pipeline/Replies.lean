import Courier.Pipeline.Replies
import Courier.Proofs.Notification.Codecs

/-!
# Replies that are kept are found again

The text as which a reply is kept reads as the very reply, with all its fields (`read?_text`), and
entries of different keys have different names (`entryName_injective`).
-/

set_option autoImplicit false

namespace Courier

theorem Reply.nesting_le (r : Reply) : (codec.encode r).nesting ≤ 1 := by
  apply Shape.nesting_le
  simp [shape, Slot.plain, Slot.present, Codec.uuid, Codec.label, Codec.string, Codec.time,
    Json.nesting]

namespace Replies

theorem read?_text {r : Reply} (h : r.createdAt.Datable) : read? (Reply.codec.text r) = some r := by
  have shallow : (Reply.codec.encode r).nesting ≤ 127 := Nat.le_trans r.nesting_le (by decide)
  rw [read?, Reply.lawful.ofText_text h trivial shallow]
  rfl

theorem entryName_injective {a b : String} (h : entryName a = entryName b) : a = b := by
  rw [entryName, entryName, ← String.toList_inj, String.toList_append, String.toList_append] at h
  exact String.toList_inj.1 (List.append_cancel_left h)

end Replies

end Courier
