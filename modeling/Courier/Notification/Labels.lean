import Courier.Label

/-!
# Channels, statuses and priorities

The three label types of a notification. Each reads its labels exactly; a text that is none of them
is told with the name of its kind (`UnknownLabel`).
-/

set_option autoImplicit false

namespace Courier

/-- A way to reach a user. -/
inductive Channel where
  | email
  | push
  deriving DecidableEq, Repr, Inhabited

/-- What became of a notification. -/
inductive Status where
  | pending
  | queued
  | delivered
  | skipped
  | failed
  deriving DecidableEq, Repr, Inhabited

/-- How urgent a notification is. -/
inductive Priority where
  | low
  | normal
  | high
  | urgent
  deriving DecidableEq, Repr, Inhabited

namespace Channel

/-- The channel's name in requests, records, rows and routing keys alike. -/
def name : Channel → String
  | .email => "email"
  | .push => "push"

instance : Label Channel where
  all := [.email, .push]
  label := name
  label_inj {a b} h := by revert h; cases a <;> cases b <;> simp [name]
  mem_all a := by cases a <;> simp

/-- The key under which messages of a channel are routed. Each key has a queue of its own. -/
def routingKey (c : Channel) : String := c.name

end Channel

namespace Status

/-- The status's name. -/
def name : Status → String
  | .pending => "pending"
  | .queued => "queued"
  | .delivered => "delivered"
  | .skipped => "skipped"
  | .failed => "failed"

instance : Label Status where
  all := [.pending, .queued, .delivered, .skipped, .failed]
  label := name
  label_inj {a b} h := by revert h; cases a <;> cases b <;> simp [name]
  mem_all a := by cases a <;> simp

end Status

namespace Priority

/-- The priority's name. In requests a priority is a level instead. -/
def name : Priority → String
  | .low => "low"
  | .normal => "normal"
  | .high => "high"
  | .urgent => "urgent"

instance : Label Priority where
  all := [.low, .normal, .high, .urgent]
  label := name
  label_inj {a b} h := by revert h; cases a <;> cases b <;> simp [name]
  mem_all a := by cases a <;> simp

/-- Levels from 1 to 4 are the four priorities; any other level is normal (`from_level`). -/
def ofLevel (level : Int32) : Priority :=
  match level.toInt with
  | 1 => .low
  | 2 => .normal
  | 3 => .high
  | 4 => .urgent
  | _ => .normal

end Priority

/-- A text that is no label of its kind. -/
structure UnknownLabel where
  kind : String
  text : String
  deriving DecidableEq, Repr

namespace UnknownLabel

def message (u : UnknownLabel) : String := "unknown " ++ u.kind ++ " '" ++ u.text ++ "'"

/-- Reads a label; `kind` is what a message calls its type. -/
def read {α : Type} [Label α] (kind : String) (text : String) : Except UnknownLabel α :=
  match Label.parse? text with
  | some a => .ok a
  | none => .error ⟨kind, text⟩

end UnknownLabel

def Channel.read (s : String) : Except UnknownLabel Channel :=
  UnknownLabel.read "notification type" s

def Status.read (s : String) : Except UnknownLabel Status :=
  UnknownLabel.read "notification status" s

def Priority.read (s : String) : Except UnknownLabel Priority :=
  UnknownLabel.read "priority" s

end Courier
