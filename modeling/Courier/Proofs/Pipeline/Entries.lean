import Courier.Cache.Command
import Courier.Proofs.Pipeline.Log
import Courier.Proofs.Pipeline.Replies
import Courier.Proofs.Resilience.Race

/-!
# What the cache holds after a history

The entries of the cache follow from what it was asked to keep: under each name there is the text
that came last, until the time it was given is over (`entry`, `held`). A cache that keeps entries
answers accordingly and takes every entry, except that nobody waits for it longer than a context
lasts (`KeepsEntries`). Asking it for an entry changes nothing.

Entries are computed from the history, and not carried along as a state of the cache: what is held
under a name can then be said of any two histories that differ in other names only.
-/

set_option autoImplicit false

namespace Courier

open Backend (told keepings)

/-- The name of the entry that the cache is asked for. -/
def Exchange.lookup? : Exchange Backend → Option String
  | ⟨.cacheGet _ name, _⟩ => some name
  | _ => none

def Backend.lookups (log : List (Exchange Backend)) : List String :=
  log.filterMap Exchange.lookup?

open Backend (lookups)

/-- How long an entry is kept: whole seconds, and one at least. -/
def Cache.lifetime (ttl : Nat) : Nat := 1000 * max (ttl / 1000) 1

theorem Cache.keep_eq (name text : String) (ttl : Nat) :
    Command.keep name text ttl = .setEx name (lifetime ttl / 1000) text := by
  rw [lifetime, Nat.mul_div_cancel_left _ (by decide)]
  rfl

/-! ## Entries

What an honest cache holds under a name, computed from what has been written to it and when. It is
the last value written, until its time is over.
-/

/-- A text that is kept, and the time from which it is not. -/
structure Entry where
  text : String
  gone : Nat
  deriving DecidableEq, Repr

/-- What becomes of the entry under a name with a question asked at a time. -/
def Entry.after (name : String) (now : Nat) (e : Option Entry) (x : Exchange Backend) :
    Option Entry :=
  match x.keeping? with
  | some (other, text, ttl) => if other = name then some ⟨text, now + Cache.lifetime ttl⟩ else e
  | none => e

/-- The entry under a name when more has been asked than the history before. -/
def entryFrom (time : List (Exchange Backend) → Nat) (name : String) :
    List (Exchange Backend) → Option Entry → List (Exchange Backend) → Option Entry
  | _, e, [] => e
  | past, e, x :: rest => entryFrom time name (past ++ [x]) (Entry.after name (time past) e x) rest

/-- The entry under a name after a history. -/
def entry (time : List (Exchange Backend) → Nat) (past : List (Exchange Backend)) (name : String) :
    Option Entry :=
  entryFrom time name [] none past

/-- The text that is kept under a name at the end of a history. -/
def held (time : List (Exchange Backend) → Nat) (past : List (Exchange Backend)) (name : String) :
    Option String :=
  (entry time past name).bind fun e => if time past < e.gone then some e.text else none

section

variable {time : List (Exchange Backend) → Nat} {name : String}

theorem entryFrom_append (past early late : List (Exchange Backend)) (e : Option Entry) :
    entryFrom time name past e (early ++ late) =
      entryFrom time name (past ++ early) (entryFrom time name past e early) late := by
  induction early generalizing past e with
  | nil => rw [List.append_nil]; rfl
  | cons x early ih =>
    rw [List.cons_append, entryFrom, ih, entryFrom, List.append_assoc]
    rfl

theorem entry_append (past log : List (Exchange Backend)) :
    entry time (past ++ log) name = entryFrom time name past (entry time past name) log := by
  rw [entry, entryFrom_append, List.nil_append]
  rfl

/-- An entry stays as it is when nothing is kept under its name. -/
theorem entryFrom_of_others {past log : List (Exchange Backend)} {e : Option Entry}
    (others : ∀ k ∈ keepings log, k.1 ≠ name) : entryFrom time name past e log = e := by
  -- by induction on what is asked in addition, none of which is to be kept under the name
  induction log generalizing past with
  | nil => rfl
  | cons x log ih =>
    have unchanged : Entry.after name (time past) e x = e := by
      rw [Entry.after]
      cases hx : x.keeping? with
      | none => rfl
      | some k =>
        have mem : k ∈ keepings (x :: log) := List.mem_filterMap.2 ⟨x, List.mem_cons_self, hx⟩
        exact if_neg (others k mem)
    rw [entryFrom, unchanged]
    refine ih fun k hk => others k ?_
    rw [keepings, List.filterMap_cons]
    split
    · exact hk
    · exact List.mem_cons_of_mem _ hk

theorem entry_append_of_others {past log : List (Exchange Backend)}
    (others : ∀ k ∈ keepings log, k.1 ≠ name) :
    entry time (past ++ log) name = entry time past name := by
  rw [entry_append, entryFrom_of_others others]

end

/-! ## A cache that keeps entries

The assumptions on the cache of a history. It answers by its entries and takes what it is given,
unless the request is interrupted meanwhile.
-/

/-- The times of questions and answers: an answer comes after its question has been dealt with, and
before the next one is. -/
structure Schedule (w : Surroundings Backend) extends Timeline w where
  answered : List (Exchange Backend) → Nat
  dealt_le : ∀ past x, time past ≤ answered (past ++ [x])
  answered_le : ∀ past x, answered (past ++ [x]) ≤ time (past ++ [x])

/-- What the cache was asked to keep it has taken. -/
def Exchange.Taken : Exchange Backend → Prop
  | ⟨.cacheSet _ _ _ _, answer⟩ => answer = .ok (.ok ())
  | _ => True

/-- Where nothing was to be kept, everything that was has been taken. -/
theorem taken_of_keepings_nil {log : List (Exchange Backend)} (h : keepings log = []) :
    ∀ x ∈ log, x.Taken := by
  intro x hx
  have unkept : x.keeping? = none := List.filterMap_eq_nil_iff.1 h x hx
  obtain ⟨op, answer⟩ := x
  cases op with
  | cacheSet => cases unkept
  | _ => trivial

variable {w : Surroundings Backend}

/-- The cache makes no mistakes: it answers what it holds and takes what it is given. Only those who
wait for it may give up, when their context is interrupted. -/
structure KeepsEntries (line : Schedule w) : Prop where
  answers : ∀ past ctx name, (∀ x ∈ past, x.Taken) →
    w past (.cacheGet ctx name) = .ok (.ok (held line.time past name)) ∨
      ∃ why, w past (.cacheGet ctx name) = .error why ∧
        ctx.check (line.answered (past ++ [told (.cacheGet ctx name) (.error why)])) ≠ .ok ()
  takes : ∀ past ctx name text ttl, (∀ x ∈ past, x.Taken) →
    w past (.cacheSet ctx name text ttl) = .ok (.ok ()) ∨
      ∃ why, w past (.cacheSet ctx name text ttl) = .error why ∧
        ctx.check (line.answered (past ++ [told (.cacheSet ctx name text ttl) (.error why)])) ≠
          .ok ()

/-- No answer comes later than the last. -/
theorem Schedule.answered_mono (line : Schedule w) (past log : List (Exchange Backend))
    (x : Exchange Backend) (later : List (Exchange Backend)) :
    line.answered (past ++ log ++ [x]) ≤ line.answered (past ++ (log ++ x :: later)) := by
  rcases List.eq_nil_or_concat later with rfl | ⟨between, y, rfl⟩
  · exact Nat.le_of_eq (congrArg line.answered (List.append_assoc past log [x]))
  · rw [List.concat_eq_append]
    have split : past ++ (log ++ x :: (between ++ [y])) =
        past ++ log ++ [x] ++ between ++ [y] := by simp
    -- an answer, the next question, a later question and its answer
    calc line.answered (past ++ log ++ [x])
      _ ≤ line.time (past ++ log ++ [x]) := line.answered_le _ _
      _ ≤ line.time (past ++ log ++ [x] ++ between) := line.mono _ _
      _ ≤ line.answered (past ++ log ++ [x] ++ between ++ [y]) := line.dealt_le _ _
      _ = line.answered (past ++ (log ++ x :: (between ++ [y]))) := by rw [split]

end Courier
