import Courier.Proofs.Pipeline.Course

/-!
# Reading a log

What the log of a run says about the store, the broker, the user service and the cache, each read
off on its own: the records that were to be created and those that were, what became of the
messages, whose last notification was reported, and the replies that were found and kept.

An order of events is said by splitting a log at an exchange. `split_inside` finds the place of an
exchange when one knows where it cannot be.
-/

set_option autoImplicit false

namespace Courier

namespace Exchange

/-- The record that the store is asked to create. -/
def creation? : Exchange Backend → Option Notification
  | ⟨.create _ record, _⟩ => some record
  | _ => none

/-- The record whose creation the store acknowledges. -/
def stored? : Exchange Backend → Option Notification
  | ⟨.create _ record, .ok ()⟩ => some record
  | _ => none

/-- What becomes of a message that is given to the broker. -/
def publication? : Exchange Backend → Option (Except PublishFailure Unit)
  | ⟨.publish _ _ _ _, answer⟩ => some answer
  | _ => none

/-- The user whose last notification is reported, and the time there is for it. -/
def tracking? : Exchange Backend → Option (String × Nat)
  | ⟨.track userId timeout, _⟩ => some (userId, timeout)
  | _ => none

/-- The reply that is found in the cache. -/
def hit? : Exchange Backend → Option Reply
  | ⟨.cacheGet _ _, answer⟩ => Replies.recalled answer
  | _ => none

/-- What the cache is asked to keep: the name of an entry, its text and how long. -/
def keeping? : Exchange Backend → Option (String × String × Nat)
  | ⟨.cacheSet _ name text ttl, _⟩ => some (name, text, ttl)
  | _ => none

end Exchange

namespace Backend

def creations (log : List (Exchange Backend)) : List Notification :=
  log.filterMap Exchange.creation?

def stored (log : List (Exchange Backend)) : List Notification := log.filterMap Exchange.stored?

def publications (log : List (Exchange Backend)) : List (Except PublishFailure Unit) :=
  log.filterMap Exchange.publication?

def trackings (log : List (Exchange Backend)) : List (String × Nat) :=
  log.filterMap Exchange.tracking?

def hits (log : List (Exchange Backend)) : List Reply := log.filterMap Exchange.hit?

def keepings (log : List (Exchange Backend)) : List (String × String × Nat) :=
  log.filterMap Exchange.keeping?

/-- Has the broker taken a message? -/
def accepted (log : List (Exchange Backend)) : Bool :=
  (publications log).any fun answer => answer.toOption.isSome

theorem accepted_append (early late : List (Exchange Backend)) :
    accepted (early ++ late) = (accepted early || accepted late) := by
  rw [accepted, publications, List.filterMap_append, List.any_append]
  rfl

/-- What a log says about the store, the broker and the user service. -/
structure Shows (log : List (Exchange Backend)) (asked kept : List Notification)
    (handed : List (Except PublishFailure Unit)) (noted : List (String × Nat)) : Prop where
  creations : creations log = asked
  stored : stored log = kept
  publications : publications log = handed
  trackings : trackings log = noted

/-- What a log says is said by its parts, one after the other. -/
theorem Shows.append {early late : List (Exchange Backend)} {a a' k k' : List Notification}
    {b b' : List (Except PublishFailure Unit)} {t t' : List (String × Nat)}
    (h : Shows early a k b t) (h' : Shows late a' k' b' t') :
    Shows (early ++ late) (a ++ a') (k ++ k') (b ++ b') (t ++ t') where
  creations := by rw [Backend.creations, List.filterMap_append, ← h.creations, ← h'.creations]; rfl
  stored := by rw [Backend.stored, List.filterMap_append, ← h.stored, ← h'.stored]; rfl
  publications := by
    rw [Backend.publications, List.filterMap_append, ← h.publications, ← h'.publications]; rfl
  trackings := by rw [Backend.trackings, List.filterMap_append, ← h.trackings, ← h'.trackings]; rfl

end Backend

/-! ## Time -/

/-- The time at which the question after a history is dealt with. It is what the clock shows, and it
does not run backwards. Questions may take as long as they like. -/
structure Timeline (w : Surroundings Backend) where
  time : List (Exchange Backend) → Nat
  mono : ∀ past more, time past ≤ time (past ++ more)
  shown : ∀ past, w past .now = time past

theorem length_le_append (past more : List (Exchange Backend)) :
    past.length ≤ (past ++ more).length := by
  rw [List.length_append]
  exact Nat.le_add_right _ _

/-! ## Around and inside -/

section

variable {α β : Type} {f : α → Option β} {opening log closing before later : List α} {x y : α}

/-- What a view sees lies inside if the view sees nothing around. -/
theorem split_inside (ho : ∀ x ∈ opening, f x = none) (hc : ∀ x ∈ closing, f x = none)
    (hy : f y ≠ none) (h : opening ++ (log ++ closing) = before ++ y :: later) :
    ∃ first last, log = first ++ y :: last ∧ before = opening ++ first := by
  -- by induction on the opening part, at each of whose exchanges the one that is sought does not
  -- stand
  induction opening generalizing before with
  | nil =>
    -- the exchange stands inside or in the closing part, where the view sees nothing
    rw [List.nil_append] at h
    rcases List.append_eq_append_iff.1 h with ⟨rest, -, hr⟩ | ⟨rest, hl, hr⟩
    · exact absurd (hc y (hr ▸ List.mem_append_right _ List.mem_cons_self)) hy
    · cases rest with
      | nil =>
        rw [List.nil_append] at hr
        exact absurd (hc y (hr ▸ List.mem_cons_self)) hy
      | cons z rest =>
        obtain ⟨rfl, -⟩ := List.cons.inj hr
        exact ⟨before, rest, hl, rfl⟩
  | cons z rest ih =>
    cases before with
    | nil =>
      obtain ⟨rfl, -⟩ := List.cons.inj h
      exact absurd (ho z List.mem_cons_self) hy
    | cons w before =>
      obtain ⟨rfl, hr⟩ := List.cons.inj h
      obtain ⟨first, last, hl, rfl⟩ := ih (fun x hx => ho x (List.mem_cons_of_mem _ hx)) hr
      exact ⟨first, last, hl, rfl⟩

/-- What a view sees once can be found in one place only. -/
theorem split_at (ho : ∀ x ∈ opening, f x = none) (hc : ∀ x ∈ closing, f x = none)
    (hy : f y ≠ none) (h : opening ++ x :: closing = before ++ y :: later) :
    before = opening ∧ y = x := by
  have hx : opening ++ ([x] ++ closing) = before ++ y :: later := h
  obtain ⟨first, last, hl, rfl⟩ := split_inside ho hc hy hx
  cases first with
  | nil => exact ⟨List.append_nil _, (List.cons.inj hl).1.symm⟩
  | cons z first => cases first <;> cases hl

theorem split_none (hl : ∀ x ∈ log, f x = none) (hy : f y ≠ none) : log ≠ before ++ y :: later := by
  rintro rfl
  exact hy (hl y (List.mem_append_right _ List.mem_cons_self))

end

end Courier
