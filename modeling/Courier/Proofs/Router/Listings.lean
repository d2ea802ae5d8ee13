import Courier.Proofs.Http.Forms
import Courier.Proofs.Json.Text
import Courier.Proofs.Router.Calls

/-!
# Calls for lists

A call for a list names a user, a length and a place in its query. Whoever and whatever that is, it
can be spelled (`listing_lists`): a number by its digits, and all of it as a form. The answer is
what becomes of the list that the pipeline asks for (`handle_lists`).
-/

set_option autoImplicit false

namespace Courier

namespace Text

variable {bound acc : Nat} {overflow : NumeralFault}

/-- Digits that are read leave a number to which more may be added. -/
theorem readDigits_append {cs : List Char} {m : Nat} (h : readDigits bound overflow acc cs = .ok m)
    (more : List Char) :
    readDigits bound overflow acc (cs ++ more) = readDigits bound overflow m more := by
  -- by induction on the digits in front; a bound that they keep is kept on the way
  induction cs generalizing acc with
  | nil =>
    cases h
    rfl
  | cons c cs ih =>
    simp only [List.cons_append, readDigits] at h ⊢
    split at h
    · cases h
    · split at h
      · rw [if_pos ‹_›]
        exact ih h
      · cases h

/-- The digits of a number are read as the number. -/
theorem readDigits_toDigits {n : Nat} (le : n ≤ bound) :
    readDigits bound overflow 0 (Nat.toDigits 10 n) = .ok n := by
  -- by induction on the number, the digits of a tenth of which stand before its last one
  induction n using Nat.strongRecOn with
  | ind n ih =>
    rw [Nat.toDigits_eq_if (by decide)]
    split
    · next small => simp [readDigits, digitValue?_digitChar small, le]
    · next large =>
      rw [readDigits_append (ih (n / 10) (by omega) (by omega))]
      have last : 10 * (n / 10) + n % 10 = n := Nat.div_add_mod n 10
      simp [readDigits, digitValue?_digitChar (Nat.mod_lt n (by decide)), last, le]

/-- A number within the bounds is read as itself. -/
theorem readInt_repr {below above : Nat} {i : Int} (low : -(below : Int) ≤ i) (high : i ≤ above) :
    readInt below above i.repr = .ok i := by
  rw [readInt, Int.repr_eq_if]
  by_cases sign : 0 ≤ i
  · obtain ⟨c, cs, front, digit⟩ := Scan.toDigits_front i.toNat
    have plus : c ≠ '+' := by rintro rfl; cases digit
    have minus : c ≠ '-' := by rintro rfl; cases digit
    have read : readDigits above .tooLarge 0 (c :: cs) = .ok i.toNat :=
      front ▸ readDigits_toDigits (by omega)
    rw [if_pos sign, Nat.toList_repr, front]
    split
    case h_6 => simp only [read, Except.map, Int.ofNat_eq_natCast, Int.toNat_of_nonneg sign]
    all_goals simp_all
  · obtain ⟨c, cs, front, -⟩ := Scan.toDigits_front (-i).toNat
    have read : readDigits below .tooSmall 0 (c :: cs) = .ok (-i).toNat :=
      front ▸ readDigits_toDigits (by omega)
    have spelled : ("-" ++ (-i).toNat.repr).toList = '-' :: c :: cs := by
      rw [String.toList_append, Nat.toList_repr, front]
      rfl
    rw [if_neg sign, spelled]
    simp only [read, Except.map]
    exact congrArg Except.ok (by rw [Int.ofNat_eq_natCast]; omega)

end Text

namespace Router

/-- The call asks for a list. -/
structure Call.Lists (call : Call) (q : ListQuery) : Prop where
  method : call.method = "GET"
  path : call.path = "/api/v1/notifications"
  query : readListQuery call.query = .ok q

/-- A list is got from the store within the time of a request. -/
def listed (p : Pipeline) (q : ListQuery) : Flow Backend (Except Failure (List Notification)) := do
  Pipeline.list (← p.requestContext) q.userId q.page q.start

variable {s : Service} {call : Call} {q : ListQuery}

theorem handle_lists (h : call.Lists q) :
    handle s call = listed s.pipeline q >>= fun result => pure (listAnswer result) := by
  have goes : route call.method call.path = .list := by rw [h.method, h.path]; decide
  rw [handle_eq_respond (by rw [h.method]; decide)]
  simp only [respond, goes, h.query, listed, Flow.bind_def, Flow.bind_assoc]

/-! ## Asking for a list -/

/-- The pairs of a query. -/
def ListQuery.pairs (q : ListQuery) : List (String × String) :=
  [("user_id", q.userId), ("limit", q.limit.repr), ("offset", q.offset.repr)]

/-- The call that asks for a list. -/
def listing (q : ListQuery) : Call where
  method := "GET"
  path := "/api/v1/notifications"
  query := String.ofList (Http.form q.pairs)

/-- A number of 64 bits. -/
def Whole (i : Int) : Prop := -9223372036854775808 ≤ i ∧ i ≤ 9223372036854775807

theorem readWhole_repr {i : Int} (h : Whole i) (name : String) : readWhole name i.repr = .ok i := by
  rw [readWhole, Text.readInt_repr h.1 h.2]

/-- **Every list can be asked for**: of any user, however the name is spelled, and by any numbers of
64 bits. -/
theorem listing_lists {q : ListQuery} (limit : Whole q.limit) (offset : Whole q.offset) :
    (listing q).Lists q := by
  refine ⟨rfl, rfl, ?_⟩
  rw [readListQuery, listing, String.toList_ofList, Http.formPairs_form]
  simp only [ListQuery.pairs, List.foldlM_cons, List.foldlM_nil, ListDraft.take,
    readWhole_repr limit, readWhole_repr offset]
  rfl

end Router

end Courier
