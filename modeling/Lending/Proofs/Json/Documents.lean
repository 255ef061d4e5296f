import Lending.Policy
import Lending.Proofs.Json.Forms

/-!
# Documents read back

The forms that are made of rows and words: details with their schedule, tables of tiers, and
policies. A table of tiers is checked when it is read, and a policy that is written has all of its
fields, so none of them is filled in from the standard policy.

* `toText_reads_back`: every value of the library that has a form and a reader is read back from
  its text.
-/

namespace Lending

open Json

/-! ## Lists and closed records -/

namespace Json

theorem plain_list {α : Type} {encode : α → Json} (h : ∀ a, Plain (encode a)) (items : List α) :
    Plain (list encode items) := by
  refine .array fun j hj => ?_
  obtain ⟨a, -, rfl⟩ := List.mem_map.mp hj
  exact h a

theorem listOf_list {α : Type} {shape : Shape α} {encode : α → Json}
    (hread : ∀ a, shape (encode a) = some a) (items : List α) :
    listOf shape (list encode items) = some items := by
  unfold listOf list
  induction items with
  | nil => rfl
  | cons a rest ih =>
    simp only [List.map_cons, List.mapM_cons, hread] at ih ⊢
    rw [ih]
    rfl

@[simp]
theorem defaultField_some {α : Type} (shape : Shape α) (standard : α) (j : Json) :
    defaultField shape standard (some j) = shape j := rfl

/-- A record that was written in order has no foreign members. -/
theorem closedRecord_object {names : List String} {members : List (String × Json)}
    (hnames : members.map Prod.fst = names) (h : names.Nodup) :
    closedRecord names (.object members) = some (members.map fun member => some member.2) := by
  have hknown : (members.all fun member => names.contains member.1) = true := by
    rw [List.all_eq_true]
    intro member hm
    rw [List.contains_iff_mem, ← hnames]
    exact List.mem_map_of_mem hm
  have hrecord := record_object hnames h
  simp only [record] at hrecord
  simp only [closedRecord, hknown, if_true, hrecord]

end Json

theorem defaultField_bind {α β : Type} {shape : Shape α} {standard : α} {j : Json} {a : α}
    {f : α → Option β} {b : β} (hread : shape j = some a) (hrest : f a = some b) :
    (defaultField shape standard (some j)).bind f = some b := by
  rw [defaultField_some, hread, Option.bind_some, hrest]

/-! ## Tiers -/

theorem Tier.plain_toJson (t : Tier) : Plain t.toJson := by
  simp [Tier.toJson]

theorem Tier.ofJson?_toJson (t : Tier) : Tier.ofJson? t.toJson = some t := by
  rw [Tier.ofJson?, Tier.toJson, record_object]
  · exact field_bind (uint64_wordJson _) <| field_bind (uint32_nat _) rfl
  · rfl
  · decide

theorem Tiers.plain_toJson (t : Tiers) : Plain t.toJson := by
  simp [Tiers.toJson, plain_list Tier.plain_toJson]

/-- A table of tiers passes the checks that made it. -/
theorem Tiers.make_self (t : Tiers) : Tiers.make t.bands t.fallback = .ok t := by
  rw [Tiers.make, dif_pos t.positive, dif_pos t.ascending]

theorem Tiers.ofJson?_toJson (t : Tiers) : Tiers.ofJson? t.toJson = some t := by
  rw [Tiers.ofJson?, Tiers.toJson, record_object]
  · refine field_bind (listOf_list Tier.ofJson?_toJson _) <| field_bind (uint32_nat _) ?_
    rw [Tiers.make_self]
    rfl
  · rfl
  · decide

/-! ## Details -/

theorem PaymentDetails.plain_toJson (d : PaymentDetails) : Plain d.toJson := by
  simp [PaymentDetails.toJson, Payment.plain_toJson, plain_list Installment.plain_toJson]

theorem PaymentDetails.ofJson?_toJson (d : PaymentDetails) :
    PaymentDetails.ofJson? d.toJson = some d := by
  rw [PaymentDetails.ofJson?, PaymentDetails.toJson, record_object]
  · exact field_bind (Payment.ofJson?_toJson _) <|
      field_bind (listOf_list Installment.ofJson?_toJson _) rfl
  · rfl
  · decide

theorem LoanDetails.plain_toJson (d : LoanDetails) : Plain d.toJson := by
  simp [LoanDetails.toJson, Loan.plain_toJson, plain_list Installment.plain_toJson]

theorem LoanDetails.ofJson?_toJson (d : LoanDetails) : LoanDetails.ofJson? d.toJson = some d := by
  rw [LoanDetails.ofJson?, LoanDetails.toJson, record_object]
  · exact field_bind (Loan.ofJson?_toJson _) <|
      field_bind (listOf_list Installment.ofJson?_toJson _) rfl
  · rfl
  · decide

/-! ## Policies -/

theorem Policy.plain_toJson (p : Policy) : Plain p.toJson := by
  simp [Policy.toJson, Tiers.plain_toJson, plain_list plain_string]

/-- No check is made of the policy, so this holds of one that the engine cannot work by, too. -/
theorem Policy.ofJson?_toJson (p : Policy) : Policy.ofJson? p.toJson = some p := by
  rw [Policy.ofJson?, Policy.toJson, closedRecord_object]
  · exact defaultField_bind (uint16_nat _) <| defaultField_bind (listOf_list text_string _) <|
      defaultField_bind (listOf_list text_string _) <|
      defaultField_bind (Tiers.ofJson?_toJson _) <| defaultField_bind (uint64_wordJson _) <|
      defaultField_bind (uint64_wordJson _) <| defaultField_bind (uint32_nat _) rfl
  · rfl
  · decide

/-! ## Texts -/

/-- The text of every value is well-formed and is read as that value. -/
def ReadsBack {α : Type} (toJson : α → Json) (ofJson? : Shape α) : Prop :=
  ∀ a : α, (parse? (toJson a).toText).bind ofJson? = some a

theorem readsBack_of_plain {α : Type} {toJson : α → Json} {ofJson? : Shape α}
    (hplain : ∀ a, Plain (toJson a)) (hread : ∀ a, ofJson? (toJson a) = some a) :
    ReadsBack toJson ofJson? := by
  intro a
  rw [parse?_toText (hplain a), Option.bind_some, hread]

/-- Every value of the books, and every policy, is read back from its text; the texts of the rows
are those that a database keeps. -/
theorem toText_reads_back :
    (∀ a : Application, Row.decode (Row.encode a) = .ok a) ∧
    (∀ p : Payment, Row.decode (Row.encode p) = .ok p) ∧
    (∀ i : Installment, Row.decode (Row.encode i) = .ok i) ∧
    (∀ l : Loan, Row.decode (Row.encode l) = .ok l) ∧
    (∀ r : Repayment, Row.decode (Row.encode r) = .ok r) ∧
    ReadsBack PaymentDetails.toJson PaymentDetails.ofJson? ∧
    ReadsBack LoanDetails.toJson LoanDetails.ofJson? ∧
    ReadsBack Tiers.toJson Tiers.ofJson? ∧
    ReadsBack Policy.toJson Policy.ofJson? :=
  ⟨Row.decode_encode, Row.decode_encode, Row.decode_encode, Row.decode_encode, Row.decode_encode,
    readsBack_of_plain PaymentDetails.plain_toJson PaymentDetails.ofJson?_toJson,
    readsBack_of_plain LoanDetails.plain_toJson LoanDetails.ofJson?_toJson,
    readsBack_of_plain Tiers.plain_toJson Tiers.ofJson?_toJson,
    readsBack_of_plain Policy.plain_toJson Policy.ofJson?_toJson⟩

end Lending
