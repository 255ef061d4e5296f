import Lending.Proofs.Calendar.RoundTrip
import Lending.Proofs.Json.RoundTrip
import Lending.Store.Database

/-!
# Forms read back

Every value of the books has a plain JSON form, and what reads the form gives the value back; so
does a row of a database.

* `record_object`: the fields of a record that was written in order.
* `Row.decode_encode`: the text of a row.
-/

namespace Lending

open Json

/-! ## Shapes -/

namespace Json

@[simp]
theorem plain_string (s : String) : Plain (.string s) := .string s

@[simp]
theorem plain_nat (n : Nat) : Plain (.nat n) := .integer n

@[simp]
theorem plain_object (members : List (String × Json)) :
    Plain (.object members) ↔ ∀ member ∈ members, Plain member.2 :=
  ⟨fun h => by cases h; assumption, .object⟩

theorem plain_option {α : Type} {encode : α → Json} (h : ∀ a, Plain (encode a)) (x : Option α) :
    Plain (option encode x) := by
  cases x with
  | none => exact .null
  | some a => exact h a

theorem word_nat {bound n : Nat} (h : n < bound) : word bound (.nat n) = some n := by
  simp [word, nat, h]

@[simp]
theorem uint64_wordJson (n : UInt64) : uint64 (wordJson n) = some n := by
  simp [uint64, wordJson, word_nat n.toNat_lt_size]

@[simp]
theorem uint32_nat (n : UInt32) : uint32 (.nat n.toNat) = some n := by
  simp [uint32, word_nat n.toNat_lt_size]

@[simp]
theorem uint16_nat (n : UInt16) : uint16 (.nat n.toNat) = some n := by
  simp [uint16, word_nat n.toNat_lt_size]

@[simp]
theorem text_string (s : String) : text (.string s) = some s := rfl

@[simp]
theorem field_some {α : Type} (shape : Shape α) (j : Json) : field shape (some j) = shape j := rfl

theorem optionalField_option {α : Type} {shape : Shape α} {encode : α → Json}
    (hread : ∀ a, shape (encode a) = some a) (hnull : ∀ a, encode a ≠ .null) (x : Option α) :
    optionalField shape (some (option encode x)) = some x := by
  cases x with
  | none => rfl
  | some a =>
    unfold optionalField option
    split
    · rename_i heq
      exact absurd (Option.some.inj heq) (hnull a)
    · rename_i heq
      rw [← Option.some.inj heq, hread]
      rfl
    · contradiction

/-! ## Records -/

theorem member?_of_mem {members : List (String × Json)} (h : (members.map Prod.fst).Nodup)
    {member : String × Json} (hm : member ∈ members) :
    member? members member.1 = some (some member.2) := by
  have hfilter : members.filter (fun m => m.1 == member.1) = [member] := by
    induction members with
    | nil => cases hm
    | cons first rest ih =>
      simp only [List.map_cons, List.nodup_cons, List.mem_map, not_exists, not_and] at h
      rcases List.mem_cons.mp hm with rfl | hrest
      · have hothers : rest.filter (fun m => m.1 == member.1) = [] :=
          List.filter_eq_nil_iff.mpr fun m hm => by simpa using h.1 m hm
        simp [hothers]
      · have hne : first.1 ≠ member.1 := fun heq => h.1 member hrest heq.symm
        simpa [hne] using ih h.2 hrest
  simp only [member?, hfilter]

/-- The fields of a record that was written in order are its members. -/
theorem record_object {names : List String} {members : List (String × Json)}
    (hnames : members.map Prod.fst = names) (h : names.Nodup) :
    record names (.object members) = some (members.map fun member => some member.2) := by
  subst hnames
  have hall : ∀ part : List (String × Json), (∀ m ∈ part, m ∈ members) →
      (part.map Prod.fst).mapM (member? members) = some (part.map fun m => some m.2) := by
    intro part hmem
    induction part with
    | nil => rfl
    | cons m rest ih =>
      rw [List.map_cons, List.mapM_cons, member?_of_mem h (hmem m List.mem_cons_self),
        ih fun m hm => hmem m (List.mem_cons_of_mem _ hm)]
      rfl
  exact hall members fun _ hm => hm

end Json

/-! ## Parts -/

section Parts

@[simp]
theorem plain_wordJson (n : UInt64) : Plain (wordJson n) := plain_nat _

@[simp]
theorem Id.plain_toJson {e : Entity} (id : Id e) : Plain id.toJson := plain_wordJson _

@[simp]
theorem Id.ofJson?_toJson {e : Entity} (id : Id e) : Id.ofJson? id.toJson = some id := by
  simp [Id.ofJson?, Id.toJson]

@[simp]
theorem Amount.plain_toJson (a : Amount) : Plain a.toJson := plain_wordJson _

@[simp]
theorem Amount.ofJson?_toJson (a : Amount) : Amount.ofJson? a.toJson = some a := by
  simp [Amount.ofJson?, Amount.toJson, Amount.make, a.pos, Except.toOption]

@[simp]
theorem Currency.plain_toJson (c : Currency) : Plain c.toJson := plain_string _

@[simp]
theorem Currency.ofJson?_toJson (c : Currency) : Currency.ofJson? c.toJson = some c := by
  simp [Currency.ofJson?, Currency.toJson, Currency.make, c.valid, Except.toOption]

@[simp]
theorem PaymentMethod.plain_toJson (m : PaymentMethod) : Plain m.toJson := plain_string _

@[simp]
theorem PaymentMethod.ofJson?_toJson (m : PaymentMethod) :
    PaymentMethod.ofJson? m.toJson = some m := by
  simp [PaymentMethod.ofJson?, PaymentMethod.toJson, PaymentMethod.make, m.valid, Except.toOption]

@[simp]
theorem Date.plain_toJson (d : Date) : Plain d.toJson := plain_string _

@[simp]
theorem Date.ofJson?_toJson (d : Date) : Date.ofJson? d.toJson = some d := by
  simp [Date.ofJson?, Date.toJson, Date.parse?_toText]

@[simp]
theorem Instant.plain_toJson (t : Instant) : Plain t.toJson := plain_string _

@[simp]
theorem Instant.ofJson?_toJson (t : Instant) : Instant.ofJson? t.toJson = some t := by
  simp [Instant.ofJson?, Instant.toJson, Instant.parse?_toText]

/-- Each status is the one that its text stands for. -/
class Lifecycle.Legible (σ : Type) [Lifecycle σ] : Prop where
  ofText?_text : ∀ s : σ, Lifecycle.ofText? (Lifecycle.text s) = some s

instance : Lifecycle.Legible ApplicationStatus := ⟨fun s => by cases s <;> rfl⟩

instance : Lifecycle.Legible PaymentStatus := ⟨fun s => by cases s <;> rfl⟩

instance : Lifecycle.Legible InstallmentStatus := ⟨fun s => by cases s <;> rfl⟩

instance : Lifecycle.Legible LoanStatus := ⟨fun s => by cases s <;> rfl⟩

section Lifecycle

variable {σ : Type} [Lifecycle σ]

@[simp]
theorem Lifecycle.plain_toJson (s : σ) : Plain (Lifecycle.toJson s) := plain_string _

@[simp]
theorem Lifecycle.ofJson?_toJson [Lifecycle.Legible σ] (s : σ) :
    Lifecycle.ofJson? (Lifecycle.toJson s) = some s :=
  Lifecycle.Legible.ofText?_text s

end Lifecycle

@[simp]
theorem Owner.plain_toJson (o : Owner) : Plain o.toJson := by
  simp [Owner.toJson]

@[simp]
theorem Owner.ofJson?_toJson (o : Owner) : Owner.ofJson? o.toJson = some o := by
  rw [Owner.ofJson?, Owner.toJson, record_object]
  · cases o <;> simp [name, Owner.ofKind?, Owner.entity, Owner.number, Entity.name]
  · rfl
  · decide

end Parts

/-- A record is read field by field. -/
theorem field_bind {α β : Type} {shape : Shape α} {j : Json} {a : α} {f : α → Option β} {b : β}
    (hread : shape j = some a) (hrest : f a = some b) :
    (field shape (some j)).bind f = some b := by
  rw [field_some, hread, Option.bind_some, hrest]

theorem optionalField_bind {α β : Type} {shape : Shape α} {j : Json} {a : Option α}
    {f : Option α → Option β} {b : β} (hread : optionalField shape (some j) = some a)
    (hrest : f a = some b) : (optionalField shape (some j)).bind f = some b := by
  rw [hread, Option.bind_some, hrest]

/-! ## Rows -/

section Rows

@[simp]
theorem optionalField_instant (t : Option Instant) :
    optionalField Instant.ofJson? (some (option Instant.toJson t)) = some t :=
  optionalField_option Instant.ofJson?_toJson (fun _ => Json.noConfusion) t

@[simp]
theorem optionalField_date (d : Option Date) :
    optionalField Date.ofJson? (some (option Date.toJson d)) = some d :=
  optionalField_option Date.ofJson?_toJson (fun _ => Json.noConfusion) d

@[simp]
theorem optionalField_score (score : Option UInt16) :
    optionalField uint16 (some (option (fun score => .nat score.toNat) score)) = some score :=
  optionalField_option uint16_nat (fun _ => Json.noConfusion) score

theorem Installment.plain_toJson (i : Installment) : Plain i.toJson := by
  simp [Installment.toJson]

theorem Installment.ofJson?_toJson (i : Installment) : Installment.ofJson? i.toJson = some i := by
  rw [Installment.ofJson?, Installment.toJson, record_object]
  · exact field_bind (Id.ofJson?_toJson _) <| field_bind (Owner.ofJson?_toJson _) <|
      field_bind (uint32_nat _) <| field_bind (Date.ofJson?_toJson _) <|
      field_bind (Amount.ofJson?_toJson _) <| field_bind (Lifecycle.ofJson?_toJson _) rfl
  · rfl
  · decide

theorem Application.plain_toJson (a : Application) : Plain a.toJson := by
  simp [Application.toJson, plain_option]

theorem Application.ofJson?_toJson (a : Application) : Application.ofJson? a.toJson = some a := by
  rw [Application.ofJson?, Application.toJson, record_object]
  · exact field_bind (Id.ofJson?_toJson _) <| field_bind (text_string _) <|
      field_bind (Amount.ofJson?_toJson _) <| field_bind (Currency.ofJson?_toJson _) <|
      field_bind (Lifecycle.ofJson?_toJson _) <| field_bind (Instant.ofJson?_toJson _) <|
      optionalField_bind (optionalField_instant _) <| optionalField_bind (optionalField_score _) rfl
  · rfl
  · decide

theorem Payment.plain_toJson (p : Payment) : Plain p.toJson := by
  simp [Payment.toJson, plain_option]

theorem Payment.ofJson?_toJson (p : Payment) : Payment.ofJson? p.toJson = some p := by
  rw [Payment.ofJson?, Payment.toJson, record_object]
  · exact field_bind (Id.ofJson?_toJson _) <| field_bind (Id.ofJson?_toJson _) <|
      field_bind (text_string _) <| field_bind (text_string _) <|
      field_bind (Amount.ofJson?_toJson _) <| field_bind (Currency.ofJson?_toJson _) <|
      field_bind (PaymentMethod.ofJson?_toJson _) <| field_bind (Lifecycle.ofJson?_toJson _) <|
      field_bind (Instant.ofJson?_toJson _) <| optionalField_bind (optionalField_instant _) rfl
  · rfl
  · decide

theorem Loan.plain_toJson (l : Loan) : Plain l.toJson := by
  simp [Loan.toJson, plain_option]

theorem Loan.ofJson?_toJson (l : Loan) : Loan.ofJson? l.toJson = some l := by
  rw [Loan.ofJson?, Loan.toJson, record_object]
  · exact field_bind (Id.ofJson?_toJson _) <| field_bind (text_string _) <|
      field_bind (Amount.ofJson?_toJson _) <| field_bind (Currency.ofJson?_toJson _) <|
      field_bind (uint32_nat _) <| field_bind (uint32_nat _) <|
      field_bind (Lifecycle.ofJson?_toJson _) <| field_bind (uint64_wordJson _) <|
      field_bind (uint64_wordJson _) <| field_bind (Instant.ofJson?_toJson _) <|
      optionalField_bind (optionalField_instant _) <|
      optionalField_bind (optionalField_instant _) <| optionalField_bind (optionalField_date _) rfl
  · rfl
  · decide

theorem Repayment.plain_toJson (r : Repayment) : Plain r.toJson := by
  simp [Repayment.toJson]

theorem Repayment.ofJson?_toJson (r : Repayment) : Repayment.ofJson? r.toJson = some r := by
  rw [Repayment.ofJson?, Repayment.toJson, record_object]
  · exact field_bind (Id.ofJson?_toJson _) <| field_bind (Id.ofJson?_toJson _) <|
      field_bind (Amount.ofJson?_toJson _) <| field_bind (PaymentMethod.ofJson?_toJson _) <|
      field_bind (Instant.ofJson?_toJson _) rfl
  · rfl
  · decide

/-- Rows whose form is plain and is read as the row. -/
class Row.Legible (α : Type) [Row α] : Prop where
  plain : ∀ row : α, Plain (Row.toJson row)
  ofJson?_toJson : ∀ row : α, Row.ofJson? (Row.toJson row) = some row

instance : Row.Legible Application := ⟨Application.plain_toJson, Application.ofJson?_toJson⟩

instance : Row.Legible Payment := ⟨Payment.plain_toJson, Payment.ofJson?_toJson⟩

instance : Row.Legible Installment := ⟨Installment.plain_toJson, Installment.ofJson?_toJson⟩

instance : Row.Legible Loan := ⟨Loan.plain_toJson, Loan.ofJson?_toJson⟩

instance : Row.Legible Repayment := ⟨Repayment.plain_toJson, Repayment.ofJson?_toJson⟩

theorem Row.decode_encode {α : Type} [Row α] [Row.Legible α] (row : α) :
    Row.decode (Row.encode row) = .ok row := by
  simp [Row.decode, Row.encode, parse?_toText (Row.Legible.plain row),
    Row.Legible.ofJson?_toJson row]

end Rows

end Lending
