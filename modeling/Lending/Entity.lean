import Lending.Text.Digits

/-!
# What is lent, paid and owed: kinds and identities

The kinds of things the books hold, their identities, and what a schedule of installments belongs
to.
-/

namespace Lending

/-- The kinds of things that the books hold. -/
inductive Entity where
  | application
  | payment
  | installment
  | loan
  | repayment
  deriving DecidableEq

/-- The name of the kind in messages. -/
def Entity.name : Entity → String
  | .application => "credit application"
  | .payment => "payment"
  | .installment => "installment"
  | .loan => "loan"
  | .repayment => "repayment"

/-- The identity of a thing of kind `e`. -/
structure Id (e : Entity) where
  value : UInt64
  deriving DecidableEq

namespace Id

variable {e : Entity}

/-- The identity of a thing that no store has numbered yet. -/
def unassigned : Id e := ⟨0⟩

theorem value_injective {a b : Id e} (h : a.value = b.value) : a = b := by
  cases a; cases b; simp_all

instance : Ord (Id e) := ⟨fun a b => compare a.value b.value⟩

instance : Std.LawfulEqOrd (Id e) where
  compare_self := Std.compare_eq_iff_eq (α := UInt64).mpr rfl
  eq_of_compare h := value_injective (Std.compare_eq_iff_eq.mp h)

instance : Std.TransOrd (Id e) where
  eq_swap := Std.OrientedOrd.eq_swap (α := UInt64)
  isLE_trans := Std.TransOrd.isLE_trans (α := UInt64)

/-- The identity as messages and texts write it: its number in decimal. -/
def text (id : Id e) : String := Text.numeral id.value.toNat

end Id

/-- The identity of a credit application. -/
abbrev ApplicationId := Id .application
/-- The identity of a payment. -/
abbrev PaymentId := Id .payment
/-- The identity of an entry of a schedule. -/
abbrev InstallmentId := Id .installment
/-- The identity of a loan. -/
abbrev LoanId := Id .loan
/-- The identity of a repayment on a loan. -/
abbrev RepaymentId := Id .repayment

/-- What is paid back by a schedule: a payment drawn on a credit line, or a loan. -/
inductive Owner where
  | payment (id : PaymentId)
  | loan (id : LoanId)
  deriving DecidableEq

namespace Owner

/-- The kind of the owner. -/
def entity : Owner → Entity
  | .payment _ => .payment
  | .loan _ => .loan

/-- The number of the owner among those of its kind. -/
def number : Owner → UInt64
  | .payment id => id.value
  | .loan id => id.value

/-- The owner as messages name it. -/
def describe (o : Owner) : String := o.entity.name ++ " " ++ Text.numeral o.number.toNat

end Owner

end Lending
