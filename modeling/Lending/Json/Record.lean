import Lending.Json.Shape
import Lending.Record

/-!
# JSON forms of the records

Every record has one JSON form: an object of its fields in the order of their declaration, with
identities and amounts as integers, statuses and codes as strings, dates and instants as text, and
null for what is absent. `toJson` writes the form and `ofJson?` reads it; what it reads satisfies
the invariants of the types.
-/

namespace Lending

open Json

/-! ## Parts -/

/-- A word of 64 bits as a JSON number. -/
def wordJson (n : UInt64) : Json := .nat n.toNat

/-- The JSON form of an identity: its number. -/
def Id.toJson {e : Entity} (id : Id e) : Json := wordJson id.value

/-- A number as an identity. -/
def Id.ofJson? {e : Entity} : Shape (Id e) := fun j => (uint64 j).map Id.mk

/-- The JSON form of an amount: its minor units. -/
def Amount.toJson (a : Amount) : Json := wordJson a.value

/-- A positive number as an amount. -/
def Amount.ofJson? : Shape Amount := fun j => (uint64 j).bind fun n => (Amount.make n).toOption

/-- The JSON form of a currency: its code. -/
def Currency.toJson (c : Currency) : Json := .string c.code

/-- A text as the code of a currency. -/
def Currency.ofJson? : Shape Currency := fun j => (text j).bind fun s => (Currency.make s).toOption

/-- The JSON form of a payment method: its name. -/
def PaymentMethod.toJson (m : PaymentMethod) : Json := .string m.name

/-- A text as the name of a payment method. -/
def PaymentMethod.ofJson? : Shape PaymentMethod :=
  fun j => (text j).bind fun s => (PaymentMethod.make s).toOption

/-- The JSON form of a status: its text. -/
def Lifecycle.toJson {σ : Type} [Lifecycle σ] (s : σ) : Json := .string (Lifecycle.text s)

/-- A name as a status. -/
def Lifecycle.ofJson? {σ : Type} [Lifecycle σ] : Shape σ := name Lifecycle.ofText?

/-- The JSON form of a date: its text. -/
def Date.toJson (d : Date) : Json := .string d.toText

/-- A text as a date. -/
def Date.ofJson? : Shape Date := fun j => (text j).bind Date.parse?

/-- The JSON form of an instant: its text. -/
def Instant.toJson (t : Instant) : Json := .string t.toText

/-- A text as an instant. -/
def Instant.ofJson? : Shape Instant := fun j => (text j).bind Instant.parse?

/-! ## Tiers -/

/-- The names of the fields of a tier. -/
def Tier.fields : List String := ["below", "count"]

/-- The JSON form of a tier. -/
def Tier.toJson (t : Tier) : Json :=
  .object [("below", wordJson t.below), ("count", .nat t.count.toNat)]

/-- A tier from its JSON form. -/
def Tier.ofJson? : Shape Tier := fun j => do
  match ← record Tier.fields j with
  | [below, count] => pure { below := ← field uint64 below, count := ← field uint32 count }
  | _ => none

/-- The names of the fields of a table of tiers. -/
def Tiers.fields : List String := ["tiers", "fallback"]

/-- The JSON form of a table of tiers. -/
def Tiers.toJson (t : Tiers) : Json :=
  .object [("tiers", list Tier.toJson t.bands), ("fallback", .nat t.fallback.toNat)]

/-- A table of tiers from its JSON form, refused as `Tiers.make` refuses it. -/
def Tiers.ofJson? : Shape Tiers := fun j => do
  match ← record Tiers.fields j with
  | [bands, fallback] =>
    let bands ← field (listOf Tier.ofJson?) bands
    let fallback ← field uint32 fallback
    (Tiers.make bands fallback).toOption
  | _ => none

/-! ## Owners and installments -/

/-- The names of the fields of an owner. -/
def Owner.fields : List String := ["kind", "id"]

/-- The JSON form of an owner. -/
def Owner.toJson (o : Owner) : Json :=
  .object [("kind", .string o.entity.name), ("id", wordJson o.number)]

/-- The owner of number `id` of the kind that a name stands for. -/
def Owner.ofKind? (id : UInt64) (kind : String) : Option Owner :=
  if kind = Entity.payment.name then some (.payment ⟨id⟩)
  else if kind = Entity.loan.name then some (.loan ⟨id⟩)
  else none

/-- The kind of an owner has every form of a name in an object, but is a text in an array. -/
def Owner.ofJson? : Shape Owner := fun j => do
  match ← record Owner.fields j with
  | [kind, id] =>
    let id ← field uint64 id
    match j with
    | .array _ => (← field text kind) |> Owner.ofKind? id
    | _ => field (name (Owner.ofKind? id)) kind
  | _ => none

/-- The names of the fields of an entry of a schedule. -/
def Installment.fields : List String :=
  ["id", "owner", "sequence", "due_date", "amount", "status"]

/-- The JSON form of an entry of a schedule. -/
def Installment.toJson (i : Installment) : Json :=
  .object [("id", i.id.toJson), ("owner", i.owner.toJson), ("sequence", .nat i.sequence.toNat),
    ("due_date", i.dueDate.toJson), ("amount", i.amount.toJson),
    ("status", Lifecycle.toJson i.status)]

/-- An entry of a schedule from its JSON form. -/
def Installment.ofJson? : Shape Installment := fun j => do
  match ← record Installment.fields j with
  | [id, owner, sequence, dueDate, amount, status] =>
    pure
      { id := ← field Id.ofJson? id
        owner := ← field Owner.ofJson? owner
        sequence := ← field uint32 sequence
        dueDate := ← field Date.ofJson? dueDate
        amount := ← field Amount.ofJson? amount
        status := ← field Lifecycle.ofJson? status }
  | _ => none

/-! ## Applications, payments and loans -/

/-- The names of the fields of an application. -/
def Application.fields : List String :=
  ["id", "user_id", "amount", "currency", "status", "created_at", "decided_at", "credit_score"]

/-- The JSON form of an application. -/
def Application.toJson (a : Application) : Json :=
  .object [("id", a.id.toJson), ("user_id", .string a.user), ("amount", a.amount.toJson),
    ("currency", a.currency.toJson), ("status", Lifecycle.toJson a.status),
    ("created_at", a.createdAt.toJson), ("decided_at", option Instant.toJson a.decidedAt),
    ("credit_score", option (fun score => .nat score.toNat) a.creditScore)]

/-- An application from its JSON form. -/
def Application.ofJson? : Shape Application := fun j => do
  match ← record Application.fields j with
  | [id, user, amount, currency, status, createdAt, decidedAt, creditScore] =>
    pure
      { id := ← field Id.ofJson? id
        user := ← field text user
        amount := ← field Amount.ofJson? amount
        currency := ← field Currency.ofJson? currency
        status := ← field Lifecycle.ofJson? status
        createdAt := ← field Instant.ofJson? createdAt
        decidedAt := ← optionalField Instant.ofJson? decidedAt
        creditScore := ← optionalField uint16 creditScore }
  | _ => none

/-- The names of the fields of a payment. -/
def Payment.fields : List String :=
  ["id", "application_id", "user_id", "order_id", "amount", "currency", "method", "status",
    "created_at", "settled_at"]

/-- The JSON form of a payment. -/
def Payment.toJson (p : Payment) : Json :=
  .object [("id", p.id.toJson), ("application_id", p.application.toJson),
    ("user_id", .string p.user), ("order_id", .string p.order), ("amount", p.amount.toJson),
    ("currency", p.currency.toJson), ("method", p.method.toJson),
    ("status", Lifecycle.toJson p.status), ("created_at", p.createdAt.toJson),
    ("settled_at", option Instant.toJson p.settledAt)]

/-- A payment from its JSON form. -/
def Payment.ofJson? : Shape Payment := fun j => do
  match ← record Payment.fields j with
  | [id, application, user, order, amount, currency, method, status, createdAt, settledAt] =>
    pure
      { id := ← field Id.ofJson? id
        application := ← field Id.ofJson? application
        user := ← field text user
        order := ← field text order
        amount := ← field Amount.ofJson? amount
        currency := ← field Currency.ofJson? currency
        method := ← field PaymentMethod.ofJson? method
        status := ← field Lifecycle.ofJson? status
        createdAt := ← field Instant.ofJson? createdAt
        settledAt := ← optionalField Instant.ofJson? settledAt }
  | _ => none

/-- The names of the fields of a loan. -/
def Loan.fields : List String :=
  ["id", "user_id", "principal", "currency", "original_term", "remaining_term", "status",
    "remaining_amount", "total_paid", "created_at", "approved_at", "activated_at",
    "next_payment_date"]

/-- The JSON form of a loan. -/
def Loan.toJson (l : Loan) : Json :=
  .object [("id", l.id.toJson), ("user_id", .string l.user), ("principal", l.principal.toJson),
    ("currency", l.currency.toJson), ("original_term", .nat l.term.toNat),
    ("remaining_term", .nat l.remainingTerm.toNat), ("status", Lifecycle.toJson l.status),
    ("remaining_amount", wordJson l.remaining), ("total_paid", wordJson l.totalPaid),
    ("created_at", l.createdAt.toJson), ("approved_at", option Instant.toJson l.approvedAt),
    ("activated_at", option Instant.toJson l.activatedAt),
    ("next_payment_date", option Date.toJson l.nextPayment)]

/-- A loan from its JSON form. -/
def Loan.ofJson? : Shape Loan := fun j => do
  match ← record Loan.fields j with
  | [id, user, principal, currency, term, remainingTerm, status, remaining, totalPaid,
      createdAt, approvedAt, activatedAt, nextPayment] =>
    pure
      { id := ← field Id.ofJson? id
        user := ← field text user
        principal := ← field Amount.ofJson? principal
        currency := ← field Currency.ofJson? currency
        term := ← field uint32 term
        remainingTerm := ← field uint32 remainingTerm
        status := ← field Lifecycle.ofJson? status
        remaining := ← field uint64 remaining
        totalPaid := ← field uint64 totalPaid
        createdAt := ← field Instant.ofJson? createdAt
        approvedAt := ← optionalField Instant.ofJson? approvedAt
        activatedAt := ← optionalField Instant.ofJson? activatedAt
        nextPayment := ← optionalField Date.ofJson? nextPayment }
  | _ => none

/-- The names of the fields of a repayment. -/
def Repayment.fields : List String := ["id", "loan_id", "amount", "method", "paid_at"]

/-- The JSON form of a repayment. -/
def Repayment.toJson (r : Repayment) : Json :=
  .object [("id", r.id.toJson), ("loan_id", r.loan.toJson), ("amount", r.amount.toJson),
    ("method", r.method.toJson), ("paid_at", r.paidAt.toJson)]

/-- A repayment from its JSON form. -/
def Repayment.ofJson? : Shape Repayment := fun j => do
  match ← record Repayment.fields j with
  | [id, loan, amount, method, paidAt] =>
    pure
      { id := ← field Id.ofJson? id
        loan := ← field Id.ofJson? loan
        amount := ← field Amount.ofJson? amount
        method := ← field PaymentMethod.ofJson? method
        paidAt := ← field Instant.ofJson? paidAt }
  | _ => none

/-! ## Details and requests -/

/-- The names of the fields of a payment's details. -/
def PaymentDetails.fields : List String := ["payment", "installments"]

/-- The JSON form of a payment's details. -/
def PaymentDetails.toJson (d : PaymentDetails) : Json :=
  .object [("payment", d.payment.toJson), ("installments", list Installment.toJson d.installments)]

/-- A payment's details from its JSON form. -/
def PaymentDetails.ofJson? : Shape PaymentDetails := fun j => do
  match ← record PaymentDetails.fields j with
  | [payment, installments] =>
    pure
      { payment := ← field Payment.ofJson? payment
        installments := ← field (listOf Installment.ofJson?) installments }
  | _ => none

/-- The names of the fields of a loan's details. -/
def LoanDetails.fields : List String := ["loan", "schedule"]

/-- The JSON form of a loan's details. -/
def LoanDetails.toJson (d : LoanDetails) : Json :=
  .object [("loan", d.loan.toJson), ("schedule", list Installment.toJson d.schedule)]

/-- A loan's details from its JSON form. -/
def LoanDetails.ofJson? : Shape LoanDetails := fun j => do
  match ← record LoanDetails.fields j with
  | [loan, schedule] =>
    pure
      { loan := ← field Loan.ofJson? loan
        schedule := ← field (listOf Installment.ofJson?) schedule }
  | _ => none

/-- The names of the fields of a request to file an application. -/
def ApplicationRequest.fields : List String := ["user_id", "amount", "currency"]

/-- The JSON form of a request to file an application. -/
def ApplicationRequest.toJson (r : ApplicationRequest) : Json :=
  .object [("user_id", .string r.user), ("amount", wordJson r.amount),
    ("currency", .string r.currency)]

/-- A request to file an application from its JSON form. -/
def ApplicationRequest.ofJson? : Shape ApplicationRequest := fun j => do
  match ← record ApplicationRequest.fields j with
  | [user, amount, currency] =>
    pure
      { user := ← field text user
        amount := ← field uint64 amount
        currency := ← field text currency }
  | _ => none

/-- The names of the fields of a request to make a payment. -/
def PaymentRequest.fields : List String :=
  ["application_id", "user_id", "amount", "currency", "method"]

/-- The JSON form of a request to make a payment. -/
def PaymentRequest.toJson (r : PaymentRequest) : Json :=
  .object [("application_id", r.application.toJson), ("user_id", .string r.user),
    ("amount", wordJson r.amount), ("currency", .string r.currency), ("method", .string r.method)]

/-- A request to make a payment from its JSON form. -/
def PaymentRequest.ofJson? : Shape PaymentRequest := fun j => do
  match ← record PaymentRequest.fields j with
  | [application, user, amount, currency, method] =>
    pure
      { application := ← field Id.ofJson? application
        user := ← field text user
        amount := ← field uint64 amount
        currency := ← field text currency
        method := ← field text method }
  | _ => none

/-- The names of the fields of a request to file a loan. -/
def LoanRequest.fields : List String := ["user_id", "principal", "currency", "term_months"]

/-- The JSON form of a request to file a loan. -/
def LoanRequest.toJson (r : LoanRequest) : Json :=
  .object [("user_id", .string r.user), ("principal", wordJson r.principal),
    ("currency", .string r.currency), ("term_months", .nat r.term.toNat)]

/-- A request to file a loan from its JSON form. -/
def LoanRequest.ofJson? : Shape LoanRequest := fun j => do
  match ← record LoanRequest.fields j with
  | [user, principal, currency, term] =>
    pure
      { user := ← field text user
        principal := ← field uint64 principal
        currency := ← field text currency
        term := ← field uint32 term }
  | _ => none

/-- The names of the fields of a request to repay. -/
def RepaymentRequest.fields : List String := ["amount", "method"]

/-- The JSON form of a request to repay. -/
def RepaymentRequest.toJson (r : RepaymentRequest) : Json :=
  .object [("amount", wordJson r.amount), ("method", .string r.method)]

/-- A request to repay from its JSON form. -/
def RepaymentRequest.ofJson? : Shape RepaymentRequest := fun j => do
  match ← record RepaymentRequest.fields j with
  | [amount, method] =>
    pure { amount := ← field uint64 amount, method := ← field text method }
  | _ => none

end Lending
