import Lending.Json.Record
import Lending.Score

/-!
# Policy

The knobs of the engine: who is approved, what is supported, how payments are split and when they
settle. A policy is written as a JSON record without foreign members, in which every field may be
left out.

* `Policy.check`: what makes a policy usable.
* `Policy.load`: a policy from the bytes of a file.
-/

namespace Lending

open Json

/-- The knobs of the engine, with the values that it has when nothing is said. -/
structure Policy where
  /-- The lowest score that is approved. -/
  approvalThreshold : UInt16 := 650
  currencies : List String := ["USD", "EUR", "GBP", "MAD"]
  methods : List String := ["card", "bank_transfer", "wallet"]
  tiers : Tiers := .standard
  /-- Seconds until the gateway confirms a payment. -/
  settlementDelay : UInt64 := 5
  /-- Milliseconds that a command may take. -/
  requestTimeout : UInt64 := 30000
  /-- The longest term of a loan, in months. -/
  longestTerm : UInt32 := 360
  deriving DecidableEq

namespace Policy

/-! ## JSON form -/

/-- The names of the fields in a policy file, in the order of their declaration. -/
def fields : List String :=
  ["approval_threshold", "supported_currencies", "payment_methods", "installment_tiers",
    "settlement_delay_secs", "request_timeout_ms", "max_loan_term_months"]

/-- The JSON form of a policy, with every field. -/
def toJson (p : Policy) : Json :=
  .object [("approval_threshold", .nat p.approvalThreshold.toNat),
    ("supported_currencies", list .string p.currencies),
    ("payment_methods", list .string p.methods), ("installment_tiers", p.tiers.toJson),
    ("settlement_delay_secs", wordJson p.settlementDelay),
    ("request_timeout_ms", wordJson p.requestTimeout),
    ("max_loan_term_months", .nat p.longestTerm.toNat)]

/-- The policy of a JSON value. A field that is left out keeps its standard value. -/
def ofJson? : Shape Policy := fun j => do
  let standard : Policy := {}
  match ← closedRecord fields j with
  | [threshold, currencies, methods, tiers, delay, timeout, term] =>
    pure
      { approvalThreshold := ← defaultField uint16 standard.approvalThreshold threshold
        currencies := ← defaultField (listOf text) standard.currencies currencies
        methods := ← defaultField (listOf text) standard.methods methods
        tiers := ← defaultField Tiers.ofJson? standard.tiers tiers
        settlementDelay := ← defaultField uint64 standard.settlementDelay delay
        requestTimeout := ← defaultField uint64 standard.requestTimeout timeout
        longestTerm := ← defaultField uint32 standard.longestTerm term }
  | _ => none

/-! ## Checking -/

/-- One day. -/
def longestDelay : UInt64 := 86400

/-- Refuses a policy that the engine cannot work by, for the first reason in this order. -/
def check (p : Policy) : Except Failure Unit := do
  if p.approvalThreshold < lowestScore ∨ highestScore < p.approvalThreshold then
    throw (.invalid (.thresholdOutOfRange p.approvalThreshold))
  if p.currencies.isEmpty || p.methods.isEmpty then
    throw (.invalid .nothingSupported)
  p.currencies.forM fun code => discard (Currency.make code)
  p.methods.forM fun name => discard (PaymentMethod.make name)
  if longestDelay < p.settlementDelay then
    throw (.invalid .settlementDelayTooLong)
  if p.longestTerm = 0 then
    throw (.invalid .noLoanTerm)

/-- The policy that a JSON text spells, checked. -/
def parse (s : String) : Except Failure Policy :=
  match Json.parse? s >>= ofJson? with
  | some p => p.check.map fun _ => p
  | none => .error (.invalid .policyForm)

/-- The policy in a file with these bytes, which must be UTF-8. -/
def load (bytes : ByteArray) : Except Failure Policy :=
  match String.fromUTF8? bytes with
  | some s => parse s
  | none => .error .file

/-! ## Use -/

/-- Whether requests in this currency are accepted. -/
def supportsCurrency (p : Policy) (c : Currency) : Bool := p.currencies.contains c.code

/-- Whether payments and repayments may be made by this method. -/
def supportsMethod (p : Policy) (m : PaymentMethod) : Bool := p.methods.contains m.name

/-- The most milliseconds that a span of time has. -/
def longestSpan : Nat := 0x7FFFFFFFFFFFFFFF

/-- The settlement delay in milliseconds. A delay of more milliseconds than a signed word of 64 bits
counts is no delay; `check` accepts none of these. -/
def delayMillis (p : Policy) : Int :=
  let millis := p.settlementDelay.toNat * 1000
  if millis ≤ longestSpan then millis else 0

end Policy

end Lending
