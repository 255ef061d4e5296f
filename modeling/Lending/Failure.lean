import Lending.Calendar.Text
import Lending.Entity
import Lending.Text.Quoted

/-!
# Failures

Why an operation of the lending engine, its stores or its readers did not do what it was asked. A
failure is a cause; `Failure.message` is the one place that words it.
-/

namespace Lending

/-- Reasons for which a request or a policy is refused before anything is looked up. -/
inductive Invalid where
  | amountNotPositive
  | amountOverflow
  | currencyCode (code : String)
  | paymentMethod (method : String)
  | emptyUser
  | unsupportedCurrency (code : String)
  | unsupportedMethod (method : String)
  /-- The application belongs to another user than `user`. -/
  | foreignApplication (id : ApplicationId) (user : String)
  | currencyMismatch (requested granted : String)
  | loanTerm (longest months : UInt32)
  | repaymentTooLarge (amount remaining : UInt64)
  | duplicateOrder (order : String)
  | countNotPositive
  | boundsNotAscending
  | unsplittable (principal : UInt64) (count : UInt32)
  | dueDateOutOfRange (sequence : Nat) (start : Date)
  | notStarted (owner : Owner)
  | emptyBatch
  | mixedBatch
  /-- The policy is not the JSON form of one. -/
  | policyForm
  | thresholdOutOfRange (threshold : UInt16)
  | nothingSupported
  | settlementDelayTooLong
  | noLoanTerm
  | missingColumn (operation column : String)
  deriving DecidableEq

/-- What was asked of a thing whose status does not allow it. -/
inductive Attempt where
  | decide
  | acceptPayments
  | requestCollection
  | repay
  | settleByWebhook (owner : Owner)
  | moveTo (status : String)
  deriving DecidableEq

/-- What went wrong in a store. -/
inductive StorageFault where
  /-- The store refuses the call before it takes effect. -/
  | outage
  /-- A row is not the JSON form of its entity. -/
  | malformedRow
  /-- The highest key of a table has `length` bytes, which is not the length of an identity. -/
  | malformedKey (length : Nat)
  deriving DecidableEq

/-- Why an operation did not do what it was asked. The engine, the stores and the readers share
these causes. -/
inductive Failure where
  | invalid (reason : Invalid)
  | notFound (entity : Entity) (id : UInt64)
  | invalidState (entity : Entity) (id : UInt64) (status : String) (attempt : Attempt)
  | insufficientCredit (requested available : UInt64)
  | conflict (entity : Entity) (id : UInt64) (current requested : String)
  | unknownStatus (entity : Entity) (token : String)
  | scoreOutOfRange (score : UInt16)
  | timeout
  | storage (fault : StorageFault)
  /-- A row of a CSV text cannot be read. -/
  | csv
  /-- A file cannot be read. -/
  | file
  /-- A database cannot be opened. -/
  | database
  deriving DecidableEq

open Text

/-- The lowest and the highest credit score, as messages give the range. -/
def scoreRangeText : String := "300..=850"

/-- The words for a request or a policy that is refused. -/
def Invalid.message : Invalid → String
  | .amountNotPositive => "Amount must be positive"
  | .amountOverflow => "Amount overflow"
  | .currencyCode code => "Invalid currency code " ++ quoted code
  | .paymentMethod method => "Invalid payment method " ++ quoted method
  | .emptyUser => "User id must not be empty"
  | .unsupportedCurrency code => "Unsupported currency " ++ code
  | .unsupportedMethod method => "Unsupported payment method " ++ method
  | .foreignApplication id user =>
    "Credit application " ++ id.text ++ " does not belong to user " ++ user
  | .currencyMismatch requested granted =>
    "Payment currency " ++ requested ++ " does not match credit line currency " ++ granted
  | .loanTerm longest months =>
    "Loan term must be between 1 and " ++ numeral longest.toNat ++ " months, got " ++
      numeral months.toNat
  | .repaymentTooLarge amount remaining =>
    "Repayment " ++ numeral amount.toNat ++ " exceeds remaining amount " ++ numeral remaining.toNat
  | .duplicateOrder order => "Duplicate order id " ++ order
  | .countNotPositive => "Installment counts must be positive"
  | .boundsNotAscending => "Installment tier bounds must be strictly ascending"
  | .unsplittable principal count =>
    "Cannot split " ++ numeral principal.toNat ++ " into " ++ numeral count.toNat ++ " installments"
  | .dueDateOutOfRange sequence start =>
    "Due date " ++ numeral sequence ++ " months after " ++ start.toText ++ " is out of range"
  | .notStarted owner => owner.describe ++ " has not started; no schedule can be built"
  | .emptyBatch => "Empty installment batch"
  | .mixedBatch => "Installment batch spans several owners"
  | .policyForm => "Invalid config"
  | .thresholdOutOfRange threshold =>
    "approval_threshold " ++ numeral threshold.toNat ++ " outside " ++ scoreRangeText
  | .nothingSupported => "At least one currency and one payment method must be supported"
  | .settlementDelayTooLong => "settlement_delay_secs must not exceed 86400"
  | .noLoanTerm => "max_loan_term_months must be positive"
  | .missingColumn operation column =>
    "'" ++ operation ++ "' requires the '" ++ column ++ "' column"

/-- The words for what was asked, to stand after "cannot". -/
def Attempt.message : Attempt → String
  | .decide => "decide"
  | .acceptPayments => "accept payments"
  | .requestCollection => "request collection"
  | .repay => "repay"
  | .settleByWebhook owner =>
    "settle by webhook (" ++ owner.describe ++ " entries settle by repayment)"
  | .moveTo status => "move to " ++ status

/-- The words for a fault of a store. -/
def StorageFault.message : StorageFault → String
  | .outage => "disk full"
  | .malformedRow => "malformed row"
  | .malformedKey length => "Malformed key of " ++ numeral length ++ " bytes"

namespace Failure

/-- The words for a failure, as callers and the error stream see them. -/
def message : Failure → String
  | .invalid reason => "Validation error: " ++ reason.message
  | .notFound entity id => entity.name ++ " " ++ numeral id.toNat ++ " not found"
  | .invalidState entity id status attempt =>
    entity.name ++ " " ++ numeral id.toNat ++ " is " ++ status ++ "; cannot " ++ attempt.message
  | .insufficientCredit requested available =>
    "Insufficient credit: requested " ++ numeral requested.toNat ++ ", available " ++
      numeral available.toNat
  | .conflict entity id current requested =>
    entity.name ++ " " ++ numeral id.toNat ++ " is already " ++ current ++
      "; refusing transition to " ++ requested
  | .unknownStatus entity token => "Unknown " ++ entity.name ++ " status: " ++ quoted token
  | .scoreOutOfRange score =>
    "Credit scoring failed: score " ++ numeral score.toNat ++ " outside " ++ scoreRangeText
  | .timeout => "Deadline exceeded"
  | .storage fault => "Persistence error: " ++ fault.message
  | .csv => "CSV error"
  | .file => "IO error"
  | .database => "Database error"

/-- Whether the request itself is to blame, and not the engine or what it relies on. -/
def isClientError : Failure → Bool
  | .invalid _ | .notFound .. | .invalidState .. | .insufficientCredit .. | .conflict ..
  | .unknownStatus .. => true
  | .scoreOutOfRange _ | .timeout | .storage _ | .csv | .file | .database => false

end Failure

end Lending
