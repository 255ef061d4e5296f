import Lending.Engine.Loans

/-!
# Calls of the engine

The engine's interface as data: every operation that takes a deadline, with its arguments. `program`
says what a call does; a statement about every operation is a statement about every `EngineCall`.
-/

namespace Lending

/-- The operations of the engine with their arguments, but for their deadlines. -/
inductive EngineCall where
  | apply (request : ApplicationRequest)
  | decideApplication (id : ApplicationId)
  | getApplication (id : ApplicationId)
  | applicationsOfUser (user : String)
  | pay (request : PaymentRequest)
  | paymentDetails (id : PaymentId)
  | payments
  | allPaymentDetails
  | deliverPayment (id : PaymentId) (token : String)
  | deliverInstallment (id : InstallmentId) (token : String)
  | collect (id : InstallmentId)
  | fileLoan (request : LoanRequest)
  | decideLoan (id : LoanId)
  | activateLoan (id : LoanId)
  | repayLoan (id : LoanId) (request : RepaymentRequest)
  | defaultLoan (id : LoanId)
  | loanDetails (id : LoanId)
  | repaymentsOf (id : LoanId)
  | loansOfUser (user : String)

namespace EngineCall

/-- What a call answers when it succeeds. -/
@[reducible]
def Result : EngineCall → Type
  | apply _ => ApplicationId
  | decideApplication _ => ApplicationStatus
  | getApplication _ => Application
  | applicationsOfUser _ => List Application
  | pay _ => PaymentId
  | paymentDetails _ => PaymentDetails
  | payments => List Payment
  | allPaymentDetails => List PaymentDetails
  | deliverPayment _ _ => Engine.Ack
  | deliverInstallment _ _ => Engine.Ack
  | collect _ => Instant
  | fileLoan _ => LoanId
  | decideLoan _ => LoanStatus
  | activateLoan _ => LoanDetails
  | repayLoan _ _ => Loan
  | defaultLoan _ => Engine.Ack
  | loanDetails _ => LoanDetails
  | repaymentsOf _ => List Repayment
  | loansOfUser _ => List Loan

/-- What a call does under a policy within a deadline. -/
def program (policy : Policy) (limit : Deadline) : (call : EngineCall) → Operation call.Result
  | apply request => Engine.apply policy request limit
  | decideApplication id => Engine.decideApplication policy id limit
  | getApplication id => Engine.getApplication id limit
  | applicationsOfUser user => Engine.applicationsOfUser user limit
  | pay request => Engine.pay policy request limit
  | paymentDetails id => Engine.paymentDetails id limit
  | payments => Engine.payments limit
  | allPaymentDetails => Engine.allPaymentDetails limit
  | deliverPayment id token => Engine.deliverPayment policy id token limit
  | deliverInstallment id token => Engine.deliverInstallment id token limit
  | collect id => Engine.collect policy id limit
  | fileLoan request => Engine.fileLoan policy request limit
  | decideLoan id => Engine.decideLoan policy id limit
  | activateLoan id => Engine.activateLoan policy id limit
  | repayLoan id request => Engine.repayLoan policy id request limit
  | defaultLoan id => Engine.defaultLoan id limit
  | loanDetails id => Engine.loanDetails id limit
  | repaymentsOf id => Engine.repaymentsOf id limit
  | loansOfUser user => Engine.loansOfUser user limit

end EngineCall

end Lending
