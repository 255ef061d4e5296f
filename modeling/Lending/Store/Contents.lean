import Lending.Engine.World

/-!
# The contents of a store

Everything that a store holds, as its own look-ups show it: the applications, the payments and the
loans, the schedule of each payment and each loan, and the repayments on each loan.
-/

namespace Lending

/-- What a store holds, with schedules and repayments by owner. -/
structure Contents where
  applications : List Application
  payments : List Payment
  loans : List Loan
  /-- The schedules of the payments, and then of the loans. -/
  schedules : List (List Installment)
  /-- The repayments on each loan. -/
  repayments : List (List Repayment)
  deriving DecidableEq

namespace Store

/-- The result of a call that is made to look only. -/
def look (s : Store) (call : StoreCall) : Except Failure call.Result := (s.answer call).map Prod.fst

/-- Everything that the store holds; it fails if a look-up fails. -/
def contents (s : Store) : Except Failure Contents := do
  let applications ← s.look .listApplications
  let payments ← s.look .listPayments
  let loans ← s.look .listLoans
  let ofPayments ← payments.mapM fun p => s.look (.installmentsOf (.payment p.id))
  let ofLoans ← loans.mapM fun l => s.look (.installmentsOf (.loan l.id))
  let repayments ← loans.mapM fun l => s.look (.repaymentsOf l.id)
  pure { applications, payments, loans, schedules := ofPayments ++ ofLoans, repayments }

end Store

end Lending
