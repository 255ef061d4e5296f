import Lending.Engine.Program
import Lending.Policy
import Lending.Text.Blank

/-!
# Credit applications

Filing an application, deciding it by a score, and looking applications up. The parts that other
operations share are here, too: what a request must satisfy, and the verdict on a user.
-/

namespace Lending.Engine

open Operation

/-! ## What requests must satisfy -/

/-- Refuses the name of a user that is blank. -/
def checkUser (user : String) : Except Failure Unit :=
  if Text.isAllBlank user then .error (.invalid .emptyUser) else .ok ()

/-- Refuses a currency that the policy does not support. -/
def checkCurrency (policy : Policy) (currency : Currency) : Except Failure Unit :=
  if policy.supportsCurrency currency then .ok ()
  else .error (.invalid (.unsupportedCurrency currency.code))

/-- Refuses a payment method that the policy does not support. -/
def checkMethod (policy : Policy) (method : PaymentMethod) : Except Failure Unit :=
  if policy.supportsMethod method then .ok ()
  else .error (.invalid (.unsupportedMethod method.name))

/-! ## Verdicts -/

/-- Whether a user's score reaches the threshold. -/
structure Verdict where
  score : CreditScore
  approved : Bool

/-- Asks for a user's score, and compares it with the threshold of the policy. -/
def verdict (policy : Policy) (user : String) (limit : Deadline) : Operation Verdict := do
  let score ← score user limit
  pure { score, approved := policy.approvalThreshold ≤ score.value }

/-! ## Operations -/

/-- What an accepted request asks for. -/
def readApplication (policy : Policy) (r : ApplicationRequest) :
    Except Failure (Amount × Currency) := do
  checkUser r.user
  let amount ← Amount.make r.amount
  let currency ← Currency.make r.currency
  checkCurrency policy currency
  pure (amount, currency)

/-- Records a pending application. -/
def apply (policy : Policy) (r : ApplicationRequest) (limit : Deadline) :
    Operation ApplicationId := do
  let (amount, currency) ← require (readApplication policy r)
  check limit
  let created ← now
  let application ← call (.createApplication (.new r.user amount currency created))
  pure application.id

/-- Looks an application up; it fails if there is none. -/
def getApplication (id : ApplicationId) (limit : Deadline) : Operation Application := do
  found id (← boundedCall limit (.getApplication id))

/-- Approves or rejects a pending application, whoever reaches the threshold being approved. -/
def decideApplication (policy : Policy) (id : ApplicationId) (limit : Deadline) :
    Operation ApplicationStatus :=
  locked (.application id) limit do
    let application ← getApplication id limit
    if application.status ≠ .pending then
      throw (.invalidState .application id.value (Lifecycle.text application.status) .decide)
    let verdict ← verdict policy application.user limit
    let next : ApplicationStatus := if verdict.approved then .approved else .rejected
    let _ ← require (Lifecycle.advance id.value application.status next)
    check limit
    let decided ← now
    call (.updateApplication { application with
      status := next
      decidedAt := some decided
      creditScore := some verdict.score.value })
    pure next

/-- The applications of a user, by number. -/
def applicationsOfUser (user : String) (limit : Deadline) : Operation (List Application) :=
  boundedCall limit (.applicationsOfUser user)

end Lending.Engine
