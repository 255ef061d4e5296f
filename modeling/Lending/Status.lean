import Lending.Failure

/-!
# Statuses

The life of an application, a payment, an installment and a loan, each as a graph of statuses. The
graph is given by the successors of every status; `Lifecycle.advance` alone decides whether a
requested move applies, repeats the status reached before, or is refused.

The first write wins: once a status has no successor, asking for it again changes nothing, and
asking for another one is a conflict.
-/

namespace Lending

/-- A type of statuses with the graph of the moves between them. -/
class Lifecycle (σ : Type) where
  entity : Entity
  /-- Every status, in the order of the declaration. -/
  all : List σ
  text : σ → String
  /-- The statuses that one move leads to. -/
  successors : σ → List σ

namespace Lifecycle

variable {σ : Type} [Lifecycle σ]

/-- Whether no move leads on from the status. -/
def isTerminal (s : σ) : Bool := (successors s).isEmpty

/-- Whether one move leads from one status to the other. -/
def canMove [DecidableEq σ] (current next : σ) : Bool := decide (next ∈ successors current)

/-- The status of a text, if it is one. -/
def ofText? (text : String) : Option σ := all.find? fun s => Lifecycle.text s == text

/-- What a move that is not refused does. -/
inductive Transition where
  | applied
  /-- The status was reached before. -/
  | unchanged
  deriving DecidableEq

/-- What becomes of a move from `current` to `next` on thing number `id`: it applies, it repeats the
terminal status reached before, or it is refused. -/
def advance [DecidableEq σ] (id : UInt64) (current next : σ) : Except Failure Transition :=
  if current = next ∧ isTerminal current then .ok .unchanged
  else if canMove current next then .ok .applied
  else if isTerminal current then
    .error (.conflict (entity σ) id (text current) (text next))
  else .error (.invalidState (entity σ) id (text current) (.moveTo (text next)))

end Lifecycle

/-- The life of a credit application, which is decided once. -/
inductive ApplicationStatus where
  | pending
  | approved
  | rejected
  deriving DecidableEq

instance : Lifecycle ApplicationStatus where
  entity := .application
  all := [.pending, .approved, .rejected]
  text
    | .pending => "PENDING"
    | .approved => "APPROVED"
    | .rejected => "REJECTED"
  successors
    | .pending => [.approved, .rejected]
    | .approved | .rejected => []

/-- The life of a payment, whose outcome a gateway delivers. -/
inductive PaymentStatus where
  | pending
  | successful
  | failed
  deriving DecidableEq

instance : Lifecycle PaymentStatus where
  entity := .payment
  all := [.pending, .successful, .failed]
  text
    | .pending => "PENDING"
    | .successful => "SUCCESSFUL"
    | .failed => "FAILED"
  successors
    | .pending => [.successful, .failed]
    | .successful | .failed => []

/-- The life of an entry of a schedule. -/
inductive InstallmentStatus where
  | pending
  | paid
  | failed
  deriving DecidableEq

instance : Lifecycle InstallmentStatus where
  entity := .installment
  all := [.pending, .paid, .failed]
  text
    | .pending => "PENDING"
    | .paid => "PAID"
    | .failed => "FAILED"
  successors
    | .pending => [.paid, .failed]
    | .paid | .failed => []

/-- The life of a loan: it is decided, activated, and then paid or given up. -/
inductive LoanStatus where
  | pending
  | approved
  | rejected
  | active
  | paid
  | defaulted
  deriving DecidableEq

instance : Lifecycle LoanStatus where
  entity := .loan
  all := [.pending, .approved, .rejected, .active, .paid, .defaulted]
  text
    | .pending => "PENDING"
    | .approved => "APPROVED"
    | .rejected => "REJECTED"
    | .active => "ACTIVE"
    | .paid => "PAID"
    | .defaulted => "DEFAULTED"
  successors
    | .pending => [.approved, .rejected]
    | .approved => [.active]
    | .active => [.paid, .defaulted]
    | .rejected | .paid | .defaulted => []

/-! ## Tokens that a gateway delivers

Only an outcome can be delivered, so the tokens are the texts of the terminal statuses. -/

/-- The outcome that a token stands for. -/
def Lifecycle.ofToken (σ : Type) [Lifecycle σ] (token : String) : Except Failure σ :=
  match Lifecycle.ofText? (σ := σ) token with
  | some s => if isTerminal s then .ok s else .error (.unknownStatus (entity σ) token)
  | none => .error (.unknownStatus (entity σ) token)

end Lending
