import Lending.Schedule
import Lending.Status

/-!
# Installments

The entries of a schedule. Payments and loans have schedules of one kind; each schedule is written
at once, for one owner.
-/

namespace Lending

/-- An entry of a schedule: a part of a payment or a loan, with the day on which it is due. -/
structure Installment where
  id : InstallmentId
  owner : Owner
  /-- Place in the schedule, from 1. -/
  sequence : UInt32
  dueDate : Date
  amount : Amount
  status : InstallmentStatus
  deriving DecidableEq

/-- The refusal to give an owner a second schedule. -/
def Owner.alreadyScheduled (owner : Owner) : Failure :=
  .conflict owner.entity owner.number "SCHEDULED" "SCHEDULED"

/-- The owner of a batch of entries, all of which must have the same. -/
def batchOwner (batch : List Installment) : Except Failure Owner :=
  match batch with
  | [] => .error (.invalid .emptyBatch)
  | first :: rest =>
    if rest.all fun entry => entry.owner = first.owner then .ok first.owner
    else .error (.invalid .mixedBatch)

/-- The amounts of a schedule in 64-bit words, as the payment details report them. -/
def scheduledTotal (entries : List Installment) : UInt64 :=
  entries.foldl (fun total entry => total + entry.amount.value) 0

end Lending
