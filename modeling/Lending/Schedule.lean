import Lending.Money

/-!
# Schedules

Splitting a principal into dated installments. The installments are due month by month after a
start, carry equal shares of the principal, and the last one carries what division leaves over.

* `Tiers`: how many installments a payment gets, by its amount.
* `Strategy.count`: the number of installments, never more than the principal has minor units.
* `buildLines`: the split itself.
-/

namespace Lending

/-- Amounts below `below` are split into `count` installments. -/
structure Tier where
  below : UInt64
  count : UInt32
  deriving DecidableEq

/-- The bounds grow from tier to tier. -/
def boundsAscend : List Tier → Bool
  | a :: b :: rest => a.below < b.below && boundsAscend (b :: rest)
  | _ => true

/-- Every tier, and what is left over, gets at least one installment. -/
def countsPositive (bands : List Tier) (fallback : UInt32) : Bool :=
  fallback ≠ 0 && bands.all fun tier => tier.count ≠ 0

/-- A table of tiers. Amounts that no tier covers get `fallback` installments. -/
structure Tiers where
  bands : List Tier
  fallback : UInt32
  positive : countsPositive bands fallback = true
  ascending : boundsAscend bands = true
  deriving DecidableEq

namespace Tiers

/-- The table of these tiers, refused if a count is zero or the bounds do not grow. -/
def make (bands : List Tier) (fallback : UInt32) : Except Failure Tiers :=
  if positive : countsPositive bands fallback = true then
    if ascending : boundsAscend bands = true then
      .ok { bands, fallback, positive, ascending }
    else .error (.invalid .boundsNotAscending)
  else .error (.invalid .countNotPositive)

/-- Three installments below 1000, six below 5000, and twelve from there on. -/
def standard : Tiers where
  bands := [⟨1000, 3⟩, ⟨5000, 6⟩]
  fallback := 12
  positive := by decide
  ascending := by decide

/-- The count of the first tier whose bound lies above the amount. -/
def countFor (tiers : Tiers) (amount : Amount) : UInt32 :=
  match tiers.bands.find? fun tier => amount.value < tier.below with
  | some tier => tier.count
  | none => tiers.fallback

end Tiers

/-- How a principal becomes a number of installments. -/
inductive Strategy where
  /-- Chosen by the amount: for payments. -/
  | tiered (tiers : Tiers)
  /-- One a month: for loans. -/
  | fixedTerm (months : UInt32)

/-- The number of installments. It is capped by the principal, so that no installment is worth
nothing. -/
def Strategy.count (strategy : Strategy) (principal : Amount) : UInt32 :=
  let wanted := match strategy with
    | .tiered tiers => tiers.countFor principal
    | .fixedTerm months => months
  if wanted.toNat ≤ principal.toNat then wanted else principal.value.toUInt32

/-- An installment that no store has numbered yet. -/
structure Line where
  sequence : UInt32
  dueDate : Date
  amount : Amount
  deriving DecidableEq

/-- What each installment but the last carries. -/
def shareOf (principal count : Nat) : Nat := principal / count

/-- What the last installment carries. -/
def lastShareOf (principal count : Nat) : Nat := principal - shareOf principal count * (count - 1)

theorem shareOf_pos {principal count : Nat} (pos : 0 < count) (le : count ≤ principal) :
    0 < shareOf principal count := Nat.div_pos le pos

theorem shareOf_le (principal count : Nat) : shareOf principal count ≤ principal :=
  Nat.div_le_self ..

theorem shareOf_le_lastShareOf {principal count : Nat} (pos : 0 < count) :
    shareOf principal count ≤ lastShareOf principal count := by
  obtain ⟨n, rfl⟩ : ∃ n, count = n + 1 := ⟨count - 1, by omega⟩
  have h := Nat.div_mul_le_self principal (n + 1)
  simp only [shareOf, lastShareOf, Nat.add_sub_cancel]
  rw [Nat.mul_succ] at h
  omega

theorem lastShareOf_le (principal count : Nat) : lastShareOf principal count ≤ principal :=
  Nat.sub_le ..

/-- Line number `sequence` of `count` lines, due that many months after `start`. -/
def lineOf (principal : Amount) (count : Nat) (pos : 0 < count) (le : count ≤ principal.toNat)
    (start : Date) (sequence : Nat) : Line where
  sequence := UInt32.ofNat sequence
  dueDate := start.addMonths sequence
  amount :=
    have share_pos := shareOf_pos pos le
    have lt := principal.toNat_lt
    if sequence = count then
      Amount.ofNat (lastShareOf principal.toNat count)
        (Nat.lt_of_lt_of_le share_pos (shareOf_le_lastShareOf pos))
        (Nat.lt_of_le_of_lt (lastShareOf_le ..) lt)
    else
      Amount.ofNat (shareOf principal.toNat count) share_pos
        (Nat.lt_of_le_of_lt (shareOf_le ..) lt)

/-- The lines 1 to `count`. There are none if a line would be worth nothing or be due after the
last month of the calendar. -/
def buildLines (principal : Amount) (count : UInt32) (start : Date) :
    Except Failure (List Line) :=
  if h : 0 < count.toNat ∧ count.toNat ≤ principal.toNat then
    if count.toNat ≤ start.monthsLeft then
      .ok ((List.range' 1 count.toNat).map (lineOf principal count.toNat h.1 h.2 start))
    else .error (.invalid (.dueDateOutOfRange (start.monthsLeft + 1) start))
  else .error (.invalid (.unsplittable principal.value count))

/-- The lines into which the strategy splits a principal from a start on. -/
def Strategy.plan (strategy : Strategy) (principal : Amount) (start : Date) :
    Except Failure (List Line) :=
  buildLines principal (strategy.count principal) start

end Lending
