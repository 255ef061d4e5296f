import Lending.Proofs.Engine.Calls

/-!
# Covered entries

What was paid on a loan covers the entries of its schedule in turn. An entry is covered when the
amounts up to it, its own included, sum up to no more than was paid.

* `Loan.Balanced`: what was paid and what remains of a loan make up its principal.
* `CoveredUpTo`: the statuses of a schedule agree with what was paid.
* `coveredFrom_coverEntries`: they still agree after a repayment.
* `coveredFrom_failed`: they agree with what was paid when the loan is given up.
-/

namespace Lending

/-! ## Counters -/

/-- What was paid and what remains make up the principal. -/
def Loan.Balanced (loan : Loan) : Prop :=
  loan.totalPaid.toNat + loan.remaining.toNat = loan.principal.toNat

/-- A repayment of no more than what remains moves its amount from one counter to the other, and
neither of them wraps. -/
theorem Loan.Balanced.counters {loan : Loan} (h : loan.Balanced) {amount : Amount}
    (henough : amount.value ≤ loan.remaining) :
    amount.toNat ≤ loan.remaining.toNat ∧
      (loan.totalPaid + amount.value).toNat = loan.totalPaid.toNat + amount.toNat ∧
        (loan.remaining - amount.value).toNat = loan.remaining.toNat - amount.toNat := by
  have hbound := loan.principal.toNat_lt
  have henough' : amount.toNat ≤ loan.remaining.toNat := UInt64.le_iff_toNat_le.mp henough
  refine ⟨henough', ?_, UInt64.toNat_sub_of_le _ _ henough⟩
  rw [UInt64.toNat_add]
  exact Nat.mod_eq_of_lt (Nat.lt_of_le_of_lt (Nat.add_le_add_left henough' _) (h ▸ hbound))

/-! ## Entries -/

/-- The amounts of the entries up to number `k`, counted from 0. -/
def amountUpTo (schedule : List Installment) (k : Nat) : Nat :=
  ((schedule.take (k + 1)).map fun e => e.amount.toNat).sum

/-- The entries that `paid` covers are paid, and the others have the status `rest`. -/
def CoveredUpTo (paid : Nat) (rest : InstallmentStatus) (schedule : List Installment) : Prop :=
  ∀ k entry, schedule[k]? = some entry →
    entry.status = if amountUpTo schedule k ≤ paid then .paid else rest

/-- The same by recursion, of a schedule whose entries before sum up to `sum`. -/
def CoveredFrom (paid : Nat) (rest : InstallmentStatus) : Nat → List Installment → Prop
  | _, [] => True
  | sum, entry :: entries =>
    entry.status = (if sum + entry.amount.toNat ≤ paid then .paid else rest) ∧
      CoveredFrom paid rest (sum + entry.amount.toNat) entries

theorem coveredFrom_iff {paid sum : Nat} {rest : InstallmentStatus} {schedule : List Installment} :
    CoveredFrom paid rest sum schedule ↔ ∀ k entry, schedule[k]? = some entry →
      entry.status = if sum + amountUpTo schedule k ≤ paid then .paid else rest := by
  induction schedule generalizing sum with
  | nil => simp [CoveredFrom]
  | cons first entries ih =>
    have hzero : amountUpTo (first :: entries) 0 = first.amount.toNat := by simp [amountUpTo]
    have hsucc : ∀ k, amountUpTo (first :: entries) (k + 1) =
        first.amount.toNat + amountUpTo entries k := fun k => by
      simp [amountUpTo]
    rw [CoveredFrom, ih]
    constructor
    · rintro ⟨hfirst, hrest⟩ (_ | k) entry hentry
      · obtain rfl := Option.some.inj hentry
        rw [hfirst, hzero]
      · rw [hrest k entry hentry, hsucc, Nat.add_assoc]
    · intro h
      constructor
      · rw [h 0 first rfl, hzero]
      · intro k entry hentry
        rw [h (k + 1) entry hentry, hsucc, Nat.add_assoc]

theorem coveredUpTo_iff {paid : Nat} {rest : InstallmentStatus} {schedule : List Installment} :
    CoveredUpTo paid rest schedule ↔ CoveredFrom paid rest 0 schedule := by
  rw [coveredFrom_iff, CoveredUpTo]
  simp only [Nat.zero_add]

/-! ## Changes -/

section Changes

variable {before paid sum : Nat} {schedule : List Installment}

/-- Nothing covers nothing, since every entry is worth something. -/
theorem coveredFrom_zero (h : ∀ e ∈ schedule, e.status = .pending) :
    CoveredFrom 0 .pending sum schedule := by
  induction schedule generalizing sum with
  | nil => trivial
  | cons entry entries ih =>
    have hpos := entry.amount.toNat_pos
    rw [CoveredFrom, if_neg (by omega)]
    exact ⟨h entry List.mem_cons_self, ih fun e he => h e (List.mem_cons_of_mem _ he)⟩

/-- A repayment pays what is covered by then. The sum of the amounts must fit into a word. -/
theorem coveredFrom_coverEntries (h : CoveredFrom before .pending sum schedule)
    (hle : before ≤ paid)
    (hfits : sum + (schedule.map fun e => e.amount.toNat).sum < UInt64.size) :
    CoveredFrom paid .pending sum (coverEntries paid sum schedule).1 := by
  induction schedule generalizing sum with
  | nil => trivial
  | cons entry entries ih =>
    obtain ⟨hentry, hentries⟩ := h
    rw [List.map_cons, List.sum_cons] at hfits
    have hsum : min (sum + entry.amount.toNat) (UInt64.size - 1) = sum + entry.amount.toNat :=
      Nat.min_eq_left (by omega)
    have hrest := ih hentries (by omega)
    simp only [coverEntries, hsum]
    by_cases hcovered : sum + entry.amount.toNat ≤ paid
    · split
      · exact ⟨(if_pos hcovered).symm, hrest⟩
      · rename_i hnot
        -- an entry that is covered and not pending was paid before
        refine ⟨?_, hrest⟩
        rw [if_pos hcovered]
        split at hentry
        · exact hentry
        · exact absurd ⟨hcovered, hentry⟩ hnot
    · rw [if_neg fun hboth => hcovered hboth.1]
      refine ⟨?_, hrest⟩
      rw [hentry, if_neg (by omega), if_neg hcovered]

/-- The schedule after a repayment has the entries of before, those paid that are newly covered. -/
theorem coverEntries_fst (h : schedule.Nodup) :
    (coverEntries paid sum schedule).1 = schedule.map fun e =>
      { e with status := if e ∈ coveredEntries paid sum schedule then .paid else e.status } := by
  induction schedule generalizing sum with
  | nil => rfl
  | cons entry entries ih =>
    obtain ⟨hnew, hnodup⟩ := List.nodup_cons.mp h
    have hrest := @ih (min (sum + entry.amount.toNat) (UInt64.size - 1)) hnodup
    have hother : ∀ {e}, e ∈ entries → e ≠ entry := fun he heq => hnew (heq ▸ he)
    simp only [coverEntries, coveredEntries, List.map_cons]
    split
    · rw [hrest, if_pos List.mem_cons_self]
      apply congrArg (_ :: ·)
      apply List.map_congr_left
      intro e he
      simp only [List.mem_cons, hother he, false_or]
    · rw [hrest, if_neg fun he => hnew (Engine.mem_coveredEntries he).1]

end Changes

/-- The schedule after a repayment of `amount` on a loan. -/
def Loan.scheduleAfter (loan : Loan) (schedule : List Installment) (amount : Amount) :
    List Installment :=
  (coverEntries (loan.totalPaid + amount.value).toNat 0 schedule).1

theorem Loan.scheduleAfter_eq (loan : Loan) {schedule : List Installment} (h : schedule.Nodup)
    (amount : Amount) : loan.scheduleAfter schedule amount = schedule.map fun e =>
      { e with status := if e ∈ loan.newlyCovered schedule amount then .paid else e.status } :=
  coverEntries_fst h

section Failed

variable {paid sum : Nat} {schedule : List Installment}

/-- When a loan is given up, what is not covered fails. -/
theorem coveredFrom_failed (h : CoveredFrom paid .pending sum schedule) :
    CoveredFrom paid .failed sum (schedule.map fun e =>
      { e with status := if e.status = .pending then .failed else e.status }) := by
  induction schedule generalizing sum with
  | nil => trivial
  | cons entry entries ih =>
    obtain ⟨hentry, hentries⟩ := h
    refine ⟨?_, ih hentries⟩
    simp only [hentry]
    split <;> rfl

theorem pendingEntries_eq_nil (h : CoveredFrom paid .failed sum schedule) :
    pendingEntries schedule = [] := by
  induction schedule generalizing sum with
  | nil => rfl
  | cons entry entries ih =>
    obtain ⟨hentry, hentries⟩ := h
    have hstatus : entry.status ≠ .pending := by
      rw [hentry]
      split <;> nofun
    have hrest := ih hentries
    rw [pendingEntries] at hrest ⊢
    rw [List.filter_cons_of_neg (by simpa using hstatus), hrest]

end Failed

end Lending
