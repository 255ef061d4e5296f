import Lending.Proofs.Store.Interchange

/-!
# Reopened databases

The counters of an archive are not written; an archive that is opened takes them from the highest
keys. Whatever calls went before, the reads do not notice, and the numbers that are given out from
then on lie above all that are in use, so nothing stored is written over. A counter and the highest
key part only where rows were removed: without removals the archive is the one that was closed.

* `Counters.AtMost`: a counter has counted no more rows than the calls have numbered. A run that
  numbers fewer rows than there are words therefore always finds the numbers that it needs.
* `StoreCall.Appends`: what a call leaves alone, and where it puts its new rows.
* `Ledger.Tight`: every counter stands at the highest number in use.
* `reopening_unseen`: the two runs, with and without closing.
-/

namespace Lending

/-! ## Calls in turn -/

/-- What a store goes on as: a call that fails leaves it as it was. -/
def goingOn {σ α : Type} (s : σ) : Except Failure (α × σ) → σ
  | .ok (_, s') => s'
  | .error _ => s

def Ledger.after (l : Ledger) (calls : List StoreCall) : Ledger :=
  calls.foldl (fun l call => goingOn l (l.answer call)) l

def Archive.after (s : Archive) (calls : List StoreCall) : Archive :=
  calls.foldl (fun s call => goingOn s (s.answer call)) s

theorem Ledger.Ordered.goingOn {l : Ledger} (h : l.Ordered) (call : StoreCall) :
    (goingOn l (l.answer call)).Ordered := by
  cases hanswer : l.answer call with
  | error => exact h
  | ok answered =>
    obtain ⟨result, l'⟩ := answered
    exact h.answer hanswer

/-- An archive goes on as its ledger does. -/
theorem Archive.after_ofLedger {l : Ledger} (h : l.Ordered) (calls : List StoreCall) :
    (ofLedger l).after calls = ofLedger (l.after calls) ∧ (l.after calls).Ordered := by
  induction calls generalizing l with
  | nil => exact ⟨rfl, h⟩
  | cons call rest ih =>
    have hstep : goingOn (ofLedger l) ((ofLedger l).answer call) =
        ofLedger (goingOn l (l.answer call)) := by
      rw [answer_ofLedger h]
      cases l.answer call <;> rfl
    have hrest := ih (h.goingOn call)
    rw [← hstep] at hrest
    exact hrest

/-! ## Reads -/

/-- The calls that look and change nothing. -/
def StoreCall.isRead : StoreCall → Bool
  | .getApplication _ | .listApplications | .applicationsOfUser _ | .getPayment _ | .listPayments
  | .paymentsOfApplication _ | .getInstallment _ | .installmentsOf _ | .getLoan _ | .listLoans
  | .loansOfUser _ | .repaymentsOf _ => true
  | _ => false

/-- A read succeeds, and what it finds does not hang on the counters. -/
theorem Ledger.answer_read (l : Ledger) {call : StoreCall} (h : call.isRead = true) :
    ∃ result, l.answer call = .ok (result, l) ∧
      ∀ counters, ({ l with counters } : Ledger).answer call =
        .ok (result, { l with counters }) := by
  cases call <;> first
    | exact ⟨_, rfl, fun _ => rfl⟩
    | cases h

/-! ## Numbers in a run -/

/-- How many rows the call numbers if it succeeds. -/
def StoreCall.rowsNumbered : StoreCall → Nat
  | .createApplication _ | .createPayment _ | .createLoan _ | .recordRepayment _ _ => 1
  | .createBatch batch => batch.length
  | _ => 0

/-- How many rows the calls number if all of them succeed. -/
def rowsNumbered (calls : List StoreCall) : Nat := (calls.map StoreCall.rowsNumbered).sum

@[simp]
theorem rowsNumbered_cons (call : StoreCall) (rest : List StoreCall) :
    rowsNumbered (call :: rest) = call.rowsNumbered + rowsNumbered rest := by
  simp [rowsNumbered]

@[simp]
theorem rowsNumbered_append (calls calls' : List StoreCall) :
    rowsNumbered (calls ++ calls') = rowsNumbered calls + rowsNumbered calls' := by
  simp [rowsNumbered]

/-- No counter is above `n`. -/
structure Counters.AtMost (c : Counters) (n : Nat) : Prop where
  application : c.application.toNat ≤ n
  payment : c.payment.toNat ≤ n
  installment : c.installment.toNat ≤ n
  loan : c.loan.toNat ≤ n
  repayment : c.repayment.toNat ≤ n

theorem Counters.AtMost.mono {c : Counters} {n m : Nat} (h : c.AtMost n) (hle : n ≤ m) :
    c.AtMost m where
  application := h.application.trans hle
  payment := h.payment.trans hle
  installment := h.installment.trans hle
  loan := h.loan.trans hle
  repayment := h.repayment.trans hle

theorem Counters.AtMost.left {c : Counters} {n : Nat} (h : c.AtMost n) {call : StoreCall}
    (hfew : n + call.rowsNumbered < UInt64.size) : c.Left call := by
  obtain ⟨happlication, hpayment, hinstallment, hloan, hrepayment⟩ := h
  cases call <;> simp only [Counters.Left, StoreCall.rowsNumbered] at hfew ⊢ <;> omega

namespace Ledger

variable {l l' : Ledger} {call : StoreCall} {result : call.Result}

theorem atMost_answer {n : Nat} (h : l.counters.AtMost n)
    (hfew : n + call.rowsNumbered < UInt64.size) (hanswer : l.answer call = .ok (result, l')) :
    l'.counters.AtMost (n + call.rowsNumbered) := by
  have hleft := h.left hfew
  have hlater := h.mono (Nat.le_add_right n call.rowsNumbered)
  cases call with
  | createApplication a =>
    obtain ⟨-, rfl⟩ := Prod.mk.inj (Except.ok.inj hanswer)
    have hnext := toNat_succ hleft
    exact { hlater with application := by rw [hnext]; exact Nat.succ_le_succ h.application }
  | createPayment p =>
    obtain ⟨-, -, rfl⟩ := createPayment_ok.mp hanswer
    have hnext := toNat_succ hleft
    exact { hlater with payment := by rw [hnext]; exact Nat.succ_le_succ h.payment }
  | createBatch batch =>
    obtain ⟨_, -, -, -, rfl⟩ := createBatch_ok.mp hanswer
    have hlast := toNat_numberBatch_snd hleft
    exact { hlater with
      installment := by rw [hlast]; exact Nat.add_le_add_right h.installment _ }
  | createLoan loan =>
    obtain ⟨-, rfl⟩ := Prod.mk.inj (Except.ok.inj hanswer)
    have hnext := toNat_succ hleft
    exact { hlater with loan := by rw [hnext]; exact Nat.succ_le_succ h.loan }
  | recordRepayment loan repayment =>
    obtain ⟨-, -, rfl⟩ := recordRepayment_ok.mp hanswer
    have hnext := toNat_succ hleft
    exact { hlater with repayment := by rw [hnext]; exact Nat.succ_le_succ h.repayment }
  | updateApplication a =>
    obtain ⟨-, rfl⟩ := update_ok.mp hanswer
    exact h
  | updatePayment p =>
    obtain ⟨-, rfl⟩ := update_ok.mp hanswer
    exact h
  | updateInstallment entry =>
    obtain ⟨-, rfl⟩ := update_ok.mp hanswer
    exact h
  | updateBatch batch =>
    obtain ⟨-, rfl⟩ := updateBatch_ok.mp hanswer
    exact h
  | updateLoan loan =>
    obtain ⟨-, rfl⟩ := update_ok.mp hanswer
    exact h
  | _ =>
    obtain ⟨-, rfl⟩ := Prod.mk.inj (Except.ok.inj hanswer)
    exact h

/-- The ledger is sound, and its counters have counted `n` rows at most. -/
structure Within (l : Ledger) (n : Nat) : Prop extends l.Sound where
  atMost : l.counters.AtMost n

theorem within_empty : ({} : Ledger).Within 0 :=
  ⟨sound_empty, ⟨Nat.le_refl 0, Nat.le_refl 0, Nat.le_refl 0, Nat.le_refl 0, Nat.le_refl 0⟩⟩

theorem Within.goingOn {n : Nat} (h : l.Within n)
    (hfew : n + call.rowsNumbered < UInt64.size) :
    (goingOn l (l.answer call)).Within (n + call.rowsNumbered) := by
  cases hanswer : l.answer call with
  | error => exact ⟨h.toSound, h.atMost.mono (Nat.le_add_right _ _)⟩
  | ok answered =>
    obtain ⟨result, l'⟩ := answered
    exact ⟨h.toSound.answer (h.atMost.left hfew) hanswer, atMost_answer h.atMost hfew hanswer⟩

theorem Within.after {n : Nat} (h : l.Within n) {calls : List StoreCall}
    (hfew : n + rowsNumbered calls < UInt64.size) :
    (l.after calls).Within (n + rowsNumbered calls) := by
  induction calls generalizing l n with
  | nil => exact h
  | cons call rest ih =>
    rw [rowsNumbered_cons, ← Nat.add_assoc] at hfew ⊢
    exact ih (h.goingOn (Nat.lt_of_le_of_lt (Nat.le_add_right _ _) hfew)) hfew

end Ledger

/-! ## Highest numbers -/

namespace Archive

section Highest

variable {e : Entity} {α : Type} {id : α → Id e} {t : Table (Id e) α}

theorem highest_le {last : UInt64} (h : t.UpTo last) : highest t ≤ last := by
  unfold highest
  cases hlast : t.rows.getLast? with
  | none => exact UInt64.zero_le
  | some row => exact h row (List.mem_of_getLast? hlast)

/-- In order, the highest number is that of the last row. -/
theorem highest_eq (h : t.Booked id) :
    highest t = (t.values.getLast?.map fun value => (id value).value).getD 0 := by
  unfold highest Table.values
  rw [List.getLast?_map]
  cases hlast : t.rows.getLast? with
  | none => rfl
  | some row => simp [h.keyed row (List.mem_of_getLast? hlast)]

theorem highest_insert_last (h : t.Booked id) {last : UInt64} (hupTo : t.UpTo last) (new : α)
    (hnew : last < (id new).value) : highest (t.insert (id new) new) = (id new).value := by
  rw [highest_eq (h.insert new), Table.values_insert_last hupTo hnew]
  simp

theorem highest_insert_known {key : Id e} (h : t.Ascending) (hknown : ∃ old, t.get? key = some old)
    (value : α) : highest (t.insert key value) = highest t := by
  obtain ⟨old, hget⟩ := hknown
  obtain ⟨before, after, hrows, hinsert⟩ := h.rows_insert_known hget
  rw [highest, highest, hrows, hinsert]
  cases after with
  | nil => simp
  | cons row rest => simp [List.getLast?_append, List.getLast?_cons]

end Highest

end Archive

/-- The last number of a batch is the last one given out. -/
theorem getLast?_numberBatch (last : UInt64) (batch : List Installment) :
    ((numberBatch last batch).1.getLast?.map fun entry => entry.id.value).getD last =
      (numberBatch last batch).2 := by
  induction batch generalizing last with
  | nil => rfl
  | cons entry rest ih =>
    rw [numberBatch, ← ih (last + 1)]
    simp only [List.getLast?_cons]
    cases (numberBatch (last + 1) rest).1.getLast? <;> rfl

theorem highest_insertBatch_known {t : Table InstallmentId Installment}
    (h : t.Booked Installment.id) {batch : List Installment}
    (hknown : ∀ entry ∈ batch, ∃ old, t.get? entry.id = some old) :
    Archive.highest (Ledger.insertBatch t batch) = Archive.highest t := by
  induction batch generalizing t with
  | nil => rfl
  | cons entry rest ih =>
    have hfirst := Archive.highest_insert_known h.ascending (hknown entry List.mem_cons_self) entry
    rw [← hfirst]
    refine ih (h.insert entry) fun other hother => ?_
    rw [Table.get?_insert]
    split
    · exact ⟨entry, rfl⟩
    · exact hknown other (List.mem_cons_of_mem _ hother)

/-! ## Tight counters -/

namespace Ledger

open Archive

/-- Every counter stands at the highest number in use: opening the database again changes
nothing. -/
def Tight (l : Ledger) : Prop := reopened l = l

theorem tight_iff {l : Ledger} :
    l.Tight ↔ highest l.applications = l.counters.application ∧
      highest l.payments = l.counters.payment ∧
      highest l.installments = l.counters.installment ∧ highest l.loans = l.counters.loan ∧
      highest l.repayments = l.counters.repayment := by
  obtain ⟨⟨⟩, _, _, _, _, _⟩ := l
  simp [Tight, reopened]

theorem tight_empty : ({} : Ledger).Tight := rfl

end Ledger

/-- How many rows an exchange removed. -/
def Exchange.removed : Exchange → Nat
  | ⟨.deleteInstallmentsOf _, .ok count⟩ => count
  | _ => 0

namespace Ledger

open Archive

variable {l l' : Ledger} {call : StoreCall} {result : call.Result}

/-- A removal that finds nothing leaves the table as it is. -/
theorem deleteInstallmentsOf_nothing {owner : Owner}
    (h : (l.deleteInstallmentsOf owner).1 = 0) : (l.deleteInstallmentsOf owner).2 = l := by
  simp only [deleteInstallmentsOf, Table.size, Table.filterRows] at h ⊢
  have hle := List.length_filter_le (fun row : InstallmentId × Installment =>
    decide (row.2.owner ≠ owner)) l.installments.rows
  have hlength := Nat.le_antisymm hle (Nat.sub_eq_zero_iff_le.mp h)
  rw [List.filter_eq_self.mpr (List.length_filter_eq_length_iff.mp hlength)]

/-- A call that removes no row keeps the counters tight. -/
theorem Tight.answer (h : l.Tight) (hl : l.Sound) (hleft : l.counters.Left call)
    (hanswer : l.answer call = .ok (result, l'))
    (hkept : (⟨call, .ok result⟩ : Exchange).removed = 0) : l'.Tight := by
  rw [tight_iff] at h
  obtain ⟨happlications, hpayments, hinstallments, hloans, hrepayments⟩ := h
  cases call with
  | createApplication a =>
    obtain ⟨-, rfl⟩ := Prod.mk.inj (Except.ok.inj hanswer)
    have hlast := highest_insert_last hl.applications hl.upToApplication
      { a with id := ⟨l.counters.application + 1⟩ } (lt_succ hleft)
    exact tight_iff.mpr ⟨hlast, hpayments, hinstallments, hloans, hrepayments⟩
  | updateApplication a =>
    obtain ⟨hknown, rfl⟩ := update_ok.mp hanswer
    have hsame := (highest_insert_known hl.applications.ascending hknown a).trans happlications
    exact tight_iff.mpr ⟨hsame, hpayments, hinstallments, hloans, hrepayments⟩
  | createPayment p =>
    obtain ⟨-, rfl, rfl⟩ := createPayment_ok.mp hanswer
    have hlast := highest_insert_last hl.payments hl.upToPayment
      { p with id := ⟨l.counters.payment + 1⟩ } (lt_succ hleft)
    exact tight_iff.mpr ⟨happlications, hlast, hinstallments, hloans, hrepayments⟩
  | updatePayment p =>
    obtain ⟨hknown, rfl⟩ := update_ok.mp hanswer
    have hsame := (highest_insert_known hl.payments.ascending hknown p).trans hpayments
    exact tight_iff.mpr ⟨happlications, hsame, hinstallments, hloans, hrepayments⟩
  | createBatch batch =>
    obtain ⟨_, -, -, rfl, rfl⟩ := createBatch_ok.mp hanswer
    obtain ⟨hbounds, hgrow⟩ := numberBatch_ascending hleft
    have hvalues := values_insertBatch hl.upToInstallment (fun e he => (hbounds e he).1) hgrow
    have hlast := highest_eq (insertBatch_booked hl.installments
      (numberBatch l.counters.installment batch).1)
    rw [hvalues, List.getLast?_append] at hlast
    have hnumbers := getLast?_numberBatch l.counters.installment batch
    rw [highest_eq hl.installments] at hinstallments
    refine tight_iff.mpr ⟨happlications, hpayments, ?_, hloans, hrepayments⟩
    rw [hlast]
    cases hend : (numberBatch l.counters.installment batch).1.getLast? with
    | none =>
      rw [hend] at hnumbers
      simpa [hinstallments] using hnumbers
    | some entry =>
      rw [hend] at hnumbers
      simpa using hnumbers
  | updateInstallment entry =>
    obtain ⟨hknown, rfl⟩ := update_ok.mp hanswer
    have hsame := (highest_insert_known hl.installments.ascending hknown entry).trans hinstallments
    exact tight_iff.mpr ⟨happlications, hpayments, hsame, hloans, hrepayments⟩
  | updateBatch batch =>
    obtain ⟨hknown, rfl⟩ := updateBatch_ok.mp hanswer
    have hsame := (highest_insertBatch_known hl.installments hknown).trans hinstallments
    exact tight_iff.mpr ⟨happlications, hpayments, hsame, hloans, hrepayments⟩
  | deleteInstallmentsOf owner =>
    obtain ⟨rfl, hafter⟩ := Prod.mk.inj (Except.ok.inj hanswer)
    rw [← hafter]
    exact (congrArg Tight (deleteInstallmentsOf_nothing hkept)).mpr
      (tight_iff.mpr ⟨happlications, hpayments, hinstallments, hloans, hrepayments⟩)
  | createLoan loan =>
    obtain ⟨-, rfl⟩ := Prod.mk.inj (Except.ok.inj hanswer)
    have hlast := highest_insert_last hl.loans hl.upToLoan
      { loan with id := ⟨l.counters.loan + 1⟩ } (lt_succ hleft)
    exact tight_iff.mpr ⟨happlications, hpayments, hinstallments, hlast, hrepayments⟩
  | updateLoan loan =>
    obtain ⟨hknown, rfl⟩ := update_ok.mp hanswer
    have hsame := (highest_insert_known hl.loans.ascending hknown loan).trans hloans
    exact tight_iff.mpr ⟨happlications, hpayments, hinstallments, hsame, hrepayments⟩
  | recordRepayment loan repayment =>
    obtain ⟨hknown, rfl, rfl⟩ := recordRepayment_ok.mp hanswer
    have hsame := (highest_insert_known hl.loans.ascending hknown loan).trans hloans
    have hlast := highest_insert_last hl.repayments hl.upToRepayment
      { repayment with id := ⟨l.counters.repayment + 1⟩ } (lt_succ hleft)
    exact tight_iff.mpr ⟨happlications, hpayments, hinstallments, hsame, hlast⟩
  | _ =>
    obtain ⟨-, rfl⟩ := Prod.mk.inj (Except.ok.inj hanswer)
    exact tight_iff.mpr ⟨happlications, hpayments, hinstallments, hloans, hrepayments⟩

theorem Tight.after {n : Nat} (h : l.Tight) (hl : l.Within n) {calls : List StoreCall}
    (hfew : n + rowsNumbered calls < UInt64.size)
    (hkept : ∀ exchange ∈ (Store.memory l).exchanges calls, exchange.removed = 0) :
    (l.after calls).Tight := by
  induction calls generalizing l n with
  | nil => exact h
  | cons call rest ih =>
    rw [rowsNumbered_cons, ← Nat.add_assoc] at hfew
    have hfirst : n + call.rowsNumbered < UInt64.size :=
      Nat.lt_of_le_of_lt (Nat.le_add_right _ _) hfew
    have hwithin := hl.goingOn hfirst
    cases hanswer : l.answer call with
    | error cause =>
      simp only [Store.exchanges, Store.answer, hanswer, Except.map, List.mem_cons,
        forall_eq_or_imp] at hkept
      rw [hanswer] at hwithin
      have hrest := ih h hwithin hfew hkept.2
      rw [Ledger.after, List.foldl_cons, hanswer]
      exact hrest
    | ok answered =>
      obtain ⟨result, l'⟩ := answered
      simp only [Store.exchanges, Store.answer, hanswer, Except.map, List.mem_cons,
        forall_eq_or_imp] at hkept
      rw [hanswer] at hwithin
      have htight := h.answer hl.toSound (hl.atMost.left hfirst) hanswer hkept.1
      have hrest := ih htight hwithin hfew hkept.2
      rw [Ledger.after, List.foldl_cons, hanswer]
      exact hrest

/-- The highest numbers in use are no higher than the counters. -/
theorem Within.reopened {n : Nat} (h : l.Within n) : (reopened l).Within n where
  toSound := reopened_sound h.toOrdered
  atMost :=
    { application := (UInt64.le_iff_toNat_le.mp (highest_le h.upToApplication)).trans
        h.atMost.application
      payment := (UInt64.le_iff_toNat_le.mp (highest_le h.upToPayment)).trans h.atMost.payment
      installment := (UInt64.le_iff_toNat_le.mp (highest_le h.upToInstallment)).trans
        h.atMost.installment
      loan := (UInt64.le_iff_toNat_le.mp (highest_le h.upToLoan)).trans h.atMost.loan
      repayment := (UInt64.le_iff_toNat_le.mp (highest_le h.upToRepayment)).trans
        h.atMost.repayment }

end Ledger

/-! ## What a call leaves alone -/

/-- The numbers that a call gave out, each with the table of its row. -/
def StoreCall.assigned : (call : StoreCall) → call.Result → List (TableName × UInt64)
  | .createApplication _, a => [(.applications, a.id.value)]
  | .createPayment _, p => [(.payments, p.id.value)]
  | .createBatch _, entries => entries.map fun entry => (.installments, entry.id.value)
  | .createLoan _, loan => [(.loans, loan.id.value)]
  | .recordRepayment _ _, r => [(.repayments, r.id.value)]
  | _, _ => []

/-- The rows that a call is asked to overwrite. -/
def StoreCall.replaces : StoreCall → List (TableName × UInt64)
  | .updateApplication a => [(.applications, a.id.value)]
  | .updatePayment p => [(.payments, p.id.value)]
  | .updateInstallment entry => [(.installments, entry.id.value)]
  | .updateBatch batch => batch.map fun entry => (.installments, entry.id.value)
  | .updateLoan loan | .recordRepayment loan _ => [(.loans, loan.id.value)]
  | _ => []

def StoreCall.isRemoval : StoreCall → Bool
  | .deleteInstallmentsOf _ => true
  | _ => false

namespace Database

/-- The text of the row that is stored under a number. -/
def rowAt (d : Database) (place : TableName × UInt64) : Option String :=
  (d.table place.1).get? (bigEndian place.2)

theorem rowAt_write {α : Type} [Row α] (d : Database) (row : α) {place : TableName × UInt64}
    (hne : place ≠ (Row.table α, (Row.id row).value)) :
    (Archive.write d row).rowAt place = d.rowAt place := by
  obtain ⟨name, number⟩ := place
  by_cases hname : name = Row.table α
  · subst hname
    have hkey : Row.key row ≠ bigEndian number := fun heq =>
      hne (congrArg _ (bigEndian_injective heq).symm)
    simp [rowAt, Archive.write, put, setTable, Table.get?_insert, hkey]
  · simp [rowAt, Archive.write, put, setTable, hname]

theorem rowAt_foldl_write {α : Type} [Row α] (d : Database) (rows : List α)
    {place : TableName × UInt64}
    (hne : ∀ row ∈ rows, place ≠ (Row.table α, (Row.id row).value)) :
    (rows.foldl Archive.write d).rowAt place = d.rowAt place := by
  induction rows generalizing d with
  | nil => rfl
  | cons row rest ih =>
    rw [List.foldl_cons, ih _ fun other hother => hne other (List.mem_cons_of_mem _ hother),
      rowAt_write d row (hne row List.mem_cons_self)]

end Database

/-- A call that turned the database `d` into `d'` put its new rows behind all that were there and
changed no stored row that it was not asked to overwrite, unless it removes rows. -/
structure StoreCall.Appends (call : StoreCall) (result : call.Result) (d d' : Database) :
    Prop where
  /-- A new number lies above all that are in use in its table. -/
  above : ∀ place ∈ call.assigned result, ∀ number text,
    d.rowAt (place.1, number) = some text → number < place.2
  /-- The new numbers grow. -/
  ascending : (call.assigned result).Pairwise fun a b => a.2 < b.2
  /-- A stored row stays as it is. -/
  kept : call.isRemoval = false → ∀ place text, place ∉ call.replaces →
    d.rowAt place = some text → d'.rowAt place = some text

namespace Ledger

open Archive Database

variable {l l' : Ledger} {call : StoreCall} {result : call.Result}

/-- What is stored under a number is a row of the table, so the number was counted. -/
theorem rowAt_le {α : Type} [Row α] {t : Table (Id (Row.entity α)) α} {last : UInt64}
    (hold : l.database.table (Row.table α) = Row.stored α t) (h : t.UpTo last) {number : UInt64}
    {text : String} (hrow : l.database.rowAt (Row.table α, number) = some text) :
    number ≤ last := by
  by_contra hgt
  have hnone : t.get? ⟨number⟩ = none := h.get?_eq_none (UInt64.not_le.mp hgt)
  have hget := Table.get?_map (g := Row.encode) numberKey_injective t ⟨number⟩
  rw [rowAt, hold, Row.stored] at hrow
  rw [hnone] at hget
  exact absurd (hrow.symm.trans hget) (by simp)

section NewRows

variable {α : Type} [Row α] {t : Table (Id (Row.entity α)) α} {last : UInt64}

/-- Rows with new numbers are written over nothing. -/
theorem rowAt_write_new (hold : l.database.table (Row.table α) = Row.stored α t)
    (h : t.UpTo last) (rows : List α) (hnew : ∀ row ∈ rows, last < (Row.id row).value)
    {place : TableName × UInt64} {text : String} (hrow : l.database.rowAt place = some text) :
    (rows.foldl write l.database).rowAt place = some text := by
  rw [rowAt_foldl_write, hrow]
  rintro row hmem rfl
  exact absurd (rowAt_le hold h hrow) (UInt64.not_le.mpr (hnew row hmem))

theorem appends_created (hold : l.database.table (Row.table α) = Row.stored α t)
    (h : t.UpTo last) (hleft : last.toNat + 1 < UInt64.size) (row : α)
    (hnumber : (Row.id row).value = last + 1) (hnew : l'.database = write l.database row)
    (hassigned : call.assigned result = [(Row.table α, (Row.id row).value)]) :
    call.Appends result l.database l'.database := by
  have habove : last < (Row.id row).value := by
    rw [hnumber]
    exact lt_succ hleft
  refine ⟨?_, ?_, ?_⟩
  · intro place hplace number text hrow
    rw [hassigned, List.mem_singleton] at hplace
    subst hplace
    exact UInt64.lt_of_le_of_lt (rowAt_le hold h hrow) habove
  · rw [hassigned]
    exact List.pairwise_singleton _ _
  · intro _ place text _ hrow
    rw [hnew]
    exact rowAt_write_new hold h [row] (by simpa using habove) hrow

theorem appends_updated (rows : List α) (hnew : l'.database = rows.foldl write l.database)
    (hassigned : call.assigned result = [])
    (hreplaces : call.replaces = rows.map fun row => (Row.table α, (Row.id row).value)) :
    call.Appends result l.database l'.database := by
  refine ⟨?_, ?_, ?_⟩
  · intro place hplace
    rw [hassigned] at hplace
    cases hplace
  · rw [hassigned]
    exact .nil
  · intro _ place text hplace hrow
    rw [hnew, rowAt_foldl_write, hrow]
    rintro row hmem rfl
    rw [hreplaces] at hplace
    exact hplace (List.mem_map_of_mem hmem)

end NewRows

/-- Every call leaves the stored rows alone that it does not name, and numbers its new rows above
them. -/
theorem Sound.appends (h : l.Sound) (hleft : l.counters.Left call)
    (hanswer : l.answer call = .ok (result, l')) :
    call.Appends result l.database l'.database := by
  cases call with
  | createApplication a =>
    obtain ⟨rfl, rfl⟩ := Prod.mk.inj (Except.ok.inj hanswer)
    exact appends_created (t := l.applications) rfl h.upToApplication hleft _ rfl
      (l.write_application _).symm rfl
  | updateApplication a =>
    obtain ⟨-, rfl⟩ := update_ok.mp hanswer
    exact appends_updated [a] (l.write_application a).symm rfl rfl
  | createPayment p =>
    obtain ⟨-, rfl, rfl⟩ := createPayment_ok.mp hanswer
    exact appends_created (t := l.payments) rfl h.upToPayment hleft _ rfl
      (l.write_payment _).symm rfl
  | updatePayment p =>
    obtain ⟨-, rfl⟩ := update_ok.mp hanswer
    exact appends_updated [p] (l.write_payment p).symm rfl rfl
  | createBatch batch =>
    obtain ⟨_, -, -, rfl, rfl⟩ := createBatch_ok.mp hanswer
    obtain ⟨hbounds, hgrow⟩ := numberBatch_ascending hleft
    refine ⟨?_, ?_, ?_⟩
    · intro place hplace number text hrow
      obtain ⟨entry, hentry, rfl⟩ := List.mem_map.mp hplace
      have hle := rowAt_le (α := Installment) (t := l.installments) rfl h.upToInstallment hrow
      exact UInt64.lt_of_le_of_lt hle (hbounds entry hentry).1
    · exact List.pairwise_map.mpr hgrow
    · intro _ place text _ hrow
      have hkept := rowAt_write_new (α := Installment) (t := l.installments) rfl h.upToInstallment
        _ (fun entry hentry => (hbounds entry hentry).1) hrow
      rw [write_batch] at hkept
      exact hkept
  | updateInstallment entry =>
    obtain ⟨-, rfl⟩ := update_ok.mp hanswer
    exact appends_updated [entry] (l.write_installment entry).symm rfl rfl
  | updateBatch batch =>
    obtain ⟨-, rfl⟩ := updateBatch_ok.mp hanswer
    exact appends_updated batch (l.write_batch batch).symm rfl rfl
  | deleteInstallmentsOf owner =>
    exact ⟨fun _ hplace => (nomatch hplace), .nil, fun hremoval => (nomatch hremoval)⟩
  | createLoan loan =>
    obtain ⟨rfl, rfl⟩ := Prod.mk.inj (Except.ok.inj hanswer)
    exact appends_created (t := l.loans) rfl h.upToLoan hleft _ rfl (l.write_loan _).symm rfl
  | updateLoan loan =>
    obtain ⟨-, rfl⟩ := update_ok.mp hanswer
    exact appends_updated [loan] (l.write_loan loan).symm rfl rfl
  | recordRepayment loan repayment =>
    -- two rows are written: the loan that the call names, and behind the others the repayment
    obtain ⟨-, rfl, rfl⟩ := recordRepayment_ok.mp hanswer
    have hloan := l.write_loan loan
    have hrow : StoreCall.Appends (.recordRepayment loan repayment)
        { repayment with id := ⟨l.counters.repayment + 1⟩ }
        ({ l with loans := l.loans.insert loan.id loan } : Ledger).database _ :=
      appends_created (t := l.repayments) rfl h.upToRepayment hleft
        { repayment with id := ⟨l.counters.repayment + 1⟩ } rfl (write_repayment _ _).symm rfl
    refine ⟨?_, hrow.ascending, ?_⟩
    · intro place hplace number text hold
      refine hrow.above place hplace number text ?_
      obtain rfl := List.mem_singleton.mp hplace
      rw [← hloan, rowAt_write l.database loan (by simp [Row.table]), hold]
    · intro hremoval place text hplace hold
      refine hrow.kept hremoval place text hplace ?_
      rw [← hloan, rowAt_write l.database loan (fun heq => hplace (List.mem_singleton.mpr heq)),
        hold]
  | _ =>
    obtain ⟨-, rfl⟩ := Prod.mk.inj (Except.ok.inj hanswer)
    exact ⟨fun _ hplace => (nomatch hplace), .nil, fun _ _ _ _ hrow => hrow⟩

end Ledger

/-! ## Closing and opening -/

namespace Archive

/-- At every point of the calls, the next one appends. -/
def Appending (s : Archive) (calls : List StoreCall) : Prop :=
  ∀ earlier call later, calls = earlier ++ call :: later →
    ∀ result s', (s.after earlier).answer call = .ok (result, s') →
      call.Appends result (s.after earlier).database s'.database

theorem appending_ofLedger {l : Ledger} {n : Nat} (h : l.Within n) {calls : List StoreCall}
    (hfew : n + rowsNumbered calls < UInt64.size) : (ofLedger l).Appending calls := by
  rintro earlier call later rfl result s' hanswer
  rw [rowsNumbered_append, rowsNumbered_cons] at hfew
  have hwithin := h.after (show n + rowsNumbered earlier < UInt64.size by omega)
  have hleft := hwithin.atMost.left
    (show n + rowsNumbered earlier + call.rowsNumbered < UInt64.size by omega)
  rw [(after_ofLedger h.toOrdered earlier).1, answer_ofLedger hwithin.toOrdered] at hanswer
  rw [(after_ofLedger h.toOrdered earlier).1]
  cases hledger : (l.after earlier).answer call with
  | error cause =>
    rw [hledger] at hanswer
    cases hanswer
  | ok answered =>
    obtain ⟨found, l'⟩ := answered
    rw [hledger] at hanswer
    obtain ⟨rfl, rfl⟩ := Prod.mk.inj (Except.ok.inj hanswer)
    exact hwithin.toSound.appends hleft hledger

/-- An archive is opened on an empty database, takes any calls, and is closed and opened again. Its
reads find what they found before. As long as the run numbers fewer rows than there are words, the
calls that follow give out numbers above all in use and write over no stored row. If no row was
removed before, they are answered as if the archive had never been closed. -/
theorem reopening_unseen (before : List StoreCall) :
    ∃ opened again : Archive, open? {} = .ok opened ∧
      open? (opened.after before).database = .ok again ∧
      (∀ call, call.isRead = true → ∃ result,
        (opened.after before).answer call = .ok (result, opened.after before) ∧
          again.answer call = .ok (result, again)) ∧
      (∀ calls, rowsNumbered (before ++ calls) < UInt64.size → again.Appending calls) ∧
      (rowsNumbered before < UInt64.size →
        (∀ exchange ∈ (Store.durable opened).exchanges before, exchange.removed = 0) →
          ∀ calls, (Store.durable again).exchanges calls =
            (Store.durable (opened.after before)).exchanges calls) := by
  have hempty : Ledger.database {} = {} := congrArg Archive.database ofLedger_empty
  have hopen := open?_database {}
  rw [hempty] at hopen
  obtain ⟨hafter, hordered⟩ := after_ofLedger Ledger.ordered_empty before
  have hwithin (hfew : rowsNumbered before < UInt64.size) :
      (({} : Ledger).after before).Within (rowsNumbered before) := by
    simpa using Ledger.within_empty.after (show 0 + rowsNumbered before < UInt64.size by omega)
  refine ⟨ofLedger {}, ofLedger (reopened (({} : Ledger).after before)), hopen, ?_, ?_, ?_, ?_⟩
  · rw [hafter]
    exact open?_database _
  · intro call hread
    obtain ⟨result, hanswer, hcounters⟩ := (({} : Ledger).after before).answer_read hread
    refine ⟨result, ?_, ?_⟩
    · rw [hafter, answer_ofLedger hordered, hanswer]
      rfl
    · rw [answer_ofLedger (reopened_sound hordered).toOrdered, reopened, hcounters]
      rfl
  · intro calls hfew
    rw [rowsNumbered_append] at hfew
    exact appending_ofLedger (hwithin (by omega)).reopened hfew
  · intro hfew hkept calls
    have hdurable : (Store.durable (ofLedger {})).Keeps {} := rfl
    have hmemory : (Store.memory {}).Keeps {} := rfl
    rw [hdurable.exchanges_eq hmemory Ledger.ordered_empty] at hkept
    have htight := Ledger.tight_empty.after Ledger.within_empty (by omega) hkept
    rw [hafter, htight]

/-- A loan with its schedule and a repayment. -/
def sampleCalls : List StoreCall :=
  let loan := Loan.new "ada" ⟨802, by decide⟩ ⟨"EUR", by decide⟩ 1 .epoch
  let line : Line := ⟨1, ⟨1970, 2, 1, by decide⟩, ⟨802, by decide⟩⟩
  [.createLoan loan, .createBatch [Obligation.entryOf (.loan ⟨1⟩) line],
    .recordRepayment { loan with id := ⟨1⟩, remaining := 3 }
      { id := .unassigned, loan := ⟨1⟩, amount := ⟨799, by decide⟩, method := ⟨"wire", by decide⟩,
        paidAt := .epoch }]

theorem reopening_unseen_loan :
    rowsNumbered (sampleCalls ++ sampleCalls) < UInt64.size ∧
      (∀ exchange ∈ (Store.durable {}).exchanges sampleCalls, exchange.removed = 0) ∧
      ∃ again, open? (({} : Archive).after sampleCalls).database = .ok again ∧
        again.Appending sampleCalls ∧
        (Store.durable again).exchanges sampleCalls =
          (Store.durable (({} : Archive).after sampleCalls)).exchanges sampleCalls := by
  have hfew : rowsNumbered (sampleCalls ++ sampleCalls) < UInt64.size := by decide
  have hkept : ∀ exchange ∈ (Store.durable {}).exchanges sampleCalls, exchange.removed = 0 := by
    decide +kernel
  obtain ⟨opened, again, hopen, hagain, -, happending, hsame⟩ := reopening_unseen sampleCalls
  obtain rfl : {} = opened := Except.ok.inj hopen
  exact ⟨hfew, hkept, again, hagain, happending sampleCalls hfew,
    hsame (by decide) hkept sampleCalls⟩

end Archive

end Lending
