import Lending.Proofs.Json.Forms
import Lending.Proofs.Store.Keys
import Lending.Proofs.Store.Ledger
import Lending.Store.Archive

/-!
# The archive of a ledger

Every ledger has an archive that keeps the same rows, and the two answer every call alike. An
archive that is opened again keeps its rows; its counters go back to the highest numbers in use.

* `Ledger.database`: the rows of a ledger as texts under keys.
* `Archive.answer_ofLedger`: an archive answers as its ledger does, and goes on as its archive.
-/

namespace Lending

/-! ## Tables of texts -/

namespace Table

variable {κ κ' α α' : Type} [DecidableEq κ] [DecidableEq κ'] {f : κ → κ'} {g : α → α'}

theorem get?_map (hf : ∀ {a b}, f a = f b → a = b) (t : Table κ α) (key : κ) :
    (t.map f g).get? (f key) = (t.get? key).map g := by
  rcases t with ⟨rows⟩
  simp only [map]
  induction rows with
  | nil => rfl
  | cons row rows ih =>
    rw [List.map_cons, get?_cons, get?_cons, ih]
    by_cases h : row.1 = key
    · simp [h]
    · have hne : f row.1 ≠ f key := fun heq => h (hf heq)
      simp [h, hne]

theorem erase_map (hf : ∀ {a b}, f a = f b → a = b) (t : Table κ α) (key : κ) :
    (t.map f g).erase (f key) = (t.erase key).map f g := by
  have heq : ∀ row : κ × α, f row.1 = f key ↔ row.1 = key := fun row => ⟨hf, congrArg f⟩
  simp [map, erase, List.filter_map, Function.comp_def, heq]

end Table

section Rows

variable {α : Type} [Row α]

def numberKey {e : Entity} (id : Id e) : Bytes := bigEndian id.value

/-- The texts of the rows of a table, each under its key. -/
def Row.stored (α : Type) [Row α] (t : Table (Id (Row.entity α)) α) : Table Bytes String :=
  t.map numberKey Row.encode

theorem numberKey_injective {e : Entity} {a b : Id e} (h : numberKey a = numberKey b) : a = b :=
  Id.value_injective (bigEndian_injective h)

theorem compare_numberKey {e : Entity} (a b : Id e) :
    compare (numberKey a) (numberKey b) = compare a b := compare_bigEndian a.value b.value

theorem stored_insert (t : Table (Id (Row.entity α)) α) (row : α) :
    (Row.stored α t).insert (Row.key row) (Row.encode row) =
      Row.stored α (t.insert (Row.id row) row) :=
  Table.insert_map compare_numberKey t (Row.id row) row

namespace Archive

variable {d : Database} {t : Table (Id (Row.entity α)) α}

theorem has_stored (h : d.table (Row.table α) = Row.stored α t) (id : Id (Row.entity α)) :
    has α d id = t.contains id := by
  have hget := Table.get?_map (g := Row.encode) numberKey_injective t id
  rw [has, h, Table.contains, Row.stored, ← numberKey, hget, Option.isSome_map]
  rfl

variable [Row.Legible α]

theorem read?_stored (h : d.table (Row.table α) = Row.stored α t) (id : Id (Row.entity α)) :
    read? α d id = .ok (t.get? id) := by
  have hget := Table.get?_map (g := Row.encode) numberKey_injective t id
  rw [read?, h, Row.stored, ← numberKey, hget]
  cases t.get? id with
  | none => rfl
  | some row => simp [Row.decode_encode, Except.map]

theorem mapM_decode (rows : List α) : (rows.map Row.encode).mapM Row.decode = .ok rows := by
  induction rows with
  | nil => rfl
  | cons row rows ih =>
    rw [List.map_cons, List.mapM_cons, ih, Row.decode_encode]
    rfl

theorem scan_stored (h : d.table (Row.table α) = Row.stored α t) : scan α d = .ok t.values := by
  have hvalues : (Row.stored α t).values = t.values.map Row.encode := by
    simp [Row.stored, Table.map, Table.values]
  rw [scan, h, hvalues, mapM_decode]

end Archive

end Rows

/-! ## The database of a ledger -/

namespace Ledger

def database (l : Ledger) : Database where
  table
    | .applications => Row.stored Application l.applications
    | .payments => Row.stored Payment l.payments
    | .installments => Row.stored Installment l.installments
    | .loans => Row.stored Loan l.loans
    | .repayments => Row.stored Repayment l.repayments
    | .spare => .empty

open Archive

/-- Writing a row changes the one table that the row belongs to. -/
theorem write_database {α : Type} [Row α] {l l' : Ledger} {t : Table (Id (Row.entity α)) α}
    {row : α} (hold : l.database.table (Row.table α) = Row.stored α t)
    (hnew : l'.database.table (Row.table α) = Row.stored α (t.insert (Row.id row) row))
    (hrest : ∀ name ≠ Row.table α, l.database.table name = l'.database.table name) :
    write l.database row = l'.database := by
  rw [write, Database.put, Database.setTable, Database.mk.injEq, hold, stored_insert, ← hnew]
  funext name
  split
  · rename_i heq
    rw [heq]
  · rename_i hne
    exact hrest name hne

theorem write_application (l : Ledger) (a : Application) :
    write l.database a = { l with applications := l.applications.insert a.id a }.database :=
  write_database rfl rfl fun name h => by cases name <;> first | rfl | exact absurd rfl h

theorem write_payment (l : Ledger) (p : Payment) :
    write l.database p = { l with payments := l.payments.insert p.id p }.database :=
  write_database rfl rfl fun name h => by cases name <;> first | rfl | exact absurd rfl h

theorem write_installment (l : Ledger) (entry : Installment) :
    write l.database entry =
      { l with installments := l.installments.insert entry.id entry }.database :=
  write_database rfl rfl fun name h => by cases name <;> first | rfl | exact absurd rfl h

theorem write_loan (l : Ledger) (loan : Loan) :
    write l.database loan = { l with loans := l.loans.insert loan.id loan }.database :=
  write_database rfl rfl fun name h => by cases name <;> first | rfl | exact absurd rfl h

theorem write_repayment (l : Ledger) (r : Repayment) :
    write l.database r = { l with repayments := l.repayments.insert r.id r }.database :=
  write_database rfl rfl fun name h => by cases name <;> first | rfl | exact absurd rfl h

theorem write_batch (l : Ledger) (batch : List Installment) :
    batch.foldl write l.database =
      { l with installments := insertBatch l.installments batch }.database := by
  induction batch generalizing l with
  | nil => rfl
  | cons entry rest ih =>
    rw [List.foldl_cons, write_installment, ih]
    rfl

theorem delete_installment (l : Ledger) (entry : Installment) :
    l.database.delete .installments (Row.key entry) =
      { l with installments := l.installments.erase entry.id }.database := by
  rw [Database.delete, Database.setTable, Database.mk.injEq]
  funext name
  cases name
  case installments => exact Table.erase_map numberKey_injective l.installments entry.id
  all_goals exact if_neg (by decide)

/-- Deleting rows one by one leaves the rows that are none of them. -/
theorem delete_rows (l : Ledger) (doomed : List Installment) :
    doomed.foldl (fun d entry => d.delete .installments (Row.key entry)) l.database =
      { l with installments := ⟨l.installments.rows.filter fun row =>
          doomed.all fun entry => row.1 ≠ entry.id⟩ }.database := by
  induction doomed generalizing l with
  | nil =>
    have hall : (l.installments.rows.filter fun _ => true) = l.installments.rows :=
      List.filter_eq_self.mpr fun _ _ => rfl
    simp only [List.foldl_nil, List.all_nil, hall]
  | cons entry rest ih =>
    rw [List.foldl_cons, delete_installment, ih]
    simp [Table.erase, List.filter_filter, Bool.and_comm]

/-- In order, the rows of an owner are told by their numbers. -/
theorem Ordered.filter_owner {l : Ledger} (h : l.Ordered) (owner : Owner) :
    (l.installments.rows.filter fun row =>
      (l.installments.values.filter fun entry => entry.owner = owner).all fun entry =>
        row.1 ≠ entry.id) =
      l.installments.rows.filter fun row => row.2.owner ≠ owner := by
  refine List.filter_congr fun row hrow => ?_
  have hkey : row.1 = row.2.id := h.installments.keyed row hrow
  have hvalue : row.2 ∈ l.installments.values := List.mem_map_of_mem hrow
  rw [Bool.eq_iff_iff, List.all_eq_true]
  simp only [List.mem_filter, decide_eq_true_eq]
  constructor
  · exact fun hall howner => hall row.2 ⟨hvalue, howner⟩ hkey
  · rintro howner entry ⟨hentry, hof⟩ heq
    rw [hkey] at heq
    exact howner (h.installments.eq_of_id_eq hvalue hentry heq ▸ hof)

end Ledger

/-! ## Answers -/

namespace Archive

def ofLedger (l : Ledger) : Archive where
  database := l.database
  counters := l.counters

/-- The answer of a ledger, with the archive of what it goes on as. -/
def keeping {α : Type} (answer : Except Failure (α × Ledger)) : Except Failure (α × Archive) :=
  answer.map fun (result, l) => (result, ofLedger l)

section Calls

variable {l : Ledger} {α : Type} [Row α] {t : Table (Id (Row.entity α)) α}

theorem replace_database (hold : l.database.table (Row.table α) = Row.stored α t) {row : α}
    {put : Table (Id (Row.entity α)) α → Ledger}
    (hwrite : write l.database row = (put (t.insert (Row.id row) row)).database) :
    replace l.database row =
      (Ledger.replace t (Row.id row) row).map fun t' => (put t').database := by
  rw [replace, Ledger.replace, has_stored hold]
  split
  · rw [hwrite]
    rfl
  · rfl

theorem update_ofLedger (put : Table (Id (Row.entity α)) α → Ledger)
    (hold : l.database.table (Row.table α) = Row.stored α t) (row : α)
    (hwrite : write l.database row = (put (t.insert (Row.id row) row)).database)
    (hcounters : ∀ t', (put t').counters = l.counters) :
    (ofLedger l).updating (replace l.database row) =
      keeping (do let t' ← Ledger.replace t (Row.id row) row; pure ((), put t')) := by
  rw [replace_database hold hwrite]
  cases Ledger.replace t (Row.id row) row with
  | error cause => rfl
  | ok t' =>
    simp [updating, keeping, Except.map, ofLedger, hcounters, bind, Except.bind, pure, Except.pure]

variable [Row.Legible α]

theorem reading_read? (hold : l.database.table (Row.table α) = Row.stored α t)
    (id : Id (Row.entity α)) :
    (ofLedger l).reading (read? α l.database id) = keeping (.ok (t.get? id, l)) := by
  rw [read?_stored hold]
  rfl

theorem reading_scan (hold : l.database.table (Row.table α) = Row.stored α t) {β : Type}
    (f : List α → β) :
    (ofLedger l).reading ((scan α l.database).map f) = keeping (.ok (f t.values, l)) := by
  rw [scan_stored hold]
  rfl

end Calls

theorem createPayment_ofLedger (l : Ledger) (p : Payment) :
    (ofLedger l).createPayment p = keeping (l.createPayment p) := by
  have hscan : scan Payment (ofLedger l).database = .ok l.payments.values :=
    scan_stored (α := Payment) (t := l.payments) rfl
  rw [createPayment, hscan, Ledger.createPayment]
  simp only [bind, Except.bind]
  split
  · rfl
  · simp only [pure, Except.pure, keeping, Except.map, ofLedger, Ledger.write_payment]
    rfl

theorem createBatch_ofLedger (l : Ledger) (batch : List Installment) :
    (ofLedger l).createBatch batch = keeping (l.createBatch batch) := by
  have hscan : scan Installment (ofLedger l).database = .ok l.installments.values :=
    scan_stored (α := Installment) (t := l.installments) rfl
  rw [createBatch, hscan, Ledger.createBatch]
  cases batchOwner batch with
  | error cause => rfl
  | ok owner =>
    simp only [bind, Except.bind]
    split
    · rfl
    · simp only [pure, Except.pure, keeping, Except.map, ofLedger, Ledger.write_batch]
      rfl

theorem updateBatch_ofLedger (l : Ledger) (batch : List Installment) :
    (ofLedger l).updateBatch batch = keeping (l.updateBatch batch) := by
  have hhas : ∀ id, has Installment (ofLedger l).database id = l.installments.contains id :=
    has_stored (α := Installment) (t := l.installments) rfl
  simp only [updateBatch, hhas, Ledger.updateBatch]
  cases batch.find? fun entry => !l.installments.contains entry.id with
  | some unknown => rfl
  | none => simp only [keeping, Except.map, ofLedger, Ledger.write_batch]

theorem deleteInstallmentsOf_ofLedger {l : Ledger} (h : l.Ordered) (owner : Owner) :
    (ofLedger l).deleteInstallmentsOf owner = keeping (.ok (l.deleteInstallmentsOf owner)) := by
  have hscan : scan Installment (ofLedger l).database = .ok l.installments.values :=
    scan_stored (α := Installment) (t := l.installments) rfl
  have hcount : (l.installments.values.filter fun entry => entry.owner = owner).length =
      l.installments.size - (l.installments.filterRows fun entry => entry.owner ≠ owner).size := by
    have hsum := List.length_eq_countP_add_countP (l := l.installments.rows)
      fun row => decide (row.2.owner = owner)
    simp only [Table.values, List.filter_map, List.length_map, Table.size, Table.filterRows,
      List.countP_eq_length_filter, Function.comp_def] at hsum ⊢
    simp only [decide_not, Bool.not_eq_true, decide_eq_false_iff_not, decide_not] at hsum ⊢
    omega
  rw [deleteInstallmentsOf, hscan]
  simp only [bind, Except.bind, pure, Except.pure, ofLedger, Ledger.delete_rows, h.filter_owner,
    hcount]
  rfl

theorem recordRepayment_ofLedger (l : Ledger) (loan : Loan) (repayment : Repayment) :
    (ofLedger l).recordRepayment loan repayment =
      keeping (l.recordRepayment loan repayment) := by
  have hreplace : replace (ofLedger l).database loan =
      (Ledger.replace l.loans loan.id loan).map fun loans => { l with loans }.database :=
    replace_database (α := Loan) (t := l.loans) rfl (l.write_loan loan)
  rw [recordRepayment, hreplace, Ledger.recordRepayment]
  cases Ledger.replace l.loans loan.id loan with
  | error cause => rfl
  | ok loans =>
    simp only [bind, Except.bind, pure, Except.pure, keeping, Except.map, ofLedger,
      Ledger.write_repayment]
    rfl

/-- An archive answers as its ledger does, and goes on as its archive. -/
theorem answer_ofLedger {l : Ledger} (h : l.Ordered) (call : StoreCall) :
    (ofLedger l).answer call = keeping (l.answer call) := by
  cases call with
  | createApplication a =>
    simp only [Archive.answer, createApplication, ofLedger, Ledger.write_application]
    rfl
  | getApplication id => exact reading_read? (α := Application) (t := l.applications) rfl id
  | updateApplication a =>
    exact update_ofLedger (t := l.applications) (fun applications => { l with applications }) rfl a
      (l.write_application a) fun _ => rfl
  | listApplications =>
    have hscan : scan Application l.database = .ok l.applications.values :=
      scan_stored (α := Application) (t := l.applications) rfl
    simp only [Archive.answer, ofLedger, hscan]
    rfl
  | applicationsOfUser user => exact reading_scan (α := Application) (t := l.applications) rfl _
  | createPayment p => exact createPayment_ofLedger l p
  | getPayment id => exact reading_read? (α := Payment) (t := l.payments) rfl id
  | updatePayment p =>
    exact update_ofLedger (t := l.payments) (fun payments => { l with payments }) rfl p
      (l.write_payment p) fun _ => rfl
  | listPayments =>
    have hscan : scan Payment l.database = .ok l.payments.values :=
      scan_stored (α := Payment) (t := l.payments) rfl
    simp only [Archive.answer, ofLedger, hscan]
    rfl
  | paymentsOfApplication id => exact reading_scan (α := Payment) (t := l.payments) rfl _
  | createBatch batch => exact createBatch_ofLedger l batch
  | getInstallment id => exact reading_read? (α := Installment) (t := l.installments) rfl id
  | updateInstallment entry =>
    exact update_ofLedger (t := l.installments) (fun installments => { l with installments }) rfl
      entry (l.write_installment entry) fun _ => rfl
  | updateBatch batch => exact updateBatch_ofLedger l batch
  | installmentsOf owner =>
    have hscan : scan Installment l.database = .ok l.installments.values :=
      scan_stored (α := Installment) (t := l.installments) rfl
    simp only [Archive.answer, installmentsOf, ofLedger, hscan]
    rfl
  | deleteInstallmentsOf owner => exact deleteInstallmentsOf_ofLedger h owner
  | createLoan loan =>
    simp only [Archive.answer, createLoan, ofLedger, Ledger.write_loan]
    rfl
  | getLoan id => exact reading_read? (α := Loan) (t := l.loans) rfl id
  | updateLoan loan =>
    exact update_ofLedger (t := l.loans) (fun loans => { l with loans }) rfl loan
      (l.write_loan loan) fun _ => rfl
  | listLoans =>
    have hscan : scan Loan l.database = .ok l.loans.values :=
      scan_stored (α := Loan) (t := l.loans) rfl
    simp only [Archive.answer, ofLedger, hscan]
    rfl
  | loansOfUser user => exact reading_scan (α := Loan) (t := l.loans) rfl _
  | recordRepayment loan repayment => exact recordRepayment_ofLedger l loan repayment
  | repaymentsOf id => exact reading_scan (α := Repayment) (t := l.repayments) rfl _

/-! ## Opening -/

section Opening

variable {α : Type} [Row α] {t : Table (Id (Row.entity α)) α}

/-- The highest number in use, 0 if there is none. -/
def highest {e : Entity} {α : Type} (t : Table (Id e) α) : UInt64 :=
  (t.rows.getLast?.map fun row => row.1.value).getD 0

theorem highestNumber_stored : highestNumber (Row.stored α t) = .ok (highest t) := by
  have hlast : (Row.stored α t).lastKey? = t.rows.getLast?.map fun row => numberKey row.1 := by
    simp [Row.stored, Table.map, Table.lastKey?, List.getLast?_map, Function.comp_def]
  rw [highestNumber, hlast, highest]
  cases t.rows.getLast? with
  | none => rfl
  | some row => simp [numberKey, ofBigEndian?_bigEndian]

theorem upTo_highest {e : Entity} {α : Type} {id : α → Id e} {t : Table (Id e) α}
    (h : t.Booked id) : t.UpTo (highest t) := by
  rcases t with ⟨rows⟩
  intro row hrow
  rcases List.eq_nil_or_concat rows with rfl | ⟨before, last, rfl⟩
  · cases hrow
  · have hhighest : highest ⟨before.concat last⟩ = last.1.value := by simp [highest]
    have hpairs := h.ascending
    simp only [Table.Ascending, List.concat_eq_append, List.pairwise_append] at hpairs
    rw [hhighest]
    rw [List.concat_eq_append, List.mem_append, List.mem_singleton] at hrow
    rcases hrow with hearlier | rfl
    · have hlt := hpairs.2.2 row hearlier last List.mem_cons_self
      exact UInt64.le_of_lt (Table.compare_eq_lt.mp hlt)
    · exact UInt64.le_refl _

end Opening

/-- The ledger with the counters that an opened database begins with. -/
def reopened (l : Ledger) : Ledger :=
  { l with
    counters :=
      { application := highest l.applications
        payment := highest l.payments
        installment := highest l.installments
        loan := highest l.loans
        repayment := highest l.repayments } }

theorem open?_database (l : Ledger) : open? l.database = .ok (ofLedger (reopened l)) := by
  have happlications := highestNumber_stored (α := Application) (t := l.applications)
  have hpayments := highestNumber_stored (α := Payment) (t := l.payments)
  have hinstallments := highestNumber_stored (α := Installment) (t := l.installments)
  have hloans := highestNumber_stored (α := Loan) (t := l.loans)
  have hrepayments := highestNumber_stored (α := Repayment) (t := l.repayments)
  simp only [open?, Ledger.database, happlications, hpayments, hinstallments, hloans, hrepayments]
  rfl

theorem reopened_sound {l : Ledger} (h : l.Ordered) : (reopened l).Sound where
  toOrdered := { h with }
  upToApplication := upTo_highest h.applications
  upToPayment := upTo_highest h.payments
  upToInstallment := upTo_highest h.installments
  upToLoan := upTo_highest h.loans
  upToRepayment := upTo_highest h.repayments

end Archive

end Lending
