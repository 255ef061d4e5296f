import Lending.Proofs.Store.Order
import Lending.Store.Ledger

/-!
# The ledger in order

The tables of a ledger list their rows by number, each under its own, and no number is higher than
the last one given out. Every call keeps the order; the numbers stay below the counters as long as
there are numbers left, since a counter at its end begins again at zero.

* `Ledger.Ordered`: rows in order and under their own numbers. Kept by every call.
* `Ledger.Sound`: moreover, no number is above its counter.
* `Counters.Left`: there are numbers for all rows that a call numbers.
-/

namespace Lending

/-! ## Tables by number -/

namespace Table

variable {e : Entity} {α : Type} {id : α → Id e} {t : Table (Id e) α}

/-- The rows stand in the order of their numbers, each under its own. -/
structure Booked (id : α → Id e) (t : Table (Id e) α) : Prop where
  ascending : t.Ascending
  keyed : t.Keyed id

/-- No row has a number above `last`. -/
def UpTo (last : UInt64) (t : Table (Id e) α) : Prop := ∀ row ∈ t.rows, row.1.value ≤ last

theorem compare_eq_lt {a b : Id e} : compare a b = .lt ↔ a.value < b.value :=
  Std.compare_eq_lt (α := UInt64)

namespace Booked

theorem empty : (Table.empty : Table (Id e) α).Booked id := ⟨ascending_empty, keyed_empty id⟩

theorem insert (h : t.Booked id) (value : α) : (t.insert (id value) value).Booked id :=
  ⟨h.ascending.insert _ _, h.keyed.insert value⟩

theorem filterRows (h : t.Booked id) (p : α → Bool) : (t.filterRows p).Booked id :=
  ⟨h.ascending.filterRows p, h.keyed.filterRows p⟩

theorem mem_values (h : t.Booked id) {value : α} :
    value ∈ t.values ↔ t.get? (id value) = some value :=
  h.ascending.mem_values h.keyed

theorem id_of_get? (h : t.Booked id) {key : Id e} {value : α} (hget : t.get? key = some value) :
    id value = key :=
  (h.keyed _ (h.ascending.get?_eq_some.mp hget)).symm

theorem nodup_ids (h : t.Booked id) : (t.values.map id).Nodup := by
  have hkeys : t.values.map id = t.rows.map Prod.fst := by
    rw [values, List.map_map]
    exact List.map_congr_left fun row hrow => (h.keyed row hrow).symm
  rw [hkeys]
  exact List.pairwise_map.mpr (List.Pairwise.imp Table.ne_of_compare_lt h.ascending)

/-- Two rows with one number are the same row. -/
theorem eq_of_id_eq (h : t.Booked id) {a b : α} (ha : a ∈ t.values) (hb : b ∈ t.values)
    (heq : id a = id b) : a = b := by
  rw [h.mem_values] at ha hb
  rw [heq, hb] at ha
  exact (Option.some.inj ha).symm

theorem mem_values_insert (h : t.Booked id) {new value : α} :
    value ∈ (t.insert (id new) new).values ↔
      value = new ∨ id value ≠ id new ∧ value ∈ t.values := by
  rw [(h.insert new).mem_values, Table.get?_insert, h.mem_values]
  by_cases heq : id new = id value
  · rw [if_pos heq, Option.some.injEq]
    constructor
    · intro hnew
      exact .inl hnew.symm
    · rintro (rfl | ⟨hne, -⟩)
      · rfl
      · exact absurd heq.symm hne
  · rw [if_neg heq]
    constructor
    · intro hold
      exact .inr ⟨Ne.symm heq, hold⟩
    · rintro (rfl | ⟨-, hold⟩)
      · exact absurd rfl heq
      · exact hold

/-- What holds of every row holds of every row after one that has it was written. -/
theorem forall_values_insert (h : t.Booked id) {P : α → Prop} (hall : ∀ a ∈ t.values, P a) {new : α}
    (hnew : P new) : ∀ a ∈ (t.insert (id new) new).values, P a := by
  intro a ha
  rcases h.mem_values_insert.mp ha with rfl | ⟨-, hold⟩
  · exact hnew
  · exact hall a hold

/-- The values determine the table. -/
theorem eq_of_values_eq {t' : Table (Id e) α} (h : t.Booked id) (h' : t'.Booked id)
    (heq : t.values = t'.values) : t = t' := by
  have hrows : ∀ {s : Table (Id e) α}, s.Booked id →
      s.values.map (fun v => (id v, v)) = s.rows := by
    intro s hs
    rw [values, List.map_map, List.map_congr_left (g := fun row => row), List.map_id']
    exact fun row hrow => Prod.ext (hs.keyed row hrow).symm rfl
  have hsame : t.rows = t'.rows := by rw [← hrows h, ← hrows h', heq]
  cases t
  cases t'
  exact congrArg Table.mk hsame

/-- A row that replaces another stands in its place. -/
theorem values_insert_known (h : t.Booked id) {old : α} {key : Id e}
    (hget : t.get? key = some old) :
    ∃ before after, t.values = before ++ old :: after ∧
      ∀ value, (t.insert key value).values = before ++ value :: after := by
  obtain ⟨before, after, hrows, hinsert⟩ := h.ascending.rows_insert_known hget
  refine ⟨before.map Prod.snd, after.map Prod.snd, ?_, ?_⟩
  · simp [values, hrows]
  · intro value
    simp [values, hinsert]

end Booked

theorem values_filterRows (p : α → Bool) : (t.filterRows p).values = t.values.filter p := by
  simp [values, filterRows, List.filter_map, Function.comp_def]

/-- A row with a new highest number stands last. -/
theorem values_insert_last {last : UInt64} (h : t.UpTo last) {key : Id e} (hkey : last < key.value)
    (value : α) : (t.insert key value).values = t.values ++ [value] := by
  have hlt : ∀ row ∈ t.rows, compare row.1 key = .lt := fun row hrow =>
    compare_eq_lt.mpr (UInt64.lt_of_le_of_lt (h row hrow) hkey)
  simp [values, rows_insert_last hlt]

theorem UpTo.get?_eq_none {last : UInt64} (h : t.UpTo last) {key : Id e} (hkey : last < key.value) :
    t.get? key = none := by
  rw [Table.get?_eq_none]
  rintro row hrow rfl
  exact absurd (h row hrow) (UInt64.not_le.mpr hkey)

theorem UpTo.insert {last bound : UInt64} (h : t.UpTo last) {key : Id e} (hkey : key.value ≤ bound)
    (hle : last ≤ bound) (value : α) : (t.insert key value).UpTo bound := by
  intro row hrow
  rcases mem_insertRow hrow with rfl | hrest
  · exact hkey
  · exact UInt64.le_trans (h row hrest) hle

end Table

/-! ## Numbers left -/

/-- There is a number for every row that the call numbers. -/
def Counters.Left (c : Counters) : StoreCall → Prop
  | .createApplication _ => c.application.toNat + 1 < UInt64.size
  | .createPayment _ => c.payment.toNat + 1 < UInt64.size
  | .createBatch batch => c.installment.toNat + batch.length < UInt64.size
  | .createLoan _ => c.loan.toNat + 1 < UInt64.size
  | .recordRepayment _ _ => c.repayment.toNat + 1 < UInt64.size
  | _ => True

instance (c : Counters) (call : StoreCall) : Decidable (c.Left call) := by
  cases call <;> simp only [Counters.Left] <;> infer_instance

theorem toNat_succ {n : UInt64} (h : n.toNat + 1 < UInt64.size) : (n + 1).toNat = n.toNat + 1 := by
  rw [UInt64.toNat_add, Nat.mod_eq_of_lt (by simpa using h)]
  simp

theorem lt_succ {n : UInt64} (h : n.toNat + 1 < UInt64.size) : n < n + 1 := by
  rw [UInt64.lt_iff_toNat_lt, toNat_succ h]
  omega

/-! ## Batches -/

section Batches

variable {last : UInt64} {batch : List Installment}

/-- Numbering a batch changes nothing but the numbers. -/
theorem map_numberBatch {β : Type} {f : Installment → β}
    (hf : ∀ entry id, f { entry with id } = f entry) :
    (numberBatch last batch).1.map f = batch.map f := by
  induction batch generalizing last with
  | nil => rfl
  | cons entry rest ih => simp [numberBatch, hf, ih]

theorem toNat_numberBatch_snd (h : last.toNat + batch.length < UInt64.size) :
    (numberBatch last batch).2.toNat = last.toNat + batch.length := by
  induction batch generalizing last with
  | nil => rfl
  | cons entry rest ih =>
    simp only [List.length_cons] at h
    have hnext : (last + 1).toNat = last.toNat + 1 := toNat_succ (by omega)
    rw [numberBatch, ih (by omega), hnext, List.length_cons]
    omega

/-- The numbers of a batch are new and grow. -/
theorem numberBatch_ascending (h : last.toNat + batch.length < UInt64.size) :
    (∀ entry ∈ (numberBatch last batch).1,
      last < entry.id.value ∧ entry.id.value ≤ (numberBatch last batch).2) ∧
      (numberBatch last batch).1.Pairwise fun a b => a.id.value < b.id.value := by
  induction batch generalizing last with
  | nil => simp [numberBatch]
  | cons entry rest ih =>
    simp only [List.length_cons] at h
    have hnext : (last + 1).toNat = last.toNat + 1 := toNat_succ (by omega)
    have hrest : (last + 1).toNat + rest.length < UInt64.size := by omega
    obtain ⟨hbounds, hgrow⟩ := ih hrest
    have hfinal := toNat_numberBatch_snd hrest
    have hfirst : last < last + 1 := lt_succ (by omega)
    simp only [numberBatch, List.mem_cons, forall_eq_or_imp, List.pairwise_cons]
    refine ⟨⟨⟨hfirst, ?_⟩, ?_⟩, ?_, hgrow⟩
    · rw [UInt64.le_iff_toNat_le]
      omega
    · intro other hother
      obtain ⟨hnew, hle⟩ := hbounds other hother
      exact ⟨UInt64.lt_trans hfirst hnew, hle⟩
    · intro other hother
      exact (hbounds other hother).1

open Table in
theorem Ledger.insertBatch_booked {t : Table InstallmentId Installment}
    (h : t.Booked Installment.id) (batch : List Installment) :
    (insertBatch t batch).Booked Installment.id := by
  induction batch generalizing t with
  | nil => exact h
  | cons entry rest ih => exact ih (h.insert entry)

/-- A batch with new numbers stands last. -/
theorem Ledger.values_insertBatch {t : Table InstallmentId Installment} (h : t.UpTo last)
    (hnew : ∀ entry ∈ batch, last < entry.id.value)
    (hgrow : batch.Pairwise fun a b => a.id.value < b.id.value) :
    (insertBatch t batch).values = t.values ++ batch := by
  induction batch generalizing t last with
  | nil => simp [insertBatch]
  | cons entry rest ih =>
    rw [List.pairwise_cons] at hgrow
    have hfirst := hnew entry List.mem_cons_self
    have hupTo : (t.insert entry.id entry).UpTo entry.id.value :=
      h.insert (UInt64.le_refl _) (UInt64.le_of_lt hfirst) entry
    have hrest := ih hupTo hgrow.1 hgrow.2
    rw [Table.values_insert_last h hfirst] at hrest
    simpa [insertBatch] using hrest

end Batches

namespace Ledger

/-! ## Order -/

/-- Every table is in order. -/
structure Ordered (l : Ledger) : Prop where
  applications : l.applications.Booked Application.id
  payments : l.payments.Booked Payment.id
  installments : l.installments.Booked Installment.id
  loans : l.loans.Booked Loan.id
  repayments : l.repayments.Booked Repayment.id

theorem ordered_empty : ({} : Ledger).Ordered :=
  ⟨.empty, .empty, .empty, .empty, .empty⟩

theorem replace_ok {e : Entity} {α : Type} {t t' : Table (Id e) α} {id : Id e} {row : α} :
    replace t id row = .ok t' ↔ (∃ old, t.get? id = some old) ∧ t' = t.insert id row := by
  rw [← Table.contains_iff, replace]
  split
  · simp [*, eq_comm]
  · simp [*]

theorem createPayment_ok {l l' : Ledger} {p created : Payment} :
    l.createPayment p = .ok (created, l') ↔
      (∀ other ∈ l.payments.values, other.order ≠ p.order) ∧
        created = { p with id := ⟨l.counters.payment + 1⟩ } ∧
        l' = { l with
          counters := { l.counters with payment := l.counters.payment + 1 }
          payments := l.payments.insert created.id created } := by
  unfold createPayment
  split
  · rename_i hany
    obtain ⟨other, hmem, horder⟩ := List.any_eq_true.mp hany
    constructor
    · rintro ⟨⟩
    · rintro ⟨hfresh, -⟩
      exact absurd (of_decide_eq_true horder) (hfresh other hmem)
  · rename_i hany
    have hnone : ∀ other ∈ l.payments.values, other.order ≠ p.order := fun other hmem heq =>
      hany (List.any_eq_true.mpr ⟨other, hmem, decide_eq_true heq⟩)
    constructor
    · rintro ⟨⟩
      exact ⟨hnone, rfl, rfl⟩
    · rintro ⟨-, rfl, rfl⟩
      rfl

theorem createBatch_ok {l l' : Ledger} {batch numbered : List Installment} :
    l.createBatch batch = .ok (numbered, l') ↔
      ∃ owner, batchOwner batch = .ok owner ∧
        (∀ entry ∈ l.installments.values, entry.owner ≠ owner) ∧
        numbered = (numberBatch l.counters.installment batch).1 ∧
        l' = { l with
          counters := { l.counters with
            installment := (numberBatch l.counters.installment batch).2 }
          installments := insertBatch l.installments numbered } := by
  unfold createBatch
  cases batchOwner batch with
  | error => exact ⟨fun h => (nomatch h), fun ⟨_, h, _⟩ => (nomatch h)⟩
  | ok owner =>
    simp only [bind, Except.bind]
    split
    · rename_i hany
      obtain ⟨entry, hmem, howner⟩ := List.any_eq_true.mp hany
      constructor
      · rintro ⟨⟩
      · rintro ⟨_, ⟨⟩, hnone, -⟩
        exact absurd (of_decide_eq_true howner) (hnone entry hmem)
    · rename_i hany
      have hnone : ∀ entry ∈ l.installments.values, entry.owner ≠ owner := fun entry hmem heq =>
        hany (List.any_eq_true.mpr ⟨entry, hmem, decide_eq_true heq⟩)
      constructor
      · rintro ⟨⟩
        exact ⟨owner, rfl, hnone, rfl, rfl⟩
      · rintro ⟨_, ⟨⟩, -, rfl, rfl⟩
        rfl

theorem updateBatch_ok {l l' : Ledger} {batch : List Installment} :
    l.updateBatch batch = .ok ((), l') ↔
      (∀ entry ∈ batch, ∃ old, l.installments.get? entry.id = some old) ∧
        l' = { l with installments := insertBatch l.installments batch } := by
  unfold updateBatch
  split
  · rename_i unknown hfind
    have hunknown := List.find?_some hfind
    have hmem := List.mem_of_find?_eq_some hfind
    constructor
    · rintro ⟨⟩
    · rintro ⟨hall, -⟩
      have hknown := Table.contains_iff.mpr (hall unknown hmem)
      simp [hknown] at hunknown
  · rename_i hfind
    have hknown : ∀ entry ∈ batch, ∃ old, l.installments.get? entry.id = some old :=
      fun entry hmem => Table.contains_iff.mp (by
        simpa using List.find?_eq_none.mp hfind entry hmem)
    constructor
    · rintro ⟨⟩
      exact ⟨hknown, rfl⟩
    · rintro ⟨-, rfl⟩
      rfl

theorem recordRepayment_ok {l l' : Ledger} {loan : Loan} {repayment recorded : Repayment} :
    l.recordRepayment loan repayment = .ok (recorded, l') ↔
      (∃ old, l.loans.get? loan.id = some old) ∧
        recorded = { repayment with id := ⟨l.counters.repayment + 1⟩ } ∧
        l' = { l with
          counters := { l.counters with repayment := l.counters.repayment + 1 }
          loans := l.loans.insert loan.id loan
          repayments := l.repayments.insert recorded.id recorded } := by
  unfold recordRepayment
  cases hreplace : replace l.loans loan.id loan with
  | error cause =>
    constructor
    · rintro ⟨⟩
    · rintro ⟨hknown, -⟩
      rw [replace_ok.mpr ⟨hknown, rfl⟩] at hreplace
      cases hreplace
  | ok loans =>
    obtain ⟨hknown, rfl⟩ := replace_ok.mp hreplace
    constructor
    · rintro ⟨⟩
      exact ⟨hknown, rfl, rfl⟩
    · rintro ⟨-, rfl, rfl⟩
      rfl

/-- The table of a row that was replaced. -/
theorem update_ok {e : Entity} {α : Type} {l' : Ledger} {t : Table (Id e) α} {id : Id e} {row : α}
    {put : Table (Id e) α → Ledger} :
    (do let t' ← replace t id row; pure ((), put t') : Except Failure (Unit × Ledger)) =
        .ok ((), l') ↔
      (∃ old, t.get? id = some old) ∧ l' = put (t.insert id row) := by
  cases hreplace : replace t id row with
  | error cause =>
    constructor
    · rintro ⟨⟩
    · rintro ⟨hknown, -⟩
      rw [replace_ok.mpr ⟨hknown, rfl⟩] at hreplace
      cases hreplace
  | ok t' =>
    obtain ⟨hknown, rfl⟩ := replace_ok.mp hreplace
    constructor
    · rintro ⟨⟩
      exact ⟨hknown, rfl⟩
    · rintro ⟨-, rfl⟩
      rfl

/-- Every call keeps the tables in order. -/
theorem Ordered.answer {l l' : Ledger} (h : l.Ordered) {call : StoreCall} {result : call.Result}
    (hanswer : l.answer call = .ok (result, l')) : l'.Ordered := by
  cases call with
  | createApplication a =>
    obtain ⟨-, rfl⟩ := Prod.mk.inj (Except.ok.inj hanswer)
    exact { h with applications := h.applications.insert _ }
  | updateApplication a =>
    obtain ⟨-, rfl⟩ := update_ok.mp hanswer
    exact { h with applications := h.applications.insert a }
  | createPayment p =>
    obtain ⟨-, -, rfl⟩ := createPayment_ok.mp hanswer
    exact { h with payments := h.payments.insert _ }
  | updatePayment p =>
    obtain ⟨-, rfl⟩ := update_ok.mp hanswer
    exact { h with payments := h.payments.insert p }
  | createBatch batch =>
    obtain ⟨_, -, -, rfl, rfl⟩ := createBatch_ok.mp hanswer
    exact { h with installments := insertBatch_booked h.installments _ }
  | updateInstallment entry =>
    obtain ⟨-, rfl⟩ := update_ok.mp hanswer
    exact { h with installments := h.installments.insert entry }
  | updateBatch batch =>
    obtain ⟨-, rfl⟩ := updateBatch_ok.mp hanswer
    exact { h with installments := insertBatch_booked h.installments _ }
  | deleteInstallmentsOf owner =>
    obtain ⟨-, rfl⟩ := Prod.mk.inj (Except.ok.inj hanswer)
    exact { h with installments := h.installments.filterRows fun entry => entry.owner ≠ owner }
  | createLoan loan =>
    obtain ⟨-, rfl⟩ := Prod.mk.inj (Except.ok.inj hanswer)
    exact { h with loans := h.loans.insert _ }
  | updateLoan loan =>
    obtain ⟨-, rfl⟩ := update_ok.mp hanswer
    exact { h with loans := h.loans.insert loan }
  | recordRepayment loan repayment =>
    obtain ⟨-, rfl, rfl⟩ := recordRepayment_ok.mp hanswer
    exact { h with
      loans := h.loans.insert loan
      repayments := h.repayments.insert _ }
  | _ =>
    obtain ⟨-, rfl⟩ := Prod.mk.inj (Except.ok.inj hanswer)
    exact h

/-! ## Numbers -/

/-- Every table is in order, and its numbers were given out by its counter. -/
structure Sound (l : Ledger) : Prop extends l.Ordered where
  upToApplication : l.applications.UpTo l.counters.application
  upToPayment : l.payments.UpTo l.counters.payment
  upToInstallment : l.installments.UpTo l.counters.installment
  upToLoan : l.loans.UpTo l.counters.loan
  upToRepayment : l.repayments.UpTo l.counters.repayment

theorem sound_empty : ({} : Ledger).Sound where
  toOrdered := ordered_empty
  upToApplication := fun _ h => nomatch h
  upToPayment := fun _ h => nomatch h
  upToInstallment := fun _ h => nomatch h
  upToLoan := fun _ h => nomatch h
  upToRepayment := fun _ h => nomatch h

theorem upTo_insert_next {e : Entity} {α : Type} {t : Table (Id e) α} {last : UInt64}
    (h : t.UpTo last) (hleft : last.toNat + 1 < UInt64.size) (value : α) :
    (t.insert ⟨last + 1⟩ value).UpTo (last + 1) :=
  h.insert (UInt64.le_refl _) (UInt64.le_of_lt (lt_succ hleft)) value

theorem upTo_insert_known {e : Entity} {α : Type} {t : Table (Id e) α} {id : α → Id e}
    {last : UInt64} (h : t.UpTo last) (hb : t.Booked id) {key : Id e}
    (hknown : ∃ old, t.get? key = some old) (value : α) : (t.insert key value).UpTo last := by
  obtain ⟨old, hget⟩ := hknown
  exact h.insert (h _ (hb.ascending.get?_eq_some.mp hget)) (UInt64.le_refl _) value

theorem upTo_insertBatch {t : Table InstallmentId Installment} {last bound : UInt64}
    (h : t.UpTo last) (hle : last ≤ bound) {batch : List Installment}
    (hbatch : ∀ entry ∈ batch, entry.id.value ≤ bound) : (insertBatch t batch).UpTo bound := by
  have hbound : t.UpTo bound := fun row hrow => UInt64.le_trans (h row hrow) hle
  clear h
  induction batch generalizing t with
  | nil => exact hbound
  | cons entry rest ih =>
    exact ih (fun e he => hbatch e (List.mem_cons_of_mem _ he))
      (hbound.insert (hbatch entry List.mem_cons_self) (UInt64.le_refl _) entry)

/-- Every call keeps the ledger sound, as long as it finds the numbers that it needs. -/
theorem Sound.answer {l l' : Ledger} (h : l.Sound) {call : StoreCall} {result : call.Result}
    (hleft : l.counters.Left call) (hanswer : l.answer call = .ok (result, l')) : l'.Sound := by
  have hordered := h.toOrdered.answer hanswer
  cases call with
  | createApplication a =>
    obtain ⟨-, rfl⟩ := Prod.mk.inj (Except.ok.inj hanswer)
    exact { h with
      toOrdered := hordered
      upToApplication := upTo_insert_next h.upToApplication hleft _ }
  | updateApplication a =>
    obtain ⟨hknown, rfl⟩ := update_ok.mp hanswer
    exact { h with
      toOrdered := hordered
      upToApplication := upTo_insert_known h.upToApplication h.applications hknown a }
  | createPayment p =>
    obtain ⟨-, rfl, rfl⟩ := createPayment_ok.mp hanswer
    exact { h with
      toOrdered := hordered
      upToPayment := upTo_insert_next h.upToPayment hleft _ }
  | updatePayment p =>
    obtain ⟨hknown, rfl⟩ := update_ok.mp hanswer
    exact { h with
      toOrdered := hordered
      upToPayment := upTo_insert_known h.upToPayment h.payments hknown p }
  | createBatch batch =>
    obtain ⟨_, -, -, rfl, rfl⟩ := createBatch_ok.mp hanswer
    have hfits : l.counters.installment.toNat + batch.length < UInt64.size := hleft
    obtain ⟨hbounds, -⟩ := numberBatch_ascending hfits
    have hle : l.counters.installment ≤ (numberBatch l.counters.installment batch).2 := by
      rw [UInt64.le_iff_toNat_le, toNat_numberBatch_snd hfits]
      omega
    exact { h with
      toOrdered := hordered
      upToInstallment := upTo_insertBatch h.upToInstallment hle fun e he => (hbounds e he).2 }
  | updateInstallment entry =>
    obtain ⟨hknown, rfl⟩ := update_ok.mp hanswer
    exact { h with
      toOrdered := hordered
      upToInstallment := upTo_insert_known h.upToInstallment h.installments hknown entry }
  | updateBatch batch =>
    obtain ⟨hknown, rfl⟩ := updateBatch_ok.mp hanswer
    refine { h with
      toOrdered := hordered
      upToInstallment := upTo_insertBatch h.upToInstallment (UInt64.le_refl _) fun e he => ?_ }
    obtain ⟨old, hget⟩ := hknown e he
    exact h.upToInstallment _ (h.installments.ascending.get?_eq_some.mp hget)
  | deleteInstallmentsOf owner =>
    obtain ⟨-, rfl⟩ := Prod.mk.inj (Except.ok.inj hanswer)
    exact { h with
      toOrdered := hordered
      upToInstallment := fun row hrow => h.upToInstallment row (List.mem_filter.mp hrow).1 }
  | createLoan loan =>
    obtain ⟨-, rfl⟩ := Prod.mk.inj (Except.ok.inj hanswer)
    exact { h with
      toOrdered := hordered
      upToLoan := upTo_insert_next h.upToLoan hleft _ }
  | updateLoan loan =>
    obtain ⟨hknown, rfl⟩ := update_ok.mp hanswer
    exact { h with
      toOrdered := hordered
      upToLoan := upTo_insert_known h.upToLoan h.loans hknown loan }
  | recordRepayment loan repayment =>
    obtain ⟨hknown, rfl, rfl⟩ := recordRepayment_ok.mp hanswer
    exact { h with
      toOrdered := hordered
      upToLoan := upTo_insert_known h.upToLoan h.loans hknown loan
      upToRepayment := upTo_insert_next h.upToRepayment hleft _ }
  | _ =>
    obtain ⟨-, rfl⟩ := Prod.mk.inj (Except.ok.inj hanswer)
    exact h

end Ledger

end Lending
