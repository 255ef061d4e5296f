import Lending.Proofs.Engine.Onward

/-!
# Rows that name other rows

No store checks that a row exists which another one names. It does nevertheless, whatever fails:
the row that is named is written first, it is never removed, and what was required of it when it was
named is never taken back. An order reference belongs to one payment and a place in a schedule to
one entry, since both are looked for among all rows before they are given.

* `Ledger.Referential`: the references between the tables.
* `Ledger.Adds`: the rows that a step adds, each with what it names.
* `Effect.adds`, `Remnant.adds`: every way in which a call ends adds such rows only.
* `Store.Keyed`: every stored row stands under its own number.
* `History.referential`: references in all states that engines come to.
-/

namespace Lending

open Lifecycle (Steps)

/-! ## References -/

/-- The application takes the payment: it is approved, for the same user and in the same currency,
and for no less. -/
structure Payment.DrawnOn (p : Payment) (a : Application) : Prop where
  approved : a.status = .approved
  user : a.user = p.user
  currency : a.currency = p.currency
  amount : p.amount.toNat ≤ a.amount.toNat

/-- The loan was activated, whatever became of it then. -/
structure Loan.Activated (loan : Loan) : Prop where
  begun : (Obligation.loan loan).Begun
  stamped : loan.activatedAt.isSome

/-- The owner is a row of the ledger. -/
def Ledger.Knows (l : Ledger) : Owner → Prop
  | .payment id => ∃ p, l.payments.get? id = some p
  | .loan id => ∃ loan, l.loans.get? id = some loan

/-- A row that is named by another exists and is as the other row needs it. Neither an order
reference nor a place in a schedule is given twice. -/
structure Ledger.Referential (l : Ledger) : Prop where
  drawn : ∀ p ∈ l.payments.values, ∃ a, l.applications.get? p.application = some a ∧ p.DrawnOn a
  orders : (l.payments.values.map Payment.order).Nodup
  owned : ∀ e ∈ l.installments.values, l.Knows e.owner
  places : (l.installments.values.map fun e => (e.owner, e.sequence)).Nodup
  repaid : ∀ r ∈ l.repayments.values, ∃ loan, l.loans.get? r.loan = some loan ∧
    (Obligation.loan loan).Begun

theorem Ledger.referential_empty : ({} : Ledger).Referential where
  drawn _ hp := nomatch hp
  orders := .nil
  owned _ he := nomatch he
  places := .nil
  repaid _ hr := nomatch hr

/-! ## Rows that are added -/

/-- No row changes its terms, and the rows that are added name rows that are there. -/
structure Ledger.Adds (l l' : Ledger) : Prop where
  payments : l'.payments.values.map Payment.terms = l.payments.values.map Payment.terms ∨
    ∃ p a, l'.payments.values = l.payments.values ++ [p] ∧
      l.applications.get? p.application = some a ∧ p.DrawnOn a ∧
      ∀ other ∈ l.payments.values, other.order ≠ p.order
  installments :
    l'.installments.values.map Installment.terms = l.installments.values.map Installment.terms ∨
      ∃ policy o entries c, l.Schedules policy o entries c l'.installments ∧ l.Knows o.owner
  repayments : l'.repayments = l.repayments ∨
    ∃ r loan, l'.repayments.values = l.repayments.values ++ [r] ∧
      l.loans.get? r.loan = some loan ∧ (Obligation.loan loan).Begun

/-- A row that is written again with the same terms changes no terms. -/
theorem Table.Booked.map_insert_known {e : Entity} {α τ : Type} {id : α → Id e}
    {t : Table (Id e) α} (h : t.Booked id) {terms : α → τ} {old new : α} {key : Id e}
    (hget : t.get? key = some old) (hterms : terms new = terms old) :
    (t.insert key new).values.map terms = t.values.map terms := by
  obtain ⟨before, after, hvalues, hinsert⟩ := h.values_insert_known hget
  rw [hvalues, hinsert]
  simp [hterms]

namespace Ledger

variable {l l' : Ledger}

theorem Adds.refl (l : Ledger) : l.Adds l := ⟨.inl rfl, .inl rfl, .inl rfl⟩

theorem Adds.of_eq (hpayments : l'.payments = l.payments)
    (hinstallments : l'.installments = l.installments)
    (hrepayments : l'.repayments = l.repayments) : l.Adds l' :=
  ⟨.inl (by rw [hpayments]), .inl (by rw [hinstallments]), .inl hrepayments⟩

/-- Entries that get another status keep their terms. -/
theorem map_terms_withStatus (h : l.Ordered) {status : InstallmentStatus}
    {entries : List Installment} (hmem : ∀ e ∈ entries, e ∈ l.installments.values) :
    (insertBatch l.installments (withStatus status entries)).values.map Installment.terms =
      l.installments.values.map Installment.terms := by
  have hrestatus := insertBatch_restatus h.installments status hmem
  rw [withStatus, hrestatus, values_restatus, List.map_map]
  rfl

/-! ### What stays -/

/-- The owner of a row stays known. -/
theorem Onward.knows (h : l.Onward Steps l') {owner : Owner} (hknows : l.Knows owner) :
    l'.Knows owner := by
  cases owner with
  | payment id =>
    obtain ⟨p, hp⟩ := hknows
    obtain ⟨p', hp', -⟩ := h.payments id p hp
    exact ⟨p', hp'⟩
  | loan id =>
    obtain ⟨loan, hloan⟩ := hknows
    obtain ⟨loan', hloan', -⟩ := h.loans id loan hloan
    exact ⟨loan', hloan'⟩

/-- An approved application stays approved, and its terms stay. -/
theorem Onward.drawn (h : l.Onward Steps l') {p : Payment} {a : Application}
    (hknown : l.applications.get? p.application = some a) (hdrawn : p.DrawnOn a) :
    ∃ a', l'.applications.get? p.application = some a' ∧ p.DrawnOn a' := by
  obtain ⟨a', ha', hterms, hstatus⟩ := h.applications _ a hknown
  obtain ⟨-, huser, hamount, hcurrency, -⟩ : a'.id = a.id ∧ a'.user = a.user ∧
      a'.amount = a.amount ∧ a'.currency = a.currency ∧ a'.createdAt = a.createdAt := by
    simpa [Application.terms] using hterms
  have happroved : a'.status = a.status := hstatus.lasts (by rw [hdrawn.approved]; rfl)
  refine ⟨a', ha', ?_, ?_, ?_, ?_⟩
  · rw [happroved, hdrawn.approved]
  · rw [huser, hdrawn.user]
  · rw [hcurrency, hdrawn.currency]
  · rw [hamount]
    exact hdrawn.amount

/-- A loan that has begun is active, paid or defaulted from then on. -/
theorem Onward.begun (h : l.Onward Steps l') {id : LoanId} {loan : Loan}
    (hknown : l.loans.get? id = some loan) (hbegun : (Obligation.loan loan).Begun) :
    ∃ loan', l'.loans.get? id = some loan' ∧ (Obligation.loan loan').Begun := by
  obtain ⟨loan', hloan', honward⟩ := h.loans id loan hknown
  refine ⟨loan', hloan', ?_⟩
  rcases honward.status with hsame | hedge
  · simpa only [Obligation.Begun, hsame] using hbegun
  · simp only [Obligation.Begun] at hbegun ⊢
    rcases hbegun with hbegun | hbegun | hbegun <;>
      simp only [hbegun, Lifecycle.successors, List.mem_cons, List.not_mem_nil, or_false] at hedge
    exact .inr hedge

/-! ### The new rows -/

/-- A schedule that is written has an owner that had none, and its places are all different. -/
theorem Schedules.added {policy : Policy} {o : Obligation} {entries : List Installment}
    {c : Counters} {t : Table InstallmentId Installment} (h : l.Schedules policy o entries c t)
    (hl : l.Sound) :
    t.values = l.installments.values ++ entries ∧ (∀ e ∈ entries, e.owner = o.owner) ∧
      (∀ e ∈ l.installments.values, e.owner ≠ o.owner) ∧
      (entries.map Installment.sequence).Nodup := by
  have hlines := h.splits.2
  obtain ⟨draft, hdraft, hleft, hcreate⟩ := h
  obtain ⟨owner, howner, -⟩ := createBatch_ok.mp hcreate
  obtain rfl := Engine.batchOwner_draft hdraft howner
  obtain ⟨hnew, hold⟩ := owner_createBatch howner hcreate
  refine ⟨values_createBatch hl hleft hcreate, hnew, hold, ?_⟩
  obtain ⟨moment, -, hsplits⟩ := hlines
  have hgrow : (entries.map fun e => e.sequence.toNat).Nodup := by
    have hsequences := hsplits.sequences
    rw [List.map_map] at hsequences
    exact (congrArg List.Nodup hsequences).mpr List.nodup_range'
  rw [show (fun e : Installment => e.sequence.toNat) = UInt32.toNat ∘ Installment.sequence from rfl,
    ← List.map_map] at hgrow
  exact hgrow.of_map _

theorem Referential.drawn_adds (h : l.Referential) (honward : l.Onward Steps l')
    (hadds : l.Adds l') : ∀ p ∈ l'.payments.values, ∃ a,
      l'.applications.get? p.application = some a ∧ p.DrawnOn a := by
  intro p' hp'
  rcases hadds.payments with hsame | ⟨p, a, hvalues, hknown, hdrawn, -⟩
  · have hmem := List.mem_map_of_mem (f := Payment.terms) hp'
    rw [hsame] at hmem
    obtain ⟨p, hp, hterms⟩ := List.mem_map.mp hmem
    obtain ⟨-, happlication, huser, -, hamount, hcurrency, -⟩ : p.id = p'.id ∧
        p.application = p'.application ∧ p.user = p'.user ∧ p.order = p'.order ∧
        p.amount = p'.amount ∧ p.currency = p'.currency ∧ p.method = p'.method ∧
        p.createdAt = p'.createdAt := by
      simpa [Payment.terms] using hterms
    obtain ⟨a, hknown, hdrawn⟩ := h.drawn p hp
    obtain ⟨a', ha', hdrawn'⟩ := honward.drawn hknown hdrawn
    rw [← happlication]
    refine ⟨a', ha', hdrawn'.approved, ?_, ?_, ?_⟩
    · rw [← huser, hdrawn'.user]
    · rw [← hcurrency, hdrawn'.currency]
    · rw [← hamount]
      exact hdrawn'.amount
  · rw [hvalues, List.mem_append, List.mem_singleton] at hp'
    rcases hp' with hold | rfl
    · obtain ⟨a, hknown, hdrawn⟩ := h.drawn p' hold
      exact honward.drawn hknown hdrawn
    · exact honward.drawn hknown hdrawn

theorem Referential.orders_adds (h : l.Referential) (hadds : l.Adds l') :
    (l'.payments.values.map Payment.order).Nodup := by
  rcases hadds.payments with hsame | ⟨p, a, hvalues, -, -, hfresh⟩
  · have horders : ∀ payments : List Payment, payments.map Payment.order =
        (payments.map Payment.terms).map fun terms => terms.2.2.2.1 := by
      intro payments
      rw [List.map_map]
      rfl
    rw [horders, hsame, ← horders]
    exact h.orders
  · rw [hvalues, List.map_append, List.nodup_append]
    refine ⟨h.orders, List.nodup_singleton _, ?_⟩
    rintro order horder other hother rfl
    obtain ⟨q, hq, heq⟩ := List.mem_map.mp horder
    obtain rfl := List.mem_singleton.mp hother
    exact hfresh q hq heq

theorem Referential.owned_adds (h : l.Referential) (hl : l.Sound) (honward : l.Onward Steps l')
    (hadds : l.Adds l') : ∀ e ∈ l'.installments.values, l'.Knows e.owner := by
  intro e' he'
  rcases hadds.installments with hsame | ⟨policy, o, entries, c, hwritten, hknows⟩
  · have hmem := List.mem_map_of_mem (f := Installment.terms) he'
    rw [hsame] at hmem
    obtain ⟨e, he, hterms⟩ := List.mem_map.mp hmem
    have howner : e.owner = e'.owner := congrArg (fun terms => terms.2.1) hterms
    rw [← howner]
    exact honward.knows (h.owned e he)
  · obtain ⟨hvalues, hnew, -, -⟩ := hwritten.added hl
    rw [hvalues, List.mem_append] at he'
    rcases he' with hold | hentry
    · exact honward.knows (h.owned e' hold)
    · rw [hnew e' hentry]
      exact honward.knows hknows

theorem Referential.places_adds (h : l.Referential) (hl : l.Sound) (hadds : l.Adds l') :
    (l'.installments.values.map fun e => (e.owner, e.sequence)).Nodup := by
  rcases hadds.installments with hsame | ⟨policy, o, entries, c, hwritten, -⟩
  · have hplaces : ∀ entries : List Installment, (entries.map fun e => (e.owner, e.sequence)) =
        (entries.map Installment.terms).map fun terms => (terms.2.1, terms.2.2.1) := by
      intro entries
      rw [List.map_map]
      rfl
    rw [hplaces, hsame, ← hplaces]
    exact h.places
  · obtain ⟨hvalues, hnew, hold, hsequences⟩ := hwritten.added hl
    rw [hvalues, List.map_append, List.nodup_append]
    refine ⟨h.places, ?_, ?_⟩
    · have hof : (entries.map fun e => (e.owner, e.sequence)).map Prod.snd =
          entries.map Installment.sequence := by
        rw [List.map_map]
        rfl
      exact List.Nodup.of_map Prod.snd (hof ▸ hsequences)
    · rintro place hplace other hother rfl
      obtain ⟨e, he, heq⟩ := List.mem_map.mp hplace
      obtain ⟨e', he', heq'⟩ := List.mem_map.mp hother
      have howner : e.owner = e'.owner := congrArg Prod.fst (heq.trans heq'.symm)
      exact hold e he (howner.trans (hnew e' he'))

theorem Referential.repaid_adds (h : l.Referential) (honward : l.Onward Steps l')
    (hadds : l.Adds l') : ∀ r ∈ l'.repayments.values, ∃ loan,
      l'.loans.get? r.loan = some loan ∧ (Obligation.loan loan).Begun := by
  intro r' hr'
  rcases hadds.repayments with hsame | ⟨r, loan, hvalues, hknown, hbegun⟩
  · rw [hsame] at hr'
    obtain ⟨loan, hknown, hbegun⟩ := h.repaid r' hr'
    exact honward.begun hknown hbegun
  · rw [hvalues, List.mem_append, List.mem_singleton] at hr'
    rcases hr' with hold | rfl
    · obtain ⟨loan, hknown, hbegun⟩ := h.repaid r' hold
      exact honward.begun hknown hbegun
    · exact honward.begun hknown hbegun

/-- References are kept where rows go on and the rows that are added name rows that are there. -/
theorem Referential.step (h : l.Referential) (hl : l.Sound) (honward : l.Onward Steps l')
    (hadds : l.Adds l') : l'.Referential where
  drawn := h.drawn_adds honward hadds
  orders := h.orders_adds hadds
  owned := h.owned_adds hl honward hadds
  places := h.places_adds hl hadds
  repaid := h.repaid_adds honward hadds

end Ledger

/-! ## Calls -/

theorem drawnOn_of_checkDrawn {a : Application} {id : ApplicationId} {p : Payment}
    (h : Engine.checkDrawn a id p.user p.currency = .ok ())
    (hamount : p.amount.toNat ≤ a.amount.toNat) : p.DrawnOn a := by
  unfold Engine.checkDrawn at h
  split at h
  · cases h
  · rename_i happroved
    split at h
    · cases h
    · rename_i huser
      split at h
      · cases h
      · rename_i hcurrency
        exact ⟨not_not.mp happroved, not_not.mp huser, not_not.mp hcurrency, hamount⟩

section Calls

variable {faults : Faults} {policy : Policy} {b b' : Books} {call : EngineCall}

/-- What a call adds that succeeds. -/
theorem Effect.adds {result : call.Result} (h : Effect policy b call result b')
    (hsound : b.ledger.Sound) : b.ledger.Adds b'.ledger := by
  have hself := Ledger.Adds.refl b.ledger
  have howed : ∀ {owner : Owner} {e : Installment}, e ∈ b.ledger.installmentsOf owner →
      e ∈ b.ledger.installments.values := fun he => (Ledger.mem_installmentsOf.mp he).1
  cases h with
  | unchanged | collectionAsked => exact hself
  | applied | decided | filed | loanDecided => exact .of_eq rfl rfl rfl
  | @paid _ _ _ _ a _ _ p _ known drawn credit left fresh new =>
    have hlast : b.ledger.counters.payment < p.id.value := by
      rw [new]
      exact lt_succ left
    refine { hself with payments := .inr ⟨p, a, ?_, ?_, ?_, ?_⟩ }
    · exact Table.values_insert_last hsound.upToPayment hlast p
    · rw [new]
      exact known
    · subst new
      exact drawnOn_of_checkDrawn drawn (Nat.le_trans (Nat.le_add_left _ _) credit)
    · rw [new]
      exact fresh
  | @settled _ p p' _ _ entries c _ _ known _ _ _ new written =>
    refine { hself with payments := .inl ?_, installments := .inr ?_ }
    · exact hsound.payments.map_insert_known known (by rw [new]; rfl)
    · exact ⟨policy, _, entries, c, written, p, by rw [new]; exact known⟩
  | @paymentFailed _ p _ known =>
    refine { hself with payments := .inl ?_ }
    exact hsound.payments.map_insert_known known rfl
  | @collected _ entry _ _ known =>
    refine { hself with installments := .inl ?_ }
    exact hsound.installments.map_insert_known known rfl
  | @activated loan _ _ _ entries c _ known _ start written =>
    refine { hself with installments := .inr ?_ }
    exact ⟨policy, _, entries, c, written, loan, by rw [start]; exact known⟩
  | @repaid loan _ amount _ schedule r _ _ known active _ owed left new =>
    have hlast : b.ledger.counters.repayment < r.id.value := by
      rw [new]
      exact lt_succ left
    refine { hself with installments := .inl ?_, repayments := .inr ⟨r, loan, ?_, ?_, .inl active⟩ }
    · exact Ledger.map_terms_withStatus hsound.toOrdered fun e he =>
        howed (owed ▸ (Engine.mem_coveredEntries he).1)
    · exact Table.values_insert_last hsound.upToRepayment hlast r
    · rw [new]
      exact known
  | defaulted | defaultedAgain =>
    refine { hself with installments := .inl ?_ }
    exact Ledger.map_terms_withStatus hsound.toOrdered fun e he =>
      howed (Engine.mem_pendingEntries he).1

/-- What a call adds that fails. -/
theorem Remnant.adds (h : Remnant faults policy b call b') (hsound : b.ledger.Sound) :
    b.ledger.Adds b'.ledger := by
  have hself := Ledger.Adds.refl b.ledger
  cases h with
  | nothing alike => exact .of_eq alike.payments alike.installments alike.repayments
  | @settling _ p _ entries c _ _ known _ written =>
    exact { hself with installments := .inr ⟨policy, _, entries, c, written, p, known⟩ }
  | @activating loan _ entries c _ _ known _ written =>
    exact { hself with installments := .inr ⟨policy, _, entries, c, written, loan, known⟩ }
  | repaying =>
    refine { hself with installments := .inl ?_ }
    exact Ledger.map_terms_withStatus hsound.toOrdered fun e he =>
      (Ledger.mem_installmentsOf.mp (Engine.mem_coveredEntries he).1).1
  | defaulting =>
    refine { hself with installments := .inl ?_ }
    exact Ledger.map_terms_withStatus hsound.toOrdered fun e he =>
      (Ledger.mem_installmentsOf.mp (Engine.mem_pendingEntries he).1).1

end Calls

/-- Every step keeps the references. -/
theorem referential_invariant (faults : Faults) (policy : Policy) :
    Books.Invariant faults policy fun b => b.ledger.Balanced ∧ b.ledger.Referential := by
  rintro b b' hsound ⟨hb, hreferential⟩ hstep
  refine ⟨balanced_invariant faults policy hsound hb hstep, ?_⟩
  cases hstep with
  | effect effect =>
    exact hreferential.step hsound (effect.onward hsound hb) (effect.adds hsound)
  | remnant remnant =>
    exact hreferential.step hsound (remnant.onward hsound) (remnant.adds hsound)
  | taken | withdrawn => exact hreferential

/-- Every step keeps the moments at which loans were activated. -/
theorem activated_invariant (faults : Faults) (policy : Policy) :
    Books.Invariant faults policy fun b =>
      ∀ loan ∈ b.ledger.loans.values, (Obligation.loan loan).Begun → loan.activatedAt.isSome := by
  intro b b' hsound hb hstep
  have hinsert {l' : Ledger} (loan : Loan)
      (hloan : (Obligation.loan loan).Begun → loan.activatedAt.isSome)
      (hloans : l'.loans = b.ledger.loans.insert loan.id loan) :=
    Ledger.forall_loans_insert hb hsound loan hloan hloans
  cases hstep with
  | taken | withdrawn => exact hb
  | remnant remnant =>
    cases remnant with
    | nothing alike =>
      rw [alike.loans]
      exact hb
    | settling | activating | repaying | defaulting => exact hb
  | effect effect =>
    cases effect with
    | unchanged | applied | decided | paid | settled | paymentFailed | collected | collectionAsked
    | defaultedAgain => exact hb
    | @filed _ _ _ _ loan _ _ new =>
      refine hinsert loan ?_ rfl
      rw [new]
      rintro (h | h | h) <;> cases h
    | @loanDecided loan next _ approvedAt _ _ verdict =>
      refine hinsert { loan with status := next, approvedAt } ?_ rfl
      rw [verdict]
      split <;> rintro (h | h | h) <;> cases h
    | @activated loan started loan' moment _ _ _ _ _ start _ new =>
      refine hinsert loan' (fun _ => ?_) (by rw [new, start])
      rw [new, start]
      rfl
    | @repaid loan _ amount _ schedule _ _ _ known active =>
      have hold := hb loan (hsound.loans.mem_values.mpr known) (.inl active)
      exact hinsert (loan.repaid schedule amount).1 (fun _ => hold) rfl
    | @defaulted loan known active =>
      have hold := hb loan (hsound.loans.mem_values.mpr known) (.inl active)
      exact hinsert { loan with status := .defaulted, nextPayment := none } (fun _ => hold) rfl

/-! ## Keys -/

/-- Every text of the table is a row that stands under the key of its own number. -/
def Archive.Keyed (α : Type) [Row α] (d : Database) : Prop :=
  ∀ stored ∈ (d.table (Row.table α)).rows, ∃ row : α,
    Row.decode stored.2 = .ok row ∧ stored.1 = Row.key row

/-- Every row of the five tables stands under its own number. -/
def Store.Keyed : Store → Prop
  | .memory l => l.applications.Keyed Application.id ∧ l.payments.Keyed Payment.id ∧
      l.installments.Keyed Installment.id ∧ l.loans.Keyed Loan.id ∧ l.repayments.Keyed Repayment.id
  | .durable a => Archive.Keyed Application a.database ∧ Archive.Keyed Payment a.database ∧
      Archive.Keyed Installment a.database ∧ Archive.Keyed Loan a.database ∧
      Archive.Keyed Repayment a.database

theorem Archive.keyed_stored {α : Type} [Row α] [Row.Legible α] {d : Database}
    {t : Table (Id (Row.entity α)) α} (hstored : d.table (Row.table α) = Row.stored α t)
    (hkeyed : t.Keyed Row.id) : Archive.Keyed α d := by
  intro stored hmem
  rw [hstored] at hmem
  obtain ⟨row, hrow, rfl⟩ := List.mem_map.mp hmem
  refine ⟨row.2, Row.decode_encode row.2, ?_⟩
  rw [Row.key, ← hkeyed row hrow]
  rfl

theorem Store.Keeps.keyed {s : Store} {l : Ledger} (h : s.Keeps l) (hl : l.Ordered) : s.Keyed := by
  have happlications := hl.applications.keyed
  have hpayments := hl.payments.keyed
  have hinstallments := hl.installments.keyed
  have hloans := hl.loans.keyed
  have hrepayments := hl.repayments.keyed
  cases s with
  | memory ledger =>
    obtain rfl : ledger = l := h
    exact ⟨happlications, hpayments, hinstallments, hloans, hrepayments⟩
  | durable archive =>
    obtain rfl : archive = Archive.ofLedger l := h
    exact ⟨Archive.keyed_stored (t := l.applications) rfl happlications,
      Archive.keyed_stored (t := l.payments) rfl hpayments,
      Archive.keyed_stored (t := l.installments) rfl hinstallments,
      Archive.keyed_stored (t := l.loans) rfl hloans,
      Archive.keyed_stored (t := l.repayments) rfl hrepayments⟩

/-! ## References in the store -/

/-- A look-up finds the owner. -/
def Store.Knows (s : Store) : Owner → Prop
  | .payment id => ∃ p, s.look (.getPayment id) = .ok (some p)
  | .loan id => ∃ loan, s.look (.getLoan id) = .ok (some loan)

/-- Every payment names an approved application that takes it, every entry of a schedule a payment
or a loan, and every repayment a loan that was activated. No two payments share an order reference
and no two entries of one owner a sequence, and every row stands under its own number. -/
structure Store.Referential (s : Store) : Prop where
  payments : ∃ payments, s.look .listPayments = .ok payments ∧
    (payments.map Payment.order).Nodup ∧
    ∀ p ∈ payments, ∃ a, s.look (.getApplication p.application) = .ok (some a) ∧ p.DrawnOn a
  entries : ∀ id, ∃ found, s.look (.getInstallment id) = .ok found ∧ ∀ e ∈ found, s.Knows e.owner
  schedules : ∀ owner, ∃ entries, s.look (.installmentsOf owner) = .ok entries ∧
    (entries.map Installment.sequence).Nodup ∧ (entries ≠ [] → s.Knows owner)
  repayments : ∀ id, ∃ repayments, s.look (.repaymentsOf id) = .ok repayments ∧
    (repayments ≠ [] → ∃ loan, s.look (.getLoan id) = .ok (some loan) ∧ loan.Activated)
  keyed : s.Keyed

/-- No sequence stands twice in the schedule of an owner. -/
theorem Ledger.Referential.sequences {l : Ledger} (h : l.Referential) (owner : Owner) :
    ((l.installmentsOf owner).map Installment.sequence).Nodup := by
  have hplaces := h.places.sublist
    ((List.filter_sublist (p := fun e : Installment => e.owner = owner)).map _)
  refine ((perm_bySequence _).map _).nodup_iff.mpr (List.Nodup.of_map (Prod.mk owner) ?_)
  rw [List.map_map]
  refine (congrArg List.Nodup (List.map_congr_left fun e he => ?_)).mpr hplaces
  simp only [Function.comp_apply, of_decide_eq_true (List.mem_filter.mp he).2]

theorem Ledger.Referential.store {s : Store} {l : Ledger} (h : l.Referential)
    (hstamped : ∀ loan ∈ l.loans.values, (Obligation.loan loan).Begun → loan.activatedAt.isSome)
    (hkeeps : s.Keeps l) (hl : l.Ordered) : s.Referential := by
  have hknows : ∀ owner, l.Knows owner → s.Knows owner := by
    rintro (id | id) ⟨row, hrow⟩
    · exact ⟨row, (hkeeps.look hl (.getPayment id) rfl).trans (congrArg _ hrow)⟩
    · exact ⟨row, (hkeeps.look hl (.getLoan id) rfl).trans (congrArg _ hrow)⟩
  constructor
  · refine ⟨l.payments.values, hkeeps.look hl .listPayments rfl, h.orders, ?_⟩
    intro p hp
    obtain ⟨a, hknown, hdrawn⟩ := h.drawn p hp
    exact ⟨a, (hkeeps.look hl (.getApplication _) rfl).trans (congrArg _ hknown), hdrawn⟩
  · intro id
    refine ⟨l.installments.get? id, hkeeps.look hl (.getInstallment id) rfl, ?_⟩
    intro e he
    obtain rfl := hl.installments.id_of_get? he
    exact hknows _ (h.owned e (hl.installments.mem_values.mpr he))
  · intro owner
    refine ⟨l.installmentsOf owner, hkeeps.look hl (.installmentsOf owner) rfl,
      h.sequences owner, ?_⟩
    intro hne
    obtain ⟨e, he⟩ := List.exists_mem_of_ne_nil _ hne
    obtain ⟨hmem, rfl⟩ := Ledger.mem_installmentsOf.mp he
    exact hknows _ (h.owned e hmem)
  · intro id
    refine ⟨l.repayments.values.filter fun r => r.loan = id,
      hkeeps.look hl (.repaymentsOf id) rfl, ?_⟩
    intro hne
    obtain ⟨r, hr⟩ := List.exists_mem_of_ne_nil _ hne
    obtain ⟨hmem, hof⟩ := List.mem_filter.mp hr
    obtain ⟨loan, hknown, hbegun⟩ := h.repaid r hmem
    rw [of_decide_eq_true hof] at hknown
    obtain rfl := hl.loans.id_of_get? hknown
    exact ⟨loan, (hkeeps.look hl (.getLoan _) rfl).trans (congrArg _ hknown), hbegun,
      hstamped loan (hl.loans.mem_values.mpr hknown) hbegun⟩
  · exact hkeeps.keyed hl

/-- The references are kept in all states that engines come to. Any call may fail or crash, undoing
writes included, and a crash before a store call leaves the state that the call would have met. -/
theorem History.referential {policy : Policy} {w : World} (h : History Faults.any policy w) :
    w.store.Referential := by
  have hinvariant := fun policy => (referential_invariant Faults.any policy).and
    (activated_invariant Faults.any policy)
  have hempty : ({} : Ledger).Balanced := fun _ h => nomatch h
  obtain ⟨b, hshows, hsound, ⟨-, hreferential⟩, hstamped⟩ := h.books hinvariant
    ⟨⟨hempty, Ledger.referential_empty⟩, fun _ h => (nomatch h)⟩
    fun {b} ⟨⟨hbalanced, hreferential⟩, hstamped⟩ =>
      ⟨⟨hbalanced.congr rfl, { hreferential with }⟩, hstamped⟩
  exact hreferential.store hstamped hshows.1 hsound.toOrdered

/-- A schedule has an owner that is still pending, since its settlement was neither finished nor
undone. -/
theorem World.halfDone_referential :
    (halfDone.store.look (.installmentsOf (.payment ⟨1⟩))).map
      (fun all => all.map fun e => (e.id.value, e.sequence)) = .ok [(1, 1), (2, 2), (3, 3)] ∧
    (halfDone.store.look (.getPayment ⟨1⟩)).map (fun found => found.map Payment.status) =
      .ok (some .pending) ∧
    (halfDone.store.look (.installmentsOf (.loan ⟨1⟩))).map
      (fun all => all.map fun e => (e.id.value, e.sequence)) =
        .ok [(4, 1), (5, 2), (6, 3), (7, 4)] ∧
    halfDone.store.Referential :=
  ⟨by decide +kernel, by decide +kernel, by decide +kernel,
    History.referential (Reached.afterCalls (.start ⟨.inl rfl, rfl⟩) (by decide +kernel)).history⟩

end Lending
