import Lending.Proofs.Engine.Covering
import Lending.Proofs.Engine.Schedules

/-!
# Nothing moves backwards

Rows are never lost, and what was agreed about them never changes. A status only moves along the
edges of its graph, what was paid on a loan only grows, and repayments are only added. A write that
is undone never takes back more than its own call has written, not even after calls that left
something half done.

* `Lifecycle.Steps`, `Lifecycle.Lasts`: how a status may go on in one call, and in any number.
* `Ledger.Balanced`: why the counters of a loan cannot wrap.
* `Effect.onward`, `Remnant.onward`: every way in which a call ends moves the rows onward.
* `History.movesOnward`: what every call, every drain and every later state makes of a store.
-/

namespace Lending

/-! ## Statuses -/

namespace Lifecycle

/-- A way in which the statuses of every kind may go on. -/
abbrev Way := ∀ {σ : Type} [Lifecycle σ], σ → σ → Prop

variable {σ : Type} [Lifecycle σ] {s t : σ}

/-- The status stays or moves along one edge of its graph. -/
def Steps (s t : σ) : Prop := t = s ∨ t ∈ successors s

/-- The status stays if nothing follows it. -/
def Lasts (s t : σ) : Prop := isTerminal s = true → t = s

theorem Steps.lasts (h : Steps s t) : Lasts s t := by
  intro hterminal
  rw [isTerminal, List.isEmpty_iff] at hterminal
  rcases h with heq | hmem
  · exact heq
  · rw [hterminal] at hmem
    cases hmem

/-- Two moves where a second one leads nowhere are one. -/
theorem Steps.trans (hdone : ∀ {s t : σ}, t ∈ successors s → isTerminal t = true) {u : σ}
    (h : Steps s t) (h' : Steps t u) : Steps s u := by
  rcases h with rfl | hmem
  · exact h'
  · rw [h'.lasts (hdone hmem)]
    exact .inr hmem

/-- A status that is delivered is the last of its thing, and the token is its text. -/
theorem ofToken_ok {token : String} (h : ofToken σ token = .ok s) :
    isTerminal s = true ∧ text s = token := by
  unfold ofToken at h
  split at h
  · rename_i found hfound
    split at h
    · rename_i hterminal
      obtain rfl := Except.ok.inj h
      exact ⟨hterminal, by simpa using List.find?_some hfound⟩
    · cases h
  · cases h

end Lifecycle

open Lifecycle (Steps Lasts Way)

/-! ## Rows -/

/-- A row keeps its terms, and its status goes on. -/
structure GoesOn {α σ τ : Type} [Lifecycle σ] (way : Way) (terms : α → τ) (status : α → σ)
    (a a' : α) : Prop where
  terms : terms a' = terms a
  status : way (status a) (status a')

/-- What never changes of an application. -/
def Application.terms (a : Application) := (a.id, a.user, a.amount, a.currency, a.createdAt)

/-- What never changes of a payment. -/
def Payment.terms (p : Payment) :=
  (p.id, p.application, p.user, p.order, p.amount, p.currency, p.method, p.createdAt)

/-- What never changes of an entry of a schedule. -/
def Installment.terms (e : Installment) := (e.id, e.owner, e.sequence, e.dueDate, e.amount)

/-- What never changes of a loan. -/
def Loan.terms (loan : Loan) :=
  (loan.id, loan.user, loan.principal, loan.currency, loan.term, loan.createdAt)

def Application.Onward (way : Way) : Application → Application → Prop :=
  GoesOn way Application.terms Application.status

def Payment.Onward (way : Way) : Payment → Payment → Prop :=
  GoesOn way Payment.terms Payment.status

def Installment.Onward (way : Way) : Installment → Installment → Prop :=
  GoesOn way Installment.terms Installment.status

/-- A loan goes on, what was paid on it does not shrink, and what remains does not grow. -/
structure Loan.Onward (way : Way) (loan loan' : Loan) : Prop extends
    GoesOn way Loan.terms Loan.status loan loan' where
  totalPaid : loan.totalPaid ≤ loan'.totalPaid
  remaining : loan'.remaining ≤ loan.remaining

section Rows

variable {α σ τ : Type} [Lifecycle σ] {terms : α → τ} {status : α → σ} {a b c : α}

theorem GoesOn.refl (a : α) : GoesOn Steps terms status a a := ⟨rfl, .inl rfl⟩

theorem GoesOn.step_trans (hdone : ∀ {s t : σ}, t ∈ Lifecycle.successors s →
    Lifecycle.isTerminal t = true) (hab : GoesOn Steps terms status a b)
    (hbc : GoesOn Steps terms status b c) : GoesOn Steps terms status a c :=
  ⟨hbc.terms.trans hab.terms, hab.status.trans hdone hbc.status⟩

theorem GoesOn.lasts (h : GoesOn Steps terms status a b) : GoesOn Lasts terms status a b :=
  ⟨h.terms, h.status.lasts⟩

theorem GoesOn.trans (hab : GoesOn Lasts terms status a b) (hbc : GoesOn Lasts terms status b c) :
    GoesOn Lasts terms status a c := by
  refine ⟨hbc.terms.trans hab.terms, ?_⟩
  intro hterminal
  have heq := hab.status hterminal
  rw [← heq] at hterminal ⊢
  exact hbc.status hterminal

end Rows

namespace Loan.Onward

variable {a b c : Loan}

theorem refl (loan : Loan) : loan.Onward Steps loan :=
  ⟨GoesOn.refl loan, UInt64.le_refl _, UInt64.le_refl _⟩

theorem lasts (h : a.Onward Steps b) : a.Onward Lasts b :=
  ⟨h.toGoesOn.lasts, h.totalPaid, h.remaining⟩

theorem trans (hab : a.Onward Lasts b) (hbc : b.Onward Lasts c) : a.Onward Lasts c :=
  ⟨hab.toGoesOn.trans hbc.toGoesOn, UInt64.le_trans hab.totalPaid hbc.totalPaid,
    UInt64.le_trans hbc.remaining hab.remaining⟩

end Loan.Onward

/-! ## Tables -/

namespace Table

variable {κ α : Type} [DecidableEq κ] {R R' : α → α → Prop} {t t' t'' : Table κ α}

/-- Every row of the first table stands in the second under its key, as what has become of it. -/
def Carries (R : α → α → Prop) (t t' : Table κ α) : Prop :=
  ∀ key, ∀ a ∈ t.get? key, ∃ a' ∈ t'.get? key, R a a'

theorem Carries.refl (hrefl : ∀ a, R a a) (t : Table κ α) : t.Carries R t :=
  fun _ a ha => ⟨a, ha, hrefl a⟩

theorem Carries.mono (h : t.Carries R t') (hR : ∀ {a a'}, R a a' → R' a a') : t.Carries R' t' := by
  intro key a ha
  obtain ⟨a', ha', hrel⟩ := h key a ha
  exact ⟨a', ha', hR hrel⟩

theorem Carries.trans (h : t.Carries R t') (h' : t'.Carries R t'')
    (htrans : ∀ {a b c}, R a b → R b c → R a c) : t.Carries R t'' := by
  intro key a ha
  obtain ⟨a', ha', hrel⟩ := h key a ha
  obtain ⟨a'', ha'', hrel'⟩ := h' key a' ha'
  exact ⟨a'', ha'', htrans hrel hrel'⟩

/-- A row is written under a key that is new, or over a row that it goes on from. -/
theorem Carries.insert [Ord κ] [Std.LawfulEqOrd κ] (hrefl : ∀ a, R a a) {key : κ} {new : α}
    (hnew : ∀ a ∈ t.get? key, R a new) : t.Carries R (t.insert key new) := by
  intro key' a ha
  rw [get?_insert]
  split
  · rename_i heq
    subst heq
    exact ⟨new, rfl, hnew a ha⟩
  · exact ⟨a, ha, hrefl a⟩

/-- No row is lost where rows are only added. -/
theorem Carries.append {e : Entity} {id : α → Id e} {t t' : Table (Id e) α} {new : List α}
    (hrefl : ∀ a, R a a) (h : t.Booked id) (h' : t'.Booked id)
    (hvalues : t'.values = t.values ++ new) : t.Carries R t' := by
  intro key a ha
  obtain rfl := h.id_of_get? ha
  have hmem : a ∈ t'.values := hvalues ▸ List.mem_append_left _ (h.mem_values.mpr ha)
  exact ⟨a, h'.mem_values.mp hmem, hrefl a⟩

end Table

/-! ## Ledgers -/

/-- No row is lost, every row goes on, and repayments are only added. -/
structure Ledger.Onward (way : Way) (l l' : Ledger) : Prop where
  applications : l.applications.Carries (Application.Onward way) l'.applications
  payments : l.payments.Carries (Payment.Onward way) l'.payments
  installments : l.installments.Carries (Installment.Onward way) l'.installments
  loans : l.loans.Carries (Loan.Onward way) l'.loans
  repayments : l.repayments.values <+: l'.repayments.values

namespace Ledger

variable {l l' l'' : Ledger}

theorem Onward.refl (l : Ledger) : l.Onward Steps l where
  applications := .refl GoesOn.refl _
  payments := .refl GoesOn.refl _
  installments := .refl GoesOn.refl _
  loans := .refl Loan.Onward.refl _
  repayments := List.prefix_rfl

/-- Ledgers that differ in their counters only. -/
theorem Onward.of_eq (happlications : l'.applications = l.applications)
    (hpayments : l'.payments = l.payments) (hinstallments : l'.installments = l.installments)
    (hloans : l'.loans = l.loans) (hrepayments : l'.repayments = l.repayments) :
    l.Onward Steps l' where
  applications := happlications ▸ .refl GoesOn.refl _
  payments := hpayments ▸ .refl GoesOn.refl _
  installments := hinstallments ▸ .refl GoesOn.refl _
  loans := hloans ▸ .refl Loan.Onward.refl _
  repayments := hrepayments ▸ List.prefix_rfl

theorem Onward.lasts (h : l.Onward Steps l') : l.Onward Lasts l' where
  applications := h.applications.mono GoesOn.lasts
  payments := h.payments.mono GoesOn.lasts
  installments := h.installments.mono GoesOn.lasts
  loans := h.loans.mono Loan.Onward.lasts
  repayments := h.repayments

theorem Onward.trans (h : l.Onward Lasts l') (h' : l'.Onward Lasts l'') : l.Onward Lasts l'' where
  applications := h.applications.trans h'.applications GoesOn.trans
  payments := h.payments.trans h'.payments GoesOn.trans
  installments := h.installments.trans h'.installments GoesOn.trans
  loans := h.loans.trans h'.loans Loan.Onward.trans
  repayments := h.repayments.trans h'.repayments

/-! ### Entries -/

/-- Pending entries that get another status. -/
theorem carries_withStatus (h : l.Ordered) {status : InstallmentStatus}
    {entries : List Installment} (hmem : ∀ e ∈ entries, e ∈ l.installments.values)
    (hpending : ∀ e ∈ entries, e.status = .pending)
    (hstatus : status ∈ Lifecycle.successors InstallmentStatus.pending)
    (hinstallments : l'.installments = insertBatch l.installments (withStatus status entries)) :
    l.installments.Carries (Installment.Onward Steps) l'.installments := by
  have hrestatus := insertBatch_restatus h.installments status hmem
  intro id e he
  have hget := get?_restatus (t := l.installments)
    (fun e => if e ∈ entries then status else e.status) id
  rw [he] at hget
  have hget' : l'.installments.get? id =
      some { e with status := if e ∈ entries then status else e.status } := by
    rw [hinstallments]
    exact (congrArg (·.get? id) hrestatus).trans hget
  refine ⟨_, hget', rfl, ?_⟩
  show Steps e.status (if e ∈ entries then status else e.status)
  split
  · rename_i hwritten
    rw [hpending e hwritten]
    exact .inr hstatus
  · exact .inl rfl

/-- A new schedule is added to the entries before it. -/
theorem Schedules.carries {policy : Policy} {o : Obligation} {entries : List Installment}
    {c : Counters} {t : Table InstallmentId Installment} (h : l.Schedules policy o entries c t)
    (hl : l.Sound) : l.installments.Carries (Installment.Onward Steps) t := by
  obtain ⟨draft, -, hleft, hcreate⟩ := h
  have hvalues := values_createBatch hl hleft hcreate
  have hanswer : l.answer (.createBatch draft) =
    .ok (entries, { l with counters := c, installments := t }) := hcreate
  have hordered := hl.toOrdered.answer hanswer
  exact .append GoesOn.refl hl.installments hordered.installments hvalues

/-! ### Counters of loans -/

/-- The counters of every loan make up its principal. -/
def Balanced (l : Ledger) : Prop := ∀ loan ∈ l.loans.values, loan.Balanced

theorem Balanced.congr (h : l.Balanced) (hloans : l'.loans = l.loans) : l'.Balanced := by
  rw [Balanced, hloans]
  exact h

/-- What holds of every loan holds of every loan after one that has it was written. -/
theorem forall_loans_insert {P : Loan → Prop} (h : ∀ loan ∈ l.loans.values, P loan) (hl : l.Sound)
    (loan : Loan) (hloan : P loan) (hloans : l'.loans = l.loans.insert loan.id loan) :
    ∀ loan ∈ l'.loans.values, P loan := by
  rw [hloans]
  exact hl.loans.forall_values_insert h hloan

theorem Balanced.insert (h : l.Balanced) (hl : l.Sound) (loan : Loan) (hloan : loan.Balanced)
    (hloans : l'.loans = l.loans.insert loan.id loan) : l'.Balanced :=
  forall_loans_insert h hl loan hloan hloans

theorem Balanced.get? (h : l.Balanced) (hl : l.Sound) {loan : Loan}
    (hknown : l.loans.get? loan.id = some loan) : loan.Balanced :=
  h loan (hl.loans.mem_values.mpr hknown)

end Ledger

/-- Every step keeps the balance of the counters. -/
theorem balanced_invariant (faults : Faults) (policy : Policy) :
    Books.Invariant faults policy fun b => b.ledger.Balanced := by
  intro b b' hsound hb hstep
  cases hstep with
  | taken now => exact hb
  | withdrawn n => exact hb
  | remnant remnant =>
    cases remnant with
    | nothing alike => exact hb.congr alike.loans
    | settling | activating | repaying | defaulting => exact hb.congr rfl
  | effect effect =>
    cases effect with
    | unchanged => exact hb
    | applied | decided | paid | settled | paymentFailed | collected | collectionAsked
    | defaultedAgain => exact hb.congr rfl
    | @filed _ principal _ _ loan _ _ new =>
      refine hb.insert hsound loan ?_ rfl
      rw [new]
      exact Nat.zero_add _
    | @loanDecided loan next _ approvedAt known =>
      have hold := hb.get? hsound known
      exact hb.insert hsound { loan with status := next, approvedAt } hold rfl
    | @activated loan _ loan' _ _ _ _ known _ start _ new =>
      have hold := hb.get? hsound known
      have hid : loan'.id = loan.id := by rw [new, start]
      refine hb.insert hsound loan' ?_ (by rw [hid])
      rw [new, start]
      exact hold
    | @repaid loan _ amount _ schedule _ _ _ known _ enough =>
      have hold := hb.get? hsound known
      obtain ⟨henough, hpaid, hremaining⟩ := hold.counters enough
      refine hb.insert hsound (loan.repaid schedule amount).1 ?_ rfl
      rw [Loan.Balanced] at hold
      simp only [Loan.Balanced, Loan.repaid, hpaid, hremaining]
      omega
    | @defaulted loan known =>
      have hold := hb.get? hsound known
      exact hb.insert hsound { loan with status := .defaulted, nextPayment := none } hold rfl

/-! ## Calls -/

section Calls

variable {faults : Faults} {policy : Policy} {b b' : Books} {call : EngineCall}

/-- A row with a number that was not given before replaces none. -/
theorem forall_mem_of_new {e : Entity} {α : Type} {t : Table (Id e) α} {last : UInt64} {key : Id e}
    (h : t.UpTo last) (hkey : last < key.value) {P : α → Prop} : ∀ a ∈ t.get? key, P a := by
  rw [h.get?_eq_none hkey]
  nofun

theorem forall_mem_of_known {κ α : Type} [DecidableEq κ] {t : Table κ α} {key : κ} {a : α}
    (h : t.get? key = some a) {P : α → Prop} (ha : P a) : ∀ a' ∈ t.get? key, P a' := by
  rw [h]
  rintro _ ⟨⟩
  exact ha

/-- A call that succeeds moves the rows onward. -/
theorem Effect.onward {result : call.Result} (h : Effect policy b call result b')
    (hsound : b.ledger.Sound) (hb : b.ledger.Balanced) : b.ledger.Onward Steps b'.ledger := by
  have hself := Ledger.Onward.refl b.ledger
  have howed : ∀ {owner : Owner} {e : Installment}, e ∈ b.ledger.installmentsOf owner →
      e ∈ b.ledger.installments.values := fun he => (Ledger.mem_installmentsOf.mp he).1
  cases h with
  | unchanged | collectionAsked => exact hself
  | @applied _ _ _ _ a _ left new =>
    refine { hself with applications := .insert GoesOn.refl ?_ }
    rw [new]
    exact forall_mem_of_new hsound.upToApplication (lt_succ left)
  | decided known pending verdict =>
    refine { hself with applications := .insert GoesOn.refl (forall_mem_of_known known ⟨rfl, ?_⟩) }
    rw [pending, verdict]
    right
    split <;> simp [Lifecycle.successors]
  | @paid _ _ _ _ _ _ _ p _ _ _ _ left _ new =>
    refine { hself with payments := .insert GoesOn.refl ?_ }
    rw [new]
    exact forall_mem_of_new hsound.upToPayment (lt_succ left)
  | @settled _ p p' _ _ _ _ _ _ known pending _ _ new written =>
    have hedge : Steps p.status .successful := by
      rw [pending]
      exact .inr (by decide)
    have honward : p.Onward Steps p' := by
      rw [new]
      exact ⟨rfl, hedge⟩
    exact { hself with
      payments := .insert GoesOn.refl (forall_mem_of_known known honward)
      installments := written.carries hsound }
  | @paymentFailed _ p _ known pending =>
    have hedge : Steps p.status .failed := by
      rw [pending]
      exact .inr (by decide)
    have honward : p.Onward Steps { p with status := .failed } := ⟨rfl, hedge⟩
    exact { hself with payments := .insert GoesOn.refl (forall_mem_of_known known honward) }
  | @collected _ entry next outcome known owner pending =>
    have hmem : ∀ e ∈ [entry], e ∈ b.ledger.installments.values := fun e he => by
      rw [List.mem_singleton.mp he]
      exact hsound.installments.mem_values.mpr known
    have hpending : ∀ e ∈ [entry], e.status = .pending := fun e he => by
      rw [List.mem_singleton.mp he]
      exact pending
    have hnext : next ∈ Lifecycle.successors InstallmentStatus.pending := by
      have hterminal := (Lifecycle.ofToken_ok outcome).1
      cases next with
      | pending => cases hterminal
      | paid | failed => decide
    exact { hself with
      installments := Ledger.carries_withStatus hsound.toOrdered hmem hpending hnext
        (Ledger.insert_withStatus _ entry next) }
  | @filed _ _ _ _ loan _ left new =>
    refine { hself with loans := .insert Loan.Onward.refl ?_ }
    rw [new]
    exact forall_mem_of_new hsound.upToLoan (lt_succ left)
  | @loanDecided loan next _ approvedAt known pending verdict =>
    have hedge : Steps loan.status next := by
      rw [pending, verdict]
      right
      split <;> simp [Lifecycle.successors]
    have honward : loan.Onward Steps { loan with status := next, approvedAt } :=
      ⟨⟨rfl, hedge⟩, UInt64.le_refl _, UInt64.le_refl _⟩
    exact { hself with loans := .insert Loan.Onward.refl (forall_mem_of_known known honward) }
  | @activated loan _ loan' _ _ _ _ known approved start written new =>
    have hedge : Steps loan.status .active := by
      rw [approved]
      exact .inr (by decide)
    have honward : loan.Onward Steps loan' := by
      rw [new, start]
      exact ⟨⟨rfl, hedge⟩, UInt64.le_refl _, UInt64.le_refl _⟩
    exact { hself with
      installments := written.carries hsound
      loans := .insert Loan.Onward.refl (forall_mem_of_known known honward) }
  | @repaid loan _ amount _ schedule r _ _ known active enough owed left new =>
    obtain ⟨henough, hpaid, hremaining⟩ := (hb.get? hsound known).counters enough
    have hedge : Steps loan.status (loan.repaid schedule amount).1.status := by
      simp only [Loan.repaid, active]
      split
      · exact .inr (by decide)
      · exact .inl rfl
    have honward : loan.Onward Steps (loan.repaid schedule amount).1 := by
      refine ⟨⟨rfl, hedge⟩, ?_, ?_⟩
      · rw [UInt64.le_iff_toNat_le]
        simp only [Loan.repaid, hpaid]
        omega
      · rw [UInt64.le_iff_toNat_le]
        simp only [Loan.repaid, hremaining]
        omega
    have hlast : b.ledger.counters.repayment < r.id.value := by
      rw [new]
      exact lt_succ left
    exact { hself with
      installments := Ledger.carries_withStatus hsound.toOrdered
        (fun e he => howed (owed ▸ (Engine.mem_coveredEntries he).1))
        (fun e he => (Engine.mem_coveredEntries he).2) (by decide) rfl
      loans := .insert Loan.Onward.refl (forall_mem_of_known known honward)
      repayments := ⟨[r], (Table.values_insert_last hsound.upToRepayment hlast r).symm⟩ }
  | @defaulted loan known active =>
    have hedge : Steps loan.status .defaulted := by
      rw [active]
      exact .inr (by decide)
    have honward : loan.Onward Steps { loan with status := .defaulted, nextPayment := none } :=
      ⟨⟨rfl, hedge⟩, UInt64.le_refl _, UInt64.le_refl _⟩
    exact { hself with
      installments := Ledger.carries_withStatus hsound.toOrdered
        (fun e he => howed (Engine.mem_pendingEntries he).1)
        (fun e he => (Engine.mem_pendingEntries he).2) (by decide) rfl
      loans := .insert Loan.Onward.refl (forall_mem_of_known known honward) }
  | defaultedAgain =>
    exact { hself with
      installments := Ledger.carries_withStatus hsound.toOrdered
        (fun e he => howed (Engine.mem_pendingEntries he).1)
        (fun e he => (Engine.mem_pendingEntries he).2) (by decide) rfl }

/-- A call that fails moves the rows onward, even if it could not undo what it had written. -/
theorem Remnant.onward (h : Remnant faults policy b call b') (hsound : b.ledger.Sound) :
    b.ledger.Onward Steps b'.ledger := by
  have hself := Ledger.Onward.refl b.ledger
  cases h with
  | nothing alike =>
    exact .of_eq alike.applications alike.payments alike.installments alike.loans alike.repayments
  | settling _ _ _ written | activating _ _ _ written =>
    exact { hself with installments := written.carries hsound }
  | repaying =>
    exact { hself with
      installments := Ledger.carries_withStatus hsound.toOrdered
        (fun e he => (Ledger.mem_installmentsOf.mp (Engine.mem_coveredEntries he).1).1)
        (fun e he => (Engine.mem_coveredEntries he).2) (by decide) rfl }
  | defaulting =>
    exact { hself with
      installments := Ledger.carries_withStatus hsound.toOrdered
        (fun e he => (Ledger.mem_installmentsOf.mp (Engine.mem_pendingEntries he).1).1)
        (fun e he => (Engine.mem_pendingEntries he).2) (by decide) rfl }

/-- However a call ends, it moved the rows onward. -/
theorem EngineCall.always_onward (hsound : b.ledger.Sound) (hb : b.ledger.Balanced)
    (policy : Policy) (call : EngineCall) (limit : Deadline) :
    (call.program policy limit).run.Always faults
      (fun _ b' => b'.ledger.Balanced ∧ b.ledger.Onward Steps b'.ledger) b := by
  have hkept := balanced_invariant faults policy
  refine Program.Always.mono ?_ (call.ensures hsound limit)
  rintro (_ | cause | result) b' hend
  · exact ⟨hkept hsound hb (.remnant hend), hend.onward hsound⟩
  · exact ⟨hkept hsound hb (.remnant hend), hend.onward hsound⟩
  · exact ⟨hkept hsound hb (.effect hend), hend.onward hsound hb⟩

end Calls

/-! ## Drains -/

/-- Only payments and entries of schedules are moved. -/
structure Ledger.Delivered (l l' : Ledger) : Prop extends l.Onward Steps l' where
  sameApplications : l'.applications = l.applications
  sameLoans : l'.loans = l.loans
  sameRepayments : l'.repayments = l.repayments

section Drains

variable {faults : Faults} {policy : Policy} {b b' : Books} {n : Notification}

theorem Ledger.Delivered.refl (l : Ledger) : l.Delivered l := ⟨.refl l, rfl, rfl, rfl⟩

/-- Payments and entries move once at most, so what several deliveries do is one step of each. -/
theorem Ledger.Delivered.trans {l l' l'' : Ledger} (h : l.Delivered l') (h' : l'.Delivered l'') :
    l.Delivered l'' := by
  have happlications := h'.sameApplications.trans h.sameApplications
  have hloans := h'.sameLoans.trans h.sameLoans
  have hrepayments := h'.sameRepayments.trans h.sameRepayments
  have hpayment : ∀ {s t : PaymentStatus}, t ∈ Lifecycle.successors s →
      Lifecycle.isTerminal t = true := by
    intro s t
    cases s <;> cases t <;> decide
  have hentry : ∀ {s t : InstallmentStatus}, t ∈ Lifecycle.successors s →
      Lifecycle.isTerminal t = true := by
    intro s t
    cases s <;> cases t <;> decide
  refine ⟨?_, happlications, hloans, hrepayments⟩
  exact
    { applications := happlications ▸ .refl GoesOn.refl _
      payments := h.payments.trans h'.payments (GoesOn.step_trans hpayment)
      installments := h.installments.trans h'.installments (GoesOn.step_trans hentry)
      loans := hloans ▸ .refl Loan.Onward.refl _
      repayments := hrepayments ▸ List.prefix_rfl }

theorem Effect.delivered {call : EngineCall} {result : call.Result}
    (h : Effect policy b call result b') (hcall : call = n.call) (hsound : b.ledger.Sound)
    (hb : b.ledger.Balanced) : b.ledger.Delivered b'.ledger := by
  have honward := h.onward hsound hb
  cases h with
  | unchanged | settled | paymentFailed | collected => exact ⟨honward, rfl, rfl, rfl⟩
  | applied | decided | paid | collectionAsked | filed | loanDecided | activated | repaid
  | defaulted | defaultedAgain => cases n <;> cases hcall

theorem Remnant.delivered {call : EngineCall} (h : Remnant faults policy b call b')
    (hcall : call = n.call) (hsound : b.ledger.Sound) : b.ledger.Delivered b'.ledger := by
  have honward := h.onward hsound
  cases h with
  | nothing alike => exact ⟨honward, alike.applications, alike.loans, alike.repayments⟩
  | settling => exact ⟨honward, rfl, rfl, rfl⟩
  | activating | repaying | defaulting => cases n <;> cases hcall

/-- However a drain ends, it moved the rows onward. -/
theorem runDue_always_onward (hsound : b.ledger.Sound) (hb : b.ledger.Balanced) :
    (Engine.runDue policy).Always faults
      (fun _ b' => b'.ledger.Balanced ∧ b.ledger.Onward Steps b'.ledger) b := by
  have hkept := balanced_invariant faults policy
  have hdelivery : ∀ n : Notification, Books.KeptBy faults policy n.call
      fun b' => b'.ledger.Balanced ∧ b.ledger.Delivered b'.ledger := by
    intro n
    constructor
    · rintro b₁ b₂ result hsound₁ ⟨hb₁, hdelivered⟩ heffect
      exact ⟨hkept hsound₁ hb₁ (.effect heffect),
        hdelivered.trans (heffect.delivered rfl hsound₁ hb₁)⟩
    · rintro b₁ b₂ hsound₁ ⟨hb₁, hdelivered⟩ hremnant
      exact ⟨hkept hsound₁ hb₁ (.remnant hremnant),
        hdelivered.trans (hremnant.delivered rfl hsound₁)⟩
  have hdrain := runDue_always hdelivery hsound fun _ => ⟨hb, .refl b.ledger⟩
  exact hdrain.mono fun _ _ h => ⟨h.1, h.2.toOnward⟩

end Drains

/-! ## Stores -/

/-- The stores answer a look-up with results that are related. -/
def Store.Compare (s s' : Store) (call : StoreCall) (R : call.Result → call.Result → Prop) :
    Prop :=
  ∃ before after, s.look call = .ok before ∧ s'.look call = .ok after ∧ R before after

/-- What the first store shows under a number, the second shows as what has become of it, and it
lists the repayments on a loan before others. -/
structure Store.Onward (way : Way) (s s' : Store) : Prop where
  applications : ∀ id, s.Compare s' (.getApplication id) fun before after =>
    ∀ a ∈ before, ∃ a' ∈ after, a.Onward way a'
  payments : ∀ id, s.Compare s' (.getPayment id) fun before after =>
    ∀ p ∈ before, ∃ p' ∈ after, p.Onward way p'
  installments : ∀ id, s.Compare s' (.getInstallment id) fun before after =>
    ∀ e ∈ before, ∃ e' ∈ after, e.Onward way e'
  loans : ∀ id, s.Compare s' (.getLoan id) fun before after =>
    ∀ loan ∈ before, ∃ loan' ∈ after, loan.Onward way loan'
  repayments : ∀ id, s.Compare s' (.repaymentsOf id) fun before after => before <+: after

theorem Ledger.Onward.store {way : Way} {l l' : Ledger} {s s' : Store} (h : l.Onward way l')
    (hs : s.Keeps l) (hs' : s'.Keeps l') (hl : l.Ordered) (hl' : l'.Ordered) :
    s.Onward way s' where
  applications id := ⟨_, _, hs.look hl _ rfl, hs'.look hl' _ rfl, h.applications id⟩
  payments id := ⟨_, _, hs.look hl _ rfl, hs'.look hl' _ rfl, h.payments id⟩
  installments id := ⟨_, _, hs.look hl _ rfl, hs'.look hl' _ rfl, h.installments id⟩
  loans id := ⟨_, _, hs.look hl _ rfl, hs'.look hl' _ rfl, h.loans id⟩
  repayments _ := ⟨_, _, hs.look hl _ rfl, hs'.look hl' _ rfl, h.repayments.filter _⟩

/-! ## Runs -/

/-- The worlds that a world may come to, under one engine after another. -/
inductive World.Later (faults : Faults) (policy : Policy) (w : World) : Policy → World → Prop
  | now : Later faults policy w policy w
  | move {policy' : Policy} {w' w'' : World} (before : w.Later faults policy policy' w')
      (moves : w'.Moves faults policy' w'') : Later faults policy w policy' w''
  | reopen {policy' : Policy} (policy'' : Policy) {w' w'' : World} {a a' : Archive}
      (before : w.Later faults policy policy' w') (closed : w'.store = .durable a)
      (opened : Archive.open? a.database = .ok a') (store : w''.store = .durable a')
      (queue : w''.queue = {}) : Later faults policy w policy'' w''

section Runs

variable {faults : Faults} {policy : Policy} {w w' : World} {b : Books}

theorem World.Moves.onward (h : w.Moves faults policy w') (hshows : w.Shows b)
    (hsound : b.ledger.Sound) (hb : b.ledger.Balanced) :
    ∃ b', w'.Shows b' ∧ b'.ledger.Sound ∧ b'.ledger.Balanced ∧
      b.ledger.Onward Steps b'.ledger := by
  cases h with
  | call call limit runs =>
    exact runs.shows (EngineCall.always_onward hsound hb policy call limit) hshows hsound
  | drain runs => exact runs.shows (runDue_always_onward hsound hb) hshows hsound
  | withdraw n =>
    refine ⟨{ b with queue := (b.queue.cancel n).2 }, ⟨hshows.1, ?_⟩, hsound, hb, .refl b.ledger⟩
    simp only [hshows.2]
  | surroundings store queue =>
    refine ⟨b, ⟨?_, queue.trans hshows.2⟩, hsound, hb, .refl b.ledger⟩
    rw [store]
    exact hshows.1

theorem World.Later.onward {policy' : Policy} (h : w.Later faults policy policy' w')
    (hshows : w.Shows b) (hsound : b.ledger.Sound) (hb : b.ledger.Balanced) :
    ∃ b', w'.Shows b' ∧ b'.ledger.Sound ∧ b'.ledger.Balanced ∧
      b.ledger.Onward Lasts b'.ledger := by
  induction h with
  | now => exact ⟨b, hshows, hsound, hb, (Ledger.Onward.refl b.ledger).lasts⟩
  | move _ moves ih =>
    obtain ⟨b₁, hshows₁, hsound₁, hb₁, honward₁⟩ := ih
    obtain ⟨b₂, hshows₂, hsound₂, hb₂, honward₂⟩ := moves.onward hshows₁ hsound₁ hb₁
    exact ⟨b₂, hshows₂, hsound₂, hb₂, honward₁.trans honward₂.lasts⟩
  | reopen _ _ closed opened store queue ih =>
    obtain ⟨b₁, hshows₁, hsound₁, hb₁, honward₁⟩ := ih
    have hreopened : b₁.ledger.Onward Steps (Archive.reopened b₁.ledger) :=
      .of_eq rfl rfl rfl rfl rfl
    exact ⟨_, hshows₁.reopened closed opened store queue,
      Archive.reopened_sound hsound₁.toOrdered, hb₁.congr rfl, honward₁.trans hreopened.lasts⟩

/-- Nothing moves backwards in whatever happens to an engine, with any faults, those of undoing
writes included: each thing moves every status along one edge at most, and a status that nothing
follows stays for ever. -/
theorem History.movesOnward (h : History Faults.any policy w) :
    (∀ w', w.Moves Faults.any policy w' → w.store.Onward Steps w'.store) ∧
      ∀ policy' w', w.Later Faults.any policy policy' w' → w.store.Onward Lasts w'.store := by
  obtain ⟨b, hshows, hsound, hb⟩ := h.books (balanced_invariant Faults.any)
    (fun _ h => (nomatch h)) fun hb => hb.congr rfl
  constructor
  · intro w' hmoves
    obtain ⟨b', hshows', hsound', -, honward⟩ := hmoves.onward hshows hsound hb
    exact honward.store hshows.1 hshows'.1 hsound.toOrdered hsound'.toOrdered
  · intro policy' w' hlater
    obtain ⟨b', hshows', hsound', -, honward⟩ := hlater.onward hshows hsound hb
    exact honward.store hshows.1 hshows'.1 hsound.toOrdered hsound'.toOrdered

/-- A settlement and a repayment that could be neither written nor undone: the payment is pending
and has a schedule, and an entry is paid that the loan does not account for. -/
def World.halfDone : World :=
  { World.sample with
    outages := (((Outages.set {} .updatePayment 0 1 .refusal).set .deleteInstallmentsOf 0 1
      .refusal).set .recordRepayment 0 1 .refusal).set .updateBatch 1 1 .refusal }.afterCalls {}
    [.apply { user := "alice", amount := 1000, currency := "USD" },
      .decideApplication ⟨1⟩,
      .pay { application := ⟨1⟩, user := "alice", amount := 900, currency := "USD",
             method := "card" },
      .deliverPayment ⟨1⟩ "SUCCESSFUL",
      .deliverInstallment ⟨1⟩ "PAID",
      .fileLoan { user := "bob", principal := 703, currency := "USD", term := 4 },
      .decideLoan ⟨1⟩,
      .activateLoan ⟨1⟩,
      .repayLoan ⟨1⟩ { amount := 200, method := "card" }]

/-- Whatever is called next moves on from there: the loan is repaid, and the schedule that was left
stays. -/
theorem World.halfDone_onward :
    let repaying := (EngineCall.repayLoan ⟨1⟩ { amount := 400, method := "card" }).program {}
      .unbounded
    let after := (halfDone.run repaying.run).2
    ([1, 4, 5].map fun n => (halfDone.store.look (.getInstallment ⟨n⟩)).map
      fun found => found.map Installment.status) =
        [.ok (some .paid), .ok (some .paid), .ok (some .pending)] ∧
    ([1, 4, 5].map fun n => (after.store.look (.getInstallment ⟨n⟩)).map
      fun found => found.map Installment.status) =
        [.ok (some .paid), .ok (some .paid), .ok (some .paid)] ∧
    halfDone.store.Onward Steps after.store ∧ halfDone.store.Onward Lasts after.store := by
  have hreached : Reached Faults.any {} halfDone :=
    Reached.afterCalls (.start ⟨.inl rfl, rfl⟩) (by decide +kernel)
  have hfollows : halfDone.Follows Faults.any (EngineCall.program {} .unbounded
      (.repayLoan ⟨1⟩ { amount := 400, method := "card" })).run := by decide +kernel
  have hmoves : halfDone.Moves Faults.any {} _ := .call _ .unbounded hfollows.runs
  obtain ⟨hmove, hlater⟩ := History.movesOnward hreached.history
  exact ⟨by decide +kernel, by decide +kernel, hmove _ hmoves, hlater _ _ (.move .now hmoves)⟩

end Runs

end Lending
