import Lending.Proofs.Engine.Runs

/-!
# The credit limit

Pending payments do not count against a credit limit, so more of them may be admitted than it
allows. It is kept nevertheless, by the check that is repeated when a payment succeeds: the
successful payments on an application never add up to more than its amount, whatever calls are made,
whichever of them fail, and however often the database is opened again.

* `CreditKept`: the invariant. It says, too, that payments are drawn on approved applications.
* `Ledger.creditUsed_insert_known`: what a payment that is written again changes of the credit used.
* `History.creditLimited`: the credit limit in all states that engines come to.
-/

namespace Lending

/-! ## Credit used -/

/-- What a payment takes of the credit of an application. -/
def Payment.drawn (id : ApplicationId) (p : Payment) : Nat :=
  if p.application = id ∧ p.status = .successful then p.amount.toNat else 0

theorem Payment.drawn_of_pending {p : Payment} (h : p.status = .pending) (id : ApplicationId) :
    p.drawn id = 0 := by
  unfold drawn
  rw [if_neg]
  rintro ⟨-, hsuccessful⟩
  rw [h] at hsuccessful
  cases hsuccessful

theorem sum_successful (payments : List Payment) (id : ApplicationId) :
    ((payments.filter fun p => p.application = id ∧ p.status = .successful).map
      fun p => p.amount.toNat).sum = (payments.map (Payment.drawn id)).sum := by
  induction payments with
  | nil => rfl
  | cons p rest ih =>
    by_cases h : p.application = id ∧ p.status = .successful
    · simp [Payment.drawn, h, ← ih]
    · simp [Payment.drawn, h, ← ih]

namespace Ledger

variable {l l' : Ledger}

theorem creditUsed_eq (l : Ledger) (id : ApplicationId) :
    l.creditUsed id = (l.payments.values.map (Payment.drawn id)).sum := sum_successful _ _

/-- A payment that is written again changes the credit used by what it takes more or less. -/
theorem creditUsed_insert_known (h : l.payments.Booked Payment.id) {p p' : Payment}
    (hpayments : l'.payments = l.payments.insert p.id p')
    (hget : l.payments.get? p.id = some p) (id : ApplicationId) :
    l'.creditUsed id + p.drawn id = l.creditUsed id + p'.drawn id := by
  obtain ⟨before, after, hvalues, hinsert⟩ := h.values_insert_known hget
  rw [creditUsed_eq, creditUsed_eq, hpayments, hvalues, hinsert]
  simp only [List.map_append, List.map_cons, List.sum_append, List.sum_cons]
  omega

/-- A payment with a new number that is pending takes no credit yet. -/
theorem creditUsed_append {p : Payment} (hpayments : l'.payments.values = l.payments.values ++ [p])
    (hpending : p.status = .pending) (id : ApplicationId) :
    l'.creditUsed id = l.creditUsed id := by
  rw [creditUsed_eq, creditUsed_eq, hpayments]
  simp [Payment.drawn, hpending]

theorem creditUsed_eq_zero {id : ApplicationId}
    (h : ∀ p ∈ l.payments.values, p.application ≠ id) : l.creditUsed id = 0 := by
  rw [creditUsed, List.filter_eq_nil_iff.mpr fun p hp => by simp [h p hp]]
  rfl

end Ledger

/-! ## The invariant -/

/-- Every payment is drawn on an approved application, and no application has more successful
payments than its amount. -/
structure CreditKept (l : Ledger) : Prop where
  drawn : ∀ p ∈ l.payments.values, ∃ a, l.applications.get? p.application = some a ∧
    a.status = .approved
  kept : ∀ id a, l.applications.get? id = some a → l.creditUsed id ≤ a.amount.toNat

theorem creditKept_empty : CreditKept {} :=
  ⟨fun _ h => (nomatch h), fun _ _ h => (nomatch h)⟩

namespace CreditKept

variable {l l' : Ledger}

theorem congr (h : CreditKept l) (happlications : l'.applications = l.applications)
    (hpayments : l'.payments = l.payments) : CreditKept l' := by
  constructor
  · rw [hpayments, happlications]
    exact h.drawn
  · intro id a ha
    rw [happlications] at ha
    have hused : l'.creditUsed id = l.creditUsed id := by
      rw [Ledger.creditUsed, hpayments]
      rfl
    rw [hused]
    exact h.kept id a ha

/-- An application that is new or pending may be written, if it keeps its amount. -/
theorem insert_application (h : CreditKept l) {id : ApplicationId} {a : Application}
    (hold : ∀ old, l.applications.get? id = some old → old.status = .pending)
    (happlications : l'.applications = l.applications.insert id a)
    (hpayments : l'.payments = l.payments) : CreditKept l' := by
  -- no payment is drawn on the application, since it was not approved
  have hnone : ∀ p ∈ l'.payments.values, p.application ≠ id := by
    rintro p hp heq
    rw [hpayments] at hp
    obtain ⟨old, hget, happroved⟩ := h.drawn p hp
    rw [heq] at hget
    rw [hold old hget] at happroved
    cases happroved
  constructor
  · intro p hp
    obtain ⟨old, hget, happroved⟩ := h.drawn p (hpayments ▸ hp)
    refine ⟨old, ?_, happroved⟩
    rw [happlications, Table.get?_insert, if_neg (hnone p hp).symm, hget]
  · intro id' a' ha'
    rw [happlications, Table.get?_insert] at ha'
    split at ha'
    · rename_i heq
      subst heq
      rw [Ledger.creditUsed_eq_zero hnone]
      exact Nat.zero_le _
    · have hused : l'.creditUsed id' = l.creditUsed id' := by
        rw [Ledger.creditUsed, hpayments]
        rfl
      rw [hused]
      exact h.kept id' a' ha'

/-- A pending payment with a new number may be added on an approved application. -/
theorem append_payment (h : CreditKept l) (hl : l.Sound) {p : Payment}
    (hnew : l.counters.payment < p.id.value) (hpending : p.status = .pending)
    (happroved : ∃ a, l.applications.get? p.application = some a ∧ a.status = .approved)
    (happlications : l'.applications = l.applications)
    (hpayments : l'.payments = l.payments.insert p.id p) : CreditKept l' := by
  have hvalues : l'.payments.values = l.payments.values ++ [p] := by
    rw [hpayments]
    exact Table.values_insert_last hl.upToPayment hnew p
  constructor
  · intro q hq
    rw [happlications]
    rw [hvalues] at hq
    rcases List.mem_append.mp hq with hq | hq
    · exact h.drawn q hq
    · obtain rfl := List.mem_singleton.mp hq
      exact happroved
  · -- pending payments take no credit
    intro id a ha
    rw [Ledger.creditUsed_append hvalues hpending]
    exact h.kept id a (happlications ▸ ha)

/-- A payment may be written again, if it fits into the credit that is left. -/
theorem insert_payment (h : CreditKept l) (hb : l.payments.Booked Payment.id) {p : Payment}
    (p' : Payment) (hget : l.payments.get? p.id = some p)
    (happlication : p'.application = p.application)
    (hfits : ∀ a, l.applications.get? p.application = some a →
      l.creditUsed p.application + p'.drawn p.application ≤ a.amount.toNat + p.drawn p.application)
    (happlications : l'.applications = l.applications)
    (hpayments : l'.payments = l.payments.insert p.id p') : CreditKept l' := by
  have hused := fun id => Ledger.creditUsed_insert_known hb hpayments hget id
  rw [← happlications] at hfits
  constructor
  · intro q hq
    obtain ⟨before, after, hvalues, hinsert⟩ := hb.values_insert_known hget
    have hp : p ∈ l.payments.values := hb.mem_values.mpr hget
    rw [hpayments, hinsert, List.mem_append, List.mem_cons] at hq
    rw [happlications]
    rcases hq with hq | rfl | hq
    · exact h.drawn q (by simp [hvalues, hq])
    · rw [happlication]
      exact h.drawn p hp
    · exact h.drawn q (by simp [hvalues, hq])
  · intro id a ha
    have hchange := hused id
    by_cases heq : p.application = id
    · subst heq
      have hfit := hfits a ha
      omega
    · -- the credit of other applications is not touched
      have hp : p.drawn id = 0 := if_neg fun h => heq h.1
      have hp' : p'.drawn id = 0 := if_neg fun h => heq (happlication ▸ h.1)
      have hkept := h.kept id a (happlications ▸ ha)
      omega

end CreditKept

theorem approved_of_checkDrawn {a : Application} {id : ApplicationId} {user : String}
    {currency : Currency} (h : Engine.checkDrawn a id user currency = .ok ()) :
    a.status = .approved := by
  unfold Engine.checkDrawn at h
  split at h
  · cases h
  · rename_i happroved
    exact not_not.mp happroved

/-- Every step keeps the credit limit. -/
theorem creditKept_invariant (faults : Faults) (policy : Policy) :
    Books.Invariant faults policy fun b => CreditKept b.ledger := by
  intro b b' hsound hb hstep
  cases hstep with
  | taken now => exact hb
  | withdrawn n => exact hb
  | remnant remnant =>
    cases remnant with
    | nothing alike => exact hb.congr alike.applications alike.payments
    | settling | activating | repaying | defaulting => exact hb.congr rfl rfl
  | effect effect =>
    cases effect with
    | applied _ left new =>
      refine hb.insert_application ?_ rfl rfl
      intro old hget
      have hnone : b.ledger.applications.get? ⟨b.ledger.counters.application + 1⟩ = none :=
        hsound.upToApplication.get?_eq_none (lt_succ left)
      rw [new, hnone] at hget
      cases hget
    | decided known pending _ =>
      refine hb.insert_application ?_ rfl rfl
      intro old hget
      obtain rfl := Option.some.inj (known.symm.trans hget)
      exact pending
    | @paid _ _ _ _ a _ _ p _ known drawn _ left _ new =>
      have hnew : b.ledger.counters.payment < p.id.value := by
        rw [new]
        exact lt_succ left
      refine hb.append_payment hsound hnew (by rw [new]) ⟨a, ?_, approved_of_checkDrawn drawn⟩ rfl
        rfl
      rw [new]
      exact known
    | @settled _ p p' a _ _ _ _ _ known pending drawnOn credit new _ =>
      refine hb.insert_payment hsound.payments p' known (by rw [new]) ?_ rfl rfl
      intro a' ha'
      obtain rfl := Option.some.inj (drawnOn.symm.trans ha')
      have hp' : p'.drawn p.application = p.amount.toNat := by
        rw [new]
        exact if_pos ⟨rfl, rfl⟩
      omega
    | @paymentFailed _ p _ known pending =>
      refine hb.insert_payment hsound.payments { p with status := .failed } known rfl ?_ rfl rfl
      intro a ha
      have hkept := hb.kept _ a ha
      have hp : Payment.drawn p.application { p with status := .failed } = 0 :=
        if_neg fun h => nomatch h.2
      omega
    | unchanged => exact hb
    | collected | collectionAsked | filed | loanDecided | activated | repaid | defaulted
    | defaultedAgain => exact hb.congr rfl rfl

/-! ## The credit limit -/

/-- No application in the store has more successful payments than its amount, and one that has any
is approved. -/
def Store.CreditLimited (s : Store) : Prop :=
  ∃ applications payments,
    s.look .listApplications = .ok applications ∧ s.look .listPayments = .ok payments ∧
      ∀ a ∈ applications,
        ((payments.filter fun p => p.application = a.id ∧ p.status = .successful).map
          fun p => p.amount.toNat).sum ≤ a.amount.toNat ∧
        ((∃ p ∈ payments, p.application = a.id ∧ p.status = .successful) → a.status = .approved)

/-- A store keeps the credit limit if its rows do. -/
theorem CreditKept.limited {s : Store} {l : Ledger} (h : CreditKept l) (hkeeps : s.Keeps l)
    (hl : l.Sound) : s.CreditLimited := by
  refine ⟨l.applications.values, l.payments.values, ?_, ?_, ?_⟩
  · exact hkeeps.look hl.toOrdered .listApplications rfl
  · exact hkeeps.look hl.toOrdered .listPayments rfl
  · intro a ha
    have hget := hl.applications.mem_values.mp ha
    refine ⟨h.kept a.id a hget, ?_⟩
    rintro ⟨p, hp, happlication, -⟩
    obtain ⟨a', hget', happroved⟩ := h.drawn p hp
    rw [happlication, hget] at hget'
    obtain rfl := Option.some.inj hget'
    exact happroved

/-- The credit limit is kept in all states that engines come to. Any call may fail or crash, undoing
writes included. -/
theorem History.creditLimited {policy : Policy} {w : World} (h : History Faults.any policy w) :
    w.store.CreditLimited := by
  obtain ⟨b, hshows, hsound, hkept⟩ := h.books (creditKept_invariant Faults.any) creditKept_empty
    fun hb => hb.congr rfl rfl
  exact hkept.limited hshows.1 hsound

/-- Two payments of 600 are admitted to a credit of 1000, and a gateway confirms both. The first
delivery of the second payment finds the store out of order, and the next one finds no credit. -/
def World.overdrawn : World :=
  { World.sample with outages := Outages.set {} .getApplication 4 1 .refusal }.afterCalls {}
    [.apply { user := "alice", amount := 1000, currency := "USD" },
      .decideApplication ⟨1⟩,
      .pay { application := ⟨1⟩, user := "alice", amount := 600, currency := "USD",
             method := "card" },
      .pay { application := ⟨1⟩, user := "alice", amount := 600, currency := "USD",
             method := "card" },
      .deliverPayment ⟨1⟩ "SUCCESSFUL",
      .deliverPayment ⟨2⟩ "SUCCESSFUL",
      .deliverPayment ⟨2⟩ "SUCCESSFUL"]

theorem World.overdrawn_creditLimited :
    (overdrawn.store.look .listPayments).map (fun all => all.map Payment.status) =
      .ok [.successful, .pending] ∧
    overdrawn.store.CreditLimited :=
  ⟨by decide +kernel,
    History.creditLimited (Reached.afterCalls (.start ⟨.inl rfl, rfl⟩) (by decide +kernel)).history⟩

end Lending
