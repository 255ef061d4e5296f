import Lending.Proofs.Engine.CreditLimit
import Lending.Proofs.Engine.Deliveries
import Lending.Proofs.Engine.Settling

/-!
# Credit is refused exactly when it would not fit

What is left of a credit is its amount without the successful payments on it. A payment is admitted,
and later settled, exactly if it is at most that, down to the last minor unit. A refusal tells the
amount that was asked for and what is left, so that the two checks agree.

* `Store.Leaves`: what is left of the credit of an application.
* `Sharp`: a call succeeds exactly up to a bound, and tells it otherwise.
* `Transcript.creditExact`: both calls in all states that engines come to.
-/

namespace Lending

/-- Of the credit of the application, `left` is left: its amount without the successful payments on
it. -/
def Store.Leaves (s : Store) (a : Application) (left : Nat) : Prop :=
  s.look (.getApplication a.id) = .ok (some a) ∧
    ∃ payments, s.look (.paymentsOfApplication a.id) = .ok payments ∧
      ((payments.filter fun p => p.status = .successful).map fun p => p.amount.toNat).sum + left =
        a.amount.toNat

theorem Store.Leaves.unique {s : Store} {a : Application} {m n : Nat} (h : s.Leaves a m)
    (h' : s.Leaves a n) : m = n := by
  obtain ⟨-, payments, hlook, hsum⟩ := h
  obtain ⟨-, payments', hlook', hsum'⟩ := h'
  obtain rfl := Except.ok.inj (hlook.symm.trans hlook')
  omega

/-- What both checks compute is what is left: the sum needs no more than a word, and the difference
is no less than zero. -/
def Store.ComputesCredit (s : Store) (a : Application) (left : Nat) : Prop :=
  ∃ payments settled, s.look (.paymentsOfApplication a.id) = .ok payments ∧
    checkedTotal ((payments.filter fun p => p.status = .successful).map fun p => p.amount.value) =
      .ok settled ∧
    settled ≤ a.amount.value ∧ (Engine.available a.amount settled).toNat = left

/-- The request is for a payment on an approved application, by its user, in its currency, which is
in use, and by a method that is in use. -/
structure PaymentRequest.Proper (policy : Policy) (a : Application) (r : PaymentRequest) :
    Prop where
  application : r.application = a.id
  approved : a.status = .approved
  user : r.user = a.user
  currency : r.currency = a.currency.code
  currencyInUse : policy.supportsCurrency a.currency = true
  methodInUse : ∃ m : PaymentMethod, m.name = r.method ∧ policy.supportsMethod m = true
  positive : 0 < r.amount

/-- A call succeeds in this way exactly if the amount is at most `left`. Otherwise it fails for want
of credit, and tells both. -/
structure Sharp {α : Type} (result : Option (Except Failure α)) (good : α → Prop)
    (amount : UInt64) (left : Nat) : Prop where
  succeeds : (∃ a, good a ∧ result = some (.ok a)) ↔ amount.toNat ≤ left
  refused : ¬amount.toNat ≤ left → ∃ available : UInt64, available.toNat = left ∧
    result = some (.error (.insufficientCredit amount available))

section

variable {policy : Policy} {w : World} {b : Books} {log : List Receipt}

theorem PaymentRequest.Proper.reads {a : Application} {r : PaymentRequest}
    (h : r.Proper policy a) :
    ∃ amount method, Engine.readPayment policy r = .ok (amount, a.currency, method) ∧
      amount.value = r.amount ∧
      Engine.checkDrawn a r.application r.user a.currency = .ok () := by
  obtain ⟨m, hname, hmethod⟩ := h.methodInUse
  have hamount : Amount.make r.amount = .ok ⟨r.amount, h.positive⟩ := dif_pos h.positive
  have hcurrency : Currency.make r.currency = .ok a.currency := by
    rw [h.currency]
    exact dif_pos a.currency.valid
  have hmake : PaymentMethod.make r.method = .ok m := by
    rw [← hname]
    exact dif_pos m.valid
  refine ⟨⟨r.amount, h.positive⟩, m, ?_, rfl, ?_⟩
  · simp [Engine.readPayment, hamount, hcurrency, hmake, Engine.checkCurrency,
      Engine.checkMethod, h.currencyInUse, hmethod, bind, Except.bind, pure, Except.pure]
  · simp [Engine.checkDrawn, h.approved, h.user]

/-- What a check of the credit limit ends with. -/
theorem sharp_of_ite {α : Type} {result : Option (Except Failure α)} (good : α → Prop) {a : α}
    (hgood : good a) {amount : Amount} {granted used : Nat} (hkept : used ≤ granted)
    (hbound : granted < UInt64.size)
    (hresult : result = some (if used + amount.toNat ≤ granted then .ok a
      else .error (.insufficientCredit amount.value (UInt64.ofNat (granted - used))))) :
    Sharp result good amount.value (granted - used) := by
  have hfits : used + amount.toNat ≤ granted ↔ amount.value.toNat ≤ granted - used := by
    simp only [Amount.toNat]
    omega
  by_cases h : used + amount.toNat ≤ granted
  · rw [if_pos h] at hresult
    rw [hfits] at h
    exact ⟨⟨fun _ => h, fun _ => ⟨a, hgood, hresult⟩⟩, fun hlt => absurd h hlt⟩
  · rw [if_neg h] at hresult
    rw [hfits] at h
    refine ⟨⟨?_, fun hle => absurd hle h⟩, fun _ => ⟨_, ?_, hresult⟩⟩
    · rintro ⟨_, -, hok⟩
      rw [hresult] at hok
      cases hok
    · rw [UInt64.toNat_ofNat', Nat.mod_eq_of_lt]
      exact Nat.lt_of_le_of_lt (Nat.sub_le ..) hbound

/-! ## Books -/

/-- The books of a world in which no lock is held. -/
structure World.AtRest (w : World) (b : Books) : Prop where
  shows : w.Shows b
  sound : b.ledger.Sound
  credit : CreditKept b.ledger
  idle : w.locks.Idle

/-- No schedule was left behind, either. -/
structure World.Tidy (w : World) (b : Books) : Prop extends w.AtRest b where
  schedules : SchedulesKept (fun _ => True) b.ledger

/-- Engines come to rest, and keep their invariants. -/
theorem Transcript.atRest {faults : Faults} {I : Books → Prop}
    (hI : ∀ policy, Books.Invariant faults policy I) (hempty : I { ledger := {}, queue := {} })
    (hreopened : ∀ {b : Books}, I b → I { ledger := Archive.reopened b.ledger, queue := {} })
    (h : Transcript faults policy w log) : ∃ b, w.AtRest b ∧ I b := by
  have hinvariant := fun policy => (creditKept_invariant faults policy).and (hI policy)
  obtain ⟨b, hshows, hsound, hcredit, hb⟩ := h.history.books hinvariant
    ⟨creditKept_empty, hempty⟩ fun hb => ⟨hb.1.congr rfl rfl, hreopened hb.2⟩
  obtain ⟨-, -, -, -, -, hidle⟩ := h.agrees
  exact ⟨b, ⟨hshows, hsound, hcredit, hidle⟩, hb⟩

theorem Transcript.rests {faults : Faults} (h : Transcript faults policy w log) :
    ∃ b, w.AtRest b := by
  have hinvariant : ∀ policy : Policy, Books.Invariant faults policy fun _ => True :=
    fun _ _ _ _ _ _ => trivial
  obtain ⟨b, hrest, -⟩ := h.atRest hinvariant trivial fun _ => trivial
  exact ⟨b, hrest⟩

/-- Where every schedule that was written in vain was removed, the books are tidy. -/
theorem Transcript.tidy {faults : Faults} (hfaults : ¬faults.LeaveSchedules)
    (h : Transcript faults policy w log) : ∃ b, w.Tidy b := by
  have hinvariant : ∀ policy : Policy, Books.Invariant faults policy fun b =>
      SchedulesKept (fun _ => True) b.ledger :=
    fun _ => schedulesKept_invariant hfaults (fun _ => True) trivial
  obtain ⟨b, hrest, hschedules⟩ := h.atRest hinvariant schedulesKept_empty
    fun hb => hb.congr (Ledger.owes_congr rfl rfl) fun _ => rfl
  exact ⟨b, hrest, hschedules⟩

namespace World.AtRest

variable (h : w.AtRest b) {a : Application}
  (ha : b.ledger.applications.get? a.id = some a)

include h ha

theorem leaves : w.store.Leaves a (a.amount.toNat - b.ledger.creditUsed a.id) := by
  have hkept := h.credit.kept a.id a ha
  have hlook := h.shows.1.look h.sound.toOrdered
  refine ⟨(hlook (.getApplication a.id) rfl).trans (congrArg _ ha), _,
    hlook (.paymentsOfApplication a.id) rfl, ?_⟩
  have hsum := Engine.sum_settled b.ledger a.id
  rw [List.map_map] at hsum
  rw [show (fun p : Payment => p.amount.toNat) = UInt64.toNat ∘ fun p => p.amount.value from rfl,
    hsum]
  omega

theorem computesCredit :
    w.store.ComputesCredit a (a.amount.toNat - b.ledger.creditUsed a.id) := by
  have hkept := h.credit.kept a.id a ha
  have hbound := a.amount.toNat_lt
  have hsum := Engine.sum_settled b.ledger a.id
  obtain ⟨settled, hsettled⟩ := checkedTotal_of_lt (by rw [hsum]; omega)
  have hused := Engine.checkedTotal_ok hsettled
  rw [hsum] at hused
  refine ⟨_, settled, h.shows.1.look h.sound.toOrdered (.paymentsOfApplication a.id) rfl,
    hsettled, ?_, ?_⟩
  · rw [UInt64.le_iff_toNat_le, hused]
    exact hkept
  · rw [toNat_available, hused]

variable {limit : Deadline} (hlimit : limit.isExpired w.time = false)

include hlimit

/-- A payment that is asked for properly. -/
theorem pay {r : PaymentRequest} (hproper : r.Proper policy a)
    (hfollows : w.Follows Faults.none (Engine.pay policy r limit).run)
    (hfresh : ∀ p ∈ b.ledger.payments.values, p.order ≠ w.orders.next.1) :
    Sharp (w.run (Engine.pay policy r limit).run).1 (fun _ => True) r.amount
      (a.amount.toNat - b.ledger.creditUsed a.id) := by
  obtain ⟨amount, method, hread, hamount, hdrawn⟩ := hproper.reads
  have hrun := (World.run_scene (Engine.pay_returns r).run h.idle h.shows.stages
    h.sound.toOrdered hfollows).1
  have hend : (Scene.perform ⟨b, w⟩ (Engine.pay policy r limit)).1 = _ :=
    Scene.perform_pay hlimit hread (hproper.application ▸ ha) hdrawn
      (hproper.application ▸ h.credit.kept a.id a ha) hfresh
  rw [hproper.application] at hend
  rw [← hamount]
  exact sharp_of_ite _ trivial (h.credit.kept a.id a ha) a.amount.toNat_lt
    (hrun.trans (congrArg some hend))

/-- A pending payment without a schedule whose success is confirmed. -/
theorem settle {p : Payment} (hknown : b.ledger.payments.get? p.id = some p)
    (hpending : p.status = .pending) (happlication : p.application = a.id)
    (hnone : b.ledger.installmentsOf (.payment p.id) = [])
    (hdatable : (Obligation.payment p).Datable policy.tiers w.clock)
    (hfollows : w.Follows Faults.none
      (Engine.deliverPayment policy p.id "SUCCESSFUL" limit).run) :
    Sharp (w.run (Engine.deliverPayment policy p.id "SUCCESSFUL" limit).run).1 (· = .applied)
      p.amount.value (a.amount.toNat - b.ledger.creditUsed a.id) := by
  have hkept := h.credit.kept a.id a ha
  have hsettles : Scene.Settles ⟨b, w⟩ p a :=
    ⟨hknown, hpending, happlication ▸ ha, happlication ▸ hkept⟩
  have hrun := (World.run_scene (Engine.deliverPayment_returns p.id "SUCCESSFUL").run h.idle
    h.shows.stages h.sound.toOrdered hfollows).1
  have hend : (Scene.perform ⟨b, w⟩ (Engine.deliverPayment policy p.id "SUCCESSFUL" limit)).1 =
      _ := Scene.perform_deliverPayment hlimit hknown hpending rfl
  rw [Scene.perform_settlePayment hlimit hsettles hdatable hnone, happlication] at hend
  refine sharp_of_ite (· = .applied) rfl hkept a.amount.toNat_lt
    (hrun.trans (congrArg some (hend.trans ?_)))
  split <;> rfl

end World.AtRest

/-- A pending payment has no schedule. -/
theorem World.Tidy.unscheduled (h : w.Tidy b) {p : Payment}
    (hknown : b.ledger.payments.get? p.id = some p) (hpending : p.status = .pending) :
    b.ledger.installmentsOf (.payment p.id) = [] := by
  have hnone := (h.schedules.scheduled (.payment p) (h.sound.payments.mem_values.mpr hknown)).eq_nil
    (Obligation.not_begun_of_pending hpending)
  exact List.map_eq_nil_iff.mp hnone

/-! ## Exact refusals -/

/-- In all states that engines come to, unless a schedule could not be removed, what is left of a
credit decides on a payment that is asked for properly, and on the success of a pending payment
whose due dates are in the calendar. No sum overflows on the way, and no difference is cut off. -/
theorem Transcript.creditExact (h : Transcript Faults.sparingRemoval policy w log)
    {a : Application} (ha : w.store.look (.getApplication a.id) = .ok (some a)) :
    ∃ left, w.store.Leaves a left ∧ w.store.ComputesCredit a left ∧
      (∀ r : PaymentRequest, r.Proper policy a →
        w.Follows Faults.none (Engine.pay policy r .unbounded).run →
        (∀ payments, w.store.look .listPayments = .ok payments →
          ∀ p ∈ payments, p.order ≠ w.orders.next.1) →
        Sharp (w.run (Engine.pay policy r .unbounded).run).1 (fun _ => True) r.amount left) ∧
      ∀ p : Payment, w.store.look (.getPayment p.id) = .ok (some p) → p.status = .pending →
        p.application = a.id → (Obligation.payment p).Datable policy.tiers w.clock →
        w.Follows Faults.none (Engine.deliverPayment policy p.id "SUCCESSFUL" .unbounded).run →
        Sharp (w.run (Engine.deliverPayment policy p.id "SUCCESSFUL" .unbounded).run).1
          (· = .applied) p.amount.value left := by
  obtain ⟨b, hb⟩ := h.tidy Faults.sparingRemoval_leaveSchedules
  have hlook := hb.shows.1.look hb.sound.toOrdered
  have hget : b.ledger.applications.get? a.id = some a :=
    Except.ok.inj ((hlook (.getApplication a.id) rfl).symm.trans ha)
  refine ⟨_, hb.leaves hget, hb.computesCredit hget, ?_, ?_⟩
  · intro r hproper hfollows hfresh
    exact hb.pay hget rfl hproper hfollows (hfresh _ (hlook .listPayments rfl))
  · intro p hp hpending happlication hdatable hfollows
    have hknown : b.ledger.payments.get? p.id = some p :=
      Except.ok.inj ((hlook (.getPayment p.id) rfl).symm.trans hp)
    exact hb.settle hget rfl hknown hpending happlication (hb.unscheduled hknown hpending) hdatable
      hfollows

/-- Of a credit of 1000, a payment of 600 has been settled, and another one is pending. -/
def World.drawnUpon : World :=
  World.sample.afterCalls {}
    [.apply { user := "alice", amount := 1000, currency := "USD" },
      .decideApplication ⟨1⟩,
      .pay { application := ⟨1⟩, user := "alice", amount := 600, currency := "USD",
             method := "card" },
      .pay { application := ⟨1⟩, user := "alice", amount := 600, currency := "USD",
             method := "card" },
      .deliverPayment ⟨1⟩ "SUCCESSFUL"]

/-- The 400 that are left are enough for a payment of 400, but neither for one of 401 nor for the
one that is pending. -/
theorem World.drawnUpon_creditExact :
    (∀ amount : UInt64, amount = 400 ∨ amount = 401 →
      Sharp (drawnUpon.run (Engine.pay {} ⟨⟨1⟩, "alice", amount, "USD", "card"⟩
        .unbounded).run).1 (fun _ => True) amount 400) ∧
    Sharp (drawnUpon.run (Engine.deliverPayment {} ⟨2⟩ "SUCCESSFUL" .unbounded).run).1
      (· = .applied) 600 400 := by
  have hempty : Transcript Faults.sparingRemoval {} sample [] := .start ⟨.inl rfl, rfl⟩ rfl
  obtain ⟨_, hdrawn⟩ : ∃ log, Transcript Faults.sparingRemoval {} drawnUpon log :=
    hempty.afterCalls (fun _ hcrash => nomatch hcrash.1) (by decide +kernel)
  let usd : Currency := ⟨"USD", by decide⟩
  let card : PaymentMethod := ⟨"card", by decide⟩
  let a : Application :=
    { Application.new "alice" ⟨1000, by decide⟩ usd .epoch with
      id := ⟨1⟩, status := .approved, decidedAt := some .epoch, creditScore := some 700 }
  let p : Payment :=
    { id := ⟨2⟩, application := ⟨1⟩, user := "alice"
      order := "00000000-0000-4000-8100-000000000001", amount := ⟨600, by decide⟩
      currency := usd, method := card, status := .pending, createdAt := .epoch
      settledAt := none }
  have ha : drawnUpon.store.look (.getApplication a.id) = .ok (some a) := by decide +kernel
  have hp : drawnUpon.store.look (.getPayment p.id) = .ok (some p) := by decide +kernel
  have horders : (drawnUpon.store.look .listPayments).map (fun all =>
      all.all fun p => p.order ≠ drawnUpon.orders.next.1) = .ok true := by decide +kernel
  obtain ⟨left, hleaves, -, hpay, hsettle⟩ := hdrawn.creditExact ha
  obtain rfl : left = 400 := hleaves.unique ⟨ha, _, rfl, by decide +kernel⟩
  refine ⟨?_, hsettle p hp rfl rfl (by decide +kernel) (by decide +kernel)⟩
  intro amount hamount
  refine hpay ⟨⟨1⟩, "alice", amount, "USD", "card"⟩ ?_ ?_ ?_
  · refine ⟨rfl, rfl, rfl, rfl, by decide, ⟨card, rfl, by decide⟩, ?_⟩
    rcases hamount with rfl | rfl <;> decide
  · rcases hamount with rfl | rfl <;> decide +kernel
  · intro payments hpayments
    rw [hpayments] at horders
    simpa using Except.ok.inj horders

end

end Lending
