import Lending.Proofs.Engine.Atomicity
import Lending.Proofs.Engine.Locking
import Lending.Proofs.Engine.Onward

/-!
# The first delivery wins

The outcome of a payment or of an entry of its schedule may be delivered any number of times, by a
gateway or by the settlement queue. One delivery at most is applied. Whatever happens afterwards,
the same outcome is a duplicate from then on and the other one a conflict, and neither changes
anything.

* `Receipt`: a delivery and what it was answered with.
* `World.deliver_decided`: what a delivery is answered whose recipient was decided before.
* `Transcript`: what happens to engines one thing after another, with the deliveries on record.
* `Transcript.firstWins`: the deliveries on record.
-/

namespace Lending

/-! ## Recipients -/

/-- What an outcome is delivered for. -/
inductive Recipient where
  | payment (id : PaymentId)
  | installment (id : InstallmentId)
  deriving DecidableEq

namespace Recipient

def entity : Recipient → Entity
  | .payment _ => .payment
  | .installment _ => .installment

def number : Recipient → UInt64
  | .payment id => id.value
  | .installment id => id.value

/-- The method that reads the row of the recipient. -/
def method : Recipient → StoreMethod
  | .payment _ => .getPayment
  | .installment _ => .getInstallment

/-- The token names an outcome of the recipient. -/
def Accepts (token : String) : Recipient → Prop
  | .payment _ => ∃ s, Lifecycle.ofToken PaymentStatus token = .ok s
  | .installment _ => ∃ s, Lifecycle.ofToken InstallmentStatus token = .ok s

def deliver (policy : Policy) (token : String) (limit : Deadline) :
    Recipient → Operation Engine.Ack
  | .payment id => Engine.deliverPayment policy id token limit
  | .installment id => Engine.deliverInstallment id token limit

end Recipient

def Notification.recipient : Notification → Recipient
  | .paymentSettled id => .payment id
  | .installmentCollected id => .installment id

def Notification.token : Notification → String
  | .paymentSettled _ => Lifecycle.text PaymentStatus.successful
  | .installmentCollected _ => Lifecycle.text InstallmentStatus.paid

/-- The outcome of the recipient stands: the token names it, and nothing follows it. Entries of
loans have no outcome that is delivered. -/
def Ledger.Decided (l : Ledger) (token : String) : Recipient → Prop
  | .payment id => ∃ p, l.payments.get? id = some p ∧
    Lifecycle.isTerminal p.status = true ∧ Lifecycle.text p.status = token
  | .installment id => ∃ e, l.installments.get? id = some e ∧ e.owner.entity ≠ .loan ∧
    Lifecycle.isTerminal e.status = true ∧ Lifecycle.text e.status = token

open Lifecycle (Steps Lasts)

/-- What was decided stays decided. -/
theorem Ledger.Decided.onward {l l' : Ledger} {token : String} {target : Recipient}
    (h : l.Decided token target) (honward : l.Onward Lasts l') : l'.Decided token target := by
  cases target with
  | payment id =>
    obtain ⟨p, hget, hterminal, htext⟩ := h
    obtain ⟨p', hget', -, hlasts⟩ := honward.payments id p hget
    have hstatus := hlasts hterminal
    exact ⟨p', hget', hstatus ▸ hterminal, hstatus ▸ htext⟩
  | installment id =>
    obtain ⟨e, hget, howner, hterminal, htext⟩ := h
    obtain ⟨e', hget', hterms, hlasts⟩ := honward.installments id e hget
    have hstatus := hlasts hterminal
    have howner' : e'.owner = e.owner := congrArg (fun terms => terms.2.1) hterms
    exact ⟨e', hget', howner' ▸ howner, hstatus ▸ hterminal, hstatus ▸ htext⟩

/-! ## One delivery -/

section Deliveries

variable {faults : Faults} {policy : Policy} {b b' : Books} {token : String} {limit : Deadline}
  {target : Recipient}

theorem Effect.decides_payment {id : PaymentId}
    (h : Effect policy b (.deliverPayment id token) .applied b') :
    b'.ledger.Decided token (.payment id) := by
  cases h with
  | unchanged idle => exact absurd rfl idle
  | settled outcome known pending drawnOn credit new written =>
    have houtcome := Lifecycle.ofToken_ok outcome
    refine ⟨_, (Table.get?_insert ..).trans (if_pos rfl), ?_⟩
    rw [new]
    exact houtcome
  | paymentFailed outcome known pending =>
    exact ⟨_, (Table.get?_insert ..).trans (if_pos rfl), Lifecycle.ofToken_ok outcome⟩

theorem Effect.decides_installment {id : InstallmentId}
    (h : Effect policy b (.deliverInstallment id token) .applied b') :
    b'.ledger.Decided token (.installment id) := by
  cases h with
  | unchanged idle => exact absurd rfl idle
  | collected outcome known owner pending =>
    exact ⟨_, (Table.get?_insert ..).trans (if_pos rfl), owner, Lifecycle.ofToken_ok outcome⟩

/-- A delivery moves the rows onward, as every call does. -/
theorem Recipient.deliver_onward (hsound : b.ledger.Sound) (hb : b.ledger.Balanced) :
    (target.deliver policy token limit).run.Always faults
      (fun _ b' => b'.ledger.Balanced ∧ b.ledger.Onward Steps b'.ledger) b := by
  cases target with
  | payment id => exact EngineCall.always_onward hsound hb policy (.deliverPayment id token) limit
  | installment id =>
    exact EngineCall.always_onward hsound hb policy (.deliverInstallment id token) limit

/-- A delivery that is applied decides. -/
theorem Recipient.deliver_decides (hsound : b.ledger.Sound) :
    (target.deliver policy token limit).run.Always faults
      (fun outcome b' => outcome = some (.ok .applied) → b'.ledger.Decided token target) b := by
  cases target with
  | payment id =>
    refine Program.Always.mono ?_ (Engine.deliverPayment_ensures hsound id token)
    rintro _ b' hend rfl
    exact Effect.decides_payment hend
  | installment id =>
    have hends := @Engine.deliverInstallment_ensures faults policy b limit hsound id token
    refine Program.Always.mono ?_ hends
    rintro _ b' hend rfl
    exact Effect.decides_installment hend

/-- How the rows are after a delivery. -/
theorem Recipient.deliver_always (hsound : b.ledger.Sound) (hb : b.ledger.Balanced) :
    (target.deliver policy token limit).run.Always faults
      (fun outcome b' => (b'.ledger.Balanced ∧ b.ledger.Onward Steps b'.ledger) ∧
        (outcome = some (.ok .applied) → b'.ledger.Decided token target)) b :=
  (deliver_onward hsound hb).and (deliver_decides hsound)

open Operation in
/-- Where an outcome stands, a delivery changes nothing and is not applied. -/
theorem Recipient.deliver_again {stands : String} (hstands : b.ledger.Decided stands target) :
    Ensures faults (target.deliver policy token limit)
      (fun ack b' => b' = b ∧ ack ≠ .applied) (fun _ b' => b' = b) b := by
  have hbreaks : ∀ {c : StoreCall}, Breaks faults c (fun _ b' => b' = b) b :=
    breaks_of fun _ => rfl
  have hdone : ∀ {σ : Type} [Lifecycle σ] [DecidableEq σ] {id : UInt64} {s next : σ},
      Lifecycle.isTerminal s = true → Lifecycle.advance id s next ≠ .ok .applied := by
    intro σ _ _ id s next hterminal hadvance
    have hsuccessor := Engine.mem_successors hadvance
    rw [Lifecycle.isTerminal, List.isEmpty_iff] at hterminal
    rw [hterminal] at hsuccessor
    cases hsuccessor
  cases target with
  | payment id =>
    obtain ⟨p, hget, hterminal, -⟩ := hstands
    simp only [deliver, Engine.deliverPayment, ensures_bind, ensures_require, ensures_locked,
      ensures_boundedCall, ensures_found, hbreaks, implies_true, and_true, true_and, hget,
      Option.some.injEq, reduceCtorEq,
      ensures_look (c := .getPayment id) (fun _ => rfl) fun _ => trivial]
    rintro next houtcome _ rfl transition hadvance
    cases transition with
    | unchanged => exact ⟨rfl, by rintro ⟨⟩⟩
    | applied => exact absurd hadvance (hdone hterminal)
  | installment id =>
    obtain ⟨e, hget, howner, hterminal, -⟩ := hstands
    simp only [deliver, Engine.deliverInstallment, ensures_bind, ensures_require, ensures_locked,
      Engine.ensures_getInstallment, ensures_ite, ensures_throw, hbreaks, implies_true, and_true,
      true_and, hget, Option.some.injEq, reduceCtorEq]
    rintro next houtcome _ rfl _ transition hadvance
    cases transition with
    | unchanged => exact ⟨rfl, by rintro ⟨⟩⟩
    | applied => exact absurd hadvance (hdone hterminal)

end Deliveries

/-! ## What is answered -/

/-- Where nothing follows, the same status is repeated and every other one refused. -/
theorem Lifecycle.advance_terminal {σ : Type} [Lifecycle σ] [DecidableEq σ] {id : UInt64}
    {current next : σ} (h : isTerminal current = true) :
    advance id current next = if current = next then .ok .unchanged
      else .error (.conflict (entity σ) id (text current) (text next)) := by
  have hstays : canMove current next = false := by
    rw [isTerminal, List.isEmpty_iff] at h
    simp [canMove, h]
  simp [advance, h, hstays]

theorem PaymentStatus.ofToken_text {s : PaymentStatus} (h : Lifecycle.isTerminal s = true) :
    Lifecycle.ofToken PaymentStatus (Lifecycle.text s) = .ok s := by
  cases s with
  | pending => cases h
  | successful | failed => rfl

theorem InstallmentStatus.ofToken_text {s : InstallmentStatus}
    (h : Lifecycle.isTerminal s = true) :
    Lifecycle.ofToken InstallmentStatus (Lifecycle.text s) = .ok s := by
  cases s with
  | pending => cases h
  | paid | failed => rfl

namespace World

variable {policy : Policy} {w w' : World} {b : Books} {token : String} {limit : Deadline}
  {target : Recipient}

section Looks

variable {faults : Faults} {α : Type} {outcome : Option (Except Failure α)}

/-- What is to be done under a lock that is free is begun, or the deadline has expired. -/
theorem runs_locked {key : LockKey} {body : Operation α} (hw : w.locks.Idle)
    (h : w.Runs faults (Operation.locked key limit body).run outcome w') :
    (outcome = some (.error .timeout) ∧ limit.isExpired w'.time = true) ∨
      ∃ begun ended : World, begun.store = w.store ∧ begun.outages = w.outages ∧
        begun.Runs faults body.run outcome ended ∧ ended.time ≤ w'.time := by
  cases h with
  | @ask _ _ granted _ _ later _ _ lapses _ answers rest =>
    rw [← lapses.locks] at hw
    have hfree : key ∉ later.locks.held := by simp [hw.2]
    obtain ⟨locks, hanswer, -, -⟩ := answer_acquire hw.1 hfree limit
    rw [hanswer] at answers
    obtain ⟨hgranted, rfl⟩ := Prod.mk.inj answers
    obtain rfl := Option.some.inj hgranted
    cases hexpired : limit.isExpired later.time <;> simp only [hexpired] at rest
    · refine .inr ⟨{ later with locks }, ?_⟩
      rcases (runs_bind body.run _).mp rest with ⟨result, ended, hbody, hrelease⟩ | ⟨hcrash, rfl⟩
      · obtain ⟨left, hleft, -, hdone⟩ := (runs_ask fun _ _ => rfl).mp hrelease
        cases hdone
        exact ⟨ended, lapses.store, lapses.outages, hbody, hleft.time⟩
      · exact ⟨w', lapses.store, lapses.outages, hcrash, Nat.le_refl _⟩
    · cases rest
      exact .inl ⟨rfl, hexpired⟩
  | crash _ _ answers =>
    obtain ⟨_, hstore, -⟩ := crash_of_answer (congrArg Prod.fst answers)
    cases hstore

/-- A look-up that works is made, or the deadline has expired. -/
theorem runs_look {c : StoreCall} {row : c.Result} {body : c.Result → Operation α}
    {result : Except Failure α} (hworks : w.outages.next c.method = none)
    (hlook : w.store.answer c = .ok (row, w.store)) (hbody : (body row).run = .done result)
    (h : w.Runs faults (Operation.boundedCall limit c >>= body).run outcome w') :
    (outcome = some (.error .timeout) ∧ limit.isExpired w'.time = true) ∨
      outcome = some result := by
  have hexpired : ∀ later, w.Lapses later → later.answer (.expired limit) =
      (some (limit.isExpired later.time), later) := fun _ _ => rfl
  obtain ⟨checked, hchecked, -, hrest⟩ := (runs_ask hexpired).mp h
  cases hlate : limit.isExpired checked.time <;> rw [hlate] at hrest
  · have hanswer : ∀ later, checked.Lapses later → later.answer (.store c) =
        (some (.ok row), { later with outages := later.outages.count c.method }) := by
      intro later hlater
      rw [← hchecked.outages, ← hlater.outages] at hworks
      rw [← hchecked.store, ← hlater.store] at hlook
      simp only [answer, callStore, hworks, hlook]
    obtain ⟨later, -, -, hdone⟩ := (runs_ask hanswer).mp hrest
    have hdone : World.Runs faults (body row).run _ outcome w' := hdone
    rw [hbody] at hdone
    cases hdone
    exact .inr rfl
  · cases hrest
    exact .inl ⟨rfl, hlate⟩

/-- So it is with a look-up under a lock. -/
theorem runs_locked_look {key : LockKey} {c : StoreCall} {row : c.Result}
    {body : c.Result → Operation α} {result : Except Failure α} (hw : w.locks.Idle)
    (hworks : w.outages.next c.method = none) (hlook : w.store.answer c = .ok (row, w.store))
    (hbody : (body row).run = .done result)
    (h : w.Runs faults
      (Operation.locked key limit (Operation.boundedCall limit c >>= body)).run outcome w') :
    (outcome = some (.error .timeout) ∧ limit.isExpired w'.time = true) ∨
      outcome = some result := by
  rcases runs_locked hw h with hlate | ⟨begun, ended, hstore, houtages, hruns, htime⟩
  · exact .inl hlate
  rw [← houtages] at hworks
  rw [← hstore] at hlook
  refine (runs_look hworks hlook hbody hruns).imp_left fun ⟨htimeout, hexpired⟩ => ⟨htimeout, ?_⟩
  by_contra hnot
  have hearlier := Deadline.isExpired_of_le htime (Bool.eq_false_iff.mpr hnot)
  rw [hexpired] at hearlier
  cases hearlier

end Looks

open Operation in
/-- What a delivery answers that asks for a status where another one may stand already. -/
theorem run_advance {σ : Type} [Lifecycle σ] [DecidableEq σ] {id : UInt64} {stands next : σ}
    (hterminal : Lifecycle.isTerminal stands = true)
    {goOn : Lifecycle.Transition → Operation Engine.Ack}
    (hunchanged : goOn .unchanged = pure .duplicate) :
    (require (Lifecycle.advance id stands next) >>= goOn).run = .done (
      if stands = next then .ok .duplicate
      else .error (.conflict (Lifecycle.entity σ) id (Lifecycle.text stands)
        (Lifecycle.text next))) := by
  rw [Lifecycle.advance_terminal hterminal]
  split
  · show (goOn .unchanged).run = _
    rw [hunchanged]
    rfl
  · rfl

/-- Where an outcome stands, the same one is a duplicate and every other one a conflict, unless the
deadline has expired or the row cannot be read. -/
theorem deliver_decided {faults : Faults} {outcome : Option (Except Failure Engine.Ack)}
    {stands : String} (hshows : w.Shows b) (hsound : b.ledger.Sound) (hw : w.locks.Idle)
    (hworks : w.outages.next target.method = none) (hstands : b.ledger.Decided stands target)
    (hruns : w.Runs faults (target.deliver policy token limit).run outcome w')
    (hintime : ¬(outcome = some (.error .timeout) ∧ limit.isExpired w'.time = true)) :
    (token = stands → outcome = some (.ok .duplicate)) ∧
    (token ≠ stands → target.Accepts token →
      outcome = some (.error (.conflict target.entity target.number stands token))) := by
  cases target with
  | payment id =>
    obtain ⟨p, hget, hterminal, rfl⟩ := hstands
    have hread : w.store.answer (.getPayment id) = .ok (some p, w.store) :=
      hshows.1.answer_read hsound.toOrdered (by rw [← hget]; rfl)
    have hanswer : ∀ {next}, Lifecycle.ofToken PaymentStatus token = .ok next →
        outcome = some (if p.status = next then .ok .duplicate
          else .error (.conflict .payment id.value (Lifecycle.text p.status)
            (Lifecycle.text next))) := by
      intro next hnext
      simp only [Recipient.deliver, Engine.deliverPayment, hnext] at hruns
      exact (runs_locked_look (c := .getPayment id) hw hworks hread (run_advance hterminal rfl)
        hruns).resolve_left hintime
    constructor
    · rintro rfl
      rw [hanswer (PaymentStatus.ofToken_text hterminal), if_pos rfl]
    · rintro hother ⟨next, hnext⟩
      obtain ⟨-, rfl⟩ := Lifecycle.ofToken_ok hnext
      have hne : p.status ≠ next := fun heq => hother (congrArg Lifecycle.text heq.symm)
      rw [hanswer hnext, if_neg hne]
      rfl
  | installment id =>
    obtain ⟨e, hget, howner, hterminal, rfl⟩ := hstands
    have hread : w.store.answer (.getInstallment id) = .ok (some e, w.store) :=
      hshows.1.answer_read hsound.toOrdered (by rw [← hget]; rfl)
    have hanswer : ∀ {next}, Lifecycle.ofToken InstallmentStatus token = .ok next →
        outcome = some (if e.status = next then .ok .duplicate
          else .error (.conflict .installment id.value (Lifecycle.text e.status)
            (Lifecycle.text next))) := by
      intro next hnext
      simp only [Recipient.deliver, Engine.deliverInstallment, Engine.getInstallment, hnext,
        bind_assoc] at hruns
      refine (runs_locked_look (c := .getInstallment id) hw hworks hread ?_ hruns).resolve_left
        hintime
      have hfound : Operation.found id (some e) = pure e := rfl
      rw [hfound, pure_bind, if_neg howner]
      exact run_advance hterminal rfl
    constructor
    · rintro rfl
      rw [hanswer (InstallmentStatus.ofToken_text hterminal), if_pos rfl]
    · rintro hother ⟨next, hnext⟩
      obtain ⟨-, rfl⟩ := Lifecycle.ofToken_ok hnext
      have hne : e.status ≠ next := fun heq => hother (congrArg Lifecycle.text heq.symm)
      rw [hanswer hnext, if_neg hne]
      rfl

end World

/-! ## The record -/

/-- A delivery and what it was answered. There is no outcome if it crashed. -/
structure Receipt where
  target : Recipient
  token : String
  limit : Deadline
  before : World
  outcome : Option (Except Failure Engine.Ack)
  after : World

namespace Receipt

/-- The deadline has stopped it, at which it was given up, or the store does not let the row be
read. -/
def Stopped (r : Receipt) : Prop :=
  (r.outcome = some (.error .timeout) ∧ r.limit.isExpired r.after.time = true) ∨
    r.before.outages.next r.target.method ≠ none

def Applied (r : Receipt) : Prop := r.outcome = some (.ok .applied)

instance (r : Receipt) : Decidable r.Applied := inferInstanceAs (Decidable (_ = _))

/-- What a delivery is answered that comes after one which was applied to the same recipient. -/
structure Repeats (later first : Receipt) : Prop where
  duplicate : ¬later.Stopped → later.token = first.token → later.outcome = some (.ok .duplicate)
  conflict : ¬later.Stopped → later.token ≠ first.token → later.target.Accepts later.token →
    later.outcome = some (.error
      (.conflict later.target.entity later.target.number first.token later.token))
  notApplied : ¬later.Applied
  store : later.after.store = later.before.store
  queue : later.after.queue = later.before.queue

/-- What the deliveries on record say of the rows, and of each other. -/
structure Agree (log : List Receipt) (l : Ledger) : Prop where
  decided : ∀ r ∈ log, r.Applied → l.Decided r.token r.target
  repeats : log.Pairwise fun first later =>
    first.target = later.target → first.Applied → later.Repeats first

theorem agree_nil {l : Ledger} : Agree [] l := ⟨fun _ hr => (nomatch hr), .nil⟩

theorem Agree.onward {log : List Receipt} {l l' : Ledger} (h : Agree log l)
    (honward : l.Onward Lasts l') : Agree log l' :=
  ⟨fun r hr happlied => (h.decided r hr happlied).onward honward, h.repeats⟩

end Receipt

def Delivery.receipt (d : Delivery) : Receipt where
  target := d.notification.recipient
  token := d.notification.token
  limit := .unbounded
  before := d.before
  outcome := d.outcome
  after := d.after

theorem Notification.deliver_eq (policy : Policy) (n : Notification) :
    Engine.deliver policy n = n.recipient.deliver policy n.token .unbounded := by
  cases n <;> rfl

section Records

variable {faults : Faults} {policy : Policy} {w : World} {b : Books} {log : List Receipt}

/-- The delivery that a call makes, if it makes any. -/
def Receipt.ofCall (w : World) (limit : Deadline) (w' : World) :
    (call : EngineCall) → Option (Except Failure call.Result) → List Receipt
  | .deliverPayment id token, outcome => [⟨.payment id, token, limit, w, outcome, w'⟩]
  | .deliverInstallment id token, outcome => [⟨.installment id, token, limit, w, outcome, w'⟩]
  | _, _ => []

/-- The delivery ran from its first world to its last one. -/
def Receipt.Made (faults : Faults) (policy : Policy) (r : Receipt) : Prop :=
  r.before.Runs faults (r.target.deliver policy r.token r.limit).run r.outcome r.after

theorem Delivery.made_receipt {d : Delivery}
    (h : d.before.Runs faults (Engine.deliver policy d.notification).run d.outcome d.after) :
    d.receipt.Made faults policy := by
  rw [d.notification.deliver_eq] at h
  exact h

variable {r : Receipt}

/-- A delivery to a recipient whose outcome stands. -/
theorem Receipt.Made.repeats (h : r.Made faults policy) (hshows : r.before.Shows b)
    (hsound : b.ledger.Sound) (hw : r.before.locks.Idle) {first : Receipt}
    (hstands : b.ledger.Decided first.token r.target) : r.Repeats first := by
  obtain ⟨b', hshows', -, hend⟩ := h.shows (Recipient.deliver_again hstands) hshows hsound
  have hends : b' = b ∧ ¬r.Applied := by
    rw [Receipt.Applied]
    rcases houtcome : r.outcome with _ | cause | ack <;> rw [houtcome] at hend
    · exact ⟨hend, nofun⟩
    · exact ⟨hend, nofun⟩
    · exact ⟨hend.1, fun heq => hend.2 (Except.ok.inj (Option.some.inj heq))⟩
  obtain ⟨rfl, hnot⟩ := hends
  have hanswer := fun hgoes : ¬r.Stopped =>
    World.deliver_decided hshows hsound hw (not_not.mp (not_or.mp hgoes).2) hstands h
      (not_or.mp hgoes).1
  constructor
  · exact fun hgoes => (hanswer hgoes).1
  · exact fun hgoes => (hanswer hgoes).2
  · exact hnot
  · exact hshows.1.eq hshows'.1 h.isDurable
  · exact hshows'.2.trans hshows.2.symm

/-- One more delivery on record. -/
theorem Receipt.Made.agrees (h : r.Made faults policy) (hshows : r.before.Shows b)
    (hsound : b.ledger.Sound) (hb : b.ledger.Balanced) (hw : r.before.locks.Idle)
    (hlog : Receipt.Agree log b.ledger) :
    ∃ b', r.after.Shows b' ∧ b'.ledger.Sound ∧ b'.ledger.Balanced ∧
      Receipt.Agree (log ++ [r]) b'.ledger := by
  obtain ⟨b', hshows', hsound', ⟨hb', honward⟩, hdecides⟩ :=
    h.shows (Recipient.deliver_always hsound hb) hshows hsound
  refine ⟨b', hshows', hsound', hb', ?_, ?_⟩
  · intro r' hr' happlied
    rcases List.mem_append.mp hr' with hr' | hr'
    · exact (hlog.decided r' hr' happlied).onward honward.lasts
    · obtain rfl := List.mem_singleton.mp hr'
      exact hdecides happlied
  · refine List.pairwise_append.mpr ⟨hlog.repeats, List.pairwise_singleton _ _, ?_⟩
    intro first hfirst later hlater htarget happlied
    obtain rfl := List.mem_singleton.mp hlater
    exact h.repeats hshows hsound hw (htarget ▸ hlog.decided first hfirst happlied)

variable {w' : World}

/-- The delivery of a call on record. -/
theorem World.Runs.agrees {call : EngineCall} {limit : Deadline}
    {result : Option (Except Failure call.Result)}
    (h : w.Runs faults (call.program policy limit).run result w') (hshows : w.Shows b)
    (hsound : b.ledger.Sound) (hb : b.ledger.Balanced) (hw : w.locks.Idle)
    (hlog : Receipt.Agree log b.ledger) :
    ∃ b', w'.Shows b' ∧ b'.ledger.Sound ∧ b'.ledger.Balanced ∧
      Receipt.Agree (log ++ Receipt.ofCall w limit w' call result) b'.ledger := by
  have hother : Receipt.ofCall w limit w' call result = [] → ∃ b', w'.Shows b' ∧
      b'.ledger.Sound ∧ b'.ledger.Balanced ∧
        Receipt.Agree (log ++ Receipt.ofCall w limit w' call result) b'.ledger := by
    intro hnone
    obtain ⟨b', hshows', hsound', hb', honward⟩ :=
      h.shows (EngineCall.always_onward hsound hb policy call limit) hshows hsound
    rw [hnone, List.append_nil]
    exact ⟨b', hshows', hsound', hb', hlog.onward honward.lasts⟩
  cases call with
  | deliverPayment id token =>
    have hmade : Receipt.Made faults policy ⟨.payment id, token, limit, w, result, w'⟩ := h
    exact hmade.agrees hshows hsound hb hw hlog
  | deliverInstallment id token =>
    have hmade : Receipt.Made faults policy ⟨.installment id, token, limit, w, result, w'⟩ := h
    exact hmade.agrees hshows hsound hb hw hlog
  | _ => exact hother rfl

/-- The deliveries of a drain on record. -/
theorem World.Delivers.agrees {ns : List Notification} {ds : List Delivery}
    (h : w.Delivers faults policy ns ds w') (hshows : w.Shows b) (hsound : b.ledger.Sound)
    (hb : b.ledger.Balanced) (hw : w.locks.Idle) (hlog : Receipt.Agree log b.ledger) :
    ∃ b', w'.Shows b' ∧ b'.ledger.Sound ∧ b'.ledger.Balanced ∧
      Receipt.Agree (log ++ ds.map Delivery.receipt) b'.ledger := by
  induction h generalizing b log with
  | nil => exact ⟨b, hshows, hsound, hb, by simpa using hlog⟩
  | @next w after w' n rest outcome ds runs others ih =>
    let d : Delivery := ⟨w, n, some outcome, after⟩
    have hmade : d.receipt.Made faults policy := Delivery.made_receipt runs
    obtain ⟨b', hshows', hsound', hb', hlog'⟩ := hmade.agrees hshows hsound hb hw hlog
    have hidle := runs.idle (Engine.deliver_returns policy n).run hw
    have hends := ih hshows' hsound' hb' hidle hlog'
    rwa [List.append_assoc] at hends
  | @crash w w' n rest runs =>
    let d : Delivery := ⟨w, n, none, w'⟩
    have hmade : d.receipt.Made faults policy := Delivery.made_receipt runs
    exact hmade.agrees hshows hsound hb hw hlog

/-- So it is with those of a drain, once what is due was taken from the queue. -/
theorem World.Drains.agrees {ds : List Delivery} (h : w.Drains faults policy ds w')
    (hshows : w.Shows b) (hsound : b.ledger.Sound) (hb : b.ledger.Balanced) (hw : w.locks.Idle)
    (hlog : Receipt.Agree log b.ledger) :
    ∃ b', w'.Shows b' ∧ b'.ledger.Sound ∧ b'.ledger.Balanced ∧
      Receipt.Agree (log ++ ds.map Delivery.receipt) b'.ledger := by
  cases h with
  | @ended seen begun last later _ looks takes delivers _ prunes =>
    have htaken := takes.shows_taken (looks.shows hshows) seen.clock
    rw [← looks.locks, ← takes.locks] at hw
    obtain ⟨b', hshows', hends⟩ := delivers.agrees htaken hsound hb hw hlog
    exact ⟨b', prunes.shows hshows', hends⟩
  | @crashed seen begun _ _ looks takes delivers _ =>
    have htaken := takes.shows_taken (looks.shows hshows) seen.clock
    rw [← looks.locks, ← takes.locks] at hw
    exact delivers.agrees htaken hsound hb hw hlog

/-! ## Transcripts -/

/-- What happens to engines one thing after another while time goes by, with all deliveries that
were made by then. Each engine after the first opens the database that the one before has left, and
a program that crashes gives up the locks that it holds. -/
inductive Transcript (faults : Faults) : Policy → World → List Receipt → Prop
  | start {policy : Policy} {w : World} (empty : w.IsEmpty) (locks : w.locks = {}) :
    Transcript faults policy w []
  | call {policy : Policy} {w w' : World} {log : List Receipt}
      (before : Transcript faults policy w log) (call : EngineCall) (limit : Deadline)
      {result : Option (Except Failure call.Result)}
      (runs : w.Runs faults (call.program policy limit).run result w') :
    Transcript faults policy w' (log ++ Receipt.ofCall w limit w' call result)
  | drain {policy : Policy} {w w' : World} {log : List Receipt}
      (before : Transcript faults policy w log) {ds : List Delivery}
      (drains : w.Drains faults policy ds w') :
    Transcript faults policy w' (log ++ ds.map Delivery.receipt)
  | withdraw {policy : Policy} {w : World} {log : List Receipt}
      (before : Transcript faults policy w log) (n : Notification) :
    Transcript faults policy { w with queue := (w.queue.cancel n).2 } log
  /-- Clocks, scorers, outages and the source of references may change in any way. -/
  | surroundings {policy : Policy} {w w' : World} {log : List Receipt}
      (before : Transcript faults policy w log) (store : w'.store = w.store)
      (queue : w'.queue = w.queue) (locks : w'.locks = w.locks) : Transcript faults policy w' log
  | reopen {policy : Policy} (policy' : Policy) {w w' : World} {log : List Receipt}
      {a a' : Archive} (before : Transcript faults policy w log) (closed : w.store = .durable a)
      (opened : Archive.open? a.database = .ok a') (store : w'.store = .durable a')
      (queue : w'.queue = {}) (locks : w'.locks = {}) : Transcript faults policy' w' log

/-- The clock may be set. -/
theorem Transcript.atClock (h : Transcript faults policy w log) (clock : Instant) :
    Transcript faults policy { w with clock } log :=
  h.surroundings rfl rfl rfl

/-- A call that takes no time. -/
theorem Transcript.called (h : Transcript faults policy w log) (call : EngineCall)
    (limit : Deadline) (follows : w.Follows faults (call.program policy limit).run) :
    Transcript faults policy (w.after (call.program policy limit).run)
      (log ++ Receipt.ofCall w limit (w.after (call.program policy limit).run) call
        (w.run (call.program policy limit).run).1) :=
  h.call call limit follows.runs

/-- A drain that takes no time. -/
theorem Transcript.drained (h : Transcript faults policy w log)
    (follows : w.Follows faults (Engine.runDue policy)) :
    ∃ ds, Delivery.outcomes ds = (w.run (Engine.runDue policy)).1 ∧
      Transcript faults policy (w.after (Engine.runDue policy))
        (log ++ ds.map Delivery.receipt) := by
  obtain ⟨ds, hdrains, houtcomes⟩ := World.runs_runDue.mp follows.runs
  exact ⟨ds, houtcomes.symm, h.drain hdrains⟩

/-- Calls that are made one after another, none of which crashes. -/
theorem Transcript.afterCalls {faults : Faults} (hfaults : ∀ call, ¬faults call .crash)
    (h : Transcript faults policy w log) {calls : List EngineCall}
    (hfollows : w.FollowsCalls faults policy calls) :
    ∃ log', Transcript faults policy (w.afterCalls policy calls) log' := by
  induction calls generalizing w log with
  | nil => exact ⟨log, h⟩
  | cons call rest ih =>
    have hnext := h.call call .unbounded hfollows.1.runs
    obtain ⟨result, hresult⟩ := World.isSome_run hfaults hfollows.1
    rw [World.after_eq hresult] at hnext
    exact ih hnext hfollows.2

/-- What a transcript tells is a history. -/
theorem Transcript.history {faults : Faults} (h : Transcript faults policy w log) :
    History faults policy w := by
  induction h with
  | start empty _ => exact .start empty
  | call _ call limit runs ih => exact ih.move (.call call limit runs)
  | drain _ drains ih => exact ih.move (.drain (World.runs_runDue.mpr ⟨_, drains, rfl⟩))
  | withdraw _ n ih => exact ih.move (.withdraw n)
  | surroundings _ store queue _ ih => exact ih.move (.surroundings store queue)
  | reopen policy' _ closed opened store queue _ ih =>
    exact .reopen policy' ih closed opened store queue

/-- The rows behind a transcript agree with the deliveries on record, and no lock is held. -/
theorem Transcript.agrees (h : Transcript faults policy w log) :
    ∃ b, w.Shows b ∧ b.ledger.Sound ∧ b.ledger.Balanced ∧ Receipt.Agree log b.ledger ∧
      w.locks.Idle := by
  induction h with
  | start empty locks =>
    refine ⟨_, empty.shows, Ledger.sound_empty, fun _ h => (nomatch h), Receipt.agree_nil, ?_⟩
    rw [locks]
    exact LockTable.idle_empty
  | @call policy w w' log before call limit result runs ih =>
    obtain ⟨b, hshows, hsound, hb, hlog, hw⟩ := ih
    have hidle := runs.idle (call.returns policy limit).run hw
    obtain ⟨b', hshows', hsound', hb', hlog'⟩ := runs.agrees hshows hsound hb hw hlog
    exact ⟨b', hshows', hsound', hb', hlog', hidle⟩
  | @drain policy w w' log before ds drains ih =>
    obtain ⟨b, hshows, hsound, hb, hlog, hw⟩ := ih
    have hidle := (World.runs_runDue.mpr ⟨ds, drains, rfl⟩).idle (Engine.runDue_returns policy) hw
    obtain ⟨b', hshows', hsound', hb', hlog'⟩ := drains.agrees hshows hsound hb hw hlog
    exact ⟨b', hshows', hsound', hb', hlog', hidle⟩
  | withdraw before n ih =>
    obtain ⟨b, hshows, hsound, hb, hlog, hw⟩ := ih
    refine ⟨{ b with queue := (b.queue.cancel n).2 }, ⟨hshows.1, ?_⟩, hsound, hb, hlog, hw⟩
    simp only [hshows.2]
  | surroundings before store queue locks ih =>
    obtain ⟨b, hshows, hsound, hb, hlog, hw⟩ := ih
    refine ⟨b, ⟨store ▸ hshows.1, queue.trans hshows.2⟩, hsound, hb, hlog, locks ▸ hw⟩
  | reopen policy' before closed opened store queue locks ih =>
    obtain ⟨b, hshows, hsound, hb, hlog, -⟩ := ih
    have hreopened : b.ledger.Onward Steps (Archive.reopened b.ledger) :=
      .of_eq rfl rfl rfl rfl rfl
    refine ⟨_, hshows.reopened closed opened store queue,
      Archive.reopened_sound hsound.toOrdered, hb.congr rfl, hlog.onward hreopened.lasts, ?_⟩
    rw [locks]
    exact LockTable.idle_empty

/-- Where nothing that satisfies `p` is followed by anything that does, one thing at most
satisfies it. -/
theorem countP_le_one {α : Type} {p : α → Bool} {all : List α}
    (h : all.Pairwise fun a b => p a → ¬p b) : all.countP p ≤ 1 := by
  induction h with
  | nil => exact Nat.zero_le 1
  | @cons a rest hfirst _ ih =>
    rw [List.countP_cons]
    split
    · rename_i ha
      have hnone : rest.countP p = 0 :=
        List.countP_eq_zero.mpr fun b hb => hfirst b hb ha
      omega
    · exact ih

/-- One delivery at most to every recipient is applied. Whatever happens afterwards, with any
faults, the same outcome is a duplicate from then on and the other one a conflict, and neither
changes the store or the queue. -/
theorem Transcript.firstWins (h : Transcript Faults.any policy w log) :
    (∀ target, (log.countP fun r => r.target = target ∧ r.Applied) ≤ 1) ∧
      log.Pairwise fun first later =>
        first.target = later.target → first.Applied → later.Repeats first := by
  obtain ⟨_, -, -, -, hlog, -⟩ := h.agrees
  refine ⟨fun target => countP_le_one (hlog.repeats.imp fun hrepeats hfirst hlater => ?_),
    hlog.repeats⟩
  simp only [decide_eq_true_eq] at hfirst hlater
  exact (hrepeats (hfirst.1.trans hlater.1.symm) hfirst.2).notApplied hlater.2

/-- A payment is settled by the queue, after its row could not be written. What a gateway says of
it later is a duplicate or a conflict, unless its deadline runs out before the payment is read. -/
theorem World.redelivered_firstWins :
    ∃ w log, Transcript Faults.any {} w log ∧
      log.map Receipt.outcome =
        [some (.error (.storage .outage)), some (.ok .applied), some (.error .timeout),
          some (.ok .duplicate), some (.error (.conflict .payment 1 "SUCCESSFUL" "FAILED"))] ∧
      (log.countP fun r => r.target = .payment ⟨1⟩ ∧ r.Applied) ≤ 1 ∧
      log.Pairwise fun first later =>
        first.target = later.target → first.Applied → later.Repeats first := by
  have hempty : Transcript Faults.any {}
      { sample with outages := Outages.set {} .updatePayment 0 1 .refusal } [] :=
    .start ⟨.inl rfl, rfl⟩ rfl
  have hpaid := ((hempty.called (.apply { user := "alice", amount := 1000, currency := "USD" })
    .unbounded (by decide +kernel)).called (.decideApplication ⟨1⟩)
    .unbounded (by decide +kernel)).called (.pay
      { application := ⟨1⟩, user := "alice", amount := 900, currency := "USD", method := "card" })
    .unbounded (by decide +kernel)
  have hrefused := hpaid.called (.deliverPayment ⟨1⟩ "SUCCESSFUL") .unbounded
    (by decide +kernel)
  obtain ⟨ds, houtcomes, hdrained⟩ :=
    (hrefused.atClock (Instant.epoch.add 60000)).drained (by decide +kernel)
  -- time goes by when the lock of the payment was taken
  have hlate := hdrained.call (.deliverPayment ⟨1⟩ "SUCCESSFUL") ⟨some 5⟩
    (.ask (.refl _) trivial rfl (.ask ⟨5, .epoch, by decide +kernel, rfl⟩ trivial rfl
      (Follows.runs (by decide +kernel))))
  have hagain := (hlate.called (.deliverPayment ⟨1⟩ "SUCCESSFUL") .unbounded
    (by decide +kernel)).called (.deliverPayment ⟨1⟩ "FAILED") .unbounded
    (by decide +kernel)
  obtain ⟨hcount, hpairs⟩ := hagain.firstWins
  refine ⟨_, _, hagain, ?_, hcount _, hpairs⟩
  have hsettled : ds.map Delivery.outcome = [some (.ok .applied)] := by
    have hall : Delivery.outcomes ds = some [(.paymentSettled ⟨1⟩, .ok .applied)] :=
      houtcomes.trans (by decide +kernel)
    have hmap := congrArg (List.map Prod.snd) (Delivery.map_of_outcomes hall)
    rwa [List.map_map, List.map_map] at hmap
  have hreceipts : (ds.map Delivery.receipt).map Receipt.outcome = ds.map Delivery.outcome :=
    List.map_map
  simp only [List.map_append, hreceipts, hsettled]
  decide +kernel

end Records

end Lending
