import Lending.Proofs.Engine.Atomicity
import Lending.Proofs.Engine.Conduct

/-!
# The moment of a delivery

What the settlement queue delivers has no deadline and looks at the clock once at most, when the
outcome is applied. However time goes by in the meantime, a delivery therefore ends as it would if
all of it were made at the moment at which it looks.

* `Conduct.oneLook`: the rules for such programs.
* `Program.Abides.atOnce`: a program that follows them ends as it would at one moment.
* `World.Drains.atOnce`: so do all deliveries of a drain.
* `World.drain`: the deliveries of a drain in no time.
-/

namespace Lending

/-! ## One look at the clock -/

/-- No deadline is minded, and the clock is looked at once at most. The state tells whether it
was. -/
def Conduct.oneLook : Conduct Bool where
  may looked
    | .acquire _ limit | .expired limit => limit = .unbounded
    | .score _ _ => False
    | .now => looked = false
    | .release _ | .store _ | .freshOrder | .schedule _ _ | .cancel _ | .takeDue _ | .pruneLocks =>
      True
  leads looked request _ looked' :=
    match request with
    | .now => looked' = true
    | _ => looked' = looked

namespace World

variable {w w' : World}

/-- The world at another time, with another instant on the clock. -/
def timed (w : World) (time : Nat) (clock : Instant) : World := { w with time, clock }

theorem Lapses.timed (h : w.Lapses w') (time : Nat) (clock : Instant) :
    w'.timed time clock = w.timed time clock := by
  obtain ⟨_, _, -, rfl⟩ := h
  rfl

theorem grants_timed {faults : Faults} (request : Request) (time : Nat) (clock : Instant) :
    (w.timed time clock).Grants faults request ↔ w.Grants faults request := by
  cases request <;> rfl

/-- What is asked of a world by those who do not look at the clock is the same at any time. -/
theorem answer_timed {request : Request} (h : Conduct.oneLook.may true request) (time : Nat)
    (clock : Instant) :
    (w.timed time clock).answer request =
      ((w.answer request).1, (w.answer request).2.timed time clock) := by
  cases request with
  | store call =>
    simp only [answer, callStore, timed]
    split
    · rfl
    · rfl
    · split <;> rfl
  | acquire key limit =>
    obtain rfl : limit = .unbounded := h
    rfl
  | expired limit =>
    obtain rfl : limit = .unbounded := h
    rfl
  | score _ _ => cases h
  | now => cases h
  | release _ | freshOrder | schedule _ _ | cancel _ | takeDue _ | pruneLocks => rfl

/-! ## Programs that are run in no time -/

section AtOnce

variable {α : Type} {faults : Faults} {result : Option α} {request : Request}
  {next : request.Answer → Program α}

/-- Run in no time, the program meets no fault but those allowed and ends with the result. -/
structure AtOnce (faults : Faults) (w : World) (p : Program α) (result : Option α) : Prop where
  follows : w.Follows faults p
  result_eq : (w.run p).1 = result

instance [∀ call fault, Decidable (faults call fault)] [DecidableEq α] (w : World)
    (p : Program α) (result : Option α) : Decidable (w.AtOnce faults p result) :=
  decidable_of_iff (w.Follows faults p ∧ (w.run p).1 = result)
    ⟨fun h => ⟨h.1, h.2⟩, fun h => ⟨h.1, h.2⟩⟩

variable {later : World} {time : Nat} {clock : Instant} (hlapses : w.Lapses later)
  (hmay : Conduct.oneLook.may true request) (hgrants : later.Grants faults request)

include hlapses hmay hgrants

/-- A request that was made later is answered as at any moment. -/
theorem AtOnce.ask {answer : request.Answer} {answered : World}
    (hanswer : later.answer request = (some answer, answered))
    (h : (answered.timed time clock).AtOnce faults (next answer) result) :
    (w.timed time clock).AtOnce faults (.ask request next) result := by
  have htimed := answer_timed (w := later) hmay time clock
  rw [hlapses.timed, hanswer] at htimed
  rw [← grants_timed request time clock, hlapses.timed] at hgrants
  constructor
  · rw [Follows, htimed]
    exact ⟨hgrants, h.follows⟩
  · rw [run, htimed]
    exact h.result_eq

theorem AtOnce.crash {broken : World} (hanswer : later.answer request = (none, broken)) :
    (w.timed time clock).AtOnce faults (.ask request next) none := by
  have htimed := answer_timed (w := later) hmay time clock
  rw [hlapses.timed, hanswer] at htimed
  rw [← grants_timed request time clock, hlapses.timed] at hgrants
  constructor
  · rw [Follows, htimed]
    exact ⟨hgrants, trivial⟩
  · rw [run, htimed]

end AtOnce

end World

namespace Program

variable {α : Type} {p : Program α} {Q : α → Bool → Prop} {faults : Faults} {w w' : World}
  {result : Option α}

/-- A program that has looked at the clock already ends as it would at any other moment. -/
theorem Abides.atOnce_of_looked (h : p.Abides Conduct.oneLook Q true)
    (hruns : w.Runs faults p result w') (time : Nat) (clock : Instant) :
    (w.timed time clock).AtOnce faults p result := by
  induction hruns with
  | done => exact ⟨trivial, rfl⟩
  | @ask request _ answer _ _ _ _ _ lapses grants answers _ ih =>
    have hleads : Conduct.oneLook.leads true request answer true := by
      cases request <;> rfl
    exact .ask lapses h.1 grants answers (ih (h.2 answer true hleads))
  | crash lapses grants answers => exact .crash lapses h.1 grants answers

/-- A program that looks at the clock once at most ends as it would at one moment. -/
theorem Abides.atOnce (h : p.Abides Conduct.oneLook Q false) (hruns : w.Runs faults p result w')
    (time : Nat) : ∃ clock, (w.timed time clock).AtOnce faults p result := by
  -- until it looks, it does not matter at which moment it is run
  have hmay : ∀ {request : Request}, request ≠ .now → Conduct.oneLook.may false request →
      Conduct.oneLook.may true request ∧
        ∀ answer, Conduct.oneLook.leads false request answer false := by
    intro request hlook hmay
    cases request <;> first | exact absurd rfl hlook | exact ⟨hmay, fun _ => rfl⟩
  induction hruns with
  | @done _ w => exact ⟨w.clock, trivial, rfl⟩
  | @ask request _ answer _ _ later _ _ lapses grants answers rest ih =>
    by_cases hlook : request = .now
    · subst hlook
      cases answers
      have hrest := (h.2 later.clock true rfl).atOnce_of_looked rest time later.clock
      rw [lapses.timed] at hrest
      exact ⟨later.clock, ⟨trivial, hrest.follows⟩, hrest.result_eq⟩
    · obtain ⟨hmay, hleads⟩ := hmay hlook h.1
      obtain ⟨clock, hrest⟩ := ih (h.2 answer false (hleads answer))
      exact ⟨clock, .ask lapses hmay grants answers hrest⟩
  | @crash request _ w later _ lapses grants answers =>
    have hlook : request ≠ .now := by
      rintro rfl
      cases answers
    exact ⟨w.clock, .crash lapses (hmay hlook h.1).1 grants answers⟩

end Program

/-! ## Deliveries -/

namespace Operation

variable {α : Type} {looked : Bool} {ok : α → Bool → Prop} {fail : Bool → Prop}

theorem oneLook_now {ok : Instant → Bool → Prop} :
    Abides .oneLook (liftM now) ok fail false ↔ ∀ t, ok t true :=
  abides_now.trans ⟨fun h t => h.2 t true rfl, fun h => ⟨rfl, by rintro t _ rfl; exact h t⟩⟩

theorem oneLook_cancel {ok : Bool → Bool → Prop} (n : Notification) :
    Abides .oneLook (liftM (cancel n)) ok fail looked ↔ ∀ waiting, ok waiting looked :=
  (abides_cancel n).trans
    ⟨fun h waiting => h.2 waiting _ rfl, fun h => ⟨trivial, by rintro waiting _ rfl; exact h _⟩⟩

-- the type of the result is a case of `StoreCall.Result`, by which `simp` could not find the rule
theorem oneLook_call (c : StoreCall) {ok : c.Result → Bool → Prop} :
    @Abides _ (no_index c.Result) .oneLook (call c) ok fail looked ↔
      (∀ a, ok a looked) ∧ fail looked := by
  rw [abides_call]
  constructor
  · rintro ⟨-, hok, hfail⟩
    exact ⟨fun a => hok a looked rfl, hfail .timeout looked rfl⟩
  · rintro ⟨hok, hfail⟩
    exact ⟨trivial, by rintro a _ rfl; exact hok a, by rintro _ _ rfl; exact hfail⟩

theorem oneLook_check {ok : Unit → Bool → Prop} :
    Abides .oneLook (check .unbounded) ok fail looked ↔ fail looked ∧ ok () looked := by
  rw [abides_check]
  constructor
  · rintro ⟨-, h⟩
    exact ⟨(h true looked rfl).1 rfl, (h false looked rfl).2 rfl⟩
  · rintro ⟨hfail, hok⟩
    refine ⟨rfl, ?_⟩
    rintro _ _ rfl
    exact ⟨fun _ => hfail, fun _ => hok⟩

theorem oneLook_locked (key : LockKey) (body : Operation α) :
    Abides .oneLook (locked key .unbounded body) ok fail looked ↔
      fail looked ∧ Abides .oneLook body ok fail looked := by
  rw [abides_locked]
  constructor
  · intro h
    refine ⟨(h.2 false looked rfl).1 rfl, ((h.2 true looked rfl).2 rfl).mono ?_ ?_⟩
    · exact fun _ _ hreleased => hreleased.2 _ rfl
    · exact fun _ hreleased => hreleased.2 _ rfl
  · rintro ⟨hfail, hbody⟩
    refine ⟨rfl, ?_⟩
    rintro _ _ rfl
    refine ⟨fun _ => hfail, fun _ => hbody.mono ?_ ?_⟩
    · rintro _ _ h
      exact ⟨trivial, by rintro _ rfl; exact h⟩
    · rintro _ h
      exact ⟨trivial, by rintro _ rfl; exact h⟩

end Operation

namespace Engine

open Operation

theorem deliverPayment_oneLook (policy : Policy) (id : PaymentId) (token : String) :
    Abides .oneLook (deliverPayment policy id token .unbounded) (fun _ _ => True) (fun _ => True)
      false := by
  simp only [deliverPayment, boundedCall, abides_bind, abides_require, oneLook_locked,
    oneLook_check, oneLook_call, abides_found, implies_true, and_true, true_and]
  rintro next - row payment - transition -
  cases transition with
  | unchanged => trivial
  | applied =>
    cases next <;>
      simp [settlePayment, failPayment, getApplication, checkCredit, settledTotal, writeSchedule,
        removeSchedule, boundedCall, oneLook_locked, oneLook_check, oneLook_call, oneLook_now,
        oneLook_cancel]

theorem deliverInstallment_oneLook (id : InstallmentId) (token : String) :
    Abides .oneLook (deliverInstallment id token .unbounded) (fun _ _ => True) (fun _ => True)
      false := by
  simp only [deliverInstallment, getInstallment, boundedCall, abides_bind, abides_require,
    abides_ite, abides_throw, oneLook_locked, oneLook_check, oneLook_call, abides_found,
    implies_true, and_true, true_and]
  rintro next - row entry - - transition -
  cases transition with
  | unchanged => trivial
  | applied => simp [oneLook_check, oneLook_call, oneLook_cancel]

/-- A delivery looks at the clock when a payment is settled, if at all. -/
theorem deliver_oneLook (policy : Policy) (n : Notification) :
    (deliver policy n).run.Abides .oneLook (fun _ _ => True) false := by
  cases n with
  | paymentSettled id =>
    exact Program.Abides.mono (fun _ _ _ => trivial) (deliverPayment_oneLook policy id _)
  | installmentCollected id =>
    exact Program.Abides.mono (fun _ _ _ => trivial) (deliverInstallment_oneLook id _)

end Engine

/-- The same delivery, begun with another instant on the clock. -/
def Delivery.begunAt (d : Delivery) (clock : Instant) : Delivery :=
  { d with before := { d.before with clock } }

/-- The delivery ends as it would in no time. -/
def Delivery.AtOnce (faults : Faults) (policy : Policy) (d : Delivery) : Prop :=
  d.before.AtOnce faults (Engine.deliver policy d.notification).run d.outcome

namespace World

variable {faults : Faults} {policy : Policy} {w w' : World} {n : Notification}
  {ns : List Notification}

/-- However time goes by in a drain, each delivery ends as it would at one moment. -/
theorem Drains.atOnce {ds : List Delivery} (h : w.Drains faults policy ds w') {d : Delivery}
    (hd : d ∈ ds) : ∃ clock, (d.begunAt clock).AtOnce faults policy :=
  (Engine.deliver_oneLook policy d.notification).atOnce (h.mem_runs hd) d.before.time

/-! ## Drains in no time -/

/-- Notifications that are delivered in turn and in no time, until one crashes. -/
def deliveries (policy : Policy) (w : World) : List Notification → List Delivery
  | [] => []
  | n :: rest =>
    let (outcome, after) := w.run (Engine.deliver policy n).run
    { before := w, notification := n, outcome, after } ::
      match outcome with
      | some _ => after.deliveries policy rest
      | none => []

/-- The deliveries of everything that is due. -/
def drain (policy : Policy) (w : World) : List Delivery :=
  let (due, queue) := w.queue.takeDue w.clock
  { w with queue }.deliveries policy due

/-- A delivery that does not crash is followed by the others. -/
theorem run_deliverAll_cons {outcome : Except Failure Engine.Ack}
    (h : (w.run (Engine.deliver policy n).run).1 = some outcome) (rest : List Notification) :
    (w.run (Engine.deliverAll policy (n :: rest))).2 =
        ((w.run (Engine.deliver policy n).run).2.run (Engine.deliverAll policy rest)).2 ∧
      w.deliveries policy (n :: rest) =
        ⟨w, n, some outcome, (w.run (Engine.deliver policy n).run).2⟩ ::
          (w.run (Engine.deliver policy n).run).2.deliveries policy rest := by
  have hrun : w.run (Engine.deliverAll policy (n :: rest)) = _ :=
    run_bind (Engine.deliver policy n).run (fun outcome =>
      (Engine.deliverAll policy rest).bind fun outcomes => .done ((n, outcome) :: outcomes)) w
  rw [hrun, deliveries]
  rcases hdelivered : w.run (Engine.deliver policy n).run with ⟨_ | _, w'⟩ <;>
    rw [hdelivered] at h
  · cases h
  · obtain rfl := Option.some.inj h
    refine ⟨?_, rfl⟩
    simp only [run_bind]
    rcases w'.run (Engine.deliverAll policy rest) with ⟨_ | _, _⟩ <;> rfl

section Follows

variable (hfaults : ∀ call, ¬faults call .crash)

include hfaults

/-- Deliveries in no time are some that may be made while time goes by. -/
theorem Follows.delivers (h : w.Follows faults (Engine.deliverAll policy ns)) :
    w.Delivers faults policy ns (w.deliveries policy ns)
        (w.run (Engine.deliverAll policy ns)).2 ∧
      (Delivery.outcomes (w.deliveries policy ns)).isSome ∧
      ∀ d ∈ w.deliveries policy ns, d.AtOnce faults policy := by
  induction ns generalizing w with
  | nil => exact ⟨.nil, rfl, fun _ hd => nomatch hd⟩
  | cons n rest ih =>
    obtain ⟨hfirst, hrest⟩ := (follows_bind (Engine.deliver policy n).run _ w).mp h
    obtain ⟨outcome, houtcome⟩ := isSome_run hfaults hfirst
    obtain ⟨hrun, hdeliveries⟩ := run_deliverAll_cons houtcome rest
    have hnext := (follows_bind (Engine.deliverAll policy rest) _ _).mp (hrest outcome houtcome)
    obtain ⟨hdelivers, hends, hatOnce⟩ := ih hnext.1
    have hruns := hfirst.runsTo houtcome
    rw [after_eq houtcome] at hruns
    rw [hrun, hdeliveries, Delivery.outcomes_cons]
    refine ⟨.next hruns hdelivers, ?_, List.forall_mem_cons.mpr ⟨⟨hfirst, houtcome⟩, hatOnce⟩⟩
    simpa using hends

/-- So is a drain in no time. -/
theorem Follows.drains (h : w.Follows faults (Engine.runDue policy)) :
    w.Drains faults policy (w.drain policy) (w.run (Engine.runDue policy)).2 ∧
      ∀ d ∈ w.drain policy, d.AtOnce faults policy := by
  have hall : (w.taken w.clock).Follows faults
      (Engine.deliverAll policy (w.queue.takeDue w.clock).1) :=
    ((follows_bind (Engine.deliverAll policy (w.queue.takeDue w.clock).1) _ _).mp h.2.2).1
  have hrun : w.run (Engine.runDue policy) = _ :=
    run_bind (Engine.deliverAll policy (w.queue.takeDue w.clock).1) (fun outcomes =>
      .ask .pruneLocks fun _ => .done outcomes) (w.taken w.clock)
  obtain ⟨hdelivers, hends, hatOnce⟩ := hall.delivers hfaults
  obtain ⟨outcomes, houtcomes⟩ := isSome_run hfaults hall
  refine ⟨?_, hatOnce⟩
  rw [hrun]
  revert houtcomes hdelivers
  rcases (w.taken w.clock).run (Engine.deliverAll policy (w.queue.takeDue w.clock).1) with
    ⟨_ | _, last⟩
  · rintro - ⟨⟩
  · rintro hdelivers -
    exact .ended (.refl w) (.refl w) hdelivers hends (.refl last)

end Follows

end World

end Lending
