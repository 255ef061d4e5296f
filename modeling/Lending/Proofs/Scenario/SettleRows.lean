import Lending.Proofs.Engine.Agenda
import Lending.Proofs.Engine.Confirmations
import Lending.Proofs.Engine.DueTimes
import Lending.Proofs.Scenario.Replays

/-!
# Settle rows

A clock that is moved by hand goes on at settle rows only, by one settlement delay, and whatever
waits was scheduled one settlement delay ahead of it. So at a settle row everything that waits is
due, and the drain delivers it and leaves nothing.

* `World.DeliversAll`: a drain delivers everything that waits.
* `Simulation.Awaits`: what waits is due at the next settle row. Kept by every row.
* `Simulation.StaysInRange`: no counter and no due date leaves its range in the course of a replay.
* `Simulation.settleRow_empties`: the queue and the pending payments after a settle row.
-/

namespace Lending

/-! ## Drains of everything -/

/-- No program crashes at a store call, however many were made. Calls may be refused. -/
def Outages.NeverCrash (o : Outages) : Prop := ∀ method n, o.fault method n ≠ some .crash

/-- The first notification is due before the second, or they are due at once and the first was
scheduled before the second. -/
def Queue.Before (q : Queue) (n m : Notification) : Prop :=
  ∃ key key', (key, n) ∈ q.byDue.rows ∧ (key', m) ∈ q.byDue.rows ∧ compare key key' = .lt

namespace World

variable {w : World} {policy : Policy}

theorem neverCrash_answer (h : w.outages.NeverCrash) (request : Request) :
    (w.answer request).2.outages.NeverCrash := by
  unfold Outages.NeverCrash
  rw [fault_answer]
  exact h

theorem neverCrash_run {α : Type} (h : w.outages.NeverCrash) (p : Program α) :
    (w.run p).2.outages.NeverCrash :=
  run_keeps (I := fun w => w.outages.NeverCrash) (fun _ request hw => neverCrash_answer hw request)
    p h

/-- Where no store call crashes, every program ends with a result. -/
theorem isSome_run_of_neverCrash {α : Type} (h : w.outages.NeverCrash) (p : Program α) :
    ∃ a, (w.run p).1 = some a := by
  induction p generalizing w with
  | done value => exact ⟨value, rfl⟩
  | ask request next ih =>
    have hafter := neverCrash_answer h request
    rw [run]
    rcases hanswer : w.answer request with ⟨_ | answer, w'⟩ <;> rw [hanswer] at hafter
    · obtain ⟨call, -, hcrash⟩ := crash_of_answer (congrArg Prod.fst hanswer)
      exact absurd hcrash (h _ _)
    · exact ih answer hafter

/-- All that was taken out is delivered. -/
theorem deliveries_all (h : w.outages.NeverCrash) (ns : List Notification) :
    (w.deliveries policy ns).map Delivery.notification = ns ∧
      ∀ d ∈ w.deliveries policy ns, d.outcome.isSome := by
  induction ns generalizing w with
  | nil => exact ⟨rfl, fun _ hd => nomatch hd⟩
  | cons n rest ih =>
    obtain ⟨outcome, houtcome⟩ := isSome_run_of_neverCrash h (Engine.deliver policy n).run
    obtain ⟨hrest, hends⟩ := ih (neverCrash_run h (Engine.deliver policy n).run)
    rw [(run_deliverAll_cons houtcome rest).2]
    exact ⟨congrArg (n :: ·) hrest, List.forall_mem_cons.mpr ⟨rfl, hends⟩⟩

/-- A drain delivers everything that waits, each notification once and in the order in which they
are due. A delivery may be refused, but none is broken off. -/
structure DeliversAll (policy : Policy) (w : World) : Prop where
  waiting : ∀ n, n ∈ (w.drain policy).map Delivery.notification ↔ ∃ due, w.queue.Waits n due
  once : ((w.drain policy).map Delivery.notification).Nodup
  inOrder : ((w.drain policy).map Delivery.notification).Pairwise w.queue.Before
  outcomes : ∀ d ∈ w.drain policy, d.outcome.isSome

/-- So it is where everything that waits is due. -/
theorem deliversAll (h : w.Expects w.clock (· ≤ w.clock)) (hsteady : w.outages.NeverCrash) :
    w.DeliversAll policy := by
  obtain ⟨hdrain, houtcomes⟩ :
      (w.drain policy).map Delivery.notification = (w.queue.takeDue w.clock).1 ∧
        ∀ d ∈ w.drain policy, d.outcome.isSome :=
    deliveries_all (w := { w with queue := (w.queue.takeDue w.clock).2 }) hsteady _
  refine ⟨?_, ?_, ?_, houtcomes⟩ <;> rw [hdrain]
  · intro n
    rw [h.queue.mem_takeDue]
    refine exists_congr fun due => and_iff_left_of_imp (h.dues n due)
  · exact h.queue.nodup_takeDue w.clock
  · rw [h.queue.takeDue_fst, List.pairwise_map]
    refine (h.queue.ascending.filter _).imp_of_mem ?_
    rintro ⟨key, n⟩ ⟨key', m⟩ hn hm hlt
    exact ⟨key, key', (List.mem_filter.mp hn).1, (List.mem_filter.mp hm).1, hlt⟩

end World

/-- A queue in which nothing waits is empty. -/
theorem Queue.size_eq_zero {q : Queue} (h : ∀ n due, ¬q.Waits n due) : q.size = 0 := by
  refine List.length_eq_zero_iff.mpr (List.eq_nil_iff_forall_not_mem.mpr ?_)
  rintro ⟨⟨due, turn⟩, n⟩ hrow
  exact h n due ⟨turn, hrow⟩

/-! ## What every row keeps -/

namespace Simulation

variable {s : Simulation} {policy : Policy}

/-- Nothing is in the background, the clock is moved by hand, and all that waits is due one
settlement delay from now. -/
structure Awaits (policy : Policy) (s : Simulation) : Prop where
  policy_eq : s.policy = policy
  alone : s.IsAlone
  expects : s.world.Expects s.world.clock (· = s.world.clock.add policy.delayMillis)
  steady : s.world.outages.NeverCrash

/-- The world at a settle row, one settlement delay later. -/
def delayed (policy : Policy) (s : Simulation) : World :=
  { s.world with clock := s.world.clock.add policy.delayMillis }

theorem Awaits.call_eq (h : s.Awaits policy) (c : EngineCall) :
    let (result, w) := s.world.run (c.program policy (s.deadline s.requestBudget)).run
    s.call c s.requestBudget = (result, { s with world := w }) := by
  rw [Simulation.call, run_eq_run _ s h.alone, h.policy_eq]

theorem Awaits.settle_eq (h : s.Awaits policy) :
    s.settle = { s with world := ((s.delayed policy).run (Engine.runDue policy)).2 } := by
  rw [Simulation.settle, h.expects.still, if_neg Bool.false_ne_true, runDue,
    run_eq_run _ (s.advanceClock s.policy.delayMillis) h.alone, ← h.policy_eq]
  rfl

/-- A call schedules one settlement delay ahead, or nothing. -/
theorem Awaits.call (h : s.Awaits policy) (c : EngineCall) :
    (s.call c s.requestBudget).2.Awaits policy := by
  have hdues : Operation.Dues s.world.clock (· = s.world.clock.add policy.delayMillis)
      (c.program policy (s.deadline s.requestBudget)) :=
    EngineCall.dues (P := (· = s.world.clock.add policy.delayMillis)) rfl c _
  have hexpects := World.run_dues hdues.program h.expects
  rw [h.call_eq]
  refine ⟨h.policy_eq, h.alone, ?_, World.neverCrash_run h.steady _⟩
  simp only [hexpects.clock_eq]
  exact hexpects

/-- At a settle row everything that waits is due. -/
theorem Awaits.delayed (h : s.Awaits policy) :
    (s.delayed policy).Expects (s.delayed policy).clock (· ≤ (s.delayed policy).clock) := by
  refine ⟨rfl, h.expects.still, h.expects.queue, fun n due hwaits => ?_⟩
  rw [h.expects.dues n due hwaits]
  exact Int.le_refl _

/-- And then nothing waits any more. -/
theorem Awaits.settle_waits (h : s.Awaits policy) (n : Notification) (due : Instant) :
    ¬s.settle.world.queue.Waits n due := by
  rw [h.settle_eq]
  exact (World.runDue_dues h.delayed).dues n due

theorem Awaits.settle (h : s.Awaits policy) : s.settle.Awaits policy := by
  have hdrained : ((s.delayed policy).run (Engine.runDue policy)).2.Expects _ fun _ => False :=
    World.runDue_dues h.delayed
  have hsteady : (s.delayed policy).outages.NeverCrash := h.steady
  rw [h.settle_eq]
  refine ⟨h.policy_eq, h.alone, ?_, World.neverCrash_run hsteady _⟩
  exact ⟨rfl, hdrained.still, hdrained.queue, fun n due hwaits => (hdrained.dues n due hwaits).elim⟩

/-- What a row leaves, whether it is done or not. -/
theorem executeRow_snd (s : Simulation) (row : Except Failure Command) :
    (s.executeRow row).2 =
      match row.bind Command.task with
      | .error _ => s
      | .ok (.call c) => (s.call c s.requestBudget).2
      | .ok .settle => s.settle := by
  cases row with
  | error cause => rfl
  | ok c =>
    simp only [executeRow, execute, Except.bind]
    cases c.task with
    | error cause => rfl
    | ok task =>
      cases task with
      | settle => rfl
      | call call =>
        simp only
        cases completed (s.call call s.requestBudget).1 <;> rfl

theorem Awaits.executeRow (h : s.Awaits policy) (row : Except Failure Command) :
    (s.executeRow row).2.Awaits policy := by
  rw [executeRow_snd]
  match row.bind Command.task with
  | .error _ => exact h
  | .ok (.call c) => exact h.call c
  | .ok .settle => exact h.settle

theorem Awaits.replay (h : s.Awaits policy) (rows : List (Except Failure Command)) :
    (s.replay rows).2.Awaits policy := by
  induction rows generalizing s with
  | nil => exact h
  | cons row rest ih => exact ih (h.executeRow row)

/-! ## Ranges -/

/-- A row finds the numbers that it needs and meets no outage, and the due dates of the payments
that a settle row confirms are in the calendar. -/
def RowInRange (s : Simulation) (row : Except Failure Command) : Prop :=
  match row.bind Command.task with
  | .error _ => True
  | .ok (.call c) =>
    s.world.Follows Faults.none (c.program s.policy (s.deadline s.requestBudget)).run
  | .ok .settle =>
    (s.delayed s.policy).Follows Faults.none (Engine.runDue s.policy) ∧
      ∀ d ∈ (s.delayed s.policy).drain s.policy, d.inCalendar s.policy = true

instance (s : Simulation) (row : Except Failure Command) : Decidable (s.RowInRange row) := by
  unfold RowInRange
  split <;> infer_instance

/-- So it is with every row of a replay. -/
def StaysInRange (s : Simulation) : List (Except Failure Command) → Prop
  | [] => True
  | row :: rest => s.RowInRange row ∧ (s.executeRow row).2.StaysInRange rest

instance decidableStaysInRange :
    (s : Simulation) → (rows : List (Except Failure Command)) → Decidable (s.StaysInRange rows)
  | _, [] => isTrue trivial
  | s, row :: rest =>
    have := decidableStaysInRange (s.executeRow row).2 rest
    inferInstanceAs (Decidable (_ ∧ _))

open Relation (ReflTransGen)

open World (Proceeds)

theorem Awaits.executeRow_proceeds (h : s.Awaits policy) {row : Except Failure Command}
    (hrange : s.RowInRange row) :
    ReflTransGen (Proceeds policy) s.world (s.executeRow row).2.world := by
  rw [executeRow_snd]
  unfold RowInRange at hrange
  rw [h.policy_eq] at hrange
  match row.bind Command.task, hrange with
  | .error _, _ => exact .refl
  | .ok (.call c), hfollows =>
    obtain ⟨result, hresult⟩ := World.isSome_run (fun _ => not_false) hfollows
    have hcall := Proceeds.call c _ hfollows.runs
    rw [World.after_eq hresult] at hcall
    simp only [h.call_eq]
    exact .single hcall
  | .ok .settle, ⟨hfollows, hdatable⟩ =>
    have hwaited : Proceeds policy s.world (s.delayed policy) := .surroundings rfl rfl rfl
    simp only [h.settle_eq]
    exact (ReflTransGen.single hwaited).tail (World.proceeds_drain hfollows hdatable)

theorem Awaits.replay_proceeds (h : s.Awaits policy) {rows : List (Except Failure Command)}
    (hrange : s.StaysInRange rows) :
    ReflTransGen (Proceeds policy) s.world (s.replay rows).2.world := by
  induction rows generalizing s with
  | nil => exact .refl
  | cons row rest ih =>
    exact (h.executeRow_proceeds hrange.1).trans (ih (h.executeRow row) hrange.2)

/-! ## Settle rows -/

theorem replay_append (s : Simulation) (rows more : List (Except Failure Command)) :
    s.replay (rows ++ more) =
      ((s.replay rows).1 ++ ((s.replay rows).2.replay more).1,
        ((s.replay rows).2.replay more).2) := by
  induction rows generalizing s with
  | nil => rfl
  | cons row rest ih => rw [List.cons_append, replay_cons, replay_cons, ih, List.cons_append]

theorem executeRow_settle (s : Simulation) {c : Command} (hc : c.kind = .settle) :
    s.executeRow (.ok c) = (.done, s.settle) := by
  have htask : c.task = .ok .settle := by rw [Command.task, hc]; rfl
  simp only [executeRow, execute, htask]

end Simulation

/-- Nothing waits and nothing is locked in an engine that has just begun, whose clock is moved by
hand. -/
structure World.IsFresh (w : World) : Prop where
  queue : w.queue = {}
  locks : w.locks = {}
  still : w.clockRuns = false
  steady : w.outages.NeverCrash

theorem Simulation.awaits_make {policy : Policy} {w : World} {s : Simulation} (hfresh : w.IsFresh)
    (hmake : make policy w = .ok s) : s.world = w ∧ s.Awaits policy := by
  unfold make at hmake
  cases hcheck : policy.check with
  | error cause =>
    rw [hcheck] at hmake
    cases hmake
  | ok _ =>
    rw [hcheck] at hmake
    obtain rfl := Except.ok.inj hmake
    have hnone : ∀ n due, ¬w.queue.Waits n due := by
      rw [hfresh.queue]
      rintro n due ⟨turn, hrow⟩
      cases hrow
    refine ⟨rfl, rfl, ⟨rfl, rfl⟩, ⟨rfl, hfresh.still, ?_, ?_⟩, hfresh.steady⟩
    · rw [hfresh.queue]
      exact Queue.sound_empty
    · exact fun n due hwaits => (hnone n due hwaits).elim

/-- After every settle row of a scenario, on an engine that begins with any store and any policy and
whose clock is moved by hand, no notification waits, and the row has delivered all that waited
before it. If the store was empty at first, every payment that is still pending is larger than what
is left of its credit. -/
theorem Simulation.settleRow_empties {policy : Policy} {w : World} {s : Simulation}
    (hfresh : w.IsFresh) (hmake : make policy w = .ok s)
    (rows : List (Except Failure Command)) {c : Command} (hc : c.kind = .settle) :
    let before := (s.replay rows).2
    let after := (s.replay (rows ++ [.ok c])).2
    (s.replay (rows ++ [.ok c])).1 = (s.replay rows).1 ++ [(.done, 0)] ∧
      (∀ n due, ¬after.world.queue.Waits n due) ∧
      (before.delayed policy).DeliversAll policy ∧
      after.world = ((before.delayed policy).run (Engine.runDue policy)).2 ∧
      (w.IsEmpty → s.StaysInRange (rows ++ [.ok c]) → ∀ p,
        after.world.store.look (.getPayment p.id) = .ok (some p) → p.status = .pending →
          ∃ a left, a.id = p.application ∧ after.world.store.Leaves a left ∧
            left < p.amount.toNat) := by
  intro before after
  obtain ⟨hworld, hstart⟩ := awaits_make hfresh hmake
  have hbefore : before.Awaits policy := hstart.replay rows
  have hrow : before.replay [.ok c] = ([(.done, before.settle.pending)], before.settle) := by
    rw [replay_cons, executeRow_settle before hc]
    rfl
  have hreplay : s.replay (rows ++ [.ok c]) =
      ((s.replay rows).1 ++ [(.done, before.settle.pending)], before.settle) := by
    rw [replay_append, hrow]
  have hafter : after = before.settle := congrArg Prod.snd hreplay
  have hnone : ∀ n due, ¬after.world.queue.Waits n due := hafter ▸ hbefore.settle_waits
  refine ⟨?_, hnone, World.deliversAll hbefore.delayed hbefore.steady, ?_, ?_⟩
  · rw [hreplay, pending, Queue.size_eq_zero hbefore.settle_waits]
  · rw [hafter, hbefore.settle_eq]
  · intro hempty hrange p hp hpending
    have hidle : w.locks.Idle := hfresh.locks ▸ LockTable.idle_empty
    have hrun : Relation.ReflTransGen (World.Proceeds policy) w after.world :=
      hworld ▸ hstart.replay_proceeds hrange
    obtain ⟨b, hshows, htended, hidle', -⟩ :=
      World.tended_of_proceeds hrun .empty hempty.shows hidle
    have hlook := hshows.1.look htended.sound.toOrdered (.getPayment p.id) rfl
    have hmem : p ∈ b.ledger.payments.values :=
      htended.sound.payments.mem_values.mpr (Except.ok.inj (hlook.symm.trans hp))
    rcases htended.attended.pending p hmem hpending with ⟨due, hwaits⟩ | hdue | hlarge
    · exact absurd (hshows.2 ▸ hwaits) (hnone _ due)
    · cases hdue
    · exact World.larger_of_attended .refl htended hshows hidle' hmem hlarge

/-- Of a credit of 1000, 700 are settled, so that a payment of 600 stays pending at the first settle
row; a collection that is asked for twice and a payment of 200 wait for the second one. -/
def Simulation.settleRows : List (Except Failure Command) :=
  Command.ofRecords (sampleHeader :: [["apply", "", "alice", "1000", "USD"],
    ["decide", "1"],
    ["pay", "1", "alice", "700", "USD", "card"],
    ["pay", "1", "alice", "600", "USD", "card"],
    ["settle"],
    ["collect", "1"],
    ["pay", "1", "alice", "200", "USD", "card"],
    ["collect", "1"]].map asciiRecord)

def Command.settle : Command where
  kind := .settle
  id := none
  user := none
  amount := none
  currency := none
  method := none
  status := none
  term := none

/-- An engine without a settlement delay. -/
def Simulation.undelayed : Simulation where
  policy := { settlementDelay := 0 }
  world := .sample

/-- What waits is due at once there, and still waits for the next settle row. -/
theorem Simulation.settleRows_empty :
    let before := (undelayed.replay settleRows).2
    let after := (undelayed.replay (settleRows ++ [.ok .settle])).2
    ((before.delayed undelayed.policy).drain undelayed.policy).map Delivery.notification =
        [.paymentSettled ⟨3⟩, .installmentCollected ⟨1⟩] ∧
      (before.delayed undelayed.policy).DeliversAll undelayed.policy ∧
      [1, 2, 3].map (fun id => (after.world.store.look (.getPayment ⟨id⟩)).map
        (Option.map Payment.status)) =
        [.ok (some .successful), .ok (some .pending), .ok (some .successful)] ∧
      (∀ n due, ¬after.world.queue.Waits n due) ∧
      ∀ p, after.world.store.look (.getPayment p.id) = .ok (some p) → p.status = .pending →
        ∃ a left, a.id = p.application ∧ after.world.store.Leaves a left ∧
          left < p.amount.toNat := by
  have hfresh : undelayed.world.IsFresh := ⟨rfl, rfl, rfl, nofun⟩
  have hmake : make undelayed.policy undelayed.world = .ok undelayed := rfl
  have hrange : undelayed.StaysInRange (settleRows ++ [.ok .settle]) := by decide +kernel
  obtain ⟨-, hnone, hall, -, hlarger⟩ :=
    settleRow_empties (c := .settle) hfresh hmake settleRows rfl
  refine ⟨by decide +kernel, hall, by decide +kernel, hnone, ?_⟩
  exact hlarger ⟨.inl rfl, rfl⟩ hrange

end Lending
