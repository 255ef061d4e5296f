import Lending.Proofs.Engine.Atomicity
import Lending.Proofs.Engine.Refusals
import Lending.Scenario.Replay

/-!
# Scenarios without their failing rows

A row of a scenario that cannot be read or that fails leaves no trace: without such rows a scenario
goes as it goes with them. Both replays are followed through one series of scenes. A row that is
done goes from one scene to the next, and any other row stays where it is.

* `Store.Written`: what any number of store calls make of an empty store, closed and opened between
  them; `History.written`: among these stores are those that engines leave behind.
* `Simulation.Plays`: a simulation that nothing hinders, and its scene.
* `Simulation.plays_executeRow`: what becomes of a row depends on the scene, which changes only if
  the row is done.
* `Simulation.failing_rows_unseen`: the replay of a scenario, and that of its rows that are done.
-/

namespace Lending

/-! ## Stores that were written to -/

/-- The stores that come of empty ones by store calls, and by opening what was left. -/
inductive Store.Written : Store → Prop
  | memory : Written (.memory {})
  | durable : Written (.durable {})
  | answered {s s' : Store} {call : StoreCall} {result : call.Result} (before : Written s)
      (answer : s.answer call = .ok (result, s')) : Written s'
  | reopened {a a' : Archive} (before : Written (.durable a))
      (opened : Archive.open? a.database = .ok a') : Written (.durable a')

/-- Such a store keeps a ledger that is in order. -/
theorem Store.Written.keeps {s : Store} (h : s.Written) : ∃ l, s.Keeps l ∧ l.Ordered := by
  induction h with
  | memory => exact ⟨{}, rfl, Ledger.ordered_empty⟩
  | durable => exact ⟨{}, ofLedger_empty.symm, Ledger.ordered_empty⟩
  | @answered s s' call result before answer ih =>
    obtain ⟨l, hkeeps, hordered⟩ := ih
    cases hanswer : l.answer call with
    | error cause =>
      rw [hkeeps.answer_error hordered hanswer] at answer
      cases answer
    | ok answered =>
      obtain ⟨s₁, hs₁, hkeeps₁⟩ := hkeeps.answer_ok hordered hanswer
      obtain ⟨-, rfl⟩ := Prod.mk.inj (Except.ok.inj (hs₁.symm.trans answer))
      exact ⟨_, hkeeps₁, hordered.answer hanswer⟩
  | @reopened a a' before opened ih =>
    obtain ⟨l, hkeeps, hordered⟩ := ih
    obtain rfl : a = Archive.ofLedger l := hkeeps
    obtain rfl := Except.ok.inj (opened.symm.trans (Archive.open?_database l))
    exact ⟨Archive.reopened l, rfl, (Archive.reopened_sound hordered).toOrdered⟩

/-- Engines write in this way, however the calls of their stores fail. -/
theorem History.written {faults : Faults} {policy : Policy} {w : World}
    (h : History faults policy w) : w.store.Written := by
  induction h with
  | start empty =>
    rcases empty.1 with hstore | hstore <;> rw [hstore]
    · exact .memory
    · exact .durable
  | move _ moves ih =>
    cases moves with
    | call _ _ runs => exact runs.keeps_store (fun hanswer hs => hs.answered hanswer) ih
    | drain runs => exact runs.keeps_store (fun hanswer hs => hs.answered hanswer) ih
    | withdraw _ => exact ih
    | surroundings store _ => exact store ▸ ih
  | reopen _ _ closed opened store _ ih =>
    rw [store]
    exact .reopened (closed ▸ ih) opened

/-! ## Stores that never fail -/

/-- No store call fails, however many were made. -/
def Outages.IsClear (o : Outages) : Prop := ∀ method n, o.fault method n = none

namespace World

variable {α : Type}

theorem fault_answer (w : World) (request : Request) :
    (w.answer request).2.outages.fault = w.outages.fault := by
  cases request with
  | store call =>
    simp only [answer, callStore]
    cases w.outages.next call.method with
    | some fault => cases fault <;> rfl
    | none => cases w.store.answer call <;> rfl
  | score user limit =>
    simp only [answer, drawScore, passTo]
    split <;> split <;> rfl
  | acquire key limit =>
    simp only [answer]
    split <;> rfl
  | release _ | expired _ | now | freshOrder | schedule _ _ | cancel _ | takeDue _ | pruneLocks =>
    rfl

theorem isClear_answer {w : World} (h : w.outages.IsClear) (request : Request) :
    (w.answer request).2.outages.IsClear := by
  unfold Outages.IsClear
  rw [fault_answer]
  exact h

theorem isClear_run {w : World} (h : w.outages.IsClear) (p : Program α) :
    (w.run p).2.outages.IsClear :=
  run_keeps (I := fun w => w.outages.IsClear) (fun _ request hw => isClear_answer hw request) p h

theorem unbroken_of_isClear {w : World} (h : w.outages.IsClear) (p : Program α) :
    w.Unbroken p := by
  induction p generalizing w with
  | done value => trivial
  | ask request next ih =>
    have hafter := isClear_answer h request
    rw [Unbroken]
    refine ⟨fun call _ => h call.method _, ?_⟩
    rcases hrun : w.answer request with ⟨_ | answer, w'⟩ <;> rw [hrun] at hafter
    · trivial
    · exact ih answer hafter

/-- The same rows and numbers, notifications, clocks, scores and references. Only how often the
methods of the store were called and the places of the locks may differ. -/
def Agrees (w w' : World) : Prop := w' = { w with outages := w'.outages, locks := w'.locks }

/-- Two worlds of one scene agree if their stores are of one kind. -/
theorem Stages.agrees {w w' : World} {scene : Scene} (h : w.Stages scene) (h' : w'.Stages scene)
    (hkind : w'.store.isDurable = w.store.isDurable) : w.Agrees w' := by
  obtain ⟨⟨hkeeps, hqueue⟩, store, queue, outages, locks, haround⟩ := h
  obtain ⟨⟨hkeeps', hqueue'⟩, store', queue', outages', locks', haround'⟩ := h'
  have hstore : w'.store = w.store := hkeeps.eq hkeeps' hkind
  have hsame := haround.symm.trans haround'
  cases w
  cases w'
  simp only [World.mk.injEq] at hsame hstore
  simp only [Agrees, World.mk.injEq, hstore, hsame, true_and, and_true]
  exact hqueue'.trans hqueue.symm

theorem Stages.time {w : World} {scene : Scene} (h : w.Stages scene) :
    scene.around.time = w.time := by
  obtain ⟨-, store, queue, outages, locks, haround⟩ := h
  rw [haround]

end World

/-! ## Simulations -/

/-- The scene when a settlement delay has gone by on the clock. -/
def Scene.delayed (scene : Scene) (policy : Policy) : Scene :=
  { scene with around := { scene.around with
      clock := scene.around.clock.add policy.delayMillis } }

theorem Scene.Calm.delayed {scene : Scene} (h : scene.Calm) (policy : Policy) :
    (scene.delayed policy).Calm :=
  ⟨h.ordered, h.fresh, h.steady, h.prompt, h.still⟩

namespace Simulation

/-- Nothing is in the background, every lock is free and the store never fails. The scene is all
that the engine depends on beside the policy; the kind of the store does not change. -/
structure Plays (s : Simulation) (policy : Policy) (durable : Bool) (scene : Scene) : Prop where
  policy_eq : s.policy = policy
  alone : s.IsAlone
  stages : s.world.Stages scene
  idle : s.world.locks.Idle
  clear : s.world.outages.IsClear
  kind : s.world.store.isDurable = durable

/-- The deadline of a command that begins in a scene. -/
def limitIn (policy : Policy) (scene : Scene) : Deadline :=
  .within scene.around.time policy.requestTimeout.toNat

section Plays

variable {s : Simulation} {policy : Policy} {durable : Bool} {scene : Scene}

theorem Plays.run {α : Type} {p : Program α} (h : s.Plays policy durable scene)
    (hscene : scene.Calm) (hp : p.Returns) :
    (Simulation.run p s).1 = some (scene.run p).1 ∧
      (Simulation.run p s).2.Plays policy durable (scene.run p).2 := by
  obtain ⟨hresult, hstages⟩ := World.run_scene_unbroken hp h.idle h.stages hscene.ordered
    (World.unbroken_of_isClear h.clear p)
  have hidle := World.idle_after hp h.idle
  rw [World.after_eq hresult] at hidle
  rw [run_eq_run p s h.alone]
  exact ⟨hresult, h.policy_eq, h.alone, hstages, hidle, World.isClear_run h.clear p,
    (World.isDurable_run p s.world).trans h.kind⟩

theorem Plays.call (h : s.Plays policy durable scene) (hscene : scene.Calm) (call : EngineCall) :
    (s.call call s.requestBudget).1 =
        some (scene.perform (call.program policy (limitIn policy scene))).1 ∧
      (s.call call s.requestBudget).2.Plays policy durable
        (scene.perform (call.program policy (limitIn policy scene))).2 := by
  have hlimit : s.deadline s.requestBudget = limitIn policy scene := by
    rw [limitIn, h.stages.time, ← h.policy_eq]
    rfl
  rw [Simulation.call, hlimit, h.policy_eq]
  exact h.run hscene (call.returns policy _).run

theorem Plays.settle (h : s.Plays policy durable scene) (hscene : scene.Calm) :
    s.settle.Plays policy durable ((scene.delayed policy).run (Engine.runDue policy)).2 := by
  obtain ⟨hshows, store, queue, outages, locks, haround⟩ := h.stages
  have hstill : s.world.clockRuns = false := by
    rw [← hscene.still, haround]
  have hdelayed : (s.advanceClock s.policy.delayMillis).Plays policy durable
      (scene.delayed policy) := by
    refine ⟨h.policy_eq, h.alone, ⟨hshows, store, queue, outages, locks, ?_⟩, h.idle, h.clear,
      h.kind⟩
    rw [Scene.delayed, haround, h.policy_eq]
    rfl
  have hdrained := (hdelayed.run (hscene.delayed policy) (Engine.runDue_returns policy)).2
  rw [Simulation.settle, hstill, if_neg Bool.false_ne_true, runDue]
  exact h.policy_eq ▸ hdrained

/-! ## Rows -/

/-- What becomes of a row depends on the scene, which a row changes only if it is done. -/
theorem plays_executeRow (hscene : scene.Calm) (policy : Policy) (row : Except Failure Command) :
    ∃ outcome scene', scene'.Calm ∧ (outcome ≠ .done → scene' = scene) ∧
      ∀ {s : Simulation} {durable : Bool}, s.Plays policy durable scene →
        (s.executeRow row).1 = outcome ∧ (s.executeRow row).2.Plays policy durable scene' := by
  cases row with
  | error cause => exact ⟨.unreadable cause, scene, hscene, fun _ => rfl, fun h => ⟨rfl, h⟩⟩
  | ok c =>
    simp only [executeRow, execute]
    cases c.task with
    | error cause => exact ⟨.failed cause, scene, hscene, fun _ => rfl, fun h => ⟨rfl, h⟩⟩
    | ok task =>
      cases task with
      | settle =>
        exact ⟨.done, _, (hscene.delayed policy).runDue policy, fun hnot => absurd rfl hnot,
          fun h => ⟨rfl, h.settle hscene⟩⟩
      | call call =>
        have hspares := hscene.spares call policy (limitIn policy scene)
        unfold Scene.Spares at hspares
        have hcall : ∀ {s : Simulation} {durable : Bool}, s.Plays policy durable scene →
            ∃ s', s.call call s.requestBudget =
                (some (scene.perform (call.program policy (limitIn policy scene))).1, s') ∧
              s'.Plays policy durable
                (scene.perform (call.program policy (limitIn policy scene))).2 := by
          intro s durable h
          obtain ⟨hresult, hplays⟩ := h.call hscene call
          exact ⟨_, Prod.ext hresult rfl, hplays⟩
        rcases hperform : scene.perform (call.program policy (limitIn policy scene)) with
          ⟨cause | result, scene'⟩ <;> rw [hperform] at hspares hcall
        · refine ⟨.failed cause, scene', hspares ▸ hscene, fun _ => hspares, fun h => ?_⟩
          obtain ⟨s', hs', hplays⟩ := hcall h
          simp only [hs']
          exact ⟨rfl, hplays⟩
        · refine ⟨.done, scene', hspares, fun hnot => absurd rfl hnot, fun h => ?_⟩
          obtain ⟨s', hs', hplays⟩ := hcall h
          simp only [hs']
          exact ⟨rfl, hplays⟩

end Plays

/-- The rows that became `done`. -/
def doneRows {α : Type} (outcomes : List (RowOutcome × Nat)) (rows : List α) : List α :=
  ((rows.zip outcomes).filter fun entry => entry.2.1 = .done).map Prod.fst

section DoneRows

variable {α β : Type} {outcomes : List (RowOutcome × Nat)} {row : α} {rows : List α} {waiting : Nat}

theorem doneRows_cons_done :
    doneRows ((.done, waiting) :: outcomes) (row :: rows) = row :: doneRows outcomes rows := by
  simp [doneRows]

theorem doneRows_cons_of_ne {outcome : RowOutcome} (h : outcome ≠ .done) :
    doneRows ((outcome, waiting) :: outcomes) (row :: rows) = doneRows outcomes rows := by
  simp [doneRows, h]

theorem doneRows_map (f : α → β) :
    doneRows outcomes (rows.map f) = (doneRows outcomes rows).map f := by
  simp only [doneRows, List.zip_map_left, List.filter_map, List.map_map]
  rfl

end DoneRows

section

variable {s t : Simulation} {policy : Policy} {durable : Bool} {scene : Scene}

/-- How many notifications wait can be seen in the scene. -/
theorem Plays.pending (h : s.Plays policy durable scene) : s.pending = scene.books.queue.size :=
  congrArg Queue.size h.stages.1.2

theorem replay_cons (s : Simulation) (row : Except Failure Command)
    (rows : List (Except Failure Command)) :
    s.replay (row :: rows) =
      (((s.executeRow row).1, (s.executeRow row).2.pending) ::
        ((s.executeRow row).2.replay rows).1, ((s.executeRow row).2.replay rows).2) := rfl

/-- Two simulations in one scene, of which the one replays all rows and the other those that are
done. -/
theorem replay_doneRows (hscene : scene.Calm) (hs : s.Plays policy durable scene)
    (ht : t.Plays policy durable scene) (rows : List (Except Failure Command)) :
    (t.replay (doneRows (s.replay rows).1 rows)).1 =
        (s.replay rows).1.filter (fun entry => entry.1 = .done) ∧
      ∃ scene', scene'.Calm ∧ (s.replay rows).2.Plays policy durable scene' ∧
        (t.replay (doneRows (s.replay rows).1 rows)).2.Plays policy durable scene' := by
  induction rows generalizing s t scene with
  | nil => exact ⟨rfl, scene, hscene, hs, ht⟩
  | cons row rest ih =>
    obtain ⟨outcome, scene', hscene', hsame, hrow⟩ := plays_executeRow hscene policy row
    obtain ⟨houtcome, hs'⟩ := hrow hs
    rw [replay_cons, houtcome]
    by_cases hdone : outcome = .done
    · obtain ⟨houtcome', ht'⟩ := hrow ht
      obtain ⟨hkept, hends⟩ := ih hscene' hs' ht'
      subst hdone
      rw [doneRows_cons_done, replay_cons, houtcome', hs'.pending, ht'.pending]
      exact ⟨by simp [hkept], hends⟩
    · obtain rfl := hsame hdone
      obtain ⟨hkept, hends⟩ := ih hscene hs' ht
      rw [doneRows_cons_of_ne hdone]
      exact ⟨by simp [hdone, hkept], hends⟩

/-- The report can be told from the scene. -/
theorem Plays.report (h : s.Plays policy durable scene) (hscene : scene.Calm) :
    s.report s.requestBudget =
      ((scene.perform (Engine.allPaymentDetails (limitIn policy scene))).1).map Report.toText := by
  rw [Simulation.report, (h.call hscene .allPaymentDetails).1]
  rfl

/-- An engine on a store that was written to plays a calm scene, if the references of the payments
in it will not be given again. -/
theorem plays_make {store : Store} {clock : Instant} {score : UInt16} {orders : OrderSource}
    (hstore : store.Written)
    (hfresh : ∀ payments, store.look .listPayments = .ok payments →
      ∀ p ∈ payments, ¬orders.Gives p.order)
    (hmake : make policy { store, clock, scorer := .fixed score, orders } = .ok s) :
    ∃ scene, scene.Calm ∧ s.Plays policy store.isDurable scene := by
  obtain ⟨l, hkeeps, hordered⟩ := hstore.keeps
  have hpayments := hkeeps.look hordered .listPayments rfl
  unfold make at hmake
  cases hcheck : policy.check with
  | error cause =>
    rw [hcheck] at hmake
    cases hmake
  | ok _ =>
    rw [hcheck] at hmake
    obtain rfl := Except.ok.inj hmake
    have hshows : World.Shows { store, clock, scorer := .fixed score, orders }
        { ledger := l, queue := {} } := ⟨hkeeps, rfl⟩
    have hold : ∀ p ∈ l.payments.values, ¬orders.Gives p.order := hfresh _ hpayments
    exact ⟨_, ⟨hordered, hold, fun _ => rfl, rfl, rfl⟩,
      ⟨rfl, ⟨rfl, rfl⟩, hshows.stages, LockTable.idle_empty, fun _ _ => rfl, rfl⟩⟩

end

/-- On an engine with one score for everyone and a clock that is moved by hand, over any store that
was written to and whose references are old, the rows of a scenario that cannot be read or that fail
leave no trace. Without them every row is done, with as many notifications waiting after it as
before; the rows and numbers of the store, the notifications that wait and the clock come out the
same, and so does the report. -/
theorem failing_rows_unseen {policy : Policy} {store : Store} {clock : Instant} {score : UInt16}
    {orders : OrderSource} {s : Simulation} (hstore : store.Written)
    (hfresh : ∀ payments, store.look .listPayments = .ok payments →
      ∀ p ∈ payments, ¬orders.Gives p.order)
    (hmake : make policy { store, clock, scorer := .fixed score, orders } = .ok s)
    (header : Csv.Record) (rows : List Csv.Record) :
    let whole := s.replay (Command.ofRecords (header :: rows))
    let kept := s.replay (Command.ofRecords (header :: doneRows whole.1 rows))
    kept.1 = whole.1.filter (fun entry => entry.1 = .done) ∧
      whole.2.world.Agrees kept.2.world ∧
      kept.2.report kept.2.requestBudget = whole.2.report whole.2.requestBudget := by
  intro whole kept
  obtain ⟨scene, hscene, hplays⟩ := plays_make hstore hfresh hmake
  have hkept : kept = s.replay (doneRows whole.1 (Command.ofRecords (header :: rows))) :=
    congrArg s.replay (doneRows_map (Command.read (Command.recordText? header))).symm
  obtain ⟨houtcomes, scene', hscene', hwhole, hrest⟩ :=
    replay_doneRows hscene hplays hplays (Command.ofRecords (header :: rows))
  rw [hkept]
  refine ⟨houtcomes, hwhole.stages.agrees hrest.stages (hrest.kind.trans hwhole.kind.symm), ?_⟩
  rw [hrest.report hscene', hwhole.report hscene']

/-- A record whose fields are written in ASCII. -/
def asciiRecord (fields : List String) : Csv.Record :=
  fields.map fun field => field.toList.map fun c => UInt8.ofNat c.toNat

def sampleHeader : Csv.Record :=
  asciiRecord ["op", "id", "user", "amount", "currency", "method", "status"]

/-- Of a credit of 1000, 600 are settled and a payment of 600 is pending, which cannot succeed. -/
def sampleRows : List Csv.Record :=
  [["pay", "1", "alice", "500", "USD", "card"],
    ["pay", "1", "alice", "300", "USD", "card"],
    ["refund", "3"],
    ["loan", "", "bob", "", "EUR"],
    ["payment_webhook", "2", "", "", "", "", "SUCCESSFUL"],
    ["settle"],
    ["pay", "1", "alice", "100", "USD", "card"]].map asciiRecord

/-- A new engine on the store of another. -/
def sampleEngine : Simulation where
  policy := {}
  world :=
    { store := World.drawnUpon.store, clock := .epoch, scorer := .fixed 700
      orders := { seed := 2 } }

theorem sampleRows_unseen :
    let whole := sampleEngine.replay (Command.ofRecords (sampleHeader :: sampleRows))
    let kept := sampleEngine.replay
      (Command.ofRecords (sampleHeader :: doneRows whole.1 sampleRows))
    whole.1.map (fun entry => decide (entry.1 = .done)) =
        [false, true, false, false, false, true, true] ∧
      kept.1 = [(.done, 1), (.done, 0), (.done, 1)] ∧
      whole.2.world.Agrees kept.2.world ∧
      kept.2.report kept.2.requestBudget = whole.2.report whole.2.requestBudget := by
  have hempty : Reached Faults.none {} World.sample := .start ⟨.inl rfl, rfl⟩
  have hdrawn : History Faults.none {} World.drawnUpon :=
    (hempty.afterCalls (by decide +kernel)).history
  have horders : (World.drawnUpon.store.look .listPayments).map (List.map Payment.order) =
      .ok [OrderSource.reference (1 <<< 56), OrderSource.reference (1 <<< 56 + 1)] := by
    decide +kernel
  have hfresh : ∀ payments, World.drawnUpon.store.look .listPayments = .ok payments →
      ∀ p ∈ payments, ¬OrderSource.Gives { seed := 2 } p.order := by
    rintro payments hpayments p hp ⟨k, horder⟩
    rw [hpayments] at horders
    have hmem := List.mem_map_of_mem (f := Payment.order) hp
    rw [Except.ok.inj horders, horder] at hmem
    simp only [OrderSource.number, List.mem_cons, List.not_mem_nil, or_false] at hmem
    rcases hmem with hmem | hmem <;> have hnumber := OrderSource.reference_injective hmem <;>
      simp at hnumber <;> omega
  have hmake : make {} sampleEngine.world = .ok sampleEngine := rfl
  obtain ⟨hkept, hagrees, hreport⟩ :=
    failing_rows_unseen hdrawn.written hfresh hmake sampleHeader sampleRows
  exact ⟨by decide +kernel, hkept.trans (by decide +kernel), hagrees, hreport⟩

end Simulation

end Lending
