import Lending.Proofs.Engine.FirstWrite

/-!
# Some task can always go on

Any number of calls and drains at work on one engine, each with the locks that it has taken and not
given back. A task that asks for a lock which another task holds waits for that task. Since locks
are taken by growing rank, whoever is waited for holds a lock of lower rank than the one that it
waits for itself, so chains of waiting tasks end, and the task at their end can go on.

* `Worker`, `Crew`: tasks with the locks that they hold, and their world.
* `Crew.Turn`: one request of one task; `Crew.Step`: that, or a change around the engine.
* `Crew.Waits`: a task waits for another.
* `Crew.Accounted`: the locks that are held are those of the workers. Kept by every step.
* `Crew.Unblocked`: no task is waited for in a circle, and every task that has not ended can go on
  or waits, in the end, for one that can.
* `Crew.unblocked`: so it is in every state that the tasks come to.
-/

namespace Lending

/-! ## Tasks and their locks -/

/-- The locks that a task holds, the latest first, when its request is answered. -/
def Request.heldAfter (held : List LockKey) : (request : Request) → request.Answer → List LockKey
  | .acquire key _, granted => if granted then key :: held else held
  | .release key, _ => held.filter (· ≠ key)
  | _, _ => held

/-- The lock that the task asks for next, if it asks for one. -/
def Task.wanted? (task : Task) : Option LockKey :=
  match task.rest with
  | .ask (.acquire key _) _ => some key
  | _ => none

/-- The task has its result. -/
def Task.Ended (task : Task) : Prop := ∃ result, task.rest = .done result

/-- A task with the locks that it has taken and not given back, the latest first. -/
structure Worker where
  task : Task
  held : List LockKey

/-- Tasks at work on one engine, with their locks. -/
structure Crew where
  world : World
  workers : List Worker

/-- The jobs before their first requests. -/
def Crew.start (policy : Policy) (world : World) (jobs : List Job) : Crew where
  world := world
  workers := jobs.map fun job => ⟨⟨job, job.program policy⟩, []⟩

/-- The locks of these keys are given up. -/
def LockTable.giveUp {κ : Type} [DecidableEq κ] (t : LockTable κ) (keys : List κ) : LockTable κ :=
  { t with attempts := t.attempts.filter fun a => a.key ∉ keys }

/-- One request of the task at a place. A task that crashes is gone, and its locks are given up. -/
inductive Crew.Turn (s : Crew) (place : Nat) : Crew → Prop
  | answered {job : Job} {request : Request} {next : request.Answer → Program job.Result}
      {held : List LockKey} {answer : request.Answer} {w : World}
      (turn : s.workers[place]? = some ⟨⟨job, .ask request next⟩, held⟩)
      (serves : s.world.Serves request answer w) :
    Turn s place
      { world := w
        workers := s.workers.set place ⟨⟨job, next answer⟩, request.heldAfter held answer⟩ }
  | crashed {job : Job} {request : Request} {next : request.Answer → Program job.Result}
      {held : List LockKey} {w : World}
      (turn : s.workers[place]? = some ⟨⟨job, .ask request next⟩, held⟩)
      (crashes : s.world.answer request = (none, w)) :
    Turn s place
      { world := { w with locks := w.locks.giveUp held }
        workers := s.workers.eraseIdx place }

/-- One request of one task, or a change around the engine: of everything but the locks. -/
inductive Crew.Step (s : Crew) : Crew → Prop
  | turn {place : Nat} {s' : Crew} (turn : s.Turn place s') : Step s s'
  | surroundings {w : World} (locks : w.locks = s.world.locks) : Step s { s with world := w }

/-- What the task at a place asks for. -/
def Crew.wantedAt? (s : Crew) (place : Nat) : Option LockKey :=
  s.workers[place]?.bind fun worker => worker.task.wanted?

/-- The task at one place asks for a lock that the task at the other place holds. -/
def Crew.Waits (s : Crew) (place other : Nat) : Prop :=
  ∃ waiting holding key, s.workers[place]? = some waiting ∧ s.workers[other]? = some holding ∧
    waiting.task.wanted? = some key ∧ key ∈ holding.held

/-! ## One request -/

/-- There are two ranks. -/
theorem LockKey.rank_le (key : LockKey) : key.rank ≤ 1 := by
  cases key <;> simp [LockKey.rank]

theorem LockTable.Exclusive.giveUp {κ : Type} [DecidableEq κ] {t : LockTable κ} (h : t.Exclusive)
    (keys : List κ) : (t.giveUp keys).Exclusive ∧
      (t.giveUp keys).held = t.held.filter fun key => key ∉ keys := by
  have hheld : (t.giveUp keys).held = t.held.filter fun key => key ∉ keys := by
    simp only [LockTable.held, LockTable.giveUp, List.filter_map]
    rfl
  have hslotted : (t.giveUp keys).Slotted :=
    h.shrink (.refl _) List.filter_sublist rfl rfl fun _ _ hslot => hslot
  refine ⟨⟨hslotted, fun a ha => h.holds a (List.mem_of_mem_filter ha), ?_⟩, hheld⟩
  rw [hheld]
  exact h.nodup.filter _

section Requests

variable {α : Type} {Q : α → List LockKey → Prop} {w w' : World} {request : Request}
  {next : request.Answer → Program α} {held others : List LockKey}

/-- What a task holds and what the others hold is what is held, before and after the request. -/
theorem Program.Nests.serves {answer : request.Answer}
    (h : (Program.ask request next).Nests Q held) (hlocks : w.locks.Exclusive)
    (hheld : (held ++ others).Perm w.locks.held) (hserves : w.Serves request answer w') :
    (next answer).Nests Q (request.heldAfter held answer) ∧ w'.locks.Exclusive ∧
      (request.heldAfter held answer ++ others).Perm w'.locks.held := by
  cases hserves with
  | @granted key limit locks free =>
    have hnew : key ∉ w.locks.held := by
      intro hmem
      obtain ⟨_, hrefused, -⟩ := hlocks.lock_held hmem
      rw [hrefused] at free
      cases free
    obtain ⟨locks', hlock, hexclusive, hafter⟩ := hlocks.lock_free hnew
    obtain rfl : locks' = locks := congrArg Prod.snd (hlock.symm.trans free)
    refine ⟨h.2.2, hexclusive, ?_⟩
    rw [hafter]
    exact hheld.cons key
  | late expired => exact ⟨h.2.1, hlocks, hheld⟩
  | answered ready answers =>
    cases hlocking : request.isLocking with
    | false =>
      have hsame := World.answer_locks hlocking hlocks
      rw [answers] at hsame
      have hafter : request.heldAfter held answer = held := by
        cases request <;> first | rfl | cases hlocking
      rw [hafter, hsame.2]
      exact ⟨(Program.nests_ask hlocking next held).mp h answer, hsame.1, hheld⟩
    | true =>
      cases request with
      | acquire key limit => cases ready
      | release key =>
        obtain ⟨rest, rfl, hnext⟩ := h
        have hnodup : (key :: (rest ++ others)).Nodup := hheld.nodup_iff.mpr hlocks.nodup
        have hkept : ∀ {keys : List LockKey}, keys ⊆ rest ++ others →
            keys.filter (· ≠ key) = keys := by
          intro keys hkeys
          refine List.filter_eq_self.mpr fun k hk => decide_eq_true ?_
          rintro rfl
          exact (List.nodup_cons.mp hnodup).1 (hkeys hk)
        obtain ⟨locks, hunlock, hexclusive, hafter⟩ :=
          hlocks.unlock (hheld.subset List.mem_cons_self)
        simp only [World.answer, hunlock] at answers
        obtain rfl := congrArg Prod.snd answers
        have hmine : (Request.release key).heldAfter (key :: rest) answer = rest := by
          rw [Request.heldAfter, List.filter_cons_of_neg (by simp)]
          exact hkept (List.subset_append_left _ _)
        rw [hmine, hafter]
        refine ⟨hnext, hexclusive, ?_⟩
        have hperm := hheld.filter (· ≠ key)
        rw [List.cons_append, List.filter_cons_of_neg (by simp),
          hkept (List.Subset.refl _)] at hperm
        exact hperm
      | store _ | score _ _ | expired _ | now | freshOrder | schedule _ _ | cancel _ | takeDue _
      | pruneLocks => cases hlocking

/-- What a task held that crashes is held no more, and the others hold what they held. -/
theorem World.giveUp_of_crash (hlocks : w.locks.Exclusive)
    (hheld : (held ++ others).Perm w.locks.held) (hcrash : w.answer request = (none, w')) :
    (w'.locks.giveUp held).Exclusive ∧ others.Perm (w'.locks.giveUp held).held := by
  have hlocking : request.isLocking = false := by
    cases request with
    | acquire key limit =>
      simp only [World.answer] at hcrash
      split at hcrash <;> cases hcrash
    | release key => cases hcrash
    | store _ | score _ _ | expired _ | now | freshOrder | schedule _ _ | cancel _ | takeDue _
    | pruneLocks => rfl
  have hsame := World.answer_locks hlocking hlocks
  rw [hcrash] at hsame
  obtain ⟨hexclusive, hafter⟩ := hsame.1.giveUp held
  refine ⟨hexclusive, ?_⟩
  have hnodup : (held ++ others).Nodup := hheld.nodup_iff.mpr hlocks.nodup
  have hothers : others.filter (fun key => key ∉ held) = others := by
    refine List.filter_eq_self.mpr fun key hkey => decide_eq_true fun hmem => ?_
    exact List.disjoint_of_nodup_append hnodup hmem hkey
  have hmine : held.filter (fun key => key ∉ held) = [] := by
    refine List.filter_eq_nil_iff.mpr fun key hkey => ?_
    simp [hkey]
  have hperm := hheld.filter fun key => key ∉ held
  rw [List.filter_append, hmine, hothers, List.nil_append] at hperm
  rw [hafter, hsame.2]
  exact hperm

end Requests

/-! ## All tasks -/

/-- The locks that are held are those of the workers, and each of them takes its locks by growing
rank and gives them back before it ends. -/
structure Crew.Accounted (s : Crew) : Prop where
  locks : s.world.locks.Exclusive
  held : (s.workers.flatMap Worker.held).Perm s.world.locks.held
  nests : ∀ worker ∈ s.workers, worker.task.rest.Nests (fun _ held => held = []) worker.held

/-- Every job gives back the locks that it takes. -/
theorem Job.returns (policy : Policy) (job : Job) : (job.program policy).Returns := by
  cases job with
  | call call limit => exact (call.returns policy limit).run
  | drain => exact Engine.runDue_returns policy

namespace Crew

variable {policy : Policy} {w : World} {jobs : List Job} {s s' : Crew} {place other : Nat}
  {worker : Worker}

/-- The locks of a worker and those of the others. -/
theorem perm_held (hworker : s.workers[place]? = some worker) :
    (worker.held ++ (s.workers.eraseIdx place).flatMap Worker.held).Perm
      (s.workers.flatMap Worker.held) := by
  obtain ⟨hplace, rfl⟩ := List.getElem?_eq_some_iff.mp hworker
  rw [← List.flatMap_cons]
  exact (List.getElem_cons_eraseIdx_perm hplace).flatMap_right _

theorem perm_held_set (hworker : s.workers[place]? = some worker) (worker' : Worker) :
    ((s.workers.set place worker').flatMap Worker.held).Perm
      (worker'.held ++ (s.workers.eraseIdx place).flatMap Worker.held) := by
  obtain ⟨hplace, rfl⟩ := List.getElem?_eq_some_iff.mp hworker
  rw [← List.flatMap_cons]
  exact (List.set_perm_cons_eraseIdx hplace _).flatMap_right _

/-- Tasks that have not begun hold nothing. -/
theorem accounted_start (hidle : w.locks.Idle) : (start policy w jobs).Accounted where
  locks := hidle.1
  held := by simp [start, hidle.2]
  nests worker hworker := by
    obtain ⟨job, -, rfl⟩ := List.mem_map.mp hworker
    exact job.returns policy

namespace Accounted

theorem turn (h : s.Accounted) (hturn : s.Turn place s') : s'.Accounted := by
  cases hturn with
  | answered turn serves =>
    have hheld := (perm_held turn).trans h.held
    obtain ⟨hnests, hlocks, hafter⟩ :=
      (h.nests _ (List.mem_of_getElem? turn)).serves h.locks hheld serves
    refine ⟨hlocks, (perm_held_set turn _).trans hafter, ?_⟩
    intro worker hworker
    rcases List.mem_or_eq_of_mem_set hworker with hold | rfl
    · exact h.nests worker hold
    · exact hnests
  | crashed turn crashes =>
    obtain ⟨hlocks, hafter⟩ :=
      World.giveUp_of_crash h.locks ((perm_held turn).trans h.held) crashes
    exact ⟨hlocks, hafter, fun worker hworker => h.nests worker (List.mem_of_mem_eraseIdx hworker)⟩

theorem step (h : s.Accounted) (hstep : s.Step s') : s'.Accounted := by
  cases hstep with
  | turn turn => exact h.turn turn
  | surroundings locks => exact ⟨locks ▸ h.locks, locks ▸ h.held, h.nests⟩

theorem steps (h : s.Accounted) (hsteps : Relation.ReflTransGen Step s s') : s'.Accounted := by
  induction hsteps with
  | refl => exact h
  | tail _ hstep ih => exact ih.step hstep

/-- A task that has ended holds no lock. -/
theorem held_of_ended (h : s.Accounted) (hworker : worker ∈ s.workers)
    (hended : worker.task.Ended) : worker.held = [] := by
  have hnests := h.nests worker hworker
  obtain ⟨result, hresult⟩ := hended
  rw [hresult] at hnests
  exact hnests

/-- What a task asks for has a higher rank than all that it holds. -/
theorem rank_lt (h : s.Accounted) (hworker : worker ∈ s.workers) {key : LockKey}
    (hwanted : worker.task.wanted? = some key) : ∀ k ∈ worker.held, k.rank < key.rank := by
  have hnests := h.nests worker hworker
  unfold Task.wanted? at hwanted
  split at hwanted
  · rename_i heq
    obtain rfl := Option.some.inj hwanted
    rw [heq] at hnests
    exact hnests.1
  · cases hwanted

theorem mem_held (h : s.Accounted) {key : LockKey} :
    key ∈ s.world.locks.held ↔ ∃ worker ∈ s.workers, key ∈ worker.held := by
  rw [← h.held.mem_iff, List.mem_flatMap]

/-- A task that has not ended can go on, or waits for another. -/
theorem turns_or_waits (h : s.Accounted) (hworker : s.workers[place]? = some worker)
    (hunfinished : ¬worker.task.Ended) :
    (∃ s', s.Turn place s') ∨ ∃ other, s.Waits place other := by
  obtain ⟨⟨job, rest⟩, held⟩ := worker
  cases rest with
  | done result => exact absurd ⟨result, rfl⟩ hunfinished
  | ask request next =>
    cases hacquire : request.isAcquire with
    | false =>
      rcases hanswer : s.world.answer request with ⟨_ | answer, w⟩
      · exact .inl ⟨_, .crashed hworker hanswer⟩
      · exact .inl ⟨_, .answered hworker (.answered hacquire hanswer)⟩
    | true =>
      cases request with
      | acquire key limit =>
        by_cases hmem : key ∈ s.world.locks.held
        · obtain ⟨holding, hholding, hkey⟩ := h.mem_held.mp hmem
          obtain ⟨other, hother⟩ := List.mem_iff_getElem?.mp hholding
          exact .inr ⟨other, _, holding, key, hworker, hother, rfl, hkey⟩
        · obtain ⟨locks, hlock, -⟩ := h.locks.lock_free hmem
          exact .inl ⟨_, .answered hworker (.granted hlock)⟩
      | release _ | store _ | score _ _ | expired _ | now | freshOrder | schedule _ _ | cancel _
      | takeDue _ | pruneLocks => cases hacquire

/-- Whoever is waited for and waits itself, waits for a lock of higher rank. -/
theorem rank_lt_of_waits (h : s.Accounted) (hwaits : s.Waits place other) :
    ∃ key, s.wantedAt? place = some key ∧
      ∀ key', s.wantedAt? other = some key' → key.rank < key'.rank := by
  obtain ⟨waiting, holding, key, hwaiting, hholding, hwanted, hkey⟩ := hwaits
  refine ⟨key, by rw [wantedAt?, hwaiting, Option.bind_some, hwanted], ?_⟩
  intro key' hwanted'
  rw [wantedAt?, hholding, Option.bind_some] at hwanted'
  exact h.rank_lt (List.mem_of_getElem? hholding) hwanted' key hkey

theorem rank_lt_of_chain (h : s.Accounted) (hchain : Relation.TransGen s.Waits place other) :
    ∃ key, s.wantedAt? place = some key ∧
      ∀ key', s.wantedAt? other = some key' → key.rank < key'.rank := by
  induction hchain with
  | single hwaits => exact h.rank_lt_of_waits hwaits
  | tail _ hwaits ih =>
    obtain ⟨key, hkey, hlt⟩ := ih
    obtain ⟨between, hbetween, hlt'⟩ := h.rank_lt_of_waits hwaits
    exact ⟨key, hkey, fun key' hkey' =>
      Nat.lt_trans (hlt between hbetween) (hlt' key' hkey')⟩

/-- No task waits for itself through others. -/
theorem acyclic (h : s.Accounted) (place : Nat) : ¬Relation.TransGen s.Waits place place := by
  intro hcycle
  obtain ⟨key, hkey, hlt⟩ := h.rank_lt_of_chain hcycle
  exact Nat.lt_irrefl _ (hlt key hkey)

/-- A task that has not ended can go on, or is the first of a chain of waiting tasks at whose end is
one that can. The induction is on the ranks that are left above what it asks for. -/
theorem reaches_turn (h : s.Accounted) {ranks : Nat} (hworker : s.workers[place]? = some worker)
    (hunfinished : ¬worker.task.Ended)
    (hranks : ∀ key, worker.task.wanted? = some key → 2 ≤ key.rank + ranks) :
    ∃ last, Relation.ReflTransGen s.Waits place last ∧ ∃ s', s.Turn last s' := by
  induction ranks generalizing place worker with
  | zero =>
    rcases h.turns_or_waits hworker hunfinished with hturn | ⟨other, waiting, holding, key, hwaits⟩
    · exact ⟨place, .refl, hturn⟩
    · obtain ⟨hwaiting, -, hwanted, -⟩ := hwaits
      obtain rfl := Option.some.inj (hwaiting.symm.trans hworker)
      have hhigh := hranks key hwanted
      have hlow := key.rank_le
      omega
  | succ ranks ih =>
    rcases h.turns_or_waits hworker hunfinished with hturn | ⟨other, hwaits⟩
    · exact ⟨place, .refl, hturn⟩
    · obtain ⟨waiting, holding, key, hwaiting, hholding, hwanted, hkey⟩ := id hwaits
      obtain rfl := Option.some.inj (hwaiting.symm.trans hworker)
      have hmem := List.mem_of_getElem? hholding
      have hother : ¬holding.task.Ended := by
        intro hended
        rw [h.held_of_ended hmem hended] at hkey
        cases hkey
      obtain ⟨last, hchain, hturn⟩ := ih hholding hother (by
        intro key' hwanted'
        have hlt := h.rank_lt hmem hwanted' key hkey
        have hbound := hranks key hwanted
        omega)
      exact ⟨last, .head hwaits hchain, hturn⟩

end Accounted

/-- No lock is held twice, none is held by a task that has ended, tasks do not wait in a circle, and
none waits in vain. -/
structure Unblocked (s : Crew) : Prop where
  /-- The locks that are held in the engine are those that the tasks hold. -/
  holders : ∀ key, s.world.locks.isHeld key = true ↔ ∃ worker ∈ s.workers, key ∈ worker.held
  exclusive : s.workers.Pairwise fun a b => ∀ key ∈ a.held, key ∉ b.held
  ended : ∀ worker ∈ s.workers, worker.task.Ended → worker.held = []
  acyclic : ∀ place, ¬Relation.TransGen s.Waits place place
  /-- A task that has not ended can go on, or waits through others for one that can. -/
  goesOn : ∀ place worker, s.workers[place]? = some worker → ¬worker.task.Ended →
    ∃ last, Relation.ReflTransGen s.Waits place last ∧ ∃ s', s.Turn last s'

/-- The locks of the engine cannot deadlock, whatever calls and drains are at work, in whatever
order they take their turns, and whatever happens to the store, the queue and the clocks. -/
theorem unblocked (hidle : w.locks.Idle)
    (hsteps : Relation.ReflTransGen Step (start policy w jobs) s) : s.Unblocked := by
  have h : s.Accounted := (accounted_start hidle).steps hsteps
  have hnodup := h.held.nodup_iff.mpr h.locks.nodup
  refine ⟨?_, ?_, ?_, h.acyclic, ?_⟩
  · intro key
    rw [h.locks.isHeld_iff, h.mem_held]
  · refine (List.nodup_flatMap.mp hnodup).2.imp fun hdisjoint key ha hb => hdisjoint ha hb
  · exact fun worker hworker => h.held_of_ended hworker
  · intro place worker hworker hunfinished
    exact h.reaches_turn hworker hunfinished fun key _ => Nat.le_add_left 2 key.rank

end Crew

/-! ### Turns in a given order -/

/-- The turn of the task at a place, if it can go on. -/
def Crew.turn? (s : Crew) (place : Nat) : Option Crew :=
  match s.workers[place]? with
  | some ⟨⟨job, .ask request next⟩, held⟩ =>
    (s.world.serve? request).map fun (answer, w) =>
      { world := w
        workers := s.workers.set place ⟨⟨job, next answer⟩, request.heldAfter held answer⟩ }
  | _ => none

/-- Turns of the tasks at these places, one after another. -/
def Crew.turns? (s : Crew) (places : List Nat) : Option Crew := places.foldlM turn? s

theorem Crew.turn?_turn {s s' : Crew} {place : Nat} (h : s.turn? place = some s') :
    s.Turn place s' := by
  unfold turn? at h
  split at h
  · rename_i job request next held hworker
    obtain ⟨⟨answer, w⟩, hserve, rfl⟩ := Option.map_eq_some_iff.mp h
    exact .answered hworker (World.serves_of_serve? hserve)
  · cases h

theorem Crew.turns?_steps {s s' : Crew} {places : List Nat} (h : s.turns? places = some s') :
    Relation.ReflTransGen Step s s' := by
  induction places generalizing s with
  | nil =>
    obtain rfl := Option.some.inj h
    exact .refl
  | cons place rest ih =>
    rw [turns?, List.foldlM_cons] at h
    obtain ⟨s₁, hfirst, hrest⟩ := Option.bind_eq_some_iff.mp h
    exact .head (.turn (turn?_turn hfirst)) (ih hrest)

/-- While a payment is made on the application, the gateway's confirmation of another has come to
ask for the application, and a drain asks for the payment that the confirmation holds: so the drain
waits for the confirmation and that for the new payment, which can go on. -/
theorem World.contested_unblocked :
    ∃ s, (Crew.start {} contested contestants).turns?
        (List.replicate 7 3 ++ List.replicate 3 0 ++ List.replicate 2 1) = some s ∧
      s.Waits 1 0 ∧ s.Waits 0 3 ∧ s.Unblocked := by
  have hends : ((Crew.start {} contested contestants).turns?
      (List.replicate 7 3 ++ List.replicate 3 0 ++ List.replicate 2 1)).map
        (fun s => ((s.workers.map fun worker => worker.task.wanted?), s.workers.map Worker.held)) =
      some ([some (.application ⟨1⟩), some (.payment ⟨1⟩), some (.payment ⟨1⟩), none],
        [[.payment ⟨1⟩], [], [], [.application ⟨1⟩]]) := by
    decide +kernel
  obtain ⟨s, hturns, hsees⟩ := Option.map_eq_some_iff.mp hends
  obtain ⟨hwanted, hheld⟩ := Prod.mk.inj hsees
  have hwaits : ∀ (place other : Nat) (key : LockKey) (held : List LockKey),
      (s.workers.map fun worker => worker.task.wanted?)[place]? = some (some key) →
        (s.workers.map Worker.held)[other]? = some held → key ∈ held → s.Waits place other := by
    intro place other key held hplace hother hkey
    rw [List.getElem?_map, Option.map_eq_some_iff] at hplace hother
    obtain ⟨waiting, hwaiting, hwanted⟩ := hplace
    obtain ⟨holding, hholding, rfl⟩ := hother
    exact ⟨waiting, holding, key, hwaiting, hholding, hwanted, hkey⟩
  rw [hwanted, hheld] at hwaits
  have hunblocked : s.Unblocked :=
    Crew.unblocked LockTable.idle_empty (Crew.turns?_steps hturns)
  exact ⟨s, hturns, hwaits 1 0 (.payment ⟨1⟩) _ rfl rfl (by decide),
    hwaits 0 3 (.application ⟨1⟩) _ rfl rfl (by decide), hunblocked⟩

end Lending
