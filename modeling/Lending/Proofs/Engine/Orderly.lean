import Lending.Proofs.Engine.Interference

/-!
# Tasks in good order

When every task respects the locks of the others, what holds while a lock is free holds in every
state that the tasks come to, in whatever order they take their turns.

* `World.Steady`: what holds of the world between two requests.
* `Program.Respects.turn`: one request of a program that respects the locks.
* `Workload.Orderly`: what each task holds and has written, and that they agree.
* `Workload.Orderly.steps`: tasks that are in good order stay so.
-/

namespace Lending

/-- The payment has an outcome, which counts once, or none. -/
def Ledger.outcomes (l : Ledger) (id : PaymentId) : Nat :=
  (l.payments.get? id).elim 0 fun p => if p.status = .pending then 0 else 1

namespace Ledger

variable {l l' : Ledger} {id : PaymentId}

theorem outcomes_of_concluded (h : l.Concluded id) : l.outcomes id = 1 := by
  obtain ⟨p, hget, hstatus⟩ := h
  simp [outcomes, hget, hstatus]

theorem outcomes_of_not_concluded (h : ¬l.Concluded id) : l.outcomes id = 0 := by
  unfold outcomes
  cases hget : l.payments.get? id with
  | none => rfl
  | some p =>
    have hpending : p.status = .pending := not_not.mp fun hne => h ⟨p, hget, hne⟩
    simp [hpending]

theorem outcomes_le_one (l : Ledger) (id : PaymentId) : l.outcomes id ≤ 1 := by
  by_cases h : l.Concluded id
  · rw [outcomes_of_concluded h]
  · rw [outcomes_of_not_concluded h]
    exact Nat.zero_le 1

/-- Outcomes stand. -/
theorem outcomes_le (h : l.Concluded id → l'.Concluded id) : l.outcomes id ≤ l'.outcomes id := by
  by_cases hbefore : l.Concluded id
  · rw [outcomes_of_concluded hbefore, outcomes_of_concluded (h hbefore)]
  · rw [outcomes_of_not_concluded hbefore]
    exact Nat.zero_le _

/-- A write gives an outcome to payments that have none. -/
theorem Writes.outcomes {held : List LockKey} {call : StoreCall} (h : l.Writes held call l')
    (id : PaymentId) : call.concludes.count id + l.outcomes id ≤ l'.outcomes id := by
  have hnodup : call.concludes.Nodup := by cases call <;> simp [StoreCall.concludes]
  by_cases hid : id ∈ call.concludes
  · obtain ⟨hbefore, hafter⟩ := h.concludes id hid
    rw [outcomes_of_not_concluded hbefore, outcomes_of_concluded hafter]
    exact List.nodup_iff_count_le_one.mp hnodup id
  · rw [List.count_eq_zero_of_not_mem hid, Nat.zero_add]
    exact outcomes_le (h.concluded id)

end Ledger

/-- Without one of its members, which it has once, a list counts one less. -/
theorem count_filter_ne {κ : Type} [DecidableEq κ] {all : List κ} (h : all.Nodup) {key : κ}
    (hkey : key ∈ all) (other : κ) :
    (all.filter (· ≠ key)).count other + [key].count other = all.count other := by
  by_cases heq : other = key
  · subst heq
    rw [List.count_eq_zero_of_not_mem (by simp), List.count_singleton_self,
      List.count_eq_one_of_mem h hkey]
  · have hother : [key].count other = 0 := List.count_eq_zero_of_not_mem (by simpa using heq)
    rw [List.count_filter (by simpa using heq), hother, Nat.add_zero]

/-- What holds of the world between two requests. -/
structure World.Steady (used : Tiers → Prop) (w : World) (b : Books) : Prop where
  shows : w.Shows b
  sound : b.ledger.Sound
  credit : CreditKept b.ledger
  locks : w.locks.Exclusive
  free : ∀ key, key ∉ w.locks.held → b.ledger.Free used key

theorem World.Steady.waits {used : Tiers → Prop} {w : World} {b : Books} (h : w.Steady used b)
    (held : List LockKey) : b.ledger.Waits held b.ledger :=
  ⟨.refl _, h.sound, h.credit⟩

/-! ## One request -/

section Turns

variable {faults : Faults} {used : Tiers → Prop} {w w' : World} {b : Books} {held : List LockKey}
  {won : List PaymentId} {α : Type} {Q : α → Standing}

/-- What a program that respects the locks has come to after one more request. -/
structure World.Turned (faults : Faults) (used : Tiers → Prop) (Q : α → Standing)
    (rest : Program α) (w : World) (b : Books) (held : List LockKey) (won : List PaymentId)
    (w' : World) (b' : Books) (held' : List LockKey) (won' : List PaymentId) : Prop where
  steady : w'.Steady used b'
  changes : b.ledger.Changes (· ∉ held) b'.ledger
  respects : rest.Respects faults used Q held' won' b'.ledger
  /-- Locks are taken from the free ones and go back to them. -/
  held : ∀ key, w'.locks.held.count key + held.count key =
    w.locks.held.count key + held'.count key
  won : ∀ id, won'.count id + b.ledger.outcomes id ≤ won.count id + b'.ledger.outcomes id

namespace World.Steady

/-- A request that changes neither the rows nor the locks. -/
theorem turned {rest : Program α} {b' : Books} (hw : w.Steady used b)
    (hrest : rest.Respects faults used Q held won b.ledger) (hshows : w'.Shows b')
    (hledger : b'.ledger = b.ledger)
    (hlocks : w'.locks.Exclusive ∧ w'.locks.held = w.locks.held) :
    Turned faults used Q rest w b held won w' b' held won where
  steady := by
    refine ⟨hshows, hledger ▸ hw.sound, hledger ▸ hw.credit, hlocks.1, ?_⟩
    rw [hledger, hlocks.2]
    exact hw.free
  changes := hledger ▸ .refl _
  respects := hledger ▸ hrest
  held _ := by rw [hlocks.2]
  won _ := by rw [hledger]

/-- A lock that is granted was free. -/
theorem turned_granted {key : LockKey} {limit : Deadline} {next : Bool → Program α}
    {locks : LockTable LockKey} (hw : w.Steady used b)
    (h : (Program.ask (.acquire key limit) next).Respects faults used Q held won b.ledger)
    (hheld : ∀ key ∈ held, key ∈ w.locks.held) (hgranted : w.locks.lock key = (true, locks)) :
    Turned faults used Q (next true) w b held won { w with locks } b (key :: held) won := by
  have hnew : key ∉ w.locks.held := by
    intro hmem
    obtain ⟨_, hrefused, -⟩ := hw.locks.lock_held hmem
    rw [hrefused] at hgranted
    cases hgranted
  obtain ⟨locks', hlock, hexclusive, hlocks⟩ := hw.locks.lock_free hnew
  obtain rfl : locks' = locks := congrArg Prod.snd (hlock.symm.trans hgranted)
  refine ⟨⟨hw.shows, hw.sound, hw.credit, hexclusive, ?_⟩, .refl _, ?_, ?_, fun _ => Nat.le_refl _⟩
  · intro other hother
    exact hw.free other fun hmem => hother (hlocks ▸ List.mem_cons_of_mem _ hmem)
  · exact (h _ (hw.waits held)).2 (fun hmem => hnew (hheld _ hmem)) (hw.free key hnew)
  · intro other
    simp only [hlocks, List.count_cons]
    omega

/-- A lock that is given back is the latest. -/
theorem turned_released {key : LockKey} {next : Unit → Program α} (hw : w.Steady used b)
    (h : (Program.ask (.release key) next).Respects faults used Q held won b.ledger)
    (hheld : ∀ key ∈ held, key ∈ w.locks.held) :
    ∃ rest, Turned faults used Q (next ()) w b held won (w.answer (.release key)).2 b rest won := by
  obtain ⟨hfreed, rest, rfl, hnext⟩ := h _ (hw.waits held)
  have hmem := hheld key List.mem_cons_self
  obtain ⟨locks, hunlock, hexclusive, hlocks⟩ := hw.locks.unlock hmem
  have hafter : (w.answer (.release key)).2 = { w with locks } := by
    simp only [World.answer, hunlock]
  rw [hafter]
  refine ⟨rest, ⟨hw.shows, hw.sound, hw.credit, hexclusive, ?_⟩, .refl _, hnext, ?_,
    fun _ => Nat.le_refl _⟩
  · intro other hother
    by_cases heq : other = key
    · exact heq ▸ hfreed
    · exact hw.free other fun hold =>
        hother (hlocks ▸ List.mem_filter.mpr ⟨hold, decide_eq_true heq⟩)
  · intro other
    have hcount := count_filter_ne hw.locks.nodup hmem other
    rw [List.count_singleton] at hcount
    rw [hlocks, List.count_cons]
    omega

/-- A write of the rows, under the locks that are held. -/
theorem turned_written {call : StoreCall} {rest : Program α} {ledger : Ledger}
    (hw : w.Steady used b) (hheld : ∀ key ∈ held, key ∈ w.locks.held)
    (hshows : w'.Shows { b with ledger }) (hsound : ledger.Sound)
    (hlocks : w'.locks.Exclusive ∧ w'.locks.held = w.locks.held)
    (hwrites : b.ledger.Writes held call ledger)
    (hrest : rest.Respects faults used Q held (call.concludes ++ won) ledger) :
    Turned faults used Q rest w b held won w' { b with ledger } held
      (call.concludes ++ won) where
  steady := by
    refine ⟨hshows, hsound, hwrites.credit, hlocks.1, ?_⟩
    rw [hlocks.2]
    intro key hkey
    exact (hw.free key hkey).changes hwrites.toChanges fun hmem => hkey (hheld key hmem)
  changes := hwrites.toChanges
  respects := hrest
  held _ := by rw [hlocks.2]
  won id := by
    have houtcomes := hwrites.outcomes id
    simp only [List.count_append]
    omega

end World.Steady

/-- One request of a program that respects the locks. -/
theorem Program.Respects.turn {request : Request} {next : request.Answer → Program α}
    {answer : request.Answer}
    (h : (Program.ask request next).Respects faults used Q held won b.ledger)
    (hw : w.Steady used b) (hheld : ∀ key ∈ held, key ∈ w.locks.held)
    (hgrants : w.Grants faults request) (hserves : w.Serves request answer w') :
    ∃ b' held' won', World.Turned faults used Q (next answer) w b held won w' b' held' won' := by
  have hwaits := hw.waits held
  cases hserves with
  | granted free => exact ⟨b, _, won, hw.turned_granted h hheld free⟩
  | late expired => exact ⟨b, held, won, hw.turned (h _ hwaits).1 hw.shows rfl ⟨hw.locks, rfl⟩⟩
  | answered ready answers =>
    obtain ⟨b', hreacts, hshows⟩ := World.answer_reacts hw.shows hw.sound hgrants
    rw [answers] at hreacts hshows
    have hsame : request.isLocking = false →
        w'.locks.Exclusive ∧ w'.locks.held = w.locks.held := by
      intro hrequest
      have hlocks := World.answer_locks hrequest hw.locks
      rw [answers] at hlocks
      exact hlocks
    cases request with
    | acquire key limit => cases ready
    | release key =>
      obtain ⟨rest, hturned⟩ := hw.turned_released h hheld
      rw [answers] at hturned
      exact ⟨b, rest, won, hturned⟩
    | store call =>
      obtain ⟨hrefused, herror, hok⟩ := h _ hwaits
      rcases hreacts with ⟨hf, hanswer, rfl⟩ | ⟨-, hanswer, -⟩ | ⟨cause, hc, hanswer, rfl⟩ |
        ⟨result, ledger, hleft, hr, hanswer, rfl⟩
      · obtain rfl := Option.some.inj hanswer
        exact ⟨b', held, won, hw.turned (hrefused hf) hshows rfl (hsame rfl)⟩
      · cases hanswer
      · obtain rfl := Option.some.inj hanswer
        exact ⟨b', held, won, hw.turned (herror cause hc) hshows rfl (hsame rfl)⟩
      · obtain rfl := Option.some.inj hanswer
        obtain ⟨hwrites, hnext⟩ := hok result ledger hleft hr
        exact ⟨_, held, _, hw.turned_written hheld hshows (hw.sound.answer hleft hr) (hsame rfl)
          hwrites hnext⟩
    | schedule _ _ | cancel _ | takeDue _ | score _ _ | expired _ | now | freshOrder | pruneLocks =>
      obtain ⟨-, rfl⟩ := hreacts
      exact ⟨_, held, won, hw.turned (h _ hwaits answer) hshows rfl (hsame rfl)⟩

end Turns

/-! ## All tasks -/

/-- A task with the locks that it holds, the latest first, and the payments whose outcomes it has
written. -/
structure Actor where
  task : Task
  held : List LockKey
  won : List PaymentId

/-- Every task respects the locks of the others and ends as `Q` asks, every lock that is held is
held by one of them, and no outcome was written twice since the rows were as in `opening`. -/
structure Workload.Orderly (faults : Faults) (used : Tiers → Prop)
    (Q : (job : Job) → job.Result → Standing) (opening : Ledger) (s : Workload)
    (actors : List Actor) (b : Books) : Prop where
  steady : s.world.Steady used b
  tasks : actors.map Actor.task = s.tasks
  respects : ∀ a ∈ actors,
    a.task.rest.Respects faults used (Q a.task.job) a.held a.won b.ledger
  held : ∀ key, (actors.map fun a => a.held.count key).sum = s.world.locks.held.count key
  won : ∀ id, opening.outcomes id + (actors.map fun a => a.won.count id).sum ≤
    b.ledger.outcomes id

namespace Workload.Orderly

variable {faults : Faults} {used : Tiers → Prop} {Q : (job : Job) → job.Result → Standing}
  {opening : Ledger} {s s' : Workload} {actors : List Actor} {b : Books}

theorem mem_held (h : s.Orderly faults used Q opening actors b) {a : Actor} (ha : a ∈ actors)
    {key : LockKey} (hkey : key ∈ a.held) : key ∈ s.world.locks.held := by
  have hle := List.le_sum_of_mem (List.mem_map_of_mem (f := fun a => a.held.count key) ha)
  rw [h.held key] at hle
  exact List.count_pos_iff.mp (Nat.lt_of_lt_of_le (List.count_pos_iff.mpr hkey) hle)

/-- No two tasks hold one lock. -/
theorem disjoint {earlier later : List Actor} {a : Actor}
    (h : s.Orderly faults used Q opening (earlier ++ a :: later) b) {other : Actor}
    (hother : other ∈ earlier ++ later) {key : LockKey} (hkey : key ∈ other.held) :
    key ∉ a.held := by
  intro hmine
  have hsum := h.held key
  have honce := List.nodup_iff_count_le_one.mp h.steady.locks.nodup key
  have hle := List.le_sum_of_mem (List.mem_map_of_mem (f := fun a => a.held.count key) hother)
  have hpos := List.count_pos_iff.mpr hkey
  have hpos' := List.count_pos_iff.mpr hmine
  simp only [List.map_append, List.map_cons, List.sum_append, List.sum_cons] at hsum hle
  omega

/-- One more request of one task. -/
theorem step (hQ : ∀ job r held won l l', Q job r held won l → l.Waits held l' →
      Q job r held won l') (h : s.Orderly faults used Q opening actors b)
    (hstep : s.Step faults s') :
    ∃ actors' b', s'.Orderly faults used Q opening actors' b' := by
  cases hstep with
  | surroundings store queue locks =>
    obtain ⟨⟨⟨hstore, hqueue⟩, hsound, hcredit, hlocks, hfree⟩, htasks, hrespects, hheld, hwon⟩ := h
    refine ⟨actors, b, ⟨⟨store ▸ hstore, queue.trans hqueue⟩, hsound, hcredit, ?_, ?_⟩, htasks,
      hrespects, ?_, hwon⟩
    · exact locks ▸ hlocks
    · exact locks ▸ hfree
    · exact locks ▸ hheld
  | @task before after job request next answer w turn grants serves =>
    obtain ⟨earlier, _, rfl, hearlier, hrest⟩ := List.map_eq_append_iff.mp (h.tasks.trans turn)
    obtain ⟨⟨task, held, won⟩, later, rfl, rfl, hlater⟩ := List.map_eq_cons_iff.mp hrest
    have hmem : (⟨⟨job, .ask request next⟩, held, won⟩ : Actor) ∈
        earlier ++ ⟨⟨job, .ask request next⟩, held, won⟩ :: later := by simp
    have hmine : ∀ key ∈ held, key ∈ s.world.locks.held := fun key hkey => h.mem_held hmem hkey
    obtain ⟨b', held', won', hturned⟩ :=
      (h.respects _ hmem).turn h.steady hmine grants serves
    refine ⟨earlier ++ ⟨⟨job, next answer⟩, held', won'⟩ :: later, b', hturned.steady, ?_, ?_, ?_,
      ?_⟩
    · rw [List.map_append, List.map_cons, hearlier, hlater]
    · have hothers : ∀ a ∈ earlier ++ later,
          a.task.rest.Respects faults used (Q a.task.job) a.held a.won b'.ledger := by
        intro a ha
        have hold := h.respects a (by
          rcases List.mem_append.mp ha with ha | ha <;> simp [ha])
        exact hold.waits (hQ _) ⟨hturned.changes.mono fun key hkey => h.disjoint ha hkey,
          hturned.steady.sound, hturned.steady.credit⟩
      intro a ha
      rcases List.mem_append.mp ha with ha | ha
      · exact hothers a (List.mem_append_left _ ha)
      · rcases List.mem_cons.mp ha with rfl | ha
        · exact hturned.respects
        · exact hothers a (List.mem_append_right _ ha)
    · intro key
      have hsum := h.held key
      have hturn := hturned.held key
      simp only [List.map_append, List.map_cons, List.sum_append, List.sum_cons] at hsum ⊢
      dsimp only at hturn
      omega
    · intro id
      have hsum := h.won id
      have hturn := hturned.won id
      simp only [List.map_append, List.map_cons, List.sum_append, List.sum_cons] at hsum ⊢
      dsimp only at hturn
      omega

/-- Tasks that have not begun hold nothing and have written nothing. -/
theorem start {policy : Policy} {w : World} (hw : w.Steady used b) (hidle : w.locks.held = [])
    {jobs : List Job} (hjobs : ∀ job ∈ jobs,
      (job.program policy).Respects faults used (Q job) [] [] b.ledger) :
    (start policy w jobs).Orderly faults used Q b.ledger
      (jobs.map fun job => ⟨⟨job, job.program policy⟩, [], []⟩) b where
  steady := hw
  tasks := List.map_map
  respects a ha := by
    obtain ⟨job, hjob, rfl⟩ := List.mem_map.mp ha
    exact hjobs job hjob
  held key := by simp [Workload.start, hidle, Function.comp_def]
  won id := by simp [Function.comp_def]

/-- Any number of requests, in any order. -/
theorem steps (hQ : ∀ job r held won l l', Q job r held won l → l.Waits held l' →
      Q job r held won l') (h : s.Orderly faults used Q opening actors b)
    (hsteps : Relation.ReflTransGen (Step faults) s s') :
    ∃ actors' b', s'.Orderly faults used Q opening actors' b' := by
  induction hsteps with
  | refl => exact ⟨actors, b, h⟩
  | tail _ hstep ih =>
    obtain ⟨_, _, h'⟩ := ih
    exact h'.step hQ hstep

end Workload.Orderly

end Lending
