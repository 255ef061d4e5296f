import Lending.Proofs.Engine.Waiting

/-!
# The queue and the agenda

What a settlement queue is for can be said without keys, turns and an index: an agenda lists what
waits until when, in the order in which it was last scheduled. A queue that begins empty answers
every sequence of calls as the agenda does, at whatever instants, and keeps in both of its orders
just the entries of the agenda.

* `Agenda`: the entries in the order of scheduling. `Agenda.takeDue` takes out those that are due,
  sorted by due instant without changing the order of equals.
* `Queue.Refines`: what the two have to do with each other after every call.
* `queue_refines_agenda`: they do so at all times. Without a new call to schedule it, nothing is
  taken out twice, or after it was withdrawn.
-/

namespace Lending

/-! ## Agendas -/

/-- What waits until when, in the order in which it was last scheduled. -/
abbrev Agenda := List (Notification × Instant)

namespace Agenda

def without (a : Agenda) (n : Notification) : Agenda := a.filter fun entry => entry.1 ≠ n

def schedule (a : Agenda) (n : Notification) (due : Instant) : Agenda := a.without n ++ [(n, due)]

def has (a : Agenda) (n : Notification) : Bool := a.any fun entry => entry.1 = n

/-- The entries by due instant; those due at once stay in their order. -/
def byDue (a : Agenda) : Agenda := a.mergeSort fun x y => decide (x.2 ≤ y.2)

def takeDue (a : Agenda) (now : Instant) : List Notification × Agenda :=
  ((byDue (a.filter fun entry => entry.2 ≤ now)).map Prod.fst,
    a.filter fun entry => ¬entry.2 ≤ now)

/-- The instant at which the first entry is due. -/
def Earliest (a : Agenda) (due : Instant) : Prop :=
  (∃ n, (n, due) ∈ a) ∧ ∀ entry ∈ a, due ≤ entry.2

end Agenda

/-! ## Calls -/

inductive QueueCall where
  | schedule (n : Notification) (due : Instant)
  | cancel (n : Notification)
  | takeDue (now : Instant)

inductive QueueAnswer where
  | scheduled
  | withdrawn (waited : Bool)
  | taken (ns : List Notification)

def Queue.step (q : Queue) : QueueCall → QueueAnswer × Queue
  | .schedule n due => (.scheduled, q.schedule n due)
  | .cancel n => (.withdrawn (q.cancel n).1, (q.cancel n).2)
  | .takeDue now => (.taken (q.takeDue now).1, (q.takeDue now).2)

def Agenda.step (a : Agenda) : QueueCall → QueueAnswer × Agenda
  | .schedule n due => (.scheduled, a.schedule n due)
  | .cancel n => (.withdrawn (a.has n), a.without n)
  | .takeDue now => (.taken (a.takeDue now).1, (a.takeDue now).2)

def Queue.after (q : Queue) (calls : List QueueCall) : Queue :=
  calls.foldl (fun q call => (q.step call).2) q

def Agenda.after (a : Agenda) (calls : List QueueCall) : Agenda :=
  calls.foldl (fun a call => (a.step call).2) a

/-- The answers to calls that are made one after another. -/
def Queue.answers (q : Queue) : List QueueCall → List QueueAnswer
  | [] => []
  | call :: rest => (q.step call).1 :: (q.step call).2.answers rest

/-- How often an answer hands out `n`. -/
def QueueAnswer.deliveries (n : Notification) : QueueAnswer → Nat
  | .taken ns => ns.count n
  | _ => 0

def deliveries (n : Notification) (answers : List QueueAnswer) : Nat :=
  (answers.map (QueueAnswer.deliveries n)).sum

def QueueCall.schedules (n : Notification) : QueueCall → Bool
  | .schedule m _ => m = n
  | _ => false

/-- How often the calls schedule `n`. -/
def schedulings (n : Notification) (calls : List QueueCall) : Nat :=
  calls.countP (QueueCall.schedules n)

/-! ## Rows in order -/

section Prefixes

variable {α : Type} {R : α → α → Prop} {p : α → Bool} {rows : List α}

theorem takeWhile_eq_filter (h : rows.Pairwise R)
    (hp : ∀ a b, R a b → p b = true → p a = true) : rows.takeWhile p = rows.filter p := by
  induction h with
  | nil => rfl
  | @cons first rest hfirst _ ih =>
    rw [List.takeWhile_cons, List.filter_cons, ih]
    by_cases hholds : p first = true
    · rw [if_pos hholds]
      simp [hholds]
    · have hrest : rest.filter p = [] :=
        List.filter_eq_nil_iff.mpr fun row hrow hrowp => hholds (hp _ _ (hfirst row hrow) hrowp)
      simp [hholds, hrest]

theorem dropWhile_eq_filter (h : rows.Pairwise R)
    (hp : ∀ a b, R a b → p b = true → p a = true) :
    rows.dropWhile p = rows.filter fun row => !p row := by
  induction h with
  | nil => rfl
  | @cons first rest hfirst _ ih =>
    rw [List.dropWhile_cons, List.filter_cons, ih]
    by_cases hholds : p first = true
    · simp [hholds]
    · have hrest : (rest.filter fun row => !p row) = rest :=
        List.filter_eq_self.mpr fun row hrow => by
          have hrowp : ¬p row = true := fun hrowp => hholds (hp _ _ (hfirst row hrow) hrowp)
          simpa using hrowp
      simp [hholds, hrest]

end Prefixes

theorem Table.perm_insertRow {κ α : Type} [Ord κ] [Std.LawfulEqOrd κ] {key : κ} {value : α}
    {rows : List (κ × α)} (hnew : ∀ row ∈ rows, row.1 ≠ key) :
    (insertRow key value rows).Perm ((key, value) :: rows) := by
  induction rows with
  | nil => exact .refl _
  | cons first rest ih =>
    unfold insertRow
    split
    · exact .refl _
    · rename_i heq
      exact absurd (Std.compare_eq_iff_eq.mp heq).symm (hnew first List.mem_cons_self)
    · have hrest := ih fun row hrow => hnew row (List.mem_cons_of_mem _ hrow)
      exact (hrest.cons first).trans (.swap _ _ _)

namespace Queue

/-! ## Rows after each operation -/

namespace Sound

variable {q : Queue} {n : Notification} {due now : Instant}

/-- Where nothing waits, nothing is withdrawn. -/
theorem lookup_none (h : q.Sound) (hlookup : q.index.lookup n = none) :
    ∀ row ∈ q.byDue.rows, row.2 ≠ n := by
  rintro ⟨key, _⟩ hrow rfl
  rw [← h.index, hlookup] at hrow
  cases hrow

theorem rows_cancel (h : q.Sound) (n : Notification) :
    (q.cancel n).2.byDue.rows = q.byDue.rows.filter fun row => row.2 ≠ n := by
  unfold Queue.cancel
  cases hlookup : q.index.lookup n with
  | some key =>
    have hkey := (h.index n key).mp hlookup
    show (q.byDue.rows.filter fun row => row.1 ≠ key) = _
    refine List.filter_congr fun row hrow => decide_eq_decide.mpr (not_congr ⟨?_, ?_⟩)
    · rintro rfl
      exact h.notification_unique hrow hkey
    · rintro rfl
      exact h.key_unique hrow hkey
  | none =>
    have hother := h.lookup_none hlookup
    exact (List.filter_eq_self.mpr fun row hrow => decide_eq_true (hother row hrow)).symm

theorem index_cancel (q : Queue) (n : Notification) :
    (q.cancel n).2.index = q.index.filter fun entry => entry.1 ≠ n := by
  unfold Queue.cancel
  cases hlookup : q.index.lookup n with
  | some key => rfl
  | none =>
    have hother := List.lookup_eq_none_iff.mp hlookup
    refine (List.filter_eq_self.mpr fun entry hentry => decide_eq_true ?_).symm
    rintro rfl
    simpa using hother entry hentry

theorem turn_cancel (q : Queue) (n : Notification) : (q.cancel n).2.turn = q.turn := by
  unfold Queue.cancel
  cases q.index.lookup n <;> rfl

theorem perm_schedule (h : q.Sound) (n : Notification) (due : Instant) :
    (q.schedule n due).byDue.rows.Perm
      ((⟨due, q.turn + 1⟩, n) :: q.byDue.rows.filter fun row => row.2 ≠ n) := by
  rw [schedule_eq, turn_cancel, ← h.rows_cancel]
  refine Table.perm_insertRow fun row hrow heq => ?_
  have hturn := (h.cancel n).1.turns row hrow
  rw [heq, turn_cancel] at hturn
  exact absurd hturn (Nat.not_succ_le_self _)

theorem due_before {a b : DueKey × Notification} (hab : compare a.1 b.1 = .lt)
    (hb : decide (b.1.due ≤ now) = true) : decide (a.1.due ≤ now) = true :=
  decide_eq_true (due_le_of_lt hab (of_decide_eq_true hb))

theorem takeDue_fst (h : q.Sound) (now : Instant) :
    (q.takeDue now).1 =
      (q.byDue.rows.filter fun row => decide (row.1.due ≤ now)).map Prod.snd := by
  show (q.byDue.rows.takeWhile _).map Prod.snd = _
  rw [takeWhile_eq_filter h.ascending fun a b => due_before]

theorem rows_takeDue (h : q.Sound) (now : Instant) :
    (q.takeDue now).2.byDue.rows =
      q.byDue.rows.filter fun row => !decide (row.1.due ≤ now) :=
  dropWhile_eq_filter h.ascending fun _ _ => due_before

/-- No notification waits twice. -/
theorem nodup_notifications (h : q.Sound) : (q.byDue.rows.map Prod.snd).Nodup := by
  refine List.Nodup.map_on ?_ h.ascending.nodup
  rintro ⟨key, n⟩ hrow ⟨key', _⟩ hrow' rfl
  rw [h.key_unique hrow hrow']

theorem nodup_takeDue (h : q.Sound) (now : Instant) : (q.takeDue now).1.Nodup := by
  rw [h.takeDue_fst]
  exact h.nodup_notifications.sublist (List.filter_sublist.map Prod.snd)

end Sound

/-! ## The two orders of the queue -/

/-- A row of the queue, as the index has it. -/
def indexed (row : DueKey × Notification) : Notification × DueKey := (row.2, row.1)

/-- A row of the queue, as an agenda has it. -/
def entry (row : DueKey × Notification) : Notification × Instant := (row.2, row.1.due)

/-- The queue in the order of scheduling: its rows by turn. -/
structure Listed (q : Queue) (placed : List (DueKey × Notification)) : Prop extends q.Sound where
  perm : placed.Perm q.byDue.rows
  growing : placed.Pairwise fun x y => x.1.turn < y.1.turn
  found : q.index.Perm (q.byDue.rows.map indexed)

theorem listed_empty : ({} : Queue).Listed [] := ⟨sound_empty, .refl _, .nil, .refl _⟩

namespace Listed

variable {q : Queue} {placed : List (DueKey × Notification)} {n : Notification} {due now : Instant}

theorem cancel (h : q.Listed placed) (n : Notification) :
    (q.cancel n).2.Listed (placed.filter fun row => row.2 ≠ n) where
  toSound := (h.toSound.cancel n).1
  perm := by
    rw [h.rows_cancel]
    exact h.perm.filter _
  growing := h.growing.filter _
  found := by
    rw [Sound.index_cancel, h.rows_cancel]
    have hfound := h.found.filter fun entry => entry.1 ≠ n
    rw [List.filter_map] at hfound
    exact hfound

theorem schedule (h : q.Listed placed) (n : Notification) (due : Instant) :
    (q.schedule n due).Listed
      (placed.filter (fun row => row.2 ≠ n) ++ [(⟨due, q.turn + 1⟩, n)]) where
  toSound := (h.toSound.schedule n due).1
  perm := (List.perm_append_singleton _ _).trans
    (((h.perm.filter _).cons _).trans (h.perm_schedule n due).symm)
  growing := by
    rw [List.pairwise_append]
    refine ⟨h.growing.filter _, List.pairwise_singleton _ _, ?_⟩
    intro row hrow new hnew
    rw [List.mem_singleton.mp hnew]
    have hold := h.perm.mem_iff.mp (List.mem_filter.mp hrow).1
    exact Nat.lt_succ_of_le (h.turns row hold)
  found := by
    have hrows := (h.perm_schedule n due).map indexed
    have hindex := (h.cancel n).found
    rw [h.rows_cancel] at hindex
    rw [Sound.schedule_eq, Sound.turn_cancel] at hrows ⊢
    exact (hindex.cons _).trans hrows.symm

theorem takeDue (h : q.Listed placed) (now : Instant) :
    (q.takeDue now).2.Listed (placed.filter fun row => !decide (row.1.due ≤ now)) where
  toSound := (h.toSound.takeDue now).1
  perm := by
    rw [h.rows_takeDue]
    exact h.perm.filter _
  growing := h.growing.filter _
  found := by
    have hfound := h.found.filter fun entry => !(q.takeDue now).1.contains entry.1
    rw [List.filter_map] at hfound
    rw [h.rows_takeDue]
    refine hfound.trans (List.Perm.of_eq (congrArg (List.map indexed) ?_))
    refine List.filter_congr fun row hrow => congrArg not ?_
    -- what waits at this row waits nowhere else
    rw [Bool.eq_iff_iff, decide_eq_true_eq, List.contains_iff_mem, h.mem_takeDue]
    constructor
    · rintro ⟨due, ⟨turn, hmem⟩, hdue⟩
      rw [h.key_unique hrow hmem]
      exact hdue
    · intro hdue
      exact ⟨row.1.due, ⟨row.1.turn, hrow⟩, hdue⟩

end Listed

/-! ## Sorting by due instant -/

/-- Of two rows the one that is due first, or either if they are due at once. -/
def dueLe (x y : DueKey × Notification) : Bool := decide (x.1.due ≤ y.1.due)

theorem dueLe_trans (x y z : DueKey × Notification) (hxy : dueLe x y = true)
    (hyz : dueLe y z = true) : dueLe x z = true :=
  decide_eq_true (Int.le_trans (of_decide_eq_true hxy) (of_decide_eq_true hyz))

theorem dueLe_total (x y : DueKey × Notification) : (dueLe x y || dueLe y x) = true := by
  rw [Bool.or_eq_true]
  exact (Int.le_total _ _).imp decide_eq_true decide_eq_true

theorem compare_of_due_lt {a b : DueKey} (h : a.due.position < b.due.position) :
    compare a b = .lt := by
  rw [DueKey.compare_eq, Instant.compare_eq, Std.compare_eq_lt.mpr h]
  rfl

theorem compare_of_due_eq {a b : DueKey} (h : a.due.position = b.due.position)
    (hturn : a.turn < b.turn) : compare a b = .lt := by
  rw [DueKey.compare_eq, Instant.compare_eq, Std.compare_eq_iff_eq.mpr h]
  exact Std.compare_eq_lt.mpr hturn

/-- In a list that grows, the smaller of two members stands first. -/
theorem pair_sublist {α : Type} {f : α → Nat} {l : List α}
    (h : l.Pairwise fun x y => f x < f y) {x y : α} (hx : x ∈ l) (hy : y ∈ l) (hxy : f x < f y) :
    [x, y].Sublist l := by
  induction h with
  | nil => cases hx
  | @cons first rest hfirst _ ih =>
    rcases List.mem_cons.mp hy with rfl | hy'
    · rcases List.mem_cons.mp hx with rfl | hx'
      · omega
      · have := hfirst x hx'
        omega
    · rcases List.mem_cons.mp hx with rfl | hx'
      · exact (List.singleton_sublist.mpr hy').cons_cons _
      · exact (ih hx' hy').cons _

/-- Without repeats, of two members only one stands first. -/
theorem pair_sublist_asymm {α : Type} {l : List α} (h : l.Nodup) {x y : α}
    (hxy : [x, y].Sublist l) : ¬[y, x].Sublist l := by
  induction l with
  | nil => cases hxy
  | cons first rest ih =>
    rw [List.nodup_cons] at h
    intro hyx
    rcases List.cons_sublist_cons'.mp hxy with hrest | ⟨rfl, hy⟩
    · rcases List.cons_sublist_cons'.mp hyx with hrest' | ⟨rfl, -⟩
      · exact ih h.2 hrest hrest'
      · exact h.1 (hrest.subset (by simp))
    · rcases List.cons_sublist_cons'.mp hyx with hrest' | ⟨rfl, hx⟩
      · exact h.1 (hrest'.subset (by simp))
      · exact h.1 (List.singleton_sublist.mp hy)

/-- Rows that stand by turn stand by place when they are sorted by due instant: a sort that keeps
equals in their order leaves those due at once by turn. -/
theorem pairwise_mergeSort_dueLe {placed : List (DueKey × Notification)}
    (h : placed.Pairwise fun x y => x.1.turn < y.1.turn) :
    (placed.mergeSort dueLe).Pairwise fun x y => compare x.1 y.1 = .lt := by
  have hsorted := List.pairwise_mergeSort dueLe_trans dueLe_total placed
  have hperm := List.mergeSort_perm placed dueLe
  have hturns : (placed.map fun row => row.1.turn).Nodup :=
    List.pairwise_map.mpr (h.imp fun hlt => Nat.ne_of_lt hlt)
  have hnodup : (placed.mergeSort dueLe).Nodup := hperm.nodup_iff.mpr hturns.of_map
  rw [List.pairwise_iff_forall_sublist] at hsorted ⊢
  intro x y hxy
  have hle : x.1.due.position ≤ y.1.due.position := of_decide_eq_true (hsorted hxy)
  rcases Int.lt_or_eq_of_le hle with hlt | heq
  · exact compare_of_due_lt hlt
  · have hx := hperm.mem_iff.mp (hxy.subset List.mem_cons_self)
    have hy := hperm.mem_iff.mp (hxy.subset (List.mem_cons_of_mem _ List.mem_cons_self))
    have hne : x ≠ y := by
      rintro rfl
      exact absurd (hnodup.sublist hxy) (by simp)
    rcases Nat.lt_trichotomy x.1.turn y.1.turn with hturn | hturn | hturn
    · exact compare_of_due_eq heq hturn
    · exact absurd (List.inj_on_of_nodup_map hturns hx hy hturn) hne
    · -- the sort would have left the two the other way round
      have hback : dueLe y x = true := decide_eq_true (Int.le_of_eq heq.symm)
      have hyx := List.pair_sublist_mergeSort dueLe_trans dueLe_total hback
        (pair_sublist h hy hx hturn)
      exact absurd hyx (pair_sublist_asymm hnodup hxy)

/-- What a drain takes, in its order: the entries that are due, sorted. -/
theorem Listed.takeDue_fst {q : Queue} {placed : List (DueKey × Notification)}
    (h : q.Listed placed) (now : Instant) :
    (q.takeDue now).1 = (Agenda.takeDue (placed.map entry) now).1 := by
  have hgrowing : (placed.filter fun row => decide (row.1.due ≤ now)).Pairwise
      fun x y => x.1.turn < y.1.turn := h.growing.filter _
  have hrows : (q.byDue.rows.filter fun row => decide (row.1.due ≤ now)) =
      (placed.filter fun row => decide (row.1.due ≤ now)).mergeSort dueLe := by
    refine List.Perm.eq_of_pairwise (fun a b _ _ hab hba => ?_)
      (List.Pairwise.filter _ h.ascending) (pairwise_mergeSort_dueLe hgrowing)
      ((h.perm.symm.filter _).trans (List.mergeSort_perm _ _).symm)
    rw [Std.OrientedCmp.gt_iff_lt.mpr hab] at hba
    cases hba
  have hentries : (placed.map entry).filter (fun e => decide (e.2 ≤ now)) =
      (placed.filter fun row => decide (row.1.due ≤ now)).map entry := by
    rw [List.filter_map]
    rfl
  have hsorted : ((placed.filter fun row => decide (row.1.due ≤ now)).mergeSort dueLe).map entry =
      Agenda.byDue ((placed.filter fun row => decide (row.1.due ≤ now)).map entry) :=
    List.map_mergeSort fun _ _ _ _ => rfl
  rw [h.toSound.takeDue_fst, hrows, Agenda.takeDue, hentries, ← hsorted, List.map_map]
  rfl

theorem Listed.isPending {q : Queue} {placed : List (DueKey × Notification)} (h : q.Listed placed)
    (n : Notification) : q.isPending n = Agenda.has (placed.map entry) n := by
  rw [Bool.eq_iff_iff, h.toSound.isPending_iff, Agenda.has, List.any_map, List.any_eq_true]
  constructor
  · rintro ⟨due, turn, hrow⟩
    exact ⟨(⟨due, turn⟩, n), h.perm.mem_iff.mpr hrow, decide_eq_true rfl⟩
  · rintro ⟨row, hrow, hn⟩
    obtain rfl : row.2 = n := of_decide_eq_true hn
    exact ⟨row.1.due, row.1.turn, h.perm.mem_iff.mp hrow⟩

theorem cancel_fst (q : Queue) (n : Notification) : (q.cancel n).1 = q.isPending n := by
  unfold cancel isPending
  cases q.index.lookup n <;> rfl

/-- The next instant is that of the first row. -/
theorem Listed.nextDue? {q : Queue} {placed : List (DueKey × Notification)} (h : q.Listed placed)
    (due : Instant) : q.nextDue? = some due ↔ Agenda.Earliest (placed.map entry) due := by
  have hentries : ∀ e, e ∈ placed.map entry ↔ ∃ row ∈ q.byDue.rows, entry row = e := by
    intro e
    rw [List.mem_map]
    exact exists_congr fun row => and_congr_left fun _ => h.perm.mem_iff
  have hsorted := h.ascending
  unfold Queue.nextDue? Agenda.Earliest
  simp only [hentries, Table.Ascending] at hsorted ⊢
  cases hrows : q.byDue.rows with
  | nil => simp
  | cons first rest =>
    rw [hrows, List.pairwise_cons] at hsorted
    have hfirst : ∀ row ∈ first :: rest, first.1.due ≤ row.1.due := by
      intro row hrow
      rcases List.mem_cons.mp hrow with rfl | hrest
      · exact Int.le_refl _
      · exact Sound.due_le_of_lt (hsorted.1 row hrest) (Int.le_refl _)
    rw [List.head?_cons, Option.map_some, Option.some.injEq]
    constructor
    · rintro rfl
      refine ⟨⟨first.2, first, List.mem_cons_self, rfl⟩, ?_⟩
      rintro _ ⟨row, hrow, rfl⟩
      exact hfirst row hrow
    · rintro ⟨⟨n, row, hrow, heq⟩, hleast⟩
      obtain ⟨rfl, rfl⟩ := Prod.mk.inj heq
      have hle := hleast _ ⟨first, List.mem_cons_self, rfl⟩
      exact Instant.position_injective (Int.le_antisymm (hfirst row hrow) hle)

/-! ## Runs -/

/-- The queue and the agenda go on alike. -/
theorem Listed.step {q : Queue} {placed : List (DueKey × Notification)} (h : q.Listed placed)
    (call : QueueCall) :
    (q.step call).1 = (Agenda.step (placed.map entry) call).1 ∧
      ∃ placed', (q.step call).2.Listed placed' ∧
        (Agenda.step (placed.map entry) call).2 = placed'.map entry := by
  cases call with
  | schedule n due =>
    refine ⟨rfl, _, h.schedule n due, ?_⟩
    show (placed.map entry).filter (fun e => e.1 ≠ n) ++ [(n, due)] = _
    rw [List.filter_map, List.map_append]
    rfl
  | cancel n =>
    have hanswer := (q.cancel_fst n).trans (h.isPending n)
    refine ⟨congrArg QueueAnswer.withdrawn hanswer, _, h.cancel n, ?_⟩
    show (placed.map entry).filter (fun e => e.1 ≠ n) = _
    rw [List.filter_map]
    rfl
  | takeDue now =>
    refine ⟨congrArg QueueAnswer.taken (h.takeDue_fst now), _, h.takeDue now, ?_⟩
    show (placed.map entry).filter (fun e => ¬e.2 ≤ now) = _
    rw [List.filter_map]
    refine congrArg (List.map entry) (List.filter_congr fun row _ => ?_)
    exact decide_not

theorem Listed.after {q : Queue} {placed : List (DueKey × Notification)} (h : q.Listed placed)
    (calls : List QueueCall) :
    ∃ placed', (q.after calls).Listed placed' ∧
      Agenda.after (placed.map entry) calls = placed'.map entry := by
  induction calls generalizing q placed with
  | nil => exact ⟨placed, h, rfl⟩
  | cons call rest ih =>
    obtain ⟨-, placed', hlisted, hagenda⟩ := h.step call
    obtain ⟨last, hlast, hafter⟩ := ih hlisted
    refine ⟨last, hlast, ?_⟩
    rw [Agenda.after, List.foldl_cons, hagenda]
    exact hafter

/-- How a queue and an agenda agree. -/
structure Refines (q : Queue) (a : Agenda) : Prop where
  /-- The index and the rows hold the same notifications at the same places. -/
  sameRows : q.index.Perm (q.byDue.rows.map indexed)
  /-- None of them is there twice. -/
  once : (q.byDue.rows.map Prod.snd).Nodup
  /-- They are the entries of the agenda. -/
  entries : (q.byDue.rows.map entry).Perm a
  size : q.size = a.length
  isEmpty : q.isEmpty = a.isEmpty
  isPending : ∀ n, q.isPending n = a.has n
  nextDue? : ∀ due, q.nextDue? = some due ↔ a.Earliest due
  /-- The next call is answered alike, whichever it is. -/
  answer : ∀ call, (q.step call).1 = (a.step call).1
  /-- A drain takes nothing twice. -/
  takenOnce : ∀ now, (q.takeDue now).1.Nodup

theorem Listed.refines {q : Queue} {placed : List (DueKey × Notification)} (h : q.Listed placed) :
    q.Refines (placed.map entry) where
  sameRows := h.found
  once := h.nodup_notifications
  entries := h.perm.symm.map entry
  size := by
    rw [List.length_map, h.perm.length_eq]
    rfl
  isEmpty := by
    have hlength := h.perm.length_eq
    unfold Queue.isEmpty Queue.size Table.size
    rw [← hlength]
    cases placed <;> simp
  isPending := h.isPending
  nextDue? := h.nextDue?
  answer call := (h.step call).1
  takenOnce := h.nodup_takeDue

/-! ## Deliveries -/

/-- How often a notification can be taken out without being scheduled again. -/
def waiting (q : Queue) (n : Notification) : Nat := if q.isPending n then 1 else 0

theorem Sound.waiting_le {q q' : Queue} (h : q.Sound) (h' : q'.Sound) {n : Notification}
    (hwaits : ∀ due, q'.Waits n due → q.Waits n due) : q'.waiting n ≤ q.waiting n := by
  unfold waiting
  by_cases hpending : q'.isPending n = true
  · obtain ⟨due, hdue⟩ := (h'.isPending_iff n).mp hpending
    have hstill := (h.isPending_iff n).mpr ⟨due, hwaits due hdue⟩
    rw [if_pos hpending, if_pos hstill]
  · rw [if_neg hpending]
    exact Nat.zero_le _

/-- A step takes out what waited, or has it wait because it was asked to. -/
theorem Sound.deliveries_step {q : Queue} (h : q.Sound) (n : Notification) (call : QueueCall) :
    (q.step call).2.Sound ∧
      (q.step call).1.deliveries n + (q.step call).2.waiting n ≤
        q.waiting n + if call.schedules n then 1 else 0 := by
  cases call with
  | schedule m due =>
    obtain ⟨hsound, hwaits⟩ := h.schedule m due
    refine ⟨hsound, ?_⟩
    show 0 + (q.schedule m due).waiting n ≤ q.waiting n + if decide (m = n) then 1 else 0
    by_cases hm : m = n
    · have hone : (q.schedule m due).waiting n ≤ 1 := by
        unfold waiting
        split <;> omega
      rw [if_pos (decide_eq_true hm)]
      omega
    · have hle := h.waiting_le (n := n) hsound fun due' hdue => by
        rcases (hwaits n due').mp hdue with ⟨rfl, -⟩ | ⟨-, hold⟩
        · exact absurd rfl hm
        · exact hold
      omega
  | cancel m =>
    obtain ⟨hsound, hwaits⟩ := h.cancel m
    have hle := h.waiting_le (n := n) hsound fun due hdue => ((hwaits n due).mp hdue).2
    refine ⟨hsound, ?_⟩
    show 0 + (q.cancel m).2.waiting n ≤ q.waiting n + 0
    omega
  | takeDue now =>
    obtain ⟨hsound, hwaits⟩ := h.takeDue now
    refine ⟨hsound, ?_⟩
    show (q.takeDue now).1.count n + (q.takeDue now).2.waiting n ≤ q.waiting n + 0
    by_cases htaken : n ∈ (q.takeDue now).1
    · -- what is taken out waited here and waits no more
      obtain ⟨due, hdue, hle⟩ := h.mem_takeDue.mp htaken
      have hbefore := (h.isPending_iff n).mpr ⟨due, hdue⟩
      have hcount := List.nodup_iff_count_le_one.mp (h.nodup_takeDue now) n
      have hafter : ¬(q.takeDue now).2.isPending n = true := by
        rw [hsound.isPending_iff]
        rintro ⟨due', hlater⟩
        obtain ⟨⟨turn', hdue'⟩, hnot⟩ := (hwaits n due').mp hlater
        obtain ⟨turn, hrow⟩ := hdue
        obtain ⟨rfl, -⟩ := DueKey.mk.inj (h.key_unique hrow hdue')
        exact hnot hle
      unfold waiting
      rw [if_pos hbefore, if_neg hafter]
      omega
    · have hle := h.waiting_le (n := n) hsound fun due hdue => ((hwaits n due).mp hdue).1
      rw [List.count_eq_zero.mpr htaken]
      omega

/-- In a run, a notification is taken out at most as often as it was scheduled, and once more if it
was waiting. -/
theorem Sound.deliveries_le {q : Queue} (h : q.Sound) (n : Notification) (calls : List QueueCall) :
    deliveries n (q.answers calls) ≤ q.waiting n + schedulings n calls := by
  induction calls generalizing q with
  | nil => exact Nat.zero_le _
  | cons call rest ih =>
    obtain ⟨hsound, hstep⟩ := h.deliveries_step n call
    have hrest := ih hsound
    have hanswers : deliveries n (q.answers (call :: rest)) =
        (q.step call).1.deliveries n + deliveries n ((q.step call).2.answers rest) := rfl
    rw [hanswers, schedulings, List.countP_cons]
    unfold schedulings at hrest
    omega

/-- Whatever calls are made, the queue does what the agenda says. From then on, too, nothing is
taken out more often than it waited or was scheduled; what was withdrawn is no exception. -/
theorem queue_refines_agenda (calls : List QueueCall) :
    (({} : Queue).after calls).Refines (Agenda.after [] calls) ∧
      ∀ n later,
        deliveries n ((({} : Queue).after calls).answers later) ≤
            (if (Agenda.after [] calls).has n then 1 else 0) + schedulings n later ∧
          deliveries n (((({} : Queue).after calls).cancel n).2.answers later) ≤
            schedulings n later := by
  obtain ⟨placed, hlisted, hagenda⟩ := listed_empty.after calls
  have hagenda : Agenda.after [] calls = placed.map entry := hagenda
  rw [hagenda]
  refine ⟨hlisted.refines, fun n later => ⟨?_, ?_⟩⟩
  · rw [← hlisted.isPending]
    exact hlisted.toSound.deliveries_le n later
  · obtain ⟨hsound, hwaits⟩ := hlisted.toSound.cancel n
    have hnone : ¬((({} : Queue).after calls).cancel n).2.isPending n = true := by
      rw [hsound.isPending_iff]
      rintro ⟨due, hdue⟩
      exact ((hwaits n due).mp hdue).1 rfl
    have hle := hsound.deliveries_le n later
    rwa [waiting, if_neg hnone, Nat.zero_add] at hle

end Queue

end Lending
