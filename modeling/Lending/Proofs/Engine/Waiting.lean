import Lending.Engine.Queue
import Lending.Proofs.Store.Order

/-!
# What waits in the queue

The queue keeps its notifications twice, by what is due when and by an index, and both agree at all
times. So a notification waits at one place at most, scheduling moves it, and a drain takes exactly
what is due.

* `Queue.Waits`: a notification waits until an instant.
* `Queue.Sound`: the two orders of the queue agree. Kept by every operation.
* `Queue.Sound.schedule`, `cancel`, `takeDue`: what waits after each operation.
* `Queue.Sound.mem_takeDue`: what a drain takes.
-/

namespace Lending

instance : Std.TransOrd DueKey :=
  inferInstanceAs (Std.TransCmp (compareLex (compareOn DueKey.due) (compareOn DueKey.turn)))

/-! ## Rows that are due -/

section Prefixes

variable {α : Type} {R : α → α → Prop} {p : α → Bool} {rows : List α}

/-- Where everything before a row that satisfies `p` satisfies it, too, the rows that do so stand
first. -/
theorem mem_takeWhile_iff (h : rows.Pairwise R) (hp : ∀ a b, R a b → p b = true → p a = true)
    {row : α} : row ∈ rows.takeWhile p ↔ row ∈ rows ∧ p row = true := by
  induction h with
  | nil => simp
  | @cons first rest hfirst _ ih =>
    rw [List.takeWhile_cons]
    split
    · rename_i hholds
      simp only [List.mem_cons, ih]
      constructor
      · rintro (rfl | ⟨hmem, hrow⟩)
        · exact ⟨.inl rfl, hholds⟩
        · exact ⟨.inr hmem, hrow⟩
      · rintro ⟨rfl | hmem, hrow⟩
        · exact .inl rfl
        · exact .inr ⟨hmem, hrow⟩
    · rename_i hfails
      refine ⟨fun hmem => (nomatch hmem), ?_⟩
      rintro ⟨hmem, hrow⟩
      rcases List.mem_cons.mp hmem with rfl | hrest
      · exact absurd hrow hfails
      · exact absurd (hp _ _ (hfirst row hrest) hrow) hfails

theorem mem_dropWhile_iff (h : rows.Pairwise R) (hp : ∀ a b, R a b → p b = true → p a = true)
    {row : α} : row ∈ rows.dropWhile p ↔ row ∈ rows ∧ p row = false := by
  induction h with
  | nil => simp
  | @cons first rest hfirst _ ih =>
    rw [List.dropWhile_cons]
    split
    · rename_i hholds
      rw [ih, List.mem_cons]
      constructor
      · rintro ⟨hmem, hrow⟩
        exact ⟨.inr hmem, hrow⟩
      · rintro ⟨rfl | hmem, hrow⟩
        · rw [hrow] at hholds
          cases hholds
        · exact ⟨hmem, hrow⟩
    · rename_i hfails
      refine ⟨fun hmem => ⟨hmem, ?_⟩, And.left⟩
      rcases List.mem_cons.mp hmem with rfl | hrest
      · simpa using hfails
      · by_contra hrow
        exact hfails (hp _ _ (hfirst row hrest) (by simpa using hrow))

/-- A look-up among the entries whose keys satisfy `p`. -/
theorem lookup_filter {κ : Type} [DecidableEq κ] (p : κ → Bool) (entries : List (κ × α)) (key : κ) :
    (entries.filter fun entry => p entry.1).lookup key =
      if p key then entries.lookup key else none := by
  induction entries with
  | nil => simp
  | cons entry rest ih =>
    obtain ⟨first, value⟩ := entry
    rw [List.filter_cons, List.lookup_cons]
    by_cases hkey : key = first
    · subst hkey
      cases hp : p key <;> simp [hp, ih]
    · have hne : (key == first) = false := by simpa using hkey
      rw [hne]
      split
      · rw [List.lookup_cons, hne, ih]
      · exact ih

end Prefixes

namespace Queue

variable {q : Queue} {n m : Notification} {due now : Instant} {key : DueKey}

/-- The notification waits until `due`. -/
def Waits (q : Queue) (n : Notification) (due : Instant) : Prop :=
  ∃ turn, (⟨due, turn⟩, n) ∈ q.byDue.rows

/-- What is due when stands in order, and the index finds the place of everything that waits. -/
structure Sound (q : Queue) : Prop where
  ascending : q.byDue.Ascending
  turns : ∀ row ∈ q.byDue.rows, row.1.turn ≤ q.turn
  index : ∀ n key, q.index.lookup n = some key ↔ (key, n) ∈ q.byDue.rows

theorem sound_empty : ({} : Queue).Sound :=
  ⟨Table.ascending_empty, fun _ h => (nomatch h), fun _ _ => ⟨nofun, nofun⟩⟩

namespace Sound

/-- A notification waits at one place at most. -/
theorem key_unique (h : q.Sound) {key key' : DueKey} (hkey : (key, n) ∈ q.byDue.rows)
    (hkey' : (key', n) ∈ q.byDue.rows) : key = key' := by
  rw [← h.index] at hkey hkey'
  exact Option.some.inj (hkey.symm.trans hkey')

/-- At one place no two notifications wait. -/
theorem notification_unique (h : q.Sound) (hn : (key, n) ∈ q.byDue.rows)
    (hm : (key, m) ∈ q.byDue.rows) : n = m := by
  rw [← h.ascending.get?_eq_some] at hn hm
  exact Option.some.inj (hn.symm.trans hm)

theorem isPending_iff (h : q.Sound) (n : Notification) :
    q.isPending n = true ↔ ∃ due, q.Waits n due := by
  rw [isPending, Option.isSome_iff_exists]
  constructor
  · rintro ⟨key, hkey⟩
    exact ⟨key.due, key.turn, (h.index n key).mp hkey⟩
  · rintro ⟨due, turn, hkey⟩
    exact ⟨⟨due, turn⟩, (h.index n _).mpr hkey⟩

/-! ## Withdrawing -/

theorem mem_without (h : q.Sound) (hkey : (key, n) ∈ q.byDue.rows) {row : DueKey × Notification} :
    row ∈ (q.without n key).byDue.rows ↔ row ∈ q.byDue.rows ∧ row.2 ≠ n := by
  simp only [without, Table.erase, List.mem_filter, decide_eq_true_eq]
  refine and_congr_right fun hrow => not_congr ?_
  constructor
  · rintro rfl
    exact h.notification_unique hrow hkey
  · rintro rfl
    exact h.key_unique hrow hkey

theorem without (h : q.Sound) (hkey : (key, n) ∈ q.byDue.rows) : (q.without n key).Sound where
  ascending := List.Pairwise.filter _ h.ascending
  turns row hrow := h.turns row ((h.mem_without hkey).mp hrow).1
  index m key' := by
    show (q.unindexed n).lookup m = some key' ↔ _
    rw [unindexed, lookup_filter (fun m => decide (m ≠ n)), h.mem_without hkey, ← h.index]
    by_cases hm : m = n <;> simp [hm]

/-- What waits when a notification is withdrawn. -/
theorem cancel (h : q.Sound) (n : Notification) :
    (q.cancel n).2.Sound ∧ ∀ m due, (q.cancel n).2.Waits m due ↔ m ≠ n ∧ q.Waits m due := by
  unfold Queue.cancel
  cases hlookup : q.index.lookup n with
  | some key =>
    have hkey := (h.index n key).mp hlookup
    refine ⟨h.without hkey, ?_⟩
    intro m due
    simp only [Waits, h.mem_without hkey, exists_and_right]
    exact and_comm
  | none =>
    refine ⟨h, ?_⟩
    intro m due
    refine ⟨fun hwaits => ⟨?_, hwaits⟩, And.right⟩
    rintro rfl
    obtain ⟨turn, hmem⟩ := hwaits
    rw [← h.index, hlookup] at hmem
    cases hmem

/-! ## Scheduling -/

theorem schedule_eq (q : Queue) (n : Notification) (due : Instant) :
    q.schedule n due =
      { turn := (q.cancel n).2.turn + 1
        byDue := (q.cancel n).2.byDue.insert ⟨due, (q.cancel n).2.turn + 1⟩ n
        index := (n, ⟨due, (q.cancel n).2.turn + 1⟩) :: (q.cancel n).2.index } := by
  unfold Queue.schedule Queue.cancel
  cases q.index.lookup n <;> rfl

/-- What waits when a notification is scheduled that does not wait. -/
theorem add (h : q.Sound) (hnew : ∀ due, ¬q.Waits n due) (due : Instant) {q' : Queue}
    (hq' : q' =
      { turn := q.turn + 1
        byDue := q.byDue.insert ⟨due, q.turn + 1⟩ n
        index := (n, ⟨due, q.turn + 1⟩) :: q.index }) :
    q'.Sound ∧ ∀ m due', q'.Waits m due' ↔ m = n ∧ due' = due ∨ q.Waits m due' := by
  subst hq'
  have hinsert := h.ascending.insert ⟨due, q.turn + 1⟩ n
  -- no place has the new turn yet
  have hfresh : ∀ {m key}, (key, m) ∈ q.byDue.rows → key ≠ ⟨due, q.turn + 1⟩ := by
    rintro m key hmem rfl
    exact absurd (h.turns _ hmem) (by simp)
  have hrows : ∀ m key, (key, m) ∈ (q.byDue.insert ⟨due, q.turn + 1⟩ n).rows ↔
      m = n ∧ key = ⟨due, q.turn + 1⟩ ∨ (key, m) ∈ q.byDue.rows := by
    intro m key
    rw [← hinsert.get?_eq_some, Table.get?_insert]
    by_cases hkey : (⟨due, q.turn + 1⟩ : DueKey) = key
    · subst hkey
      rw [if_pos rfl, Option.some.injEq]
      exact ⟨fun heq => .inl ⟨heq.symm, rfl⟩,
        fun hor => hor.elim (fun hnew => hnew.1.symm) fun hmem => absurd rfl (hfresh hmem)⟩
    · rw [if_neg hkey, h.ascending.get?_eq_some]
      exact ⟨.inr, fun hor => hor.resolve_left fun hnew => hkey hnew.2.symm⟩
  constructor
  · refine ⟨hinsert, ?_, ?_⟩
    · rintro ⟨key, m⟩ hmem
      rcases (hrows m key).mp hmem with ⟨-, rfl⟩ | hold
      · exact Nat.le_refl _
      · exact Nat.le_succ_of_le (h.turns _ hold)
    · intro m key
      rw [hrows, List.lookup_cons]
      by_cases hm : m = n
      · subst hm
        have hnone : ∀ key, (key, m) ∉ q.byDue.rows := fun key hmem => hnew key.due ⟨_, hmem⟩
        simp [hnone, eq_comm]
      · have hne : (m == n) = false := by simpa using hm
        rw [hne, h.index]
        simp [hm]
  · intro m due'
    simp only [Waits, hrows, DueKey.mk.injEq, exists_or]
    refine or_congr_left ?_
    constructor
    · rintro ⟨_, hm, hdue, -⟩
      exact ⟨hm, hdue⟩
    · rintro ⟨hm, hdue⟩
      exact ⟨_, hm, hdue, rfl⟩

/-- What waits when a notification is scheduled: it was moved. -/
theorem schedule (h : q.Sound) (n : Notification) (due : Instant) :
    (q.schedule n due).Sound ∧ ∀ m due', (q.schedule n due).Waits m due' ↔
      m = n ∧ due' = due ∨ m ≠ n ∧ q.Waits m due' := by
  obtain ⟨hcancel, hwaits⟩ := h.cancel n
  have hnew : ∀ due, ¬(q.cancel n).2.Waits n due := fun due hold =>
    ((hwaits n due).mp hold).1 rfl
  obtain ⟨hsound, hadded⟩ := hcancel.add hnew due (schedule_eq q n due)
  refine ⟨hsound, fun m due' => ?_⟩
  rw [hadded, hwaits]

/-! ## Draining -/

/-- What stands before something that is due is due, too. -/
theorem due_le_of_lt {a b : DueKey} (h : compare a b = .lt) (hb : b.due ≤ now) : a.due ≤ now := by
  have hle : a.due.position ≤ b.due.position := by
    by_contra hgt
    rw [DueKey.compare_eq, Instant.compare_eq, Std.compare_eq_gt.mpr (by omega)] at h
    cases h
  exact Int.le_trans hle hb

section Rows

variable {row : DueKey × Notification}

theorem mem_due (h : q.Sound) :
    row ∈ q.byDue.rows.takeWhile (fun row => decide (row.1.due ≤ now)) ↔
      row ∈ q.byDue.rows ∧ row.1.due ≤ now := by
  rw [mem_takeWhile_iff h.ascending fun a b hab hb => ?_, decide_eq_true_eq]
  simpa using due_le_of_lt hab (by simpa using hb)

theorem mem_later (h : q.Sound) :
    row ∈ q.byDue.rows.dropWhile (fun row => decide (row.1.due ≤ now)) ↔
      row ∈ q.byDue.rows ∧ ¬row.1.due ≤ now := by
  rw [mem_dropWhile_iff h.ascending fun a b hab hb => ?_, decide_eq_false_iff_not]
  simpa using due_le_of_lt hab (by simpa using hb)

end Rows

/-- A drain takes what is due. -/
theorem mem_takeDue (h : q.Sound) :
    n ∈ (q.takeDue now).1 ↔ ∃ due, q.Waits n due ∧ due ≤ now := by
  simp only [Queue.takeDue, List.mem_map, h.mem_due]
  constructor
  · rintro ⟨⟨⟨due, turn⟩, _⟩, ⟨hmem, hdue⟩, rfl⟩
    exact ⟨due, ⟨turn, hmem⟩, hdue⟩
  · rintro ⟨due, ⟨turn, hmem⟩, hdue⟩
    exact ⟨(⟨due, turn⟩, n), ⟨hmem, hdue⟩, rfl⟩

/-- What waits when what is due was taken. -/
theorem takeDue (h : q.Sound) (now : Instant) :
    (q.takeDue now).2.Sound ∧
      ∀ m due, (q.takeDue now).2.Waits m due ↔ q.Waits m due ∧ ¬due ≤ now := by
  constructor
  · refine ⟨List.Pairwise.sublist (List.dropWhile_sublist _) h.ascending, ?_, ?_⟩
    · exact fun row hrow => h.turns row (h.mem_later.mp hrow).1
    · intro m key
      have hlookup : (q.takeDue now).2.index.lookup m =
          if !(q.takeDue now).1.contains m then q.index.lookup m else none :=
        lookup_filter (fun m => !(q.takeDue now).1.contains m) q.index m
      have hrows : (key, m) ∈ (q.takeDue now).2.byDue.rows ↔
          (key, m) ∈ q.byDue.rows ∧ ¬key.due ≤ now := h.mem_later
      rw [hlookup, hrows, ← h.index]
      by_cases htaken : m ∈ (q.takeDue now).1
      · -- the notification that was taken waited nowhere else
        obtain ⟨due, ⟨turn, hmem⟩, hdue⟩ := h.mem_takeDue.mp htaken
        have hfound := (h.index m _).mpr hmem
        simp only [List.contains_iff_mem.mpr htaken, Bool.not_true, Bool.false_eq_true, if_false,
          reduceCtorEq, false_iff, not_and, not_not]
        intro hkey
        rw [hfound] at hkey
        rwa [← Option.some.inj hkey]
      · have hcontains : (q.takeDue now).1.contains m = false := by simpa using htaken
        rw [hcontains]
        refine ⟨fun hkey => ⟨hkey, fun hdue => htaken ?_⟩, And.left⟩
        exact h.mem_takeDue.mpr ⟨key.due, ⟨key.turn, (h.index m key).mp hkey⟩, hdue⟩
  · intro m due
    simp only [Waits]
    rw [← exists_and_right]
    exact exists_congr fun turn => h.mem_later

end Sound

end Queue

end Lending
