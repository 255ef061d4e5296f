import Lending.Proofs.Engine.Atomicity
import Lending.Proofs.Engine.Exclusion
import Lending.Proofs.Engine.Locking

/-!
# Slots do not pile up

A look-up makes a slot for a key that has none, and the slot stays when the attempt is given up or
the lock is released. Slots go only when they are pruned: at the end of a drain, and before a
look-up in a table of `pruneThreshold` slots. Pruning leaves exactly the slots that somebody refers
to. So right after a look-up there are at most `pruneThreshold` slots, or one more than there were
keys in use.

* `slotKeys`, `wantedKeys`, `heldKeys`: the keys with a slot, those whose locks are held or waited
  for, and those whose locks are held.
* `Slotted.slotKeys_prune`: pruning leaves a slot for each key that is held or waited for.
* `Slotted.size_attempt_le`, `Slotted.size_step_le`: what one step does to the number of slots.
* `Frugal`: what holds of a table that does not leak.
* `frugal_after`: so it is with any number of tasks, if those who wait count.
* `never_leaks`: if nobody waits, only the locks that are held count.
* `World.slots_runDue`: a drain leaves the table of an engine at rest empty.
-/

namespace Lending

/-- The step begins an attempt on a lock, whether that is granted or not. -/
def LockStep.isAttempt {κ : Type} : LockStep κ → Bool
  | .lookUp _ | .lock _ | .touch _ => true
  | .grant _ | .claim _ | .drop _ | .unlock _ | .prune => false

/-- The step is over at once and leaves nobody waiting. -/
def LockStep.isPrompt {κ : Type} : LockStep κ → Bool
  | .lock _ | .unlock _ | .touch _ | .prune => true
  | .lookUp _ | .grant _ | .claim _ | .drop _ => false

/-- What a task does with locks at one go. -/
inductive LockUse (κ : Type) where
  /-- An attempt that is given up if it is not granted at once. -/
  | lock (key : κ)
  | unlock (key : κ)
  /-- Takes and at once releases one lock after another. -/
  | touch (keys : List κ)
  | prune

def LockUse.steps {κ : Type} : LockUse κ → List (LockStep κ)
  | .lock key => [.lock key]
  | .unlock key => [.unlock key]
  | .touch keys => keys.map .touch
  | .prune => [.prune]

theorem LockUse.isPrompt_of_mem {κ : Type} {use : LockUse κ} {s : LockStep κ}
    (h : s ∈ use.steps) : s.isPrompt = true := by
  cases use with
  | lock key | unlock key | prune =>
    obtain rfl := List.mem_singleton.mp h
    rfl
  | touch keys =>
    obtain ⟨key, -, rfl⟩ := List.mem_map.mp h
    rfl

namespace LockTable

variable {κ : Type} [DecidableEq κ]

/-! ## Keys -/

/-- The keys that have a slot. -/
def slotKeys (t : LockTable κ) : Finset κ := (t.slots.map Prod.fst).toFinset

/-- The keys whose locks somebody holds or waits for. -/
def wantedKeys (t : LockTable κ) : Finset κ := (t.attempts.map LockAttempt.key).toFinset

/-- The keys whose locks somebody holds. -/
def heldKeys (t : LockTable κ) : Finset κ :=
  ((t.attempts.filter LockAttempt.holds).map LockAttempt.key).toFinset

section Keys

variable {t : LockTable κ} {key : κ}

@[simp]
theorem mem_slotKeys : key ∈ t.slotKeys ↔ ∃ slot, (key, slot) ∈ t.slots := by
  simp [slotKeys]

@[simp]
theorem mem_wantedKeys : key ∈ t.wantedKeys ↔ ∃ a ∈ t.attempts, a.key = key := by
  simp [wantedKeys]

@[simp]
theorem mem_heldKeys : key ∈ t.heldKeys ↔ t.isHeld key = true := by
  simp [heldKeys, isHeld, holder?, and_assoc]

/-- If nobody waits for a lock, the locks that are wanted are held. -/
theorem Exclusive.heldKeys (h : t.Exclusive) : t.heldKeys = t.wantedKeys := by
  rw [LockTable.heldKeys, List.filter_eq_self.mpr h.holds, wantedKeys]

namespace Slotted

theorem card_slotKeys (h : t.Slotted) : t.slotKeys.card = t.size := by
  rw [slotKeys, List.toFinset_card_of_nodup h.keys, List.length_map, size]

theorem wantedKeys_subset (h : t.Slotted) : t.wantedKeys ⊆ t.slotKeys := by
  intro key hkey
  obtain ⟨a, ha, rfl⟩ := mem_wantedKeys.mp hkey
  exact mem_slotKeys.mpr ⟨a.slot, h.slot a ha⟩

/-- Pruning leaves a slot for each key that is held or waited for, and no other. -/
theorem slotKeys_prune (h : t.Slotted) : t.prune.slotKeys = t.wantedKeys := by
  refine Finset.Subset.antisymm ?_ h.prune.wantedKeys_subset
  intro key hkey
  obtain ⟨slot, hslot⟩ := mem_slotKeys.mp hkey
  obtain ⟨hslot, hbusy⟩ := List.mem_filter.mp hslot
  simp only [isIdle, Bool.not_eq_true', List.all_eq_false, decide_eq_true_eq, not_not] at hbusy
  obtain ⟨a, ha, rfl⟩ := hbusy
  exact mem_wantedKeys.mpr ⟨a, ha, h.eq_of_slot (h.slot a ha) hslot⟩

theorem size_prune (h : t.Slotted) : t.prune.size = t.wantedKeys.card := by
  rw [← h.prune.card_slotKeys, h.slotKeys_prune]

end Slotted

end Keys

/-! ## Slots -/

section Slots

variable {t t' : LockTable κ} {key : κ}

omit [DecidableEq κ] in
theorem slots_grant? {ticket : Nat} (h : t.grant? ticket = some t') : t'.slots = t.slots := by
  obtain ⟨_, -, -, rfl⟩ := grant?_eq_some.mp h
  rfl

/-- Whether an attempt is granted or given up, its slot stays. -/
theorem slots_lock : (t.lock key).2.slots = (t.lookUp key).2.slots := by
  simp only [lock]
  cases hclaim : (t.lookUp key).2.claim? (t.lookUp key).1 with
  | none => rfl
  | some t' => exact slots_grant? (grant?_of_claim? hclaim)

theorem slots_unlock : (t.unlock key).2.slots = t.slots := by
  unfold unlock
  split <;> rfl

theorem slots_touch : (t.touch key).slots = (t.lookUp key).2.slots := by
  rw [← slots_lock]
  simp only [touch]
  split
  · exact slots_unlock
  · rfl

/-- A look-up adds one slot at most to those that the pruning before has left. -/
theorem size_lookUp_le :
    (t.lookUp key).2.size ≤ (if pruneThreshold ≤ t.size then t.prune else t).size + 1 := by
  simp only [lookUp]
  generalize (if pruneThreshold ≤ t.size then t.prune else t) = s
  cases s.slots.find? fun entry => entry.1 = key with
  | some entry => exact Nat.le_succ _
  | none => exact Nat.le_refl _

/-- Steps that begin no attempt make no slot. -/
theorem size_step_le_size {s : LockStep κ} (hs : s.isAttempt = false) :
    (t.step s).size ≤ t.size := by
  cases s with
  | lookUp _ | lock _ | touch _ => cases hs
  | grant ticket =>
    rw [step]
    cases hgrant : t.grant? ticket with
    | none => exact Nat.le_refl _
    | some t' => exact Nat.le_of_eq (congrArg List.length (slots_grant? hgrant))
  | claim ticket =>
    rw [step]
    cases hclaim : t.claim? ticket with
    | none => exact Nat.le_refl _
    | some t' =>
      exact Nat.le_of_eq (congrArg List.length (slots_grant? (grant?_of_claim? hclaim)))
  | drop ticket => exact Nat.le_refl _
  | unlock key => exact Nat.le_of_eq (congrArg List.length slots_unlock)
  | prune => exact List.length_filter_le _ _

namespace Slotted

variable {s : LockStep κ}

/-- Right after an attempt has begun there are no more slots than a table may have unpruned, or one
more than there were keys in use. -/
theorem size_attempt_le (h : t.Slotted) (hs : s.isAttempt = true) :
    (t.step s).size ≤ max pruneThreshold (1 + t.wantedKeys.card) := by
  have hlookUp : ∀ key, (t.lookUp key).2.size ≤ max pruneThreshold (1 + t.wantedKeys.card) := by
    intro key
    have hle : (t.lookUp key).2.size ≤ _ := size_lookUp_le
    split at hle
    · rw [h.size_prune] at hle
      omega
    · omega
  cases s with
  | lookUp key => exact hlookUp key
  | lock key =>
    rw [step, size, slots_lock]
    exact hlookUp key
  | touch key =>
    rw [step, size, slots_touch]
    exact hlookUp key
  | grant _ | claim _ | drop _ | unlock _ | prune => cases hs

theorem size_step_le (h : t.Slotted) :
    (t.step s).size ≤ max t.size (max pruneThreshold (1 + t.wantedKeys.card)) := by
  cases hs : s.isAttempt with
  | true => exact Nat.le_trans (h.size_attempt_le hs) (Nat.le_max_right _ _)
  | false => exact Nat.le_trans (size_step_le_size hs) (Nat.le_max_left _ _)

end Slotted

end Slots

/-! ## Steps of any tasks -/

/-- The greatest number of these keys at one time, from now until after the last step. -/
def peak (keys : LockTable κ → Finset κ) (t : LockTable κ) : List (LockStep κ) → Nat
  | [] => (keys t).card
  | s :: rest => max (keys t).card (peak keys (t.step s) rest)

/-- The table does not leak: the locks of the keys `inUse` are in use, and at most `most` keys were
in use at one time so far. -/
structure Frugal (t : LockTable κ) (inUse : Finset κ) (most : Nat) : Prop where
  /-- Every key in use has a slot. -/
  stored : inUse ⊆ t.slotKeys
  /-- There are few slots right after an attempt, whatever comes of it. -/
  attempted : ∀ s, s.isAttempt = true → (t.step s).size ≤ max pruneThreshold (1 + inUse.card)
  bounded : t.size ≤ max pruneThreshold (1 + most)
  /-- Pruning leaves one slot for each key in use, and no other. -/
  pruned : t.prune.slotKeys = inUse ∧ t.prune.size = inUse.card

variable {t : LockTable κ}

/-- A table outgrows neither what it was nor the bound of the time when most keys were in use. -/
theorem Guarded.size_after_le (h : t.Guarded) (steps : List (LockStep κ)) :
    (t.after steps).size ≤ max t.size (max pruneThreshold (1 + t.peak wantedKeys steps)) := by
  induction steps generalizing t with
  | nil => exact Nat.le_max_left _ _
  | cons s rest ih =>
    have hstep := h.toSlotted.size_step_le (s := s)
    have hrest : (t.after (s :: rest)).size ≤ _ := ih (h.step s)
    rw [peak]
    omega

/-- The table does not leak, whatever steps any number of tasks make in any order. In use are the
locks that somebody holds or waits for. -/
theorem frugal_after (steps : List (LockStep κ)) :
    let t := ({} : LockTable κ).after steps
    t.Frugal t.wantedKeys (({} : LockTable κ).peak wantedKeys steps) := by
  intro t
  have ht : t.Guarded := guarded_empty.after steps
  have hsize := guarded_empty.size_after_le steps
  have hempty : ({} : LockTable κ).size = 0 := rfl
  rw [hempty, Nat.zero_max] at hsize
  exact ⟨ht.wantedKeys_subset, fun s => ht.size_attempt_le, hsize, ht.slotKeys_prune,
    ht.size_prune⟩

/-! ## Nobody waits -/

namespace Exclusive

theorem lock (h : t.Exclusive) (key : κ) : (t.lock key).2.Exclusive := by
  by_cases hheld : key ∈ t.held
  · obtain ⟨t', hlock, ht', -⟩ := h.lock_held hheld
    rwa [hlock]
  · obtain ⟨t', hlock, ht', -⟩ := h.lock_free hheld
    rwa [hlock]

theorem release (h : t.Exclusive) (key : κ) : (t.unlock key).2.Exclusive := by
  by_cases hheld : key ∈ t.held
  · obtain ⟨t', hunlock, ht', -⟩ := h.unlock hheld
    rwa [hunlock]
  · have hnone : t.holder? key = none := by
      rw [← Option.not_isSome_iff_eq_none]
      exact mt h.isHeld_iff.mp hheld
    rwa [LockTable.unlock, hnone]

theorem touch (h : t.Exclusive) (key : κ) : (t.touch key).Exclusive := by
  simp only [LockTable.touch]
  split
  · exact (h.lock key).release key
  · exact h.lock key

end Exclusive

/-- Steps that are over at once leave nobody waiting. -/
theorem Exclusive.step (h : t.Exclusive) {s : LockStep κ} (hs : s.isPrompt = true) :
    (t.step s).Exclusive := by
  cases s with
  | lock key => exact h.lock key
  | unlock key => exact h.release key
  | touch key => exact h.touch key
  | prune => exact h.prune
  | lookUp _ | grant _ | claim _ | drop _ => cases hs

/-- So at any time exactly the locks that are wanted are held. -/
theorem Exclusive.after (h : t.Exclusive) {steps : List (LockStep κ)}
    (hsteps : ∀ s ∈ steps, s.isPrompt = true) :
    (t.after steps).Exclusive ∧
      t.peak LockTable.heldKeys steps = t.peak wantedKeys steps := by
  induction steps generalizing t with
  | nil => exact ⟨h, congrArg Finset.card h.heldKeys⟩
  | cons s rest ih =>
    rw [List.forall_mem_cons] at hsteps
    obtain ⟨hafter, hpeak⟩ := ih (h.step hsteps.1) hsteps.2
    refine ⟨hafter, ?_⟩
    rw [peak, peak, h.heldKeys, hpeak]

/-- The table does not leak while every attempt is granted or given up at once. In use are only the
locks that are held. -/
theorem never_leaks (uses : List (LockUse κ)) :
    let steps := uses.flatMap LockUse.steps
    let t := ({} : LockTable κ).after steps
    t.Frugal t.heldKeys (({} : LockTable κ).peak heldKeys steps) := by
  intro steps t
  have hprompt : ∀ s ∈ steps, s.isPrompt = true := by
    intro s hs
    obtain ⟨use, -, hs⟩ := List.mem_flatMap.mp hs
    exact LockUse.isPrompt_of_mem hs
  obtain ⟨ht, hpeak⟩ := exclusive_empty.after hprompt
  rw [ht.heldKeys, hpeak]
  exact frugal_after steps

end LockTable

/-! ## Drains -/

/-- A drain that nothing cuts short leaves no slot in the table of an engine at rest, however time
goes by. -/
theorem World.slots_runDue {faults : Faults} {policy : Policy} {w w' : World}
    {outcomes : List (Notification × Except Failure Engine.Ack)} (hw : w.locks.Idle)
    (hruns : w.Runs faults (Engine.runDue policy) (some outcomes) w') : w'.locks.slots = [] := by
  obtain ⟨ds, hdrains, houtcomes⟩ := runs_runDue.mp hruns
  cases hdrains with
  | @ended seen begun last later _ looks takes delivers _ prunes =>
    -- the deliveries are made in a world from whose queue they are gone
    have hbegun : (begun.taken seen.clock).locks = w.locks := takes.locks.trans looks.locks
    have hidle : last.locks.Idle :=
      (runs_deliverAll.mpr ⟨ds, delivers, rfl⟩).idle (Engine.deliverAll_returns policy _)
        (hbegun ▸ hw)
    rw [← prunes.locks] at hidle
    have hnone : later.locks.attempts = [] := List.map_eq_nil_iff.mp hidle.2
    have hsize := hidle.1.toSlotted.size_prune
    rw [LockTable.wantedKeys, hnone] at hsize
    exact List.length_eq_zero_iff.mp hsize
  | crashed _ _ _ crashed =>
    rw [crashed] at houtcomes
    cases houtcomes

end Lending
