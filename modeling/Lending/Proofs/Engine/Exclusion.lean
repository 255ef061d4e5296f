import Lending.Proofs.Engine.LockTable

/-!
# Locks exclude, whatever is pruned

Any number of tasks use one table of locks. A task looks a key up and keeps a reference to its slot;
later it holds the slot, or it gives up; while it holds the slot others wait for it or come and go,
and slots are pruned. A slot that somebody refers to is never pruned, so all who want one lock meet
at one slot, and a slot has one holder at a time.

* `LockStep`: one step of one task, and `LockTable.after`: steps of any tasks in any order.
* `Guarded`: moreover, no slot is held twice. Kept by every step.
* `Guarded.claim_alone`: an attempt that is the only one on its key is granted.
* `locks_exclude`: what holds of the locks at all times.
-/

namespace Lending

/-- What one task does to a table of locks, all at once. -/
inductive LockStep (κ : Type) where
  /-- Begins an attempt on the slot of a key. -/
  | lookUp (key : κ)
  /-- A waiting attempt comes to hold its slot, if nobody holds it. -/
  | grant (ticket : Nat)
  /-- The same, but only if no attempt on the slot began earlier. -/
  | claim (ticket : Nat)
  /-- An attempt ends: a waiting one is given up, a holding one releases its slot. -/
  | drop (ticket : Nat)
  | prune
  /-- An attempt that is given up if it is not granted at once. -/
  | lock (key : κ)
  | unlock (key : κ)
  | touch (key : κ)

namespace LockTable

variable {κ : Type}

section Steps

variable [DecidableEq κ]

/-- The table after a step. What is not granted changes nothing. -/
def step (t : LockTable κ) : LockStep κ → LockTable κ
  | .lookUp key => (t.lookUp key).2
  | .grant ticket => (t.grant? ticket).getD t
  | .claim ticket => (t.claim? ticket).getD t
  | .drop ticket => t.drop ticket
  | .prune => t.prune
  | .lock key => (t.lock key).2
  | .unlock key => (t.unlock key).2
  | .touch key => t.touch key

/-- The table after steps of any tasks, one after another. -/
def after (t : LockTable κ) (steps : List (LockStep κ)) : LockTable κ := steps.foldl step t

end Steps

/-! ## One holder a slot -/

/-- Every attempt refers to the slot of its key, and no slot is held twice. -/
structure Guarded (t : LockTable κ) : Prop extends t.Slotted where
  single : ∀ a ∈ t.attempts, ∀ b ∈ t.attempts, a.holds = true → b.holds = true →
    a.slot = b.slot → a = b

theorem guarded_empty : ({} : LockTable κ).Guarded := ⟨slotted_empty, nofun⟩

theorem isTaken_eq_false {t : LockTable κ} {slot : Nat} :
    t.isTaken slot = false ↔ ∀ a ∈ t.attempts, a.holds = true → a.slot ≠ slot := by
  simp [isTaken, List.any_eq_false]

theorem isFirst_iff {t : LockTable κ} {a : LockAttempt κ} :
    t.isFirst a = true ↔ ∀ b ∈ t.attempts, b.slot = a.slot → a.ticket ≤ b.ticket := by
  simp only [isFirst, List.all_eq_true, Bool.or_eq_true, decide_eq_true_eq, ne_eq]
  exact forall_congr' fun b => imp_congr_right fun _ => Decidable.imp_iff_not_or.symm

/-- The attempts once one of them has come to hold its slot. -/
def granting (ticket : Nat) (b : LockAttempt κ) : LockAttempt κ :=
  if b.ticket = ticket then { b with holds := true } else b

section Granting

variable (ticket : Nat) (b : LockAttempt κ)

@[simp]
theorem granting_ticket : (granting ticket b).ticket = b.ticket := by
  unfold granting
  split <;> rfl

@[simp]
theorem granting_key : (granting ticket b).key = b.key := by
  unfold granting
  split <;> rfl

@[simp]
theorem granting_slot : (granting ticket b).slot = b.slot := by
  unfold granting
  split <;> rfl

end Granting

section Grants

variable {t t' : LockTable κ} {ticket : Nat}

/-- An attempt is granted exactly if nobody holds its slot. -/
theorem grant?_eq_some :
    t.grant? ticket = some t' ↔
      ∃ a, t.attempts.find? (fun a => a.ticket = ticket) = some a ∧ t.isTaken a.slot = false ∧
        t' = { t with attempts := t.attempts.map (granting ticket) } := by
  have hmap : (t.attempts.map fun b => if b.ticket = ticket then { b with holds := true } else b) =
      t.attempts.map (granting ticket) := rfl
  unfold grant?
  rw [hmap]
  cases t.attempts.find? fun a => a.ticket = ticket with
  | none => simp
  | some a =>
    simp only [Option.some.injEq, exists_eq_left']
    cases t.isTaken a.slot with
    | true => simp
    | false => simp [eq_comm]

theorem grant?_of_claim? (h : t.claim? ticket = some t') : t.grant? ticket = some t' := by
  unfold claim? at h
  split at h
  · split at h
    · exact h
    · cases h
  · cases h

end Grants

namespace Guarded

variable {t t' : LockTable κ}

theorem prune (h : t.Guarded) : t.prune.Guarded := ⟨h.toSlotted.prune, h.single⟩

theorem drop (h : t.Guarded) (ticket : Nat) : (t.drop ticket).Guarded :=
  ⟨h.toSlotted.drop ticket, fun a ha b hb =>
    h.single a (List.mem_of_mem_filter ha) b (List.mem_of_mem_filter hb)⟩

/-- A slot that nobody holds may be held by one of those who refer to it. -/
theorem grant (h : t.Guarded) {ticket : Nat} (hgrant : t.grant? ticket = some t') :
    t'.Guarded := by
  obtain ⟨a, hfind, hfree, rfl⟩ := grant?_eq_some.mp hgrant
  have ha : a ∈ t.attempts := List.mem_of_find?_eq_some hfind
  have hticket : a.ticket = ticket := by simpa using List.find?_some hfind
  rw [isTaken_eq_false] at hfree
  refine ⟨?_, ?_⟩
  · refine { h.toSlotted with tickets := ?_, newTicket := ?_, slot := ?_ }
    · rw [List.map_map]
      simpa [Function.comp_def] using h.tickets
    · simpa using h.newTicket
    · simpa using h.slot
  · -- one of two holders of a slot did not hold it before, so it was granted, and nobody held it
    have hnew : ∀ b ∈ t.attempts, (granting ticket b).holds = true → b = a ∨ b.holds = true := by
      intro b hb hholds
      by_cases heq : b.ticket = ticket
      · exact .inl (h.eq_of_ticket hb ha (heq.trans hticket.symm))
      · rw [granting, if_neg heq] at hholds
        exact .inr hholds
    intro x hx y hy hxholds hyholds hslot
    obtain ⟨b, hb, rfl⟩ := List.mem_map.mp hx
    obtain ⟨c, hc, rfl⟩ := List.mem_map.mp hy
    rw [granting_slot, granting_slot] at hslot
    rcases hnew b hb hxholds with rfl | hbholds
    · rcases hnew c hc hyholds with rfl | hcholds
      · rfl
      · exact absurd hslot.symm (hfree c hc hcholds)
    · rcases hnew c hc hyholds with rfl | hcholds
      · exact absurd hslot (hfree b hb hbholds)
      · rw [h.single b hb c hc hbholds hcholds hslot]

variable [DecidableEq κ]

theorem lookUp (h : t.Guarded) (key : κ) : (t.lookUp key).2.Guarded := by
  obtain ⟨slot, s, hlookUp, hs, hattempts⟩ := h.toSlotted.lookUp key
  rw [hlookUp]
  refine ⟨hs, ?_⟩
  rw [hattempts]
  intro a ha b hb haholds hbholds hslot
  rcases List.mem_cons.mp ha with rfl | ha
  · cases haholds
  · rcases List.mem_cons.mp hb with rfl | hb
    · cases hbholds
    · exact h.single a ha b hb haholds hbholds hslot

theorem lock (h : t.Guarded) (key : κ) : (t.lock key).2.Guarded := by
  have hlookUp := h.lookUp key
  unfold LockTable.lock
  cases hclaim : (t.lookUp key).2.claim? (t.lookUp key).1 with
  | some s =>
    simp only [hclaim]
    exact hlookUp.grant (grant?_of_claim? hclaim)
  | none =>
    simp only [hclaim]
    exact hlookUp.drop _

theorem unlock (h : t.Guarded) (key : κ) : (t.unlock key).2.Guarded := by
  unfold LockTable.unlock
  split
  · exact h.drop _
  · exact h

/-- Every step of every task leaves one holder a slot. -/
theorem step (h : t.Guarded) (s : LockStep κ) : (t.step s).Guarded := by
  cases s with
  | lookUp key => exact h.lookUp key
  | grant ticket =>
    rw [LockTable.step]
    cases hgrant : t.grant? ticket with
    | none => exact h
    | some t' => exact h.grant hgrant
  | claim ticket =>
    rw [LockTable.step]
    cases hclaim : t.claim? ticket with
    | none => exact h
    | some t' => exact h.grant (grant?_of_claim? hclaim)
  | drop ticket => exact h.drop ticket
  | prune => exact h.prune
  | lock key => exact h.lock key
  | unlock key => exact h.unlock key
  | touch key =>
    rw [LockTable.step, touch]
    rcases hlock : t.lock key with ⟨granted, s⟩
    have hs : s.Guarded := by
      have hlocked := h.lock key
      rwa [hlock] at hlocked
    cases granted with
    | true => exact hs.unlock key
    | false => exact hs

theorem after (h : t.Guarded) (steps : List (LockStep κ)) : (t.after steps).Guarded := by
  induction steps generalizing t with
  | nil => exact h
  | cons s rest ih => exact ih (h.step s)

end Guarded

/-! ## Locks -/

/-- What tasks can rely on that share a table of locks. -/
structure Excludes [DecidableEq κ] (t : LockTable κ) : Prop where
  /-- No two attempts hold the lock of one key. -/
  guards : t.attempts.Pairwise fun a b => a.holds = true → b.holds = true → a.key ≠ b.key
  /-- Whoever holds the lock of a key or waits for it refers to the one slot that the table has for
  the key, and no other key has this slot. -/
  slots : ∀ a ∈ t.attempts, ∀ entry ∈ t.slots, entry.1 = a.key ↔ entry.2 = a.slot
  stored : ∀ a ∈ t.attempts, (a.key, a.slot) ∈ t.slots
  /-- A waiting attempt is granted if no other holds the lock of its key or waits for it. -/
  alone : ∀ a ∈ t.attempts, a.holds = false → (∀ b ∈ t.attempts, b.key = a.key → b = a) →
    ∃ t', t.claim? a.ticket = some t' ∧ { a with holds := true } ∈ t'.attempts
  /-- An attempt on a key that nobody holds or waits for is granted at once. -/
  free : ∀ key, (∀ a ∈ t.attempts, a.key ≠ key) →
    ∃ t', (t.lookUp key).2.claim? (t.lookUp key).1 = some t' ∧ t'.isHeld key = true

namespace Guarded

variable {t : LockTable κ}

/-- An attempt that is the only one on its key is granted. -/
theorem claim_alone (h : t.Guarded) {a : LockAttempt κ} (ha : a ∈ t.attempts)
    (hwaits : a.holds = false) (halone : ∀ b ∈ t.attempts, b.key = a.key → b = a) :
    ∃ t', t.claim? a.ticket = some t' ∧ { a with holds := true } ∈ t'.attempts := by
  -- whoever refers to the slot of the attempt wants its key
  have hslot : ∀ b ∈ t.attempts, b.slot = a.slot → b = a := by
    intro b hb heq
    exact halone b hb (h.eq_of_slot (h.slot b hb) (heq ▸ h.slot a ha))
  have hfind : t.attempts.find? (fun b => b.ticket = a.ticket) = some a := by
    cases hfound : t.attempts.find? fun b => b.ticket = a.ticket with
    | none => simpa using List.find?_eq_none.mp hfound a ha
    | some b =>
      have hticket : b.ticket = a.ticket := by simpa using List.find?_some hfound
      rw [h.eq_of_ticket (List.mem_of_find?_eq_some hfound) ha hticket]
  have hfirst : t.isFirst a = true := isFirst_iff.mpr fun b hb heq => by rw [hslot b hb heq]
  have hfree : t.isTaken a.slot = false := by
    refine isTaken_eq_false.mpr fun b hb hholds heq => ?_
    rw [hslot b hb heq, hwaits] at hholds
    cases hholds
  have hgrant := grant?_eq_some.mpr ⟨a, hfind, hfree, rfl⟩
  have hself : granting a.ticket a = { a with holds := true } := if_pos rfl
  refine ⟨{ t with attempts := t.attempts.map (granting a.ticket) }, ?_,
    List.mem_map.mpr ⟨a, ha, hself⟩⟩
  simp only [claim?, hfind, hfirst, if_true, hgrant]

/-- The lock of a key that nobody wants is granted to the next one who asks. -/
theorem lookUp_free [DecidableEq κ] (h : t.Guarded) {key : κ}
    (hfree : ∀ a ∈ t.attempts, a.key ≠ key) :
    ∃ t', (t.lookUp key).2.claim? (t.lookUp key).1 = some t' ∧ t'.isHeld key = true := by
  have hnew := h.lookUp key
  obtain ⟨slot, s, hlookUp, -, hattempts⟩ := h.toSlotted.lookUp key
  rw [hlookUp] at hnew ⊢
  obtain ⟨t', hclaim, hheld⟩ := hnew.claim_alone (hattempts ▸ List.mem_cons_self) rfl (by
    rw [hattempts]
    intro b hb hkey
    rcases List.mem_cons.mp hb with rfl | hold
    · rfl
    · exact absurd hkey (hfree b hold))
  refine ⟨t', hclaim, ?_⟩
  rw [isHeld, holder?, List.find?_isSome]
  exact ⟨_, hheld, by simp⟩

/-- Holders of one lock are one holder, since the lock has one slot. -/
theorem pairwise_guards (h : t.Guarded) :
    t.attempts.Pairwise fun a b => a.holds = true → b.holds = true → a.key ≠ b.key := by
  have htickets : t.attempts.Pairwise fun a b => a.ticket ≠ b.ticket :=
    List.pairwise_map.mp h.tickets
  refine htickets.imp_of_mem fun {a b} ha hb hne haholds hbholds hkey => hne ?_
  have hslot : a.slot = b.slot := h.eq_of_key (h.slot a ha) (hkey ▸ h.slot b hb)
  rw [h.single a ha b hb haholds hbholds hslot]

theorem excludes [DecidableEq κ] (h : t.Guarded) : t.Excludes where
  guards := h.pairwise_guards
  slots a ha entry hentry := by
    have hslot := h.slot a ha
    constructor
    · rintro hkey
      exact h.eq_of_key (k := a.key) (hkey ▸ hentry) hslot
    · rintro hplace
      exact h.eq_of_slot (hplace ▸ hentry) hslot
  stored := h.slot
  alone _ ha := h.claim_alone ha
  free _ := h.lookUp_free

end Guarded

/-- Locks exclude at all times: whatever steps are made by any number of tasks in any order, and
whatever is pruned in between. -/
theorem locks_exclude [DecidableEq κ] (steps : List (LockStep κ)) :
    (({} : LockTable κ).after steps).Excludes := (guarded_empty.after steps).excludes

end LockTable

end Lending
