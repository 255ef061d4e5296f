import Lending.Engine.Locks
import Mathlib

/-!
# Locks exclude each other

A lock is a slot that the table keeps under its key as long as somebody refers to it. Whoever looks
the same key up meets at the same slot, whatever was pruned in between, so a lock that is held is
granted to nobody else.

* `Slotted`: every attempt refers to the slot of its key.
* `Slotted.lookUp`: what looking a key up adds.
* `Exclusive`: nobody waits, and no lock is held twice; `Idle`: no lock is held.
* `Exclusive.lock_free`, `Exclusive.lock_held`: a lock is granted exactly if it is not held.
* `Exclusive.unlock`: a release ends the one attempt that holds the lock.
-/

namespace Lending.LockTable

variable {κ : Type}

/-! ## Slots -/

/-- Slots and attempts are numbered apart, and every attempt refers to the slot of its key. -/
structure Slotted (t : LockTable κ) : Prop where
  keys : (t.slots.map Prod.fst).Nodup
  places : (t.slots.map Prod.snd).Nodup
  newSlot : ∀ entry ∈ t.slots, entry.2 < t.nextSlot
  tickets : (t.attempts.map LockAttempt.ticket).Nodup
  newTicket : ∀ a ∈ t.attempts, a.ticket < t.nextTicket
  slot : ∀ a ∈ t.attempts, (a.key, a.slot) ∈ t.slots

theorem slotted_empty : ({} : LockTable κ).Slotted :=
  ⟨.nil, .nil, nofun, .nil, nofun, nofun⟩

namespace Slotted

variable {t t' : LockTable κ}

theorem eq_of_slot (h : t.Slotted) {k k' : κ} {n : Nat} (hk : (k, n) ∈ t.slots)
    (hk' : (k', n) ∈ t.slots) : k = k' :=
  congrArg Prod.fst (List.inj_on_of_nodup_map h.places hk hk' rfl)

theorem eq_of_key (h : t.Slotted) {k : κ} {n n' : Nat} (hn : (k, n) ∈ t.slots)
    (hn' : (k, n') ∈ t.slots) : n = n' :=
  congrArg Prod.snd (List.inj_on_of_nodup_map h.keys hn hn' rfl)

theorem eq_of_ticket (h : t.Slotted) {a b : LockAttempt κ} (ha : a ∈ t.attempts)
    (hb : b ∈ t.attempts) (heq : a.ticket = b.ticket) : a = b :=
  List.inj_on_of_nodup_map h.tickets ha hb heq

/-- Attempts may end, and slots that nobody refers to may go. -/
theorem shrink (h : t.Slotted) (hslots : t'.slots.Sublist t.slots)
    (hattempts : t'.attempts.Sublist t.attempts) (hnextSlot : t'.nextSlot = t.nextSlot)
    (hnextTicket : t'.nextTicket = t.nextTicket)
    (hkept : ∀ a ∈ t'.attempts, (a.key, a.slot) ∈ t.slots → (a.key, a.slot) ∈ t'.slots) :
    t'.Slotted where
  keys := h.keys.sublist (hslots.map _)
  places := h.places.sublist (hslots.map _)
  newSlot entry hentry := hnextSlot ▸ h.newSlot entry (hslots.subset hentry)
  tickets := h.tickets.sublist (hattempts.map _)
  newTicket a ha := hnextTicket ▸ h.newTicket a (hattempts.subset ha)
  slot a ha := hkept a ha (h.slot a (hattempts.subset ha))

theorem prune (h : t.Slotted) : t.prune.Slotted := by
  refine h.shrink List.filter_sublist (.refl _) rfl rfl ?_
  intro a ha hslot
  refine List.mem_filter.mpr ⟨hslot, ?_⟩
  simp only [isIdle, Bool.not_eq_true', List.all_eq_false]
  exact ⟨a, ha, by simp⟩

theorem drop (h : t.Slotted) (ticket : Nat) : (t.drop ticket).Slotted :=
  h.shrink (.refl _) List.filter_sublist rfl rfl fun _ _ hslot => hslot

theorem attempt (h : t.Slotted) {key : κ} {slot : Nat} (hslot : (key, slot) ∈ t.slots) :
    (t.attempt key slot).2.Slotted where
  keys := h.keys
  places := h.places
  newSlot := h.newSlot
  tickets := by
    refine List.nodup_cons.mpr ⟨?_, h.tickets⟩
    intro hold
    obtain ⟨a, ha, hticket⟩ := List.mem_map.mp hold
    exact absurd (h.newTicket a ha) (hticket ▸ Nat.lt_irrefl _)
  newTicket a ha := by
    rcases List.mem_cons.mp ha with rfl | hold
    · exact Nat.lt_succ_self _
    · exact Nat.lt_succ_of_lt (h.newTicket a hold)
  slot a ha := by
    rcases List.mem_cons.mp ha with rfl | hold
    · exact hslot
    · exact h.slot a hold

variable [DecidableEq κ]

/-- Looking a key up begins an attempt on its slot, which waits. -/
theorem lookUp (h : t.Slotted) (key : κ) :
    ∃ slot t', t.lookUp key = (t.nextTicket, t') ∧ t'.Slotted ∧
      t'.attempts = ⟨t.nextTicket, key, slot, false⟩ :: t.attempts := by
  -- the table that is looked into may have been pruned before
  obtain ⟨s, hs, hsame, hattempts, hticket⟩ : ∃ s : LockTable κ,
      (if pruneThreshold ≤ t.size then t.prune else t) = s ∧ s.Slotted ∧
        s.attempts = t.attempts ∧ s.nextTicket = t.nextTicket := by
    split
    · exact ⟨_, rfl, h.prune, rfl, rfl⟩
    · exact ⟨_, rfl, h, rfl, rfl⟩
  simp only [LockTable.lookUp, hs, ← hattempts, ← hticket]
  cases hfind : s.slots.find? fun entry => entry.1 = key with
  | some entry =>
    have hkey : entry.1 = key := by simpa using List.find?_some hfind
    have hmem : (key, entry.2) ∈ s.slots := hkey ▸ List.mem_of_find?_eq_some hfind
    exact ⟨entry.2, _, rfl, hsame.attempt hmem, rfl⟩
  | none =>
    have hnew : ∀ entry ∈ s.slots, entry.1 ≠ key := by simpa using hfind
    have hgrown : ({ s with
        slots := (key, s.nextSlot) :: s.slots
        nextSlot := s.nextSlot + 1 } : LockTable κ).Slotted :=
      { hsame with
        keys := List.nodup_cons.mpr ⟨fun hold => by
          obtain ⟨entry, hentry, heq⟩ := List.mem_map.mp hold
          exact hnew entry hentry heq, hsame.keys⟩
        places := List.nodup_cons.mpr ⟨fun hold => by
          obtain ⟨entry, hentry, heq⟩ := List.mem_map.mp hold
          exact absurd (hsame.newSlot entry hentry) (heq ▸ Nat.lt_irrefl _), hsame.places⟩
        newSlot := fun entry hentry => by
          rcases List.mem_cons.mp hentry with rfl | hold
          · exact Nat.lt_succ_self _
          · exact Nat.lt_succ_of_lt (hsame.newSlot entry hold)
        slot := fun a ha => List.mem_cons_of_mem _ (hsame.slot a ha) }
    exact ⟨s.nextSlot, _, rfl, hgrown.attempt List.mem_cons_self, rfl⟩

end Slotted

/-! ## Holders -/

/-- The keys whose locks are held, the latest first. -/
def held (t : LockTable κ) : List κ := t.attempts.map LockAttempt.key

/-- Every attempt holds its lock, and no lock is held twice. -/
structure Exclusive (t : LockTable κ) : Prop extends t.Slotted where
  holds : ∀ a ∈ t.attempts, a.holds = true
  nodup : t.held.Nodup

theorem exclusive_empty : ({} : LockTable κ).Exclusive := ⟨slotted_empty, nofun, .nil⟩

/-- Nobody holds a lock or waits for one. -/
def Idle (t : LockTable κ) : Prop := t.Exclusive ∧ t.held = []

theorem idle_empty : ({} : LockTable κ).Idle := ⟨exclusive_empty, rfl⟩

namespace Exclusive

variable {t : LockTable κ}

theorem prune (h : t.Exclusive) : t.prune.Exclusive := ⟨h.toSlotted.prune, h.holds, h.nodup⟩

/-- All locks are given up at once. -/
theorem clear (h : t.Exclusive) : ({ t with attempts := [] } : LockTable κ).Idle :=
  ⟨⟨h.shrink (.refl _) (List.nil_sublist _) rfl rfl nofun, nofun, .nil⟩, rfl⟩

variable [DecidableEq κ] {key : κ}

/-- The attempt that holds a lock. -/
theorem holder? (h : t.Exclusive) {a : LockAttempt κ} (ha : a ∈ t.attempts) :
    t.holder? a.key = some a := by
  cases hfind : t.holder? a.key with
  | none =>
    have hnone := List.find?_eq_none.mp hfind a ha
    simp [h.holds a ha] at hnone
  | some b =>
    have hb : b ∈ t.attempts := List.mem_of_find?_eq_some hfind
    have hkey : b.key = a.key := by
      have hfound := List.find?_some hfind
      simp_all
    rw [List.inj_on_of_nodup_map h.nodup hb ha hkey]

theorem isHeld_iff (h : t.Exclusive) : t.isHeld key = true ↔ key ∈ t.held := by
  constructor
  · intro hheld
    obtain ⟨a, ha⟩ := Option.isSome_iff_exists.mp hheld
    have hkey := List.find?_some ha
    exact List.mem_map.mpr ⟨a, List.mem_of_find?_eq_some ha, by simp_all⟩
  · intro hmem
    obtain ⟨a, ha, rfl⟩ := List.mem_map.mp hmem
    rw [isHeld, h.holder? ha]
    rfl

/-- A lock that nobody holds is granted. -/
theorem lock_free (h : t.Exclusive) (hfree : key ∉ t.held) :
    ∃ t', t.lock key = (true, t') ∧ t'.Exclusive ∧ t'.held = key :: t.held := by
  obtain ⟨slot, s, hlookUp, hs, hattempts⟩ := h.toSlotted.lookUp key
  have hslot : (key, slot) ∈ s.slots :=
    hs.slot ⟨t.nextTicket, key, slot, false⟩ (hattempts ▸ List.mem_cons_self)
  -- nobody refers to the slot, since its key is the only one that it has
  have hothers : ∀ b ∈ t.attempts, b.slot ≠ slot ∧ b.ticket ≠ t.nextTicket := by
    intro b hb
    refine ⟨?_, Nat.ne_of_lt (h.newTicket b hb)⟩
    rintro rfl
    have hb' := hs.slot b (hattempts ▸ List.mem_cons_of_mem _ hb)
    exact hfree (List.mem_map.mpr ⟨b, hb, hs.eq_of_slot hb' hslot⟩)
  have hfirst : s.isFirst ⟨t.nextTicket, key, slot, false⟩ = true := by
    simp only [isFirst, hattempts, List.all_eq_true]
    intro b hb
    rcases List.mem_cons.mp hb with rfl | hb
    · simp
    · simp [(hothers b hb).1]
  have htaken : s.isTaken slot = false := by
    simp only [isTaken, hattempts, List.any_eq_false]
    intro b hb
    rcases List.mem_cons.mp hb with rfl | hb
    · simp
    · simp [(hothers b hb).1]
  have hmap : (s.attempts.map fun b =>
      if b.ticket = t.nextTicket then { b with holds := true } else b) =
        ⟨t.nextTicket, key, slot, true⟩ :: t.attempts := by
    rw [hattempts, List.map_cons, if_pos rfl]
    congr 1
    exact (List.map_congr_left fun b hb => if_neg (hothers b hb).2).trans (List.map_id' _)
  have hfind : s.attempts.find? (fun a => a.ticket = t.nextTicket) =
      some ⟨t.nextTicket, key, slot, false⟩ := by
    simp [hattempts]
  refine ⟨{ s with attempts := ⟨t.nextTicket, key, slot, true⟩ :: t.attempts }, ?_, ?_, rfl⟩
  · simp only [lock, hlookUp, claim?, grant?, hfind, hfirst, htaken, hmap]
    simp
  · have htickets := hs.tickets
    have hnewTicket := hs.newTicket
    have hslots := hs.slot
    rw [hattempts] at htickets hnewTicket hslots
    simp only [List.map_cons, List.forall_mem_cons] at htickets hnewTicket hslots
    refine ⟨⟨hs.keys, hs.places, hs.newSlot, htickets, ?_, ?_⟩, ?_, ?_⟩
    · exact List.forall_mem_cons.mpr hnewTicket
    · exact List.forall_mem_cons.mpr hslots
    · exact List.forall_mem_cons.mpr ⟨rfl, h.holds⟩
    · exact List.nodup_cons.mpr ⟨hfree, h.nodup⟩

/-- A lock that somebody holds is not granted. -/
theorem lock_held (h : t.Exclusive) (hheld : key ∈ t.held) :
    ∃ t', t.lock key = (false, t') ∧ t'.Exclusive ∧ t'.held = t.held := by
  obtain ⟨slot, s, hlookUp, hs, hattempts⟩ := h.toSlotted.lookUp key
  have hslot : (key, slot) ∈ s.slots :=
    hs.slot ⟨t.nextTicket, key, slot, false⟩ (hattempts ▸ List.mem_cons_self)
  obtain ⟨a, ha, rfl⟩ := List.mem_map.mp hheld
  have ha' := hs.slot a (hattempts ▸ List.mem_cons_of_mem _ ha)
  obtain rfl := hs.eq_of_key ha' hslot
  have hfirst : s.isFirst ⟨t.nextTicket, a.key, a.slot, false⟩ = false := by
    simp only [isFirst, hattempts, List.all_eq_false]
    exact ⟨a, List.mem_cons_of_mem _ ha, by simpa using h.newTicket a ha⟩
  have hfind : s.attempts.find? (fun b => b.ticket = t.nextTicket) =
      some ⟨t.nextTicket, a.key, a.slot, false⟩ := by
    simp [hattempts]
  have hdropped : (s.drop t.nextTicket).attempts = t.attempts := by
    simp only [drop, hattempts, List.filter_cons]
    simpa using fun b hb => Nat.ne_of_lt (h.newTicket b hb)
  refine ⟨s.drop t.nextTicket, ?_, ⟨hs.drop _, ?_, ?_⟩, ?_⟩
  · simp only [lock, hlookUp, claim?, hfind, hfirst]
    simp
  · rw [hdropped]
    exact h.holds
  · rw [held, hdropped]
    exact h.nodup
  · rw [held, hdropped]
    rfl

/-- A release ends the attempt that holds the lock. -/
theorem unlock (h : t.Exclusive) (hheld : key ∈ t.held) :
    ∃ t', t.unlock key = (true, t') ∧ t'.Exclusive ∧ t'.held = t.held.filter (· ≠ key) := by
  obtain ⟨a, ha, rfl⟩ := List.mem_map.mp hheld
  have hkeys : (t.drop a.ticket).held = t.held.filter (· ≠ a.key) := by
    simp only [held, drop, List.filter_map]
    refine congrArg _ (List.filter_congr fun b hb => ?_)
    by_cases heq : b = a
    · simp [heq]
    · have hticket : b.ticket ≠ a.ticket := fun hsame => heq (h.eq_of_ticket hb ha hsame)
      have hkey : b.key ≠ a.key := fun hsame =>
        heq (List.inj_on_of_nodup_map h.nodup hb ha hsame)
      simp [hticket, hkey]
  refine ⟨t.drop a.ticket, ?_, ⟨h.toSlotted.drop _, ?_, ?_⟩, hkeys⟩
  · rw [LockTable.unlock, h.holder? ha]
  · exact fun b hb => h.holds b (List.mem_of_mem_filter hb)
  · rw [hkeys]
    exact h.nodup.filter _

end Exclusive

end Lending.LockTable
