import Lending.Proofs.Store.Ledger

/-!
# Schedules in the ledger

How the schedules of all owners change when entries are written. A new schedule is added to the
others, entries that are written again change their status only, and removing a schedule that was
just added leaves the table as it was.

* `restatus`: the table with other statuses.
* `insertBatch_restatus`: entries written again with a new status.
* `installmentsOf_restatus`, `installmentsOf_createBatch`: what an owner's schedule is then.
-/

namespace Lending

/-! ## Order by sequence -/

section Sequence

theorem mem_insertBySequence {entry e : Installment} {entries : List Installment} :
    e ∈ insertBySequence entry entries ↔ e = entry ∨ e ∈ entries := by
  induction entries with
  | nil => simp [insertBySequence]
  | cons first rest ih =>
    rw [insertBySequence]
    split
    · simp
    · simp only [List.mem_cons, ih]
      exact or_left_comm

theorem mem_bySequence {e : Installment} {entries : List Installment} :
    e ∈ bySequence entries ↔ e ∈ entries := by
  induction entries with
  | nil => rfl
  | cons first rest ih =>
    rw [bySequence, List.foldr_cons, mem_insertBySequence, List.mem_cons, ← ih]
    rfl

theorem perm_insertBySequence (entry : Installment) (entries : List Installment) :
    (insertBySequence entry entries).Perm (entry :: entries) := by
  induction entries with
  | nil => rfl
  | cons first rest ih =>
    rw [insertBySequence]
    split
    · rfl
    · exact (ih.cons first).trans (.swap entry first rest)

theorem perm_bySequence (entries : List Installment) : (bySequence entries).Perm entries := by
  induction entries with
  | nil => rfl
  | cons entry rest ih => exact (perm_insertBySequence entry _).trans (ih.cons entry)

theorem insertBySequence_map {f : Installment → Installment}
    (hf : ∀ e, (f e).sequence = e.sequence) (entry : Installment) (entries : List Installment) :
    insertBySequence (f entry) (entries.map f) = (insertBySequence entry entries).map f := by
  induction entries with
  | nil => rfl
  | cons first rest ih =>
    simp only [List.map_cons, insertBySequence, hf]
    split <;> simp [ih]

theorem bySequence_map {f : Installment → Installment} (hf : ∀ e, (f e).sequence = e.sequence)
    (entries : List Installment) : bySequence (entries.map f) = (bySequence entries).map f := by
  induction entries with
  | nil => rfl
  | cons entry rest ih =>
    simp only [bySequence, List.map_cons, List.foldr_cons] at ih ⊢
    rw [ih, insertBySequence_map hf]

/-- Entries that stand by sequence stay as they are. -/
theorem bySequence_of_pairwise {entries : List Installment}
    (h : entries.Pairwise fun a b => a.sequence ≤ b.sequence) : bySequence entries = entries := by
  induction entries with
  | nil => rfl
  | cons entry rest ih =>
    rw [List.pairwise_cons] at h
    have hrest := ih h.2
    simp only [bySequence, List.foldr_cons] at hrest ⊢
    rw [hrest]
    cases rest with
    | nil => rfl
    | cons first rest => rw [insertBySequence, if_pos (h.1 first List.mem_cons_self)]

end Sequence

/-- The entry without its number, its owner and its status. -/
def Installment.line (e : Installment) : Line := ⟨e.sequence, e.dueDate, e.amount⟩

namespace Ledger

variable {t : Table InstallmentId Installment}

/-! ## Written again -/

/-- The table with the statuses that `status` gives its entries. -/
def restatus (status : Installment → InstallmentStatus) (t : Table InstallmentId Installment) :
    Table InstallmentId Installment :=
  ⟨t.rows.map fun row => (row.1, { row.2 with status := status row.2 })⟩

theorem values_restatus (status : Installment → InstallmentStatus) :
    (restatus status t).values = t.values.map fun e => { e with status := status e } := by
  simp [restatus, Table.values]

theorem get?_restatus (status : Installment → InstallmentStatus) (id : InstallmentId) :
    (restatus status t).get? id = (t.get? id).map fun e => { e with status := status e } := by
  simp [restatus, Table.get?, List.find?_map, Function.comp_def]

theorem restatus_booked (h : t.Booked Installment.id) (status : Installment → InstallmentStatus) :
    (restatus status t).Booked Installment.id where
  ascending := List.pairwise_map.mpr h.ascending
  keyed := by
    intro row hrow
    obtain ⟨old, hold, rfl⟩ := List.mem_map.mp hrow
    exact h.keyed old hold

theorem get?_insertBatch (batch : List Installment) (id : InstallmentId) :
    (insertBatch t batch).get? id = (batch.reverse.find? fun e => e.id = id).or (t.get? id) := by
  induction batch generalizing t with
  | nil => rfl
  | cons entry rest ih =>
    have hstep := ih (t := t.insert entry.id entry)
    rw [Table.get?_insert] at hstep
    rw [List.reverse_cons, List.find?_append, Option.or_assoc]
    refine hstep.trans (congrArg _ ?_)
    by_cases h : entry.id = id <;> simp [h]

/-- Entries of the table that are written again with another status. -/
theorem insertBatch_restatus (h : t.Booked Installment.id) (status : InstallmentStatus)
    {entries : List Installment} (hmem : ∀ e ∈ entries, e ∈ t.values) :
    insertBatch t (entries.map fun e => { e with status }) =
      restatus (fun e => if e ∈ entries then status else e.status) t := by
  apply (insertBatch_booked h _).ascending.ext (restatus_booked h _).ascending
  intro id
  rw [get?_insertBatch, get?_restatus]
  cases hfind : (entries.map fun e => { e with status }).reverse.find? fun e => e.id = id with
  | some written =>
    have hid : written.id = id := by simpa using List.find?_some hfind
    have hwritten := List.mem_of_find?_eq_some hfind
    obtain ⟨e, he, rfl⟩ := List.mem_map.mp (List.mem_reverse.mp hwritten)
    have hget : t.get? id = some e := hid ▸ h.mem_values.mp (hmem e he)
    simp [hget, he]
  | none =>
    cases hget : t.get? id with
    | none => rfl
    | some e =>
      have hid : e.id = id := h.id_of_get? hget
      have hnot : e ∉ entries := fun he => by
        have hnone := List.find?_eq_none.mp hfind { e with status }
          (List.mem_reverse.mpr (List.mem_map_of_mem he))
        simp [hid] at hnone
      simp [hnot]

/-- Pending entries that were written with another status and are put back. -/
theorem insertBatch_revert (h : t.Booked Installment.id) (status : InstallmentStatus)
    {entries : List Installment} (hmem : ∀ e ∈ entries, e ∈ t.values) :
    insertBatch (insertBatch t (entries.map fun e => { e with status })) entries = t := by
  have hb := insertBatch_booked h (entries.map fun e => { e with status })
  apply (insertBatch_booked hb entries).ascending.ext h.ascending
  intro id
  rw [get?_insertBatch, get?_insertBatch]
  cases hfind : entries.reverse.find? fun e => e.id = id with
  | some e =>
    have hid : e.id = id := by simpa using List.find?_some hfind
    have he : e ∈ entries := List.mem_reverse.mp (List.mem_of_find?_eq_some hfind)
    exact (hid ▸ h.mem_values.mp (hmem e he)).symm
  | none =>
    have hnone : (entries.map fun e => { e with status }).reverse.find? (fun e => e.id = id) =
        none := by
      rw [List.find?_eq_none] at hfind ⊢
      intro written hwritten
      obtain ⟨e, he, rfl⟩ := List.mem_map.mp (List.mem_reverse.mp hwritten)
      exact hfind e (List.mem_reverse.mpr he)
    rw [hnone]
    rfl

/-! ## Schedules of owners -/

variable {l l' : Ledger}

theorem mem_installmentsOf {owner : Owner} {e : Installment} :
    e ∈ l.installmentsOf owner ↔ e ∈ l.installments.values ∧ e.owner = owner := by
  simp [installmentsOf, mem_bySequence]

/-- No entry stands twice in a schedule. -/
theorem nodup_installmentsOf (h : l.Ordered) (owner : Owner) :
    (l.installmentsOf owner).Nodup :=
  (perm_bySequence _).nodup_iff.mpr
    ((List.Nodup.of_map Installment.id h.installments.nodup_ids).filter _)

theorem installmentsOf_congr (h : l'.installments = l.installments) (owner : Owner) :
    l'.installmentsOf owner = l.installmentsOf owner := by
  rw [installmentsOf, h]
  rfl

/-- A change of statuses changes each schedule entry by entry. -/
theorem installmentsOf_restatus {status : Installment → InstallmentStatus}
    (h : l'.installments = restatus status l.installments) (owner : Owner) :
    l'.installmentsOf owner =
      (l.installmentsOf owner).map fun e => { e with status := status e } := by
  rw [installmentsOf, installmentsOf, h, values_restatus, List.filter_map]
  exact bySequence_map (f := fun e => { e with status := status e }) (fun _ => rfl) _

/-- What does not change in an owner's schedule once it is written. -/
def linesOf (l : Ledger) (owner : Owner) : List Line :=
  (l.installmentsOf owner).map Installment.line

theorem linesOf_congr (h : l'.installments = l.installments) (owner : Owner) :
    l'.linesOf owner = l.linesOf owner := by
  rw [linesOf, installmentsOf_congr h]
  rfl

theorem linesOf_restatus {status : Installment → InstallmentStatus}
    (h : l'.installments = restatus status l.installments) (owner : Owner) :
    l'.linesOf owner = l.linesOf owner := by
  rw [linesOf, installmentsOf_restatus h, List.map_map]
  rfl

theorem owner_of_batchOwner {batch : List Installment} {owner : Owner}
    (h : batchOwner batch = .ok owner) : batch ≠ [] ∧ ∀ e ∈ batch, e.owner = owner := by
  unfold batchOwner at h
  split at h
  · cases h
  · split at h
    · rename_i first rest hall
      obtain rfl := Except.ok.inj h
      refine ⟨List.cons_ne_nil _ _, ?_⟩
      intro e he
      rcases List.mem_cons.mp he with rfl | hrest
      · rfl
      · exact of_decide_eq_true (List.all_eq_true.mp hall e hrest)
    · cases h

section CreateBatch

variable {batch numbered : List Installment}

/-- A new schedule stands behind all entries before it. -/
theorem values_createBatch (h : l.Sound) (hleft : l.counters.Left (.createBatch batch))
    (hcreate : l.createBatch batch = .ok (numbered, l')) :
    l'.installments.values = l.installments.values ++ numbered := by
  obtain ⟨_, -, -, rfl, rfl⟩ := createBatch_ok.mp hcreate
  obtain ⟨hbounds, hgrow⟩ := numberBatch_ascending hleft
  exact values_insertBatch h.upToInstallment (fun e he => (hbounds e he).1) hgrow

theorem map_createBatch (hcreate : l.createBatch batch = .ok (numbered, l')) {β : Type}
    {f : Installment → β} (hf : ∀ entry id, f { entry with id } = f entry) :
    numbered.map f = batch.map f := by
  obtain ⟨_, -, -, rfl, -⟩ := createBatch_ok.mp hcreate
  exact map_numberBatch hf

theorem owner_createBatch {owner : Owner} (howner : batchOwner batch = .ok owner)
    (hcreate : l.createBatch batch = .ok (numbered, l')) :
    (∀ e ∈ numbered, e.owner = owner) ∧ ∀ e ∈ l.installments.values, e.owner ≠ owner := by
  have howners := map_createBatch hcreate (f := Installment.owner) fun _ _ => rfl
  obtain ⟨o, ho, hnone, -, -⟩ := createBatch_ok.mp hcreate
  obtain rfl : o = owner := Except.ok.inj (ho.symm.trans howner)
  refine ⟨?_, hnone⟩
  intro e he
  have hmem := List.mem_map_of_mem (f := Installment.owner) he
  rw [howners] at hmem
  obtain ⟨e', he', heq⟩ := List.mem_map.mp hmem
  rw [← heq]
  exact (owner_of_batchOwner howner).2 e' he'

/-- The schedules after a new one was written by sequence. -/
theorem installmentsOf_createBatch (h : l.Sound) (hleft : l.counters.Left (.createBatch batch))
    (hcreate : l.createBatch batch = .ok (numbered, l')) {owner : Owner}
    (howner : batchOwner batch = .ok owner)
    (hsorted : batch.Pairwise fun a b => a.sequence ≤ b.sequence) (other : Owner) :
    l'.installmentsOf other = if other = owner then numbered else l.installmentsOf other := by
  obtain ⟨hnumbered, hnone⟩ := owner_createBatch howner hcreate
  rw [installmentsOf, values_createBatch h hleft hcreate, List.filter_append]
  split
  · rename_i heq
    subst heq
    have hold : (l.installments.values.filter fun e => e.owner = other) = [] :=
      List.filter_eq_nil_iff.mpr fun e he => by simpa using hnone e he
    have hnew : (numbered.filter fun e => e.owner = other) = numbered :=
      List.filter_eq_self.mpr fun e he => by simpa using hnumbered e he
    rw [hold, hnew, List.nil_append]
    apply bySequence_of_pairwise
    have hsequences := map_createBatch hcreate (f := Installment.sequence) fun _ _ => rfl
    exact List.pairwise_map.mp (hsequences ▸ List.pairwise_map.mpr hsorted)
  · rename_i hne
    have hnew : (numbered.filter fun e => e.owner = other) = [] :=
      List.filter_eq_nil_iff.mpr fun e he => by
        simpa [hnumbered e he] using fun heq => hne (Eq.symm heq)
    rw [hnew, List.append_nil]
    rfl

/-- Removing a schedule that was just written leaves the entries before it. -/
theorem deleteInstallmentsOf_createBatch (h : l.Sound)
    (hleft : l.counters.Left (.createBatch batch))
    (hcreate : l.createBatch batch = .ok (numbered, l')) {owner : Owner}
    (howner : batchOwner batch = .ok owner) :
    (l'.deleteInstallmentsOf owner).2.installments = l.installments := by
  obtain ⟨hnumbered, hnone⟩ := owner_createBatch howner hcreate
  have hanswer : l.answer (.createBatch batch) = .ok (numbered, l') := hcreate
  have hsound : l'.Ordered := h.toOrdered.answer hanswer
  refine (hsound.installments.filterRows fun e => e.owner ≠ owner).eq_of_values_eq h.installments ?_
  rw [Table.values_filterRows, values_createBatch h hleft hcreate, List.filter_append,
    List.filter_eq_self.mpr fun e he => by simpa using hnone e he,
    List.filter_eq_nil_iff.mpr fun e he => by simpa using hnumbered e he, List.append_nil]

end CreateBatch

end Ledger

end Lending
