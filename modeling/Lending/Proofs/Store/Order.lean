import Lending.Store.Table
import Mathlib

/-!
# Tables in order

What holds of a table whose rows stand in the order of their keys. `insert` and whatever takes rows
away keep the order, and an ordered table is determined by its look-ups.

* `Ascending`: the order; `Keyed`: every row stands under its own key.
* `Ascending.get?_eq_some`: a look-up finds a row that the table has.
* `Ascending.ext`: tables with the same look-ups are the same.
* `Ascending.rows_insert_known`, `rows_insert_last`: where `insert` puts a row.
-/

namespace Lending.Table

variable {κ α : Type}

/-- The keys grow from row to row. -/
def Ascending [Ord κ] (t : Table κ α) : Prop :=
  t.rows.Pairwise fun a b => compare a.1 b.1 = .lt

/-- Every row stands under the key that it has itself. -/
def Keyed (key : α → κ) (t : Table κ α) : Prop := ∀ row ∈ t.rows, row.1 = key row.2

theorem ascending_empty [Ord κ] : (empty : Table κ α).Ascending := .nil

theorem keyed_empty (key : α → κ) : (empty : Table κ α).Keyed key := fun _ h => nomatch h

theorem get?_eq_none [DecidableEq κ] {t : Table κ α} {key : κ} :
    t.get? key = none ↔ ∀ row ∈ t.rows, row.1 ≠ key := by
  simp [get?]

theorem contains_iff [DecidableEq κ] {t : Table κ α} {key : κ} :
    t.contains key = true ↔ ∃ value, t.get? key = some value :=
  Option.isSome_iff_exists

theorem mem_values {t : Table κ α} {value : α} :
    value ∈ t.values ↔ ∃ key, (key, value) ∈ t.rows := by
  simp [values]

theorem Keyed.filterRows {key : α → κ} {t : Table κ α} (h : t.Keyed key) (p : α → Bool) :
    (t.filterRows p).Keyed key :=
  fun row hrow => h row (List.mem_filter.mp hrow).1

variable [Ord κ] {t : Table κ α}

/-! ## Changes -/

theorem mem_insertRow {key : κ} {value : α} {rows : List (κ × α)} {row : κ × α}
    (h : row ∈ insertRow key value rows) : row = (key, value) ∨ row ∈ rows := by
  induction rows with
  | nil => simpa [insertRow] using h
  | cons first rest ih =>
    simp only [insertRow] at h
    split at h
    · exact List.mem_cons.mp h
    · exact (List.mem_cons.mp h).imp_right (List.mem_cons_of_mem _)
    · rcases List.mem_cons.mp h with rfl | hrest
      · exact .inr List.mem_cons_self
      · exact (ih hrest).imp_right (List.mem_cons_of_mem _)

theorem Keyed.insert {key : α → κ} (h : t.Keyed key) (value : α) :
    (t.insert (key value) value).Keyed key := by
  intro row hrow
  rcases mem_insertRow hrow with rfl | hrest
  · rfl
  · exact h row hrest

theorem Ascending.filterRows (h : t.Ascending) (p : α → Bool) : (t.filterRows p).Ascending :=
  List.Pairwise.filter _ h

/-! ## Look-up -/

section LookUp

variable [Std.LawfulEqOrd κ]

theorem ne_of_compare_lt {a b : κ} (h : compare a b = .lt) : a ≠ b := by
  rintro rfl
  simp at h

theorem Ascending.nodup (h : t.Ascending) : t.rows.Nodup :=
  List.Pairwise.imp (fun hlt heq => ne_of_compare_lt hlt (congrArg Prod.fst heq)) h

variable [DecidableEq κ]

theorem Ascending.get?_eq_some (h : t.Ascending) {key : κ} {value : α} :
    t.get? key = some value ↔ (key, value) ∈ t.rows := by
  rcases t with ⟨rows⟩
  simp only [Ascending] at h
  induction rows with
  | nil => simp [get?]
  | cons row rows ih =>
    rw [get?_cons, List.mem_cons]
    rw [List.pairwise_cons] at h
    split
    · rename_i hkey
      subst hkey
      constructor
      · rintro ⟨⟩
        exact .inl rfl
      · rintro (heq | hmem)
        · rw [← heq]
        · exact absurd rfl (ne_of_compare_lt (h.1 (_, value) hmem))
    · rename_i hkey
      rw [ih h.2]
      constructor
      · exact .inr
      · rintro (heq | hmem)
        · exact absurd (congrArg Prod.fst heq).symm hkey
        · exact hmem

theorem Ascending.mem_values (h : t.Ascending) {key : α → κ} (hk : t.Keyed key) {value : α} :
    value ∈ t.values ↔ t.get? (key value) = some value := by
  rw [Table.mem_values]
  constructor
  · rintro ⟨k, hmem⟩
    rw [← show k = key value from hk _ hmem]
    exact h.get?_eq_some.mpr hmem
  · exact fun hget => ⟨_, h.get?_eq_some.mp hget⟩

end LookUp

/-! ## Places -/

section Places

variable [Std.TransOrd κ]

/-- A row with a new highest key stands last. -/
theorem rows_insert_last {key : κ} (h : ∀ row ∈ t.rows, compare row.1 key = .lt) (value : α) :
    (t.insert key value).rows = t.rows ++ [(key, value)] := by
  rcases t with ⟨rows⟩
  simp only [Table.insert] at h ⊢
  induction rows with
  | nil => rfl
  | cons row rows ih =>
    have hgt : compare key row.1 = .gt := Std.OrientedCmp.gt_iff_lt.mpr (h row List.mem_cons_self)
    simp [insertRow, hgt, ih fun r hr => h r (List.mem_cons_of_mem _ hr)]

variable [Std.LawfulEqOrd κ]

/-- An ordered table is determined by its look-ups. -/
theorem Ascending.ext [DecidableEq κ] {t' : Table κ α} (h : t.Ascending) (h' : t'.Ascending)
    (heq : ∀ key, t.get? key = t'.get? key) : t = t' := by
  have hmem : ∀ row, row ∈ t.rows ↔ row ∈ t'.rows := fun row => by
    rw [← h.get?_eq_some, ← h'.get?_eq_some, heq]
  have hperm : t.rows.Perm t'.rows := (List.perm_ext_iff_of_nodup h.nodup h'.nodup).mpr hmem
  have hrows : t.rows = t'.rows := hperm.eq_of_pairwise (fun a b _ _ hab hba => by
    have hgt : compare a.1 b.1 = .gt := Std.OrientedCmp.gt_iff_lt.mpr hba
    rw [hgt] at hab
    cases hab) h h'
  cases t
  cases t'
  simp_all

theorem Ascending.insert (h : t.Ascending) (key : κ) (value : α) :
    (t.insert key value).Ascending := by
  rcases t with ⟨rows⟩
  simp only [Ascending, Table.insert] at h ⊢
  induction rows with
  | nil => simp [insertRow]
  | cons row rows ih =>
    rw [List.pairwise_cons] at h
    simp only [insertRow]
    split
    · rename_i hlt
      refine List.pairwise_cons.mpr ⟨?_, List.pairwise_cons.mpr h⟩
      intro other hother
      rcases List.mem_cons.mp hother with rfl | hrest
      · exact hlt
      · exact Std.TransCmp.lt_trans hlt (h.1 other hrest)
    · rename_i heq
      obtain rfl := Std.LawfulEqOrd.eq_of_compare heq
      exact List.pairwise_cons.mpr h
    · rename_i hgt
      refine List.pairwise_cons.mpr ⟨?_, ih h.2⟩
      intro other hother
      rcases mem_insertRow hother with rfl | hrest
      · exact Std.OrientedCmp.gt_iff_lt.mp hgt
      · exact h.1 other hrest

/-- A row that replaces another stands in its place. -/
theorem Ascending.rows_insert_known [DecidableEq κ] (h : t.Ascending) {key : κ} {old : α}
    (hget : t.get? key = some old) :
    ∃ before after, t.rows = before ++ (key, old) :: after ∧
      ∀ value, (t.insert key value).rows = before ++ (key, value) :: after := by
  obtain ⟨before, after, hrows⟩ := List.append_of_mem (h.get?_eq_some.mp hget)
  refine ⟨before, after, hrows, ?_⟩
  intro value
  rcases t with ⟨rows⟩
  simp only [Ascending, Table.insert] at h hrows ⊢
  subst hrows
  clear hget
  induction before with
  | nil => simp [insertRow]
  | cons row before ih =>
    rw [List.cons_append, List.pairwise_cons] at h
    have hlt : compare row.1 key = .lt := h.1 (key, old) (by simp)
    have hgt : compare key row.1 = .gt := Std.OrientedCmp.gt_iff_lt.mpr hlt
    simp [insertRow, hgt, ih h.2]

end Places

end Lending.Table
