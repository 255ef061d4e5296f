/-!
# Ordered tables

Rows under keys, listed in the order of the keys. A table is the list of its rows; `insert` puts a
row in its place and replaces the row that had its key.

* `get?_insert`: what a look-up finds after a row was put in.
* `insert_map`: a change of keys that keeps their order commutes with `insert`.
-/

namespace Lending

/-- Rows under keys, in the order of the keys. -/
structure Table (κ α : Type) where
  rows : List (κ × α)
  deriving DecidableEq

namespace Table

variable {κ α : Type}

/-- The table without rows. -/
def empty : Table κ α := ⟨[]⟩

instance : Inhabited (Table κ α) := ⟨empty⟩

/-- The rows in the order of their keys. -/
def values (t : Table κ α) : List α := t.rows.map Prod.snd

/-- The keys in order. -/
def keys (t : Table κ α) : List κ := t.rows.map Prod.fst

/-- The row under a key, if there is one. -/
def get? [DecidableEq κ] (t : Table κ α) (key : κ) : Option α :=
  (t.rows.find? fun row => row.1 = key).map Prod.snd

/-- Whether there is a row under a key. -/
def contains [DecidableEq κ] (t : Table κ α) (key : κ) : Bool := (t.get? key).isSome

/-- Puts a row before the first row with a higher key. -/
def insertRow [Ord κ] (key : κ) (value : α) : List (κ × α) → List (κ × α)
  | [] => [(key, value)]
  | row :: rows =>
    match compare key row.1 with
    | .lt => (key, value) :: row :: rows
    | .eq => (key, value) :: rows
    | .gt => row :: insertRow key value rows

/-- Puts a row in its place; a row that had its key is replaced. -/
def insert [Ord κ] (t : Table κ α) (key : κ) (value : α) : Table κ α :=
  ⟨insertRow key value t.rows⟩

/-- The table without the row of a key. -/
def erase [DecidableEq κ] (t : Table κ α) (key : κ) : Table κ α :=
  ⟨t.rows.filter fun row => row.1 ≠ key⟩

/-- The rows whose values satisfy `p`. -/
def filterRows (t : Table κ α) (p : α → Bool) : Table κ α := ⟨t.rows.filter fun row => p row.2⟩

/-- The number of rows. -/
def size (t : Table κ α) : Nat := t.rows.length

/-- The highest key, if there are rows. -/
def lastKey? (t : Table κ α) : Option κ := t.rows.getLast?.map Prod.fst

/-! ## Look-up -/

section LookUp

variable [DecidableEq κ]

@[simp]
theorem get?_empty (key : κ) : (empty : Table κ α).get? key = none := rfl

theorem get?_cons (row : κ × α) (rows : List (κ × α)) (key : κ) :
    (⟨row :: rows⟩ : Table κ α).get? key = if row.1 = key then some row.2 else get? ⟨rows⟩ key := by
  by_cases h : row.1 = key <;> simp [get?, h]

theorem get?_insert [Ord κ] [Std.LawfulEqOrd κ] (t : Table κ α) (key : κ) (value : α) (other : κ) :
    (t.insert key value).get? other = if key = other then some value else t.get? other := by
  rcases t with ⟨rows⟩
  simp only [insert]
  induction rows with
  | nil => simp [insertRow, get?_cons]
  | cons row rows ih =>
    simp only [insertRow]
    split
    · rw [get?_cons]
    · rename_i heq
      have := Std.compare_eq_iff_eq.mp heq
      rw [get?_cons, get?_cons]
      grind
    · rename_i hgt
      have hne : row.1 ≠ key := by
        rintro rfl
        simp at hgt
      rw [get?_cons, get?_cons, ih]
      grind

end LookUp

/-! ## Change of keys -/

/-- The table with other keys and values. -/
def map {κ' α' : Type} (f : κ → κ') (g : α → α') (t : Table κ α) : Table κ' α' :=
  ⟨t.rows.map fun row => (f row.1, g row.2)⟩

theorem insert_map {κ' α' : Type} [Ord κ] [Ord κ'] {f : κ → κ'} {g : α → α'}
    (hf : ∀ a b, compare (f a) (f b) = compare a b) (t : Table κ α) (key : κ) (value : α) :
    (t.map f g).insert (f key) (g value) = (t.insert key value).map f g := by
  rcases t with ⟨rows⟩
  simp only [map, insert, mk.injEq]
  induction rows with
  | nil => rfl
  | cons row rows ih =>
    simp only [List.map_cons, insertRow, hf]
    cases compare key row.1 <;> simp [ih]

end Table

end Lending
