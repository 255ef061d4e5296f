import Lending.Text.Digits
import Mathlib

/-!
# Numbers written and read

* `decimalValue_decimal`, `decimalValue_padded`: the digits of a number spell it.
* `takeDigits_append`: reading stops behind the digits that were written.
* `takeNumber?_padded`: a number of fixed width is read back, whatever follows it.
* `decimal?_decimal`, `decimal?_padded`: so is a number that is the whole text.
* `hexadecimal?_replicate_append`: so is a number in hexadecimal.
-/

namespace Lending.Text

/-- What follows does not begin with a digit. -/
def NoDigitNext (rest : List Char) : Prop := ∀ c ∈ rest.head?, c.isDigit = false

theorem noDigitNext_cons {c : Char} {rest : List Char} (h : c.isDigit = false) :
    NoDigitNext (c :: rest) := by simpa [NoDigitNext] using h

/-! ## The digits of a number -/

theorem decimalValue_eq (digits : List Char) :
    decimalValue digits = Nat.ofDigitChars 10 digits 0 :=
  Nat.ofDigitChars_eq_foldl.symm

theorem decimalValue_decimal (n : Nat) : decimalValue (decimal n) = n := by
  rw [decimalValue_eq, decimal, Nat.ofDigitChars_ten_toDigits]

theorem isDigit_of_mem_decimal {n : Nat} {c : Char} (h : c ∈ decimal n) : c.isDigit = true :=
  Nat.isDigit_of_mem_toDigits (by decide) (by decide) h

theorem decimal_ne_nil (n : Nat) : decimal n ≠ [] := Nat.toDigits_ne_nil

/-- No zero stands before another digit. -/
theorem decimal_head (n : Nat) (c : Char) (cs : List Char) : decimal n ≠ '0' :: c :: cs := by
  induction n using Nat.strongRecOn generalizing c cs with
  | _ n ih =>
    intro h
    rw [decimal, Nat.toDigits_eq_if (by decide)] at h
    split at h
    · simp at h
    · rename_i hn
      -- the digits before the last are those of `n / 10`, which is not zero
      cases hd : Nat.toDigits 10 (n / 10) with
      | nil => exact Nat.toDigits_ne_nil hd
      | cons d ds =>
        rw [hd, List.cons_append, List.cons.injEq] at h
        obtain ⟨rfl, _⟩ := h
        cases ds with
        | cons e es => exact ih (n / 10) (by omega) e es hd
        | nil =>
          have hv := decimalValue_decimal (n / 10)
          rw [decimal, hd] at hv
          simp [decimalValue] at hv
          omega

theorem length_decimal_le {n k : Nat} (hk : 0 < k) (h : n < 10 ^ k) : (decimal n).length ≤ k :=
  (Nat.length_toDigits_le_iff (by decide) hk).mpr h

/-! ## Leading zeros -/

theorem isDigit_of_mem_padded {width n : Nat} {c : Char} (h : c ∈ padded width n) :
    c.isDigit = true := by
  simp only [padded, List.mem_append, List.mem_replicate] at h
  rcases h with ⟨_, rfl⟩ | h
  · rfl
  · exact isDigit_of_mem_decimal h

theorem decimalValue_padded (width n : Nat) : decimalValue (padded width n) = n := by
  rw [decimalValue_eq, padded, Nat.ofDigitChars_append, Nat.ofDigitChars_replicate_zero,
    Nat.mul_zero, ← decimalValue_eq, decimalValue_decimal]

theorem length_padded {width n : Nat} (hw : 0 < width) (h : n < 10 ^ width) :
    (padded width n).length = width := by
  have := length_decimal_le hw h
  simp only [padded, List.length_append, List.length_replicate]
  omega

theorem padded_ne_nil (width n : Nat) : padded width n ≠ [] := by
  simp [padded, decimal_ne_nil]

/-! ## Reading -/

theorem takeDigits_append {digits rest : List Char} {most : Nat}
    (hd : ∀ c ∈ digits, c.isDigit = true) (hr : most = digits.length ∨ NoDigitNext rest)
    (hm : digits.length ≤ most) : takeDigits most (digits ++ rest) = (digits, rest) := by
  induction digits generalizing most with
  | nil =>
    cases most with
    | zero => rfl
    | succ most =>
      cases rest with
      | nil => rfl
      | cons c cs =>
        have : c.isDigit = false := by simpa [NoDigitNext] using hr
        simp [takeDigits, this]
  | cons d ds ih =>
    cases most with
    | zero => simp at hm
    | succ most =>
      have hrest := ih (fun c hc => hd c (List.mem_cons_of_mem _ hc)) (by simpa using hr)
        (by simpa using hm)
      simp [takeDigits, hd d List.mem_cons_self, hrest]

theorem takeNumber?_append {digits rest : List Char} {most : Nat}
    (hd : ∀ c ∈ digits, c.isDigit = true) (hne : digits ≠ [])
    (hr : most = digits.length ∨ NoDigitNext rest) (hm : digits.length ≤ most) :
    takeNumber? most (digits ++ rest) = some (decimalValue digits, rest) := by
  rw [takeNumber?, takeDigits_append hd hr hm]
  cases digits with
  | nil => exact absurd rfl hne
  | cons => rfl

/-- A number of fixed width is read back, also before further digits. -/
theorem takeNumber?_padded {width n : Nat} (hw : 0 < width) (h : n < 10 ^ width)
    (rest : List Char) : takeNumber? width (padded width n ++ rest) = some (n, rest) := by
  rw [takeNumber?_append (fun _ => isDigit_of_mem_padded) (padded_ne_nil _ _)
    (.inl (length_padded hw h).symm) (Nat.le_of_eq (length_padded hw h)), decimalValue_padded]

theorem decimal?_decimal (n : Nat) : decimal? (decimal n) = some n := by
  rw [decimal?, if_pos, decimalValue_decimal]
  exact ⟨decimal_ne_nil n, List.all_eq_true.mpr fun _ => isDigit_of_mem_decimal⟩

theorem decimal?_padded (width n : Nat) : decimal? (padded width n) = some n := by
  rw [decimal?, if_pos, decimalValue_padded]
  exact ⟨padded_ne_nil width n, List.all_eq_true.mpr fun _ => isDigit_of_mem_padded⟩

/-! ## Hexadecimal digits -/

theorem hexDigit?_digitChar : ∀ d < 16, hexDigit? (Nat.digitChar d) = some d := by decide

theorem foldlM_hexDigit? (n : Nat) :
    (Nat.toDigits 16 n).foldlM (fun value c => (hexDigit? c).map (16 * value + ·)) 0 = some n := by
  induction n using Nat.strongRecOn with
  | _ n ih =>
    rw [Nat.toDigits_eq_if (by decide)]
    split
    · rename_i hn
      simp [hexDigit?_digitChar n hn]
    · rename_i hn
      rw [List.foldlM_append, ih (n / 16) (by omega), Option.bind_eq_bind, Option.bind_some]
      simp [hexDigit?_digitChar (n % 16) (by omega)]
      omega

/-- Zeros that stand before a number do not change it. -/
theorem hexadecimal?_replicate_append (zeros n : Nat) :
    hexadecimal? (List.replicate zeros '0' ++ Nat.toDigits 16 n) = some n := by
  have hne : List.replicate zeros '0' ++ Nat.toDigits 16 n ≠ [] :=
    List.append_ne_nil_of_right_ne_nil _ Nat.toDigits_ne_nil
  have hzeros : (List.replicate zeros '0').foldlM
      (fun value c => (hexDigit? c).map (16 * value + ·)) 0 = some 0 := by
    induction zeros with
    | zero => rfl
    | succ zeros ih => exact ih (by simp)
  rw [hexadecimal?, if_neg hne, List.foldlM_append, hzeros]
  exact foldlM_hexDigit? n

end Lending.Text
