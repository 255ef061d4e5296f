import Lending.Proofs.Csv.Writer
import Lending.Proofs.Text.Digits
import Lending.Report
import Mathlib

/-!
# The payments report read back

The report is read with nothing but the rules of CSV and the names of its columns. A user's name may
hold anything: it comes back as it is and does not reach into other fields or rows.

* `Report.major?`: the number that a text with two decimal places stands for.
* `Report.Shows`: what the fields of a row say of a payment.
* `Report.texts?_toText`: the report is its header and a row for every payment.
-/

namespace Lending.Report

/-! ## Major units -/

/-- The number in a text of major units and two decimal places. -/
def major? (text : String) : Option ℚ :=
  match text.toList.splitOn '.' with
  | [whole, cents] => do
    let whole ← Text.decimal? whole
    let hundredths ← Text.decimal? cents
    if cents.length = 2 then some (whole + hundredths / 100) else none
  | _ => none

theorem major?_majorChars (minor : Nat) :
    major? (String.ofList (majorChars minor)) = some ((minor : ℚ) / 100) := by
  have hpoint : ∀ part ∈ [Text.decimal (minor / 100), Text.padded 2 (minor % 100)], '.' ∉ part := by
    intro part hpart hmem
    rcases List.mem_pair.mp hpart with rfl | rfl
    · cases Text.isDigit_of_mem_decimal hmem
    · cases Text.isDigit_of_mem_padded hmem
  have hsplit : (majorChars minor).splitOn '.' =
      [Text.decimal (minor / 100), Text.padded 2 (minor % 100)] := by
    rw [← List.splitOn_intercalate '.' hpoint (List.cons_ne_nil _ _), List.intercalate_cons_cons,
      List.intercalate_singleton, List.append_assoc]
    rfl
  have hlength : (Text.padded 2 (minor % 100)).length = 2 :=
    Text.length_padded (by decide) (Nat.mod_lt minor (by decide))
  have hworth : ((minor / 100 : ℕ) : ℚ) + ((minor % 100 : ℕ) : ℚ) / 100 = minor / 100 := by
    have hdivide : ((100 * (minor / 100) + minor % 100 : ℕ) : ℚ) = minor :=
      congrArg Nat.cast (Nat.div_add_mod minor 100)
    push_cast at hdivide
    linarith
  rw [major?, String.toList_ofList, hsplit]
  simp [Text.decimal?_decimal, Text.decimal?_padded, hlength, hworth]

/-! ## Sums -/

/-- The sum of the entries of a payment in minor units. -/
def total (d : PaymentDetails) : Nat := (d.installments.map (·.amount.toNat)).sum

theorem scheduled_eq_total (d : PaymentDetails) : scheduled d.installments = total d := by
  rw [scheduled, total, List.sum, List.foldr_map]

theorem toNat_foldl_scheduled (entries : List Installment) (start : UInt64) :
    (entries.foldl (fun sum entry => sum + entry.amount.value) start).toNat =
      (start.toNat + (entries.map (·.amount.toNat)).sum) % UInt64.size := by
  induction entries generalizing start with
  | nil => exact (Nat.mod_eq_of_lt start.toNat_lt_size).symm
  | cons entry entries ih =>
    rw [List.foldl_cons, ih, UInt64.toNat_add, List.map_cons, List.sum_cons, ← Nat.add_assoc,
      Nat.mod_add_mod]
    rfl

theorem toNat_scheduledTotal {d : PaymentDetails} (h : total d < UInt64.size) :
    (scheduledTotal d.installments).toNat = total d := by
  rw [scheduledTotal, toNat_foldl_scheduled, UInt64.toNat_zero, Nat.zero_add]
  exact Nat.mod_eq_of_lt h

/-! ## Rows -/

/-- The field of a row in a column of the report. -/
def field? (fields : List String) (column : String) : Option String :=
  (header.zip fields).lookup column

/-- The number in a column of digits. -/
def number? (fields : List String) (column : String) : Option Nat :=
  (field? fields column).bind fun text => Text.decimal? text.toList

/-- The number in a column of major units. -/
def money? (fields : List String) (column : String) : Option ℚ :=
  (field? fields column).bind major?

/-- Fields that say of a payment what it is, and of its entries how many they are and what they
add up to. -/
structure Shows (d : PaymentDetails) (fields : List String) : Prop where
  width : fields.length = 8
  payment : number? fields "payment" = some d.payment.id.value.toNat
  application : number? fields "application" = some d.payment.application.value.toNat
  user : field? fields "user" = some d.payment.user
  amount : money? fields "amount" = some ((d.payment.amount.toNat : ℚ) / 100)
  currency : field? fields "currency" = some d.payment.currency.code
  status : field? fields "status" = some (Lifecycle.text d.payment.status)
  installments : number? fields "installments" = some d.installments.length
  scheduled : money? fields "scheduled" = some ((total d : ℚ) / 100)
  /-- The sum in 64-bit words is the same, as long as it fits them. -/
  fitting : total d < UInt64.size →
    money? fields "scheduled" = some (((scheduledTotal d.installments).toNat : ℚ) / 100)

theorem decimal?_toList_ofList (n : Nat) :
    Text.decimal? (String.ofList (Text.decimal n)).toList = some n := by
  rw [String.toList_ofList, Text.decimal?_decimal]

/-- A written row shows its payment. The columns are found by evaluation. -/
theorem shows_row (d : PaymentDetails) : Shows d ((row d).map String.ofList) := by
  have hscheduled :
      money? ((row d).map String.ofList) "scheduled" = some ((total d : ℚ) / 100) := by
    rw [← scheduled_eq_total]
    exact major?_majorChars (scheduled d.installments)
  exact {
    width := rfl
    payment := decimal?_toList_ofList _
    application := decimal?_toList_ofList _
    user := congrArg some String.ofList_toList
    amount := major?_majorChars _
    currency := congrArg some String.ofList_toList
    status := congrArg some String.ofList_toList
    installments := decimal?_toList_ofList _
    scheduled := hscheduled
    fitting := by
      intro hfits
      rw [toNat_scheduledTotal hfits]
      exact hscheduled }

/-- The header shows no payment, since it has no number in the column of the payments. -/
theorem not_shows_header (d : PaymentDetails) : ¬ Shows d header := by
  intro h
  have hnone : number? header "payment" = none := by decide
  cases hnone.symm.trans h.payment

/-! ## The report -/

theorem lines_chars (details : List PaymentDetails) :
    Csv.Lines (Csv.withoutByteOrderMark (Csv.bytes (chars details)))
      ((header.map String.toList :: details.map row).map (·.map Csv.bytes)) := by
  have hheader : Csv.Lines (Csv.bytes (Csv.recordChars (header.map String.toList)))
      [(header.map String.toList).map Csv.bytes] := Csv.lines_recordChars (by decide)
  have hunmarked : Csv.withoutByteOrderMark (Csv.bytes (Csv.recordChars (header.map String.toList)))
      = Csv.bytes (Csv.recordChars (header.map String.toList)) := by decide +kernel
  have hrows : Csv.Lines (Csv.bytes (details.flatMap fun d => Csv.recordChars (row d)))
      ((details.map row).map (·.map Csv.bytes)) := by
    rw [← List.flatMap_map]
    apply Csv.lines_records
    intro fields hfields
    obtain ⟨d, -, rfl⟩ := List.mem_map.mp hfields
    exact (by decide : 2 ≤ 8)
  rw [chars, Csv.bytes_append, Csv.withoutByteOrderMark_append (hunmarked.symm ▸ hheader),
    hunmarked]
  exact hheader.append hrows

/-- The report reads as its header, once, and a row for every payment in their order. -/
theorem texts?_toText (details : List PaymentDetails) :
    ∃ rows, Csv.texts? (toText details) = some (header :: rows) ∧ header ∉ rows ∧
      List.Forall₂ Shows details rows := by
  refine ⟨details.map fun d => (row d).map String.ofList, ?_, ?_, ?_⟩
  · have hlines := lines_chars details
    rw [← String.toList_ofList (l := chars details)] at hlines
    rw [toText, Csv.texts?_of_lines hlines]
    simp [header]
  · intro hmem
    obtain ⟨d, -, heq⟩ := List.mem_map.mp hmem
    exact not_shows_header d (heq ▸ shows_row d)
  · rw [List.forall₂_map_right_iff, List.forall₂_same]
    exact fun d _ => shows_row d

end Lending.Report
