import Lending.Proofs.Schedule.Exact

/-!
# Due dates go on month by month

Every line of a schedule is dated from the start and not from the line before it. So a month that
is too short for the day of the start moves its own line only, and the lines after it fall on that
day again.

* `Month.next`: the month after another; `Month.after`: the month so many months later.
* `Date.IsDueAfter`: the day of a month on which a line is due.
* `Monthly`: the due dates of all lines.
* `buildLines_monthly`: the due dates of every schedule, and when there is none.
-/

namespace Lending

open Calendar

/-! ## Months -/

/-- A month of a year. -/
structure Month where
  year : Int
  number : Nat
  deriving DecidableEq

namespace Month

/-- The month after December is January of the next year. -/
def next (m : Month) : Month :=
  if m.number = 12 then ⟨m.year + 1, 1⟩ else ⟨m.year, m.number + 1⟩

/-- The month that comes so many months later. -/
def after (m : Month) : Nat → Month
  | 0 => m
  | months + 1 => (m.after months).next

/-- Years have months 1 to 12. -/
def IsMonth (m : Month) : Prop := 1 ≤ m.number ∧ m.number ≤ 12

/-- A count of months from January of the year 0. -/
def index (m : Month) : Int := m.year * 12 + (m.number - 1 : Nat)

theorem isMonth_next {m : Month} (h : m.IsMonth) : m.next.IsMonth := by
  unfold IsMonth next at *
  split <;> simp only <;> omega

theorem index_next {m : Month} (h : m.IsMonth) : m.next.index = m.index + 1 := by
  unfold IsMonth at h
  unfold index next
  split <;> simp only <;> omega

theorem isMonth_after {m : Month} (h : m.IsMonth) (months : Nat) : (m.after months).IsMonth := by
  induction months with
  | zero => exact h
  | succ months ih => exact isMonth_next ih

theorem index_after {m : Month} (h : m.IsMonth) (months : Nat) :
    (m.after months).index = m.index + months := by
  induction months with
  | zero => simp [after]
  | succ months ih =>
    rw [after, index_next (isMonth_after h months), ih]
    omega

theorem eq_of_index_eq {a b : Month} (ha : a.IsMonth) (hb : b.IsMonth) (h : a.index = b.index) :
    a = b := by
  rcases a with ⟨year, number⟩
  rcases b with ⟨year', number'⟩
  simp only [IsMonth, index] at *
  have hyear : year = year' := by omega
  have hnumber : number = number' := by omega
  rw [hyear, hnumber]

end Month

/-- The month that a date lies in. -/
def Date.inMonth (d : Date) : Month := ⟨d.year, d.month⟩

theorem Date.isMonth_inMonth (d : Date) : d.inMonth.IsMonth := d.isDate.2.1

theorem Date.index_inMonth (d : Date) : d.inMonth.index = d.monthIndex := rfl

/-- A date lies so many months after another exactly if the count of months says so. -/
theorem Date.inMonth_eq_after_iff {d start : Date} {months : Nat} :
    d.inMonth = start.inMonth.after months ↔ d.monthIndex = start.monthIndex + months := by
  rw [← index_inMonth, ← index_inMonth, ← Month.index_after start.isMonth_inMonth]
  refine ⟨congrArg Month.index, ?_⟩
  exact Month.eq_of_index_eq d.isMonth_inMonth (Month.isMonth_after start.isMonth_inMonth months)

/-- The calendar goes so far from a date exactly if it has that month's year. -/
theorem Date.reaches_iff_year {start : Date} {count : Nat} :
    start.Reaches count ↔ (start.inMonth.after count).year ≤ lastYear := by
  have hmonth := Month.isMonth_after start.isMonth_inMonth count
  have hindex := Month.index_after start.isMonth_inMonth count
  have hlast := start.monthIndex_le
  rw [index_inMonth] at hindex
  rw [Date.reaches_iff, monthsLeft]
  simp only [Month.IsMonth, Month.index, lastMonthIndex, lastYear] at *
  omega

/-! ## Due dates -/

/-- A line is due in the month that comes so many months after the start, on the day of the start or
on the last day of a month that is too short for it. -/
structure Date.IsDueAfter (start : Date) (months : Nat) (due : Date) : Prop where
  month : due.inMonth = start.inMonth.after months
  day : due.day = min start.day (daysInMonth due.year due.month)

theorem Date.isDueAfter_addMonths {start : Date} {months : Nat} (h : months ≤ start.monthsLeft) :
    start.IsDueAfter months (start.addMonths months) where
  month := inMonth_eq_after_iff.mpr (monthIndex_addMonths h)
  day := rfl

/-- A day of an earlier month comes earlier. -/
theorem Date.lt_of_monthIndex_lt {a b : Date} (h : a.monthIndex < b.monthIndex) : a < b := by
  have hday := Nat.le_trans a.isDate.2.2.2 (daysInMonth_le a.year a.month)
  change a.position < b.position
  simp only [position]
  omega

/-- The lines of a schedule are numbered from 1 and due that many months after the start. -/
structure Monthly (start : Date) (lines : List Line) : Prop where
  due : ∀ i (h : i < lines.length), lines[i].sequence.toNat = i + 1 ∧
    start.IsDueAfter (i + 1) lines[i].dueDate
  /-- No month is left out between two lines, and none has two of them. -/
  consecutive : ∀ i (h : i + 1 < lines.length),
    lines[i + 1].dueDate.inMonth = lines[i].dueDate.inMonth.next
  increasing : lines.Pairwise fun a b => a.dueDate < b.dueDate
  /-- Whatever the months before, a month that has the day of the start has its line on it. -/
  undrifted : ∀ line ∈ lines, start.day ≤ daysInMonth line.dueDate.year line.dueDate.month →
    line.dueDate.day = start.day

section Lines

variable {principal : Amount} {count : UInt32} {start : Date} {lines : List Line}

/-- All due dates follow from that of each line. -/
theorem Monthly.of_due (h : ∀ i (h : i < lines.length), lines[i].sequence.toNat = i + 1 ∧
    start.IsDueAfter (i + 1) lines[i].dueDate) : Monthly start lines := by
  refine ⟨h, ?_, ?_, ?_⟩
  · intro i hi
    rw [(h (i + 1) hi).2.month, (h i (by omega)).2.month]
    rfl
  · refine List.pairwise_iff_getElem.mpr fun i j hi hj hij => Date.lt_of_monthIndex_lt ?_
    rw [Date.inMonth_eq_after_iff.mp (h i hi).2.month,
      Date.inMonth_eq_after_iff.mp (h j hj).2.month]
    omega
  · intro line hline hlong
    obtain ⟨i, hi, rfl⟩ := List.getElem_of_mem hline
    rw [(h i hi).2.day, Nat.min_eq_left hlong]

theorem monthly_of_buildLines (h : buildLines principal count start = .ok lines) :
    lines.length = count.toNat ∧ Monthly start lines := by
  unfold buildLines at h
  split at h
  · rename_i hfits
    split at h
    · rename_i hleft
      obtain rfl := Except.ok.inj h
      refine ⟨by simp, Monthly.of_due fun i hi => ?_⟩
      rw [List.length_map, List.length_range'] at hi
      have hbound := count.toNat_lt
      have hnumber : 1 + 1 * i = i + 1 := by omega
      rw [List.getElem_map, List.getElem_range', hnumber]
      refine ⟨?_, Date.isDueAfter_addMonths (by omega)⟩
      exact Nat.mod_eq_of_lt (by omega)
    · cases h
  · cases h

end Lines

/-- The lines of every schedule are due one month after another, on the day of the start where the
month has it. A count that the principal can be split into is refused exactly if the last line would
be due after the last year of the calendar. -/
theorem buildLines_monthly (principal : Amount) (count : UInt32) (start : Date) :
    (∀ lines, buildLines principal count start = .ok lines →
      lines.length = count.toNat ∧ Monthly start lines) ∧
    (0 < count.toNat → count.toNat ≤ principal.toNat →
      ((∃ cause, buildLines principal count start = .error cause) ↔
        lastYear < (start.inMonth.after count.toNat).year)) := by
  refine ⟨fun lines => monthly_of_buildLines, fun hpos hle => ?_⟩
  rw [buildLines_error_iff, Date.reaches_iff_year]
  omega

/-- A day that February does not have, thirteen months before the end of the calendar. -/
def Date.nearTheEnd : Date := ⟨262141, 11, 30, by decide⟩

/-- Thirteen lines still fit, and only the one in February is moved to an earlier day. With one more
line, the last would be due in the year 262143. -/
theorem buildLines_nearTheEnd :
    (∃ lines, buildLines ⟨1300, by decide⟩ 13 .nearTheEnd = .ok lines ∧
      lines.map (fun line => line.dueDate.day) =
        [30, 30, 28, 30, 30, 30, 30, 30, 30, 30, 30, 30, 30] ∧
      Monthly .nearTheEnd lines) ∧
    (Date.nearTheEnd.inMonth.after 14).year = 262143 ∧
    ∃ cause, buildLines ⟨1300, by decide⟩ 14 .nearTheEnd = .error cause := by
  have hdays : (buildLines ⟨1300, by decide⟩ 13 .nearTheEnd).map
      (fun lines => lines.map fun line => line.dueDate.day) =
        .ok [30, 30, 28, 30, 30, 30, 30, 30, 30, 30, 30, 30, 30] := by
    decide +kernel
  have hmonthly := buildLines_monthly ⟨1300, by decide⟩ 13 .nearTheEnd
  have hrefused := buildLines_monthly ⟨1300, by decide⟩ 14 .nearTheEnd
  have hyear : (Date.nearTheEnd.inMonth.after 14).year = 262143 := by decide +kernel
  refine ⟨?_, hyear, ?_⟩
  · cases hlines : buildLines ⟨1300, by decide⟩ 13 .nearTheEnd with
    | error cause =>
      rw [hlines] at hdays
      cases hdays
    | ok lines =>
      rw [hlines] at hdays
      exact ⟨lines, rfl, Except.ok.inj hdays, (hmonthly.1 lines hlines).2⟩
  · refine (hrefused.2 (by decide) (by decide)).mpr ?_
    rw [show (14 : UInt32).toNat = 14 from rfl, hyear]
    decide

end Lending
