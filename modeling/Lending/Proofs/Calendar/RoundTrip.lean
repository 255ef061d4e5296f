import Lending.Calendar.Text
import Lending.Proofs.Calendar.DayNumber
import Lending.Proofs.Text.Digits

/-!
# Dates and instants read back

Every reader of the calendar takes off the front of a text what the writer put there.

* `Date.parse?_toText`, `Instant.parse?_toText`: the text of a date and of an instant is read as
  that date and that instant.
-/

namespace Lending

open Text

/-! ## Blanks -/

theorem Text.isBlank_of_isDigit {c : Char} (h : c.isDigit = true) : isBlank c = false := by
  have hrange : 48 ≤ c.toNat ∧ c.toNat ≤ 57 := by
    simp only [Char.isDigit, Bool.and_eq_true, decide_eq_true_eq, UInt32.le_iff_toNat_le] at h
    exact ⟨h.1, h.2⟩
  simp [isBlank, blankRanges]
  omega

theorem Text.trimStart_cons {c : Char} {cs : List Char} (h : isBlank c = false) :
    trimStart (c :: cs) = c :: cs := by
  simp [trimStart, h]

theorem Text.trimStart_append {digits rest : List Char} (hd : ∀ c ∈ digits, c.isDigit = true)
    (hne : digits ≠ []) : trimStart (digits ++ rest) = digits ++ rest := by
  cases digits with
  | nil => exact absurd rfl hne
  | cons c cs => exact trimStart_cons (isBlank_of_isDigit (hd c List.mem_cons_self))

namespace Calendar

/-! ## Parts of a date -/

theorem readPart?_padded {n : Nat} (h : n < 100) (rest : List Char) :
    readPart? (padded 2 n ++ rest) = some (n, rest) := by
  rw [readPart?, trimStart_append (fun _ => isDigit_of_mem_padded) (padded_ne_nil _ _),
    takeNumber?_padded (by decide) h]

theorem readMark?_cons {c : Char} (h : isBlank c = false) (rest : List Char) :
    readMark? c (c :: rest) = some rest := by
  rw [readMark?, trimStart_cons h]
  exact if_pos rfl

theorem readYear?_yearText (year : Int) {rest : List Char} (hr : NoDigitNext rest) :
    readYear? (yearText year ++ rest) = some (year, rest) := by
  have hsigned : ∀ n, takeNumber? (padded 4 n ++ rest).length (padded 4 n ++ rest) =
      some (n, rest) := by
    intro n
    rw [takeNumber?_append (fun _ => isDigit_of_mem_padded) (padded_ne_nil _ _) (.inr hr)
      (by simp), decimalValue_padded]
  rw [yearText]
  split
  · rename_i h
    obtain ⟨n, rfl⟩ := Int.eq_ofNat_of_zero_le h.1
    rw [readYear?, trimStart_append (fun _ => isDigit_of_mem_padded) (padded_ne_nil _ _)]
    have hfour : takeNumber? 4 (padded 4 n ++ rest) = some (n, rest) :=
      takeNumber?_padded (by decide) (by omega) rest
    -- the first character is a digit and therefore no sign
    cases hp : padded 4 (Int.toNat n) with
    | nil => exact absurd hp (padded_ne_nil _ _)
    | cons c cs =>
      have hc : c.isDigit = true := isDigit_of_mem_padded (by rw [hp]; exact List.mem_cons_self)
      rw [← Int.toNat_natCast n, hp] at hfour
      split
      · rename_i heq
        obtain rfl : c = '-' := (List.cons.inj heq).1
        exact absurd hc (by decide)
      · rename_i heq
        obtain rfl : c = '+' := (List.cons.inj heq).1
        exact absurd hc (by decide)
      · rw [hfour]
        simp
  · split
    · rw [readYear?, List.cons_append, trimStart_cons (by decide)]
      simp only [hsigned, Option.map_some]
      congr 2
      omega
    · rw [readYear?, List.cons_append, trimStart_cons (by decide)]
      simp only [hsigned, Option.map_some]
      congr 2
      omega

theorem readDay?_chars (d : Date) (rest : List Char) :
    readDay? (d.chars ++ rest) = some (d.year, d.month, d.day, rest) := by
  have hd := d.isDate
  have hday := daysInMonth_le d.year d.month
  simp only [IsDate] at hd
  simp only [readDay?, Date.chars, List.append_assoc, List.cons_append]
  rw [readYear?_yearText _ (noDigitNext_cons (by decide))]
  simp only [Option.bind_eq_bind, Option.bind_some]
  rw [readMark?_cons (by decide), Option.bind_some, readPart?_padded (by omega)]
  simp only [Option.bind_some]
  rw [readMark?_cons (by decide), Option.bind_some, readPart?_padded (by omega)]
  rfl

end Calendar

open Calendar

theorem Date.parse?_toText (d : Date) : Date.parse? d.toText = some d := by
  have h := readDay?_chars d []
  rw [List.append_nil] at h
  rw [Date.parse?, Date.toText, String.toList_ofList, h]
  simp only [trimStart, Option.bind_eq_bind, Option.bind_some, List.dropWhile_nil, if_true,
    ofParts?_self]

namespace Calendar

/-! ## Parts of an instant -/

theorem decimalValue_padded_append (width n k : Nat) :
    decimalValue (padded width n ++ List.replicate k '0') = n * 10 ^ k := by
  rw [decimalValue_eq, Nat.ofDigitChars_append, ← decimalValue_eq, decimalValue_padded,
    Nat.ofDigitChars_replicate_zero, Nat.mul_comm]

/-- A fraction of `width` digits is read as so many of nine. -/
theorem readFraction?_padded {width n : Nat} (hw : 0 < width) (hle : width ≤ 9)
    (hn : n < 10 ^ width) {rest : List Char} (hr : NoDigitNext rest) :
    readFraction? ('.' :: padded width n ++ rest) = some (n * 10 ^ (9 - width), rest) := by
  have hlen := length_padded hw hn
  have hdrop : rest.dropWhile Char.isDigit = rest := by
    cases rest with
    | nil => rfl
    | cons c cs =>
      have : c.isDigit = false := by simpa [NoDigitNext] using hr
      simp [this]
  rw [List.cons_append, readFraction?,
    takeDigits_append (fun _ => isDigit_of_mem_padded) (.inr hr) (by omega)]
  cases hp : padded width n with
  | nil => exact absurd hp (padded_ne_nil _ _)
  | cons c cs =>
    simp only [hdrop]
    rw [← hp, hlen, decimalValue_padded_append]

theorem readFraction?_fractionText {nanos : Nat} (h : nanos < nanosPerSecond) (rest : List Char) :
    readFraction? (fractionText nanos ++ 'Z' :: rest) = some (nanos, 'Z' :: rest) := by
  have hz : NoDigitNext ('Z' :: rest) := noDigitNext_cons (by decide)
  simp only [nanosPerSecond] at h
  rw [fractionText]
  split
  · rename_i h0
    subst h0
    rfl
  split
  · rename_i _ h6
    rw [readFraction?_padded (by decide) (by decide) (by omega) hz]
    congr 2
    omega
  split
  · rename_i _ _ h3
    rw [readFraction?_padded (by decide) (by decide) (by omega) hz]
    congr 2
    omega
  · rw [readFraction?_padded (by decide) (by decide) (by omega) hz, Nat.sub_self, Nat.pow_zero,
      Nat.mul_one]

theorem readTime?_append {hour minute second nano : Nat} (hh : hour < 24) (hm : minute < 60)
    (hs : second ≤ 60) (hn : nano < nanosPerSecond) (rest : List Char) :
    readTime? (padded 2 hour ++ ':' :: padded 2 minute ++ ':' :: padded 2 second ++
        fractionText nano ++ 'Z' :: rest) =
      some (hour * 3600 + minute * 60 + (second - second / 60),
        second / 60 * nanosPerSecond + nano, 'Z' :: rest) := by
  simp only [readTime?, List.append_assoc, List.cons_append]
  rw [readPart?_padded (by omega)]
  simp only [Option.bind_eq_bind, Option.bind_some]
  rw [readMark?_cons (by decide), Option.bind_some, readPart?_padded (by omega)]
  simp only [Option.bind_some]
  rw [readMark?_cons (by decide), Option.bind_some, readPart?_padded (by omega)]
  simp only [Option.bind_some]
  rw [readFraction?_fractionText hn]
  simp [hh, hm, hs]

end Calendar

/-- The second that a day is read back with, and the leap second after it. -/
theorem Instant.second_split (t : Instant) :
    t.second / 3600 < 24 ∧ t.second / 60 % 60 < 60 ∧
      t.second % 60 + t.nano / nanosPerSecond ≤ 60 ∧
      t.second / 3600 * 3600 + t.second / 60 % 60 * 60 +
        (t.second % 60 + t.nano / nanosPerSecond -
          (t.second % 60 + t.nano / nanosPerSecond) / 60) = t.second ∧
      (t.second % 60 + t.nano / nanosPerSecond) / 60 * nanosPerSecond +
        t.nano % nanosPerSecond = t.nano := by
  have hs := t.second_lt
  have hn := t.nano_lt
  have hleap := t.leap
  simp only [secondsPerDay, nanosPerSecond] at *
  by_cases h : t.nano < 1000000000
  · have h0 : t.nano / 1000000000 = 0 := by omega
    have hmod : t.nano % 1000000000 = t.nano := by omega
    rw [h0, hmod]
    omega
  · have h1 : t.nano / 1000000000 = 1 := by omega
    have h59 := hleap (by omega)
    rw [h1, h59]
    omega

theorem Instant.ofSeconds?_self (t : Instant) :
    ofSeconds? t.date (t.second : Int) t.nano = some t := by
  have hs := t.second_lt
  have hday : (t.second : Int) / secondsPerDay = 0 := by
    simp only [secondsPerDay] at *
    omega
  have hrest : ((t.second : Int) % secondsPerDay).toNat = t.second := by
    simp only [secondsPerDay] at *
    omega
  simp only [ofSeconds?, hday, hrest, Date.addDays?, Int.add_zero, Date.ofDayNumber?_dayNumber,
    Option.bind_eq_bind, Option.bind_some, ofParts?]
  rw [dif_pos ⟨hs, t.nano_lt, t.leap⟩]

theorem Instant.parse?_toText (t : Instant) : Instant.parse? t.toText = some t := by
  obtain ⟨hh, hm, hs, hsecond, hnano⟩ := t.second_split
  have hlt : t.nano % nanosPerSecond < nanosPerSecond := Nat.mod_lt _ (by decide)
  have htime := readTime?_append hh hm hs hlt []
  rw [hsecond, hnano] at htime
  rw [Instant.parse?, Instant.toText, String.toList_ofList, Instant.chars]
  simp only [List.append_assoc, List.cons_append] at htime ⊢
  rw [readDay?_chars]
  simp only [Option.bind_eq_bind, Option.bind_some]
  rw [htime]
  simp only [Option.bind_some, trimStart_cons (show isBlank 'Z' = false by decide)]
  rw [show readOffset? ['Z'] = some (0, []) from rfl]
  simp only [Option.bind_some, Date.ofParts?_self, Int.sub_zero, Instant.ofSeconds?_self]
  rfl

end Lending
