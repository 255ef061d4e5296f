import Lending.Json.Parse
import Lending.Proofs.Text.Digits
import Mathlib

/-!
# JSON values read back

The text of a value without reals and without broken strings is read as that value. Every reader is
shown to take the text of its part off the front of a longer text; after a number the rest must not
go on with it, which the comma, bracket or brace behind a part never does.

* `Plain`: the values meant.
* `readValue?_chars`: a value at the front of a text, if the reader may descend deep enough.
* `parse?_toText`: a whole text.
-/

namespace Lending.Json

open Text

/-! ## Strings -/

theorem hexadecimal?_hex4 : ∀ n < 32, hexadecimal? (hex4 n) = some n ∧ (hex4 n).length = 4 := by
  decide

/-- A control character without a letter of its own is read by its number. -/
theorem readCodes?_hex4 {n : Nat} (h : n < 32) (rest : List Char) (codes : List Nat) :
    readCodes? ('\\' :: 'u' :: hex4 n ++ rest) codes = readCodes? rest (n :: codes) := by
  obtain ⟨hvalue, hlen⟩ := hexadecimal?_hex4 n h
  match hx : hex4 n, hlen with
  | [a, b, c, d], _ =>
    rw [hx] at hvalue
    simp [readCodes?, hvalue]

theorem readCodes?_stringChar (c : Char) (rest : List Char) (codes : List Nat) :
    readCodes? (stringChar c ++ rest) codes = readCodes? rest (c.toNat :: codes) := by
  unfold stringChar
  split
  · rfl
  · rfl
  · rfl
  · rfl
  · rfl
  · rfl
  · rfl
  · rename_i hquote hslash _ _ _ _ _
    split
    · rename_i hlow
      exact readCodes?_hex4 hlow rest codes
    · rename_i hhigh
      rw [List.cons_append, List.nil_append, readCodes?.eq_def]
      split
      · rename_i heq
        exact absurd (List.cons.inj heq).1 hquote
      · rename_i heq
        exact absurd (List.cons.inj heq).1 hslash
      · rename_i heq
        exact absurd (List.cons.inj heq).1 hslash
      · rename_i heq
        obtain ⟨rfl, rfl⟩ := List.cons.inj heq
        exact if_neg hhigh
      · rename_i heq
        cases heq

theorem readCodes?_flatMap (cs rest : List Char) (codes : List Nat) :
    readCodes? (cs.flatMap stringChar ++ '"' :: rest) codes =
      some ((cs.map Char.toNat).reverse ++ codes, rest) := by
  induction cs generalizing codes with
  | nil => rfl
  | cons c cs ih =>
    rw [List.flatMap_cons, List.append_assoc, readCodes?_stringChar, ih]
    simp

/-- The code point of a character is no surrogate. -/
theorem not_surrogate (c : Char) :
    isHighSurrogate c.toNat = false ∧ isLowSurrogate c.toNat = false := by
  have hvalid : c.toNat < 0xD800 ∨ (0xDFFF < c.toNat ∧ c.toNat < 0x110000) := c.valid
  simp only [isHighSurrogate, isLowSurrogate, Bool.and_eq_false_iff, decide_eq_false_iff_not]
  omega

theorem joinCodes?_map (cs : List Char) (joined : List Char) :
    joinCodes? (cs.map Char.toNat) joined = some (cs.reverse ++ joined) := by
  induction cs generalizing joined with
  | nil => rfl
  | cons c cs ih =>
    obtain ⟨hhigh, hlow⟩ := not_surrogate c
    cases cs with
    | nil => simp [joinCodes?, hhigh, hlow]
    | cons d ds =>
      simp only [List.map_cons] at ih ⊢
      simp [joinCodes?, hhigh, hlow, ih]

theorem readString?_chars (s : String) (rest : List Char) :
    readString? (s.toList.flatMap stringChar ++ '"' :: rest) = some (some s, rest) := by
  rw [readString?, readCodes?_flatMap, List.append_nil, ← List.map_reverse]
  simp only [Option.bind_eq_bind, Option.bind_some, joinCodes?_map]
  simp

/-! ## Numbers -/

/-- What follows does not go on with a number. -/
def EndsNumber (rest : List Char) : Prop :=
  ∀ c ∈ rest.head?, c.isDigit = false ∧ c ≠ '.' ∧ c ≠ 'e' ∧ c ≠ 'E'

theorem endsNumber_nil : EndsNumber [] := by simp [EndsNumber]

theorem endsNumber_cons {c : Char} {rest : List Char}
    (h : c.isDigit = false ∧ c ≠ '.' ∧ c ≠ 'e' ∧ c ≠ 'E') : EndsNumber (c :: rest) := by
  simpa [EndsNumber] using h

theorem span_append {digits rest : List Char} (hd : ∀ c ∈ digits, c.isDigit = true)
    (hr : EndsNumber rest) : (digits ++ rest).span Char.isDigit = (digits, rest) := by
  have htake : rest.takeWhile Char.isDigit = [] ∧ rest.dropWhile Char.isDigit = rest := by
    cases rest with
    | nil => exact ⟨rfl, rfl⟩
    | cons c cs =>
      have : c.isDigit = false := (hr c rfl).1
      simp [this]
  rw [List.span_eq_takeWhile_dropWhile, List.takeWhile_append_of_pos hd,
    List.dropWhile_append_of_pos hd, htake.1, htake.2, List.append_nil]

theorem readWhole?_decimal (n : Nat) {rest : List Char} (hr : EndsNumber rest) :
    readWhole? (decimal n ++ rest) = some (decimal n, rest) := by
  have hread : readDigits? (decimal n ++ rest) = some (decimal n, rest) := by
    rw [readDigits?, span_append (fun _ => isDigit_of_mem_decimal) hr]
    cases hn : decimal n with
    | nil => exact absurd hn (decimal_ne_nil n)
    | cons => rfl
  rw [readWhole?, hread]
  split
  · rename_i c cs rest' heq
    simp only [Option.some.injEq, Prod.mk.injEq] at heq
    exact absurd heq.1 (decimal_head n c cs)
  · rfl

theorem readFraction?_of_ends {rest : List Char} (hr : EndsNumber rest) :
    readFraction? rest = some ([], rest) := by
  cases rest with
  | nil => rfl
  | cons c cs =>
    have := (hr c rfl).2.1
    rw [readFraction?.eq_def]
    split <;> simp_all

theorem readExponent?_of_ends {rest : List Char} (hr : EndsNumber rest) :
    readExponent? rest = some ([], rest) := by
  cases rest with
  | nil => rfl
  | cons c cs =>
    have := (hr c rfl).2.2
    rw [readExponent?.eq_def]
    split <;> simp_all

/-- The digits of a number begin with no sign. -/
theorem decimal_cons (n : Nat) : ∃ c cs, decimal n = c :: cs ∧ c.isDigit = true := by
  cases hn : decimal n with
  | nil => exact absurd hn (decimal_ne_nil n)
  | cons c cs => exact ⟨c, cs, rfl, isDigit_of_mem_decimal (by rw [hn]; exact List.mem_cons_self)⟩

theorem integerChars_cons (n : Int) :
    ∃ c cs, integerChars n = c :: cs ∧ (c.isDigit = true ∨ c = '-') := by
  cases n with
  | ofNat n =>
    obtain ⟨c, cs, hn, hc⟩ := decimal_cons n
    exact ⟨c, cs, hn, .inl hc⟩
  | negSucc n => exact ⟨'-', _, rfl, .inr rfl⟩

theorem readNumber?_integerChars (n : Int) {rest : List Char} (hr : EndsNumber rest) :
    readNumber? (integerChars n ++ rest) = some (.integer n, rest) := by
  cases n with
  | ofNat n =>
    obtain ⟨c, cs, hn, hc⟩ := decimal_cons n
    have hsign : c ≠ '-' := by rintro rfl; exact absurd hc (by decide)
    have hwhole := readWhole?_decimal n hr
    simp only [integerChars, hn, List.cons_append] at hwhole ⊢
    unfold readNumber?
    split
    · rename_i heq
      split at heq
      · rename_i h
        exact absurd (List.cons.inj h).1 hsign
      · simp only [Prod.mk.injEq] at heq
        obtain ⟨rfl, rfl⟩ := heq
        simp only [hwhole, readFraction?_of_ends hr, readExponent?_of_ends hr,
          Option.bind_eq_bind, Option.bind_some, ← hn, decimalValue_decimal]
        simp
  | negSucc n =>
    have hwhole := readWhole?_decimal (n + 1) hr
    simp only [integerChars, List.cons_append]
    unfold readNumber?
    simp only [hwhole, readFraction?_of_ends hr, readExponent?_of_ends hr, Option.bind_eq_bind,
      Option.bind_some, decimalValue_decimal]
    simp [Int.negSucc_eq]

/-! ## Values -/

/-- Neither the value nor a part of it is a real or broken. -/
inductive Plain : Json → Prop where
  | null : Plain .null
  | bool (b : Bool) : Plain (.bool b)
  | integer (n : Int) : Plain (.integer n)
  | string (s : String) : Plain (.string s)
  | array {items : List Json} (h : ∀ item ∈ items, Plain item) : Plain (.array items)
  | object {members : List (String × Json)} (h : ∀ member ∈ members, Plain member.2) :
    Plain (.object members)

theorem skipSpace_cons {c : Char} (h : isSpace c = false) (cs : List Char) :
    skipSpace (c :: cs) = c :: cs := by
  simp [skipSpace, h]

theorem isSpace_of_number {c : Char} (h : c.isDigit = true ∨ c = '-') : isSpace c = false := by
  by_contra hspace
  simp only [isSpace, Bool.not_eq_false, Bool.or_eq_true, decide_eq_true_eq] at hspace
  rcases hspace with ((rfl | rfl) | rfl) | rfl <;> exact absurd h (by decide)

/-- A digit or a sign begins a number and nothing else. -/
theorem readValue?_number {c : Char} (h : c.isDigit = true ∨ c = '-') (depth : Nat)
    (cs : List Char) : readValue? (depth + 1) (c :: cs) = readNumber? (c :: cs) := by
  rw [readValue?, skipSpace_cons (isSpace_of_number h)]
  split
  case h_7 => rfl
  all_goals
    rename_i heq
    obtain ⟨rfl, -⟩ := List.cons.inj heq
    exact absurd h (by decide)

/-- The text of a value begins neither with a blank nor with a bracket that closes an array. -/
theorem chars_cons {j : Json} (h : Plain j) :
    ∃ c cs, j.chars = c :: cs ∧ isSpace c = false ∧ c ≠ ']' := by
  cases h with
  | null => exact ⟨'n', _, rfl, by decide⟩
  | bool b => cases b with
    | true => exact ⟨'t', _, rfl, by decide⟩
    | false => exact ⟨'f', _, rfl, by decide⟩
  | integer n =>
    obtain ⟨c, cs, hn, hc⟩ := integerChars_cons n
    refine ⟨c, cs, hn, isSpace_of_number hc, ?_⟩
    rintro rfl
    exact absurd hc (by decide)
  | string s => exact ⟨'"', _, rfl, by decide⟩
  | @array items h => cases items with
    | nil => exact ⟨'[', _, rfl, by decide⟩
    | cons => exact ⟨'[', _, rfl, by decide⟩
  | @object members h => cases members with
    | nil => exact ⟨'\x7b', _, rfl, by decide⟩
    | cons => exact ⟨'\x7b', _, rfl, by decide⟩

/-! ### Items and members

A reader of values that takes the items of a list is assumed; the depth that the list needs is no
more than its text is long. -/

/-- The reader takes the text of `j` off the front of any text, if it may descend as deep as the
text is long. -/
def ReadsBack (j : Json) : Prop :=
  ∀ depth rest, EndsNumber rest → j.chars.length ≤ depth →
    readValue? depth (j.chars ++ rest) = some (j, rest)

theorem endsNumber_itemsChars (items : List Json) (rest : List Char) :
    EndsNumber (itemsChars items ++ rest) := by
  cases items <;> exact endsNumber_cons (by decide)

theorem endsNumber_membersChars (members : List (String × Json)) (rest : List Char) :
    EndsNumber (membersChars members ++ rest) := by
  rcases members with _ | ⟨⟨name, value⟩, members⟩ <;> exact endsNumber_cons (by decide)

theorem readItems?_chars {items : List Json} (h : ∀ item ∈ items, ReadsBack item)
    (depth : Nat) (rest : List Char) (hd : (itemsChars items).length ≤ depth) :
    readItems? depth (itemsChars items ++ rest) = some (items, rest) := by
  induction items generalizing depth with
  | nil =>
    obtain ⟨depth, rfl⟩ := Nat.exists_eq_add_of_le' (show 1 ≤ depth by
        simp [itemsChars] at hd; omega)
    rfl
  | cons item items ih =>
    simp only [itemsChars, List.cons_append, List.length_cons, List.length_append] at hd
    obtain ⟨depth, rfl⟩ := Nat.exists_eq_add_of_le' (show 1 ≤ depth by omega)
    have hitem := h item List.mem_cons_self depth (itemsChars items ++ rest)
      (endsNumber_itemsChars items rest) (by omega)
    have hitems := ih (fun i hi => h i (List.mem_cons_of_mem _ hi)) depth (by omega)
    simp only [itemsChars, List.cons_append, List.append_assoc, readItems?,
      skipSpace_cons (c := ',') (by decide)]
    simp only [hitem, hitems, Option.bind_eq_bind, Option.bind_some, Option.pure_def]

theorem readMember?_chars (name : String) (value : Json) (h : ReadsBack value) (depth : Nat)
    {rest : List Char} (hr : EndsNumber rest) (hd : value.chars.length < depth) :
    readMember? depth (stringChars name ++ ':' :: value.chars ++ rest) =
      some ((some name, value), rest) := by
  obtain ⟨depth, rfl⟩ := Nat.exists_eq_add_of_le' (show 1 ≤ depth by omega)
  have hvalue := h depth rest hr (by omega)
  have hname := readString?_chars name (':' :: (value.chars ++ rest))
  simp only [stringChars, List.cons_append, List.append_assoc, List.nil_append, readMember?,
    skipSpace_cons (c := '"') (by decide), hname, Option.bind_eq_bind, Option.bind_some,
    skipSpace_cons (c := ':') (by decide), hvalue, Option.pure_def]

theorem readMembers?_chars {members : List (String × Json)}
    (h : ∀ member ∈ members, ReadsBack member.2) (depth : Nat) (rest : List Char)
    (hd : (membersChars members).length ≤ depth) :
    readMembers? depth (membersChars members ++ rest) =
      some (members.map fun member => (some member.1, member.2), rest) := by
  induction members generalizing depth with
  | nil =>
    obtain ⟨depth, rfl⟩ := Nat.exists_eq_add_of_le' (show 1 ≤ depth by
        simp [membersChars] at hd; omega)
    rfl
  | cons member members ih =>
    obtain ⟨name, value⟩ := member
    simp only [membersChars, List.cons_append, List.length_cons, List.length_append] at hd
    obtain ⟨depth, rfl⟩ := Nat.exists_eq_add_of_le' (show 1 ≤ depth by omega)
    have hmember := readMember?_chars name value (h _ List.mem_cons_self) depth
      (endsNumber_membersChars members rest) (by omega)
    have hmembers := ih (fun m hm => h m (List.mem_cons_of_mem _ hm)) depth (by omega)
    simp only [List.append_assoc, List.cons_append] at hmember
    simp only [membersChars, List.cons_append, List.append_assoc, readMembers?,
      skipSpace_cons (c := ',') (by decide)]
    simp only [hmember, hmembers, Option.bind_eq_bind, Option.bind_some, Option.pure_def,
      List.map_cons]

theorem ofMembers_map (members : List (String × Json)) :
    ofMembers (members.map fun member => (some member.1, member.2)) = .object members := by
  have hall : (members.map fun member => (some member.1, member.2)).mapM
      (fun member => member.1.map fun name => (name, member.2)) = some members := by
    induction members with
    | nil => rfl
    | cons member members ih => simp [ih]
  unfold ofMembers
  split
  · rename_i heq
    rw [Option.some.inj (heq.symm.trans hall)]
  · rename_i heq
    cases heq.symm.trans hall

/-! ### Whole values -/

theorem readsBack {j : Json} (h : Plain j) : ReadsBack j := by
  induction h with
  | null =>
    intro depth rest _ hd
    obtain ⟨depth, rfl⟩ := Nat.exists_eq_add_of_le' (show 1 ≤ depth by
        simp [chars] at hd; omega)
    rfl
  | bool b =>
    intro depth rest _ hd
    obtain ⟨depth, rfl⟩ := Nat.exists_eq_add_of_le' (show 1 ≤ depth by
        cases b <;> simp [chars] at hd <;> omega)
    cases b <;> rfl
  | integer n =>
    intro depth rest hr hd
    obtain ⟨c, cs, hn, hc⟩ := integerChars_cons n
    obtain ⟨depth, rfl⟩ := Nat.exists_eq_add_of_le' (show 1 ≤ depth by
        simp [chars, hn] at hd; omega)
    have hread := readNumber?_integerChars n hr
    rw [hn, List.cons_append] at hread
    rw [chars, hn, List.cons_append, readValue?_number hc, hread]
  | string s =>
    intro depth rest _ hd
    obtain ⟨depth, rfl⟩ := Nat.exists_eq_add_of_le' (show 1 ≤ depth by
        simp [chars, stringChars] at hd; omega)
    have hread := readString?_chars s rest
    simp only [chars, stringChars, List.cons_append, List.append_assoc, List.nil_append,
      readValue?, skipSpace_cons (c := '"') (by decide), hread, Option.bind_eq_bind,
      Option.bind_some, Option.pure_def, Option.map_some, Option.getD_some]
  | @array items h ih =>
    intro depth rest _ hd
    cases items with
    | nil =>
      obtain ⟨depth, rfl⟩ := Nat.exists_eq_add_of_le' (show 1 ≤ depth by
        simp [chars] at hd; omega)
      rfl
    | cons item items =>
      simp only [chars, List.cons_append, List.length_cons, List.length_append] at hd
      obtain ⟨depth, rfl⟩ := Nat.exists_eq_add_of_le' (show 1 ≤ depth by omega)
      have hitem := ih item List.mem_cons_self depth (itemsChars items ++ rest)
        (endsNumber_itemsChars items rest) (by omega)
      have hitems := readItems?_chars (fun i hi => ih i (List.mem_cons_of_mem _ hi)) depth rest
        (by omega)
      obtain ⟨c, cs, hchars, hspace, hclose⟩ := chars_cons (h item List.mem_cons_self)
      rw [hchars, List.cons_append] at hitem
      simp only [chars, List.cons_append, List.append_assoc, readValue?,
        skipSpace_cons (c := '[') (by decide), hchars, skipSpace_cons hspace]
      split
      · rename_i heq
        exact absurd (List.cons.inj heq).1 hclose
      · simp only [hitem, hitems, Option.bind_eq_bind, Option.bind_some, Option.pure_def]
  | @object members h ih =>
    intro depth rest _ hd
    cases members with
    | nil =>
      obtain ⟨depth, rfl⟩ := Nat.exists_eq_add_of_le' (show 1 ≤ depth by
        simp [chars] at hd; omega)
      rfl
    | cons member members =>
      obtain ⟨name, value⟩ := member
      simp only [chars, List.cons_append, List.length_cons, List.length_append] at hd
      obtain ⟨depth, rfl⟩ := Nat.exists_eq_add_of_le' (show 1 ≤ depth by omega)
      have hmember := readMember?_chars name value (ih _ List.mem_cons_self) depth
        (endsNumber_membersChars members rest) (by omega)
      have hmembers := readMembers?_chars (fun m hm => ih m (List.mem_cons_of_mem _ hm)) depth rest
        (by omega)
      simp only [List.append_assoc, List.cons_append] at hmember
      simp only [stringChars, List.cons_append, List.append_assoc, List.nil_append] at hmember
      simp only [chars, List.cons_append, List.append_assoc, readValue?, stringChars,
        skipSpace_cons (c := '\x7b') (by decide), List.nil_append,
        skipSpace_cons (c := '"') (by decide)]
      split
      · rename_i heq
        exact absurd (List.cons.inj heq).1 (by decide)
      · simp only [hmember, hmembers, Option.bind_eq_bind, Option.bind_some, Option.pure_def]
        exact congrArg (fun j => some (j, rest)) (ofMembers_map ((name, value) :: members))

theorem readValue?_chars {j : Json} (h : Plain j) (depth : Nat) {rest : List Char}
    (hr : EndsNumber rest) (hd : j.chars.length ≤ depth) :
    readValue? depth (j.chars ++ rest) = some (j, rest) :=
  readsBack h depth rest hr hd

theorem parse?_toText {j : Json} (h : Plain j) : parse? j.toText = some j := by
  have hread := readValue?_chars h (2 * j.chars.length + 2) endsNumber_nil (by omega)
  rw [List.append_nil] at hread
  simp only [parse?, toText, String.toList_ofList, hread, skipSpace, Option.pure_def,
    Option.bind_eq_bind, Option.bind_some, List.dropWhile_nil, if_true]

end Lending.Json
