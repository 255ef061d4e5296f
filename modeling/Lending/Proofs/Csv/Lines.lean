import Lending.Csv.Reader
import Mathlib

/-!
# Complete lines

A grammar of CSV text, and what the reader makes of a text that follows it. After a complete line
the reader is where it was at the beginning, whatever stood in the line, so lines are read one for
one.

* `Spelled`: the ways to write a field; `Row`: fields with commas between them.
* `Lines`: rows and empty lines, each with its line end.
* `lines_iff`: the texts after which the reader is at the beginning of a record are those of
  complete lines.
* `records_append`: the records of complete lines and of what follows them, each for itself.
-/

namespace Lending.Csv

/-! ## Grammar -/

/-- A byte that stands for itself outside of quotes, unless it is a quote that begins a field. -/
def isPlain (b : UInt8) : Bool := b ≠ comma && !isLineEnd b

/-- The inside of a quoted part: a quote is written twice. -/
def doubled (content : List UInt8) : List UInt8 :=
  content.flatMap fun b => if b = quote then [quote, quote] else [b]

/-- Text outside of quotes that does not open a quoted part. -/
structure Bare (text : List UInt8) : Prop where
  plain : ∀ b ∈ text, isPlain b = true
  unquoted : text.head? ≠ some quote

/-- How a field is written: without quotes, or as a quoted part and text that follows it. -/
inductive Spelled : List UInt8 → Field → Prop
  | bare {text : List UInt8} (bare : Bare text) : Spelled text text
  | quoted (content : List UInt8) {text : List UInt8} (bare : Bare text) :
    Spelled (quote :: (doubled content ++ quote :: text)) (content ++ text)

/-- Fields with commas between them. -/
inductive Row : List UInt8 → Record → Prop
  | last {text : List UInt8} {field : Field} (spelled : Spelled text field) : Row text [field]
  | next {text rest : List UInt8} {field : Field} {fields : Record} (spelled : Spelled text field)
      (row : Row rest fields) : Row (text ++ comma :: rest) (field :: fields)

/-- Complete lines and the records in them. An empty line, such as the second half of a carriage
return with a line feed, has none. -/
inductive Lines : List UInt8 → List Record → Prop
  | nil : Lines [] []
  | empty {b : UInt8} {text : List UInt8} {records : List Record} (ends : isLineEnd b = true)
      (lines : Lines text records) : Lines (b :: text) records
  | row {text rest : List UInt8} {b : UInt8} {record : Record} {records : List Record}
      (row : Row text record) (ne : text ≠ []) (ends : isLineEnd b = true)
      (lines : Lines rest records) : Lines (text ++ b :: rest) (record :: records)

theorem Lines.append {a b : List UInt8} {as bs : List Record} (ha : Lines a as) (hb : Lines b bs) :
    Lines (a ++ b) (as ++ bs) := by
  induction ha with
  | nil => exact hb
  | empty ends _ ih => exact .empty ends ih
  | row row ne ends _ ih =>
    rw [List.append_assoc]
    exact .row row ne ends ih

/-! ## Scanning -/

theorem scan_append (a b : List UInt8) (s : State) (done : List Record) :
    scan (a ++ b) s done = scan b (scan a s done).1 (scan a s done).2 := by
  induction a generalizing s done with
  | nil => rfl
  | cons x a ih => exact ih _ _

/-- The records that were read before do not matter. -/
theorem scan_done (text : List UInt8) (s : State) (done : List Record) :
    scan text s done = ((scan text s []).1, (scan text s []).2 ++ done) := by
  induction text generalizing s done with
  | nil => rfl
  | cons b text ih =>
    simp only [scan]
    rw [ih _ (_ ++ done), ih _ (_ ++ [])]
    simp

namespace State

variable {s : State} {b : UInt8}

/-- Outside of quotes a plain byte is added to the field, but a quote may begin a quoted part. -/
theorem step_plain (hplace : s.place ≠ .inQuotes) (hplain : isPlain b = true)
    (hquote : b = quote → s.place = .inField) : s.step b = (s.add .inField b, none) := by
  simp only [isPlain, Bool.and_eq_true, decide_eq_true_eq, Bool.not_eq_true'] at hplain
  obtain ⟨hcomma, hend⟩ := hplain
  cases hp : s.place with
  | inQuotes => exact absurd hp hplace
  | inField => simp [step, hp, plain, hcomma, hend]
  | recordStart | fieldStart | afterQuote =>
    have hother : b ≠ quote := fun heq => by simp [hquote heq] at hp
    simp [step, hp, plain, hcomma, hend, hother]

/-- A comma outside of quotes ends the field. -/
theorem step_comma (hplace : s.place ≠ .inQuotes) : s.step comma = (s.endField, none) := by
  cases hp : s.place with
  | inQuotes => exact absurd hp hplace
  | recordStart | fieldStart | inField | afterQuote =>
    simp [step, hp, plain, comma, quote, isLineEnd]

/-- A line end outside of quotes ends the record, if it has begun. -/
theorem step_lineEnd (hplace : s.place ≠ .inQuotes) (hbegun : s.place ≠ .recordStart)
    (hend : isLineEnd b = true) : s.step b = ({}, some s.record) := by
  have hb : b ≠ comma ∧ b ≠ quote := by
    constructor <;> rintro rfl <;> cases hend
  cases hp : s.place with
  | inQuotes => exact absurd hp hplace
  | recordStart => exact absurd hp hbegun
  | fieldStart | inField | afterQuote => simp [step, hp, plain, hb, hend]

end State

/-- In the middle of a field, plain text is added to it. -/
theorem scan_plain {text : List UInt8} {s : State} (hplace : s.place = .inField)
    (hplain : ∀ b ∈ text, isPlain b = true) (done : List Record) :
    scan text s done = ({ s with field := text.reverse ++ s.field }, done) := by
  induction text generalizing s with
  | nil => rfl
  | cons b text ih =>
    obtain ⟨hb, htext⟩ := List.forall_mem_cons.mp hplain
    have hstep := State.step_plain (s := s) (by simp [hplace]) hb fun _ => hplace
    rw [scan, hstep]
    refine (ih rfl htext).trans ?_
    simp [State.add, hplace]

/-- Text that opens no quoted part is added to the field. -/
theorem scan_bare {text : List UInt8} {s : State} (hplace : s.place ≠ .inQuotes)
    (hbare : Bare text) (done : List Record) :
    scan text s done = ({ s with
      place := if text = [] then s.place else .inField
      field := text.reverse ++ s.field }, done) := by
  cases text with
  | nil => rfl
  | cons b text =>
    obtain ⟨hb, htext⟩ := List.forall_mem_cons.mp hbare.plain
    have hquote : b ≠ quote := fun heq => hbare.unquoted (congrArg some heq)
    have hstep := State.step_plain hplace hb fun heq => absurd heq hquote
    rw [scan, hstep]
    refine (scan_plain rfl htext done).trans ?_
    simp [State.add]

/-- In a quoted part everything is added to the field, and of two quotes one. -/
theorem scan_doubled {s : State} (hplace : s.place = .inQuotes) (content : List UInt8)
    (done : List Record) :
    scan (doubled content) s done = ({ s with field := content.reverse ++ s.field }, done) := by
  induction content generalizing s with
  | nil => rfl
  | cons b content ih =>
    have hhead : scan (if b = quote then [quote, quote] else [b]) s done =
        ({ s with field := b :: s.field }, done) := by
      split
      · rename_i hquote
        simp [scan, State.step, hplace, State.add, hquote]
      · rename_i hother
        simp [scan, State.step, hplace, State.add, hother]
    have hcons : doubled (b :: content) =
        (if b = quote then [quote, quote] else [b]) ++ doubled content := List.flatMap_cons
    rw [hcons, scan_append, hhead]
    refine (ih (s := { s with field := b :: s.field }) hplace).trans ?_
    simp

/-- Where fields begin. -/
def State.AtField (s : State) : Prop :=
  (s.place = .recordStart ∨ s.place = .fieldStart) ∧ s.field = []

/-- A field is read as it is written. Only an empty one leaves the reader at the beginning of the
record. -/
theorem scan_spelled {text : List UInt8} {field : Field} {s : State} (h : Spelled text field)
    (hs : s.AtField) (done : List Record) :
    ∃ s', scan text s done = (s', done) ∧ s'.place ≠ .inQuotes ∧ s'.fields = s.fields ∧
      s'.field.reverse = field ∧
      (s'.place = .recordStart → s.place = .recordStart ∧ text = []) := by
  obtain ⟨hplace, hfield⟩ := hs
  have houtside : s.place ≠ .inQuotes := by rcases hplace with hp | hp <;> simp [hp]
  cases h with
  | bare bare =>
    refine ⟨_, scan_bare houtside bare done, ?_, rfl, by simp [hfield], ?_⟩
    · by_cases hnil : text = [] <;> simp [hnil, houtside]
    · by_cases hnil : text = [] <;> simp [hnil]
  | @quoted content rest bare =>
    have hopen : s.step quote = ({ s with place := .inQuotes }, none) := by
      rcases hplace with hp | hp <;> simp [State.step, hp, quote, isLineEnd]
    have hclose : ∀ s : State, s.place = .inQuotes →
        s.step quote = ({ s with place := .afterQuote }, none) := by
      intro s hp
      simp [State.step, hp]
    rw [scan, hopen]
    dsimp only [Option.toList_none, List.nil_append]
    rw [scan_append, scan_doubled rfl, scan, hclose _ rfl]
    refine ⟨_, scan_bare (by simp) bare done, ?_, rfl, by simp [hfield], ?_⟩
    · by_cases hnil : rest = [] <;> simp [hnil]
    · by_cases hnil : rest = [] <;> simp [hnil]

/-- The fields of a row are added to those before it. -/
theorem scan_row {text : List UInt8} {record : Record} {s : State} (h : Row text record)
    (hs : s.AtField) (done : List Record) :
    ∃ s', scan text s done = (s', done) ∧ s'.place ≠ .inQuotes ∧
      s'.record = s.fields.reverse ++ record ∧
      (s'.place = .recordStart → s.place = .recordStart ∧ text = []) := by
  induction h generalizing s with
  | last spelled =>
    obtain ⟨s', hscan, hplace, hfields, hfield, hbegun⟩ := scan_spelled spelled hs done
    refine ⟨s', hscan, hplace, ?_, hbegun⟩
    rw [State.record, hfields, hfield, List.reverse_cons]
  | @next text rest field fields spelled row ih =>
    obtain ⟨s', hscan, hplace, hfields, hfield, -⟩ := scan_spelled spelled hs done
    obtain ⟨s'', hscan', hplace', hrecord, hbegun⟩ := ih (s := s'.endField) ⟨.inr rfl, rfl⟩
    refine ⟨s'', ?_, hplace', ?_, ?_⟩
    · rw [scan_append, hscan, scan, State.step_comma hplace]
      exact hscan'
    · rw [hrecord, State.endField, hfields, hfield, List.reverse_cons, List.append_assoc]
      rfl
    · intro hstart
      cases (hbegun hstart).1

/-- After complete lines the reader is where it began, and has their records. -/
theorem scan_lines {text : List UInt8} {records : List Record} (h : Lines text records)
    (done : List Record) : scan text {} done = ({}, records.reverse ++ done) := by
  induction h generalizing done with
  | nil => rfl
  | @empty b text records ends _ ih =>
    have hstep : ({} : State).step b = ({}, none) := by simp [State.step, ends]
    rw [scan, hstep]
    exact ih done
  | @row text rest b record records row ne ends _ ih =>
    obtain ⟨s, hscan, hplace, hrecord, hbegun⟩ := scan_row (s := {}) row ⟨.inl rfl, rfl⟩ done
    have hstep := State.step_lineEnd hplace (fun hstart => ne (hbegun hstart).2) ends
    rw [scan_append, hscan, scan, hstep, hrecord]
    refine (ih _).trans ?_
    simp

/-! ## What has been read

A text that has been read so far is complete lines and one line that is not complete, of which the
state tells how it goes on.
-/

/-- Fields with a comma after each. -/
inductive Begun : List UInt8 → List Field → Prop
  | nil : Begun [] []
  | field {before text : List UInt8} {fields : List Field} {field : Field}
      (begun : Begun before fields) (spelled : Spelled text field) :
      Begun (before ++ (text ++ [comma])) (fields ++ [field])

theorem Begun.row {before text : List UInt8} {fields : List Field} {record : Record}
    (begun : Begun before fields) (row : Row text record) :
    Row (before ++ text) (fields ++ record) := by
  induction begun generalizing text record with
  | nil => exact row
  | field _ spelled ih =>
    have hrow := ih (.next spelled row)
    simpa using hrow

/-- Text in which a field has begun, by the place after it, and what was read of the field. -/
inductive Unfinished : Place → List UInt8 → Field → Prop
  | recordStart : Unfinished .recordStart [] []
  | fieldStart : Unfinished .fieldStart [] []
  | bare {text : List UInt8} (bare : Bare text) (ne : text ≠ []) : Unfinished .inField text text
  | inQuotes (content : List UInt8) : Unfinished .inQuotes (quote :: doubled content) content
  | afterQuote (content : List UInt8) :
    Unfinished .afterQuote (quote :: (doubled content ++ [quote])) content
  | quoted (content : List UInt8) {text : List UInt8} (bare : Bare text) (ne : text ≠ []) :
    Unfinished .inField (quote :: (doubled content ++ quote :: text)) (content ++ text)

theorem Bare.nil : Bare [] := ⟨by simp, by simp⟩

theorem Bare.concat {text : List UInt8} {b : UInt8} (bare : Bare text) (hplain : isPlain b = true)
    (hquote : b = quote → text ≠ []) : Bare (text ++ [b]) where
  plain := by
    intro x hx
    rcases List.mem_append.mp hx with hx | hx
    · exact bare.plain x hx
    · exact List.mem_singleton.mp hx ▸ hplain
  unquoted := by
    cases text with
    | nil => exact fun heq => hquote (Option.some.inj heq) rfl
    | cons c text => exact bare.unquoted

theorem doubled_concat_quote (content : List UInt8) :
    doubled (content ++ [quote]) = doubled content ++ [quote, quote] := by
  simp [doubled]

theorem doubled_concat {b : UInt8} (hother : b ≠ quote) (content : List UInt8) :
    doubled (content ++ [b]) = doubled content ++ [b] := by
  simp [doubled, hother]

namespace Unfinished

variable {place : Place} {text : List UInt8} {field : Field}

/-- Outside of quotes a field may end. -/
theorem spelled (h : Unfinished place text field) (houtside : place ≠ .inQuotes) :
    Spelled text field := by
  cases h with
  | recordStart | fieldStart => exact .bare .nil
  | bare bare _ => exact .bare bare
  | inQuotes => exact absurd rfl houtside
  | afterQuote => simpa using Spelled.quoted field .nil
  | quoted content bare _ => exact .quoted content bare

theorem concat {b : UInt8} (h : Unfinished place text field) (houtside : place ≠ .inQuotes)
    (hplain : isPlain b = true) (hquote : b = quote → place = .inField) :
    Unfinished .inField (text ++ [b]) (field ++ [b]) := by
  cases h with
  | recordStart | fieldStart =>
    exact .bare (Bare.nil.concat hplain fun heq => nomatch hquote heq) (by simp)
  | bare bare ne => exact .bare (bare.concat hplain fun _ => ne) (by simp)
  | inQuotes => exact absurd rfl houtside
  | afterQuote =>
    have hbare := Bare.nil.concat hplain fun heq => nomatch hquote heq
    simpa using Unfinished.quoted field hbare (by simp)
  | quoted content bare ne =>
    simpa using Unfinished.quoted content (bare.concat hplain fun _ => ne) (by simp)

end Unfinished

namespace State

variable {s : State} {line : List UInt8}

/-- The state holds what an incomplete line says. -/
structure Holds (s : State) (line : List UInt8) : Prop where
  fields : ∃ before text, line = before ++ text ∧ Begun before s.fields.reverse ∧
    Unfinished s.place text s.field.reverse
  start : s.place = .recordStart ↔ line = []

theorem holds_nil : Holds {} [] := ⟨⟨[], [], rfl, .nil, .recordStart⟩, by simp⟩

theorem Holds.row (h : s.Holds line) (houtside : s.place ≠ .inQuotes) : Row line s.record := by
  obtain ⟨before, text, rfl, begun, unfinished⟩ := h.fields
  have hrow := begun.row (.last (unfinished.spelled houtside))
  simpa [record] using hrow

/-- The field in which the state is goes on with a byte. -/
theorem holds_concat {before text : List UInt8} {b : UInt8} (begun : Begun before s.fields.reverse)
    (unfinished : Unfinished s.place (text ++ [b]) s.field.reverse)
    (hplace : s.place ≠ .recordStart) : s.Holds (before ++ text ++ [b]) :=
  ⟨⟨before, text ++ [b], by simp, begun, unfinished⟩, by simp [hplace]⟩

theorem Holds.step_inQuotes (h : s.Holds line) (hplace : s.place = .inQuotes) (b : UInt8) :
    ∃ s', s.step b = (s', none) ∧ s'.Holds (line ++ [b]) := by
  obtain ⟨before, text, rfl, begun, unfinished⟩ := h.fields
  rw [hplace] at unfinished
  generalize hfield : s.field.reverse = field at unfinished
  cases unfinished
  by_cases hquote : b = quote
  · subst hquote
    refine ⟨{ s with place := .afterQuote }, by simp [step, hplace], holds_concat begun ?_ nofun⟩
    simpa [hfield] using Unfinished.afterQuote field
  · refine ⟨s.add .inQuotes b, by simp [step, hplace, hquote], holds_concat begun ?_ nofun⟩
    simpa [add, hfield, doubled_concat hquote] using Unfinished.inQuotes (field ++ [b])

/-- A quote opens a quoted part where a field begins, and stands for itself after a closing one. -/
theorem Holds.step_quote (h : s.Holds line) (hplace : s.place ≠ .inQuotes)
    (hbetween : s.place ≠ .inField) :
    ∃ s', s.step quote = (s', none) ∧ s'.Holds (line ++ [quote]) := by
  obtain ⟨before, text, rfl, begun, unfinished⟩ := h.fields
  generalize hp : s.place = place at unfinished hplace hbetween
  generalize hfield : s.field.reverse = field at unfinished
  cases unfinished with
  | recordStart | fieldStart =>
    refine ⟨{ s with place := .inQuotes }, by simp [step, hp, isLineEnd, quote],
      holds_concat begun ?_ nofun⟩
    simpa [hfield, doubled] using Unfinished.inQuotes []
  | bare | quoted => exact absurd rfl hbetween
  | inQuotes => exact absurd rfl hplace
  | afterQuote =>
    refine ⟨s.add .inQuotes quote, by simp [step, hp], holds_concat begun ?_ nofun⟩
    simpa [add, hfield, doubled_concat_quote] using Unfinished.inQuotes (field ++ [quote])

/-- What a byte does to an incomplete line: it passes an empty one over, ends one that is a row, or
belongs to it. -/
theorem Holds.step (h : s.Holds line) (b : UInt8) :
    (isLineEnd b = true ∧ line = [] ∧ s.step b = ({}, none)) ∨
    (isLineEnd b = true ∧ line ≠ [] ∧ ∃ record, Row line record ∧ s.step b = ({}, some record)) ∨
    ∃ s', s.step b = (s', none) ∧ s'.Holds (line ++ [b]) := by
  by_cases hplace : s.place = .inQuotes
  · exact .inr (.inr (h.step_inQuotes hplace b))
  by_cases hend : isLineEnd b = true
  · by_cases hline : line = []
    · exact .inl ⟨hend, hline, by simp [State.step, h.start.mpr hline, hend]⟩
    · have hbegun : s.place ≠ .recordStart := fun hstart => hline (h.start.mp hstart)
      exact .inr (.inl ⟨hend, hline, _, h.row hplace, step_lineEnd hplace hbegun hend⟩)
  refine .inr (.inr ?_)
  by_cases hcomma : b = comma
  · obtain ⟨before, text, rfl, begun, unfinished⟩ := h.fields
    have hbegun := begun.field (unfinished.spelled hplace)
    have hline : before ++ text ++ [b] = before ++ (text ++ [comma]) ++ [] := by simp [hcomma]
    refine ⟨s.endField, hcomma ▸ step_comma hplace, ⟨_, [], hline, ?_, .fieldStart⟩, ?_⟩
    · simpa [endField] using hbegun
    · simp [endField]
  by_cases hquote : b = quote ∧ s.place ≠ .inField
  · rw [hquote.1]
    exact h.step_quote hplace hquote.2
  · have hplain : isPlain b = true := by simp [isPlain, hcomma, hend]
    have hfield : b = quote → s.place = .inField := by simpa using hquote
    obtain ⟨before, text, rfl, begun, unfinished⟩ := h.fields
    refine ⟨s.add .inField b, step_plain hplace hplain hfield, holds_concat begun ?_ nofun⟩
    simpa [add] using unfinished.concat hplace hplain hfield

end State

/-- Every text is complete lines and an incomplete one, and that is how it is read. -/
theorem exists_lines (text : List UInt8) :
    ∃ complete line records s, text = complete ++ line ∧ Lines complete records ∧
      scan text {} [] = (s, records.reverse) ∧ s.Holds line := by
  induction text using List.reverseRecOn with
  | nil => exact ⟨[], [], [], {}, rfl, .nil, rfl, State.holds_nil⟩
  | append_singleton text b ih =>
    obtain ⟨complete, line, records, s, rfl, lines, hscan, holds⟩ := ih
    have hscan' : scan (complete ++ (line ++ [b])) {} [] =
        ((s.step b).1, (s.step b).2.toList ++ records.reverse) := by
      rw [← List.append_assoc, scan_append, hscan]
      rfl
    rw [List.append_assoc]
    rcases holds.step b with
      ⟨hend, rfl, hstep⟩ | ⟨hend, hline, record, row, hstep⟩ | ⟨s', hstep, holds'⟩
    · refine ⟨complete ++ [b], [], records, {}, by simp, ?_, ?_, State.holds_nil⟩
      · simpa using lines.append (.empty hend .nil)
      · simpa [hstep] using hscan'
    · refine ⟨complete ++ (line ++ [b]), [], records ++ [record], {}, by simp, ?_, ?_,
        State.holds_nil⟩
      · exact lines.append (.row row hline hend .nil)
      · simpa [hstep] using hscan'
    · refine ⟨complete, line ++ [b], records, s', rfl, lines, ?_, holds'⟩
      simpa [hstep] using hscan'

/-- The texts after which the reader is at the beginning of a record are those of complete lines. -/
theorem lines_iff {text : List UInt8} {records : List Record} :
    Lines text records ↔ scan text {} [] = ({}, records.reverse) := by
  constructor
  · intro lines
    simpa using scan_lines lines []
  · intro hscan
    obtain ⟨complete, line, records', s, rfl, lines, hscan', holds⟩ := exists_lines text
    obtain ⟨rfl, hrecords⟩ := Prod.mk.inj (hscan'.symm.trans hscan)
    obtain rfl := List.reverse_injective hrecords
    obtain rfl := holds.start.mp rfl
    simpa using lines

/-! ## Records -/

/-- The records of a text, whatever its first bytes are. -/
def rows (text : List UInt8) : List Record :=
  ((scan text {} []).1.finish.toList ++ (scan text {} []).2).reverse

theorem records_eq_rows (bytes : List UInt8) : records bytes = rows (withoutByteOrderMark bytes) :=
  rfl

/-- Complete lines are read for themselves, and what follows them as if they were not there. -/
theorem rows_append {text : List UInt8} {records : List Record} (h : Lines text records)
    (rest : List UInt8) : rows (text ++ rest) = records ++ rows rest := by
  rw [rows, scan_append, scan_lines h, scan_done]
  simp [rows]

theorem rows_lines {text : List UInt8} {records : List Record} (h : Lines text records) :
    rows text = records := by
  have hrows := rows_append h []
  rw [List.append_nil] at hrows
  rw [hrows]
  exact List.append_nil records

def byteOrderMark : List UInt8 := [0xEF, 0xBB, 0xBF]

theorem withoutByteOrderMark_of_unmarked {bytes : List UInt8} (h : ¬ byteOrderMark <+: bytes) :
    withoutByteOrderMark bytes = bytes := by
  unfold withoutByteOrderMark
  split
  · rename_i rest
    exact absurd ⟨rest, rfl⟩ h
  · rfl

/-- A text with a record does not end within a byte order mark, so what follows it does not matter
to where it begins. -/
theorem withoutByteOrderMark_append {text : List UInt8} {record : Record} {records : List Record}
    (lines : Lines (withoutByteOrderMark text) (record :: records)) (rest : List UInt8) :
    withoutByteOrderMark (text ++ rest) = withoutByteOrderMark text ++ rest := by
  by_cases hmark : byteOrderMark <+: text
  · obtain ⟨text, rfl⟩ := hmark
    rfl
  rw [withoutByteOrderMark_of_unmarked hmark] at lines ⊢
  refine withoutByteOrderMark_of_unmarked fun hmark' => ?_
  have hprefix := List.prefix_or_prefix_of_prefix hmark' (List.prefix_append text rest)
  rcases hprefix with hprefix | hprefix
  · exact hmark hprefix
  have hscan := lines_iff.mp lines
  have htext := (List.mem_inits _ _).mpr hprefix
  simp only [byteOrderMark, List.inits, List.map_cons, List.map_nil, List.mem_cons,
    List.not_mem_nil, or_false] at htext
  have hnone : (scan text {} []).2 = [] := by rcases htext with rfl | rfl | rfl | rfl <;> rfl
  rw [hscan] at hnone
  exact List.reverse_ne_nil_iff.mpr (List.cons_ne_nil record records) hnone

/-- The records of a text that begins with complete lines. -/
theorem records_append {text : List UInt8} {record : Record} {done : List Record}
    (lines : Lines (withoutByteOrderMark text) (record :: done)) (rest : List UInt8) :
    records (text ++ rest) = record :: (done ++ rows rest) := by
  rw [records_eq_rows, withoutByteOrderMark_append lines, rows_append lines, List.cons_append]

end Lending.Csv
