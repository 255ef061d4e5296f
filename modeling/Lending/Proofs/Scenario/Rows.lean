import Lending.Proofs.Csv.Lines
import Lending.Scenario.Command
import Mathlib

/-!
# Rows of a scenario

A scenario is read row by row. What a row reads as depends on the row and on the header, and not on
the rows before it or after it, be they malformed or not.

* `Command.Heads`: the texts that consist of a header.
* `Command.readAll_append`: the commands of a text in two parts.
-/

namespace Lending.Command

/-- A text of complete lines whose only record is a header. A byte order mark may stand before
it. -/
def Heads (text : List UInt8) (header : Csv.Record) : Prop :=
  Csv.Lines (Csv.withoutByteOrderMark text) [header]

/-- Behind a header every record is read for itself. -/
theorem readAll_heads {head : List UInt8} {header : Csv.Record} (heads : Heads head header)
    (rest : List UInt8) :
    readAll (head ++ rest) = (Csv.rows rest).map (read (recordText? header)) := by
  rw [readAll, Csv.records_append heads]
  rfl

/-- Complete rows have one result each, and the results of the rows after them are as if they were
not there. -/
theorem readAll_append {head complete : List UInt8} {header : Csv.Record} {rows : List Csv.Record}
    (heads : Heads head header) (lines : Csv.Lines complete rows) (rest : List UInt8) :
    readAll (head ++ complete) = rows.map (read (recordText? header)) ∧
      readAll (head ++ complete ++ rest) = readAll (head ++ complete) ++ readAll (head ++ rest) := by
  have hcomplete : readAll (head ++ complete) = rows.map (read (recordText? header)) := by
    rw [readAll_heads heads, Csv.rows_lines lines]
  refine ⟨hcomplete, ?_⟩
  calc readAll (head ++ complete ++ rest)
      = (Csv.rows (complete ++ rest)).map (read (recordText? header)) := by
        rw [List.append_assoc, readAll_heads heads]
    _ = rows.map (read (recordText? header)) ++
          (Csv.rows rest).map (read (recordText? header)) := by
        rw [Csv.rows_append lines, List.map_append]
    _ = readAll (head ++ complete) ++ readAll (head ++ rest) := by
        rw [hcomplete, readAll_heads heads]

/-! ## A scenario with malformed rows -/

def headText : List UInt8 := [0xEF, 0xBB, 0xBF] ++ "op,id\r\n".toUTF8.toList

def headFields : Csv.Record := ["op".toUTF8.toList, "id".toUTF8.toList]

/-- A row with a line break between quotes, a row of an unknown operation, an empty line, a row
whose number is none, one that is not UTF-8 and one with a field more. -/
def mixedText : List UInt8 :=
  "decide,\"1\r\n\"\r\nrefund,1\n\ndecide,x\n".toUTF8.toList ++ [0xFF, 0x0A] ++
    "collect,4,,\r".toUTF8.toList

def mixedRows : List Csv.Record :=
  [["decide".toUTF8.toList, "1\r\n".toUTF8.toList], ["refund".toUTF8.toList, "1".toUTF8.toList],
    ["decide".toUTF8.toList, "x".toUTF8.toList], [[0xFF]],
    ["collect".toUTF8.toList, "4".toUTF8.toList, [], []]]

/-- Rows of which the last is not complete. -/
def restText : List UInt8 := "decide,2\ncollect,3".toUTF8.toList

theorem headText_heads : Heads headText headFields := Csv.lines_iff.mpr (by decide +kernel)

theorem mixedText_lines : Csv.Lines mixedText mixedRows := Csv.lines_iff.mpr (by decide +kernel)

/-- Three of the five rows fail, and the two rows after them are read as without them. -/
theorem readAll_mixed :
    Heads headText headFields ∧ Csv.Lines mixedText mixedRows ∧
      (readAll (headText ++ mixedText ++ restText)).map (fun row => row.toOption.bind (·.id)) =
        [some 1, none, none, none, some 4, some 2, some 3] ∧
      readAll (headText ++ mixedText ++ restText) =
        readAll (headText ++ mixedText) ++ readAll (headText ++ restText) :=
  ⟨headText_heads, mixedText_lines, by decide +kernel,
    (readAll_append headText_heads mixedText_lines restText).2⟩

end Lending.Command
