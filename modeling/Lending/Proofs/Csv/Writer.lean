import Lending.Csv.Writer
import Lending.Proofs.Csv.Lines
import Mathlib

/-!
# Written records read back

Written records are complete lines, whose fields are those that were written. Whether a field stands
between quotes is decided by its characters, and it is read by its bytes; the two agree because the
bytes of the characters that matter occur in no other character.

* `spelled_fieldChars`: every text is spelled by what is written for it.
* `lines_records`: written records are complete lines.
* `texts?_of_lines`: the texts that are read from complete lines.
-/

namespace Lending.Csv

/-! ## Bytes of characters -/

def bytes (cs : List Char) : List UInt8 := cs.flatMap String.utf8EncodeChar

theorem bytes_append (a b : List Char) : bytes (a ++ b) = bytes a ++ bytes b := List.flatMap_append

theorem bytes_cons (c : Char) (cs : List Char) :
    bytes (c :: cs) = String.utf8EncodeChar c ++ bytes cs := List.flatMap_cons

theorem toList_toUTF8 (text : String) : text.toUTF8.data.toList = bytes text.toList := by
  rw [String.toUTF8_eq_toByteArray, ← String.utf8Encode_toList, List.utf8Encode,
    List.toList_data_toByteArray]
  rfl

/-- The byte of an ASCII character occurs in no other character. -/
theorem eq_of_mem_utf8EncodeChar {c d : Char} (hd : d.toNat < 128)
    (h : UInt8.ofNat d.toNat ∈ String.utf8EncodeChar c) : c = d := by
  have hmem : d.toNat ∈ (String.utf8EncodeChar c).map UInt8.toNat := by
    have hbyte : (UInt8.ofNat d.toNat).toNat = d.toNat := by
      rw [UInt8.toNat_ofNat', Nat.mod_eq_of_lt (by omega)]
    exact hbyte ▸ List.mem_map_of_mem h
  have hval : c.val.toNat = c.toNat := rfl
  unfold String.utf8EncodeChar at hmem
  dsimp only at hmem
  -- every byte of a longer character is 128 or more
  split_ifs at hmem <;>
    simp only [List.map_cons, List.map_nil, List.mem_cons, List.not_mem_nil, or_false,
      UInt8.toNat_ofNat'] at hmem
  · exact Char.toNat_inj.mp (by omega)
  all_goals omega

theorem of_mem_bytes {d : Char} {cs : List Char} (hd : d.toNat < 128)
    (h : UInt8.ofNat d.toNat ∈ bytes cs) : d ∈ cs := by
  obtain ⟨c, hc, hbyte⟩ := List.mem_flatMap.mp h
  exact eq_of_mem_utf8EncodeChar hd hbyte ▸ hc

theorem fromUTF8?_bytes (cs : List Char) :
    String.fromUTF8? ⟨(bytes cs).toArray⟩ = some (String.ofList cs) := by
  have hencode : (⟨(bytes cs).toArray⟩ : ByteArray) = cs.utf8Encode := by
    apply ByteArray.ext
    rw [List.utf8Encode, List.data_toByteArray]
    rfl
  rw [hencode, String.fromUTF8?, dif_pos ByteArray.isValidUTF8_utf8Encode]
  rfl

/-! ## Fields and records -/

theorem doubled_append (a b : List UInt8) : doubled (a ++ b) = doubled a ++ doubled b :=
  List.flatMap_append

theorem doubled_of_unquoted {content : List UInt8} (h : quote ∉ content) :
    doubled content = content := by
  induction content with
  | nil => rfl
  | cons b content ih =>
    rw [List.mem_cons, not_or] at h
    obtain ⟨hb, hcontent⟩ := h
    rw [doubled, List.flatMap_cons, if_neg (Ne.symm hb), ← doubled, ih hcontent]
    rfl

theorem not_mem_bytes_of_needsQuotes {field : List Char} (h : needsQuotes field = false) {d : Char}
    (hd : d = ',' ∨ d = '"' ∨ d = '\n' ∨ d = '\r') : UInt8.ofNat d.toNat ∉ bytes field := by
  intro hmem
  have hfield : d ∈ field := of_mem_bytes (by rcases hd with rfl | rfl | rfl | rfl <;> decide) hmem
  rw [needsQuotes, List.any_eq_false] at h
  exact h d hfield (by simpa [or_assoc] using hd)

/-- What needs no quotes is read as it stands. -/
theorem bare_bytes {field : List Char} (h : needsQuotes field = false) : Bare (bytes field) where
  plain := by
    intro b hb
    have hcomma : b ≠ comma := by
      rintro rfl
      exact not_mem_bytes_of_needsQuotes h (.inl rfl) hb
    have hend : isLineEnd b = false := by
      rw [isLineEnd, Bool.or_eq_false_iff, decide_eq_false_iff_not, decide_eq_false_iff_not]
      constructor <;> rintro rfl
      · exact not_mem_bytes_of_needsQuotes h (.inr (.inr (.inl rfl))) hb
      · exact not_mem_bytes_of_needsQuotes h (.inr (.inr (.inr rfl))) hb
    simp [isPlain, hcomma, hend]
  unquoted := fun heq =>
    not_mem_bytes_of_needsQuotes h (.inr (.inl rfl)) (List.mem_of_head? heq)

theorem bytes_quotedField (field : List Char) :
    bytes (quotedField field) = quote :: (doubled (bytes field) ++ [quote]) := by
  have hinside : bytes (field.flatMap fun c => if c = '"' then ['"', '"'] else [c]) =
      doubled (bytes field) := by
    induction field with
    | nil => rfl
    | cons c field ih =>
      rw [List.flatMap_cons, bytes_append, ih, bytes_cons, doubled_append]
      congr 1
      split
      · rename_i hquote
        rw [hquote]
        rfl
      · rename_i hother
        rw [doubled_of_unquoted fun hmem => hother (eq_of_mem_utf8EncodeChar (by decide) hmem)]
        exact List.append_nil _
  rw [quotedField, List.cons_append, bytes_cons, bytes_append, hinside]
  rfl

/-- Every text is spelled by what is written for it. -/
theorem spelled_fieldChars (field : List Char) :
    Spelled (bytes (fieldChars field)) (bytes field) := by
  rw [fieldChars]
  split
  · rw [bytes_quotedField]
    simpa using Spelled.quoted (bytes field) .nil
  · rename_i h
    exact .bare (bare_bytes (Bool.eq_false_iff.mpr h))

example : fieldChars "a \"b\", c".toList = "\"a \"\"b\"\", c\"".toList := by decide

theorem row_intercalate {fields : List (List Char)} (hne : fields ≠ []) :
    Row (bytes ([','].intercalate (fields.map fieldChars))) (fields.map bytes) := by
  induction fields with
  | nil => exact absurd rfl hne
  | cons field fields ih =>
    cases fields with
    | nil =>
      rw [List.map_singleton, List.intercalate_singleton]
      exact .last (spelled_fieldChars field)
    | cons next fields =>
      have hrow := Row.next (spelled_fieldChars field) (ih (List.cons_ne_nil next fields))
      rw [List.map_cons, List.map_cons, List.intercalate_cons_cons, bytes_append, bytes_append,
        List.append_assoc]
      exact hrow

theorem Row.ne_nil {text : List UInt8} {record : Record} (row : Row text record)
    (hlength : 2 ≤ record.length) : text ≠ [] := by
  cases row with
  | last => simp at hlength
  | next => simp

/-- A written record of two fields or more is a complete line. -/
theorem lines_recordChars {fields : List (List Char)} (hlength : 2 ≤ fields.length) :
    Lines (bytes (recordChars fields)) [fields.map bytes] := by
  have hfields : fields ≠ [] := by
    rintro rfl
    simp at hlength
  have hrow := row_intercalate hfields
  have hne : bytes ([','].intercalate (fields.map fieldChars)) ≠ [] :=
    hrow.ne_nil (by rwa [List.length_map])
  rw [recordChars, bytes_append]
  exact .row hrow hne rfl .nil

theorem lines_records {rows : List (List (List Char))}
    (hrows : ∀ fields ∈ rows, 2 ≤ fields.length) :
    Lines (bytes (rows.flatMap recordChars)) (rows.map (·.map bytes)) := by
  induction rows with
  | nil => exact .nil
  | cons fields rows ih =>
    obtain ⟨hfields, hrest⟩ := List.forall_mem_cons.mp hrows
    rw [List.flatMap_cons, bytes_append]
    exact (lines_recordChars hfields).append (ih hrest)

/-! ## Reading texts -/

/-- The records of a text, with their fields as texts. Blanks around a field belong to it. -/
def texts? (text : String) : Option (List (List String)) :=
  (records text.toUTF8.data.toList).mapM (·.mapM fun field => String.fromUTF8? ⟨field.toArray⟩)

theorem texts?_of_lines {text : String} {rows : List (List (List Char))}
    (lines : Lines (withoutByteOrderMark (bytes text.toList)) (rows.map (·.map bytes))) :
    texts? text = some (rows.map (·.map String.ofList)) := by
  have hfield : (fun field : Field => String.fromUTF8? ⟨field.toArray⟩) ∘ bytes =
      fun field => pure (String.ofList field) := funext fromUTF8?_bytes
  have hfields : (fun record : Record => record.mapM fun field =>
      String.fromUTF8? ⟨field.toArray⟩) ∘ List.map bytes =
        fun fields => pure (fields.map String.ofList) := by
    funext fields
    rw [Function.comp_apply, List.mapM_map, hfield, List.mapM_pure]
  rw [texts?, toList_toUTF8, records_eq_rows, rows_lines lines, List.mapM_map, hfields,
    List.mapM_pure]
  rfl

end Lending.Csv
