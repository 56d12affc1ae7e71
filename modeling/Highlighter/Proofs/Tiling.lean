import Highlighter.Proofs.ErrorLines

/-!
# Lexemes tile a text

A lexeme carries its text and its place, and the place says which bytes of the text it takes
(`Lexeme.rangeOf`): they start where its place is and spell it (`range_of_place`). The bytes of the
lexemes are apart and in order (`ranges_apart`), and a byte of none of them is a blank
(`blank_of_uncovered`), so the lexemes and the blanks between them are the whole text.

The column of a lexeme leads back to where it stands on its line, also if the line has lost a
carriage return at its end (`column_offset_of_mem`). Only a line feed has no such way back: it may
stand after the carriage return that is lost.
-/

namespace Highlighter

namespace Text

/-- The bytes of a text in UTF-8. -/
def bytes (text : Text) : List UInt8 :=
  text.flatMap String.utf8EncodeChar

/-- Every byte is one of a character. -/
theorem exists_of_byte {text : Text} {offset : Nat} {byte : UInt8}
    (h : text.bytes[offset]? = some byte) :
    ∃ (before : Text) (c : Char) (after : Text), text = before ++ c :: after ∧
      before.byteLength ≤ offset ∧ offset < before.byteLength + c.utf8Size ∧
      byte ∈ String.utf8EncodeChar c := by
  induction text generalizing offset with
  | nil => simp [bytes] at h
  | cons c cs ih =>
      have hsize : (String.utf8EncodeChar c).length = c.utf8Size := String.length_utf8EncodeChar c
      rw [bytes, List.flatMap_cons] at h
      by_cases hfirst : offset < c.utf8Size
      · rw [List.getElem?_append_left (by omega)] at h
        exact ⟨[], c, cs, rfl, Nat.zero_le _, by simpa using hfirst, List.mem_of_getElem? h⟩
      · rw [List.getElem?_append_right (by omega), hsize] at h
        obtain ⟨before, d, after, rfl, hstart, hstop, hbyte⟩ := ih h
        refine ⟨c :: before, d, after, rfl, ?_, ?_, hbyte⟩
        · rw [byte_length_cons]
          omega
        · rw [byte_length_cons]
          omega

/-- Stripping a carriage return keeps all that stands before the last character. -/
theorem take_strip_return (start : Text) {rest : Text} (h : rest ≠ []) :
    (stripReturn (start ++ rest)).take start.length = start := by
  unfold stripReturn
  split
  · rw [List.dropLast_append_of_ne_nil h, List.take_left]
  · rw [List.take_left]

end Text

namespace Lexeme

/-- The bytes of a text that a lexeme of it takes. -/
def rangeOf (text : Text) (lexeme : Lexeme) : Range :=
  let start := text.offsetAt lexeme.pos
  ⟨start, start + lexeme.text.byteLength⟩

variable {text : Text} {lexeme : Lexeme}

/-- A lexeme takes its bytes after those of what stands before its place. -/
theorem range_of_place {before after : Text} (htext : text = before ++ after)
    (hpos : lexeme.pos = Position.start.advance before) :
    lexeme.rangeOf text = ⟨before.byteLength, (before ++ lexeme.text).byteLength⟩ := by
  rw [rangeOf, htext, hpos, Text.offset_at_advance, Text.byte_length_append]

/-- The bytes of lexemes are apart and in order. -/
theorem ranges_apart (text : Text) :
    (tokenize text).Pairwise fun first second =>
      (first.rangeOf text).stop ≤ (second.rangeOf text).start := by
  refine (scans_apart (scans_scan Position.start text)).imp ?_
  rintro first second ⟨before, between, after, htext, hfirst, hsecond⟩
  have hbefore : text = before ++ (first.text ++ between ++ second.text ++ after) := by
    simpa using htext
  have hbetween : text = before ++ first.text ++ between ++ (second.text ++ after) := by
    simpa using htext
  rw [range_of_place hbefore hfirst, range_of_place hbetween hsecond,
    Text.byte_length_append (before ++ first.text)]
  exact Nat.le_add_right _ _

/-- The bytes of a blank character are blanks. -/
theorem blank_byte {c : Char} {byte : UInt8} (hc : isBlank c = true)
    (hbyte : byte ∈ String.utf8EncodeChar c) :
    byte = 0x20 ∨ byte = 0x09 ∨ byte = 0x0d ∨ byte = 0x0c := by
  obtain ((rfl | rfl) | rfl) | rfl : ((c = ' ' ∨ c = '\t') ∨ c = '\r') ∨ c = '\x0c' := by
    simpa [isBlank] using hc
  · exact .inl (List.mem_singleton.1 hbyte)
  · exact .inr (.inl (List.mem_singleton.1 hbyte))
  · exact .inr (.inr (.inl (List.mem_singleton.1 hbyte)))
  · exact .inr (.inr (.inr (List.mem_singleton.1 hbyte)))

/-- A byte that no lexeme takes is a blank. -/
theorem blank_of_uncovered {offset : Nat} {byte : UInt8} (h : text.bytes[offset]? = some byte)
    (hnone : ∀ lexeme ∈ tokenize text, (lexeme.rangeOf text).contains offset = false) :
    byte = 0x20 ∨ byte = 0x09 ∨ byte = 0x0d ∨ byte = 0x0c := by
  obtain ⟨before, c, after, rfl, hstart, hstop, hbyte⟩ := Text.exists_of_byte h
  cases hblank : isBlank c with
  | true => exact blank_byte hblank hbyte
  | false =>
      -- The lexeme that the character belongs to takes the byte.
      obtain ⟨lexeme, hlexeme, start, first, second, last, rfl, hspelled, rfl, hpos⟩ :=
        scans_cover (scans_scan Position.start (before ++ c :: after)) hblank
      have hplace : start ++ first ++ c :: (second ++ last) =
          start ++ (first ++ c :: (second ++ last)) := List.append_assoc _ _ _
      have hmissed := hnone lexeme hlexeme
      rw [range_of_place hplace hpos, hspelled] at hmissed
      simp only [Range.contains, Text.byte_length_append, Text.byte_length_cons,
        Bool.and_eq_false_iff, decide_eq_false_iff_not] at hmissed hstart hstop
      omega

/-- The column of a lexeme that is no line feed is that of the bytes before it on its line. -/
theorem column_offset_of_mem {before after : Text} (h : lexeme ∈ tokenize text)
    (htext : text = before ++ lexeme.text ++ after)
    (hpos : lexeme.pos = ⟨before.count '\n' + 1, before.lastLine.length + 1⟩)
    (htoken : lexeme.token ≠ some .newline) :
    ∃ line, text.lines[lexeme.pos.line - 1]? = some line ∧
      line.columnOffset (some lexeme.pos.column) = before.lastLine.byteLength := by
  obtain ⟨c, hc, -⟩ := exists_not_blank h
  have hrest : lexeme.text ++ (Text.splitFeeds after).1 ≠ [] :=
    List.ne_nil_of_mem (List.mem_append_left _ hc)
  have hline := Text.line_at_word before after (feedless_of_mem h htoken)
  rw [← htext, List.append_assoc] at hline
  refine ⟨Text.stripReturn (before.lastLine ++ (lexeme.text ++ (Text.splitFeeds after).1)), ?_, ?_⟩
  · show (text.rawLines.map Text.stripReturn)[lexeme.pos.line - 1]? = _
    rw [hpos, Nat.add_sub_cancel, List.getElem?_map, hline, Option.map_some]
  · rw [hpos, Text.columnOffset, Text.charOffset, Nat.add_sub_cancel,
      Text.take_strip_return _ hrest]

/-- The lexemes of a text take byte ranges that are not empty, apart and in order, and every byte
outside them is a space, a tab, a carriage return or a form feed. The place of a lexeme counts the
line feeds before it and the characters since the last one, and so does the place of the end of the
text. On the line of its place, the column of a lexeme that is no line feed leads back to the number
of bytes that stand before it on the line. -/
theorem lexemes_tile (text : Text) :
    ((tokenize text).Pairwise fun first second =>
      (first.rangeOf text).stop ≤ (second.rangeOf text).start) ∧
    (∀ lexeme ∈ tokenize text, ∃ before after,
      text = before ++ lexeme.text ++ after ∧
      lexeme.rangeOf text = ⟨before.byteLength, (before ++ lexeme.text).byteLength⟩ ∧
      (lexeme.rangeOf text).start < (lexeme.rangeOf text).stop ∧
      lexeme.pos = ⟨before.count '\n' + 1, before.lastLine.length + 1⟩ ∧
      (lexeme.token ≠ some .newline → ∃ line, text.lines[lexeme.pos.line - 1]? = some line ∧
        line.columnOffset (some lexeme.pos.column) = before.lastLine.byteLength)) ∧
    (∀ offset byte, text.bytes[offset]? = some byte →
      (∀ lexeme ∈ tokenize text, (lexeme.rangeOf text).contains offset = false) →
      byte = 0x20 ∨ byte = 0x09 ∨ byte = 0x0d ∨ byte = 0x0c) ∧
    endPosition text = ⟨text.count '\n' + 1, text.lastLine.length + 1⟩ := by
  refine ⟨ranges_apart text, fun lexeme hlexeme => ?_, fun _ _ => blank_of_uncovered,
    Position.advance_start text⟩
  obtain ⟨before, after, htext, hpos, hshape⟩ := exists_of_mem_scans (scans_scan _ text) hlexeme
  have hrange := range_of_place (htext.trans (List.append_assoc _ _ _)) hpos
  have hbytes := Text.byte_length_pos hshape.ne_nil
  rw [Position.advance_start] at hpos
  refine ⟨before, after, htext, hrange, ?_, hpos, column_offset_of_mem hlexeme htext hpos⟩
  rw [hrange, Text.byte_length_append]
  exact Nat.lt_add_of_pos_right hbytes

/-- A comment after a literal of four bytes, whose line loses the carriage return that the comment
has, and a form feed below it. -/
theorem lexemes_tile_returned :
    let text : Text := "'ü' // x\r\n\x0cy".toList
    let remark : Lexeme := ⟨some .comment, "// x\r".toList, ⟨1, 5⟩⟩
    remark ∈ tokenize text ∧ remark.rangeOf text = ⟨5, 10⟩ ∧
      (∃ before after line : Text, text = before ++ remark.text ++ after ∧
        text.lines[0]? = some line ∧
        line.columnOffset (some 5) = before.lastLine.byteLength) ∧
      (∀ lexeme ∈ tokenize text, (lexeme.rangeOf text).contains 11 = false) ∧
      text.bytes[11]? = some 0x0c := by
  intro text remark
  have hremark : remark ∈ tokenize text := by decide +kernel
  obtain ⟨before, after, htext, -, -, -, hcolumn⟩ := (lexemes_tile text).2.1 remark hremark
  obtain ⟨line, hline, hoffset⟩ := hcolumn (by decide)
  exact ⟨hremark, by decide +kernel, ⟨before, after, line, htext, hline, hoffset⟩,
    by decide +kernel, by decide +kernel⟩

end Lexeme

end Highlighter
