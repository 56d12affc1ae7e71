import Highlighter.Proofs.PatternPaint

/-!
# Plain entries are painted alike

A plain entry is a line with a bare key, an equals sign and a scalar, and maybe a comment. On such a
line the rules by patterns show one lexeme after the other: the comment, a string, the key with its
equals sign (`PlainEntry.line_key`), a boolean, a null, a number. A match anywhere else starts in a
lexeme that is shown already, so at the end all lexemes are shown (`PlainEntry.painted_patterns`).
That is what painting from the tree shows, so the line looks the same whether the document can be
read or not (`plain_entry_painted_alike`).
-/

namespace Highlighter

open Lexeme

/-- A token that is a scalar. -/
def Token.isScalar : Token → Bool
  | .string => true
  | .number => true
  | .bool _ => true
  | .null => true
  | _ => false

/-- Whether tokens are those of a plain entry: a bare key, an equals sign, a scalar and maybe a
comment. -/
def isPlainEntry : List (Option Token) → Bool
  | [some .ident, some .equals, some value] => value.isScalar
  | [some .ident, some .equals, some value, some .comment] => value.isScalar
  | _ => false

/-- Lexemes with the tokens of a plain entry. -/
theorem exists_of_plain_entry {lexemes : List Lexeme}
    (h : isPlainEntry (lexemes.map Lexeme.token) = true) :
    ∃ key equals value comments token, lexemes = key :: equals :: value :: comments ∧
      key.token = some .ident ∧ equals.token = some .equals ∧ value.token = some token ∧
      token.isScalar = true ∧ ∀ comment ∈ comments, comment.token = some .comment := by
  unfold isPlainEntry at h
  split at h
  · next token htokens =>
      obtain ⟨key, rest, rfl, hkey, hrest⟩ := List.map_eq_cons_iff.1 htokens
      obtain ⟨equals, rest, rfl, hequals, hrest⟩ := List.map_eq_cons_iff.1 hrest
      obtain ⟨value, rest, rfl, hvalue, hrest⟩ := List.map_eq_cons_iff.1 hrest
      obtain rfl := List.map_eq_nil_iff.1 hrest
      exact ⟨key, equals, value, [], token, rfl, hkey, hequals, hvalue, h, by simp⟩
  · next token htokens =>
      obtain ⟨key, rest, rfl, hkey, hrest⟩ := List.map_eq_cons_iff.1 htokens
      obtain ⟨equals, rest, rfl, hequals, hrest⟩ := List.map_eq_cons_iff.1 hrest
      obtain ⟨value, rest, rfl, hvalue, hrest⟩ := List.map_eq_cons_iff.1 hrest
      obtain ⟨comment, rest, rfl, hcomment, hrest⟩ := List.map_eq_cons_iff.1 hrest
      obtain rfl := List.map_eq_nil_iff.1 hrest
      exact ⟨key, equals, value, [comment], token, rfl, hkey, hequals, hvalue, h,
        by simpa using hcomment⟩
  · cases h

/-- An identifier starts with a letter or an underscore. -/
theorem head_of_ident {word rest : Text} (h : Munched (some .ident) word rest) :
    word.head?.any (fun c => c.isAlpha || c == '_') = true := by
  cases h with
  | char c _ _ htoken => cases (char_token_ne htoken).1
  | word c tail _ _ _ hc => exact hc

/-- The key of a line that starts with one, where nothing but spaces and tabs stands around it. -/
theorem line_key_eq {indent key gap : Text} (rest : Text)
    (hindent : ∀ c ∈ indent, isIndent c = true) (hgap : ∀ c ∈ gap, isIndent c = true)
    (hkey : ∀ c ∈ key, Text.isIdentChar c = true)
    (hhead : key.head?.any (fun c => c.isAlpha || c == '_') = true) :
    lineKey? (indent ++ (key ++ (gap ++ '=' :: rest))) =
      some (⟨indent.length, indent.length + key.length⟩,
        indent.length + key.length + gap.length) := by
  have hapart : ∀ c, isIndent c = true → Text.isIdentChar c = false := by
    intro c hc
    obtain rfl | rfl : c = ' ' ∨ c = '\t' := by simpa [isIndent] using hc
    · rfl
    · rfl
  obtain ⟨first, tail, rfl⟩ : ∃ first tail, key = first :: tail := by
    cases key with
    | nil => cases hhead
    | cons first tail => exact ⟨first, tail, rfl⟩
  -- Each part ends where the next one starts with a character of another sort.
  have hspaces : (indent ++ (first :: tail ++ (gap ++ '=' :: rest))).takeWhile isIndent =
      indent := by
    rw [Text.take_while_append indent, List.takeWhile_eq_self_iff.2 hindent]
    intro c hc
    obtain rfl : first = c := by simpa using hc
    by_contra hspace
    have := hapart first (by simpa using hspace)
    rw [hkey first List.mem_cons_self] at this
    cases this
  have hword : (first :: tail ++ (gap ++ '=' :: rest)).takeWhile Text.isIdentChar =
      first :: tail := by
    rw [Text.take_while_append (first :: tail), List.takeWhile_eq_self_iff.2 hkey]
    intro c hc
    cases gap with
    | nil =>
        obtain rfl : '=' = c := by simpa using hc
        rfl
    | cons space spaces =>
        obtain rfl : space = c := by simpa using hc
        exact hapart space (hgap space List.mem_cons_self)
  have hspaces' : (gap ++ '=' :: rest).takeWhile isIndent = gap := by
    rw [Text.take_while_append gap, List.takeWhile_eq_self_iff.2 hgap]
    intro c hc
    obtain rfl : '=' = c := by simpa using hc
    rfl
  have hsign : ((first :: tail ++ (gap ++ '=' :: rest)).drop
      ((first :: tail).length + gap.length)).head? = some '=' := by
    rw [← List.append_assoc, ← List.length_append, List.drop_left]
    rfl
  simp only [lineKey?, hspaces, List.drop_left, hword, hspaces', hsign]
  rw [if_pos]
  simpa using hhead

/-- The categories of what is shown before words and numbers are: the comment, strings, the key and
the equals sign. -/
def heads : List Category :=
  [.operator, .key, .string, .comment, .docComment]

/-- `PlainEntry number line lexemes key equals value comments` says that a line is a plain entry
with the given lexemes, and that its blanks before the equals sign are spaces and tabs. -/
structure PlainEntry (number : Nat) (line : Text) (lexemes : List Lexeme)
    (key equals value : Lexeme) (comments : List Lexeme) : Prop where
  legible : Legible number line lexemes
  shape : lexemes = key :: equals :: value :: comments
  ident : key.token = some .ident
  sign : equals.token = some .equals
  scalar : ∃ token, value.token = some token ∧ token.isScalar = true
  remarks : ∀ comment ∈ comments, comment.token = some .comment
  indented : ∀ c ∈ line.takeWhile (· ≠ '='), isBlank c = true → isIndent c = true

namespace PlainEntry

variable {number : Nat} {line : Text} {lexemes : List Lexeme} {key equals value : Lexeme}
  {comments : List Lexeme} (h : PlainEntry number line lexemes key equals value comments)

include h

/-- The lexemes of the line. -/
theorem mem_iff {lexeme : Lexeme} :
    lexeme ∈ lexemes ↔ lexeme = key ∨ lexeme = equals ∨ lexeme = value ∨ lexeme ∈ comments := by
  rw [h.shape, List.mem_cons, List.mem_cons, List.mem_cons]

/-- The line is its key and its equals sign with spaces and tabs around the key, and the rest. -/
theorem exists_cut :
    ∃ indent gap rest, line = indent ++ (key.text ++ (gap ++ '=' :: rest)) ∧
      (∀ c ∈ indent, isIndent c = true) ∧ (∀ c ∈ gap, isIndent c = true) ∧
      key.rangeIn line = ⟨indent.byteLength, indent.byteLength + key.text.byteLength⟩ ∧
      equals.rangeIn line = ⟨(indent ++ key.text ++ gap).byteLength,
        (indent ++ key.text ++ gap).byteLength + 1⟩ := by
  obtain ⟨-, hident⟩ := h.legible.ident_chars (h.mem_iff.2 (.inl rfl)) h.ident rfl (by simp)
  have hscans := h.legible.scans
  rw [h.shape] at hscans
  obtain ⟨indent, after, hline, hindent, hpos, -, hscans⟩ := scans_cons hscans
  obtain ⟨gap, rest, rfl, hgap, hplace, hshape, -⟩ := scans_cons hscans
  rw [h.sign] at hshape
  have htext : equals.text = ['='] := text_of_char_token rfl hshape
  rw [← Position.advance_append] at hplace
  have hwhole : line = indent ++ (key.text ++ (gap ++ '=' :: rest)) := by simp [hline, htext]
  have hfront : line.takeWhile (· ≠ '=') = indent ++ key.text ++ gap := by
    have hcut : line = (indent ++ key.text ++ gap) ++ '=' :: rest := by simp [hwhole]
    have hbefore : ∀ c ∈ indent ++ key.text ++ gap, decide (c ≠ '=') = true := by
      intro c hc
      refine decide_eq_true fun hsame => ?_
      subst hsame
      rw [List.mem_append, List.mem_append] at hc
      obtain (hc | hc) | hc := hc
      · cases hindent _ hc
      · cases hident _ hc
      · cases hgap _ hc
    rw [hcut, Text.take_while_append _ (by simp), List.takeWhile_eq_self_iff.2 hbefore]
  have hindented : ∀ c ∈ indent ++ key.text ++ gap, isBlank c = true → isIndent c = true :=
    hfront ▸ h.indented
  refine ⟨indent, gap, rest, hwhole, fun c hc => ?_, fun c hc => ?_, ?_, ?_⟩
  · exact hindented c (by simp [hc]) (hindent c hc)
  · exact hindented c (by simp [hc]) (hgap c hc)
  · exact range_in_of_pos hwhole.symm h.legible.feedless hpos
  · have hplaced : (indent ++ key.text ++ gap) ++ '=' :: rest = line := by simp [hwhole]
    rw [range_in_of_pos hplaced h.legible.feedless hplace, htext]
    rfl

/-- The key of the line and its equals sign are found at its start. -/
theorem line_key : lineKey? line = some (key.rangeIn line, (equals.rangeIn line).start) := by
  have hmem : key ∈ lexemes := h.mem_iff.2 (.inl rfl)
  obtain ⟨_, _, -, hshape, -⟩ := h.legible.place hmem
  obtain ⟨-, hident⟩ := h.legible.ident_chars hmem h.ident rfl (by simp)
  obtain ⟨indent, gap, rest, hline, hindent, hgap, hkey, hequals⟩ := h.exists_cut
  have hhead := head_of_ident (h.ident ▸ hshape)
  have hbytes := Text.byte_length_ascii fun c hc => ascii_of_ident (hident c hc)
  have hspaces := Text.byte_length_ascii fun c hc => ascii_of_indent (hindent c hc)
  have hspaces' := Text.byte_length_ascii fun c hc => ascii_of_indent (hgap c hc)
  have hfound := line_key_eq rest hindent hgap hident hhead
  rw [← hline] at hfound
  rw [hfound, hkey, hequals, Text.byte_length_append, Text.byte_length_append, hbytes, hspaces,
    hspaces']

/-- A string on the line is no key. -/
theorem string_not_key {lexeme : Lexeme} (hlexeme : lexeme ∈ lexemes)
    (hstring : lexeme.token = some .string) : lexeme.isKeyIn lexemes = false := by
  rw [h.mem_iff] at hlexeme
  obtain rfl | rfl | rfl | hcomment := hlexeme
  · simp [h.ident] at hstring
  · simp [h.sign] at hstring
  · -- Nothing but a comment follows the value.
    have hsplit : lexemes = [key, equals] ++ lexeme :: comments := h.shape
    rw [h.legible.is_key_of_split hsplit, Bool.eq_false_iff, Ne, starts_with_equals_iff]
    intro hequals
    obtain ⟨other, rest, rfl, hsign⟩ := hequals
    simp [h.remarks other List.mem_cons_self] at hsign
  · simp [h.remarks lexeme hcomment] at hstring

/-- What the lexemes of the line look like. -/
theorem shade {lexeme : Lexeme} (hlexeme : lexeme ∈ lexemes) :
    lexeme.shadeIn lexemes = lexeme.category? true :=
  Legible.shade_of_value (h.string_not_key hlexeme)

/-- The shade of a lexeme tells its token. -/
theorem tells {lexeme : Lexeme} {category : Category} (hlexeme : lexeme ∈ lexemes)
    (hshade : lexeme.shadeIn lexemes = some category) : category.Tells lexeme.token :=
  tells_token ((h.shade hlexeme).symm.trans hshade)

/-- Only the key is an identifier, and only the equals sign is one. -/
theorem eq_of_head {lexeme : Lexeme} (hlexeme : lexeme ∈ lexemes) :
    (lexeme.token = some .ident → lexeme = key) ∧
      (lexeme.token = some .equals → lexeme = equals) := by
  rw [h.mem_iff] at hlexeme
  obtain rfl | rfl | rfl | hcomment := hlexeme
  · exact ⟨fun _ => rfl, fun hsign => by simp [h.ident] at hsign⟩
  · exact ⟨fun hident => by simp [h.sign] at hident, fun _ => rfl⟩
  · obtain ⟨token, htoken, hscalar⟩ := h.scalar
    rw [htoken]
    cases token with
    | ident => cases hscalar
    | equals => cases hscalar
    | _ => simp
  · simp [h.remarks lexeme hcomment]

/-- What the key looks like. -/
theorem shade_key : key.shadeIn lexemes = some .key := by
  rw [h.shade (h.mem_iff.2 (.inl rfl))]
  simp [Lexeme.category?, h.ident]

/-- What the equals sign looks like. -/
theorem shade_equals : equals.shadeIn lexemes = some .operator := by
  rw [h.shade (h.mem_iff.2 (.inr (.inl rfl)))]
  simp [Lexeme.category?, h.sign]

/-- Each lexeme of the line is a number, a null or a boolean, or looks like what is shown before
them. -/
theorem shaded {lexeme : Lexeme} (hlexeme : lexeme ∈ lexemes) :
    lexeme.Shaded lexemes (.number :: .null :: .boolean :: heads) := by
  have hshade := h.shade hlexeme
  rw [h.mem_iff] at hlexeme
  obtain rfl | rfl | rfl | hcomment := hlexeme
  · exact ⟨.key, by decide, h.shade_key⟩
  · exact ⟨.operator, by decide, h.shade_equals⟩
  · obtain ⟨token, htoken, hscalar⟩ := h.scalar
    rw [Lexeme.category?, htoken] at hshade
    cases token with
    | string => exact ⟨.string, by decide, hshade⟩
    | bool flag => exact ⟨.boolean, by decide, hshade⟩
    | null => exact ⟨.null, by decide, hshade⟩
    | number => exact ⟨.number, by decide, hshade⟩
    | _ => cases hscalar
  · exact Shaded.mono (shaded_of_comment lexemes (h.remarks lexeme hcomment)) (by decide)

/-- No lexeme of the line is a symbol. -/
theorem shade_ne_symbol {lexeme : Lexeme} (hlexeme : lexeme ∈ lexemes) :
    lexeme.shadeIn lexemes ≠ some .symbol := by
  intro hsymbol
  obtain ⟨category, hdone, hshade⟩ := h.shaded hlexeme
  obtain rfl : category = .symbol := Option.some.inj (hshade.symm.trans hsymbol)
  exact absurd hdone (by decide)

section

variable {buffer : Buffer}

/-- The literals of the line are its strings. -/
theorem painted_strings
    (hpainted : Painted line lexemes (Shaded lexemes [.comment, .docComment]) buffer) :
    Painted line lexemes (Shaded lexemes [.string, .comment, .docComment])
      (buffer.claimAll ((LineView.ofText line).literals.map (Span.ofRange · .string))) := by
  rw [literals_eq h.legible.scans h.legible.feedless h.legible.closed]
  refine h.legible.painted_rule hpainted (fun lexeme hlexeme hshade => ?_) fun range hrange => ?_
  · have htoken : lexeme.token = some .string := h.tells hlexeme hshade
    exact List.mem_map_of_mem (List.mem_filter.2 ⟨hlexeme, by simpa [isString] using htoken⟩)
  · obtain ⟨lexeme, hlexeme, rfl⟩ := List.mem_map.1 hrange
    obtain ⟨hmem, hstring⟩ := List.mem_filter.1 hlexeme
    have htoken : lexeme.token = some .string := by simpa [isString] using hstring
    exact ⟨lexeme, hmem, .inl ⟨(h.shade hmem).trans (by simp [Lexeme.category?, htoken]), rfl⟩⟩

/-- The key of the line and its equals sign are shown together. -/
theorem painted_head
    (hpainted : Painted line lexemes (Shaded lexemes [.string, .comment, .docComment]) buffer) :
    Painted line lexemes (Shaded lexemes heads)
      (buffer.claimAll [Span.ofRange (key.rangeIn line) .key,
        ⟨(equals.rangeIn line).start, 1, .operator⟩]) := by
  have hkey : key ∈ lexemes := h.mem_iff.2 (.inl rfl)
  have hequals : equals ∈ lexemes := h.mem_iff.2 (.inr (.inl rfl))
  have hspan : Span.ofRange (equals.rangeIn line) .operator =
      ⟨(equals.rangeIn line).start, 1, .operator⟩ := by
    obtain ⟨_, _, _, -, -, -, -, hrange⟩ := h.exists_cut
    rw [hrange, Span.ofRange, Range.length, Nat.add_sub_cancel_left]
  have hshown := h.legible.painted_only hpainted hkey h.shade_key fun other hother hshade =>
    (h.eq_of_head hother).1 (h.tells hother hshade)
  have hboth := h.legible.painted_only hshown hequals h.shade_equals fun other hother hshade =>
    (h.eq_of_head hother).2 (h.tells hother hshade)
  rw [hspan] at hboth
  exact hboth

/-- A match of a boolean starts in no null and in no number. -/
theorem painted_booleans
    (hpainted : Painted line lexemes (Shaded lexemes heads) buffer) :
    Painted line lexemes (Shaded lexemes (.boolean :: heads))
      (buffer.claimAll ((line.findAll booleanWord).map (Span.ofRange · .boolean))) := by
  refine h.legible.painted_matches (fun c => c = 't' ∨ c = 'f') hpainted ?_ ?_ ?_ ?_
  · intro lexeme hlexeme hshade
    obtain ⟨flag, htoken⟩ : ∃ flag, lexeme.token = some (.bool flag) := h.tells hlexeme hshade
    exact h.legible.mem_booleans hlexeme htoken
  · intro previous c cs count hmatch
    obtain hwhole | hwhole := boolean_word_cases hmatch
    · exact .inl (Option.some.inj (head_of_whole_word hwhole))
    · exact .inr (Option.some.inj (head_of_whole_word hwhole))
  · intro c hc
    obtain rfl | rfl := hc
    · rfl
    · rfl
  · intro lexeme hlexeme hstart
    obtain ⟨c, hmem, hc⟩ := hstart
    obtain hnumber | hshaded := shaded_cons.1 (h.shaded hlexeme)
    · have hpart := h.legible.number_chars hlexeme (h.tells hlexeme hnumber) c hmem
      obtain rfl | rfl := hc
      · exact absurd hpart (by decide)
      · exact absurd hpart (by decide)
    obtain hnull | hshaded := shaded_cons.1 hshaded
    · rw [h.legible.null_text hlexeme (h.tells hlexeme hnull)] at hmem
      obtain rfl | rfl := hc
      · exact absurd hmem (by decide)
      · exact absurd hmem (by decide)
    · exact hshaded

/-- A match of a null starts in no number. -/
theorem painted_nulls
    (hpainted : Painted line lexemes (Shaded lexemes (.boolean :: heads)) buffer) :
    Painted line lexemes (Shaded lexemes (.null :: .boolean :: heads))
      (buffer.claimAll ((line.findAll nullWord).map (Span.ofRange · .null))) := by
  refine h.legible.painted_matches (· = 'n') hpainted ?_ ?_ ?_ ?_
  · intro lexeme hlexeme hshade
    have htoken : lexeme.token = some .null := h.tells hlexeme hshade
    have hword := h.legible.mem_whole_words hlexeme htoken rfl (by simp)
    rw [h.legible.null_text hlexeme htoken] at hword
    exact hword
  · intro previous c cs count hmatch
    exact Option.some.inj (head_of_whole_word hmatch)
  · intro c hc
    subst hc
    rfl
  · intro lexeme hlexeme hstart
    obtain ⟨c, hmem, rfl⟩ := hstart
    obtain hnumber | hshaded := shaded_cons.1 (h.shaded hlexeme)
    · have hpart := h.legible.number_chars hlexeme (h.tells hlexeme hnumber) 'n' hmem
      exact absurd hpart (by decide)
    · exact hshaded

/-- A match of a number starts in a number or in what is shown. -/
theorem painted_numbers
    (hpainted : Painted line lexemes (Shaded lexemes (.null :: .boolean :: heads)) buffer) :
    Painted line lexemes (Shaded lexemes (.number :: .null :: .boolean :: heads))
      (buffer.claimAll ((line.findAll numberWord).map (Span.ofRange · .number))) := by
  refine h.legible.painted_matches (Number.isPart isDecimalDigit · = true) hpainted ?_ ?_ ?_
    fun lexeme hlexeme _ => h.shaded hlexeme
  · exact fun lexeme hlexeme hshade => h.legible.mem_numbers hlexeme (h.tells hlexeme hshade)
  · intro previous c cs count hmatch
    exact part_of_number_word hmatch c (by simp)
  · intro c hc
    have hapart := not_apart_of_part hc
    simp only [isApart, Bool.or_eq_false_iff] at hapart
    exact hapart.1.1.1

/-- A match of a symbol starts in what is shown. -/
theorem painted_symbols
    (hpainted : Painted line lexemes (Shaded lexemes (.number :: .null :: .boolean :: heads))
      buffer) :
    Painted line lexemes (fun _ => True)
      (buffer.claimAll ((line.findAll symbolChar).map (Span.ofRange · .symbol))) := by
  have hall : ∀ lexeme ∈ lexemes, lexeme.Shaded lexemes
      (.symbol :: .number :: .null :: .boolean :: heads) := fun lexeme hlexeme =>
    Shaded.mono (h.shaded hlexeme) (List.subset_cons_self _ _)
  have hsymbols : Painted line lexemes
      (Shaded lexemes (.symbol :: .number :: .null :: .boolean :: heads))
      (buffer.claimAll ((line.findAll symbolChar).map (Span.ofRange · .symbol))) := by
    refine h.legible.painted_matches ("\x7b\x7d[],".toList.contains · = true) hpainted ?_ ?_ ?_
      fun lexeme hlexeme _ => hall lexeme hlexeme
    · exact fun lexeme hlexeme hshade => absurd hshade (h.shade_ne_symbol hlexeme)
    · intro previous c cs count hmatch
      unfold symbolChar at hmatch
      split at hmatch
      · next hsymbol => exact hsymbol
      · cases hmatch
    · intro c hc
      have hplain : "\x7b\x7d[],".toList.all (!isBlank ·) = true := by decide
      simpa using List.all_eq_true.1 hplain c (List.contains_iff_mem.1 hc)
  exact hsymbols.congr fun lexeme hlexeme => iff_of_true (hall lexeme hlexeme) trivial

end

/-- At first the comment of the line is shown. -/
theorem painted_remark :
    Painted line lexemes (Shaded lexemes [.comment, .docComment])
      ((Buffer.ofText line).paintComment line) := by
  refine h.legible.painted_comment.congr fun lexeme hlexeme => ?_
  rw [shown_by_nil]
  refine ⟨shaded_of_comment lexemes, fun hshaded => ?_⟩
  obtain ⟨category, hcategory, hshade⟩ := hshaded
  have htells := h.tells hlexeme hshade
  rw [List.mem_pair] at hcategory
  obtain rfl | rfl := hcategory
  · exact htells
  · exact htells

/-- Painting the line by patterns shows all its lexemes. -/
theorem painted_patterns :
    Painted line lexemes (fun _ => True)
      (((Buffer.ofText line).paintComment line).paintPatterns line) := by
  have hremark := h.legible.painted_comment_again h.painted_remark fun lexeme _ =>
    shaded_of_comment lexemes
  have hpainted := h.painted_symbols (h.painted_numbers (h.painted_nulls (h.painted_booleans
    (h.painted_head (h.painted_strings hremark)))))
  simpa only [Buffer.paintPatterns, patternSpans, h.line_key, Buffer.claimAll,
    List.foldl_append] using hpainted

end PlainEntry

/-- The lexemes on the line with a given number, without the line feed at its end. -/
def Lexeme.onLine (number : Nat) (lexemes : List Lexeme) : List Lexeme :=
  lexemes.filter fun lexeme => lexeme.pos.line = number && lexeme.token ≠ some .newline

namespace Excerpt

variable {text : Text} {number : Nat} {line : Text} {lexemes : List Lexeme}
  (h : Excerpt text number line lexemes)

include h

/-- The lexemes of a line of a text are those of the text on the line. -/
theorem on_line_eq : (onLine number (tokenize text)).map stripReturn = lexemes := by
  obtain ⟨before, own, after, hcut, rfl, hbefore, -, -, hafter⟩ := h.cut
  rw [onLine, hcut, List.filter_append, List.filter_append, List.filter_eq_nil_iff.2,
    List.filter_eq_self.2, List.filter_eq_nil_iff.2, List.nil_append, List.append_nil]
  · intro lexeme hlexeme hon
    rw [Bool.and_eq_true, decide_eq_true_eq, decide_eq_true_eq] at hon
    exact hon.2 (hafter lexeme hlexeme hon.1).1
  · intro lexeme hlexeme
    have hmem : stripReturn lexeme ∈ own.map stripReturn := List.mem_map_of_mem hlexeme
    have hnumber : (stripReturn lexeme).pos.line = number := h.legible.line_of_mem hmem
    have hfeed : (stripReturn lexeme).token ≠ some .newline := h.legible.token_ne_newline hmem
    rw [Bool.and_eq_true, decide_eq_true_eq, decide_eq_true_eq]
    exact ⟨hnumber, hfeed⟩
  · intro lexeme hlexeme hon
    rw [Bool.and_eq_true, decide_eq_true_eq] at hon
    exact absurd hon.1 (Nat.ne_of_lt (hbefore lexeme hlexeme))

/-- Painting a line without commas from the tree shows all its lexemes, if no string on it is a
key. -/
theorem painted_tree_all {tree : Body} (hspaced : Spaced (tokenize text))
    (hmatched : ∀ lexeme ∈ tokenize text, lexeme.token ≠ none)
    (hitems : tree.items.Perm (Lexeme.items (tokenize text)))
    (hclosed : ∀ container ∈ tree.containers, container.close.isSome = true)
    (hvalues : ∀ lexeme ∈ lexemes, lexeme.token = some .string → lexeme.isKeyIn lexemes = false)
    (hcommas : ∀ lexeme ∈ lexemes, lexeme.token ≠ some .comma) :
    Painted line lexemes (fun _ => True)
      (((Buffer.ofText line).paintComment line).paintTree tree number line) := by
  refine (h.painted_tree hspaced hmatched hitems hclosed hvalues).congr fun lexeme hlexeme => ?_
  refine iff_of_true ?_ trivial
  obtain ⟨hstands, -⟩ := h.tree_stands hspaced hmatched hitems
  obtain ⟨category, hshade⟩ := h.legible.shade_of_mem hlexeme
  refine ((h.legible.shown_iff hstands (fun other hother item hitem => ?_) hlexeme
    (hvalues lexeme hlexeme) category).2 ?_).1
  · exact hitems.mem_iff.2 (h.mem_items hspaced hmatched hother hitem)
  · rw [category_of_not_comma _ (hcommas lexeme hlexeme),
      ← Legible.shade_of_value (hvalues lexeme hlexeme), hshade]

end Excerpt

/-- In a document that was read, let the lexemes of a line be those of a plain entry, with no blanks
but spaces and tabs before the equals sign. Then the line is painted from the tree as it would be
painted by patterns after a failure, whatever errors are shown. -/
theorem plain_entry_painted_alike (text : Text) (tree : Body) (failure : ParseError)
    (errors : List ErrorRecord) (showErrors : Bool) (n : Nat) (line : Text)
    (hmatched : ∀ lexeme ∈ tokenize text, lexeme.token ≠ none)
    (hread : readDocument text = .ok tree) (hline : text.lines[n]? = some line)
    (hentry : isPlainEntry ((onLine (n + 1) (tokenize text)).map Lexeme.token) = true)
    (hindent : ∀ c ∈ line.takeWhile (· ≠ '='), isBlank c = true → isIndent c = true) :
    Pass.highlightLine ⟨.parsed tree, errors, showErrors⟩ (n + 1) line =
      Pass.highlightLine ⟨.failed failure, errors, showErrors⟩ (n + 1) line := by
  have hreads : Reader.Reads (endPosition text) tree Reader.State.initial (tokenize text) :=
    Reader.reads_of_read rfl hmatched hread
  have hspaced := Reader.spaced_of_reads hreads
  obtain ⟨lexemes, h⟩ := excerpt_of_spaced hspaced hmatched hline
  have htokens : (onLine (n + 1) (tokenize text)).map Lexeme.token = lexemes.map Lexeme.token := by
    rw [← h.on_line_eq, List.map_map]
    rfl
  rw [htokens] at hentry
  obtain ⟨key, equals, value, comments, token, hshape, hident, hsign, hvalue, hscalar, hremarks⟩ :=
    exists_of_plain_entry hentry
  have hplain : PlainEntry (n + 1) line lexemes key equals value comments :=
    ⟨h.legible, hshape, hident, hsign, ⟨token, hvalue, hscalar⟩, hremarks, hindent⟩
  have htree := h.painted_tree_all hspaced hmatched (Reader.reads_items hreads)
    (Reader.reads_initial_closed hreads) (fun _ => hplain.string_not_key)
    fun lexeme hlexeme hcomma => hplain.shade_ne_symbol hlexeme
      ((hplain.shade hlexeme).trans (by simp [Lexeme.category?, hcomma]))
  have hsame : Pass.paintTokens ⟨.parsed tree, errors, showErrors⟩ (n + 1) line =
      Pass.paintTokens ⟨.failed failure, errors, showErrors⟩ (n + 1) line :=
    htree.unique hplain.painted_patterns
  simp only [Pass.highlightLine, Pass.paintErrors, hsame]

/-- An entry with words, numbers, quotes and delimiters inside its string and its comment. -/
theorem plain_entry_painted_alike_quoted :
    let text : Text :=
      "a = [\n1]\n\tnull_1\t= \"true, -1 [é] // \\\" x = 2\"\x0c// 'false' 3 \x7b\x7d\r\n".toList
    let line : Text :=
      "\tnull_1\t= \"true, -1 [é] // \\\" x = 2\"\x0c// 'false' 3 \x7b\x7d".toList
    let failure : ParseError := { message := "expected value".toList }
    (∀ lexeme ∈ tokenize text, lexeme.token ≠ none) ∧ text.lines[2]? = some line ∧
      isPlainEntry ((onLine 3 (tokenize text)).map Lexeme.token) = true ∧
      (∀ c ∈ line.takeWhile (· ≠ '='), isBlank c = true → isIndent c = true) ∧
      ∃ tree, readDocument text = .ok tree ∧
        Pass.highlightLine ⟨.parsed tree, [], true⟩ 3 line =
          Pass.highlightLine ⟨.failed failure, [], true⟩ 3 line := by
  intro text line failure
  have hmatched : ∀ lexeme ∈ tokenize text, lexeme.token ≠ none := by decide +kernel +zetaReduce
  have hline : text.lines[2]? = some line := by decide +kernel +zetaReduce
  have hentry : isPlainEntry ((onLine 3 (tokenize text)).map Lexeme.token) = true := by
    decide +kernel +zetaReduce
  have hspaces : (line.takeWhile (· ≠ '=')).all (fun c => !isBlank c || isIndent c) = true := by
    decide +kernel +zetaReduce
  have hindent : ∀ c ∈ line.takeWhile (· ≠ '='), isBlank c = true → isIndent c = true :=
    fun c hc hblank => by simpa [hblank] using List.all_eq_true.1 hspaces c hc
  obtain ⟨tree, hread⟩ : ∃ tree, readDocument text = .ok tree :=
    exists_of_is_ok (by decide +kernel +zetaReduce)
  exact ⟨hmatched, hline, hentry, hindent, tree, hread,
    plain_entry_painted_alike text tree failure [] true 2 line hmatched hread hline hentry hindent⟩

end Highlighter
