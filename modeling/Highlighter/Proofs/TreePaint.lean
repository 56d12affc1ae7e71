import Highlighter.Proofs.Painted

/-!
# Painting the parts of a tree on the line that they stand on

Each part of a tree that stands on a line shows its lexeme, and a key shows the equals sign after it
too. One lemma for each kind of part says so: after the part is painted, what it owns is shown
besides what was shown before. Commas are painted if a container opens on the line or has a member
that starts on it (`shows_commas`).
-/

namespace Highlighter

open Lexeme

/-- `Owns lexemes pos lexeme` says that a lexeme is shown with the part of a tree at the given
place: it stands there, or it is the equals sign after the key there. -/
def Owns (lexemes : List Lexeme) (pos : SourcePos) (lexeme : Lexeme) : Prop :=
  lexeme.token ≠ some .equals ∧ lexeme.pos.toSource = pos ∨
    lexeme.token = some .equals ∧
      ∃ first key rest, lexemes = first ++ key :: lexeme :: rest ∧ key.pos.toSource = pos

/-- What is shown with parts at the given places, beside the comment and the commas if asked for. -/
def ShownBy (lexemes : List Lexeme) (places : List SourcePos) (commas : Bool) (lexeme : Lexeme) :
    Prop :=
  lexeme.token = some .comment ∨ lexeme.token = some .comma ∧ commas = true ∨
    ∃ pos ∈ places, Owns lexemes pos lexeme

/-- Whether a part of a tree is one of the lexemes of the line with the given number, if it is on
that line. -/
def Stands (number : Nat) (lexemes : List Lexeme) (item : Item) : Prop :=
  item.pos.line = number →
    ∃ lexeme ∈ lexemes, lexeme.item? (lexeme.isKeyIn lexemes) = some item

/-- A place is on a canvas if it has its line. -/
theorem has_iff (number : Nat) (line : Text) (pos : SourcePos) :
    (Canvas.ofText number line).has pos = true ↔ pos.line = number := by
  simp [Canvas.has, Canvas.ofText]

/-- The column of a part is that of its lexeme. -/
theorem offset_of_item (number : Nat) (line : Text) {lexeme : Lexeme} {isKey : Bool} {item : Item}
    (hitem : lexeme.item? isKey = some item) :
    (Canvas.ofText number line).offsetOf item.pos = (lexeme.rangeIn line).start := by
  rw [(item_cases hitem).1]
  rfl

/-- A part that is no comment is no comment, comma or equals sign as a lexeme. -/
theorem token_of_item {lexeme : Lexeme} {isKey : Bool} {item : Item}
    (h : lexeme.item? isKey = some item)
    (hcomment : ∀ text kind, item.part ≠ .comment text kind) :
    lexeme.token ≠ some .comment ∧ lexeme.token ≠ some .comma ∧ lexeme.token ≠ some .equals := by
  refine ⟨?_, ?_, ?_⟩
  all_goals
    intro htoken
    simp only [Lexeme.item?, htoken, Option.some.injEq, reduceCtorEq] at h
  exact hcomment _ _ (congrArg Item.part h).symm

/-- The delimiter that a part is. -/
def Part.delimiter? : Part → Option Char
  | .openBrace => some '\x7b'
  | .closeBrace => some '\x7d'
  | .openBracket => some '['
  | .closeBracket => some ']'
  | .key _ => none
  | .scalar _ => none
  | .comment _ _ => none

/-- A delimiter is a lexeme of its own, which is painted as a symbol. -/
theorem token_of_delimiter {lexeme : Lexeme} {isKey : Bool} {item : Item} {c : Char}
    (h : lexeme.item? isKey = some item) (hdelimiter : item.part.delimiter? = some c) :
    ∃ token, lexeme.token = some token ∧ charToken? c = some token ∧
      lexeme.category? true = some .symbol := by
  obtain ⟨-, htoken⟩ := item_cases h
  obtain ⟨part, pos⟩ := item
  cases part <;> cases hdelimiter <;> dsimp only at htoken <;>
    exact ⟨_, htoken, rfl, by simp [Lexeme.category?, htoken]⟩

/-- A scalar is painted by its kind. -/
theorem category_of_scalar {lexeme : Lexeme} {value : Scalar}
    (h : Reader.scalarOf? lexeme = some value) :
    lexeme.category? true = some (Canvas.scalarCategory value) := by
  unfold Reader.scalarOf? at h
  split at h <;> cases h <;> simp [Lexeme.category?, Canvas.scalarCategory, *]

/-- The places where a scalar may stand are in order. -/
theorem scalar_ranges_sorted (number : Nat) (line : Text) (value : Scalar) :
    ((Canvas.ofText number line).scalarRanges value).Pairwise (·.start < ·.start) := by
  cases value with
  | string => exact (Text.find_all_sorted line).filter _
  | number => exact ((Text.find_all_sorted line).filter _).filter _
  | bool value => cases value <;> exact (Text.find_all_sorted line).filter _
  | null => exact (Text.find_all_sorted line).filter _

/-- The places where a key may stand bare are in order. -/
theorem bare_keys_sorted (number : Nat) (line key : Text) :
    ((Canvas.ofText number line).bareKeys key).Pairwise (·.start < ·.start) :=
  (Text.find_all_sorted line).filter _

/-- A lexeme that is neither a comment nor a comma nor an equals sign is shown with its part. -/
theorem shown_iff_place {lexemes : List Lexeme} {places : List SourcePos} {commas : Bool}
    {lexeme : Lexeme} (hcomment : lexeme.token ≠ some .comment)
    (hcomma : lexeme.token ≠ some .comma) (hequals : lexeme.token ≠ some .equals) :
    ShownBy lexemes places commas lexeme ↔ lexeme.pos.toSource ∈ places := by
  simp [ShownBy, Owns, hcomment, hcomma, hequals]

/-- A lexeme is not shown before its part is. -/
theorem not_shown {lexemes : List Lexeme} {places : List SourcePos} {commas : Bool}
    {lexeme : Lexeme} (hplaces : lexeme.pos.toSource ∉ places)
    (hcomment : lexeme.token ≠ some .comment) (hcomma : lexeme.token ≠ some .comma)
    (hequals : lexeme.token ≠ some .equals) :
    ¬ ShownBy lexemes places commas lexeme :=
  mt (shown_iff_place hcomment hcomma hequals).1 hplaces

/-- One more part shows what it owns. -/
theorem shown_by_concat {lexemes : List Lexeme} {places : List SourcePos} {commas : Bool}
    {pos : SourcePos} {lexeme : Lexeme} :
    ShownBy lexemes (places ++ [pos]) commas lexeme ↔
      ShownBy lexemes places commas lexeme ∨ Owns lexemes pos lexeme := by
  simp only [ShownBy, List.mem_append, List.mem_singleton, or_and_right, exists_or, exists_eq_left,
    or_assoc]

namespace Legible

variable {number : Nat} {line : Text} {lexemes : List Lexeme} (h : Legible number line lexemes)

include h

/-- A lexeme that is a part other than a key is no key. -/
theorem not_key_of_item {lexeme : Lexeme} {item : Item} (hlexeme : lexeme ∈ lexemes)
    (hitem : lexeme.item? (lexeme.isKeyIn lexemes) = some item)
    (hkey : ∀ text, item.part ≠ .key text) : lexeme.isKeyIn lexemes = false := by
  rw [Bool.eq_false_iff]
  intro hfollowed
  rw [hfollowed] at hitem
  obtain htoken | htoken := h.token_of_is_key hlexeme hfollowed
  · simp only [Lexeme.item?, htoken, Option.some.injEq] at hitem
    exact hkey _ (congrArg Item.part hitem).symm
  · simp only [Lexeme.item?, htoken, if_true, Option.some.injEq] at hitem
    exact hkey _ (congrArg Item.part hitem).symm

omit h in
/-- A lexeme that is no key looks like what it is. -/
theorem shade_of_not_key {lexeme : Lexeme} (hkey : lexeme.isKeyIn lexemes = false) :
    lexeme.shadeIn lexemes = lexeme.category? true := by
  simp [Lexeme.shadeIn, hkey]

omit h in
/-- A lexeme looks like what it is, unless it is a key in quotes. -/
theorem shade_of_value {lexeme : Lexeme}
    (hvalue : lexeme.token = some .string → lexeme.isKeyIn lexemes = false) :
    lexeme.shadeIn lexemes = lexeme.category? true := by
  by_cases hstring : lexeme.token = some .string
  · exact shade_of_not_key (hvalue hstring)
  · exact shade_in_eq lexemes hstring

/-- A part that is no key is shown with its lexeme alone. -/
theorem owns_iff {lexeme other : Lexeme} (hlexeme : lexeme ∈ lexemes) (hother : other ∈ lexemes)
    (hkey : lexeme.isKeyIn lexemes = false) (hequals : lexeme.token ≠ some .equals) :
    Owns lexemes lexeme.pos.toSource other ↔ other = lexeme := by
  constructor
  · rintro (⟨-, hpos⟩ | ⟨htoken, first, key, rest, hsplit, hpos⟩)
    · exact h.eq_of_pos hother hlexeme (pos_of_to_source hpos)
    · -- An equals sign would make the lexeme a key.
      obtain rfl := h.eq_of_pos (by simp [hsplit]) hlexeme (pos_of_to_source hpos)
      rw [h.is_key_of_split hsplit] at hkey
      simp [startsWithEquals, htoken] at hkey
  · rintro rfl
    exact .inl ⟨hequals, rfl⟩

/-- A key is shown with its lexeme and the equals sign after it. -/
theorem owns_key_iff {first rest : List Lexeme} {key equals other : Lexeme}
    (hsplit : lexemes = first ++ key :: equals :: rest) (hother : other ∈ lexemes)
    (hkey : key.token ≠ some .equals) (hequals : equals.token = some .equals) :
    Owns lexemes key.pos.toSource other ↔ other = key ∨ other = equals := by
  constructor
  · rintro (⟨-, hpos⟩ | ⟨htoken, before, found, after, hfound, hpos⟩)
    · exact .inl (h.eq_of_pos hother (by simp [hsplit]) (pos_of_to_source hpos))
    · obtain rfl := h.eq_of_pos (by simp [hfound]) (by simp [hsplit]) (pos_of_to_source hpos)
      obtain ⟨-, hrest⟩ := h.split_unique hfound hsplit
      exact .inr (List.cons.inj hrest).1
  · rintro (rfl | rfl)
    · exact .inl ⟨hkey, rfl⟩
    · exact .inr ⟨hequals, first, key, rest, hsplit, rfl⟩

/-- A part on another line shows nothing on this one. -/
theorem not_owns {pos : SourcePos} {other : Lexeme} (hother : other ∈ lexemes)
    (hline : pos.line ≠ number) : ¬ Owns lexemes pos other := by
  rintro (⟨-, rfl⟩ | ⟨-, first, key, rest, hsplit, rfl⟩)
  · exact hline (h.line_of_mem hother)
  · exact hline (h.line_of_mem (by simp [hsplit]))

section

variable {places : List SourcePos} {commas : Bool} {buffer : Buffer}
  (hpainted : Painted line lexemes (ShownBy lexemes places commas) buffer)

include hpainted

/-- A part on another line is not painted. -/
theorem shows_elsewhere {pos : SourcePos} (hline : pos.line ≠ number) :
    Painted line lexemes (ShownBy lexemes (places ++ [pos]) commas) buffer := by
  refine hpainted.congr fun other hother => ?_
  rw [shown_by_concat]
  exact (or_iff_left (h.not_owns hother hline)).symm

/-- A part that is neither a key nor a comment is painted where its lexeme stands. -/
theorem shows_part {item : Item} {category : Category} {ranges : List Range}
    (hkey : ∀ text, item.part ≠ .key text) (hcomment : ∀ text kind, item.part ≠ .comment text kind)
    (hstands : Stands number lexemes item) (hnew : item.pos ∉ places)
    (hsorted : ranges.Pairwise (·.start < ·.start))
    (hranges : ∀ lexeme ∈ lexemes, lexeme.item? (lexeme.isKeyIn lexemes) = some item →
      lexeme.category? true = some category ∧ lexeme.rangeIn line ∈ ranges) :
    Painted line lexemes (ShownBy lexemes (places ++ [item.pos]) commas)
      (if (Canvas.ofText number line).has item.pos then
        Canvas.paintNear ((Canvas.ofText number line).offsetOf item.pos) category ranges buffer
      else buffer) := by
  by_cases hline : item.pos.line = number
  · obtain ⟨lexeme, hlexeme, hitem⟩ := hstands hline
    obtain ⟨hcategory, hrange⟩ := hranges lexeme hlexeme hitem
    obtain ⟨hlone, hcomma, hequals⟩ := token_of_item hitem hcomment
    obtain ⟨hpos, -⟩ := item_cases hitem
    have hvalue := h.not_key_of_item hlexeme hitem hkey
    -- The part is shown for the first time, so the bytes of its lexeme are free.
    obtain ⟨claimed, hclaim, hclaimed⟩ := painted_near h hpainted hlexeme
      (not_shown (hpos ▸ hnew) hlone hcomma hequals)
      ((shade_of_not_key hvalue).trans hcategory) hsorted hrange
    simp only [if_pos ((has_iff number line _).2 hline), offset_of_item number line hitem,
      Canvas.paintNear, hclaim]
    refine hclaimed.congr fun other hother => ?_
    rw [shown_by_concat, hpos, h.owns_iff hlexeme hother hvalue hequals]
  · rw [if_neg (mt (has_iff number line _).1 hline)]
    exact h.shows_elsewhere hpainted hline

/-- A scalar is painted. -/
theorem shows_scalar {value : Scalar} {pos : SourcePos}
    (hstands : Stands number lexemes ⟨.scalar value, pos⟩) (hnew : pos ∉ places) :
    Painted line lexemes (ShownBy lexemes (places ++ [pos]) commas)
      ((Canvas.ofText number line).paintScalar value pos buffer) := by
  refine h.shows_part hpainted (by simp) (by simp) hstands hnew
    (scalar_ranges_sorted number line value) fun lexeme hlexeme hitem => ?_
  have hscalar := (item_cases hitem).2
  exact ⟨category_of_scalar hscalar, h.mem_scalar_ranges hlexeme hscalar⟩

/-- A delimiter is painted. -/
theorem shows_delimiter {part : Part} {c : Char} {pos : SourcePos}
    (hdelimiter : part.delimiter? = some c) (hstands : Stands number lexemes ⟨part, pos⟩)
    (hnew : pos ∉ places) :
    Painted line lexemes (ShownBy lexemes (places ++ [pos]) commas)
      ((Canvas.ofText number line).paintDelimiter c pos buffer) := by
  have hkey : ∀ text, part ≠ .key text := by
    rintro text rfl
    cases hdelimiter
  have hcomment : ∀ text kind, part ≠ .comment text kind := by
    rintro text kind rfl
    cases hdelimiter
  refine h.shows_part hpainted hkey hcomment hstands hnew (code_occurrences_sorted line c)
    fun lexeme hlexeme hitem => ?_
  obtain ⟨token, htoken, hc, hcategory⟩ := token_of_delimiter hitem hdelimiter
  exact ⟨hcategory, h.mem_code_occurrences hlexeme htoken hc⟩

end

/-- A lexeme of one character takes one byte. -/
theorem char_length {lexeme : Lexeme} {c : Char} {token : Token} (hlexeme : lexeme ∈ lexemes)
    (htoken : lexeme.token = some token) (hc : charToken? c = some token) :
    (lexeme.rangeIn line).length = 1 := by
  obtain ⟨before, after, -, hshape, hrange⟩ := h.place hlexeme
  rw [htoken] at hshape
  obtain ⟨-, -, -, hsize⟩ := char_token_plain hc
  rw [hrange, text_of_char_token hc hshape]
  simp [Range.length, Text.byteLength, hsize]

/-- When a key is found at its own place, the equals sign after it is claimed next. -/
theorem paint_entry_head_eq {first rest : List Lexeme} {key equals : Lexeme} {text : Text}
    {buffer claimed : Buffer} (hsplit : lexemes = first ++ key :: equals :: rest)
    (hequals : equals.token = some .equals)
    (hfound : (Canvas.ofText number line).paintKey text key.pos.toSource buffer =
      ((key.rangeIn line).stop, claimed)) :
    (Canvas.ofText number line).paintEntryHead text key.pos.toSource buffer =
      claimed.claim (Span.ofRange (equals.rangeIn line) .operator) := by
  have hline : key.pos.toSource.line = number := h.line_of_mem (by simp [hsplit])
  have hfind : ((Canvas.ofText number line).view.codeOccurrences '=').find?
      ((key.rangeIn line).stop ≤ ·.start) = some (equals.rangeIn line) :=
    h.find_equals hsplit hequals
  have hlength : (equals.rangeIn line).length = 1 :=
    h.char_length (by simp [hsplit]) hequals (rfl : charToken? '=' = some .equals)
  simp only [Canvas.paintEntryHead, if_pos ((has_iff number line _).2 hline), hfound,
    Canvas.paintEquals, hfind, Span.ofRange, hlength]

/-- When a key is found at its own place, it is shown with the equals sign after it. -/
theorem shows_found_key {first rest : List Lexeme} {key equals : Lexeme} {text : Text}
    {places : List SourcePos} {commas : Bool} {buffer claimed : Buffer}
    (hsplit : lexemes = first ++ key :: equals :: rest) (hkey : key.token ≠ some .equals)
    (hequals : equals.token = some .equals)
    (hfound : (Canvas.ofText number line).paintKey text key.pos.toSource buffer =
      ((key.rangeIn line).stop, claimed))
    (hclaimed : Painted line lexemes
      (fun other => ShownBy lexemes places commas other ∨ other = key) claimed) :
    Painted line lexemes (ShownBy lexemes (places ++ [key.pos.toSource]) commas)
      ((Canvas.ofText number line).paintEntryHead text key.pos.toSource buffer) := by
  have hoperator : equals.shadeIn lexemes = some .operator := by
    rw [shade_in_eq lexemes (by simp [hequals])]
    simp [Lexeme.category?, hequals]
  have hboth := painted_claim h hclaimed (by simp [hsplit]) hoperator
  rw [h.paint_entry_head_eq hsplit hequals hfound]
  refine hboth.congr fun other hother => ?_
  rw [shown_by_concat, h.owns_key_iff hsplit hother hkey hequals, or_assoc]

/-- A bare key is painted, and the equals sign after it. -/
theorem shows_bare_key {key : Lexeme} {places : List SourcePos} {commas : Bool} {buffer : Buffer}
    (hpainted : Painted line lexemes (ShownBy lexemes places commas) buffer)
    (hkey : key ∈ lexemes) (hident : key.token = some .ident) (hnew : key.pos.toSource ∉ places) :
    Painted line lexemes (ShownBy lexemes (places ++ [key.pos.toSource]) commas)
      ((Canvas.ofText number line).paintEntryHead key.text key.pos.toSource buffer) := by
  obtain ⟨first, equals, rest, hsplit, hequals⟩ :=
    h.equals_of_is_key hkey (h.is_key_of_ident hkey hident)
  have hcategory : key.shadeIn lexemes = some .key := by
    rw [shade_in_eq lexemes (by simp [hident])]
    simp [Lexeme.category?, hident]
  obtain ⟨claimed, hclaim, hclaimed⟩ := painted_near h hpainted hkey
    (not_shown hnew (by simp [hident]) (by simp [hident]) (by simp [hident])) hcategory
    (bare_keys_sorted number line key.text) (h.mem_bare_keys hkey hident)
  have hstart : (Canvas.ofText number line).offsetOf key.pos.toSource =
    (key.rangeIn line).start := rfl
  have hfound : (Canvas.ofText number line).paintKey key.text key.pos.toSource buffer =
      ((key.rangeIn line).stop, claimed) := by
    simp only [Canvas.paintKey, hstart, hclaim]
  exact h.shows_found_key hsplit (by simp [hident]) hequals hfound hclaimed

/-- Once the comment of the line is shown, nothing that reaches the end of the line is claimed. -/
theorem claim_of_comment {shown : Lexeme → Prop} {buffer : Buffer} {comment : Lexeme}
    (hpainted : Painted line lexemes shown buffer) (hcomment : comment ∈ lexemes)
    (htoken : comment.token = some .comment) (hshown : shown comment) (start : Nat)
    (category : Category) :
    buffer.claim ⟨start, line.byteLength - start, category⟩ = buffer := by
  have hbounds := h.bounds hcomment
  have hstop := h.comment_stop hcomment htoken
  have hrefused : buffer.claim? start (line.byteLength - start) category = none := by
    by_cases hstart : start < line.byteLength
    · -- The last byte of the line belongs to the comment.
      have hcategory : comment.shadeIn lexemes ≠ none := by
        rw [shade_in_eq lexemes (by simp [htoken])]
        simp [Lexeme.category?, htoken]
      refine claim_of_shown hpainted hcomment hshown hcategory (line.byteLength - 1) ?_ (by omega)
        (by omega)
      simp only [Range.contains, Bool.and_eq_true, decide_eq_true_eq]
      omega
    · have hlen : line.byteLength - start = 0 := by omega
      simp [Buffer.claim?, hlen]
  simp [Buffer.claim, hrefused]

/-- A comment of the tree is shown already. -/
theorem shows_comment (comment : Comment) {places : List SourcePos} {commas : Bool}
    {buffer : Buffer} (hpainted : Painted line lexemes (ShownBy lexemes places commas) buffer)
    (hstands : Stands number lexemes comment.item) :
    Painted line lexemes (ShownBy lexemes (places ++ [comment.pos]) commas)
      ((Canvas.ofText number line).paintComment comment buffer) := by
  unfold Canvas.paintComment
  by_cases hline : comment.pos.line = number
  · obtain ⟨lexeme, hlexeme, hitem⟩ := hstands hline
    have hpos : comment.pos = lexeme.pos.toSource := (item_cases hitem).1
    have htoken : lexeme.token = some .comment := (item_cases hitem).2
    have hvalue := h.not_key_of_item hlexeme hitem (by simp [Comment.item])
    have hshown : Painted line lexemes (ShownBy lexemes (places ++ [comment.pos]) commas)
        buffer := by
      refine hpainted.congr fun other hother => ?_
      rw [shown_by_concat, hpos, h.owns_iff hlexeme hother hvalue (by simp [htoken])]
      refine ⟨.inl, ?_⟩
      rintro (hshown | rfl)
      · exact hshown
      · exact .inl htoken
    rw [if_pos ((has_iff number line _).2 hline)]
    split
    · next start hstart =>
        have hrefused := h.claim_of_comment hpainted hlexeme htoken (.inl htoken) start
          comment.kind.category
        exact hrefused.symm ▸ hshown
    · exact hshown
  · rw [if_neg (mt (has_iff number line _).1 hline)]
    exact h.shows_elsewhere hpainted hline

/-- The commas in code are the comma lexemes. -/
theorem mem_commas_iff {lexeme : Lexeme} (hlexeme : lexeme ∈ lexemes) :
    lexeme.rangeIn line ∈ (LineView.ofText line).codeOccurrences ',' ↔
      lexeme.token = some .comma := by
  refine ⟨fun hrange => ?_, fun htoken => h.mem_code_occurrences hlexeme htoken rfl⟩
  obtain ⟨comma, hcomma, htoken, hsame⟩ :=
    h.lexeme_of_mem_code_occurrences (rfl : charToken? ',' = some .comma) hrange
  rw [h.eq_of_range hlexeme hcomma hsame, htoken]

/-- Claims for commas show them. -/
theorem painted_commas {shown : Lexeme → Prop} {buffer : Buffer} {ranges : List Range}
    (hpainted : Painted line lexemes shown buffer)
    (hranges : ∀ range ∈ ranges, range ∈ (LineView.ofText line).codeOccurrences ',') :
    Painted line lexemes (fun lexeme => shown lexeme ∨ lexeme.rangeIn line ∈ ranges)
      (buffer.claimAll (ranges.map (Span.ofRange · .symbol))) := by
  refine painted_ranges h hpainted fun range hrange => ?_
  obtain ⟨comma, hcomma, htoken, rfl⟩ :=
    h.lexeme_of_mem_code_occurrences (rfl : charToken? ',' = some .comma) (hranges range hrange)
  refine ⟨comma, hcomma, .inl ⟨?_, rfl⟩⟩
  rw [shade_in_eq lexemes (by simp [htoken])]
  simp [Lexeme.category?, htoken]

end Legible

/-- Whether commas are painted for a container on the line with the given number: it opens there or
has a member that starts there. -/
def Container.separates (number : Nat) (container : Container) : Bool :=
  container.pos.line == number || container.members.any (·.line == number)

/-- The commas are painted if a container opens on the line or has a member that starts on it. -/
theorem Legible.shows_commas {number : Nat} {line : Text} {lexemes : List Lexeme}
    (h : Legible number line lexemes) {places : List SourcePos} {commas : Bool} {buffer : Buffer}
    (hpainted : Painted line lexemes (ShownBy lexemes places commas) buffer)
    (container : Container) :
    Painted line lexemes (ShownBy lexemes places (commas || container.separates number))
      ((Canvas.ofText number line).paintCommas container.pos container.members buffer) := by
  have hseparates : container.separates number = ((Canvas.ofText number line).has container.pos ||
    container.members.any (Canvas.ofText number line).has) := rfl
  rw [hseparates]
  unfold Canvas.paintCommas
  split
  · next hhas =>
      refine (h.painted_commas hpainted fun _ => id).congr fun lexeme hlexeme => ?_
      rw [h.mem_commas_iff hlexeme, hhas, Bool.or_true]
      constructor
      · rintro ((hcomment | ⟨hcomma, -⟩ | howned) | hcomma)
        · exact .inl hcomment
        · exact .inr (.inl ⟨hcomma, rfl⟩)
        · exact .inr (.inr howned)
        · exact .inr (.inl ⟨hcomma, rfl⟩)
      · rintro (hcomment | ⟨hcomma, -⟩ | howned)
        · exact .inl (.inl hcomment)
        · exact .inr hcomma
        · exact .inl (.inr (.inr howned))
  · next hhas => simpa [hhas] using hpainted

end Highlighter
