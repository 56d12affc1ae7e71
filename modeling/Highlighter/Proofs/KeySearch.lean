import Highlighter.Proofs.Strokes

/-!
# Where a key in quotes is found

A key is looked for as a bare word first, on the whole line, and only then in quotes, where the
inside of a literal has to be the text of the key letter by letter. So a key in quotes is found at
its own place if and only if it is written without a backslash and all the places where its text
stands bare are taken (`Buffer.Leads`): then its stroke shows it (`finds_of_leads`), and a stroke
that shows all of its bytes as a key has found it so (`leads_of_stroke`).
-/

namespace Highlighter

open Lexeme

/-- A literal has a closing quote at least. -/
theorem Lexeme.Literal.ne_nil {quote : Char} {body : Text} (h : Literal quote body) :
    body ≠ [] := by
  cases h <;> simp

namespace Quoted

/-- A character other than a backslash stands for itself. -/
theorem decode_cons {c : Char} (hc : c ≠ '\\') (rest : Text) :
    decode (c :: rest) = c :: decode rest := by
  cases rest with
  | nil => rfl
  | cons d ds => simp [decode, hc]

/-- A text without backslashes stands for itself. -/
theorem decode_plain {text : Text} (h : '\\' ∉ text) : decode text = text := by
  induction text with
  | nil => rfl
  | cons c rest ih =>
      obtain ⟨hc, hrest⟩ := List.ne_and_not_mem_of_not_mem_cons h
      rw [decode_cons hc.symm, ih hrest]

/-- An escape stands for a character that takes no more bytes. -/
theorem unescape_size (c : Char) : (unescape c).utf8Size ≤ c.utf8Size := by
  unfold unescape
  split
  · decide
  · decide
  · decide
  · decide
  · exact Nat.le_refl _

/-- A text stands for one that takes no more bytes. -/
theorem decode_byte_length_le (text : Text) : (decode text).byteLength ≤ text.byteLength := by
  fun_induction decode text with
  | case1 => exact Nat.le_refl _
  | case2 c => exact Nat.le_refl _
  | case3 d rest ih =>
      have hsize := unescape_size d
      simp only [Text.byte_length_cons]
      omega
  | case4 c d rest hc ih =>
      simp only [Text.byte_length_cons] at ih ⊢
      omega

/-- A text stands for one that is no longer. -/
theorem decode_length_le (text : Text) : (decode text).length ≤ text.length := by
  fun_induction decode text with
  | case1 => exact Nat.le_refl _
  | case2 c => exact Nat.le_refl _
  | case3 d rest ih =>
      simp only [List.length_cons]
      omega
  | case4 c d rest hc ih =>
      simp only [List.length_cons] at ih ⊢
      omega

/-- The inside of a literal with a backslash stands for a shorter text. -/
theorem decode_length_lt {quote : Char} {body : Text} (hquote : isQuote quote = true)
    (h : Literal quote body) (hslash : '\\' ∈ body) :
    (decode body.dropLast).length < body.dropLast.length := by
  induction h with
  | close =>
      obtain rfl : '\\' = quote := by simpa using hslash
      cases hquote
  | escape c body hc hbody ih =>
      have hle := decode_length_le body.dropLast
      rw [List.dropLast_cons_of_ne_nil (by simp), List.dropLast_cons_of_ne_nil hbody.ne_nil]
      simp only [decode, if_true, List.length_cons]
      omega
  | other c body hne hback hfeed hbody ih =>
      have hlt := ih (by simpa [hback.symm] using hslash)
      rw [List.dropLast_cons_of_ne_nil hbody.ne_nil, decode_cons hback]
      simp only [List.length_cons]
      omega

end Quoted

/-- A string lexeme is its inside between two quotes, which take a byte each. -/
theorem inside_of_munched {word rest : Text} (h : Munched (some .string) word rest) :
    ∃ quote, isQuote quote = true ∧ quote.utf8Size = 1 ∧
      word = quote :: ((word.drop 1).dropLast ++ [quote]) := by
  obtain ⟨quote, body, rfl, hquote, hliteral⟩ := literal_of_munched h
  have hsize : quote.utf8Size = 1 := by
    rcases (by simpa [isQuote] using hquote : quote = '"' ∨ quote = '\'') with rfl | rfl
    · rfl
    · rfl
  refine ⟨quote, hquote, hsize, ?_⟩
  rw [List.drop_one, List.tail_cons, List.dropLast_append_getLast? quote hliteral.getLast?]

/-- A string lexeme stands for its inside as it is written if it has no backslash, and only then. -/
theorem unquote_eq_iff {word rest : Text} (h : Munched (some .string) word rest) :
    Quoted.unquote word = (word.drop 1).dropLast ↔ '\\' ∉ word := by
  constructor
  · intro heq hslash
    obtain ⟨quote, body, rfl, hquote, hliteral⟩ := literal_of_munched h
    have hbody : '\\' ∈ body := by
      rcases List.mem_cons.1 hslash with hhead | hbody
      · rw [← hhead] at hquote
        cases hquote
      · exact hbody
    have hlt := Quoted.decode_length_lt hquote hliteral hbody
    have hsame : Quoted.decode body.dropLast = body.dropLast := heq
    rw [hsame] at hlt
    exact Nat.lt_irrefl _ hlt
  · intro hplain
    refine Quoted.decode_plain fun hmem => hplain ?_
    exact List.mem_of_mem_drop ((List.dropLast_sublist _).subset hmem)

/-- A key in quotes takes two bytes more than its text. -/
theorem unquote_byte_length_lt {word rest : Text} (h : Munched (some .string) word rest) :
    (Quoted.unquote word).byteLength + 2 ≤ word.byteLength := by
  obtain ⟨quote, -, hsize, hword⟩ := inside_of_munched h
  have hle := Quoted.decode_byte_length_le (word.drop 1).dropLast
  rw [Quoted.unquote]
  conv_rhs => rw [hword]
  simp only [Text.byte_length_cons, Text.byte_length_append, Text.byte_length_nil, hsize]
  omega

namespace Legible

variable {number : Nat} {line : Text} {lexemes : List Lexeme} (h : Legible number line lexemes)

include h

/-- A string lexeme has the shape of a literal. -/
theorem string_shape {key : Lexeme} (hkey : key ∈ lexemes) (htoken : key.token = some .string) :
    ∃ rest, Munched (some .string) key.text rest := by
  obtain ⟨before, after, -, hshape, -⟩ := h.place hkey
  rw [htoken] at hshape
  exact ⟨after, hshape⟩

/-- A literal of the line is a place for a key in quotes if its inside is the text of the key. -/
theorem mem_quoted_keys_iff {key : Lexeme} {text : Text} (hkey : key ∈ lexemes)
    (htoken : key.token = some .string) :
    key.rangeIn line ∈ (Canvas.ofText number line).quotedKeys text ↔
      (key.text.drop 1).dropLast = text := by
  obtain ⟨before, after, hline, hshape, hrange⟩ := h.place hkey
  rw [htoken] at hshape
  obtain ⟨quote, -, hsize, hword⟩ := inside_of_munched hshape
  have hslice : line.slice? ((key.rangeIn line).start + 1) ((key.rangeIn line).stop - 1) =
      some (key.text.drop 1).dropLast := by
    have hwhole : line = before ++ [quote] ++ (key.text.drop 1).dropLast ++ (quote :: after) := by
      rw [hline]
      conv_lhs => rw [hword]
      simp
    have hstart : (key.rangeIn line).start + 1 = (before ++ [quote]).byteLength := by
      simp [hrange, hsize]
    have hstop : (key.rangeIn line).stop - 1 =
        (before ++ [quote] ++ (key.text.drop 1).dropLast).byteLength := by
      rw [hrange]
      show (before ++ key.text).byteLength - 1 = _
      conv_lhs => rw [hword]
      simp only [Text.byte_length_append, Text.byte_length_cons, Text.byte_length_nil, hsize]
      omega
    rw [hstart, hstop]
    conv_lhs => rw [hwhole]
    exact Text.slice_append _ _ _
  have hliteral : key.rangeIn line ∈ (LineView.ofText line).literals := by
    rw [literals_eq h.scans h.feedless h.closed]
    exact List.mem_map_of_mem (List.mem_filter.2 ⟨hkey, by simpa [isString] using htoken⟩)
  show key.rangeIn line ∈ List.filter _ (LineView.ofText line).literals ↔ _
  rw [List.mem_filter, and_iff_right hliteral, beq_iff_eq]
  show line.slice? _ _ = _ ↔ _
  rw [hslice, Option.some_inj]

/-- A place for a key in quotes is a literal of the line. -/
theorem exists_of_mem_quoted_keys {text : Text} {range : Range}
    (hrange : range ∈ (Canvas.ofText number line).quotedKeys text) :
    ∃ key ∈ lexemes, key.token = some .string ∧ range = key.rangeIn line := by
  have hliteral : range ∈ (LineView.ofText line).literals := List.mem_of_mem_filter hrange
  rw [literals_eq h.scans h.feedless h.closed] at hliteral
  obtain ⟨key, hkey, rfl⟩ := List.mem_map.1 hliteral
  obtain ⟨hmem, hstring⟩ := List.mem_filter.1 hkey
  exact ⟨key, hmem, by simpa [isString] using hstring, rfl⟩

end Legible

/-- A bare place of a key has the bytes of its text, on the line. -/
theorem bare_key_bounds {number : Nat} {line text : Text} {range : Range}
    (h : range ∈ (Canvas.ofText number line).bareKeys text) :
    range.length = text.byteLength ∧ range.length ≠ 0 ∧
      range.start + range.length = range.stop ∧ range.stop ≤ line.byteLength := by
  have hmem : range ∈ line.occurrences text := List.mem_of_mem_filter h
  obtain ⟨before, rest, count, hline, -, hmatch, rfl⟩ := Text.exists_of_mem_find_all hmem
  split at hmatch
  · next hstarts =>
      obtain hcount : text.length = count + 1 := by simpa using hmatch
      have htake : rest.take (count + 1) = text := by
        rw [← hcount]
        exact take_of_isPrefixOf hstarts
      have hbytes : 0 < text.byteLength := by
        refine Text.byte_length_pos ?_
        intro hnil
        simp [hnil] at hcount
      have hrest : rest = text ++ rest.drop (count + 1) := by
        rw [← htake, List.take_append_drop]
      have hlength : line.byteLength = before.byteLength + text.byteLength +
          Text.byteLength (rest.drop (count + 1)) := by
        conv_lhs => rw [hline, hrest]
        simp only [Text.byte_length_append]
        omega
      simp only [Range.length, htake]
      omega
  · cases hmatch

/-- Whether a byte of a range is claimed. -/
def Buffer.Takes (buffer : Buffer) (range : Range) : Prop :=
  ∃ offset, range.contains offset = true ∧ buffer.claimedAt offset ≠ none

/-- `buffer.Leads number line key` says that the search for a key in quotes goes past every bare
place of its text and ends at its own place. -/
structure Buffer.Leads (buffer : Buffer) (number : Nat) (line : Text) (key : Lexeme) : Prop where
  plain : '\\' ∉ key.text
  taken : ∀ range ∈ (Canvas.ofText number line).bareKeys (Quoted.unquote key.text),
    buffer.Takes range

/-- No bare place of a key is claimed just if all of them are taken. -/
theorem claim_near_bare_iff {number start : Nat} {line text : Text} {buffer : Buffer}
    (hlength : buffer.length = line.byteLength) :
    Canvas.claimNear start .key ((Canvas.ofText number line).bareKeys text) buffer = none ↔
      ∀ range ∈ (Canvas.ofText number line).bareKeys text, buffer.Takes range := by
  have hrefused : ∀ range ∈ (Canvas.ofText number line).bareKeys text,
      buffer.claim? range.start range.length .key = none ↔ buffer.Takes range := by
    intro range hrange
    obtain ⟨-, hlen, hstop, hend⟩ := bare_key_bounds hrange
    rw [Buffer.claim_eq_none_iff hlen (by decide) (by omega), Buffer.Takes, hstop]
    simp only [Range.contains, Bool.and_eq_true, decide_eq_true_eq, and_assoc]
  simp only [Canvas.claimNear, Buffer.claimFirst?, List.findSome?_eq_none_iff,
    Option.map_eq_none_iff, List.mem_append, List.mem_filter]
  constructor
  · intro hnone range hrange
    rw [← hrefused range hrange]
    refine hnone range ?_
    by_cases hlow : start ≤ range.start
    · exact .inl ⟨hrange, decide_eq_true hlow⟩
    · exact .inr ⟨hrange, decide_eq_true (by omega)⟩
  · intro htaken range hrange
    have hmem : range ∈ (Canvas.ofText number line).bareKeys text := by
      rcases hrange with hrange | hrange
      · exact hrange.1
      · exact hrange.1
    exact (hrefused range hmem).2 (htaken range hmem)

/-- If all bytes of a range are free before a granted claim and taken after it, the claim is for all
of them. -/
theorem Buffer.range_le_of_claim {buffer claimed : Buffer} {own range : Range} {category : Category}
    (hbytes : own.start < own.stop)
    (hfree : ∀ offset, own.contains offset = true → buffer.claimedAt offset = none)
    (hgranted : buffer.claim? range.start range.length category = some claimed)
    (htaken : ∀ offset, own.contains offset = true → claimed.claimedAt offset ≠ none) :
    range.start ≤ own.start ∧ own.stop ≤ range.start + range.length := by
  have hinside : ∀ offset, own.contains offset = true →
      range.start ≤ offset ∧ offset < range.start + range.length := by
    intro offset hoffset
    by_contra houtside
    refine htaken offset hoffset ?_
    rw [Buffer.claimed_at_claim hgranted, if_neg houtside, hfree offset hoffset]
  have hfirst := hinside own.start (by simp [Range.contains, hbytes])
  have hlast := hinside (own.stop - 1) (by
    simp only [Range.contains, Bool.and_eq_true, decide_eq_true_eq]
    omega)
  omega

/-- The equals sign after a key is claimed as an operator. -/
theorem Canvas.claims_equals (canvas : Canvas) (start : Nat) (buffer : Buffer) :
    Buffer.Claims (fun span => span.category = .operator) buffer
      (canvas.paintEquals start buffer) := by
  unfold Canvas.paintEquals
  split
  · exact Buffer.claims_claim rfl
  · exact .refl buffer

/-- The places of keys in quotes are in order. -/
theorem quoted_keys_sorted (number : Nat) (line text : Text) :
    ((Canvas.ofText number line).quotedKeys text).Pairwise (·.start < ·.start) :=
  ((Text.find_all_sorted line).filter _).filter _

namespace Legible

variable {number : Nat} {line : Text} {lexemes : List Lexeme} (h : Legible number line lexemes)
  {key : Lexeme} (hkey : key ∈ lexemes) (htoken : key.token = some .string)

include h hkey htoken

/-- A key in quotes that the search leads to is claimed at its own place. -/
theorem paint_key_of_leads {shown : Lexeme → Prop} {buffer : Buffer}
    (hpainted : Painted line lexemes shown buffer) (hfollowed : key.isKeyIn lexemes = true)
    (hnew : ¬ shown key) (hleads : buffer.Leads number line key) :
    ∃ claimed,
      (Canvas.ofText number line).paintKey (Quoted.unquote key.text) key.pos.toSource buffer =
        ((key.rangeIn line).stop, claimed) ∧
      Painted line lexemes (fun other => shown other ∨ other = key) claimed := by
  obtain ⟨rest, hshape⟩ := h.string_shape hkey htoken
  have hcategory : key.shadeIn lexemes = some .key := by
    simp [Lexeme.shadeIn, isString, htoken, hfollowed]
  have hplace : key.rangeIn line ∈
      (Canvas.ofText number line).quotedKeys (Quoted.unquote key.text) :=
    (h.mem_quoted_keys_iff hkey htoken).2 ((unquote_eq_iff hshape).2 hleads.plain).symm
  obtain ⟨claimed, hclaim, hclaimed⟩ := painted_near h hpainted hkey hnew hcategory
    (quoted_keys_sorted number line _) hplace
  have hbare : Canvas.claimNear (key.rangeIn line).start .key
      ((Canvas.ofText number line).bareKeys (Quoted.unquote key.text)) buffer = none :=
    (claim_near_bare_iff hpainted.length).2 hleads.taken
  have hstart : (Canvas.ofText number line).offsetOf key.pos.toSource =
    (key.rangeIn line).start := rfl
  refine ⟨claimed, ?_, hclaimed⟩
  simp only [Canvas.paintKey, hstart, hbare, hclaim]

/-- A key in quotes that the search leads to after some strokes is shown by its own stroke. -/
theorem finds_of_leads {strokes : List Stroke} (hfollowed : key.isKeyIn lexemes = true)
    (hnew : key.pos.toSource ∉ (strokes.filterMap Stroke.item?).map Item.pos)
    (hleads : ∀ buffer, Painted line lexemes (DrawnBy number lexemes strokes) buffer →
      buffer.Leads number line key) : Finds number line lexemes strokes key := by
  intro buffer hpainted
  have hunseen : ¬ DrawnBy number lexemes strokes key :=
    not_shown hnew (by simp [htoken]) (by simp [htoken]) (by simp [htoken])
  obtain ⟨claimed, hfound, hclaimed⟩ :=
    h.paint_key_of_leads hkey htoken hpainted hfollowed hunseen (hleads buffer hpainted)
  obtain ⟨first, equals, rest, hsplit, hequals⟩ := h.equals_of_is_key hkey hfollowed
  have hdrawn : DrawnBy number lexemes (strokes ++ [key.keyStroke]) =
      ShownBy lexemes ((strokes.filterMap Stroke.item?).map Item.pos ++ [key.pos.toSource])
        (strokes.any (Stroke.separates number)) := by
    simp [DrawnBy, Lexeme.keyStroke, Stroke.item?, Stroke.separates]
  rw [hdrawn]
  exact h.shows_found_key hsplit (by simp [htoken]) hequals hfound hclaimed

/-- If the search for a key in quotes takes all of its bytes, it has led to the key. -/
theorem leads_of_search {shown : Lexeme → Prop} {buffer : Buffer}
    (hpainted : Painted line lexemes shown buffer) (hnew : ¬ shown key)
    (htaken : ∀ offset, (key.rangeIn line).contains offset = true →
      ((Canvas.ofText number line).paintKey (Quoted.unquote key.text) key.pos.toSource
        buffer).2.claimedAt offset ≠ none) :
    buffer.Leads number line key := by
  have hbounds := h.bounds hkey
  have hstart : (key.rangeIn line).contains (key.rangeIn line).start = true := by
    simp [Range.contains, hbounds.1]
  obtain ⟨-, hfree⟩ := Buffer.is_free_iff.1 (free_of_not_shown h hpainted hkey hnew)
  obtain ⟨rest, hshape⟩ := h.string_shape hkey htoken
  simp only [Canvas.paintKey] at htaken
  split at htaken
  · -- A bare place has fewer bytes than the key.
    next range claimed hnear =>
      obtain ⟨hmem, hgranted⟩ := Canvas.granted_of_claim_near hnear
      obtain ⟨hlength, -, -, -⟩ := bare_key_bounds hmem
      have hshorter := unquote_byte_length_lt hshape
      have hsize : (key.rangeIn line).stop = (key.rangeIn line).start + key.text.byteLength := rfl
      have hinside := Buffer.range_le_of_claim hbounds.1 hfree hgranted htaken
      omega
  · next hbare =>
      split at htaken
      · -- A literal with bytes of the key is the key.
        next range claimed hnear =>
          obtain ⟨hmem, hgranted⟩ := Canvas.granted_of_claim_near hnear
          obtain ⟨other, hother, -, rfl⟩ := h.exists_of_mem_quoted_keys hmem
          have hinside := Buffer.range_le_of_claim hbounds.1 hfree hgranted htaken
          have hsame : other = key := by
            refine h.unique (key.rangeIn line).start hother hkey ?_ hstart
            have hothers := h.bounds hother
            simp only [Range.length] at hinside
            simp only [Range.contains, Bool.and_eq_true, decide_eq_true_eq]
            omega
          have hplain := (h.mem_quoted_keys_iff hkey htoken).1 (hsame ▸ hmem)
          exact ⟨(unquote_eq_iff hshape).1 hplain.symm,
            (claim_near_bare_iff hpainted.length).1 hbare⟩
      · exact absurd (hfree _ hstart) (htaken _ hstart)

/-- If the stroke for a key in quotes shows all of its bytes as a key, the search has led to it. -/
theorem leads_of_stroke {shown : Lexeme → Prop} {buffer : Buffer}
    (hpainted : Painted line lexemes shown buffer) (hnew : ¬ shown key)
    (hclaimed : ∀ offset, (key.rangeIn line).contains offset = true →
      ((Canvas.ofText number line).draw buffer key.keyStroke).claimedAt offset = some .key) :
    buffer.Leads number line key := by
  refine h.leads_of_search hkey htoken hpainted hnew fun offset hoffset hnone => ?_
  have hline : (Canvas.ofText number line).has key.pos.toSource = true :=
    (has_iff number line _).2 (h.line_of_mem hkey)
  have hdraw : (Canvas.ofText number line).draw buffer key.keyStroke =
      (Canvas.ofText number line).paintEquals
        ((Canvas.ofText number line).paintKey (Quoted.unquote key.text) key.pos.toSource buffer).1
        ((Canvas.ofText number line).paintKey (Quoted.unquote key.text) key.pos.toSource
          buffer).2 :=
    if_pos hline
  -- What is not claimed by the search can only be claimed as an operator.
  have hshown := hclaimed offset hoffset
  rw [hdraw] at hshown
  rcases (Canvas.claims_equals _ _ _).claimed_before hshown with hbefore | hoffered
  · rw [hnone] at hbefore
    cases hbefore
  · obtain ⟨span, hoperator, hcategory, -⟩ := hoffered
    rw [hoperator] at hcategory
    cases hcategory

end Legible

end Highlighter
