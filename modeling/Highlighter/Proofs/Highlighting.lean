import Highlighter.Line.Pass
import Highlighter.Proofs.Strokes

/-!
# Highlighting a document that was read

A line of a document that can be read is legible (`excerpt_of_spaced`), and its parts are those of
the document that are on the line (`Excerpt.items_eq`). If no key is in quotes, painting it from the
tree shows each of its lexemes at its own place (`Excerpt.painted_tree`). The category at a byte is
therefore that of the lexeme that has the byte: keys, operators, values and delimiters as such, a
comment by its marker, and a comma if some container opens on the line or has a member that starts
on it.
-/

namespace Highlighter

open Lexeme

namespace Text

/-- A text without a carriage return at its end is a first part of it. -/
theorem strip_return_sublist (text : Text) : (stripReturn text).Sublist text := by
  obtain hsame | hreturn := strip_return_cases text
  · rw [hsame]
  · conv_rhs => rw [hreturn]
    exact List.sublist_append_left _ _

/-- White space at the end of a text counts for nothing once it is trimmed. -/
theorem trim_end_strip_return (text : Text) : trimEnd (stripReturn text) = trimEnd text := by
  obtain hsame | hreturn := strip_return_cases text
  · rw [hsame]
  · have hspace : isSpace '\r' = true := by decide
    conv_rhs => rw [hreturn]
    simp [trimEnd, hspace]

end Text

/-- The kind of a comment does not depend on a carriage return at its end. -/
theorem comment_kind_strip_return (text : Text) :
    CommentKind.ofText (Text.stripReturn text) = CommentKind.ofText text := by
  obtain hsame | hreturn := Text.strip_return_cases text
  · rw [hsame]
  · have hmarker : ∀ kind : CommentKind,
        kind.marker.isPrefixOf text = kind.marker.isPrefixOf (Text.stripReturn text) := by
      intro kind
      have hfree : '\r' ∉ kind.marker := by cases kind <;> decide
      have hne : kind.marker ≠ Text.stripReturn text ++ ['\r'] := fun heq => hfree (by simp [heq])
      conv_lhs => rw [hreturn]
      rw [Bool.eq_iff_iff, List.isPrefixOf_iff_prefix, List.isPrefixOf_iff_prefix,
        List.prefix_concat_iff]
      exact or_iff_right hne
    simp [CommentKind.ofText, hmarker]

namespace Lexeme

variable {text : Text} {lexeme : Lexeme}

/-- Only a comment loses a carriage return. -/
theorem strip_return_of_token (hlexeme : lexeme ∈ tokenize text) (hmatched : lexeme.token ≠ none)
    (hcomment : lexeme.token ≠ some .comment) : stripReturn lexeme = lexeme := by
  obtain ⟨_, after, -, -, hshape⟩ := exists_of_mem_scans (scans_scan _ _) hlexeme
  obtain ⟨token, htoken⟩ := Option.ne_none_iff_exists'.1 hmatched
  rw [htoken] at hshape
  exact strip_return_of_munched hshape fun hsame => absurd (hsame ▸ htoken) hcomment

/-- A carriage return does not change the part that a lexeme is. -/
theorem item_strip_return (isKey : Bool) (hlexeme : lexeme ∈ tokenize text)
    (hmatched : lexeme.token ≠ none) :
    (stripReturn lexeme).item? isKey = lexeme.item? isKey := by
  by_cases hcomment : lexeme.token = some .comment
  · simp [Lexeme.item?, stripReturn, hcomment, Text.trim_end_strip_return]
  · rw [strip_return_of_token hlexeme hmatched hcomment]

/-- A carriage return does not change how a lexeme is painted. -/
theorem category_strip_return (commas : Bool) (lexeme : Lexeme) :
    (stripReturn lexeme).category? commas = lexeme.category? commas := by
  simp only [Lexeme.category?, stripReturn, comment_kind_strip_return]

/-- A lexeme that is no comma is painted alike whether commas are or not. -/
theorem category_of_not_comma (commas : Bool) (hcomma : lexeme.token ≠ some .comma) :
    lexeme.category? commas = lexeme.category? true := by
  unfold Lexeme.category?
  split <;> simp_all

/-- Carriage returns do not change which lexemes are neighbours. -/
theorem spaced_strip_return {lexemes : List Lexeme} (h : Spaced lexemes) :
    Spaced (lexemes.map stripReturn) := by
  have hedged : edged (lexemes.map stripReturn) = edged lexemes := by
    simp [edged, stripReturn, Function.comp_def]
  rwa [Spaced, hedged]

/-- Carriage returns do not change the parts that lexemes are. -/
theorem items_strip_return {lexemes : List Lexeme} (hlexemes : lexemes ⊆ tokenize text)
    (hmatched : ∀ lexeme ∈ tokenize text, lexeme.token ≠ none) :
    items (lexemes.map stripReturn) = items lexemes := by
  induction lexemes with
  | nil => rfl
  | cons lexeme rest ih =>
      obtain ⟨hlexeme, hrest⟩ := List.cons_subset.1 hlexemes
      have hstarts : startsWithEquals (rest.map stripReturn) = startsWithEquals rest := by
        cases rest <;> rfl
      rw [List.map_cons, items, items, hstarts, ih hrest,
        item_strip_return _ hlexeme (hmatched lexeme hlexeme)]

/-- A part of lexemes stands where one of them does, which is no line feed. -/
theorem exists_of_mem_items {lexemes : List Lexeme} {item : Item} (h : item ∈ items lexemes) :
    ∃ lexeme ∈ lexemes, item.pos = lexeme.pos.toSource ∧ lexeme.token ≠ some .newline := by
  obtain ⟨first, lexeme, rest, rfl, hitem⟩ := mem_items_iff.1 h
  refine ⟨lexeme, by simp, (item_cases hitem).1, fun htoken => ?_⟩
  simp [Lexeme.item?, htoken] at hitem

/-- The parts of lexemes stand in the order of the lexemes. -/
theorem items_pos_sublist (lexemes : List Lexeme) :
    ((items lexemes).map Item.pos).Sublist (lexemes.map (·.pos.toSource)) := by
  induction lexemes with
  | nil => exact .slnil
  | cons lexeme rest ih =>
      rw [items, List.map_append, List.map_cons]
      cases hitem : lexeme.item? (startsWithEquals rest) with
      | none => exact ih.cons _
      | some item =>
          rw [Option.toList_some, List.map_singleton, (item_cases hitem).1]
          exact ih.cons_cons _

end Lexeme

/-- `Excerpt text number line lexemes` says that the lexemes of a line of a text are those of the
text that are on the line, but for the line feed after it. -/
structure Excerpt (text : Text) (number : Nat) (line : Text) (lexemes : List Lexeme) : Prop where
  legible : Legible number line lexemes
  cut : ∃ before own after, tokenize text = before ++ own ++ after ∧
    lexemes = own.map stripReturn ∧ (∀ lexeme ∈ before, lexeme.pos.line < number) ∧
    (∀ lexeme ∈ before.getLast?, lexeme.token = some .newline) ∧
    (∀ lexeme ∈ after.head?, lexeme.token = some .newline) ∧
    ∀ lexeme ∈ after, lexeme.pos.line = number →
      lexeme.token = some .newline ∧ line.length < lexeme.pos.column

/-- Each line of a document that is spaced is an excerpt of it. -/
theorem excerpt_of_spaced {text line : Text} {n : Nat} (hspaced : Spaced (tokenize text))
    (hmatched : ∀ lexeme ∈ tokenize text, lexeme.token ≠ none)
    (hline : text.lines[n]? = some line) :
    ∃ lexemes, Excerpt text (n + 1) line lexemes := by
  rw [Text.lines, List.getElem?_map, Option.map_eq_some_iff] at hline
  obtain ⟨full, hfull, rfl⟩ := hline
  obtain ⟨hfeed, before, after, hscan, hbefore, hlast, hhead, hafter⟩ := scan_line 1 hfull
  rw [Nat.add_comm 1 n] at hscan hbefore hafter
  change tokenize text = _ at hscan
  have hown : ∀ lexeme ∈ scan ⟨n + 1, 1⟩ 0 full, lexeme ∈ tokenize text := by
    intro lexeme hlexeme
    simp [hscan, hlexeme]
  have hstrip := scan_strip_return hfeed fun lexeme hlexeme => hmatched _ (hown lexeme hlexeme)
  -- The lexemes are scanned with the carriage return on the line and stripped of it.
  refine ⟨(scan ⟨n + 1, 1⟩ 0 full).map stripReturn, ⟨?_, ?_, ?_, ?_⟩,
    ⟨before, _, after, hscan, rfl, hbefore, hlast, hhead, ?_⟩⟩
  · exact hstrip ▸ scans_scan _ _
  · exact fun hmem => hfeed ((Text.strip_return_sublist full).subset hmem)
  · rintro _ hmem
    obtain ⟨lexeme, hlexeme, rfl⟩ := List.mem_map.1 hmem
    exact hmatched lexeme (hown lexeme hlexeme)
  · exact spaced_strip_return (spaced_line (hscan ▸ hspaced) hlast hhead)
  · intro lexeme hlexeme hnumber
    obtain ⟨htoken, hpos⟩ | hlater := hafter lexeme hlexeme
    · -- The line feed that ends the line has its number.
      have hlength := (Text.strip_return_sublist full).length_le
      exact ⟨htoken, by rw [hpos]; exact Nat.lt_succ_of_le hlength⟩
    · omega

/-- Each line of a document in order is an excerpt of it. -/
theorem excerpt_of_orderly {text line : Text} {n : Nat} (horderly : Orderly (tokenize text))
    (hmatched : ∀ lexeme ∈ tokenize text, lexeme.token ≠ none)
    (hline : text.lines[n]? = some line) :
    ∃ lexemes, Excerpt text (n + 1) line lexemes :=
  excerpt_of_spaced horderly.spaced hmatched hline

/-- With no part shown and no commas, only the comment is. -/
theorem shown_by_nil {lexemes : List Lexeme} {lexeme : Lexeme} :
    ShownBy lexemes [] false lexeme ↔ lexeme.token = some .comment := by
  simp [ShownBy]

/-- A lexeme is shown if it is a part that is shown. -/
theorem shown_of_item {lexemes : List Lexeme} {items : List Item} {commas : Bool} {lexeme : Lexeme}
    {isKey : Bool} {item : Item} (hmem : item ∈ items) (hitem : lexeme.item? isKey = some item) :
    ShownBy lexemes (items.map Item.pos) commas lexeme := by
  refine .inr (.inr ⟨item.pos, List.mem_map_of_mem hmem, .inl ⟨?_, (item_cases hitem).1.symm⟩⟩)
  intro htoken
  simp [Lexeme.item?, htoken] at hitem

namespace Legible

variable {number : Nat} {line : Text} {lexemes : List Lexeme} (h : Legible number line lexemes)

include h

/-- At first the comment of the line is shown and nothing else. -/
theorem painted_comment :
    Painted line lexemes (ShownBy lexemes [] false) ((Buffer.ofText line).paintComment line) := by
  by_cases hexists : ∃ comment ∈ lexemes, comment.token = some .comment
  · obtain ⟨comment, hcomment, htoken⟩ := hexists
    have hcategory := shade_of_comment lexemes htoken
    have hpainted := painted_claim h (painted_empty line lexemes) hcomment hcategory
    rw [Buffer.paintComment, h.comment_span_eq hcomment htoken]
    refine hpainted.congr fun lexeme hlexeme => ?_
    rw [shown_by_nil, false_or]
    refine ⟨fun hsame => hsame ▸ htoken, fun hother => ?_⟩
    -- A line has one comment.
    exact Option.some.inj
      ((h.find_comment hlexeme hother).symm.trans (h.find_comment hcomment htoken))
  · rw [Buffer.paintComment, h.comment_span_of_none hexists]
    refine (painted_empty line lexemes).congr fun lexeme hlexeme => ⟨False.elim, fun hshown => ?_⟩
    exact hexists ⟨lexeme, hlexeme, shown_by_nil.1 hshown⟩

section

variable {items : List Item} {commas : Bool} {lexeme : Lexeme}
  (hstands : ∀ item ∈ items, Stands number lexemes item)
  (hitems : ∀ lexeme ∈ lexemes, ∀ item, lexeme.item? (lexeme.isKeyIn lexemes) = some item →
    item ∈ items)
  (hlexeme : lexeme ∈ lexemes)

include hlexeme

include hitems in
/-- An equals sign is shown with its key. -/
theorem shown_of_equals (htoken : lexeme.token = some .equals) :
    ShownBy lexemes (items.map Item.pos) commas lexeme := by
  obtain ⟨before, after, hsplit⟩ := List.append_of_mem hlexeme
  obtain ⟨first, key, rfl, hkey⟩ := key_of_equals (hsplit ▸ h.spaced) htoken
  have hsplit : lexemes = first ++ key :: lexeme :: after := by simp [hsplit]
  obtain ⟨item, hitem⟩ : ∃ item, key.item? (key.isKeyIn lexemes) = some item := by
    obtain hkey | hkey := hkey
    · simp [Lexeme.item?, hkey]
    · simp [Lexeme.item?, hkey, h.is_key_of_split hsplit, startsWithEquals, htoken]
  have hmem := hitems key (by simp [hsplit]) _ hitem
  exact .inr (.inr ⟨_, List.mem_map_of_mem hmem, .inr ⟨htoken, first, key, after, hsplit,
    (item_cases hitem).1.symm⟩⟩)

include hstands in
/-- A comma is shown only if commas are, since it is no part. -/
theorem comma_shown_iff (htoken : lexeme.token = some .comma) :
    ShownBy lexemes (items.map Item.pos) commas lexeme ↔ commas = true := by
  refine ⟨?_, fun hcommas => .inr (.inl ⟨htoken, hcommas⟩)⟩
  rintro (hcomment | ⟨-, hcommas⟩ | ⟨pos, hpos, ⟨-, rfl⟩ | ⟨hequals, -⟩⟩)
  · simp [htoken] at hcomment
  · exact hcommas
  · obtain ⟨item, hitem, hplace⟩ := List.mem_map.1 hpos
    obtain ⟨other, hother, hpart⟩ :=
      hstands item hitem (hplace ▸ h.line_of_mem hlexeme)
    have hsame : other = lexeme := h.eq_of_pos hother hlexeme
      (pos_of_to_source ((item_cases hpart).1.symm.trans hplace))
    simp [Lexeme.item?, hsame, htoken] at hpart
  · simp [htoken] at hequals

include hstands hitems in
/-- When the parts that are shown are those of the line and no string is a key, its lexemes are
shown, but for separators; a comma is shown if commas are. -/
theorem shown_iff (hvalue : lexeme.token = some .string → lexeme.isKeyIn lexemes = false)
    (category : Category) :
    ShownBy lexemes (items.map Item.pos) commas lexeme ∧ lexeme.shadeIn lexemes = some category ↔
      lexeme.category? commas = some category := by
  rw [shade_of_value hvalue]
  by_cases hcomma : lexeme.token = some .comma
  · rw [h.comma_shown_iff hstands hlexeme hcomma]
    cases commas <;> simp [Lexeme.category?, hcomma]
  · rw [category_of_not_comma commas hcomma]
    refine and_iff_right_of_imp fun hcategory => ?_
    by_cases hequals : lexeme.token = some .equals
    · exact h.shown_of_equals hitems hlexeme hequals
    · obtain ⟨item, hitem⟩ : ∃ item, lexeme.item? (lexeme.isKeyIn lexemes) = some item := by
        unfold Lexeme.category? at hcategory
        split at hcategory <;> simp_all [Lexeme.item?]
      exact shown_of_item (hitems lexeme hlexeme item hitem) hitem

end

end Legible

/-- No two lexemes of a text stand at one place. -/
theorem places_nodup (text : Text) : ((tokenize text).map (·.pos.toSource)).Nodup := by
  rw [List.Nodup, List.pairwise_map]
  refine (scans_sorted (scans_scan _ _)).2.imp ?_
  intro first second hbefore heq
  rw [pos_of_to_source heq] at hbefore
  simp [Position.Before] at hbefore

/-- No two parts stand at one place. -/
theorem positions_nodup (text : Text) :
    ((Lexeme.items (tokenize text)).map Item.pos).Nodup :=
  (items_pos_sublist _).nodup (places_nodup text)

/-- Whether commas are painted on a line of a document: some container opens there or has a member
that starts there. -/
def Body.separates (tree : Body) (number : Nat) : Bool :=
  tree.containers.any (Container.separates number)

namespace Excerpt

variable {text : Text} {number : Nat} {line : Text} {lexemes : List Lexeme}
  (h : Excerpt text number line lexemes)

include h

/-- A lexeme of the text that has the number of the line is one of its lexemes or the line feed
after it. -/
theorem mem (lexeme : Lexeme) (hlexeme : lexeme ∈ tokenize text)
    (hnumber : lexeme.pos.line = number) : stripReturn lexeme ∈ lexemes ∨
      lexeme.token = some .newline ∧ line.length < lexeme.pos.column := by
  obtain ⟨before, own, after, hcut, rfl, hbefore, -, -, hafter⟩ := h.cut
  rw [hcut] at hlexeme
  obtain hlexeme | hlexeme := List.mem_append.1 hlexeme
  · obtain hlexeme | hlexeme := List.mem_append.1 hlexeme
    · have := hbefore lexeme hlexeme
      omega
    · exact .inl (List.mem_map_of_mem hlexeme)
  · exact .inr (hafter lexeme hlexeme hnumber)

/-- A lexeme of the line is one of the text. -/
theorem original (lexeme : Lexeme) (hlexeme : lexeme ∈ lexemes) :
    ∃ other ∈ tokenize text, stripReturn other = lexeme := by
  obtain ⟨before, own, after, hcut, rfl, -⟩ := h.cut
  obtain ⟨other, hother, rfl⟩ := List.mem_map.1 hlexeme
  exact ⟨other, by simp [hcut, hother], rfl⟩

section

variable (hspaced : Spaced (tokenize text))
  (hmatched : ∀ lexeme ∈ tokenize text, lexeme.token ≠ none)

include hspaced hmatched

/-- The parts of the text that are on the line are the parts of the line. -/
theorem items_eq :
    (Lexeme.items (tokenize text)).filter (·.pos.line == number) = Lexeme.items lexemes := by
  obtain ⟨before, own, after, hcut, rfl, hbefore, hlast, hhead, hafter⟩ := h.cut
  have hown : own ⊆ tokenize text := by
    rw [hcut]
    exact fun lexeme hlexeme => List.mem_append_left _ (List.mem_append_right _ hlexeme)
  have hstart : startsWithEquals (own ++ after) = false := by
    rw [hcut, List.append_assoc] at hspaced
    exact not_starts_with_equals hspaced hlast
  have hstop : startsWithEquals after = false := by
    cases after with
    | nil => rfl
    | cons lexeme rest => simp [startsWithEquals, hhead lexeme rfl]
  -- The parts before the line have smaller numbers, and those after it greater ones.
  rw [items_strip_return hown hmatched, hcut, List.append_assoc, items_append hstart,
    items_append hstop, List.filter_append, List.filter_append, List.filter_eq_nil_iff.2,
    List.filter_eq_self.2, List.filter_eq_nil_iff.2, List.nil_append, List.append_nil]
  · intro item hitem hnumber
    obtain ⟨lexeme, hlexeme, hpos, htoken⟩ := exists_of_mem_items hitem
    rw [hpos, beq_iff_eq] at hnumber
    exact htoken (hafter lexeme hlexeme hnumber).1
  · intro item hitem
    obtain ⟨lexeme, hlexeme, hpos, -⟩ := exists_of_mem_items hitem
    have hnumber : (stripReturn lexeme).pos.line = number :=
      h.legible.line_of_mem (List.mem_map_of_mem hlexeme)
    rw [hpos, beq_iff_eq]
    exact hnumber
  · intro item hitem hnumber
    obtain ⟨lexeme, hlexeme, hpos, -⟩ := exists_of_mem_items hitem
    rw [hpos, beq_iff_eq] at hnumber
    exact absurd hnumber (Nat.ne_of_lt (hbefore lexeme hlexeme))

/-- Each part of the document that is on the line is one of its lexemes. -/
theorem stands {item : Item} (hitem : item ∈ Lexeme.items (tokenize text)) :
    Stands number lexemes item := by
  intro hnumber
  rw [← h.legible.mem_items_iff, ← h.items_eq hspaced hmatched]
  exact List.mem_filter.2 ⟨hitem, beq_iff_eq.2 hnumber⟩

/-- Each lexeme of the line that is a part is one of the document. -/
theorem mem_items {lexeme : Lexeme} {item : Item} (hlexeme : lexeme ∈ lexemes)
    (hitem : lexeme.item? (lexeme.isKeyIn lexemes) = some item) :
    item ∈ Lexeme.items (tokenize text) := by
  have hmem : item ∈ Lexeme.items lexemes := h.legible.mem_items_iff.2 ⟨lexeme, hlexeme, hitem⟩
  rw [← h.items_eq hspaced hmatched] at hmem
  exact List.mem_of_mem_filter hmem

/-- The parts of a tree stand on the line as the lexemes that they are, at different places. -/
theorem tree_stands {tree : Body} (hitems : tree.items.Perm (Lexeme.items (tokenize text))) :
    (∀ item ∈ tree.items, Stands number lexemes item) ∧ (tree.items.map Item.pos).Nodup :=
  ⟨fun _ hitem => h.stands hspaced hmatched (hitems.mem_iff.1 hitem),
    (hitems.map Item.pos).nodup_iff.2 (positions_nodup text)⟩

/-- Painting the line from the tree shows the parts of the tree, if no string on the line is a
key. -/
theorem painted_tree {tree : Body} (hitems : tree.items.Perm (Lexeme.items (tokenize text)))
    (hclosed : ∀ container ∈ tree.containers, container.close.isSome = true)
    (hvalues : ∀ lexeme ∈ lexemes, lexeme.token = some .string →
      lexeme.isKeyIn lexemes = false) :
    Painted line lexemes (ShownBy lexemes (tree.items.map Item.pos) (tree.separates number))
      (((Buffer.ofText line).paintComment line).paintTree tree number line) := by
  obtain ⟨hstands, hnodup⟩ := h.tree_stands hspaced hmatched hitems
  obtain ⟨strokes, hdraws⟩ := exists_draws_body (Canvas.ofText number line) tree hclosed
  rw [← hdraws.items_eq] at hstands hnodup
  have hpainted := h.legible.painted_strokes h.legible.painted_comment hstands hnodup
    fun key hkey hstring hfollowed => by
      simp [hvalues key hkey hstring] at hfollowed
  have hcommas : strokes.any (Stroke.separates number) = tree.separates number := by
    rw [Bool.eq_iff_iff, Body.separates, List.any_eq_true, List.any_eq_true]
    constructor
    · rintro ⟨stroke, hstroke, hseparates⟩
      cases stroke with
      | part item => cases hseparates
      | commas container => exact ⟨container, (hdraws.commas_iff container).1 hstroke, hseparates⟩
    · rintro ⟨container, hcontainer, hseparates⟩
      exact ⟨.commas container, (hdraws.commas_iff container).2 hcontainer, hseparates⟩
  rwa [DrawnBy, hdraws.items_eq, hcommas, hdraws.paint_eq] at hpainted

end

/-- In a document with bare keys no string is a key. -/
theorem string_not_key (hbare : BareKeys (tokenize text)) {lexeme : Lexeme}
    (hlexeme : lexeme ∈ lexemes) (htoken : lexeme.token = some .string) :
    lexeme.isKeyIn lexemes = false := by
  rw [Bool.eq_false_iff]
  intro hkey
  obtain ⟨first, equals, rest, hsplit, hequals⟩ := h.legible.equals_of_is_key hlexeme hkey
  obtain ⟨before, own, after, hcut, hown, -⟩ := h.cut
  have hline : BareKeys lexemes := by
    rw [hcut] at hbare
    rw [hown]
    exact (List.isChain_map _).2 hbare.left_of_append.right_of_append
  rw [hsplit] at hline
  have hident := (List.isChain_cons_cons.1 hline.right_of_append).1 hequals
  simp [htoken] at hident

variable (horderly : Orderly (tokenize text))
  (hmatched : ∀ lexeme ∈ tokenize text, lexeme.token ≠ none)

section

variable {tree : Body} (hitems : tree.items.Perm (Lexeme.items (tokenize text)))
  (hclosed : ∀ container ∈ tree.containers, container.close.isSome = true)

include horderly hmatched hitems hclosed

/-- The category at a byte of the line is that of the lexeme with the byte. -/
theorem category_at_iff (errors : List ErrorRecord) (offset : Nat) (category : Category) :
    (Pass.highlightLine ⟨.parsed tree, errors, false⟩ number line).categoryAt offset =
        some category ↔
      ∃ lexeme ∈ lexemes, (lexeme.rangeIn line).contains offset = true ∧
        lexeme.category? (tree.separates number) = some category := by
  have hpainted := h.painted_tree horderly.spaced hmatched hitems hclosed
    fun lexeme hlexeme => h.string_not_key horderly.bare hlexeme
  have hspans : (Pass.highlightLine ⟨.parsed tree, errors, false⟩ number line).spans =
      (((Buffer.ofText line).paintComment line).paintTree tree number line).spans := rfl
  rw [LineHighlight.categoryAt, hspans, category_in_spans hpainted, hpainted.claimed]
  refine exists_congr fun lexeme => and_congr_right fun hlexeme => ?_
  rw [and_left_comm, h.legible.shown_iff (h.tree_stands horderly.spaced hmatched hitems).1
    (fun other hother item hitem =>
      hitems.mem_iff.2 (h.mem_items horderly.spaced hmatched hother hitem)) hlexeme
    (h.string_not_key horderly.bare hlexeme) category]

end

include hmatched

/-- A carriage return is no byte of the line. -/
theorem contains_strip_return {lexeme : Lexeme} {offset : Nat} (hoffset : offset < line.byteLength)
    (hlexeme : lexeme ∈ tokenize text) (hmem : stripReturn lexeme ∈ lexemes) :
    ((stripReturn lexeme).rangeIn line).contains offset =
      (lexeme.rangeIn line).contains offset := by
  by_cases hcomment : lexeme.token = some .comment
  · -- The comment lasts to the end of the line with and without it.
    have hstop := h.legible.comment_stop hmem hcomment
    have hbytes : (stripReturn lexeme).text.byteLength ≤ lexeme.text.byteLength := by
      obtain hsame | hreturn := Text.strip_return_cases lexeme.text
      · simp [stripReturn, hsame]
      · conv_rhs => rw [hreturn]
        simp [stripReturn]
    simp only [Lexeme.rangeIn, stripReturn] at hstop hbytes ⊢
    rw [Bool.eq_iff_iff]
    simp only [Range.contains, Bool.and_eq_true, decide_eq_true_eq]
    omega
  · rw [strip_return_of_token hlexeme (hmatched lexeme hlexeme) hcomment]

end Excerpt

/-- A lexeme past the end of a line has none of its bytes. -/
theorem contains_of_column {line : Text} {lexeme : Lexeme} {offset : Nat}
    (hoffset : offset < line.byteLength) (hcolumn : line.length < lexeme.pos.column) :
    (lexeme.rangeIn line).contains offset = false := by
  have hstart : (lexeme.rangeIn line).start = line.byteLength := by
    simp only [Lexeme.rangeIn, Text.charOffset]
    rw [List.take_of_length_le (by omega)]
  simp only [Range.contains, hstart, Bool.and_eq_false_iff, decide_eq_false_iff_not]
  omega

/-- Whether a lexeme is on the line with the given number and has the byte at an offset. -/
def Lexeme.covers (number : Nat) (line : Text) (offset : Nat) (lexeme : Lexeme) : Bool :=
  lexeme.pos.line == number && (lexeme.rangeIn line).contains offset

/-- A byte of the line is covered by the lexemes of the document just as by those of the line. -/
theorem Excerpt.covers_iff {text : Text} {number : Nat} {line : Text} {lexemes : List Lexeme}
    (h : Excerpt text number line lexemes)
    (hmatched : ∀ lexeme ∈ tokenize text, lexeme.token ≠ none) {offset : Nat}
    (hoffset : offset < line.byteLength) {lexeme : Lexeme} (hlexeme : lexeme ∈ tokenize text) :
    lexeme.covers number line offset = true ↔
      stripReturn lexeme ∈ lexemes ∧
        ((stripReturn lexeme).rangeIn line).contains offset = true := by
  simp only [Lexeme.covers, Bool.and_eq_true, beq_iff_eq]
  constructor
  · rintro ⟨hnumber, hcontains⟩
    obtain hmem | ⟨-, hcolumn⟩ := h.mem lexeme hlexeme hnumber
    · exact ⟨hmem, (h.contains_strip_return hmatched hoffset hlexeme hmem).trans hcontains⟩
    · simp [contains_of_column hoffset hcolumn] at hcontains
  · rintro ⟨hmem, hcontains⟩
    rw [h.contains_strip_return hmatched hoffset hlexeme hmem] at hcontains
    have hnumber : (stripReturn lexeme).pos.line = number := h.legible.line_of_mem hmem
    exact ⟨hnumber, hcontains⟩

/-- In a document with bare keys that was read, the category at a byte of a line is that of the
lexeme that has the byte, where a comma has one if some container opens on the line or has a member
that starts on it, and a byte of no lexeme has no category. -/
theorem highlight_line_category_at (text : Text) (tree : Body) (errors : List ErrorRecord)
    (n : Nat) (line : Text) (offset : Nat)
    (hmatched : ∀ lexeme ∈ tokenize text, lexeme.token ≠ none)
    (hbare : BareKeys (tokenize text)) (hread : readDocument text = .ok tree)
    (hline : text.lines[n]? = some line) (hoffset : offset < line.byteLength) :
    (∀ lexeme ∈ tokenize text, lexeme.covers (n + 1) line offset = true →
      (Pass.highlightLine ⟨.parsed tree, errors, false⟩ (n + 1) line).categoryAt offset =
        lexeme.category? (tree.separates (n + 1))) ∧
    ((∀ lexeme ∈ tokenize text, lexeme.covers (n + 1) line offset = false) →
      (Pass.highlightLine ⟨.parsed tree, errors, false⟩ (n + 1) line).categoryAt offset =
        none) := by
  have hreads : Reader.Reads (endPosition text) tree Reader.State.initial (tokenize text) :=
    Reader.reads_of_read rfl hmatched hread
  have horderly := Reader.orderly_of_reads hreads hbare
  obtain ⟨lexemes, h⟩ := excerpt_of_orderly horderly hmatched hline
  have hcategory := h.category_at_iff horderly hmatched (Reader.reads_items hreads)
    (Reader.reads_initial_closed hreads) errors offset
  constructor
  · intro lexeme hlexeme hcovers
    obtain ⟨hmem, hcontains⟩ := (h.covers_iff hmatched hoffset hlexeme).1 hcovers
    ext category
    rw [← category_strip_return, hcategory]
    constructor
    · rintro ⟨other, hother, hothers, hfound⟩
      rwa [← h.legible.unique offset hother hmem hothers hcontains]
    · exact fun hfound => ⟨_, hmem, hcontains, hfound⟩
  · intro hnone
    rw [Option.eq_none_iff_forall_ne_some]
    intro category hfound
    obtain ⟨lexeme, hmem, hcontains, -⟩ := (hcategory category).1 hfound
    obtain ⟨other, hother, rfl⟩ := h.original lexeme hmem
    exact absurd ((h.covers_iff hmatched hoffset hother).2 ⟨hmem, hcontains⟩)
      (by simp [hnone other hother])

/-- One number in several places, also inside a string and a comment, after a character of two
bytes. -/
theorem highlight_line_category_at_repeated :
    let text : Text := "//! 1\na = ['é, 1', 1, \x7bb = 1\x7d] // 1, 1\r\n".toList
    let line : Text := "a = ['é, 1', 1, \x7bb = 1\x7d] // 1, 1".toList
    (∀ lexeme ∈ tokenize text, lexeme.token ≠ none) ∧ BareKeys (tokenize text) ∧
      text.lines[1]? = some line ∧ 22 < line.byteLength ∧
      ∃ tree, readDocument text = .ok tree ∧
        (Pass.highlightLine ⟨.parsed tree, [], false⟩ 2 line).categoryAt 22 = some .number :=
  have hmatched : _ := by decide +kernel
  have hbare : _ := by decide +kernel
  have hline : _ := by decide +kernel
  have hoffset : _ := by decide +kernel
  ⟨hmatched, hbare, hline, hoffset, (exists_of_is_ok (by decide +kernel)).imp fun tree hread =>
    ⟨hread, (highlight_line_category_at _ tree [] 1 _ 22 hmatched hbare hread hline hoffset).1
      ⟨some .number, ['1'], ⟨2, 22⟩⟩ (by decide +kernel) (by decide +kernel)⟩⟩

end Highlighter
