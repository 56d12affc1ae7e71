import Highlighter.Proofs.Drawing
import Highlighter.Proofs.KeySearch
import Highlighter.Proofs.Spans

/-!
# Keys in quotes

A key in quotes is not always painted where it stands. It is looked for by the text that it stands
for, first as a bare word anywhere on its line and then letter by letter between quotes. `Findable`
says when this search ends at the key itself, in terms of the document alone: the key is written
without a backslash, and wherever its text stands bare on the line something is painted before the
key. Then the key is painted as a key and the equals sign after it as an operator, as long as the
keys in quotes before it on the line can be found too. The last key of a line is painted as a key
only if it can be found; keys after it might paint the rest of it by chance.
-/

namespace Highlighter

open Lexeme

/-- `Findable text tree number line first key` says that the search for a key in quotes, which
stands on the line with the given number after the given lexemes, ends at the key itself. -/
structure Findable (text : Text) (tree : Body) (number : Nat) (line : Text) (first : List Lexeme)
    (key : Lexeme) : Prop where
  plain : '\\' ∉ key.text
  taken : ∀ range ∈ (Canvas.ofText number line).bareKeys (Quoted.unquote key.text),
    ∃ lexeme ∈ tokenize text, lexeme.PaintedBefore tree number first ∧
      ∃ offset, range.contains offset = true ∧ lexeme.covers number line offset = true

namespace Drawing

variable {text : Text} {tree : Body} {number : Nat} {line : Text} {lexemes : List Lexeme}
  {strokes : List Stroke} (h : Drawing text tree number line lexemes strokes)
  {first rest : List Lexeme} {key equals : Lexeme}
  (htext : tokenize text = first ++ key :: equals :: rest) (hstring : key.token = some .string)
  (hequals : equals.token = some .equals)

include h htext hstring hequals

/-- A key in quotes of the text is one of its line, with the same equals sign. -/
theorem key_on_line (hnumber : key.pos.line = number) :
    ∃ before after, lexemes = before ++ key :: equals :: after := by
  obtain ⟨other, sign, hpos, -, ⟨before, after, hsplit⟩, start, behind, hpair⟩ :=
    h.exists_key_pair (key_mem htext hstring hequals) hnumber
  obtain rfl : other = key :=
    eq_of_place (show other ∈ tokenize text by simp [hpair]) (by simp [htext]) hpos
  obtain ⟨-, hrest⟩ := tokenize_split_unique hpair htext
  obtain ⟨rfl, -⟩ := List.cons.inj hrest
  exact ⟨before, after, hsplit⟩

variable {done later : List Stroke} (hstrokes : strokes = done ++ key.keyStroke :: later)

include hstrokes

/-- The search leads to a key just if the key can be found. -/
theorem leads_iff {buffer : Buffer}
    (hpainted : Painted line lexemes (DrawnBy number lexemes done) buffer) :
    buffer.Leads number line key ↔ Findable text tree number line first key := by
  have hclaimed : ∀ range ∈ (Canvas.ofText number line).bareKeys (Quoted.unquote key.text),
      buffer.Takes range ↔ ∃ lexeme ∈ tokenize text, lexeme.PaintedBefore tree number first ∧
        ∃ offset, range.contains offset = true ∧ lexeme.covers number line offset = true := by
    intro range hrange
    obtain ⟨-, -, -, hstop⟩ := bare_key_bounds hrange
    have hinside : ∀ offset, range.contains offset = true → offset < line.byteLength := by
      intro offset hoffset
      simp only [Range.contains, Bool.and_eq_true, decide_eq_true_eq] at hoffset
      omega
    constructor
    · rintro ⟨offset, hoffset, htaken⟩
      obtain ⟨lexeme, hlexeme, hbefore, hcovers⟩ :=
        (h.claimed_iff htext hstring hequals hstrokes hpainted (hinside offset hoffset)).1 htaken
      exact ⟨lexeme, hlexeme, hbefore, offset, hoffset, hcovers⟩
    · rintro ⟨lexeme, hlexeme, hbefore, offset, hoffset, hcovers⟩
      exact ⟨offset, hoffset, (h.claimed_iff htext hstring hequals hstrokes hpainted
        (hinside offset hoffset)).2 ⟨lexeme, hlexeme, hbefore, hcovers⟩⟩
  constructor
  · intro hleads
    exact ⟨hleads.plain, fun range hrange => (hclaimed range hrange).1 (hleads.taken range hrange)⟩
  · intro hfindable
    exact ⟨hfindable.plain,
      fun range hrange => (hclaimed range hrange).2 (hfindable.taken range hrange)⟩

omit htext hstring hequals in
/-- The place of a key is not drawn before the key. -/
theorem key_not_placed :
    key.pos.toSource ∉ (done.filterMap Stroke.item?).map Item.pos :=
  fun hmem => h.not_placed_later hstrokes hmem List.mem_cons_self

/-- The stroke for a key that can be found shows it. -/
theorem finds_of_findable (hnumber : key.pos.line = number)
    (hfindable : Findable text tree number line first key) :
    Finds number line lexemes done key := by
  have hlegible := h.excerpt.legible
  obtain ⟨before, after, hsplit⟩ := h.key_on_line htext hstring hequals hnumber
  refine hlegible.finds_of_leads (by simp [hsplit]) hstring ?_ (h.key_not_placed hstrokes)
    fun buffer hpainted => (h.leads_iff htext hstring hequals hstrokes hpainted).2 hfindable
  rw [hlegible.is_key_of_split hsplit]
  simp [startsWithEquals, hequals]

/-- The keys in quotes that are drawn before a key stand before it. -/
theorem earlier_of_stroke {other : Lexeme} {before after : List Stroke} (hother : other ∈ lexemes)
    (htoken : other.token = some .string) (hfollowed : other.isKeyIn lexemes = true)
    (hdone : done = before ++ other.keyStroke :: after) :
    ∃ start sign middle, first = start ++ other :: sign :: middle ∧
      sign.token = some .equals := by
  obtain ⟨_, sign, _, hsplit, hsign⟩ := h.excerpt.legible.equals_of_is_key hother hfollowed
  obtain ⟨start, behind, hpair⟩ := h.excerpt.key_in_text hsplit hsign
  have hplace : other.pos.toSource ∈ (done.filterMap Stroke.item?).map Item.pos := by
    simp [hdone, Lexeme.keyStroke, Stroke.item?]
  have hmem := (h.placed_iff_of_code htext hstring hequals hstrokes (by simp [hpair])
    (by simp [Lexeme.isCode, Lexeme.item?, htoken, Item.isCode])).1 hplace
  have hne : sign ≠ key := by
    rintro rfl
    simp [hstring] at hsign
  obtain ⟨middle, hfirst⟩ := neighbours_before htext hpair hne hmem
  exact ⟨start, sign, middle, hfirst, hsign⟩

/-- The keys on the line that are drawn after a key stand after it. -/
theorem later_of_stroke {name : Text} {pos : SourcePos}
    (hmem : .part ⟨.key name, pos⟩ ∈ later) (hnumber : pos.line = number) :
    ∃ sign ∈ rest, sign.token = some .equals ∧ sign.pos.line = number := by
  obtain ⟨-, hlater⟩ := h.order htext hstring hequals hstrokes
  have hdrawn : ⟨.key name, pos⟩ ∈ later.filterMap Stroke.item? :=
    List.mem_filterMap.2 ⟨_, hmem, rfl⟩
  have hitem : ⟨.key name, pos⟩ ∈ strokes.filterMap Stroke.item? :=
    List.filterMap_subset _ (by simp [hstrokes]) hdrawn
  obtain ⟨other, sign, hpos, hsign, ⟨_, _, hsplit⟩, start, behind, hpair⟩ :=
    h.exists_key_pair (h.mem_items_iff.1 hitem) hnumber
  have hafter : other ∈ rest := by
    have hcode : (⟨.key name, pos⟩ : Item) ∈ (Lexeme.items rest).filter Item.isCode := by
      rw [← hlater]
      exact List.mem_filter.2 ⟨hdrawn, rfl⟩
    obtain ⟨found, hfound, hat, -⟩ := exists_of_mem_items (List.mem_of_mem_filter hcode)
    have hsame : found = other :=
      eq_of_place (show found ∈ tokenize text by simp [htext, hfound]) (by simp [hpair])
        (hat.symm.trans hpos.symm)
    exact hsame ▸ hfound
  obtain ⟨middle, others, rfl⟩ := List.append_of_mem hafter
  have hthere : tokenize text = (first ++ key :: equals :: middle) ++ other :: others := by
    simp [htext]
  obtain ⟨-, rfl⟩ := tokenize_split_unique hpair hthere
  exact ⟨sign, by simp, hsign, h.excerpt.legible.line_of_mem (by simp [hsplit])⟩

/-- Before the stroke for a key, the line shows what is drawn so far, if the keys in quotes before
it on the line can be found. -/
theorem painted_done (hearlier : ∀ before other next middle,
      first = before ++ other :: next :: middle → other.token = some .string →
      next.token = some .equals → other.pos.line = number →
      Findable text tree number line before other) :
    Painted line lexemes (DrawnBy number lexemes done)
      (done.foldl (Canvas.ofText number line).draw ((Buffer.ofText line).paintComment line)) := by
  have hlegible := h.excerpt.legible
  obtain ⟨hstands, hnodup⟩ := h.stands
  rw [hstrokes, List.filterMap_append, List.map_append] at hnodup
  refine hlegible.painted_strokes hlegible.painted_comment ?_ hnodup.of_append_left ?_
  · intro item hitem
    exact hstands item (List.filterMap_subset _ (by simp [hstrokes]) hitem)
  · intro other hother htoken hfollowed before after hdone
    obtain ⟨start, sign, middle, hfirst, hsign⟩ :=
      h.earlier_of_stroke htext hstring hequals hstrokes hother htoken hfollowed hdone
    have hnumber := hlegible.line_of_mem hother
    have hpair : tokenize text = start ++ other :: sign :: (middle ++ key :: equals :: rest) := by
      simp [htext, hfirst]
    have hboth : strokes = before ++ other.keyStroke :: (after ++ key.keyStroke :: later) := by
      simp [hstrokes, hdone]
    exact h.finds_of_findable hpair htoken hsign hboth hnumber
      (hearlier start other sign middle hfirst htoken hsign hnumber)

section

variable (hnumber : key.pos.line = number)
  (hpainted : Painted line lexemes (DrawnBy number lexemes done)
    (done.foldl (Canvas.ofText number line).draw ((Buffer.ofText line).paintComment line)))

include hnumber hpainted

/-- A key that can be found is shown in the end, and the equals sign after it. -/
theorem shows_key (hfindable : Findable text tree number line first key) (offset : Nat) :
    ((key.rangeIn line).contains offset = true →
      (strokes.foldl (Canvas.ofText number line).draw
        ((Buffer.ofText line).paintComment line)).claimedAt offset = some .key) ∧
    ((equals.rangeIn line).contains offset = true →
      (strokes.foldl (Canvas.ofText number line).draw
        ((Buffer.ofText line).paintComment line)).claimedAt offset = some .operator) := by
  have hlegible := h.excerpt.legible
  obtain ⟨before, after, hsplit⟩ := h.key_on_line htext hstring hequals hnumber
  have hshown := h.finds_of_findable htext hstring hequals hstrokes hnumber hfindable _ hpainted
  have hplace : key.pos.toSource ∈
      ((done ++ [key.keyStroke]).filterMap Stroke.item?).map Item.pos := by
    simp [Lexeme.keyStroke, Stroke.item?]
  have hfollowed : key.isKeyIn lexemes = true := by
    rw [hlegible.is_key_of_split hsplit]
    simp [startsWithEquals, hequals]
  rw [hstrokes, List.foldl_append, List.foldl_cons]
  -- What the later strokes claim does not change what is shown.
  constructor
  · intro hoffset
    refine (Canvas.claims_strokes _ later _).claimed_at ((hshown.claimed offset .key).2 ?_)
    refine ⟨key, by simp [hsplit], .inr (.inr ⟨_, hplace, .inl ⟨by simp [hstring], rfl⟩⟩),
      hoffset, ?_⟩
    simp [Lexeme.shadeIn, isString, hstring, hfollowed]
  · intro hoffset
    refine (Canvas.claims_strokes _ later _).claimed_at ((hshown.claimed offset .operator).2 ?_)
    refine ⟨equals, by simp [hsplit],
      .inr (.inr ⟨_, hplace, .inr ⟨hequals, before, key, after, hsplit, rfl⟩⟩), hoffset, ?_⟩
    rw [shade_in_eq lexemes (by simp [hequals])]
    simp [Lexeme.category?, hequals]

/-- If the last key of a line is shown in the end, it can be found. -/
theorem findable_of_shown
    (hlast : ∀ lexeme ∈ rest, lexeme.token = some .equals → lexeme.pos.line ≠ number)
    (hshown : ∀ offset, (key.rangeIn line).contains offset = true →
      (strokes.foldl (Canvas.ofText number line).draw
        ((Buffer.ofText line).paintComment line)).claimedAt offset = some .key) :
    Findable text tree number line first key := by
  have hlegible := h.excerpt.legible
  obtain ⟨before, after, hsplit⟩ := h.key_on_line htext hstring hequals hnumber
  have hunseen : ¬ DrawnBy number lexemes done key :=
    not_shown (h.key_not_placed hstrokes) (by simp [hstring]) (by simp [hstring])
      (by simp [hstring])
  rw [← h.leads_iff htext hstring hequals hstrokes hpainted]
  refine hlegible.leads_of_stroke (by simp [hsplit]) hstring hpainted hunseen ?_
  intro offset hoffset
  have hclaimed := hshown offset hoffset
  rw [hstrokes, List.foldl_append, List.foldl_cons] at hclaimed
  rcases (Canvas.claims_strokes _ later _).claimed_before hclaimed with hbefore | hoffered
  · exact hbefore
  · -- No key is on the line after the last one.
    obtain ⟨span, hkey, hcategory, -⟩ := hoffered
    obtain ⟨text, pos, hmem, hhas⟩ := hkey hcategory
    obtain ⟨sign, hsign, htoken, hline⟩ := h.later_of_stroke htext hstring hequals hstrokes hmem
      ((has_iff number line pos).1 hhas)
    exact absurd hline (hlast sign hsign htoken)

end

end Drawing

/-- In a document that was read, let the keys in quotes before a key in quotes on its line be such
that they can be found. If the key can be found too, its bytes are painted as a key and those of the
equals sign after it as an operator, whatever errors are shown. If it is the last key of its line,
its bytes are painted as a key only if it can be found. -/
theorem quoted_key_painted (text : Text) (tree : Body) (errors : List ErrorRecord)
    (showErrors : Bool) (n : Nat) (line : Text) (first rest : List Lexeme) (key equals : Lexeme)
    (hmatched : ∀ lexeme ∈ tokenize text, lexeme.token ≠ none)
    (hread : readDocument text = .ok tree) (hline : text.lines[n]? = some line)
    (htext : tokenize text = first ++ key :: equals :: rest) (hstring : key.token = some .string)
    (hequals : equals.token = some .equals) (hnumber : key.pos.line = n + 1)
    (hearlier : ∀ before other next middle, first = before ++ other :: next :: middle →
      other.token = some .string → next.token = some .equals → other.pos.line = n + 1 →
      Findable text tree (n + 1) line before other) :
    (Findable text tree (n + 1) line first key → ∀ offset,
      (key.covers (n + 1) line offset = true →
        (Pass.highlightLine ⟨.parsed tree, errors, showErrors⟩ (n + 1) line).categoryAt offset =
          some .key) ∧
      (equals.covers (n + 1) line offset = true →
        (Pass.highlightLine ⟨.parsed tree, errors, showErrors⟩ (n + 1) line).categoryAt offset =
          some .operator)) ∧
    ((∀ lexeme ∈ rest, lexeme.token = some .equals → lexeme.pos.line ≠ n + 1) →
      (∀ offset, key.covers (n + 1) line offset = true →
        (Pass.highlightLine ⟨.parsed tree, errors, showErrors⟩ (n + 1) line).categoryAt offset =
          some .key) →
      Findable text tree (n + 1) line first key) := by
  obtain ⟨lexemes, strokes, h⟩ := exists_drawing hmatched hread hline
  obtain ⟨done, later, hstrokes⟩ := h.exists_stroke htext hstring hequals
  have hpainted := h.painted_done htext hstring hequals hstrokes hearlier
  have hcategory : ∀ offset,
      (Pass.highlightLine ⟨.parsed tree, errors, showErrors⟩ (n + 1) line).categoryAt offset =
        (strokes.foldl (Canvas.ofText (n + 1) line).draw
          ((Buffer.ofText line).paintComment line)).claimedAt offset := by
    intro offset
    rw [category_at_claimed, h.draws.paint_eq]
    rfl
  constructor
  · intro hfindable offset
    obtain ⟨hkey, hoperator⟩ :=
      h.shows_key htext hstring hequals hstrokes hnumber hpainted hfindable offset
    rw [hcategory]
    exact ⟨fun hcovers => hkey (Bool.and_eq_true_iff.1 hcovers).2,
      fun hcovers => hoperator (Bool.and_eq_true_iff.1 hcovers).2⟩
  · intro hlast hshown
    refine h.findable_of_shown htext hstring hequals hstrokes hnumber hpainted hlast ?_
    intro offset hoffset
    rw [← hcategory]
    exact hshown offset (Bool.and_eq_true_iff.2 ⟨beq_iff_eq.2 hnumber, hoffset⟩)

/-- A key that stands bare on its line as well, as the value of the entry before it, which has a key
in quotes too. -/
theorem quoted_key_painted_taken :
    let text : Text := "\"x\" = true, \"true\" = 1".toList
    let first : List Lexeme := [⟨some .string, "\"x\"".toList, ⟨1, 1⟩⟩,
      ⟨some .equals, ['='], ⟨1, 5⟩⟩, ⟨some (.bool true), "true".toList, ⟨1, 7⟩⟩,
      ⟨some .comma, [','], ⟨1, 11⟩⟩]
    let key : Lexeme := ⟨some .string, "\"true\"".toList, ⟨1, 13⟩⟩
    let equals : Lexeme := ⟨some .equals, ['='], ⟨1, 20⟩⟩
    let rest : List Lexeme := [⟨some .number, ['1'], ⟨1, 22⟩⟩]
    (∀ lexeme ∈ tokenize text, lexeme.token ≠ none) ∧ text.lines[0]? = some text ∧
      tokenize text = first ++ key :: equals :: rest ∧
      ∃ tree, readDocument text = .ok tree ∧ Findable text tree 1 text first key ∧
        ∀ showErrors,
          (Pass.highlightLine ⟨.parsed tree, [], showErrors⟩ 1 text).categoryAt 12 = some .key ∧
          (Pass.highlightLine ⟨.parsed tree, [], showErrors⟩ 1 text).categoryAt 19 =
            some .operator := by
  intro text first key equals rest
  have hmatched : ∀ lexeme ∈ tokenize text, lexeme.token ≠ none := by decide +kernel
  have hline : text.lines[0]? = some text := by decide +kernel
  have htext : tokenize text = first ++ key :: equals :: rest := by decide +kernel
  obtain ⟨tree, hread⟩ := exists_of_is_ok (show (readDocument text).isOk = true by decide +kernel)
  have hearlier : ∀ before other next middle, first = before ++ other :: next :: middle →
      other.token = some .string → next.token = some .equals → other.pos.line = 1 →
      Findable text tree 1 text before other := by
    intro before other next middle hsplit hstring hequals hnumber
    cases before with
    | nil =>
        obtain ⟨rfl, -⟩ := List.cons.inj hsplit
        have hplaces : (Canvas.ofText 1 text).bareKeys ['x'] = [] := by decide +kernel
        refine ⟨by decide, fun range hrange => ?_⟩
        exact absurd (show range ∈ (Canvas.ofText 1 text).bareKeys ['x'] from hrange)
          (by simp [hplaces])
    | cons head before =>
        -- The first lexeme is the only string before the key.
        have hstrings : ∀ lexeme ∈ first.tail, lexeme.token ≠ some .string := by decide
        exact absurd hstring (hstrings other (by simp [hsplit]))
  have hfindable : Findable text tree 1 text first key := by
    have hplaces : (Canvas.ofText 1 text).bareKeys (Quoted.unquote key.text) = [⟨6, 10⟩] := by
      decide +kernel
    refine ⟨by decide, fun range hrange => ?_⟩
    rw [hplaces, List.mem_singleton] at hrange
    refine ⟨⟨some (.bool true), "true".toList, ⟨1, 7⟩⟩, by decide +kernel, ?_, 6, ?_⟩
    · show _ ∈ first
      simp [first]
    · rw [hrange]
      decide +kernel
  refine ⟨hmatched, hline, htext, tree, hread, hfindable, fun showErrors => ?_⟩
  have hpainted := (quoted_key_painted text tree [] showErrors 0 text first rest key equals hmatched
    hread hline htext rfl rfl rfl hearlier).1 hfindable
  exact ⟨(hpainted 12).1 (by decide +kernel), (hpainted 19).2 (by decide +kernel)⟩

/-- A key with an escape is not painted at all, and a key that stands bare as its own value is
painted there while its own place gets the category of the value. -/
theorem quoted_key_missed :
    let escaped : Text := "\"a\\\"b\" = 1".toList
    let spelled : Text := "\"true\" = true".toList
    (tokenize escaped).take 2 =
        [⟨some .string, "\"a\\\"b\"".toList, ⟨1, 1⟩⟩, ⟨some .equals, ['='], ⟨1, 8⟩⟩] ∧
      ((readDocument escaped).toOption.map fun tree =>
        (Pass.highlightLine ⟨.parsed tree, [], false⟩ 1 escaped).spans) =
          some [⟨7, 1, .operator⟩, ⟨9, 1, .number⟩] ∧
      (tokenize spelled).take 2 =
        [⟨some .string, "\"true\"".toList, ⟨1, 1⟩⟩, ⟨some .equals, ['='], ⟨1, 8⟩⟩] ∧
      ((readDocument spelled).toOption.map fun tree =>
        (Pass.highlightLine ⟨.parsed tree, [], false⟩ 1 spelled).spans) =
          some [⟨1, 4, .boolean⟩, ⟨9, 4, .key⟩] := by
  decide +kernel

end Highlighter
