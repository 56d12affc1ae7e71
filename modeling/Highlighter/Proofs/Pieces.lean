import Highlighter.Proofs.Overlays
import Highlighter.Proofs.Terminal

/-!
# The pieces of a rendered line

A line is rendered piece by piece. `Cuts isCut offset text pieces` says how a text is cut: before
each character whose offset is a cut, and nowhere else. Cutting loses no character
(`Cuts.offsets_eq`), so a terminal shows the text of a line again, whatever its spans are.

All characters of a piece have one style. A token starts and ends between characters, so all of a
piece belongs to the token at its start (`IsPiece.category_eq`). An error starts between characters,
but if its record has an empty token it may end inside of one. It is not cut off there, and reaches
on to the next cut (`IsPiece.touches_iff`). `line_shown` puts this together.
-/

namespace Highlighter

open Text

/-- The characters of a text with their byte offsets, where the first has the given one. -/
def Text.offsets (start : Nat) : Text → List (Char × Nat)
  | [] => []
  | c :: cs => (c, start) :: offsets (start + c.utf8Size) cs

namespace Text

/-- The offsets of joined texts go on from one to the other. -/
theorem offsets_append (start : Nat) (first second : Text) :
    offsets start (first ++ second) =
      offsets start first ++ offsets (start + first.byteLength) second := by
  induction first generalizing start with
  | nil => rfl
  | cons c cs ih => simp [offsets, ih, Nat.add_assoc]

/-- The characters with offsets are those of the text. -/
theorem offsets_chars (start : Nat) (text : Text) : (offsets start text).map Prod.fst = text := by
  induction text generalizing start with
  | nil => rfl
  | cons c cs ih => rw [offsets, List.map_cons, ih]

/-- A character with its offset stands after as many bytes. -/
theorem exists_of_mem_offsets {start offset : Nat} {text : Text} {c : Char}
    (h : (c, offset) ∈ offsets start text) :
    ∃ before after, text = before ++ c :: after ∧ offset = start + before.byteLength := by
  induction text generalizing start with
  | nil => cases h
  | cons d ds ih =>
      rcases List.mem_cons.1 h with hfirst | hlater
      · cases hfirst
        exact ⟨[], ds, rfl, rfl⟩
      · obtain ⟨before, after, rfl, rfl⟩ := ih hlater
        exact ⟨d :: before, after, rfl, by simp [Nat.add_assoc]⟩

/-- The offset of a character lies on the text. -/
theorem bounds_of_mem_offsets {start offset : Nat} {text : Text} {c : Char}
    (h : (c, offset) ∈ offsets start text) :
    start ≤ offset ∧ offset < start + text.byteLength := by
  obtain ⟨before, after, rfl, rfl⟩ := exists_of_mem_offsets h
  have hpos := c.utf8Size_pos
  rw [byte_length_append, byte_length_cons]
  omega

end Text

namespace Ansi

/-- Whether a line is cut at an offset: a span starts or ends there. -/
def isCut (highlight : LineHighlight) (offset : Nat) : Bool :=
  highlight.spans.any fun span => span.start == offset || span.stop == offset

/-- A line is cut where its spans start and end. -/
theorem is_cut_of_mem {highlight : LineHighlight} {span : Span} (h : span ∈ highlight.spans) :
    isCut highlight span.start = true ∧ isCut highlight span.stop = true := by
  simp only [isCut, List.any_eq_true]
  exact ⟨⟨span, h, by simp⟩, ⟨span, h, by simp⟩⟩

/-- `Unbroken isCut offset word` says that there is no cut between the characters of a word that
starts at the given offset. -/
def Unbroken (isCut : Nat → Bool) (offset : Nat) (word : Text) : Prop :=
  ∀ first last : Text, word = first ++ last → first ≠ [] → last ≠ [] →
    isCut (offset + first.byteLength) = false

/-- There is no cut inside a character. -/
theorem unbroken_single (isCut : Nat → Bool) (offset : Nat) (c : Char) :
    Unbroken isCut offset [c] := by
  intro first last hsplit hfirst hlast
  rcases List.append_eq_singleton_iff.1 hsplit.symm with ⟨hnone, -⟩ | ⟨-, hnone⟩
  · exact absurd hnone hfirst
  · exact absurd hnone hlast

/-- A character goes on into a word if there is no cut between them. -/
theorem Unbroken.cons {isCut : Nat → Bool} {offset : Nat} {c : Char} {word : Text}
    (h : Unbroken isCut (offset + c.utf8Size) word)
    (hcut : isCut (offset + c.utf8Size) = false) : Unbroken isCut offset (c :: word) := by
  intro first last hsplit hfirst hlast
  cases first with
  | nil => exact absurd rfl hfirst
  | cons d rest =>
      obtain ⟨rfl, hword⟩ := List.cons.inj hsplit
      rw [byte_length_cons, ← Nat.add_assoc]
      by_cases hrest : rest = []
      · rw [hrest, byte_length_nil, Nat.add_zero, hcut]
      · exact h rest last hword hrest hlast

/-- `Cuts isCut offset text pieces` says that a text, the first character of which has the given
offset, is cut into the given pieces. -/
inductive Cuts (isCut : Nat → Bool) : Nat → Text → List Piece → Prop where
  | nil (offset) : Cuts isCut offset [] []
  | piece (offset) (word rest : Text) (pieces) :
      word ≠ [] → Unbroken isCut offset word →
      (rest ≠ [] → isCut (offset + word.byteLength) = true) →
      Cuts isCut (offset + word.byteLength) rest pieces →
      Cuts isCut offset (word ++ rest) (⟨offset, word⟩ :: pieces)

/-- A text is cut as `Cuts` says. -/
theorem cuts_cut (isCut : Nat → Bool) (offset : Nat) (text : Text) :
    Cuts isCut offset text (cut isCut offset text) := by
  induction text generalizing offset with
  | nil => exact .nil offset
  | cons c cs ih =>
      have hrest := ih (offset + c.utf8Size)
      rw [cut]
      generalize cut isCut (offset + c.utf8Size) cs = pieces at hrest ⊢
      cases hrest with
      | nil =>
          exact .piece offset [c] [] [] (by simp) (unbroken_single isCut offset c) (by simp)
            (.nil _)
      | piece _ word rest pieces hword hunbroken hnext hrest =>
          by_cases hcut : isCut (offset + c.utf8Size) = true
          · simp only [hcut, if_true]
            exact .piece offset [c] (word ++ rest) _ (by simp) (unbroken_single isCut offset c)
              (fun _ => hcut) (.piece _ word rest pieces hword hunbroken hnext hrest)
          · rw [Bool.not_eq_true] at hcut
            simp only [hcut, Bool.false_eq_true, if_false]
            rw [Nat.add_assoc, ← byte_length_cons] at hnext hrest
            exact .piece offset (c :: word) rest pieces (by simp) (hunbroken.cons hcut) hnext hrest

/-- `IsPiece isCut offset text piece` says what is true of each piece of a text that starts at the
given offset: it is a part of the text that has characters, it starts with the text or at a cut, and
there is no cut between its characters. -/
structure IsPiece (isCut : Nat → Bool) (offset : Nat) (text : Text) (piece : Piece) : Prop where
  part : ∃ before after, text = before ++ (piece.text ++ after) ∧
    piece.start = offset + before.byteLength
  chars : piece.text ≠ []
  starts : piece.start = offset ∨ isCut piece.start = true
  unbroken : Unbroken isCut piece.start piece.text

section

variable {isCut : Nat → Bool} {offset : Nat} {text : Text} {pieces : List Piece} {piece : Piece}

/-- Cutting loses no character. -/
theorem Cuts.offsets_eq (h : Cuts isCut offset text pieces) :
    pieces.flatMap (fun piece => offsets piece.start piece.text) = offsets offset text := by
  induction h with
  | nil => rfl
  | piece offset word rest pieces _ _ _ _ ih =>
      rw [List.flatMap_cons, ih, offsets_append]

/-- What a text is cut into are pieces of it. -/
theorem Cuts.is_piece (h : Cuts isCut offset text pieces) (hpiece : piece ∈ pieces) :
    IsPiece isCut offset text piece := by
  induction h with
  | nil => cases hpiece
  | piece offset word rest pieces hword hunbroken hnext _ ih =>
      rcases List.mem_cons.1 hpiece with rfl | hlater
      · exact ⟨⟨[], rest, rfl, rfl⟩, hword, .inl rfl, hunbroken⟩
      · obtain ⟨⟨before, after, hrest, hstart⟩, hchars, hstarts, hinside⟩ := ih hlater
        refine ⟨⟨word ++ before, after, by rw [hrest, List.append_assoc], ?_⟩, hchars, ?_, hinside⟩
        · rw [hstart, byte_length_append, Nat.add_assoc]
        · refine .inr (hstarts.elim (fun hfirst => ?_) id)
          rw [hfirst]
          exact hnext (by simp [hrest, hchars])

/-- Between the characters of a piece there is no cut. -/
theorem IsPiece.not_cut (h : IsPiece isCut 0 text piece) {place : Nat}
    (hboundary : text.isBoundary place = true) (hlow : piece.start < place)
    (hhigh : place < piece.stop) : isCut place = false := by
  obtain ⟨before, after, htext, hstart⟩ := h.part
  obtain ⟨left, right, hsplit, hplace⟩ := is_boundary_iff.1 hboundary
  rw [Piece.stop] at hhigh
  rw [Nat.zero_add] at hstart
  -- The place is after what stands before the piece, so it cuts the piece and the rest.
  rw [htext] at hsplit
  rcases List.append_eq_append_iff.1 hsplit with ⟨first, hleft, hrest⟩ | ⟨excess, hbefore, -⟩
  · rw [hleft, byte_length_append] at hplace
    rcases List.append_eq_append_iff.1 hrest with ⟨excess, hfirst, -⟩ | ⟨last, hword, -⟩
    · rw [hfirst, byte_length_append] at hplace
      omega
    · have hword_length := congrArg byteLength hword
      rw [byte_length_append] at hword_length
      have hfirst : first ≠ [] := by
        rintro rfl
        rw [byte_length_nil] at hplace
        omega
      have hlast : last ≠ [] := by
        rintro rfl
        rw [byte_length_nil] at hword_length
        omega
      rw [hplace, ← hstart]
      exact h.unbroken first last hword hfirst hlast
  · rw [hbefore, byte_length_append] at hstart
    omega

end

/-- The pieces of a line are pieces of it. -/
theorem is_piece_of_mem {text : Text} {highlight : LineHighlight} {piece : Piece}
    (h : piece ∈ pieces text highlight) : IsPiece (isCut highlight) 0 text piece :=
  (cuts_cut (isCut highlight) 0 text).is_piece h

/-- A line without escape characters is shown piece by piece. -/
theorem shown_line (styles : Styles) (base : Color) {text : Text} (hescape : '\x1b' ∉ text)
    (highlight : LineHighlight) :
    shown [] 0 (line styles base text highlight) =
      (pieces text highlight).flatMap fun piece =>
        piece.text.map (·, inForce base (pieceStyle styles highlight piece)) := by
  refine (Emits.flatMap fun piece hpiece => emits_styled base _ fun hmem => ?_).shown_eq
  obtain ⟨before, after, htext, -⟩ := (is_piece_of_mem hpiece).part
  refine hescape ?_
  rw [htext]
  simp [hmem]

/-- An error reaches an offset if it starts no later and is not cut off before: no span starts or
ends between two characters from its end on up to there. -/
def reaches (text : Text) (highlight : LineHighlight) (error : Span) (offset : Nat) : Bool :=
  error.start ≤ offset && (List.range (offset + 1)).all fun place =>
    place < error.stop || !text.isBoundary place || !isCut highlight place

/-- The style of a character at an offset: that of its token, merged with the error style in an
error. -/
def charStyle (styles : Styles) (highlight : LineHighlight) (inError : Bool) (offset : Nat) :
    Style :=
  let token := ((highlight.categoryAt offset).map styles).getD {}
  if inError then merge token (styles .error) else token

/-- An error reaches an offset unless it starts later or is cut off before. -/
theorem reaches_iff {text : Text} {highlight : LineHighlight} {error : Span} {offset : Nat} :
    reaches text highlight error offset = true ↔
      error.start ≤ offset ∧ ∀ place, error.stop ≤ place → place ≤ offset →
        text.isBoundary place = true → isCut highlight place = false := by
  simp only [reaches, Bool.and_eq_true, decide_eq_true_eq, List.all_eq_true, List.mem_range,
    Bool.or_eq_true, Bool.not_eq_true', Nat.lt_succ_iff]
  refine and_congr_right fun _ => forall_congr' fun place => ?_
  constructor
  · intro h hstop hle hboundary
    rcases h hle with (hlow | hinside) | hcut
    · omega
    · rw [hboundary] at hinside
      cases hinside
    · exact hcut
  · intro h hle
    by_cases hstop : error.stop ≤ place
    · cases hboundary : text.isBoundary place with
      | true => exact .inr (h hstop hle hboundary)
      | false => exact .inl (.inr rfl)
    · exact .inl (.inl (by omega))

/-- An error that ends between two characters reaches what it covers. -/
theorem reaches_eq_covers {text : Text} {highlight : LineHighlight} {error : Span}
    (hmem : error ∈ highlight.spans) (hstop : text.isBoundary error.stop = true) (offset : Nat) :
    reaches text highlight error offset = error.covers offset := by
  rw [Bool.eq_iff_iff, reaches_iff, Span.covers_iff]
  refine and_congr_right fun _ => ⟨fun hreach => ?_, fun hlt place hlow hhigh => ?_⟩
  · by_contra hpast
    have hcut := hreach error.stop (Nat.le_refl _) (by omega) hstop
    rw [(is_cut_of_mem hmem).2] at hcut
    cases hcut
  · omega

/-- Offsets that the same tokens cover, and that the same tokens start after, have one category. -/
theorem category_in_congr {offset other : Nat} {spans : List Span}
    (h : ∀ span ∈ spans, span.category ≠ .error →
      span.covers offset = span.covers other ∧ (offset < span.start ↔ other < span.start)) :
    LineHighlight.categoryIn offset spans = LineHighlight.categoryIn other spans := by
  induction spans with
  | nil => rfl
  | cons span rest ih =>
      obtain ⟨hspan, hrest⟩ := List.forall_mem_cons.1 h
      simp only [LineHighlight.categoryIn, ih hrest]
      by_cases herror : span.category = .error
      · rw [if_pos herror, if_pos herror]
      · obtain ⟨hcovers, hbefore⟩ := hspan herror
        simp only [hcovers, hbefore]

section

variable {text : Text} {highlight : LineHighlight} {piece : Piece} {offset : Nat}

/-- A cut between two characters is not inside of a piece. -/
theorem IsPiece.cut_cases (h : IsPiece (isCut highlight) 0 text piece) {place : Nat}
    (hcut : isCut highlight place = true) (hboundary : text.isBoundary place = true) :
    place ≤ piece.start ∨ piece.stop ≤ place := by
  by_contra hinside
  rw [not_or, Nat.not_le, Nat.not_le] at hinside
  rw [h.not_cut hboundary hinside.1 hinside.2] at hcut
  cases hcut

/-- If tokens start and end between characters, all of a piece belongs to the token that its start
belongs to. -/
theorem IsPiece.category_eq (h : IsPiece (isCut highlight) 0 text piece)
    (htokens : ∀ span ∈ highlight.spans, span.category ≠ .error →
      text.isBoundary span.start = true ∧ text.isBoundary span.stop = true)
    (hlow : piece.start ≤ offset) (hhigh : offset < piece.stop) :
    highlight.categoryAt offset = highlight.categoryAt piece.start := by
  refine category_in_congr fun span hspan htoken => ?_
  obtain ⟨hstart, hstop⟩ := htokens span hspan htoken
  have hstarts := h.cut_cases (is_cut_of_mem hspan).1 hstart
  have hstops := h.cut_cases (is_cut_of_mem hspan).2 hstop
  refine ⟨?_, by omega⟩
  rw [Bool.eq_iff_iff, Span.covers_iff, Span.covers_iff]
  omega

/-- An error that has bytes and starts between two characters touches a piece if it reaches any
character of it. -/
theorem IsPiece.touches_iff (h : IsPiece (isCut highlight) 0 text piece) {error : Span}
    (hmem : error ∈ highlight.spans) (hstart : text.isBoundary error.start = true)
    (hlen : 0 < error.len) (hlow : piece.start ≤ offset) (hhigh : offset < piece.stop) :
    (piece.start < error.stop ∧ error.start < piece.stop) ↔
      reaches text highlight error offset = true := by
  rw [reaches_iff]
  constructor
  · rintro ⟨hstop, hbefore⟩
    have hstarts := h.cut_cases (is_cut_of_mem hmem).1 hstart
    exact ⟨by omega, fun place hplace hle hboundary =>
      h.not_cut hboundary (by omega) (by omega)⟩
  · rintro ⟨hle, hreach⟩
    refine ⟨?_, by omega⟩
    by_contra hpast
    -- The error ends before the piece, which starts at a cut then.
    rcases h.starts with hzero | hcut
    · rw [Span.stop] at hpast
      omega
    · obtain ⟨before, after, htext, hplace⟩ := h.part
      have hboundary : text.isBoundary piece.start = true :=
        is_boundary_iff.2 ⟨before, _, htext, by omega⟩
      rw [hreach piece.start (by omega) hlow hboundary] at hcut
      cases hcut

end

section

variable (pass : Pass) (number : Nat) (text : Text)

/-- The tokens of a painted line start and end between characters. -/
theorem token_boundaries :
    ∀ span ∈ (pass.highlightLine number text).spans, span.category ≠ .error →
      text.isBoundary span.start = true ∧ text.isBoundary span.stop = true := by
  intro span hspan htoken
  rw [Pass.highlight_line_eq, List.mem_append] at hspan
  rcases hspan with hrun | herror
  · exact (Buffer.Aligned.paint_tokens pass number text).run_boundaries span hrun
  · exact absurd (pass.underlines_bounds number text span herror).1 htoken

/-- The errors of a painted line have bytes and start between characters. If no record has an empty
token, they end between characters too. -/
theorem error_boundaries :
    ∀ error ∈ (pass.highlightLine number text).errors,
      0 < error.len ∧ text.isBoundary error.start = true ∧
        ((∀ record ∈ pass.errors, record.token ≠ some []) →
          text.isBoundary error.stop = true) := by
  intro error herror
  rw [Pass.errors_eq] at herror
  refine ⟨(pass.underlines_bounds number text error herror).2.1, ?_⟩
  unfold Pass.underlines at herror
  split at herror
  · cases herror
  · next hshown =>
      have hline : text ≠ [] := fun hline => hshown (.inr hline)
      obtain ⟨record, hrecord, rfl⟩ := List.mem_map.1 herror
      refine ⟨record.boundary_of_resolve hline, fun htokens => ?_⟩
      have htoken := htokens record (List.mem_of_mem_filter hrecord)
      obtain ⟨hpart, -⟩ := ErrorRecord.is_part_of_resolve htoken hline
        (Prod.eta (record.resolve text)).symm
      have hstop := hpart.stop_le
      have hfits : (record.underline text).stop =
          (record.resolve text).1 + (record.resolve text).2 := by
        simp only [ErrorRecord.underline, Span.stop]
        omega
      rw [hfits]
      exact hpart.stops

end

/-- All characters of a piece of a painted line have the style of the piece. -/
theorem char_style_eq (styles : Styles) (pass : Pass) (number : Nat) {text : Text} {piece : Piece}
    {offset : Nat} (hpiece : piece ∈ pieces text (pass.highlightLine number text))
    (hlow : piece.start ≤ offset) (hhigh : offset < piece.stop) :
    let highlight := pass.highlightLine number text
    charStyle styles highlight (highlight.errors.any (reaches text highlight · offset)) offset =
      pieceStyle styles highlight piece := by
  intro highlight
  have hat := is_piece_of_mem hpiece
  have hcategory : highlight.categoryAt offset = highlight.categoryAt piece.start :=
    hat.category_eq (token_boundaries pass number text) hlow hhigh
  have herrors : highlight.errors.any (reaches text highlight · offset) =
      highlight.errors.any fun error => piece.start < error.stop && error.start < piece.stop := by
    rw [Bool.eq_iff_iff, List.any_eq_true, List.any_eq_true]
    refine exists_congr fun error => and_congr_right fun herror => ?_
    obtain ⟨hlen, hstart, -⟩ := error_boundaries pass number text error herror
    have hmem : error ∈ highlight.spans := List.mem_of_mem_filter herror
    rw [Bool.and_eq_true, decide_eq_true_eq, decide_eq_true_eq]
    exact (hat.touches_iff hmem hstart hlen hlow hhigh).symm
  rw [charStyle, pieceStyle, hcategory, herrors]

/-- A line without escape characters keeps its text: without the sequences it is what it was,
whatever its spans are. A terminal shows each character of a painted line in the style of the token
at its offset, merged with the error style if an error reaches it. If no record has an empty token,
an error reaches what it covers. -/
theorem line_shown (styles : Styles) (base : Color) (text : Text) (hescape : '\x1b' ∉ text) :
    (∀ highlight, stripped (line styles base text highlight) = text) ∧
      ∀ (pass : Pass) (number : Nat),
        let highlight := pass.highlightLine number text
        shown [] 0 (line styles base text highlight) =
            (offsets 0 text).map (fun (c, offset) => (c, inForce base (charStyle styles highlight
              (highlight.errors.any (reaches text highlight · offset)) offset))) ∧
          ((∀ record ∈ pass.errors, record.token ≠ some []) → ∀ error ∈ highlight.errors,
            ∀ offset, reaches text highlight error offset = error.covers offset) := by
  have hoffsets : ∀ highlight, (pieces text highlight).flatMap
      (fun piece => offsets piece.start piece.text) = offsets 0 text :=
    fun highlight => (cuts_cut (isCut highlight) 0 text).offsets_eq
  constructor
  · intro highlight
    have hchars := congrArg (List.map Prod.fst) (hoffsets highlight)
    rw [List.map_flatMap, offsets_chars] at hchars
    rw [stripped, shown_line styles base hescape, List.map_flatMap]
    refine Eq.trans (List.flatMap_congr fun piece _ => ?_) hchars
    rw [offsets_chars, List.map_map]
    exact List.map_id piece.text
  · intro pass number highlight
    refine ⟨?_, fun htokens error herror offset => ?_⟩
    · rw [shown_line styles base hescape, ← hoffsets highlight, List.map_flatMap]
      refine List.flatMap_congr fun piece hpiece => ?_
      have hcells := congrArg (List.map (·, inForce base (pieceStyle styles highlight piece)))
        (offsets_chars piece.start piece.text)
      rw [← hcells, List.map_map]
      refine List.map_congr_left fun (c, offset) hcell => ?_
      obtain ⟨hlow, hhigh⟩ := bounds_of_mem_offsets hcell
      exact congrArg (fun style => (c, inForce base style))
        (char_style_eq styles pass number hpiece hlow hhigh).symm
    · have hstop := (error_boundaries pass number text error herror).2.2 htokens
      exact reaches_eq_covers (List.mem_of_mem_filter herror) hstop offset

/-- A line with a quoted word of two bytes a letter, and an error over the word after it. -/
theorem line_shown_error :
    let styles := Theme.defaultDark.styles
    let base := Theme.defaultDark.background
    let text : Text := "k = \"é\" oops".toList
    let record := ErrorRecord.locate ⟨"boom".toList, some 1, some 9, some "oops".toList⟩
    let highlight := (Pass.mk .empty [record] true).highlightLine 1 text
    '\x1b' ∉ text ∧ record.token ≠ some [] ∧ highlight.errors = [⟨9, 4, .error⟩] ∧
      stripped (line styles base text highlight) = text ∧
      shown [] 0 (line styles base text highlight) =
        (offsets 0 text).map (fun (c, offset) => (c, inForce base (charStyle styles highlight
          (highlight.errors.any (·.covers offset)) offset))) := by
  intro styles base text record highlight
  have hescape : '\x1b' ∉ text := by decide +kernel
  have htoken : record.token ≠ some [] := by decide +kernel
  have herrors : highlight.errors = [⟨9, 4, .error⟩] := by decide +kernel
  obtain ⟨hstripped, hshown⟩ := line_shown styles base text hescape
  obtain ⟨hline, hreaches⟩ := hshown ⟨.empty, [record], true⟩ 1
  have hcovers : ∀ error ∈ highlight.errors, ∀ offset,
      reaches text highlight error offset = error.covers offset :=
    hreaches (List.forall_mem_singleton.2 htoken)
  refine ⟨hescape, htoken, herrors, hstripped highlight, hline.trans ?_⟩
  refine List.map_congr_left fun (c, offset) _ => ?_
  have hany : highlight.errors.any (reaches text highlight · offset) =
      highlight.errors.any (·.covers offset) := by
    rw [Bool.eq_iff_iff, List.any_eq_true, List.any_eq_true]
    exact exists_congr fun error => and_congr_right fun herror => by rw [hcovers error herror]
  exact congrArg (fun inError => (c, inForce base (charStyle styles highlight inError offset))) hany

/-- The record has an empty token, so its error ends inside of the first character. There is no cut,
and the second character is shown in the error style, though no error covers it. -/
theorem error_reaches_past_stop :
    let styles := Theme.defaultDark.styles
    let base := Theme.defaultDark.background
    let text : Text := "éa".toList
    let highlight := (Pass.mk .empty [⟨1, 1, 1, [], some []⟩] true).highlightLine 1 text
    highlight.spans = [⟨0, 1, .error⟩] ∧
      shown [] 0 (line styles base text highlight) ≠
        (offsets 0 text).map (fun (c, offset) => (c, inForce base (charStyle styles highlight
          (highlight.errors.any (·.covers offset)) offset))) ∧
      shown [] 0 (line styles base text highlight) =
        text.map (·, inForce base (merge {} (styles .error))) := by
  decide +kernel

end Ansi

end Highlighter
