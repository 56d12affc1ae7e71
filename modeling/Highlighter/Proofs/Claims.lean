import Highlighter.Proofs.Buffer
import Highlighter.Proofs.Candidates
import Highlighter.Proofs.Items
import Highlighter.Proofs.Parts

/-!
# What painting claims

Whatever paints the tokens of a line does it by claims. `Buffer.Claims offered` relates a buffer to
what some granted claims make of it, each of them for a span that was offered, so that a fact about
every buffer of a painting needs a proof for one claim only. A tree offers what its parts look like
on a line (`Canvas.Offers`), and painting it claims nothing else (`claims_tree`). What a tree or a
pattern offers is a part of the line, whatever the tree says (`is_part_of_offer`,
`is_part_of_pattern_span`).
-/

namespace Highlighter

/-- A span covers the bytes from its start to its end. -/
theorem Span.covers_iff {span : Span} {offset : Nat} :
    span.covers offset = true ↔ span.start ≤ offset ∧ offset < span.stop := by
  simp [Span.covers]

namespace Buffer

/-- `Claims offered buffer after` says that granted claims, each for an offered span, lead from one
buffer to another. -/
inductive Claims (offered : Span → Prop) : Buffer → Buffer → Prop where
  | refl (buffer : Buffer) : Claims offered buffer buffer
  | claim {buffer claimed after : Buffer} {span : Span} (hoffer : offered span)
      (hgranted : buffer.claim? span.start span.len span.category = some claimed)
      (hrest : Claims offered claimed after) : Claims offered buffer after

variable {offered : Span → Prop} {buffer : Buffer}

/-- Claims after claims are claims. -/
theorem Claims.trans {middle after : Buffer} (h : Claims offered buffer middle)
    (hrest : Claims offered middle after) : Claims offered buffer after := by
  induction h with
  | refl => exact hrest
  | claim hoffer hgranted _ ih => exact .claim hoffer hgranted (ih hrest)

/-- Spans that are offered may be offered among others. -/
theorem Claims.mono {others : Span → Prop} {after : Buffer} (h : Claims offered buffer after)
    (hothers : ∀ span, offered span → others span) : Claims others buffer after := by
  induction h with
  | refl => exact .refl _
  | claim hoffer hgranted _ ih => exact .claim (hothers _ hoffer) hgranted ih

/-- A byte that is claimed stays so. -/
theorem Claims.claimed_at {after : Buffer} {offset : Nat} {category : Category}
    (h : Claims offered buffer after) (hclaimed : buffer.claimedAt offset = some category) :
    after.claimedAt offset = some category := by
  induction h with
  | refl => exact hclaimed
  | claim hoffer hgranted _ ih =>
      refine ih ?_
      rw [claimed_at_claim hgranted, if_neg, hclaimed]
      -- A claim for the byte would have been refused.
      intro hinside
      rw [claim_of_claimed hinside.1 hinside.2 (by simp [hclaimed])] at hgranted
      cases hgranted

/-- A byte that is claimed after some claims was so before, or a span of its category that covers it
was offered. -/
theorem Claims.claimed_before {after : Buffer} {offset : Nat} {category : Category}
    (h : Claims offered buffer after) (hclaimed : after.claimedAt offset = some category) :
    buffer.claimedAt offset = some category ∨
      ∃ span, offered span ∧ span.category = category ∧ span.covers offset = true := by
  induction h with
  | refl => exact .inl hclaimed
  | @claim _ _ _ span hoffer hgranted _ ih =>
      rcases ih hclaimed with hbefore | hoffered
      · rw [claimed_at_claim hgranted] at hbefore
        split at hbefore
        · next hinside =>
            exact .inr ⟨span, hoffer, Option.some.inj hbefore, Span.covers_iff.2 hinside⟩
        · exact .inl hbefore
      · exact .inr hoffered

/-- Without an offer nothing is claimed. -/
theorem Claims.eq_of_none {after : Buffer} (h : Claims offered buffer after)
    (hnone : ∀ span, ¬ offered span) : after = buffer := by
  cases h with
  | refl => rfl
  | claim hoffer _ _ => exact absurd hoffer (hnone _)

/-- A claim that may be refused is one claim or none. -/
theorem claims_claim {span : Span} (h : offered span) :
    Claims offered buffer (buffer.claim span) := by
  unfold claim
  cases hclaim : buffer.claim? span.start span.len span.category with
  | none => exact .refl buffer
  | some claimed => exact .claim h hclaim (.refl claimed)

/-- Claims in order are claims. -/
theorem claims_claim_all {spans : List Span} (h : ∀ span ∈ spans, offered span) :
    Claims offered buffer (buffer.claimAll spans) := by
  induction spans generalizing buffer with
  | nil => exact .refl buffer
  | cons span rest ih =>
      obtain ⟨hspan, hrest⟩ := List.forall_mem_cons.1 h
      exact (claims_claim hspan).trans (ih hrest)

end Buffer

namespace Canvas

open Buffer

variable {offered : Span → Prop} {buffer : Buffer} {category : Category} {ranges : List Range}

/-- What is claimed near an offset is one of the ranges. -/
theorem granted_of_claim_near {start : Nat} {range : Range} {claimed : Buffer}
    (h : claimNear start category ranges buffer = some (range, claimed)) :
    range ∈ ranges ∧ buffer.claim? range.start range.length category = some claimed := by
  obtain ⟨first, hfirst, hclaim⟩ := List.exists_of_findSome?_eq_some h
  obtain ⟨granted, hgranted, hboth⟩ := Option.map_eq_some_iff.1 hclaim
  cases hboth
  refine ⟨?_, hgranted⟩
  obtain hat | hbefore := List.mem_append.1 hfirst
  · exact List.mem_of_mem_filter hat
  · exact List.mem_of_mem_filter hbefore

/-- The range that is claimed near an offset is claimed once. -/
theorem claims_near {start : Nat} {range : Range} {claimed : Buffer}
    (hoffer : ∀ range ∈ ranges, offered (Span.ofRange range category))
    (h : claimNear start category ranges buffer = some (range, claimed)) :
    Claims offered buffer claimed := by
  obtain ⟨hmem, hgranted⟩ := granted_of_claim_near h
  exact .claim (hoffer range hmem) hgranted (.refl claimed)

/-- Painting near an offset is one claim or none. -/
theorem claims_paint_near (start : Nat)
    (hoffer : ∀ range ∈ ranges, offered (Span.ofRange range category)) :
    Claims offered buffer (paintNear start category ranges buffer) := by
  unfold paintNear
  split
  · next hnear => exact claims_near hoffer hnear
  · exact .refl buffer

/-- The delimiters and the comma. -/
def symbols : List Char :=
  ['\x7b', '\x7d', '[', ']', ',']

/-- `canvas.Offers items span` says that parts of a tree offer a span of the line: a place where the
key of an entry on this line may stand, an equals sign in code, a place where a scalar may stand,
a delimiter or a comma in code, or a comment. -/
inductive Offers (canvas : Canvas) (items : List Item) : Span → Prop where
  | key {key : Text} {pos : SourcePos} {range : Range} (hitem : ⟨.key key, pos⟩ ∈ items)
      (hhas : canvas.has pos = true)
      (hrange : range ∈ canvas.bareKeys key ∨ range ∈ canvas.quotedKeys key) :
      Offers canvas items (Span.ofRange range .key)
  | equals {key : Text} {pos : SourcePos} {range : Range} (hitem : ⟨.key key, pos⟩ ∈ items)
      (hhas : canvas.has pos = true) (hrange : range ∈ canvas.view.codeOccurrences '=') :
      Offers canvas items ⟨range.start, 1, .operator⟩
  | scalar {value : Scalar} {pos : SourcePos} {range : Range} (hitem : ⟨.scalar value, pos⟩ ∈ items)
      (hhas : canvas.has pos = true) (hrange : range ∈ canvas.scalarRanges value) :
      Offers canvas items (Span.ofRange range (scalarCategory value))
  | symbol {pos : SourcePos} {c : Char} {range : Range} (hpos : pos ∈ items.map Item.pos)
      (hhas : canvas.has pos = true) (hsymbol : c ∈ symbols)
      (hrange : range ∈ canvas.view.codeOccurrences c) :
      Offers canvas items (Span.ofRange range .symbol)
  | comment {comment : Comment} {start : Nat} (hitem : comment.item ∈ items)
      (hhas : canvas.has comment.pos = true)
      (hstart : (canvas.view.text.find? comment.text <|> commentStart? canvas.view.text) =
        some start) :
      Offers canvas items ⟨start, canvas.view.text.byteLength - start, comment.kind.category⟩

variable {canvas : Canvas} {items : List Item}

/-- Painting a key claims what it offers. -/
theorem claims_key {key : Text} {pos : SourcePos} (hitem : ⟨.key key, pos⟩ ∈ items)
    (hhas : canvas.has pos = true) :
    Claims (canvas.Offers items) buffer (canvas.paintKey key pos buffer).2 := by
  simp only [paintKey]
  split
  · next hnear => exact claims_near (fun range hrange => .key hitem hhas (.inl hrange)) hnear
  · split
    · next hnear => exact claims_near (fun range hrange => .key hitem hhas (.inr hrange)) hnear
    · exact .refl buffer

/-- Painting a key and its equals sign claims what they offer. -/
theorem claims_entry_head {key : Text} {pos : SourcePos} (hitem : ⟨.key key, pos⟩ ∈ items) :
    Claims (canvas.Offers items) buffer (canvas.paintEntryHead key pos buffer) := by
  unfold paintEntryHead
  split
  · next hhas =>
      refine (claims_key hitem hhas).trans ?_
      simp only [paintEquals]
      split
      · next range hfind =>
          have hmem := List.mem_of_find?_eq_some hfind
          exact claims_claim (Offers.equals hitem hhas hmem)
      · exact .refl _
  · exact .refl buffer

/-- Painting a scalar claims what it offers. -/
theorem claims_scalar {value : Scalar} {pos : SourcePos} (hitem : ⟨.scalar value, pos⟩ ∈ items) :
    Claims (canvas.Offers items) buffer (canvas.paintScalar value pos buffer) := by
  unfold paintScalar
  split
  · next hhas => exact claims_paint_near _ fun range hrange => .scalar hitem hhas hrange
  · exact .refl buffer

/-- Painting a delimiter claims what it offers. -/
theorem claims_delimiter {c : Char} {pos : SourcePos} (hpos : pos ∈ items.map Item.pos)
    (hsymbol : c ∈ symbols) :
    Claims (canvas.Offers items) buffer (canvas.paintDelimiter c pos buffer) := by
  unfold paintDelimiter
  split
  · next hhas => exact claims_paint_near _ fun range hrange => .symbol hpos hhas hsymbol hrange
  · exact .refl buffer

/-- Symbols in code are offered where a part is on the line. -/
theorem claims_symbols {c : Char} {pos : SourcePos} (hpos : pos ∈ items.map Item.pos)
    (hhas : canvas.has pos = true) (hsymbol : c ∈ symbols)
    (hranges : ranges ⊆ canvas.view.codeOccurrences c) :
    Claims (canvas.Offers items) buffer
      (buffer.claimAll (ranges.map (Span.ofRange · .symbol))) := by
  refine claims_claim_all fun span hspan => ?_
  obtain ⟨range, hrange, rfl⟩ := List.mem_map.1 hspan
  exact .symbol hpos hhas hsymbol (hranges hrange)

/-- Painting a closing delimiter claims what it offers, also without its place. -/
theorem claims_closing {c : Char} {pos : SourcePos} {close : Option SourcePos}
    (hpos : pos ∈ items.map Item.pos) (hclose : close.toList ⊆ items.map Item.pos)
    (hsymbol : c ∈ symbols) :
    Claims (canvas.Offers items) buffer (canvas.paintClosing c pos close buffer) := by
  unfold paintClosing
  split
  · next close => exact claims_delimiter (hclose List.mem_cons_self) hsymbol
  · split
    · next hhas =>
        refine claims_symbols hpos hhas hsymbol fun range hrange => ?_
        exact List.mem_of_getLast? (Option.mem_toList.1 hrange)
    · exact .refl buffer

/-- Painting commas claims what they offer. -/
theorem claims_commas {pos : SourcePos} {members : List SourcePos}
    (hpos : pos ∈ items.map Item.pos) (hmembers : members ⊆ items.map Item.pos) :
    Claims (canvas.Offers items) buffer (canvas.paintCommas pos members buffer) := by
  have hsymbol : ',' ∈ symbols := by decide
  unfold paintCommas
  split
  · next hhas =>
      obtain hopen | hmember := Bool.or_eq_true_iff.1 hhas
      · exact claims_symbols hpos hopen hsymbol (List.Subset.refl _)
      · obtain ⟨member, hmem, hon⟩ := List.any_eq_true.1 hmember
        exact claims_symbols (hmembers hmem) hon hsymbol (List.Subset.refl _)
  · exact .refl buffer

/-- Painting a comment claims what it offers. -/
theorem claims_comment {comment : Comment} (hitem : comment.item ∈ items) :
    Claims (canvas.Offers items) buffer (canvas.paintComment comment buffer) := by
  simp only [paintComment]
  split
  · next hhas =>
      split
      · next start hstart => exact claims_claim (Offers.comment hitem hhas hstart)
      · exact .refl buffer
  · exact .refl buffer

/-- Painting comments claims what they offer. -/
theorem claims_comments {comments : List Comment} (hitems : comments.map Comment.item ⊆ items) :
    Claims (canvas.Offers items) buffer (canvas.paintComments comments buffer) := by
  induction comments generalizing buffer with
  | nil => exact .refl buffer
  | cons comment rest ih =>
      obtain ⟨hitem, hrest⟩ := List.cons_subset.1 hitems
      exact (claims_comment hitem).trans (ih hrest)

end Canvas

/-- An entry starts where one of its parts is. -/
theorem entry_pos_mem (entry : Entry) : entry.pos ∈ entry.items.map Item.pos := by
  rw [entry_items]
  simp

/-- A node starts where one of its parts is. -/
theorem node_pos_mem (node : Node) : node.pos ∈ node.items.map Item.pos := by
  cases node with
  | entry entry => exact entry_pos_mem entry
  | scalar value pos => exact List.mem_cons_self
  | object body pos close => exact List.mem_cons_self
  | list items pos close => exact List.mem_cons_self
  | comment comment => exact List.mem_cons_self

/-- Entries start where some of their parts are. -/
theorem entries_pos_subset (entries : List Entry) :
    entries.map Entry.pos ⊆ (entriesItems entries).map Item.pos := by
  induction entries with
  | nil => simp
  | cons entry rest ih =>
      rw [entriesItems, List.map_append, List.map_cons, List.cons_subset]
      exact ⟨List.mem_append_left _ (entry_pos_mem entry), List.subset_append_of_subset_right _ ih⟩

/-- Nodes start where some of their parts are. -/
theorem nodes_pos_subset (nodes : List Node) :
    nodes.map Node.pos ⊆ (nodesItems nodes).map Item.pos := by
  induction nodes with
  | nil => simp
  | cons node rest ih =>
      rw [nodesItems, List.map_append, List.map_cons, List.cons_subset]
      exact ⟨List.mem_append_left _ (node_pos_mem node), List.subset_append_of_subset_right _ ih⟩

/-- The closing delimiter of a container is where one of its parts is. -/
theorem closing_pos_subset {part : Part} {close : Option SourcePos} {items : List Item}
    (h : close.toList.map (Item.mk part) ⊆ items) : close.toList ⊆ items.map Item.pos := by
  intro pos hpos
  exact List.mem_map.2 ⟨⟨part, pos⟩, h (List.mem_map_of_mem hpos), rfl⟩

namespace Canvas

open Buffer

variable {canvas : Canvas} {items : List Item}

mutual

/-- Painting a node claims what its parts offer. -/
theorem claims_node (node : Node) (hitems : node.items ⊆ items) (buffer : Buffer) :
    Claims (canvas.Offers items) buffer (canvas.paintNode node buffer) := by
  match node with
  | .entry entry => exact claims_entry entry hitems buffer
  | .scalar value pos => exact claims_scalar (hitems List.mem_cons_self)
  | .comment comment => exact claims_comment (hitems List.mem_cons_self)
  | .object body pos close =>
      obtain ⟨hopening, hclosing⟩ := List.append_subset.1 hitems
      obtain ⟨hopen, hbody⟩ := List.cons_subset.1 hopening
      have hpos : pos ∈ items.map Item.pos := List.mem_map_of_mem hopen
      exact (claims_delimiter hpos (by decide)).trans
        ((claims_body body (some pos) hbody (by simpa using hpos) _).trans
          (claims_closing hpos (closing_pos_subset hclosing) (by decide)))
  | .list inside pos close =>
      obtain ⟨hopening, hclosing⟩ := List.append_subset.1 hitems
      obtain ⟨hopen, hinside⟩ := List.cons_subset.1 hopening
      have hpos : pos ∈ items.map Item.pos := List.mem_map_of_mem hopen
      exact (claims_delimiter hpos (by decide)).trans
        ((claims_items inside pos hinside hpos _).trans
          (claims_closing hpos (closing_pos_subset hclosing) (by decide)))

/-- Painting an entry claims what its parts offer. -/
theorem claims_entry (entry : Entry) (hitems : entry.items ⊆ items) (buffer : Buffer) :
    Claims (canvas.Offers items) buffer (canvas.paintEntry entry buffer) := by
  match entry with
  | ⟨key, value, leading, trailing, pos⟩ =>
      obtain ⟨hbefore, htrailing⟩ := List.append_subset.1 hitems
      obtain ⟨hleading, hentry⟩ := List.append_subset.1 hbefore
      obtain ⟨hkey, hvalue⟩ := List.cons_subset.1 hentry
      exact (claims_comments hleading).trans ((claims_entry_head hkey).trans
        ((claims_node value hvalue _).trans (claims_comments htrailing)))

/-- Painting a body claims what its parts offer, and the commas of its object if it has one. -/
theorem claims_body (body : Body) (pos : Option SourcePos) (hitems : body.items ⊆ items)
    (hpos : pos.toList ⊆ items.map Item.pos) (buffer : Buffer) :
    Claims (canvas.Offers items) buffer (canvas.paintBody body pos buffer) := by
  match body with
  | ⟨entries, innerDoc, trailing⟩ =>
      obtain ⟨hbefore, htrailing⟩ := List.append_subset.1 hitems
      obtain ⟨hinner, hentries⟩ := List.append_subset.1 hbefore
      refine ((claims_comments hinner).trans (claims_entries entries hentries _)).trans ?_
      cases pos with
      | none => exact claims_comments htrailing
      | some pos =>
          have hmembers :=
            List.Subset.trans (entries_pos_subset entries) (List.map_subset _ hentries)
          exact (claims_commas (hpos List.mem_cons_self) hmembers).trans
            (claims_comments htrailing)

/-- Painting the inside of a list claims what its parts offer, and the commas of the list. -/
theorem claims_items (inside : Items) (pos : SourcePos) (hitems : inside.items ⊆ items)
    (hpos : pos ∈ items.map Item.pos) (buffer : Buffer) :
    Claims (canvas.Offers items) buffer (canvas.paintItems inside pos buffer) := by
  match inside with
  | ⟨elements, innerDoc, trailing⟩ =>
      obtain ⟨hbefore, htrailing⟩ := List.append_subset.1 hitems
      obtain ⟨hinner, helements⟩ := List.append_subset.1 hbefore
      have hmembers := List.Subset.trans (nodes_pos_subset elements) (List.map_subset _ helements)
      exact (claims_comments hinner).trans ((claims_nodes elements helements _).trans
        ((claims_commas hpos hmembers).trans (claims_comments htrailing)))

/-- Painting entries claims what their parts offer. -/
theorem claims_entries (entries : List Entry) (hitems : entriesItems entries ⊆ items)
    (buffer : Buffer) :
    Claims (canvas.Offers items) buffer (canvas.paintEntries entries buffer) := by
  match entries with
  | [] => exact .refl buffer
  | entry :: rest =>
      obtain ⟨hentry, hrest⟩ := List.append_subset.1 hitems
      exact (claims_entry entry hentry buffer).trans (claims_entries rest hrest _)

/-- Painting nodes claims what their parts offer. -/
theorem claims_nodes (nodes : List Node) (hitems : nodesItems nodes ⊆ items) (buffer : Buffer) :
    Claims (canvas.Offers items) buffer (canvas.paintNodes nodes buffer) := by
  match nodes with
  | [] => exact .refl buffer
  | node :: rest =>
      obtain ⟨hnode, hrest⟩ := List.append_subset.1 hitems
      exact (claims_node node hnode buffer).trans (claims_nodes rest hrest _)

end

/-- Painting a tree claims what its parts offer. -/
theorem claims_tree (tree : Body) (number : Nat) (line : Text) (buffer : Buffer) :
    Claims ((Canvas.ofText number line).Offers tree.items) buffer
      (buffer.paintTree tree number line) :=
  claims_body tree none (List.Subset.refl _) (List.nil_subset _) buffer

end Canvas

open Text

/-- The span of a range that is a part ends where the part does. -/
theorem is_part_of_range {line : Text} {range : Range} (category : Category)
    (h : IsPart line range.start range.stop) :
    IsPart line (Span.ofRange range category).start (Span.ofRange range category).stop := by
  have hstop : (Span.ofRange range category).stop = range.stop := by
    show range.start + (range.stop - range.start) = range.stop
    exact Nat.add_sub_cancel' h.start_le
  rw [hstop]
  exact h

/-- A span from a place between two characters to the end of the line is a part. -/
theorem is_part_of_rest {line : Text} {start : Nat} (category : Category)
    (h : line.isBoundary start = true) :
    IsPart line start (Span.stop ⟨start, line.byteLength - start, category⟩) := by
  have hpart := is_part_of_boundary h
  rwa [Span.stop, Nat.add_sub_cancel' hpart.start_le]

/-- A literal of a line is a part. -/
theorem is_part_of_literal {line : Text} {range : Range}
    (h : range ∈ (LineView.ofText line).literals) : IsPart line range.start range.stop :=
  is_part_of_match (List.mem_of_mem_filter h)

/-- An occurrence of a character in code is a part. -/
theorem is_part_of_code_occurrence {line : Text} {c : Char} {range : Range}
    (h : range ∈ (LineView.ofText line).codeOccurrences c) : IsPart line range.start range.stop :=
  is_part_of_match (List.mem_of_mem_filter h)

/-- What a scalar looks like on a line is a part. -/
theorem is_part_of_scalar_range {number : Nat} {line : Text} {value : Scalar} {range : Range}
    (h : range ∈ (Canvas.ofText number line).scalarRanges value) :
    IsPart line range.start range.stop := by
  cases value with
  | string _ => exact is_part_of_literal h
  | bool value =>
      cases value with
      | true => exact is_part_of_match (List.mem_of_mem_filter h)
      | false => exact is_part_of_match (List.mem_of_mem_filter h)
  | null => exact is_part_of_match (List.mem_of_mem_filter h)
  | number _ => exact is_part_of_match (List.mem_of_mem_filter (List.mem_of_mem_filter h))

/-- What the parts of a tree offer are parts of the line. -/
theorem is_part_of_offer {number : Nat} {line : Text} {items : List Item} {span : Span}
    (h : (Canvas.ofText number line).Offers items span) : IsPart line span.start span.stop := by
  cases h with
  | key hitem hhas hrange =>
      obtain hbare | hquoted := hrange
      · exact is_part_of_range _ (is_part_of_match (List.mem_of_mem_filter hbare))
      · exact is_part_of_range _ (is_part_of_literal (List.mem_of_mem_filter hquoted))
  | equals hitem hhas hrange =>
      obtain ⟨before, after, hline, hstart, -, -⟩ := exists_of_mem_code_occurrences hrange
      refine ⟨before, ['='], after, ?_, hstart, ?_⟩
      · rw [hline, List.append_assoc, List.singleton_append]
      · rw [Span.stop, hstart, byte_length_append]
        rfl
  | scalar hitem hhas hrange => exact is_part_of_range _ (is_part_of_scalar_range hrange)
  | symbol hpos hhas hsymbol hrange =>
      exact is_part_of_range _ (is_part_of_code_occurrence hrange)
  | comment hitem hhas hstart =>
      rw [Option.orElse_eq_orElse, Option.orElse_eq_or, Option.or_eq_some_iff] at hstart
      obtain hfind | ⟨-, hmarker⟩ := hstart
      · exact is_part_of_rest _ (is_part_of_find hfind).starts
      · exact is_part_of_rest _ (boundary_of_comment_start hmarker)

/-- The comment of a line is a part. -/
theorem is_part_of_comment_span {line : Text} {span : Span} (h : commentSpan? line = some span) :
    IsPart line span.start span.stop := by
  obtain ⟨⟨start, kind⟩, hfind, rfl⟩ := Option.map_eq_some_iff.1 h
  obtain ⟨marker, hmarker, hsplit⟩ := Option.bind_eq_some_iff.1 hfind
  obtain ⟨rest, -, hboth⟩ := Option.bind_eq_some_iff.1 hsplit
  cases hboth
  exact is_part_of_rest _ (boundary_of_comment_start hmarker)

/-- What the patterns want on a line are parts of it. -/
theorem is_part_of_pattern_span {line : Text} {span : Span} (h : span ∈ patternSpans line) :
    IsPart line span.start span.stop := by
  have hmatch : ∀ {pattern : Pattern} {category : Category},
      span ∈ (line.findAll pattern).map (Span.ofRange · category) →
      IsPart line span.start span.stop := by
    intro pattern category hspan
    obtain ⟨range, hrange, rfl⟩ := List.mem_map.1 hspan
    exact is_part_of_range _ (is_part_of_match hrange)
  simp only [patternSpans, List.mem_append] at h
  obtain (((((hcomment | hliteral) | hkey) | hboolean) | hnull) | hnumber) | hsymbol := h
  · exact is_part_of_comment_span (Option.mem_toList.1 hcomment)
  · obtain ⟨range, hrange, rfl⟩ := List.mem_map.1 hliteral
    exact is_part_of_range _ (is_part_of_literal hrange)
  · split at hkey
    · next key equals hline =>
        obtain ⟨hpart, hequals⟩ := is_part_of_line_key hline
        rw [List.mem_pair] at hkey
        obtain rfl | rfl := hkey
        · exact is_part_of_range _ hpart
        · exact hequals
    · cases hkey
  · exact hmatch hboolean
  · exact hmatch hnull
  · exact hmatch hnumber
  · exact hmatch hsymbol

end Highlighter
