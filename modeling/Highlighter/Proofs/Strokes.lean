import Highlighter.Proofs.Claims
import Highlighter.Proofs.TreePaint

/-!
# Painting a tree stroke by stroke

Painting a tree is a sequence of strokes: one for each part of the tree, and one for the commas of
each container, just before its closing delimiter (`exists_draws_body`). What is shown after some
strokes on a line is what their parts own, beside the comment, and the commas if one of them is for
a container that opens on the line or has a member there (`DrawnBy`). Every stroke shows what it
should as long as the keys in quotes are found at their own places (`painted_strokes`).
-/

namespace Highlighter

open Lexeme

/-- One step of the painter: a part of a tree, or the commas of a container. -/
inductive Stroke where
  | part (item : Item)
  | commas (container : Container)

namespace Stroke

/-- The part that a stroke is for. -/
def item? : Stroke → Option Item
  | .part item => some item
  | .commas _ => none

/-- Whether a stroke paints the commas of the line with the given number. -/
def separates (number : Nat) : Stroke → Bool
  | .part _ => false
  | .commas container => container.separates number

end Stroke

namespace Canvas

/-- Paint a part. -/
def paintPart (canvas : Canvas) (item : Item) (buffer : Buffer) : Buffer :=
  match item.part with
  | .key text => canvas.paintEntryHead text item.pos buffer
  | .scalar value => canvas.paintScalar value item.pos buffer
  | .openBrace => canvas.paintDelimiter '\x7b' item.pos buffer
  | .closeBrace => canvas.paintDelimiter '\x7d' item.pos buffer
  | .openBracket => canvas.paintDelimiter '[' item.pos buffer
  | .closeBracket => canvas.paintDelimiter ']' item.pos buffer
  | .comment text kind => canvas.paintComment ⟨text, kind, item.pos⟩ buffer

/-- Paint what a stroke is for. -/
def draw (canvas : Canvas) (buffer : Buffer) : Stroke → Buffer
  | .part item => canvas.paintPart item buffer
  | .commas container => canvas.paintCommas container.pos container.members buffer

open Buffer

/-- Only a key on the line is offered as one. -/
theorem key_of_offer {canvas : Canvas} {items : List Item} {span : Span}
    (h : canvas.Offers items span) (hcategory : span.category = .key) :
    ∃ text pos, ⟨.key text, pos⟩ ∈ items ∧ canvas.has pos = true := by
  cases h with
  | key hitem hhas hrange => exact ⟨_, _, hitem, hhas⟩
  | equals hitem hhas hrange => cases hcategory
  | @scalar value pos range hitem hhas hrange => cases value <;> cases hcategory
  | symbol hpos hhas hsymbol hrange => cases hcategory
  | @comment comment start hitem hhas hstart =>
      obtain ⟨text, kind, pos⟩ := comment
      cases kind <;> cases hcategory

/-- Painting a part claims what it offers. -/
theorem claims_part (canvas : Canvas) (item : Item) (buffer : Buffer) :
    Claims (canvas.Offers [item]) buffer (canvas.paintPart item buffer) := by
  obtain ⟨part, pos⟩ := item
  cases part with
  | key text => exact claims_entry_head List.mem_cons_self
  | scalar value => exact claims_scalar List.mem_cons_self
  | openBrace | closeBrace | openBracket | closeBracket =>
      exact claims_delimiter List.mem_cons_self (by decide)
  | comment text kind =>
      have hmem : Comment.item ⟨text, kind, pos⟩ ∈ [⟨.comment text kind, pos⟩] := List.mem_cons_self
      exact claims_comment hmem

/-- A stroke claims bytes as a key only if it is for a key on the line. -/
theorem claims_draw (canvas : Canvas) (stroke : Stroke) (buffer : Buffer) :
    Claims (fun span => span.category = .key →
      ∃ text pos, stroke = .part ⟨.key text, pos⟩ ∧ canvas.has pos = true)
      buffer (canvas.draw buffer stroke) := by
  cases stroke with
  | part item =>
      refine (canvas.claims_part item buffer).mono fun span hoffer hcategory => ?_
      obtain ⟨text, pos, hmem, hhas⟩ := key_of_offer hoffer hcategory
      exact ⟨text, pos, by rw [List.mem_singleton.1 hmem], hhas⟩
  | commas container =>
      show Claims _ buffer (canvas.paintCommas container.pos container.members buffer)
      unfold paintCommas
      split
      · refine claims_claim_all fun span hspan hcategory => ?_
        obtain ⟨range, -, rfl⟩ := List.mem_map.1 hspan
        cases hcategory
      · exact .refl buffer

/-- Strokes claim bytes as a key only if one of them is for a key on the line. -/
theorem claims_strokes (canvas : Canvas) (strokes : List Stroke) (buffer : Buffer) :
    Claims (fun span => span.category = .key →
      ∃ text pos, .part ⟨.key text, pos⟩ ∈ strokes ∧ canvas.has pos = true)
      buffer (strokes.foldl canvas.draw buffer) := by
  induction strokes generalizing buffer with
  | nil => exact .refl buffer
  | cons stroke rest ih =>
      refine ((canvas.claims_draw stroke buffer).mono fun span hkey hcategory => ?_).trans
        ((ih _).mono fun span hkey hcategory => ?_)
      · obtain ⟨text, pos, rfl, hhas⟩ := hkey hcategory
        exact ⟨text, pos, List.mem_cons_self, hhas⟩
      · obtain ⟨text, pos, hmem, hhas⟩ := hkey hcategory
        exact ⟨text, pos, List.mem_cons_of_mem _ hmem, hhas⟩

end Canvas

/-- Whether a part closes a container. -/
def Item.Closes (item : Item) : Prop :=
  item.part = .closeBrace ∨ item.part = .closeBracket

/-- What closes a container is no comment. -/
theorem Item.Closes.is_code {item : Item} (h : item.Closes) : item.isCode = true := by
  rcases h with hpart | hpart <;> simp [Item.isCode, hpart]

/-- `Draws canvas strokes items containers paint` says that strokes for the given parts and
containers make the given step of the painter. The first part after the commas of a container that
is no comment closes it. -/
structure Draws (canvas : Canvas) (strokes : List Stroke) (items : List Item)
    (containers : List Container) (paint : Buffer → Buffer) : Prop where
  paint_eq : ∀ buffer, strokes.foldl canvas.draw buffer = paint buffer
  items_eq : strokes.filterMap Stroke.item? = items
  commas_iff : ∀ container, .commas container ∈ strokes ↔ container ∈ containers
  closing : ∀ before container after, strokes = before ++ .commas container :: after →
    ∃ closing, (after.filterMap Stroke.item?).find? Item.isCode = some closing ∧ closing.Closes ∧
      container.close = some closing.pos

namespace Draws

variable {canvas : Canvas} {strokes others : List Stroke} {items otherItems : List Item}
  {containers otherContainers : List Container} {paint paintNext : Buffer → Buffer}

/-- Only what is painted in the end matters, and which containers there are. -/
theorem congr (h : Draws canvas strokes items containers paint) (hitems : items = otherItems)
    (hcontainers : ∀ container, container ∈ containers ↔ container ∈ otherContainers)
    (hpaint : ∀ buffer, paint buffer = paintNext buffer) :
    Draws canvas strokes otherItems otherContainers paintNext where
  paint_eq buffer := (h.paint_eq buffer).trans (hpaint buffer)
  items_eq := h.items_eq.trans hitems
  commas_iff container := (h.commas_iff container).trans (hcontainers container)
  closing := h.closing

/-- No strokes paint nothing. -/
theorem nil : Draws canvas [] [] [] (fun buffer => buffer) where
  paint_eq _ := rfl
  items_eq := rfl
  commas_iff := by simp
  closing := by simp

/-- One part is one stroke. -/
theorem part (item : Item) : Draws canvas [.part item] [item] [] (canvas.paintPart item) where
  paint_eq _ := rfl
  items_eq := rfl
  commas_iff := by simp
  closing := by simp [List.singleton_eq_append_iff]

/-- Strokes after strokes. -/
theorem append (h : Draws canvas strokes items containers paint)
    (hnext : Draws canvas others otherItems otherContainers paintNext) :
    Draws canvas (strokes ++ others) (items ++ otherItems) (containers ++ otherContainers)
      (fun buffer => paintNext (paint buffer)) where
  paint_eq buffer := by rw [List.foldl_append, h.paint_eq, hnext.paint_eq]
  items_eq := by rw [List.filterMap_append, h.items_eq, hnext.items_eq]
  commas_iff container := by
    rw [List.mem_append, h.commas_iff, hnext.commas_iff, List.mem_append]
  closing before container after hsplit := by
    obtain ⟨middle, rfl, hothers⟩ | ⟨middle, rfl, hafter⟩ := List.append_eq_append_iff.1 hsplit
    · exact hnext.closing middle container after hothers
    · cases middle with
      | nil => exact hnext.closing [] container after hafter.symm
      | cons stroke middle =>
          obtain ⟨rfl, hrest⟩ := List.cons.inj hafter
          obtain ⟨closing, hfind, hcloses⟩ := h.closing before container middle rfl
          refine ⟨closing, ?_, hcloses⟩
          rw [show after = middle ++ others from hrest, List.filterMap_append, List.find?_append,
            hfind, Option.some_or]

/-- Comments are a stroke each. -/
theorem comments (comments : List Comment) :
    Draws canvas (comments.map fun comment => .part comment.item) (comments.map Comment.item) []
      (canvas.paintComments comments) := by
  induction comments with
  | nil => exact nil
  | cons comment rest ih => exact (part comment.item).append ih

/-- The end of a container: its commas, the comments after its last member, and the delimiter that
closes it. -/
theorem ending (container : Container) (closing : Item) (trailing : List Comment)
    (hcloses : closing.Closes) (hclose : container.close = some closing.pos) :
    Draws canvas
      (.commas container :: (trailing.map (fun comment => .part comment.item) ++ [.part closing]))
      (trailing.map Comment.item ++ [closing]) [container] (fun buffer =>
        canvas.paintPart closing (canvas.paintComments trailing
          (canvas.paintCommas container.pos container.members buffer))) := by
  have hrest : Draws canvas _ _ _ _ := (comments trailing).append (part closing)
  refine ⟨fun buffer => ?_, ?_, fun other => ?_, fun before other after hsplit => ?_⟩
  · exact hrest.paint_eq _
  · exact hrest.items_eq
  · rw [List.mem_cons, hrest.commas_iff]
    simp
  · cases before with
    | nil =>
        obtain ⟨hsame, rfl⟩ := List.cons.inj hsplit
        obtain rfl : container = other := by simpa using hsame
        have hcomments : (trailing.map Comment.item).find? Item.isCode = none := by
          simp [List.find?_eq_none]
        refine ⟨closing, ?_, hcloses, hclose⟩
        rw [hrest.items_eq, List.find?_append, hcomments, Option.none_or]
        simp [hcloses.is_code]
    | cons stroke before =>
        obtain ⟨-, hothers⟩ := List.cons.inj hsplit
        exact hrest.closing before other after hothers

end Draws

section

variable (canvas : Canvas)

mutual

/-- A node is painted by strokes. -/
theorem exists_draws_node (node : Node)
    (hclosed : ∀ container ∈ node.containers, container.close.isSome = true) :
    ∃ strokes, Draws canvas strokes node.items node.containers (canvas.paintNode node) := by
  match node with
  | .entry entry => exact exists_draws_entry entry hclosed
  | .scalar value pos => exact ⟨_, .part ⟨.scalar value, pos⟩⟩
  | .comment comment => exact ⟨_, .part comment.item⟩
  | .object ⟨entries, innerDoc, trailing⟩ pos close =>
      obtain ⟨hclose, hentries⟩ := List.forall_mem_cons.1 hclosed
      obtain ⟨close, rfl⟩ := Option.isSome_iff_exists.1 hclose
      obtain ⟨strokes, hstrokes⟩ := exists_draws_entries entries hentries
      have hdraws := (((Draws.part ⟨.openBrace, pos⟩).append (.comments innerDoc)).append
        hstrokes).append (.ending ⟨pos, some close, entries.map Entry.pos⟩ ⟨.closeBrace, close⟩
          trailing (.inl rfl) rfl)
      refine ⟨_, hdraws.congr ?_ ?_ fun buffer => rfl⟩
      · simp [Node.items, Body.items]
      · simp [Node.containers, Body.containers, or_comm]
  | .list ⟨elements, innerDoc, trailing⟩ pos close =>
      obtain ⟨hclose, helements⟩ := List.forall_mem_cons.1 hclosed
      obtain ⟨close, rfl⟩ := Option.isSome_iff_exists.1 hclose
      obtain ⟨strokes, hstrokes⟩ := exists_draws_nodes elements helements
      have hdraws := (((Draws.part ⟨.openBracket, pos⟩).append (.comments innerDoc)).append
        hstrokes).append (.ending ⟨pos, some close, elements.map Node.pos⟩ ⟨.closeBracket, close⟩
          trailing (.inr rfl) rfl)
      refine ⟨_, hdraws.congr ?_ ?_ fun buffer => rfl⟩
      · simp [Node.items, Items.items]
      · simp [Node.containers, Items.containers, or_comm]

/-- An entry is painted by strokes. -/
theorem exists_draws_entry (entry : Entry)
    (hclosed : ∀ container ∈ entry.containers, container.close.isSome = true) :
    ∃ strokes, Draws canvas strokes entry.items entry.containers (canvas.paintEntry entry) := by
  match entry with
  | ⟨key, value, leading, trailing, pos⟩ =>
      obtain ⟨strokes, hstrokes⟩ := exists_draws_node value hclosed
      have hdraws := (((Draws.comments leading).append (.part ⟨.key key, pos⟩)).append
        hstrokes).append (.comments trailing.toList)
      refine ⟨_, hdraws.congr ?_ ?_ fun buffer => rfl⟩
      · simp [Entry.items]
      · simp [Entry.containers]

/-- Entries are painted by strokes. -/
theorem exists_draws_entries (entries : List Entry)
    (hclosed : ∀ container ∈ entriesContainers entries, container.close.isSome = true) :
    ∃ strokes, Draws canvas strokes (entriesItems entries) (entriesContainers entries)
      (canvas.paintEntries entries) := by
  match entries with
  | [] => exact ⟨[], .nil⟩
  | entry :: rest =>
      obtain ⟨hentry, hrest⟩ := List.forall_mem_append.1 hclosed
      obtain ⟨strokes, hstrokes⟩ := exists_draws_entry entry hentry
      obtain ⟨others, hothers⟩ := exists_draws_entries rest hrest
      exact ⟨_, hstrokes.append hothers⟩

/-- Nodes are painted by strokes. -/
theorem exists_draws_nodes (nodes : List Node)
    (hclosed : ∀ container ∈ nodesContainers nodes, container.close.isSome = true) :
    ∃ strokes, Draws canvas strokes (nodesItems nodes) (nodesContainers nodes)
      (canvas.paintNodes nodes) := by
  match nodes with
  | [] => exact ⟨[], .nil⟩
  | node :: rest =>
      obtain ⟨hnode, hrest⟩ := List.forall_mem_append.1 hclosed
      obtain ⟨strokes, hstrokes⟩ := exists_draws_node node hnode
      obtain ⟨others, hothers⟩ := exists_draws_nodes rest hrest
      exact ⟨_, hstrokes.append hothers⟩

end

/-- A document is painted by strokes. -/
theorem exists_draws_body (tree : Body)
    (hclosed : ∀ container ∈ tree.containers, container.close.isSome = true) :
    ∃ strokes, Draws canvas strokes tree.items tree.containers (canvas.paintBody tree none) := by
  obtain ⟨entries, innerDoc, trailing⟩ := tree
  obtain ⟨strokes, hstrokes⟩ := exists_draws_entries canvas entries hclosed
  have hdraws := ((Draws.comments innerDoc).append hstrokes).append (.comments trailing)
  refine ⟨_, hdraws.congr ?_ ?_ fun buffer => rfl⟩
  · simp [Body.items]
  · simp [Body.containers]

end

/-- What is shown after some strokes. -/
def DrawnBy (number : Nat) (lexemes : List Lexeme) (strokes : List Stroke) : Lexeme → Prop :=
  ShownBy lexemes ((strokes.filterMap Stroke.item?).map Item.pos)
    (strokes.any (Stroke.separates number))

/-- The stroke for a key in quotes. -/
def Lexeme.keyStroke (key : Lexeme) : Stroke :=
  .part ⟨.key (Quoted.unquote key.text), key.pos.toSource⟩

/-- Whether the stroke for a key in quotes shows the key, after the given strokes. -/
def Finds (number : Nat) (line : Text) (lexemes : List Lexeme) (first : List Stroke)
    (key : Lexeme) : Prop :=
  ∀ buffer, Painted line lexemes (DrawnBy number lexemes first) buffer →
    Painted line lexemes (DrawnBy number lexemes (first ++ [key.keyStroke]))
      ((Canvas.ofText number line).draw buffer key.keyStroke)

namespace Legible

variable {number : Nat} {line : Text} {lexemes : List Lexeme} (h : Legible number line lexemes)

include h

/-- A stroke for a part shows what the part owns. -/
theorem draws_part {strokes : List Stroke} {item : Item} {buffer : Buffer}
    (hpainted : Painted line lexemes (DrawnBy number lexemes strokes) buffer)
    (hstands : Stands number lexemes item)
    (hnew : item.pos ∉ (strokes.filterMap Stroke.item?).map Item.pos)
    (hfinds : ∀ key ∈ lexemes, key.token = some .string → key.isKeyIn lexemes = true →
      .part item = key.keyStroke → Finds number line lexemes strokes key) :
    Painted line lexemes (DrawnBy number lexemes (strokes ++ [.part item]))
      ((Canvas.ofText number line).paintPart item buffer) := by
  have hdrawn : DrawnBy number lexemes (strokes ++ [.part item]) =
      ShownBy lexemes ((strokes.filterMap Stroke.item?).map Item.pos ++ [item.pos])
        (strokes.any (Stroke.separates number)) := by
    simp [DrawnBy, Stroke.item?, Stroke.separates]
  obtain ⟨part, pos⟩ := item
  cases part with
  | key text =>
      by_cases hline : pos.line = number
      · obtain ⟨key, hkey, hitem⟩ := hstands hline
        obtain ⟨rfl, ⟨hident, rfl⟩ | ⟨hstring, hfollowed, rfl⟩⟩ := item_cases hitem
        · rw [hdrawn]
          exact h.shows_bare_key hpainted hkey hident hnew
        · exact hfinds key hkey hstring hfollowed rfl buffer hpainted
      · have hsame : (Canvas.ofText number line).paintPart ⟨.key text, pos⟩ buffer = buffer :=
          if_neg (mt (has_iff number line _).1 hline)
        rw [hdrawn, hsame]
        exact h.shows_elsewhere hpainted hline
  | scalar value =>
      rw [hdrawn]
      exact h.shows_scalar hpainted hstands hnew
  | openBrace | closeBrace | openBracket | closeBracket =>
      rw [hdrawn]
      exact h.shows_delimiter hpainted rfl hstands hnew
  | comment text kind =>
      rw [hdrawn]
      exact h.shows_comment ⟨text, kind, pos⟩ hpainted hstands

/-- Strokes show what their parts own, and the commas if one of them is for commas of the line, as
long as the keys in quotes are found. -/
theorem painted_strokes {strokes : List Stroke} {buffer : Buffer}
    (hpainted : Painted line lexemes (DrawnBy number lexemes []) buffer)
    (hstands : ∀ item ∈ strokes.filterMap Stroke.item?, Stands number lexemes item)
    (hnodup : ((strokes.filterMap Stroke.item?).map Item.pos).Nodup)
    (hfinds : ∀ key ∈ lexemes, key.token = some .string → key.isKeyIn lexemes = true →
      ∀ first rest, strokes = first ++ key.keyStroke :: rest →
        Finds number line lexemes first key) :
    Painted line lexemes (DrawnBy number lexemes strokes)
      (strokes.foldl (Canvas.ofText number line).draw buffer) := by
  induction strokes using List.reverseRecOn with
  | nil => exact hpainted
  | append_singleton strokes stroke ih =>
      rw [List.filterMap_append, List.forall_mem_append] at hstands
      rw [List.filterMap_append, List.map_append] at hnodup
      have hbefore := ih hstands.1 hnodup.of_append_left fun key hkey hstring hfollowed first rest
        hsplit => hfinds key hkey hstring hfollowed first (rest ++ [stroke]) (by simp [hsplit])
      rw [List.foldl_append]
      cases stroke with
      | part item =>
          refine h.draws_part hbefore (hstands.2 item (by simp [Stroke.item?])) ?_ ?_
          · intro hmem
            exact (List.nodup_append.1 hnodup).2.2 _ hmem item.pos (by simp [Stroke.item?]) rfl
          · intro key hkey hstring hfollowed hstroke
            exact hfinds key hkey hstring hfollowed strokes [] (by rw [hstroke])
      | commas container =>
          have hdrawn : DrawnBy number lexemes (strokes ++ [.commas container]) =
              ShownBy lexemes ((strokes.filterMap Stroke.item?).map Item.pos)
                (strokes.any (Stroke.separates number) || container.separates number) := by
            have hitems : [Stroke.commas container].filterMap Stroke.item? = [] := rfl
            simp [DrawnBy, hitems, Stroke.separates]
          rw [hdrawn]
          exact h.shows_commas hbefore container

end Legible

end Highlighter
