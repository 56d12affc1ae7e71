import Highlighter.Proofs.Steps

/-!
# What a tree is made of

The positioned parts of a tree are its keys, scalars, delimiters and comments. Each of them is one
lexeme of the text it was read from, and each lexeme but the line feeds, commas and equals signs is
one of them. `Body.items` lists the parts of a tree and `Lexeme.items` those of a sequence of
lexemes, where a string is a key if an equals sign follows it. The reader keeps the balance at every
step: what its state holds is what it has taken, in the same order but for comments (`taken_items`).
-/

namespace Highlighter

/-- What a positioned part of a tree is. -/
inductive Part where
  | key (text : Text)
  | scalar (value : Scalar)
  | openBrace
  | closeBrace
  | openBracket
  | closeBracket
  | comment (text : Text) (kind : CommentKind)
  deriving DecidableEq, Repr

/-- A part of a tree with its place. -/
structure Item where
  part : Part
  pos : SourcePos
  deriving DecidableEq, Repr

/-- A comment as a part. -/
def Comment.item (comment : Comment) : Item :=
  ⟨.comment comment.text comment.kind, comment.pos⟩

/-- Whether a part is no comment. -/
def Item.isCode (item : Item) : Bool :=
  match item.part with
  | .comment _ _ => false
  | _ => true

@[simp] theorem comment_is_code (comment : Comment) : comment.item.isCode = false := rfl

@[simp] theorem comments_filter_code (comments : List Comment) :
    (comments.map Comment.item).filter Item.isCode = [] := by
  simp [List.filter_eq_nil_iff]

/-- `Reorders first second` says that the same parts stand in both lists, and that only comments
stand in another order. -/
structure Reorders (first second : List Item) : Prop where
  perm : first.Perm second
  code : first.filter Item.isCode = second.filter Item.isCode

namespace Reorders

variable {first second third : List Item}

@[simp] theorem refl (items : List Item) : Reorders items items :=
  ⟨.refl items, rfl⟩

theorem of_eq (h : first = second) : Reorders first second :=
  h ▸ refl first

theorem symm (h : Reorders first second) : Reorders second first :=
  ⟨h.perm.symm, h.code.symm⟩

theorem trans (h : Reorders first second) (hnext : Reorders second third) :
    Reorders first third :=
  ⟨h.perm.trans hnext.perm, h.code.trans hnext.code⟩

theorem append_left (items : List Item) (h : Reorders first second) :
    Reorders (items ++ first) (items ++ second) :=
  ⟨h.perm.append_left items, by simp [h.code]⟩

theorem append_right (items : List Item) (h : Reorders first second) :
    Reorders (first ++ items) (second ++ items) :=
  ⟨h.perm.append_right items, by simp [h.code]⟩

theorem cons (item : Item) (h : Reorders first second) :
    Reorders (item :: first) (item :: second) :=
  h.append_left [item]

end Reorders

mutual

/-- The parts of a node, in the order in which they are painted. -/
def Node.items : Node → List Item
  | .entry entry => entry.items
  | .scalar value pos => [⟨.scalar value, pos⟩]
  | .object body pos close =>
      ⟨.openBrace, pos⟩ :: body.items ++ close.toList.map (⟨.closeBrace, ·⟩)
  | .list items pos close =>
      ⟨.openBracket, pos⟩ :: items.items ++ close.toList.map (⟨.closeBracket, ·⟩)
  | .comment comment => [comment.item]

/-- The parts of an entry. -/
def Entry.items : Entry → List Item
  | ⟨key, value, leading, trailing, pos⟩ =>
      leading.map Comment.item ++ ⟨.key key, pos⟩ :: value.items ++
        trailing.toList.map Comment.item

/-- The parts of a body. -/
def Body.items : Body → List Item
  | ⟨entries, innerDoc, trailing⟩ =>
      innerDoc.map Comment.item ++ entriesItems entries ++ trailing.map Comment.item

/-- The parts of the inside of a list. -/
def Items.items : Items → List Item
  | ⟨elements, innerDoc, trailing⟩ =>
      innerDoc.map Comment.item ++ nodesItems elements ++ trailing.map Comment.item

/-- The parts of entries in order. -/
def entriesItems : List Entry → List Item
  | [] => []
  | entry :: rest => entry.items ++ entriesItems rest

/-- The parts of nodes in order. -/
def nodesItems : List Node → List Item
  | [] => []
  | node :: rest => node.items ++ nodesItems rest

end

/-- A container of a tree: where it opens and closes, and where its members start. -/
structure Container where
  pos : SourcePos
  close : Option SourcePos
  members : List SourcePos

mutual

/-- The objects and lists in a node. -/
def Node.containers : Node → List Container
  | .entry entry => entry.containers
  | .scalar _ _ => []
  | .object body pos close => ⟨pos, close, body.entries.map Entry.pos⟩ :: body.containers
  | .list items pos close => ⟨pos, close, items.elements.map Node.pos⟩ :: items.containers
  | .comment _ => []

/-- The objects and lists in an entry. -/
def Entry.containers : Entry → List Container
  | ⟨_, value, _, _, _⟩ => value.containers

/-- The objects and lists in a body. -/
def Body.containers : Body → List Container
  | ⟨entries, _, _⟩ => entriesContainers entries

/-- The objects and lists inside a list. -/
def Items.containers : Items → List Container
  | ⟨elements, _, _⟩ => nodesContainers elements

/-- The objects and lists in entries. -/
def entriesContainers : List Entry → List Container
  | [] => []
  | entry :: rest => entry.containers ++ entriesContainers rest

/-- The objects and lists in nodes. -/
def nodesContainers : List Node → List Container
  | [] => []
  | node :: rest => node.containers ++ nodesContainers rest

end

namespace Lexeme

/-- The part of a tree that a lexeme is, if any. A string is a key or a value. -/
def item? (isKey : Bool) (lexeme : Lexeme) : Option Item :=
  let item (part : Part) : Option Item := some ⟨part, lexeme.pos.toSource⟩
  match lexeme.token with
  | some .ident => item (.key lexeme.text)
  | some .string =>
      if isKey then item (.key (Quoted.unquote lexeme.text))
      else item (.scalar (.string (Quoted.unquote lexeme.text)))
  | some .number => item (.scalar (.number (Binary64.ofNumeral lexeme.text)))
  | some (.bool value) => item (.scalar (.bool value))
  | some .null => item (.scalar .null)
  | some .openBrace => item .openBrace
  | some .closeBrace => item .closeBrace
  | some .openBracket => item .openBracket
  | some .closeBracket => item .closeBracket
  | some .comment => item (.comment lexeme.text.trimEnd (CommentKind.ofText lexeme.text.trimEnd))
  | some .newline => none
  | some .comma => none
  | some .equals => none
  | none => none

/-- Whether an equals sign comes first. -/
def startsWithEquals (lexemes : List Lexeme) : Bool :=
  lexemes.head?.any (·.token = some .equals)

/-- The parts of a tree that lexemes are, in order. A string is a key if an equals sign follows. -/
def items : List Lexeme → List Item
  | [] => []
  | lexeme :: rest => (lexeme.item? (startsWithEquals rest)).toList ++ items rest

end Lexeme

/-- Places that a parser knows are the same if the exact ones are. -/
theorem pos_of_to_source {first second : Position} (h : first.toSource = second.toSource) :
    first = second := by
  cases first
  cases second
  simpa [Position.toSource] using h

/-- What a lexeme is as a part of a tree. -/
theorem item_cases {lexeme : Lexeme} {isKey : Bool} {item : Item}
    (h : lexeme.item? isKey = some item) :
    item.pos = lexeme.pos.toSource ∧
      match item.part with
      | .key text => lexeme.token = some .ident ∧ lexeme.text = text ∨
          lexeme.token = some .string ∧ isKey = true ∧ Quoted.unquote lexeme.text = text
      | .scalar value => Reader.scalarOf? lexeme = some value
      | .openBrace => lexeme.token = some .openBrace
      | .closeBrace => lexeme.token = some .closeBrace
      | .openBracket => lexeme.token = some .openBracket
      | .closeBracket => lexeme.token = some .closeBracket
      | .comment _ _ => lexeme.token = some .comment := by
  unfold Lexeme.item? at h
  dsimp only at h
  split at h
  case h_2 => split at h <;> cases h <;> simp_all [Reader.scalarOf?]
  all_goals cases h <;> simp_all [Reader.scalarOf?]

/-- The parts of a body by its fields. -/
theorem body_items (body : Body) :
    body.items = body.innerDoc.map Comment.item ++ entriesItems body.entries ++
      body.trailing.map Comment.item := by
  cases body
  rfl

/-- The parts of the inside of a list by its fields. -/
theorem items_items (items : Items) :
    items.items = items.innerDoc.map Comment.item ++ nodesItems items.elements ++
      items.trailing.map Comment.item := by
  cases items
  rfl

/-- The parts of an entry by its fields. -/
theorem entry_items (entry : Entry) :
    entry.items =
      entry.leading.map Comment.item ++ ⟨.key entry.key, entry.pos⟩ :: entry.value.items ++
        entry.trailing.toList.map Comment.item := by
  cases entry
  rfl

/-- Parts that are added to an entry list stand after those of the entries before. -/
theorem entries_items_append (first second : List Entry) :
    entriesItems (first ++ second) = entriesItems first ++ entriesItems second := by
  induction first with
  | nil => rfl
  | cons entry rest ih => simp [entriesItems, ih]

/-- The parts of joined nodes are the parts of both. -/
theorem nodes_items_append (first second : List Node) :
    nodesItems (first ++ second) = nodesItems first ++ nodesItems second := by
  induction first with
  | nil => rfl
  | cons node rest ih => simp [nodesItems, ih]

/-- The parts of comment nodes are the comments. -/
theorem nodes_items_comments (comments : List Comment) :
    nodesItems (comments.map Node.comment) = comments.map Comment.item := by
  induction comments with
  | nil => rfl
  | cons comment rest ih => simp [nodesItems, Node.items, ih]

/-- The containers of a body by its fields. -/
theorem body_containers (body : Body) : body.containers = entriesContainers body.entries := by
  cases body
  rfl

/-- The containers inside a list by its fields. -/
theorem items_containers (items : Items) : items.containers = nodesContainers items.elements := by
  cases items
  rfl

/-- The containers of an entry are those of its value. -/
theorem entry_containers (entry : Entry) : entry.containers = entry.value.containers := by
  cases entry
  rfl

/-- The containers of joined entries are those of both. -/
theorem entries_containers_append (first second : List Entry) :
    entriesContainers (first ++ second) = entriesContainers first ++ entriesContainers second := by
  induction first with
  | nil => rfl
  | cons entry rest ih => simp [entriesContainers, ih]

/-- The containers of joined nodes are those of both. -/
theorem nodes_containers_append (first second : List Node) :
    nodesContainers (first ++ second) = nodesContainers first ++ nodesContainers second := by
  induction first with
  | nil => rfl
  | cons node rest ih => simp [nodesContainers, ih]

/-- There are no containers in comments. -/
theorem nodes_containers_comments (comments : List Comment) :
    nodesContainers (comments.map Node.comment) = [] := by
  induction comments with
  | nil => rfl
  | cons comment rest ih => simp [nodesContainers, Node.containers, ih]

namespace Reader

open Grammar (IsSeparator keyOf?)

/-- The parts in the containers around a value. -/
def Context.items : Context → List Item
  | .top body key keyPos => body.items ++ [⟨.key key, keyPos.toSource⟩]
  | .member outer opened body key keyPos =>
      outer.items ++ ⟨.openBrace, opened.toSource⟩ :: body.items ++ [⟨.key key, keyPos.toSource⟩]
  | .element outer opened items =>
      outer.items ++ ⟨.openBracket, opened.toSource⟩ :: items.items

/-- The parts around a body, up to its opening brace. -/
def itemsAround : Option Braces → List Item
  | none => []
  | some braces => braces.outer.items ++ [⟨.openBrace, braces.opened.toSource⟩]

/-- The parts that a state holds. -/
def State.items : State → List Item
  | .item braces body => itemsAround braces ++ body.items
  | .equals braces body key keyPos =>
      itemsAround braces ++ body.items ++ [⟨.key key, keyPos.toSource⟩]
  | .value context => context.items
  | .entryEnd braces body entry => itemsAround braces ++ body.items ++ entry.items
  | .element outer opened items =>
      outer.items ++ ⟨.openBracket, opened.toSource⟩ :: items.items
  | .elementEnd outer opened items _ =>
      outer.items ++ ⟨.openBracket, opened.toSource⟩ :: items.items
  | .stopped body => body.items

/-- A comment in a body is one more part. -/
theorem note_body_items (body : Body) (comment : Comment) :
    Reorders (noteBody body comment).items (body.items ++ [comment.item]) := by
  unfold noteBody
  split
  · refine ⟨List.perm_iff_count.2 fun item => ?_, by simp [body_items]⟩
    simp [body_items, List.count_cons]
    omega
  · exact .of_eq (by simp [body_items])

/-- A comment in a list is one more part. -/
theorem note_items_items (items : Items) (comment : Comment) :
    Reorders (noteItems items comment).items (items.items ++ [comment.item]) := by
  unfold noteItems
  split
  · refine ⟨List.perm_iff_count.2 fun item => ?_, by simp [items_items]⟩
    simp [items_items, List.count_cons]
    omega
  · exact .of_eq (by simp [items_items])

/-- Comments that become elements stay the same parts. -/
theorem settle_items_items (items : Items) : (settleItems items).items = items.items := by
  simp [settleItems, items_items, nodes_items_append, nodes_items_comments]

/-- An element adds its parts to the list. -/
theorem push_item_items (items : Items) (node : Node) :
    Reorders (pushItem items node).items (items.items ++ node.items) := by
  refine ⟨List.perm_iff_count.2 fun item => ?_, ?_⟩
  · simp [pushItem, items_items, nodes_items_append, nodesItems]
    omega
  · simp [pushItem, items_items, nodes_items_append, nodesItems]

/-- An entry adds its parts to the body. -/
theorem push_items (body : Body) (entry : Entry) :
    Reorders (body.push entry).items (body.items ++ entry.items) := by
  refine ⟨List.perm_iff_count.2 fun item => ?_, ?_⟩
  · simp [Body.push, body_items, entries_items_append, entriesItems]
    omega
  · simp [Body.push, body_items, entries_items_append, entriesItems]

/-- The parts around a value that follows a key. -/
theorem entry_context_items (braces : Option Braces) (body : Body) (key : Text)
    (keyPos : Position) :
    (entryContext braces body key keyPos).items =
      itemsAround braces ++ body.items ++ [⟨.key key, keyPos.toSource⟩] := by
  cases braces <;> simp [entryContext, Context.items, itemsAround]

variable {state next : State} {lexeme : Lexeme}

/-- A state holds the parts of the body that may end in it and of what is around that. -/
theorem items_of_body {braces : Option Braces} {body : Body}
    (h : state.body? = some (braces, body)) :
    Reorders state.items (itemsAround braces ++ body.items) := by
  cases state <;> cases h
  · exact .refl _
  · next body entry =>
      simpa [State.items] using ((push_items body entry).append_left (itemsAround braces)).symm

/-- A state holds the parts of the list that may end in it and of what is around that. -/
theorem items_of_list {outer : Context} {opened : Position} {items : Items}
    (h : state.list? = some (outer, opened, items)) :
    state.items = outer.items ++ ⟨.openBracket, opened.toSource⟩ :: items.items := by
  cases state <;> cases h <;> rfl

/-- A state holds the parts around a value that may start in it. -/
theorem items_of_context {context : Context} (h : state.context? = some context) :
    state.items = context.items := by
  cases state <;> cases h
  · rfl
  · simp [State.items, Context.items, settle_items_items]

/-- A complete value adds its parts to what is around it. -/
theorem complete_items {context : Context} {value : Node} (h : context.complete value = .ok next) :
    Reorders next.items (context.items ++ value.items) := by
  obtain ⟨braces, body, key, keyPos, rfl, rfl⟩ | ⟨outer, opened, items, rfl, rfl⟩ :=
    complete_cases h
  · exact .of_eq (by simp [entry_context_items, State.items, body_items, entry_items])
  · simpa [State.items, Context.items] using
      ((push_item_items items value).cons _).append_left outer.items

/-- Whether a string that stands next is a key. -/
def State.takesKey : State → Bool
  | .item _ _ => true
  | _ => false

/-- A separator is no part. -/
theorem item_separator {isKey : Bool} (h : IsSeparator lexeme) : lexeme.item? isKey = none := by
  obtain htoken | htoken := h <;> simp [Lexeme.item?, htoken]

/-- A comment that a lexeme holds is the part that the lexeme is. -/
theorem item_comment {isKey : Bool} (htoken : lexeme.token = some .comment) :
    lexeme.item? isKey = some (commentOf lexeme).item := by
  simp [Lexeme.item?, htoken, commentOf, Comment.ofText, Comment.item]

/-- A lexeme that spells a key is that key where keys are taken. -/
theorem item_key {key : Text} (h : keyOf? lexeme = some key) :
    lexeme.item? true = some ⟨.key key, lexeme.pos.toSource⟩ := by
  unfold keyOf? at h
  split at h
  · next htoken => simp [Lexeme.item?, htoken, ← Option.some.inj h]
  · next htoken => simp [Lexeme.item?, htoken, ← Option.some.inj h]
  · cases h

/-- A lexeme that is a scalar is that scalar where values are taken. -/
theorem item_scalar {value : Scalar} (h : scalarOf? lexeme = some value) :
    lexeme.item? false = some ⟨.scalar value, lexeme.pos.toSource⟩ := by
  unfold scalarOf? at h
  split at h
  · next htoken => simp [Lexeme.item?, htoken, ← Option.some.inj h]
  · next htoken => simp [Lexeme.item?, htoken, ← Option.some.inj h]
  · next htoken => simp [Lexeme.item?, htoken, ← Option.some.inj h]
  · next htoken => simp [Lexeme.item?, htoken, ← Option.some.inj h]
  · cases h

/-- No key stands where a value may start. -/
theorem takes_key_of_context {context : Context} (h : state.context? = some context) :
    state.takesKey = false := by
  cases state <;> cases h <;> rfl

/-- A step adds to the parts of a state the one that the lexeme is, if it is one. -/
theorem taken_items (h : Taken state lexeme next) :
    Reorders next.items (state.items ++ (lexeme.item? state.takesKey).toList) := by
  cases h with
  | separator _ braces body _ hbody hseparator =>
      simpa [State.items, item_separator hseparator] using (items_of_body hbody).symm
  | comment braces body _ htoken =>
      simpa [State.items, item_comment htoken] using
        (note_body_items body (commentOf lexeme)).append_left (itemsAround braces)
  | key braces body _ key hkey => simp [State.items, State.takesKey, item_key hkey]
  | equals braces body key keyPos _ htoken =>
      simp [State.items, entry_context_items, Lexeme.item?, htoken]
  | scalar _ context _ value _ hcontext hscalar hcomplete =>
      simpa [items_of_context hcontext, takes_key_of_context hcontext, item_scalar hscalar,
        Node.items] using complete_items hcomplete
  | openObject _ context _ hcontext htoken =>
      rw [items_of_context hcontext]
      simp [State.items, itemsAround, body_items, Body.empty, entriesItems, Lexeme.item?, htoken]
  | openList _ context _ hcontext htoken =>
      rw [items_of_context hcontext]
      simp [State.items, items_items, nodesItems, Lexeme.item?, htoken]
  | closeObject _ braces body _ _ hbody htoken hcomplete =>
      -- The object that is complete has the parts that were around its body before.
      refine (complete_items hcomplete).trans ?_
      simpa [Node.items, itemsAround, Lexeme.item?, htoken] using
        ((items_of_body hbody).symm.append_right [⟨.closeBrace, lexeme.pos.toSource⟩])
  | entryComment braces body entry _ htrailing htoken =>
      simp [State.items, item_comment htoken, entry_items, htrailing]
  | listSeparator _ outer opened items _ hlist hseparator =>
      rw [items_of_list hlist]
      simp [State.items, item_separator hseparator]
  | listComment outer opened items _ htoken =>
      simpa [State.items, item_comment htoken] using
        ((note_items_items items (commentOf lexeme)).cons _).append_left outer.items
  | elementComment outer opened items _ htoken =>
      -- A comment after an element is an element of its own.
      simpa [State.items, item_comment htoken, Node.items] using
        ((push_item_items items (.comment (commentOf lexeme))).cons _).append_left outer.items
  | closeList _ outer opened items _ _ hlist htoken hcomplete =>
      simpa [items_of_list hlist, Node.items, Lexeme.item?, htoken] using complete_items hcomplete

/-- The document is what the last state holds. -/
theorem finish_items {pos : Position} {tree : Body} (h : state.finish pos = .ok tree) :
    Reorders tree.items state.items := by
  unfold State.finish at h
  split at h
  all_goals cases h
  · simp [State.items, itemsAround]
  · next entry => simpa [State.items, itemsAround] using push_items _ entry
  · simp [State.items]

/-- Whether an equals sign must stand next. -/
def State.expectsEquals : State → Bool
  | .equals _ _ _ _ => true
  | _ => false

/-- No equals sign follows a complete value. -/
theorem expects_equals_of_complete {context : Context} {value : Node}
    (h : context.complete value = .ok next) : next.expectsEquals = false := by
  obtain ⟨_, _, _, _, _, rfl⟩ | ⟨_, _, _, _, rfl⟩ := complete_cases h <;> rfl

/-- An equals sign is taken where one is expected, and nothing else is. -/
theorem taken_equals_iff (h : Taken state lexeme next) :
    lexeme.token = some .equals ↔ state.expectsEquals = true := by
  constructor
  · intro htoken
    cases h <;> simp_all [IsSeparator, keyOf?, scalarOf?, State.expectsEquals]
  · intro hexpects
    cases state with
    | equals braces body key keyPos =>
        cases h <;> simp_all [State.body?, State.list?, State.context?]
    | _ => cases hexpects

/-- An equals sign is expected after a string if and only if the string was taken as a key. -/
theorem taken_string (h : Taken state lexeme next) (htoken : lexeme.token = some .string) :
    next.expectsEquals = state.takesKey := by
  cases h with
  | key braces body _ key hkey => rfl
  | scalar _ context _ value _ hcontext hscalar hcomplete =>
      rw [expects_equals_of_complete hcomplete, takes_key_of_context hcontext]
  | _ => simp_all [IsSeparator]

/-- Lexemes that complete a document start with an equals sign where one is expected. -/
theorem reads_starts_with_equals {pos : Position} {tree : Body} {lexemes : List Lexeme}
    (h : Reads pos tree state lexemes) : Lexeme.startsWithEquals lexemes = state.expectsEquals := by
  cases h with
  | finish _ _ hfinish => cases state <;> simp_all [State.finish, State.expectsEquals,
      Lexeme.startsWithEquals]
  | step _ lexeme next rest htaken hrest =>
      rw [Bool.eq_iff_iff, ← taken_equals_iff htaken]
      simp [Lexeme.startsWithEquals]

/-- The part that a taken lexeme is can be told from the lexeme after it. -/
theorem item_of_reads {pos : Position} {tree : Body} {rest : List Lexeme}
    (htaken : Taken state lexeme next) (hrest : Reads pos tree next rest) :
    lexeme.item? (Lexeme.startsWithEquals rest) = lexeme.item? state.takesKey := by
  by_cases htoken : lexeme.token = some .string
  · rw [reads_starts_with_equals hrest, taken_string htaken htoken]
  · unfold Lexeme.item?
    split <;> first | rfl | contradiction

/-- A reading makes a document of the parts that the state holds and those that the lexemes are, in
this order but for comments. -/
theorem reads_reorders {pos : Position} {tree : Body} {lexemes : List Lexeme}
    (h : Reads pos tree state lexemes) :
    Reorders tree.items (state.items ++ Lexeme.items lexemes) := by
  induction h with
  | finish state hopen hfinish => simpa [Lexeme.items] using finish_items hfinish
  | step state lexeme next rest htaken hrest ih =>
      rw [Lexeme.items, item_of_reads htaken hrest, ← List.append_assoc]
      exact ih.trans ((taken_items htaken).append_right _)

/-- A document has the parts that the state holds and those that the lexemes are. -/
theorem reads_items {pos : Position} {tree : Body} {lexemes : List Lexeme}
    (h : Reads pos tree state lexemes) :
    tree.items.Perm (state.items ++ Lexeme.items lexemes) :=
  (reads_reorders h).perm

/-- The complete containers in the containers around a value. -/
def Context.containers : Context → List Container
  | .top body _ _ => body.containers
  | .member outer _ body _ _ => outer.containers ++ body.containers
  | .element outer _ items => outer.containers ++ items.containers

/-- The complete containers around a body. -/
def containersAround : Option Braces → List Container
  | none => []
  | some braces => braces.outer.containers

/-- The complete containers that a state holds. -/
def State.containers : State → List Container
  | .item braces body => containersAround braces ++ body.containers
  | .equals braces body _ _ => containersAround braces ++ body.containers
  | .value context => context.containers
  | .entryEnd braces body entry => containersAround braces ++ body.containers ++ entry.containers
  | .element outer _ items => outer.containers ++ items.containers
  | .elementEnd outer _ items _ => outer.containers ++ items.containers
  | .stopped body => body.containers

@[simp] theorem note_body_containers (body : Body) (comment : Comment) :
    (noteBody body comment).containers = body.containers := by
  unfold noteBody
  split <;> simp [body_containers]

@[simp] theorem note_items_containers (items : Items) (comment : Comment) :
    (noteItems items comment).containers = items.containers := by
  unfold noteItems
  split <;> simp [items_containers]

@[simp] theorem settle_items_containers (items : Items) :
    (settleItems items).containers = items.containers := by
  simp [settleItems, items_containers, nodes_containers_append, nodes_containers_comments]

@[simp] theorem push_item_containers (items : Items) (node : Node) :
    (pushItem items node).containers = items.containers ++ node.containers := by
  simp [pushItem, items_containers, nodes_containers_append, nodesContainers]

@[simp] theorem push_containers (body : Body) (entry : Entry) :
    (body.push entry).containers = body.containers ++ entry.containers := by
  simp [Body.push, body_containers, entries_containers_append, entriesContainers]

@[simp] theorem entry_context_containers (braces : Option Braces) (body : Body) (key : Text)
    (keyPos : Position) :
    (entryContext braces body key keyPos).containers =
      containersAround braces ++ body.containers := by
  cases braces <;> simp [entryContext, Context.containers, containersAround]

/-- A state holds the containers in the body that may end in it and around that. -/
theorem containers_of_body {braces : Option Braces} {body : Body}
    (h : state.body? = some (braces, body)) :
    state.containers = containersAround braces ++ body.containers := by
  cases state <;> cases h <;> simp [State.containers]

/-- A state holds the containers in the list that may end in it and around that. -/
theorem containers_of_list {outer : Context} {opened : Position} {items : Items}
    (h : state.list? = some (outer, opened, items)) :
    state.containers = outer.containers ++ items.containers := by
  cases state <;> cases h <;> rfl

/-- A state holds the containers around a value that may start in it. -/
theorem containers_of_context {context : Context} (h : state.context? = some context) :
    state.containers = context.containers := by
  cases state <;> cases h <;> simp [State.containers, Context.containers]

/-- A complete value adds its containers to those around it. -/
theorem complete_containers {context : Context} {value : Node}
    (h : context.complete value = .ok next) :
    next.containers = context.containers ++ value.containers := by
  obtain ⟨braces, body, key, keyPos, rfl, rfl⟩ | ⟨outer, opened, items, rfl, rfl⟩ :=
    complete_cases h
  · simp [State.containers, body_containers, entry_containers]
  · simp [State.containers, Context.containers]

/-- A step adds no container without a closing delimiter. -/
theorem taken_closed (h : Taken state lexeme next)
    (hclosed : ∀ container ∈ state.containers, container.close.isSome) :
    ∀ container ∈ next.containers, container.close.isSome := by
  cases h with
  | separator _ braces body _ hbody hseparator =>
      rwa [containers_of_body hbody] at hclosed
  | comment braces body _ htoken | listComment outer opened items _ htoken
  | elementComment outer opened items _ htoken | entryComment braces body entry _ _ htoken =>
      simpa [State.containers, Node.containers, entry_containers] using hclosed
  | key braces body _ key hkey | equals braces body key keyPos _ htoken =>
      simpa [State.containers] using hclosed
  | scalar _ context _ value _ hcontext hscalar hcomplete =>
      rw [containers_of_context hcontext] at hclosed
      simpa [complete_containers hcomplete, Node.containers] using hclosed
  | openObject _ context _ hcontext htoken =>
      rw [containers_of_context hcontext] at hclosed
      simpa [State.containers, containersAround, body_containers, Body.empty, entriesContainers]
        using hclosed
  | openList _ context _ hcontext htoken =>
      rw [containers_of_context hcontext] at hclosed
      simpa [State.containers, items_containers, nodesContainers] using hclosed
  | closeObject _ braces body _ _ hbody htoken hcomplete =>
      rw [containers_of_body hbody] at hclosed
      simp only [containersAround, List.forall_mem_append] at hclosed
      simpa [complete_containers hcomplete, Node.containers, List.forall_mem_append, or_imp,
        forall_and] using hclosed
  | listSeparator _ outer opened items _ hlist hseparator =>
      rwa [containers_of_list hlist] at hclosed
  | closeList _ outer opened items _ _ hlist htoken hcomplete =>
      rw [containers_of_list hlist] at hclosed
      simpa [complete_containers hcomplete, Node.containers, List.forall_mem_append, or_imp,
        forall_and] using hclosed

/-- A reading closes every container. -/
theorem reads_closed {pos : Position} {tree : Body} {lexemes : List Lexeme}
    (h : Reads pos tree state lexemes)
    (hclosed : ∀ container ∈ state.containers, container.close.isSome) :
    ∀ container ∈ tree.containers, container.close.isSome := by
  induction h with
  | finish state hopen hfinish =>
      unfold State.finish at hfinish
      split at hfinish
      all_goals cases hfinish
      all_goals simpa [State.containers, containersAround] using hclosed
  | step state lexeme next rest htaken hrest ih => exact ih (taken_closed htaken hclosed)

/-- Every container of a document is closed, since at first there is none. -/
theorem reads_initial_closed {pos : Position} {tree : Body} {lexemes : List Lexeme}
    (h : Reads pos tree .initial lexemes) :
    ∀ container ∈ tree.containers, container.close.isSome := by
  refine reads_closed h ?_
  simp [State.initial, State.containers, containersAround, body_containers, Body.empty,
    entriesContainers]

end Reader

/-- The parts of a document are the lexemes of its text other than line feeds, commas and equals
signs, each once, with their places and what they spell, and every container is closed. -/
theorem read_document_items (text : Text) (tree : Body)
    (hmatched : ∀ lexeme ∈ Lexeme.tokenize text, lexeme.token ≠ none)
    (hread : readDocument text = .ok tree) :
    tree.items.Perm (Lexeme.items (Lexeme.tokenize text)) ∧
      ∀ container ∈ tree.containers, container.close.isSome := by
  have hreads : Reader.Reads (Lexeme.endPosition text) tree Reader.State.initial
      (Lexeme.tokenize text) := Reader.reads_of_read rfl hmatched hread
  exact ⟨Reader.reads_items hreads, Reader.reads_initial_closed hreads⟩

/-- Comments in every place: inner documentation, above and after an entry, among the elements of a
list and after them, and after the last entry of an object. -/
theorem read_document_items_comments :
    let text : Text :=
      "//! a\n// b\nk = [//! c\n1, // d\n2 // e\n] // f\no = \x7bx = 'y' // g\n// h\n\x7d".toList
    ∃ tree, readDocument text = .ok tree ∧
      (∀ lexeme ∈ Lexeme.tokenize text, lexeme.token ≠ none) ∧
      tree.items.Perm (Lexeme.items (Lexeme.tokenize text)) ∧
      ∀ container ∈ tree.containers, container.close.isSome :=
  have hmatched : _ := by decide +kernel
  (exists_of_is_ok (by decide +kernel)).imp fun tree hread =>
    ⟨hread, hmatched, read_document_items _ tree hmatched hread⟩

end Highlighter
