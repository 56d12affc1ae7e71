import Highlighter.Proofs.Grammar

/-!
# What one step of the reader can do

The states of the reader overlap in what they take: a body may end both where an entry may start and
where one has just been read, a list likewise, and a value starts an element as it follows an equals
sign. `State.body?`, `State.list?` and `State.context?` are these views of a state, and `Taken` says
through them all that a step can do with a token. `taken_of_step` is the one case split over the
reader; what a step keeps is shown from `Taken`.
-/

namespace Highlighter.Reader

open Grammar (IsSeparator keyOf?)

/-- The document that the reader makes of lexemes from a state on, when the input ends at the given
place. -/
def State.read (state : State) (lexemes : List Lexeme) (pos : Position) :
    Except SyntaxError Body :=
  match state.run lexemes with
  | .ok last => last.finish pos
  | .error error => .error error

/-- Reading a first lexeme is a step and then reading the others. -/
theorem read_cons (state : State) (lexeme : Lexeme) (rest : List Lexeme) (pos : Position) :
    state.read (lexeme :: rest) pos = (state.step lexeme).bind (·.read rest pos) := by
  cases hstep : state.step lexeme with
  | error error => simp [State.read, State.run, hstep, Except.bind]
  | ok next => simp [State.read, State.run, hstep, Except.bind]

/-- Lexemes are taken if the first is taken in a step and the others are from there on. -/
theorem run_cons_iff {state last : State} {lexeme : Lexeme} {rest : List Lexeme} :
    state.run (lexeme :: rest) = .ok last ↔
      ∃ next, state.step lexeme = .ok next ∧ next.run rest = .ok last := by
  rw [State.run]
  cases state.step lexeme with
  | error error => simp
  | ok next => simp

/-- The body that may end in a state, with the braces around it. -/
def State.body? : State → Option (Option Braces × Body)
  | .item braces body => some (braces, body)
  | .entryEnd braces body entry => some (braces, body.push entry)
  | _ => none

/-- The list that may end in a state: what is around it, where it was opened, what is in it. -/
def State.list? : State → Option (Context × Position × Items)
  | .element outer opened items => some (outer, opened, items)
  | .elementEnd outer opened items _ => some (outer, opened, items)
  | _ => none

/-- The context of a value that may start in a state. -/
def State.context? : State → Option Context
  | .value context => some context
  | .element outer opened items => some (.element outer opened (settleItems items))
  | _ => none

/-- The scalar that a lexeme is. -/
def scalarOf? (lexeme : Lexeme) : Option Scalar :=
  match lexeme.token with
  | some .string => some (.string (Quoted.unquote lexeme.text))
  | some .number => some (.number (Binary64.ofNumeral lexeme.text))
  | some (.bool value) => some (.bool value)
  | some .null => some .null
  | _ => none

/-- `Taken state lexeme next` says that a token takes the reader from one state to the next. -/
inductive Taken : State → Lexeme → State → Prop where
  | separator (state braces body lexeme) :
      state.body? = some (braces, body) → IsSeparator lexeme →
      Taken state lexeme (.item braces body)
  | comment (braces body lexeme) :
      lexeme.token = some .comment →
      Taken (.item braces body) lexeme (.item braces (noteBody body (commentOf lexeme)))
  | key (braces body lexeme key) :
      keyOf? lexeme = some key →
      Taken (.item braces body) lexeme (.equals braces body key lexeme.pos)
  | equals (braces body key keyPos lexeme) :
      lexeme.token = some .equals →
      Taken (.equals braces body key keyPos) lexeme
        (.value (entryContext braces body key keyPos))
  | scalar (state context lexeme value next) :
      state.context? = some context → scalarOf? lexeme = some value →
      context.complete (.scalar value lexeme.pos.toSource) = .ok next → Taken state lexeme next
  | openObject (state context lexeme) :
      state.context? = some context → lexeme.token = some .openBrace →
      Taken state lexeme (.item (some ⟨context, lexeme.pos⟩) .empty)
  | openList (state context lexeme) :
      state.context? = some context → lexeme.token = some .openBracket →
      Taken state lexeme (.element context lexeme.pos {})
  | closeObject (state braces body lexeme next) :
      state.body? = some (some braces, body) → lexeme.token = some .closeBrace →
      braces.outer.complete (.object body braces.opened.toSource (some lexeme.pos.toSource)) =
        .ok next →
      Taken state lexeme next
  | entryComment (braces body entry lexeme) :
      entry.trailing = none → lexeme.token = some .comment →
      Taken (.entryEnd braces body entry) lexeme
        (.entryEnd braces body { entry with trailing := some (commentOf lexeme) })
  | listSeparator (state outer opened items lexeme) :
      state.list? = some (outer, opened, items) → IsSeparator lexeme →
      Taken state lexeme (.element outer opened items)
  | listComment (outer opened items lexeme) :
      lexeme.token = some .comment →
      Taken (.element outer opened items) lexeme
        (.element outer opened (noteItems items (commentOf lexeme)))
  | elementComment (outer opened items lexeme) :
      lexeme.token = some .comment →
      Taken (.elementEnd outer opened items false) lexeme
        (.elementEnd outer opened (pushItem items (.comment (commentOf lexeme))) true)
  | closeList (state outer opened items lexeme next) :
      state.list? = some (outer, opened, items) → lexeme.token = some .closeBracket →
      outer.complete (.list items opened.toSource (some lexeme.pos.toSource)) = .ok next →
      Taken state lexeme next

/-- Whether the document has not been ended. -/
def State.isOpen : State → Bool
  | .stopped _ => false
  | _ => true

/-- `Reads pos tree state lexemes` says that tokens, and then the end of the input at `pos`, take
the reader from a state to a document. -/
inductive Reads (pos : Position) (tree : Body) : State → List Lexeme → Prop where
  | finish (state) :
      state.isOpen = true → state.finish pos = .ok tree → Reads pos tree state []
  | step (state lexeme next rest) :
      Taken state lexeme next → Reads pos tree next rest → Reads pos tree state (lexeme :: rest)

variable {state next : State} {lexeme : Lexeme}

/-- A lexeme that starts a value is a scalar or opens a container. -/
theorem taken_of_read_value {context : Context} (hcontext : state.context? = some context)
    (h : readValue context lexeme = .ok next) : Taken state lexeme next := by
  unfold readValue at h
  split at h
  · next htoken => exact .scalar _ _ _ _ _ hcontext (by simp [scalarOf?, htoken]) h
  · next htoken => exact .scalar _ _ _ _ _ hcontext (by simp [scalarOf?, htoken]) h
  · next htoken => exact .scalar _ _ _ _ _ hcontext (by simp [scalarOf?, htoken]) h
  · next htoken => exact .scalar _ _ _ _ _ hcontext (by simp [scalarOf?, htoken]) h
  · next htoken =>
      cases h
      exact .openObject _ _ _ hcontext htoken
  · next htoken =>
      cases h
      exact .openList _ _ _ hcontext htoken
  · cases h

/-- A token that ends a body closes its object. -/
theorem taken_of_end_body {braces : Option Braces} {body : Body} {instead : Expectation}
    (hbody : state.body? = some (braces, body)) (hmatched : lexeme.token ≠ none)
    (h : endBody braces body instead lexeme = .ok next) : Taken state lexeme next := by
  unfold endBody at h
  split at h
  · next htoken => exact .closeObject _ _ _ _ _ hbody htoken h
  · cases h
  · next htoken => exact absurd htoken hmatched
  · cases h

/-- A token that ends a list closes it. -/
theorem taken_of_close_list {outer : Context} {opened : Position} {items : Items}
    (hlist : state.list? = some (outer, opened, items)) (htoken : lexeme.token = some .closeBracket)
    (h : closeList outer opened items lexeme = .ok next) : Taken state lexeme next :=
  .closeList _ _ _ _ _ _ hlist htoken h

/-- Every step of the reader with a token is one of those that `Taken` lists. -/
theorem taken_of_step (hopen : state.isOpen = true) (hmatched : lexeme.token ≠ none)
    (h : state.step lexeme = .ok next) : Taken state lexeme next := by
  -- One case a state; a branch of its step that succeeds is one constructor.
  cases state with
  | item braces body =>
      simp only [State.step, readItem] at h
      split at h
      · next htoken =>
          cases h
          exact .separator _ _ _ _ rfl (.inl htoken)
      · next htoken =>
          cases h
          exact .separator _ _ _ _ rfl (.inr htoken)
      · next htoken =>
          cases h
          exact .comment _ _ _ htoken
      · next htoken =>
          cases h
          exact .key _ _ _ _ (by simp [keyOf?, htoken])
      · next htoken =>
          cases h
          exact .key _ _ _ _ (by simp [keyOf?, htoken])
      · exact taken_of_end_body rfl hmatched h
  | equals braces body key keyPos =>
      simp only [State.step] at h
      split at h
      · next htoken =>
          cases h
          exact .equals _ _ _ _ _ htoken
      · cases h
  | value context => exact taken_of_read_value rfl h
  | entryEnd braces body entry =>
      simp only [State.step, readEntryEnd] at h
      split at h
      · next htoken =>
          cases h
          exact .separator _ _ _ _ rfl (.inl htoken)
      · next htoken =>
          cases h
          exact .separator _ _ _ _ rfl (.inr htoken)
      · next htoken =>
          split at h
          · next htrailing =>
              cases h
              exact .entryComment _ _ _ _ (Option.isNone_iff_eq_none.1 htrailing) htoken
          · cases h
      · exact taken_of_end_body rfl hmatched h
  | element outer opened items =>
      simp only [State.step, readElement] at h
      split at h
      · next htoken =>
          cases h
          exact .listSeparator _ _ _ _ _ rfl (.inl htoken)
      · next htoken =>
          cases h
          exact .listSeparator _ _ _ _ _ rfl (.inr htoken)
      · next htoken =>
          cases h
          exact .listComment _ _ _ _ htoken
      · next htoken => exact taken_of_close_list rfl htoken h
      · exact taken_of_read_value rfl h
  | elementEnd outer opened items commented =>
      simp only [State.step, readElementEnd] at h
      split at h
      · next htoken =>
          cases h
          exact .listSeparator _ _ _ _ _ rfl (.inl htoken)
      · next htoken =>
          cases h
          exact .listSeparator _ _ _ _ _ rfl (.inr htoken)
      · next htoken => exact taken_of_close_list rfl htoken h
      · next htoken =>
          split at h
          · cases h
          · next hcommented =>
              cases h
              rw [Bool.not_eq_true] at hcommented
              subst hcommented
              exact .elementComment _ _ _ _ htoken
      · cases h
  | stopped body =>
      -- Only a lexeme without a token stops the reader.
      cases hopen

/-- What a complete value leads to: the end of its entry, whose key is new, or of its element. -/
theorem complete_cases {context : Context} {value : Node} (h : context.complete value = .ok next) :
    (∃ braces body key keyPos, context = entryContext braces body key keyPos ∧
      next = .entryEnd braces { body with trailing := [] }
        { key, value, leading := body.trailing, pos := keyPos.toSource }) ∨
    ∃ outer opened items, context = .element outer opened items ∧
      next = .elementEnd outer opened (pushItem items value) false := by
  cases context with
  | top body key keyPos =>
      simp only [Context.complete, completeEntry] at h
      split at h
      · cases h
      · cases h
        exact .inl ⟨none, body, key, keyPos, rfl, rfl⟩
  | member outer opened body key keyPos =>
      simp only [Context.complete, completeEntry] at h
      split at h
      · cases h
      · cases h
        exact .inl ⟨some ⟨outer, opened⟩, body, key, keyPos, rfl, rfl⟩
  | element outer opened items =>
      cases h
      exact .inr ⟨outer, opened, items, rfl, rfl⟩

/-- A token leaves the document open. -/
theorem taken_open (h : Taken state lexeme next) : next.isOpen = true := by
  cases h with
  | scalar _ _ _ _ _ _ _ hcomplete | closeObject _ _ _ _ _ _ _ hcomplete
  | closeList _ _ _ _ _ _ _ _ hcomplete =>
      obtain ⟨_, _, _, _, _, rfl⟩ | ⟨_, _, _, _, rfl⟩ := complete_cases hcomplete <;> rfl
  | _ => rfl

/-- Every successful reading of tokens is a sequence of steps. -/
theorem reads_of_read {lexemes : List Lexeme} {pos : Position} {tree : Body}
    (hopen : state.isOpen = true) (hmatched : ∀ lexeme ∈ lexemes, lexeme.token ≠ none)
    (h : state.read lexemes pos = .ok tree) : Reads pos tree state lexemes := by
  induction lexemes generalizing state with
  | nil => exact .finish _ hopen h
  | cons lexeme rest ih =>
      obtain ⟨hlexeme, hrest⟩ := List.forall_mem_cons.1 hmatched
      rw [read_cons] at h
      cases hstep : state.step lexeme with
      | error error => simp [hstep, Except.bind] at h
      | ok next =>
          have htaken := taken_of_step hopen hlexeme hstep
          rw [hstep] at h
          exact .step _ _ _ _ htaken (ih (taken_open htaken) hrest h)

end Highlighter.Reader

namespace Highlighter

/-- A text is read as a document when evaluation says so. -/
theorem exists_of_is_ok {result : Except SyntaxError Body} (h : result.isOk = true) :
    ∃ tree, result = .ok tree := by
  cases result with
  | error error => cases h
  | ok tree => exact ⟨tree, rfl⟩

end Highlighter
