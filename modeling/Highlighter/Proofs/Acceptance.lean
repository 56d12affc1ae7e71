import Highlighter.Proofs.Steps

/-!
# What the reader accepts

`State.Awaits` says of each state of the reader which lexemes still complete a document, in terms of
the grammar alone. One step of the reader keeps it exactly: lexemes are awaited before a step if and
only if the step succeeds and the rest is awaited after it (`awaits_cons_iff`). So the reader
accepts the documents of the grammar and nothing else, as long as every lexeme is a token.

A lexeme without a token is no part of a document. Where a document could have ended, the reader
takes it for the end of the input and drops all that follows (`read_append_unmatched`). So a text
with such a lexeme is accepted if what stands before the first one is a document
(`read_document_ok_unmatched_iff`).
-/

namespace Highlighter

/-- The keys of the entries of a body. -/
def Body.keys (body : Body) : List Text :=
  body.entries.map (·.key)

namespace Reader

open Grammar (IsSeparator IsScalar IsNote Ends keyOf? Tail Enclosed ValueThen)

/-- A body whose entries have keys that differ from one another and from the known ones. -/
def FreshBody (known : List Text) (lexemes : List Lexeme) : Prop :=
  ∃ keys, Grammar.Body List.Nodup keys lexemes ∧ keys.Nodup ∧ keys.Disjoint known

/-- What may follow the value of an entry with the given key, up to the end of its body. -/
def EntryTail (known : List Text) (key : Text) (commented : Bool) : List Lexeme → Prop :=
  Tail commented (FreshBody (known ++ [key]))

/-- What may follow an element, up to the end of its list. -/
def ElementTail (commented : Bool) : List Lexeme → Prop :=
  Tail commented (Grammar.Elements List.Nodup)

/-- The lexemes that complete a document once the value in a context has been read. -/
def Context.Follows : Context → List Lexeme → Prop
  | .top body key _ => fun lexemes => key ∉ body.keys ∧ EntryTail body.keys key false lexemes
  | .member outer _ body key _ => fun lexemes =>
      key ∉ body.keys ∧
        Enclosed .closeBrace (EntryTail body.keys key false) outer.Follows lexemes
  | .element outer _ _ => Enclosed .closeBracket (ElementTail false) outer.Follows

/-- Lexemes that satisfy `inside` up to the end of a body: the closing brace with what follows the
object, or the end of the input. -/
def Within (braces : Option Braces) (inside : List Lexeme → Prop) : List Lexeme → Prop :=
  match braces with
  | none => inside
  | some braces => Enclosed .closeBrace inside braces.outer.Follows

/-- The lexemes that complete a document from a state on. -/
def State.Awaits : State → List Lexeme → Prop
  | .item braces body => Within braces (FreshBody body.keys)
  | .equals braces body key keyPos => fun lexemes =>
      ∃ equals rest, lexemes = equals :: rest ∧ equals.token = some .equals ∧
        ValueThen List.Nodup (entryContext braces body key keyPos).Follows rest
  | .value context => ValueThen List.Nodup context.Follows
  | .entryEnd braces body entry =>
      Within braces (EntryTail body.keys entry.key entry.trailing.isSome)
  | .element outer _ _ => Enclosed .closeBracket (Grammar.Elements List.Nodup) outer.Follows
  | .elementEnd outer _ _ commented => Enclosed .closeBracket (ElementTail commented) outer.Follows
  | .stopped _ => fun _ => True

@[simp] theorem keys_empty : Body.empty.keys = [] := rfl

@[simp] theorem keys_push (body : Body) (entry : Entry) :
    (body.push entry).keys = body.keys ++ [entry.key] := by
  simp [Body.keys, Body.push]

@[simp] theorem keys_note (body : Body) (comment : Comment) :
    (noteBody body comment).keys = body.keys := by
  unfold noteBody
  split <;> rfl

@[simp] theorem keys_without_trailing (body : Body) :
    ({ body with trailing := [] } : Body).keys = body.keys := rfl

theorem has_key_iff {body : Body} {key : Text} : body.hasKey key = true ↔ key ∈ body.keys := by
  simp [Body.hasKey, Body.keys]

variable {known : List Text} {lexeme : Lexeme} {rest : List Lexeme}

/-- A body without known keys is a document. -/
theorem fresh_body_nil : FreshBody [] = Grammar.Document := by
  funext lexemes
  simp [FreshBody, Grammar.Document]

/-- A body may always end. -/
theorem fresh_body_end : FreshBody known [] :=
  ⟨[], .nil, List.nodup_nil, by simp⟩

/-- A body starts with a separator, a comment or an entry whose key is new. -/
theorem fresh_body_cons_iff :
    FreshBody known (lexeme :: rest) ↔
      ((IsSeparator lexeme ∨ lexeme.token = some .comment) ∧ FreshBody known rest) ∨
        ∃ key equals follow, keyOf? lexeme = some key ∧ rest = equals :: follow ∧
          equals.token = some .equals ∧ key ∉ known ∧
          ValueThen List.Nodup (EntryTail known key false) follow := by
  constructor
  · rintro ⟨keys, hbody, hnodup, hdisjoint⟩
    rw [Grammar.body_cons_iff] at hbody
    obtain ⟨hlexeme, hrest⟩ | ⟨key, others, equals, follow, hkey, rfl, rfl, hequals, value, _, rfl,
      hvalue, note, after, rfl, hnote, hcommented, hends, hafter⟩ := hbody
    · exact .inl ⟨hlexeme, keys, hrest, hnodup, hdisjoint⟩
    · -- Keys that differ: the first is new, and to the others it is one of those known.
      rw [List.nodup_cons] at hnodup
      rw [List.disjoint_cons_left] at hdisjoint
      refine .inr ⟨key, equals, _, hkey, rfl, hequals, hdisjoint.1, value, _, rfl, hvalue, note,
        after, rfl, hnote, hcommented, hends, others, hafter, hnodup.2, ?_⟩
      exact List.disjoint_append_right.2 ⟨hdisjoint.2, by simpa using hnodup.1⟩
  · rintro (⟨hlexeme, keys, hrest, hfresh⟩ | ⟨key, equals, _, hkey, rfl, hequals, hnew, value, _,
      rfl, hvalue, note, after, rfl, hnote, hcommented, hends, others, hafter, hnodup, hdisjoint⟩)
    · exact ⟨keys, Grammar.body_cons_iff.2 (.inl ⟨hlexeme, hrest⟩), hfresh⟩
    · obtain ⟨hknown, hsingle⟩ := List.disjoint_append_right.1 hdisjoint
      refine ⟨key :: others, Grammar.body_cons_iff.2 (.inr ⟨key, others, equals, _, hkey, rfl, rfl,
        hequals, value, _, rfl, hvalue, note, after, rfl, hnote, hcommented, hends, hafter⟩), ?_,
        ?_⟩
      · exact List.nodup_cons.2 ⟨by simpa using hsingle, hnodup⟩
      · exact List.disjoint_cons_left.2 ⟨hnew, hknown⟩

variable {braces : Option Braces} {body : Body} {key : Text} {keyPos : Position}

/-- A body with its end, from the first lexeme on. -/
theorem within_body_cons_iff :
    Within braces (FreshBody body.keys) (lexeme :: rest) ↔
      (∃ closing, braces = some closing ∧ lexeme.token = some .closeBrace ∧
        closing.outer.Follows rest) ∨
      ((IsSeparator lexeme ∨ lexeme.token = some .comment) ∧
        Within braces (FreshBody body.keys) rest) ∨
      ∃ key, keyOf? lexeme = some key ∧
        (State.equals braces body key lexeme.pos).Awaits rest := by
  cases braces with
  | none =>
      simp only [Within, fresh_body_cons_iff, State.Awaits, entryContext, Context.Follows]
      constructor
      · rintro (hitem | ⟨key, equals, follow, hkey, rfl, hequals, hnew, value, after, rfl, hvalue,
          hafter⟩)
        · exact .inr (.inl hitem)
        · exact .inr (.inr ⟨key, hkey, equals, _, rfl, hequals, value, after, rfl, hvalue, hnew,
            hafter⟩)
      · rintro (⟨_, hnone, -⟩ | hitem | ⟨key, hkey, equals, _, rfl, hequals, value, after, rfl,
          hvalue, hnew, hafter⟩)
        · cases hnone
        · exact .inl hitem
        · exact .inr ⟨key, equals, _, hkey, rfl, hequals, hnew, value, after, rfl, hvalue, hafter⟩
  | some closing =>
      simp only [Within, Grammar.enclosed_cons_iff, State.Awaits, entryContext, Context.Follows]
      constructor
      · rintro (⟨-, hlast, hfollows⟩ | ⟨inner, last, after, rfl, hinner, hlast, hfollows⟩)
        · exact .inl ⟨closing, rfl, hlast, hfollows⟩
        · obtain ⟨hitem, hfresh⟩ | ⟨key, equals, follow, hkey, rfl, hequals, hnew, value, tail, rfl,
            hvalue, htail⟩ := fresh_body_cons_iff.1 hinner
          · exact .inr (.inl ⟨hitem, inner, last, after, rfl, hfresh, hlast, hfollows⟩)
          · exact .inr (.inr ⟨key, hkey, equals, _, rfl, hequals, value, tail ++ last :: after,
              by simp, hvalue, hnew, tail, last, after, rfl, htail, hlast, hfollows⟩)
      · rintro (⟨_, hsome, hlast, hfollows⟩ | ⟨hitem, inner, last, after, rfl, hfresh, hlast,
          hfollows⟩ | ⟨key, hkey, equals, _, rfl, hequals, value, _, rfl, hvalue, hnew, tail, last,
          after, rfl, htail, hlast, hfollows⟩)
        · cases hsome
          exact .inl ⟨fresh_body_end, hlast, hfollows⟩
        · exact .inr ⟨inner, last, after, rfl, fresh_body_cons_iff.2 (.inl ⟨hitem, hfresh⟩), hlast,
            hfollows⟩
        · exact .inr ⟨equals :: value ++ tail, last, after, by simp, fresh_body_cons_iff.2
            (.inr ⟨key, equals, _, hkey, rfl, hequals, hnew, value, tail, rfl, hvalue, htail⟩),
            hlast, hfollows⟩

/-- What follows the value of an entry is what is awaited once the entry is complete, and there is
nothing to await when its key is not new. -/
theorem complete_entry_iff {value : Node} :
    (∃ next, completeEntry braces body key keyPos value = .ok next ∧ next.Awaits rest) ↔
      key ∉ body.keys ∧ Within braces (EntryTail body.keys key false) rest := by
  by_cases hkey : key ∈ body.keys
  · simp [completeEntry, has_key_iff.2 hkey, hkey]
  · have hfresh : body.hasKey key = false := by
      rwa [← Bool.not_eq_true, has_key_iff]
    simp [completeEntry, hfresh, hkey, State.Awaits]

/-- What follows a value in a context is what is awaited once the value is complete. -/
theorem follows_iff (context : Context) (value : Node) :
    context.Follows rest ↔
      ∃ next, context.complete value = .ok next ∧ next.Awaits rest := by
  cases context with
  | top body key keyPos =>
      simp only [Context.complete, complete_entry_iff, Context.Follows, Within]
  | member outer opened body key keyPos =>
      simp only [Context.complete, complete_entry_iff, Context.Follows, Within]
  | element outer opened items =>
      simp [Context.complete, Context.Follows, State.Awaits]

/-- A value may start with a lexeme if and only if the reader takes it there. -/
theorem read_value_iff (context : Context) :
    ValueThen List.Nodup context.Follows (lexeme :: rest) ↔
      ∃ next, readValue context lexeme = .ok next ∧ next.Awaits rest := by
  rw [Grammar.value_then_cons_iff]
  unfold readValue
  split
  · next htoken => simpa [htoken, IsScalar] using follows_iff context _
  · next htoken => simpa [htoken, IsScalar] using follows_iff context _
  · next htoken => simpa [htoken, IsScalar] using follows_iff context _
  · next htoken => simpa [htoken, IsScalar] using follows_iff context _
  · next htoken =>
      simp only [htoken, IsScalar, State.Awaits, Within, reduceCtorEq, Option.some.injEq,
        exists_false, false_and, or_false, false_or, true_and, Except.ok.injEq, exists_eq_left',
        keys_empty, fresh_body_nil]
      rfl
  · next htoken => simp [htoken, IsScalar, State.Awaits]
  · next hstring hnumber hbool hnull hbrace hbracket => simp_all [IsScalar, unexpected]

/-- Where a body may end, a token ends it if and only if it is the closing brace of an object. -/
theorem end_body_iff {instead : Expectation} (hmatched : lexeme.token ≠ none) :
    (∃ next, endBody braces body instead lexeme = .ok next ∧ next.Awaits rest) ↔
      ∃ closing, braces = some closing ∧ lexeme.token = some .closeBrace ∧
        closing.outer.Follows rest := by
  unfold endBody
  split
  · next closing htoken => simp [htoken, closeObject, ← follows_iff]
  · next htoken => exact absurd htoken hmatched
  · next htoken => exact absurd htoken hmatched
  · next hclosing _ _ =>
      simp only [unexpected, reduceCtorEq, false_and, exists_false, false_iff, not_exists]
      rintro closing ⟨rfl, htoken, -⟩
      exact hclosing closing htoken rfl

/-- Where an entry may start, a token is awaited if and only if the reader takes it. -/
theorem read_item_iff (hmatched : lexeme.token ≠ none) :
    Within braces (FreshBody body.keys) (lexeme :: rest) ↔
      ∃ next, readItem braces body lexeme = .ok next ∧ next.Awaits rest := by
  rw [within_body_cons_iff]
  unfold readItem
  split
  · next htoken => simp [htoken, IsSeparator, keyOf?, State.Awaits]
  · next htoken => simp [htoken, IsSeparator, keyOf?, State.Awaits]
  · next htoken => simp [htoken, IsSeparator, keyOf?, State.Awaits]
  · next htoken => simp [htoken, IsSeparator, keyOf?]
  · next htoken => simp [htoken, IsSeparator, keyOf?]
  · next hnewline hcomma hcomment hident hstring =>
      rw [end_body_iff hmatched]
      have hkey : keyOf? lexeme = none := by
        unfold keyOf?
        split
        · next htoken => exact absurd htoken hident
        · next htoken => exact absurd htoken hstring
        · rfl
      simp_all [IsSeparator]

/-- A separator between entries leaves the body as it is. -/
theorem fresh_body_separator (hseparator : IsSeparator lexeme) :
    FreshBody known (lexeme :: rest) ↔ FreshBody known rest := by
  have hkey : keyOf? lexeme = none := by
    obtain htoken | htoken := hseparator <;> simp [keyOf?, htoken]
  simp [fresh_body_cons_iff, hseparator, hkey]

/-- What follows the value of an entry, with the end of the body, from the first lexeme on. -/
theorem within_entry_tail_cons_iff {commented : Bool} :
    Within braces (EntryTail known key commented) (lexeme :: rest) ↔
      (∃ closing, braces = some closing ∧ lexeme.token = some .closeBrace ∧
        closing.outer.Follows rest) ∨
      (IsSeparator lexeme ∧ Within braces (FreshBody (known ++ [key])) rest) ∨
      (commented = false ∧ lexeme.token = some .comment ∧
        Within braces (EntryTail known key true) rest) := by
  have htail : ∀ inner, EntryTail known key commented (lexeme :: inner) ↔
      (IsSeparator lexeme ∧ FreshBody (known ++ [key]) inner) ∨
        (commented = false ∧ lexeme.token = some .comment ∧ EntryTail known key true inner) := by
    intro inner
    rw [EntryTail, Grammar.tail_cons_iff, and_congr_right fresh_body_separator]
    rfl
  cases braces with
  | none => simp [Within, htail]
  | some closing =>
      have hend : EntryTail known key commented [] := Grammar.tail_nil_iff.2 fresh_body_end
      simp [Within, Grammar.enclosed_cons_iff, htail, hend, Grammar.enclosed_or_iff,
        Grammar.enclosed_and_iff]

/-- After the value of an entry, a token is awaited if and only if the reader takes it. -/
theorem read_entry_end_iff {entry : Entry} (hmatched : lexeme.token ≠ none) :
    Within braces (EntryTail body.keys entry.key entry.trailing.isSome) (lexeme :: rest) ↔
      ∃ next, readEntryEnd braces body entry lexeme = .ok next ∧ next.Awaits rest := by
  rw [within_entry_tail_cons_iff]
  unfold readEntryEnd
  generalize (if braces.isSome then Expectation.commaOrBrace else .commaOrNewline) = instead
  dsimp only
  split
  · next htoken => simp [htoken, IsSeparator, State.Awaits]
  · next htoken => simp [htoken, IsSeparator, State.Awaits]
  · next htoken =>
      cases htrailing : entry.trailing with
      | none => simp [htoken, IsSeparator, State.Awaits]
      | some comment => simp [htoken, IsSeparator, unexpected]
  · next hnewline hcomma hcomment =>
      rw [end_body_iff hmatched]
      simp_all [IsSeparator]

variable {outer : Context} {opened : Position} {items : Items}

/-- Where an element may start, a token is awaited if and only if the reader takes it. -/
theorem read_element_iff :
    Enclosed .closeBracket (Grammar.Elements List.Nodup) outer.Follows (lexeme :: rest) ↔
      ∃ next, readElement outer opened items lexeme = .ok next ∧ next.Awaits rest := by
  have hvalue : ValueThen List.Nodup (Enclosed .closeBracket (ElementTail false) outer.Follows)
      (lexeme :: rest) ↔ _ :=
    read_value_iff (.element outer opened (settleItems items))
  rw [Grammar.enclosed_elements_cons_iff]
  change _ ∨ _ ∨
    ValueThen List.Nodup (Enclosed .closeBracket (ElementTail false) outer.Follows) _ ↔ _
  rw [hvalue]
  unfold readElement
  split
  · next htoken => simp [htoken, IsSeparator, State.Awaits, readValue, unexpected]
  · next htoken => simp [htoken, IsSeparator, State.Awaits, readValue, unexpected]
  · next htoken => simp [htoken, IsSeparator, State.Awaits, readValue, unexpected]
  · next htoken => simp [htoken, IsSeparator, readValue, unexpected, closeList, ← follows_iff]
  · next hnewline hcomma hcomment hclosing => simp_all [IsSeparator]

/-- What follows an element, with the closing bracket, from the first lexeme on. -/
theorem enclosed_element_tail_cons_iff {commented : Bool} :
    Enclosed .closeBracket (ElementTail commented) outer.Follows (lexeme :: rest) ↔
      (lexeme.token = some .closeBracket ∧ outer.Follows rest) ∨
      (IsSeparator lexeme ∧
        Enclosed .closeBracket (Grammar.Elements List.Nodup) outer.Follows rest) ∨
      (commented = false ∧ lexeme.token = some .comment ∧
        Enclosed .closeBracket (ElementTail true) outer.Follows rest) := by
  have htail : ∀ inner, ElementTail commented (lexeme :: inner) ↔
      (IsSeparator lexeme ∧ Grammar.Elements List.Nodup inner) ∨
        (commented = false ∧ lexeme.token = some .comment ∧ ElementTail true inner) := by
    intro inner
    rw [ElementTail, Grammar.tail_cons_iff, and_congr_right Grammar.elements_separator]
    rfl
  have hend : ElementTail commented [] := Grammar.tail_nil_iff.2 .nil
  simp [Grammar.enclosed_cons_iff, htail, hend, Grammar.enclosed_or_iff, Grammar.enclosed_and_iff]

/-- After an element, a lexeme is awaited if and only if the reader takes it. -/
theorem read_element_end_iff {commented : Bool} :
    Enclosed .closeBracket (ElementTail commented) outer.Follows (lexeme :: rest) ↔
      ∃ next, readElementEnd outer opened items commented lexeme = .ok next ∧ next.Awaits rest := by
  rw [enclosed_element_tail_cons_iff]
  unfold readElementEnd
  split
  · next htoken => simp [htoken, IsSeparator, State.Awaits]
  · next htoken => simp [htoken, IsSeparator, State.Awaits]
  · next htoken => simp [htoken, IsSeparator, closeList, ← follows_iff]
  · next htoken =>
      cases commented with
      | false => simp [htoken, IsSeparator, State.Awaits]
      | true => simp [htoken, IsSeparator, unexpected]
  · next hnewline hcomma hclosing hcomment => simp_all [IsSeparator, unexpected]

/-- A token may stand next, with the given lexemes after it, if and only if the reader takes it and
awaits those lexemes then. -/
theorem awaits_cons_iff (state : State) (hmatched : lexeme.token ≠ none) :
    state.Awaits (lexeme :: rest) ↔
      ∃ next, state.step lexeme = .ok next ∧ next.Awaits rest := by
  cases state with
  | item braces body => exact read_item_iff hmatched
  | equals braces body key keyPos =>
      by_cases htoken : lexeme.token = some .equals
      · simp [State.step, State.Awaits, htoken]
      · simp [State.step, State.Awaits, htoken, unexpected]
  | value context => exact read_value_iff context
  | entryEnd braces body entry => exact read_entry_end_iff hmatched
  | element outer opened items => exact read_element_iff
  | elementEnd outer opened items commented => exact read_element_end_iff
  | stopped body => simp [State.step, State.Awaits]

/-- The input may end in a state if and only if nothing more is awaited. -/
theorem awaits_nil_iff (state : State) (pos : Position) :
    state.Awaits [] ↔ ∃ tree, state.finish pos = .ok tree := by
  match state with
  | .item none body => simp [State.Awaits, State.finish, Within, fresh_body_end]
  | .item (some _) body => simp [State.Awaits, State.finish, Within, Grammar.not_enclosed_nil]
  | .equals braces body key keyPos => simp [State.Awaits, State.finish]
  | .value context => simp [State.Awaits, State.finish, Grammar.not_value_then_nil]
  | .entryEnd none body entry =>
      simp [State.Awaits, State.finish, Within, EntryTail, Grammar.tail_nil_iff, fresh_body_end]
  | .entryEnd (some _) body entry =>
      simp [State.Awaits, State.finish, Within, Grammar.not_enclosed_nil]
  | .element outer opened items => simp [State.Awaits, State.finish, Grammar.not_enclosed_nil]
  | .elementEnd outer opened items commented =>
      simp [State.Awaits, State.finish, Grammar.not_enclosed_nil]
  | .stopped body => simp [State.Awaits, State.finish]

/-- From any state, the reader makes a document of tokens if and only if they are awaited. -/
theorem read_ok_iff (state : State) (lexemes : List Lexeme) (pos : Position)
    (hmatched : ∀ lexeme ∈ lexemes, lexeme.token ≠ none) :
    (∃ tree, state.read lexemes pos = .ok tree) ↔ state.Awaits lexemes := by
  induction lexemes generalizing state with
  | nil => exact (awaits_nil_iff state pos).symm
  | cons lexeme rest ih =>
      obtain ⟨hlexeme, hrest⟩ := List.forall_mem_cons.1 hmatched
      rw [awaits_cons_iff state hlexeme]
      cases hstep : state.step lexeme with
      | error error => simp [State.read, State.run, hstep]
      | ok next => simpa [State.read, State.run, hstep] using ih next hrest

/-- A document that has ended stays as it is. -/
theorem read_stopped (body : Body) (lexemes : List Lexeme) (pos : Position) :
    (State.stopped body).read lexemes pos = .ok body := by
  induction lexemes with
  | nil => rfl
  | cons lexeme rest ih => rw [read_cons, State.step, Except.bind, ih]

/-- A lexeme without a token is read as the end of the input, whatever stands after it: it ends the
document where a document may end, and nowhere else. -/
theorem read_unmatched (state : State) {bad : Lexeme} (hbad : bad.token = none)
    (after : List Lexeme) (pos : Position) (tree : Body) :
    state.read (bad :: after) pos = .ok tree ↔ state.finish bad.pos = .ok tree := by
  rw [read_cons]
  -- Only a body without braces may end here; it stops the reader, which takes all that follows.
  match state with
  | .item none body =>
      simp [State.step, readItem, endBody, hbad, Except.bind, read_stopped, State.finish]
  | .item (some _) body =>
      simp [State.step, readItem, endBody, hbad, Except.bind, unexpected, State.finish]
  | .equals braces body key keyPos =>
      simp [State.step, hbad, Except.bind, unexpected, State.finish]
  | .value context => simp [State.step, readValue, hbad, Except.bind, unexpected, State.finish]
  | .entryEnd none body entry =>
      simp [State.step, readEntryEnd, endBody, hbad, Except.bind, read_stopped, State.finish]
  | .entryEnd (some _) body entry =>
      simp [State.step, readEntryEnd, endBody, hbad, Except.bind, unexpected, State.finish]
  | .element outer opened items =>
      simp [State.step, readElement, readValue, hbad, Except.bind, unexpected, State.finish]
  | .elementEnd outer opened items commented =>
      simp [State.step, readElementEnd, hbad, Except.bind, unexpected, State.finish]
  | .stopped body => simp [State.step, Except.bind, read_stopped, State.finish]

/-- Nothing from a lexeme without a token on has a part in the document. -/
theorem read_append_unmatched (state : State) (before : List Lexeme) {bad : Lexeme}
    (hbad : bad.token = none) (after : List Lexeme) (pos : Position) (tree : Body) :
    state.read (before ++ bad :: after) pos = .ok tree ↔ state.read before bad.pos = .ok tree := by
  induction before generalizing state with
  | nil => exact read_unmatched state hbad after pos tree
  | cons lexeme rest ih =>
      rw [List.cons_append, read_cons, read_cons]
      cases state.step lexeme with
      | error error => simp [Except.bind]
      | ok next => exact ih next

/-- Before the first lexeme, a document is awaited. -/
theorem initial_awaits_iff (lexemes : List Lexeme) :
    State.initial.Awaits lexemes ↔ Grammar.Document lexemes := by
  rw [← fresh_body_nil]
  rfl

end Reader

open Reader (State)

/-- A text of tokens is read as a document if and only if its lexemes are a document of the
grammar. -/
theorem read_document_ok_iff_document (text : Text)
    (hmatched : ∀ lexeme ∈ Lexeme.tokenize text, lexeme.token ≠ none) :
    (∃ tree, readDocument text = .ok tree) ↔ Grammar.Document (Lexeme.tokenize text) := by
  rw [← Reader.initial_awaits_iff]
  exact Reader.read_ok_iff State.initial _ _ hmatched

/-- Nested containers, a quoted key, a doubled and a trailing separator, and comments. -/
theorem read_document_ok_iff_document_nested :
    let text := "o = \x7b'k' = [1,, true // c\n],\x7d\n// d".toList
    (∀ lexeme ∈ Lexeme.tokenize text, lexeme.token ≠ none) ∧
      Grammar.Document (Lexeme.tokenize text) :=
  have hmatched : _ := by decide +kernel
  ⟨hmatched, (read_document_ok_iff_document _ hmatched).1 (exists_of_is_ok (by decide +kernel))⟩

/-- Lexemes of which one has no token are cut at the first of them. -/
theorem exists_first_unmatched {lexemes : List Lexeme}
    (hunmatched : ∃ lexeme ∈ lexemes, lexeme.token = none) :
    ∃ before bad after, lexemes = before ++ bad :: after ∧
      (∀ lexeme ∈ before, lexeme.token ≠ none) ∧ bad.token = none := by
  obtain ⟨lexeme, hlexeme, hnone⟩ := hunmatched
  obtain ⟨bad, hfind⟩ := Option.isSome_iff_exists.1
    (List.find?_isSome (p := fun lexeme : Lexeme => lexeme.token.isNone).2
      ⟨lexeme, hlexeme, by simp [hnone]⟩)
  obtain ⟨hbad, before, after, hsplit, hbefore⟩ := List.find?_eq_some_iff_append.1 hfind
  refine ⟨before, bad, after, hsplit, ?_, Option.isNone_iff_eq_none.1 hbad⟩
  simpa [Option.isSome_iff_ne_none] using hbefore

/-- A text is read as a document if the lexemes before one without a token are, and as the same. -/
theorem read_document_unmatched {text : Text} {before after : List Lexeme} {bad : Lexeme}
    (hsplit : Lexeme.tokenize text = before ++ bad :: after) (hbad : bad.token = none)
    (tree : Body) :
    readDocument text = .ok tree ↔ State.initial.read before bad.pos = .ok tree := by
  rw [← Reader.read_append_unmatched State.initial before hbad after (Lexeme.endPosition text),
    ← hsplit]
  rfl

/-- A text with a lexeme without a token is read as a document if and only if the lexemes before the
first of them are one. That document is the answer, and the rest of the text has no part in it. -/
theorem read_document_ok_unmatched_iff (text : Text) :
    (((∃ tree, readDocument text = .ok tree) ∧
        ∃ lexeme ∈ Lexeme.tokenize text, lexeme.token = none) ↔
      ∃ before bad after, Lexeme.tokenize text = before ++ bad :: after ∧
        (∀ lexeme ∈ before, lexeme.token ≠ none) ∧ bad.token = none ∧
        Grammar.Document before) ∧
    ∀ before bad after, Lexeme.tokenize text = before ++ bad :: after → bad.token = none →
      ∀ tree, readDocument text = .ok tree ↔ State.initial.read before bad.pos = .ok tree := by
  refine ⟨⟨?_, ?_⟩, fun _ _ _ hsplit hbad tree => read_document_unmatched hsplit hbad tree⟩
  · rintro ⟨⟨tree, htree⟩, hunmatched⟩
    obtain ⟨before, bad, after, hsplit, hmatched, hbad⟩ := exists_first_unmatched hunmatched
    refine ⟨before, bad, after, hsplit, hmatched, hbad, ?_⟩
    rw [← Reader.initial_awaits_iff, ← Reader.read_ok_iff _ _ bad.pos hmatched]
    exact ⟨tree, (read_document_unmatched hsplit hbad tree).1 htree⟩
  · rintro ⟨before, bad, after, hsplit, hmatched, hbad, hdocument⟩
    rw [← Reader.initial_awaits_iff, ← Reader.read_ok_iff _ _ bad.pos hmatched] at hdocument
    obtain ⟨tree, htree⟩ := hdocument
    refine ⟨⟨tree, (read_document_unmatched hsplit hbad tree).2 htree⟩, bad, ?_, hbad⟩
    simp [hsplit]

/-- A stray character where an entry may start is no error. -/
theorem stray_character_read :
    (∃ tree, readDocument "@".toList = .ok tree) ∧
      ∃ lexeme ∈ Lexeme.tokenize "@".toList, lexeme.token = none :=
  ⟨⟨_, rfl⟩, by decide⟩

end Highlighter
