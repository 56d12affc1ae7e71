import Highlighter.Proofs.ErrorPlaces

/-!
# Where a text leaves the grammar

Apart from its keys, what may follow in a state of the reader depends on the containers that are
open, `State.frames`, and on what the innermost of them asks for, `State.Next`. `State.Admits` puts
both together. A step of the reader with a token keeps it exactly, and a token that is refused for
itself, not for a key, is not admitted, whatever follows it (`step_agrees`). In every state there
are lexemes that complete the document (`exists_admits`). So lexemes that are read begin a document
if keys are left aside, and with the lexeme that is reported as unexpected they do not
(`error_leaves_grammar`).
-/

namespace Highlighter

namespace Grammar

/-- A body, whatever its keys and those of the objects inside are. -/
def AnyBody (lexemes : List Lexeme) : Prop :=
  ∃ keys, Body (fun _ => True) keys lexemes

/-- The inside of a list, whatever the keys of the objects inside are. -/
def AnyElements : List Lexeme → Prop :=
  Elements fun _ => True

/-- The lexemes begin a document if keys are left aside. -/
def Viable (lexemes : List Lexeme) : Prop :=
  ∃ rest, AnyBody (lexemes ++ rest)

/-- A container that is open. -/
inductive Frame where
  | object
  | list
  deriving DecidableEq

/-- The delimiter that closes a container. -/
def Frame.closing : Frame → Token
  | .object => .closeBrace
  | .list => .closeBracket

/-- What stands in the innermost of the open containers, or in the document. -/
def Inside : List Frame → List Lexeme → Prop
  | .list :: _ => AnyElements
  | _ => AnyBody

/-- Lexemes that satisfy `inside` up to the end of the innermost of the open containers, and then
what completes the others and the document. -/
def Through : List Frame → (List Lexeme → Prop) → List Lexeme → Prop
  | [], inside => inside
  | frame :: outer, inside =>
      Enclosed frame.closing inside (Through outer (Tail false (Inside outer)))

/-- A lexeme closes the innermost of the open containers, and the rest completes the document. -/
def Closes (frames : List Frame) (lexeme : Lexeme) (rest : List Lexeme) : Prop :=
  ∃ frame outer, frames = frame :: outer ∧ lexeme.token = some frame.closing ∧
    Through outer (Tail false (Inside outer)) rest

/-- An equals sign, a value and what ends the entry. -/
def EntryRest (lexemes : List Lexeme) : Prop :=
  ∃ equals rest, lexemes = equals :: rest ∧ equals.token = some .equals ∧
    ValueThen (fun _ => True) (Tail false AnyBody) rest

variable {frames : List Frame} {inside other after : List Lexeme → Prop} {lexeme : Lexeme}
  {rest : List Lexeme} {commented : Bool}

/-- What is open may be closed at any time. -/
theorem inside_nil (frames : List Frame) : Inside frames [] := by
  cases frames with
  | nil => exact ⟨[], .nil⟩
  | cons frame outer =>
      cases frame with
      | object => exact ⟨[], .nil⟩
      | list => exact .nil

/-- A body starts with a separator, a comment or an entry. -/
theorem any_body_cons_iff :
    AnyBody (lexeme :: rest) ↔
      ((IsSeparator lexeme ∨ lexeme.token = some .comment) ∧ AnyBody rest) ∨
        (keyOf? lexeme).isSome = true ∧ EntryRest rest := by
  constructor
  · rintro ⟨keys, hbody⟩
    obtain ⟨hlexeme, hrest⟩ | ⟨key, others, equals, follow, hkey, -, rfl, hequals, value, _, rfl,
      hvalue, note, after, rfl, hnote, hcommented, hends, hafter⟩ := body_cons_iff.1 hbody
    · exact .inl ⟨hlexeme, keys, hrest⟩
    · exact .inr ⟨by simp [hkey], equals, _, rfl, hequals, value, _, rfl, hvalue, note, after, rfl,
        hnote, hcommented, hends, others, hafter⟩
  · rintro (⟨hlexeme, keys, hrest⟩ | ⟨hkey, equals, _, rfl, hequals, value, _, rfl, hvalue, note,
      after, rfl, hnote, hcommented, hends, others, hafter⟩)
    · exact ⟨keys, body_cons_iff.2 (.inl ⟨hlexeme, hrest⟩)⟩
    · obtain ⟨key, hkey⟩ := Option.isSome_iff_exists.1 hkey
      exact ⟨key :: others, body_cons_iff.2 (.inr ⟨key, others, equals, _, hkey, rfl, rfl, hequals,
        value, _, rfl, hvalue, note, after, rfl, hnote, hcommented, hends, hafter⟩)⟩

/-- A separator leaves what is open as it is. -/
theorem inside_separator (frames : List Frame) (hseparator : IsSeparator lexeme) :
    Inside frames (lexeme :: rest) ↔ Inside frames rest := by
  have hkey : keyOf? lexeme = none := by
    obtain htoken | htoken := hseparator <;> simp [keyOf?, htoken]
  have hbody : AnyBody (lexeme :: rest) ↔ AnyBody rest := by
    simp [any_body_cons_iff, hseparator, hkey]
  cases frames with
  | nil => exact hbody
  | cons frame outer =>
      cases frame with
      | object => exact hbody
      | list => exact elements_separator hseparator

/-- The first lexeme closes the innermost container or stands in it. -/
theorem through_cons_iff :
    Through frames inside (lexeme :: rest) ↔
      (inside [] ∧ Closes frames lexeme rest) ∨
        Through frames (fun inner => inside (lexeme :: inner)) rest := by
  cases frames with
  | nil => simp [Through, Closes]
  | cons frame outer => simp [Through, Closes, enclosed_cons_iff]

theorem through_or_iff :
    Through frames (fun inner => inside inner ∨ other inner) rest ↔
      Through frames inside rest ∨ Through frames other rest := by
  cases frames with
  | nil => rfl
  | cons frame outer => exact enclosed_or_iff

theorem through_and_iff {condition : Prop} :
    Through frames (fun inner => condition ∧ inside inner) rest ↔
      condition ∧ Through frames inside rest := by
  cases frames with
  | nil => rfl
  | cons frame outer => exact enclosed_and_iff

/-- A value, from the first lexeme on. What it encloses ends before its container does. -/
theorem through_value_cons_iff :
    Through frames (ValueThen (fun _ => True) after) (lexeme :: rest) ↔
      (IsScalar lexeme ∧ Through frames after rest) ∨
      (lexeme.token = some .openBrace ∧
        Enclosed .closeBrace AnyBody (Through frames after) rest) ∨
      (lexeme.token = some .openBracket ∧
        Enclosed .closeBracket AnyElements (Through frames after) rest) := by
  have hsplit : Through frames (ValueThen (fun _ => True) after) (lexeme :: rest) ↔
      ValueThen (fun _ => True) (Through frames after) (lexeme :: rest) := by
    cases frames with
    | nil => rfl
    | cons frame outer => exact enclosed_value_then_iff
  rw [hsplit, value_then_cons_iff]
  simp only [and_true]
  rfl

/-- A lexeme that is no closing delimiter closes nothing. -/
theorem not_closes (hbrace : lexeme.token ≠ some .closeBrace)
    (hbracket : lexeme.token ≠ some .closeBracket) : ¬ Closes frames lexeme rest := by
  rintro ⟨frame, outer, -, htoken, -⟩
  cases frame with
  | object => exact hbrace htoken
  | list => exact hbracket htoken

/-- Entries, from the first lexeme on. -/
theorem through_body_cons_iff :
    Through frames AnyBody (lexeme :: rest) ↔
      Closes frames lexeme rest ∨
      ((IsSeparator lexeme ∨ lexeme.token = some .comment) ∧ Through frames AnyBody rest) ∨
      (keyOf? lexeme).isSome = true ∧ Through frames EntryRest rest := by
  have hend : AnyBody [] := ⟨[], .nil⟩
  simp only [through_cons_iff, hend, true_and, any_body_cons_iff, through_or_iff, through_and_iff]

/-- The rest of an entry, from the equals sign on. -/
theorem through_entry_rest_cons_iff :
    Through frames EntryRest (lexeme :: rest) ↔ lexeme.token = some .equals ∧
      Through frames (ValueThen (fun _ => True) (Tail false AnyBody)) rest := by
  have hend : ¬ EntryRest [] := by simp [EntryRest]
  have hcons : ∀ inner, EntryRest (lexeme :: inner) ↔ lexeme.token = some .equals ∧
      ValueThen (fun _ => True) (Tail false AnyBody) inner := by simp [EntryRest]
  simp only [through_cons_iff, hend, false_and, false_or, hcons, through_and_iff]

/-- What follows an entry or an element, from the first lexeme on. -/
theorem through_tail_cons_iff (inner : List Frame) :
    Through frames (Tail commented (Inside inner)) (lexeme :: rest) ↔
      Closes frames lexeme rest ∨
      (IsSeparator lexeme ∧ Through frames (Inside inner) rest) ∨
      (commented = false ∧ lexeme.token = some .comment ∧
        Through frames (Tail true (Inside inner)) rest) := by
  have hend : Tail commented (Inside inner) [] := tail_nil_iff.2 (inside_nil inner)
  simp only [through_cons_iff, hend, true_and, tail_cons_iff,
    and_congr_right (inside_separator inner), through_or_iff, through_and_iff]

/-- Elements, from the first lexeme on. -/
theorem through_elements_cons_iff :
    Through frames AnyElements (lexeme :: rest) ↔
      Closes frames lexeme rest ∨
      ((IsSeparator lexeme ∨ lexeme.token = some .comment) ∧ Through frames AnyElements rest) ∨
      Through frames (ValueThen (fun _ => True) (Tail false AnyElements)) (lexeme :: rest) := by
  have hend : AnyElements [] := .nil
  have hcons : ∀ inner, AnyElements (lexeme :: inner) ↔
      ((IsSeparator lexeme ∨ lexeme.token = some .comment) ∧ AnyElements inner) ∨
        ValueThen (fun _ => True) (Tail false AnyElements) (lexeme :: inner) :=
    fun inner => elements_cons_iff
  simp only [through_cons_iff, hend, true_and, hcons, through_or_iff, through_and_iff,
    not_value_then_nil, false_and, false_or]

/-- The closing delimiters of the open containers complete whatever stands in the innermost. -/
theorem through_closings (frames : List Frame) {middle : List Lexeme} (h : inside middle) :
    Through frames inside
      (middle ++ frames.map fun frame => ⟨some frame.closing, [], Position.start⟩) := by
  induction frames generalizing inside middle with
  | nil => simpa [Through] using h
  | cons frame outer ih =>
      have hend : Tail false (Inside outer) [] := tail_nil_iff.2 (inside_nil outer)
      exact ⟨middle, _, _, rfl, h, rfl, ih hend⟩

end Grammar

namespace Reader

open Grammar

/-- The containers that are open around the value in a context, the innermost first. -/
@[simp] def Context.frames : Context → List Frame
  | .top _ _ _ => []
  | .member outer _ _ _ _ => .object :: outer.frames
  | .element outer _ _ => .list :: outer.frames

/-- The containers that are open in a body. -/
@[simp] def framesIn : Option Braces → List Frame
  | none => []
  | some braces => .object :: braces.outer.frames

/-- The containers that are open in a state. -/
@[simp] def State.frames : State → List Frame
  | .item braces _ => framesIn braces
  | .equals braces _ _ _ => framesIn braces
  | .value context => context.frames
  | .entryEnd braces _ _ => framesIn braces
  | .element outer _ _ => .list :: outer.frames
  | .elementEnd outer _ _ _ => .list :: outer.frames
  | .stopped _ => []

/-- What a state asks for, up to the end of the innermost container. -/
@[simp] def State.Next : State → List Lexeme → Prop
  | .item _ _ => AnyBody
  | .equals _ _ _ _ => EntryRest
  | .value context => ValueThen (fun _ => True) (Tail false (Inside context.frames))
  | .entryEnd _ _ entry => Tail entry.trailing.isSome AnyBody
  | .element _ _ _ => AnyElements
  | .elementEnd _ _ _ commented => Tail commented AnyElements
  | .stopped _ => fun _ => True

/-- The lexemes that complete a document from a state on if keys are left aside. -/
@[simp] def State.Admits (state : State) : List Lexeme → Prop :=
  Through state.frames state.Next

/-- `Agrees admitted rest result` says that the result of a step tells whether a token with the
given rest is admitted, unless it is refused for a key. -/
@[simp] def Agrees (admitted : Prop) (rest : List Lexeme) : Except SyntaxError State → Prop
  | .ok next => admitted ↔ next.Admits rest
  | .error (.unexpected _ _ _) => ¬ admitted
  | .error (.duplicateKey _ _) => True

variable {lexeme : Lexeme} {rest : List Lexeme} {braces : Option Braces} {body : Body}

/-- A complete entry is refused for its key only. -/
theorem complete_entry_agrees (braces : Option Braces) {body : Body} {key : Text}
    {keyPos : Position} {value : Node} :
    Agrees (Through (framesIn braces) (Tail false AnyBody) rest) rest
      (completeEntry braces body key keyPos value) := by
  unfold completeEntry
  split
  · exact trivial
  · exact Iff.rfl

/-- What follows a complete value is what its context asks for. -/
theorem complete_agrees (context : Context) (value : Node) :
    Agrees (Through context.frames (Tail false (Inside context.frames)) rest) rest
      (context.complete value) := by
  cases context with
  | top body key keyPos => exact complete_entry_agrees none
  | member outer opened body key keyPos => exact complete_entry_agrees (some ⟨outer, opened⟩)
  | element outer opened items => exact Iff.rfl

/-- A value may start with the lexemes that the reader takes there. -/
theorem read_value_agrees (context : Context) :
    Agrees (Through context.frames (ValueThen (fun _ => True) (Tail false (Inside context.frames)))
      (lexeme :: rest)) rest (readValue context lexeme) := by
  rw [through_value_cons_iff]
  unfold readValue
  split
  case h_5 htoken => simp [htoken, IsScalar, Through, Frame.closing]
  case h_6 htoken => simp [htoken, IsScalar, Through, Frame.closing]
  case h_7 hstring hnumber hbool hnull hbrace hbracket => simp_all [IsScalar, unexpected]
  all_goals next htoken => simpa [htoken, IsScalar] using complete_agrees context _

variable {braces : Option Braces} {body : Body}

/-- The container around a body is an object. -/
theorem exists_of_frames_in {frame : Frame} {outer : List Frame}
    (h : framesIn braces = frame :: outer) :
    ∃ closing, braces = some closing ∧ frame = .object := by
  cases braces with
  | none => cases h
  | some closing =>
      cases h
      exact ⟨closing, rfl, rfl⟩

/-- Where a body may end, a token ends it if it closes its object. -/
theorem end_body_agrees {instead : Expectation} (hmatched : lexeme.token ≠ none) :
    Agrees (Closes (framesIn braces) lexeme rest) rest (endBody braces body instead lexeme) := by
  unfold endBody
  split
  · next closing htoken =>
      simpa [Closes, htoken, Frame.closing, closeObject] using complete_agrees closing.outer _
  · next htoken => exact absurd htoken hmatched
  · next htoken => exact absurd htoken hmatched
  · next hclosing _ _ =>
      rintro ⟨frame, outer, hframes, htoken, -⟩
      obtain ⟨closing, rfl, rfl⟩ := exists_of_frames_in hframes
      exact hclosing closing htoken rfl

/-- Where an entry may start, the reader takes the tokens that are admitted. -/
theorem read_item_agrees (hmatched : lexeme.token ≠ none) :
    Agrees (Through (framesIn braces) AnyBody (lexeme :: rest)) rest
      (readItem braces body lexeme) := by
  rw [through_body_cons_iff]
  unfold readItem
  split
  case h_6 hnewline hcomma hcomment hident hstring =>
    have hkey : keyOf? lexeme = none := by
      unfold keyOf?
      split
      · next htoken => exact absurd htoken hident
      · next htoken => exact absurd htoken hstring
      · rfl
    have hother : ¬ (IsSeparator lexeme ∨ lexeme.token = some .comment) := by
      simp_all [IsSeparator]
    simpa [hother, hkey] using end_body_agrees hmatched
  all_goals next htoken => simp [htoken, not_closes, IsSeparator, keyOf?]

/-- After the value of an entry, the reader takes the tokens that are admitted. -/
theorem read_entry_end_agrees {entry : Entry} (hmatched : lexeme.token ≠ none) :
    Agrees (Through (framesIn braces) (Tail entry.trailing.isSome (Inside [])) (lexeme :: rest))
      rest (readEntryEnd braces body entry lexeme) := by
  rw [through_tail_cons_iff]
  unfold readEntryEnd
  generalize (if braces.isSome then Expectation.commaOrBrace else .commaOrNewline) = instead
  dsimp only
  split
  · next htoken => simp [htoken, not_closes, IsSeparator, Inside]
  · next htoken => simp [htoken, not_closes, IsSeparator, Inside]
  · next htoken =>
      cases htrailing : entry.trailing with
      | none => simp [htoken, not_closes, IsSeparator, Inside]
      | some comment => simp [htoken, not_closes, IsSeparator, unexpected]
  · next hnewline hcomma hcomment =>
      have hseparator : ¬ IsSeparator lexeme := by simp_all [IsSeparator]
      have hcomment : lexeme.token ≠ some .comment := hcomment
      simpa [hseparator, hcomment] using end_body_agrees hmatched

variable {outer : Context} {opened : Position} {items : Items}

/-- Where a list may end, it is closed by its bracket. -/
theorem close_list_agrees (htoken : lexeme.token = some .closeBracket) :
    Agrees (Closes (.list :: outer.frames) lexeme rest) rest
      (closeList outer opened items lexeme) := by
  simpa [Closes, htoken, Frame.closing, closeList] using complete_agrees outer _

/-- Where an element may start, the reader takes the lexemes that are admitted. -/
theorem read_element_agrees :
    Agrees (Through (.list :: outer.frames) AnyElements (lexeme :: rest)) rest
      (readElement outer opened items lexeme) := by
  have hvalue : Agrees (Through (.list :: outer.frames)
      (ValueThen (fun _ => True) (Tail false AnyElements)) (lexeme :: rest)) rest _ :=
    read_value_agrees (.element outer opened (settleItems items))
  rw [through_elements_cons_iff]
  unfold readElement
  split
  case h_4 htoken =>
    simpa [htoken, through_value_cons_iff, IsSeparator, IsScalar] using close_list_agrees htoken
  case h_5 hnewline hcomma hcomment hclosing =>
    have hopen : ¬ Closes (.list :: outer.frames) lexeme rest := by
      simp_all [Closes, Frame.closing]
    have hother : ¬ (IsSeparator lexeme ∨ lexeme.token = some .comment) := by
      simp_all [IsSeparator]
    simpa [hopen, hother] using hvalue
  all_goals next htoken =>
    simp [htoken, not_closes, through_value_cons_iff, IsSeparator, IsScalar]

/-- After an element, the reader takes the lexemes that are admitted. -/
theorem read_element_end_agrees {commented : Bool} :
    Agrees (Through (.list :: outer.frames) (Tail commented (Inside [.list])) (lexeme :: rest)) rest
      (readElementEnd outer opened items commented lexeme) := by
  rw [through_tail_cons_iff]
  unfold readElementEnd
  split
  · next htoken => simp [htoken, not_closes, IsSeparator, Inside]
  · next htoken => simp [htoken, not_closes, IsSeparator, Inside]
  · next htoken => simpa [htoken, IsSeparator] using close_list_agrees htoken
  · next htoken =>
      cases commented with
      | false => simp [htoken, not_closes, IsSeparator, Inside]
      | true => simp [htoken, not_closes, IsSeparator, unexpected]
  · next hnewline hcomma hclosing hcomment =>
      simp_all [Closes, Frame.closing, IsSeparator, unexpected]

/-- A step with a token tells whether it is admitted, unless it is refused for a key. -/
theorem step_agrees (state : State) (hmatched : lexeme.token ≠ none) (rest : List Lexeme) :
    Agrees (state.Admits (lexeme :: rest)) rest (state.step lexeme) := by
  cases state with
  | item braces body => exact read_item_agrees hmatched
  | equals braces body key keyPos =>
      have hcontext : (State.value (entryContext braces body key keyPos)).Admits rest ↔
          Through (framesIn braces) (ValueThen (fun _ => True) (Tail false AnyBody)) rest := by
        cases braces <;> rfl
      show Agrees (Through (framesIn braces) EntryRest (lexeme :: rest)) rest _
      rw [through_entry_rest_cons_iff, ← hcontext]
      simp only [State.step]
      split
      · next htoken => exact and_iff_right htoken
      · next htoken => exact fun h => htoken h.1
  | value context => exact read_value_agrees context
  | entryEnd braces body entry => exact read_entry_end_agrees hmatched
  | element outer opened items => exact read_element_agrees
  | elementEnd outer opened items commented => exact read_element_end_agrees
  | stopped body => exact Iff.rfl

/-- In every state there are lexemes that complete the document. -/
theorem exists_admits (state : State) : ∃ rest, state.Admits rest := by
  suffices hnext : ∃ middle, state.Next middle by
    obtain ⟨middle, hmiddle⟩ := hnext
    exact ⟨_, through_closings state.frames hmiddle⟩
  let null : Lexeme := ⟨some .null, [], Position.start⟩
  have hvalue : ∀ frames, ValueThen (fun _ => True) (Tail false (Inside frames)) [null] :=
    fun frames => ⟨[null], [], rfl, .scalar null (by simp [IsScalar, null]),
      tail_nil_iff.2 (inside_nil frames)⟩
  cases state with
  | item braces body => exact ⟨[], inside_nil []⟩
  | equals braces body key keyPos =>
      exact ⟨[⟨some .equals, [], Position.start⟩, null], _, _, rfl, rfl, hvalue []⟩
  | value context => exact ⟨[null], hvalue context.frames⟩
  | entryEnd braces body entry => exact ⟨[], tail_nil_iff.2 (inside_nil [])⟩
  | element outer opened items => exact ⟨[], .nil⟩
  | elementEnd outer opened items commented => exact ⟨[], tail_nil_iff.2 .nil⟩
  | stopped body => exact ⟨[], trivial⟩

/-- What is admitted after lexemes that are taken is what is admitted with them before. -/
theorem run_admits_iff {state last : State} {lexemes : List Lexeme}
    (hmatched : ∀ lexeme ∈ lexemes, lexeme.token ≠ none) (h : state.run lexemes = .ok last) :
    state.Admits (lexemes ++ rest) ↔ last.Admits rest := by
  induction lexemes generalizing state with
  | nil =>
      cases h
      rfl
  | cons lexeme others ih =>
      obtain ⟨hlexeme, hothers⟩ := List.forall_mem_cons.1 hmatched
      obtain ⟨next, hstep, hrun⟩ := run_cons_iff.1 h
      have hagrees := step_agrees state hlexeme (others ++ rest)
      rw [hstep] at hagrees
      exact hagrees.trans (ih hothers hrun)

/-- Lexemes that the reader takes begin a document if keys are left aside. -/
theorem viable_of_run {last : State} {lexemes : List Lexeme}
    (hmatched : ∀ lexeme ∈ lexemes, lexeme.token ≠ none)
    (h : State.initial.run lexemes = .ok last) : Viable lexemes := by
  obtain ⟨rest, hrest⟩ := exists_admits last
  exact ⟨rest, (run_admits_iff hmatched h).2 hrest⟩

/-- No document begins with lexemes that the reader takes and one that it does not expect. -/
theorem not_viable_of_unexpected {last : State} {lexemes : List Lexeme}
    {expected : Expectation} {found : Found} {pos : Position}
    (hmatched : ∀ other ∈ lexemes ++ [lexeme], other.token ≠ none)
    (h : State.initial.run lexemes = .ok last)
    (herror : last.step lexeme = .error (.unexpected expected found pos)) :
    ¬ Viable (lexemes ++ [lexeme]) := by
  rintro ⟨rest, hrest⟩
  have hagrees := step_agrees last (hmatched lexeme (by simp)) rest
  rw [herror] at hagrees
  refine hagrees ((run_admits_iff (fun other hother => hmatched other (by simp [hother])) h).1 ?_)
  rw [List.append_assoc] at hrest
  exact hrest

end Reader

/-- A place is not before itself. -/
theorem Position.Before.ne {first second : Position} (h : first.Before second) :
    first ≠ second := by
  rintro rfl
  simp [Before] at h

namespace Lexeme

/-- A lexeme stands before the end of its text. -/
theorem before_end_of_mem {text : Text} {lexeme : Lexeme} (h : lexeme ∈ tokenize text) :
    lexeme.pos.Before (endPosition text) := by
  obtain ⟨before, after, htext, hpos, hshape⟩ := exists_of_mem_scans (scans_scan _ text) h
  have hend : endPosition text = lexeme.pos.advance (lexeme.text ++ after) := by
    rw [endPosition, hpos, ← Position.advance_append, ← List.append_assoc, ← htext]
  rw [hend]
  exact Position.before_advance _ (by simp [hshape.ne_nil])

/-- A lexeme is the only one at its place. -/
theorem find_place {text : Text} {before after : List Lexeme} {lexeme : Lexeme}
    (h : tokenize text = before ++ lexeme :: after) :
    (tokenize text).findIdx (·.pos = lexeme.pos) = before.length := by
  have hsorted : (before ++ lexeme :: after).Pairwise (·.pos.Before ·.pos) :=
    h ▸ (scans_sorted (scans_scan _ text)).2
  have hbefore : before.findIdx (·.pos = lexeme.pos) = before.length := by
    refine List.findIdx_eq_length.2 fun other hother => decide_eq_false ?_
    exact ((List.pairwise_append.1 hsorted).2.2 other hother lexeme List.mem_cons_self).ne
  rw [h, List.findIdx_append, hbefore, if_neg (Nat.lt_irrefl _), List.findIdx_cons]
  simp

end Lexeme

open Grammar (Viable)
open Lexeme (tokenize endPosition)
open Reader (State)

/-- In a text of tokens, an error that is not about a key is where the text leaves the grammar. The
lexemes before it begin a document if keys are left aside, and with the lexeme that it stands at,
unless it is at the end of the text, they do not. -/
theorem error_leaves_grammar (text : Text) (expected : Expectation) (found : Found) (pos : Position)
    (hmatched : ∀ lexeme ∈ tokenize text, lexeme.token ≠ none)
    (h : readDocument text = .error (.unexpected expected found pos)) :
    let lexemes := tokenize text
    let index := lexemes.findIdx (·.pos = pos)
    (index = lexemes.length ↔ pos = endPosition text) ∧ Viable (lexemes.take index) ∧
      (index < lexemes.length → ¬ Viable (lexemes.take (index + 1))) := by
  intro lexemes index
  unfold readDocument at h
  cases hrun : State.initial.run lexemes with
  | error error =>
      rw [hrun] at h
      cases h
      obtain ⟨before, lexeme, after, last, hsplit, htaken, hstep⟩ := Reader.step_of_run_error hrun
      obtain rfl : lexeme.pos = pos := by
        cases Reader.rejects_of_step hstep
        rfl
      have hindex : index = before.length := Lexeme.find_place hsplit
      have hbefore : lexemes.take index = before := by
        rw [hindex, hsplit, List.take_left]
      have hthrough : lexemes.take (index + 1) = before ++ [lexeme] := by
        rw [hindex, hsplit, List.take_length_add_append]
        rfl
      have hmatchedThrough : ∀ other ∈ before ++ [lexeme], other.token ≠ none :=
        fun other hother => hmatched other (List.mem_of_mem_take (hthrough.symm ▸ hother))
      have hmatchedBefore : ∀ other ∈ before, other.token ≠ none :=
        fun other hother => hmatchedThrough other (List.mem_append_left _ hother)
      rw [hbefore, hthrough]
      have hless : index ≠ lexemes.length := by
        rw [hindex, hsplit, List.length_append, List.length_cons]
        omega
      have hend : lexeme.pos ≠ endPosition text :=
        (Lexeme.before_end_of_mem (show lexeme ∈ lexemes by simp [hsplit])).ne
      refine ⟨iff_of_false hless hend, Reader.viable_of_run hmatchedBefore htaken, fun _ => ?_⟩
      exact Reader.not_viable_of_unexpected hmatchedThrough htaken hstep
  | ok state =>
      rw [hrun] at h
      obtain ⟨_, herror⟩ := Reader.finish_error h
      cases herror
      have hindex : index = lexemes.length := List.findIdx_eq_length.2 fun lexeme hlexeme =>
        decide_eq_false (Lexeme.before_end_of_mem hlexeme).ne
      rw [hindex, List.take_length]
      refine ⟨iff_of_true rfl rfl, Reader.viable_of_run hmatched hrun, fun hless => ?_⟩
      exact absurd hless (Nat.lt_irrefl _)

/-- A brace where a list must be closed, in an entry whose key is there twice. -/
theorem error_leaves_grammar_repeated :
    let text := "o = \x7ba = 1, a = [\x7d".toList
    let lexemes := tokenize text
    (∀ lexeme ∈ lexemes, lexeme.token ≠ none) ∧
      readDocument text = .error (.unexpected .value (.token ['\x7d']) ⟨1, 18⟩) ∧
      Viable (lexemes.take 10) ∧ ¬ Viable (lexemes.take 11) := by
  intro text lexemes
  have hmatched : ∀ lexeme ∈ lexemes, lexeme.token ≠ none := by decide +kernel
  have herror : readDocument text = .error (.unexpected .value (.token ['\x7d']) ⟨1, 18⟩) :=
    error_of_map_eq (by decide +kernel)
  have hindex : lexemes.findIdx (·.pos = ⟨1, 18⟩) = 10 := by decide +kernel
  have hlength : 10 < lexemes.length := by decide +kernel
  obtain ⟨-, hviable, hnot⟩ := error_leaves_grammar text _ _ _ hmatched herror
  rw [hindex] at hviable hnot
  exact ⟨hmatched, herror, hviable, hnot hlength⟩

end Highlighter
