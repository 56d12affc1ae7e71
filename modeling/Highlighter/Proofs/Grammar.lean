import Highlighter.Tree.Reader
import Mathlib.Data.List.Nodup

/-!
# The grammar of documents

A document as a set of lexeme sequences, apart from the reader. A body is any sequence of line
feeds, commas, comments and entries in which a line feed, a comma or the end of the body directly
follows each entry, and the elements of a list are arranged alike. `Body fits keys lexemes` also
says which keys the entries have, and `fits` is what is asked of the keys of every object inside;
`Document` asks that they differ. `body_cons_iff`, `elements_cons_iff` and `value_then_cons_iff` say
what a derivation looks like from its first lexeme on.
-/

namespace Highlighter.Grammar

/-- A line feed or a comma. -/
def IsSeparator (lexeme : Lexeme) : Prop :=
  lexeme.token = some .newline ∨ lexeme.token = some .comma

/-- A lexeme that is a value by itself. -/
def IsScalar (lexeme : Lexeme) : Prop :=
  lexeme.token = some .string ∨ lexeme.token = some .number ∨
    (∃ value, lexeme.token = some (.bool value)) ∨ lexeme.token = some .null

/-- The key that a lexeme spells: an identifier spells itself, a string what is in its quotes. -/
def keyOf? (lexeme : Lexeme) : Option Text :=
  match lexeme.token with
  | some .ident => some lexeme.text
  | some .string => some (Quoted.unquote lexeme.text)
  | _ => none

/-- At most one lexeme, and that a comment. -/
def IsNote : List Lexeme → Prop
  | [] => True
  | [lexeme] => lexeme.token = some .comment
  | _ => False

/-- What may directly follow an entry or an element inside its container: a separator or the
end. -/
def Ends : List Lexeme → Prop
  | [] => True
  | lexeme :: _ => IsSeparator lexeme

section

variable (fits : List Text → Prop)

mutual

/-- `Value fits lexemes` says the lexemes are one value. -/
inductive Value : List Lexeme → Prop where
  | scalar (lexeme) : IsScalar lexeme → Value [lexeme]
  | object (opening keys inner closing) :
      opening.token = some .openBrace → Body keys inner → fits keys →
      closing.token = some .closeBrace → Value (opening :: inner ++ [closing])
  | list (opening inner closing) :
      opening.token = some .openBracket → Elements inner →
      closing.token = some .closeBracket → Value (opening :: inner ++ [closing])

/-- `Entry fits key lexemes` says the lexemes are one entry with the given key. -/
inductive Entry : Text → List Lexeme → Prop where
  | intro (key name equals value note) :
      keyOf? name = some key → equals.token = some .equals → Value value → IsNote note →
      Entry key (name :: equals :: value ++ note)

/-- `Body fits keys lexemes` says the lexemes are a body whose entries have the given keys. -/
inductive Body : List Text → List Lexeme → Prop where
  | nil : Body [] []
  | separator (keys lexeme rest) :
      IsSeparator lexeme → Body keys rest → Body keys (lexeme :: rest)
  | comment (keys lexeme rest) :
      lexeme.token = some .comment → Body keys rest → Body keys (lexeme :: rest)
  | entry (key keys entry rest) :
      Entry key entry → Ends rest → Body keys rest → Body (key :: keys) (entry ++ rest)

/-- `Elements fits lexemes` says the lexemes are what may stand between the brackets of a list. -/
inductive Elements : List Lexeme → Prop where
  | nil : Elements []
  | separator (lexeme rest) :
      IsSeparator lexeme → Elements rest → Elements (lexeme :: rest)
  | comment (lexeme rest) :
      lexeme.token = some .comment → Elements rest → Elements (lexeme :: rest)
  | element (value note rest) :
      Value value → IsNote note → Ends rest → Elements rest → Elements (value ++ note ++ rest)

end

end

/-- The lexemes are a document: a body in which no two entries of one body have equal keys. -/
def Document (lexemes : List Lexeme) : Prop :=
  ∃ keys, Body List.Nodup keys lexemes ∧ keys.Nodup

/-- A comment or nothing after an entry or element, then what ends it, then what `next` asks for.
There is no comment when one has been read. -/
def Tail (commented : Bool) (next : List Lexeme → Prop) (lexemes : List Lexeme) : Prop :=
  ∃ note rest, lexemes = note ++ rest ∧ IsNote note ∧ (commented = true → note = []) ∧
    Ends rest ∧ next rest

/-- Lexemes that satisfy `inside`, a closing delimiter, and lexemes that satisfy `after`. -/
def Enclosed (closing : Token) (inside after : List Lexeme → Prop) (lexemes : List Lexeme) :
    Prop :=
  ∃ inner last rest, lexemes = inner ++ last :: rest ∧ inside inner ∧
    last.token = some closing ∧ after rest

/-- One value, and lexemes that satisfy `after`. -/
def ValueThen (fits : List Text → Prop) (after : List Lexeme → Prop) (lexemes : List Lexeme) :
    Prop :=
  ∃ value rest, lexemes = value ++ rest ∧ Value fits value ∧ after rest

variable {fits : List Text → Prop} {closing : Token} {inside after next : List Lexeme → Prop}
  {lexeme : Lexeme} {rest : List Lexeme} {keys : List Text} {commented : Bool}

/-- Nothing is enclosed without a closing delimiter. -/
theorem not_enclosed_nil : ¬ Enclosed closing inside after [] := by
  rintro ⟨inner, last, rest, heq, -⟩
  simp at heq

/-- The first lexeme is the closing delimiter or stands inside. -/
theorem enclosed_cons_iff :
    Enclosed closing inside after (lexeme :: rest) ↔
      (inside [] ∧ lexeme.token = some closing ∧ after rest) ∨
        Enclosed closing (fun inner => inside (lexeme :: inner)) after rest := by
  constructor
  · rintro ⟨inner, last, follow, heq, hinside, hlast, hafter⟩
    cases inner with
    | nil =>
        obtain ⟨rfl, rfl⟩ := List.cons.inj heq
        exact .inl ⟨hinside, hlast, hafter⟩
    | cons first inner =>
        obtain ⟨rfl, rfl⟩ := List.cons.inj heq
        exact .inr ⟨inner, last, follow, rfl, hinside, hlast, hafter⟩
  · rintro (⟨hinside, hlast, hafter⟩ | ⟨inner, last, follow, rfl, hinside, hlast, hafter⟩)
    · exact ⟨[], lexeme, rest, rfl, hinside, hlast, hafter⟩
    · exact ⟨lexeme :: inner, last, follow, rfl, hinside, hlast, hafter⟩

/-- What is enclosed may be of either of two kinds. -/
theorem enclosed_or_iff {other : List Lexeme → Prop} :
    Enclosed closing (fun inner => inside inner ∨ other inner) after rest ↔
      Enclosed closing inside after rest ∨ Enclosed closing other after rest := by
  constructor
  · rintro ⟨inner, last, follow, rfl, hinside | hother, hlast, hafter⟩
    · exact .inl ⟨inner, last, follow, rfl, hinside, hlast, hafter⟩
    · exact .inr ⟨inner, last, follow, rfl, hother, hlast, hafter⟩
  · rintro (⟨inner, last, follow, rfl, hinside, hlast, hafter⟩ |
      ⟨inner, last, follow, rfl, hother, hlast, hafter⟩)
    · exact ⟨inner, last, follow, rfl, .inl hinside, hlast, hafter⟩
    · exact ⟨inner, last, follow, rfl, .inr hother, hlast, hafter⟩

/-- A condition that is not about what is enclosed stands outside. -/
theorem enclosed_and_iff {condition : Prop} :
    Enclosed closing (fun inner => condition ∧ inside inner) after rest ↔
      condition ∧ Enclosed closing inside after rest := by
  constructor
  · rintro ⟨inner, last, follow, rfl, ⟨hcondition, hinside⟩, hlast, hafter⟩
    exact ⟨hcondition, inner, last, follow, rfl, hinside, hlast, hafter⟩
  · rintro ⟨hcondition, inner, last, follow, rfl, hinside, hlast, hafter⟩
    exact ⟨inner, last, follow, rfl, ⟨hcondition, hinside⟩, hlast, hafter⟩

/-- The end of the input ends an entry that needs nothing more. -/
theorem tail_nil_iff : Tail commented next [] ↔ next [] := by
  constructor
  · rintro ⟨note, after, heq, -, -, -, hnext⟩
    obtain ⟨-, rfl⟩ := List.append_eq_nil_iff.1 heq.symm
    exact hnext
  · intro hnext
    exact ⟨[], [], rfl, trivial, fun _ => rfl, trivial, hnext⟩

/-- After an entry or element stands a separator or, unless there was one, a comment. -/
theorem tail_cons_iff :
    Tail commented next (lexeme :: rest) ↔
      (IsSeparator lexeme ∧ next (lexeme :: rest)) ∨
        (commented = false ∧ lexeme.token = some .comment ∧ Tail true next rest) := by
  constructor
  · rintro ⟨note, after, heq, hnote, hcommented, hends, hnext⟩
    match note, hnote with
    | [], _ =>
        cases heq
        exact .inl ⟨hends, hnext⟩
    | [first], hfirst =>
        obtain ⟨rfl, rfl⟩ := List.cons.inj heq
        refine .inr ⟨?_, hfirst, [], rest, rfl, trivial, fun _ => rfl, hends, hnext⟩
        cases commented with
        | false => rfl
        | true => cases hcommented rfl
  · rintro (⟨hseparator, hnext⟩ | ⟨rfl, hcomment, note, after, rfl, -, hnil, hends, hnext⟩)
    · exact ⟨[], lexeme :: rest, rfl, trivial, fun _ => rfl, hseparator, hnext⟩
    · cases hnil rfl
      exact ⟨[lexeme], after, rfl, hcomment, by simp, hends, hnext⟩

/-- A value has at least one lexeme. -/
theorem not_value_nil : ¬ Value fits [] := by
  generalize hlexemes : ([] : List Lexeme) = lexemes
  intro h
  cases h <;> simp at hlexemes

/-- There is no value at the end of the input. -/
theorem not_value_then_nil : ¬ ValueThen fits after [] := by
  rintro ⟨value, rest, heq, hvalue, -⟩
  obtain ⟨rfl, -⟩ := List.append_eq_nil_iff.1 heq.symm
  exact not_value_nil hvalue

/-- A value is a scalar, or an opening delimiter with what it encloses. -/
theorem value_then_cons_iff :
    ValueThen fits after (lexeme :: rest) ↔
      (IsScalar lexeme ∧ after rest) ∨
      (lexeme.token = some .openBrace ∧
        Enclosed .closeBrace (fun inner => ∃ keys, Body fits keys inner ∧ fits keys) after rest) ∨
      (lexeme.token = some .openBracket ∧
        Enclosed .closeBracket (Elements fits) after rest) := by
  constructor
  · rintro ⟨value, follow, heq, hvalue, hafter⟩
    cases hvalue with
    | scalar lexeme hscalar =>
        obtain ⟨rfl, rfl⟩ := List.cons.inj heq
        exact .inl ⟨hscalar, hafter⟩
    | object opening keys inner last hopening hbody hfits hlast =>
        obtain ⟨rfl, rfl⟩ := List.cons.inj heq
        exact .inr (.inl ⟨hopening, inner, last, follow, by simp, ⟨keys, hbody, hfits⟩, hlast,
          hafter⟩)
    | list opening inner last hopening helements hlast =>
        obtain ⟨rfl, rfl⟩ := List.cons.inj heq
        exact .inr (.inr ⟨hopening, inner, last, follow, by simp, helements, hlast, hafter⟩)
  · rintro (⟨hscalar, hafter⟩ |
      ⟨hopening, inner, last, follow, rfl, ⟨keys, hbody, hfits⟩, hlast, hafter⟩ |
      ⟨hopening, inner, last, follow, rfl, helements, hlast, hafter⟩)
    · exact ⟨[lexeme], rest, rfl, .scalar _ hscalar, hafter⟩
    · exact ⟨lexeme :: inner ++ [last], follow, by simp,
        .object _ _ _ _ hopening hbody hfits hlast, hafter⟩
    · exact ⟨lexeme :: inner ++ [last], follow, by simp,
        .list _ _ _ hopening helements hlast, hafter⟩

/-- A body starts with a separator, a comment or an entry. -/
theorem body_cons_iff :
    Body fits keys (lexeme :: rest) ↔
      ((IsSeparator lexeme ∨ lexeme.token = some .comment) ∧ Body fits keys rest) ∨
        ∃ key others equals follow, keyOf? lexeme = some key ∧ keys = key :: others ∧
          rest = equals :: follow ∧ equals.token = some .equals ∧
          ValueThen fits (Tail false (Body fits others)) follow := by
  constructor
  · generalize hlexemes : lexeme :: rest = lexemes
    intro h
    cases h with
    | nil => cases hlexemes
    | separator _ _ _ hseparator hrest =>
        cases hlexemes
        exact .inl ⟨.inl hseparator, hrest⟩
    | comment _ _ _ hcomment hrest =>
        cases hlexemes
        exact .inl ⟨.inr hcomment, hrest⟩
    | entry key others _ after hentry hends hafter =>
        cases hentry with
        | intro _ name equals value note hkey hequals hvalue hnote =>
            obtain ⟨rfl, rfl⟩ := List.cons.inj hlexemes
            exact .inr ⟨key, others, equals, _, hkey, rfl, rfl, hequals, value, note ++ after,
              by simp, hvalue, note, after, rfl, hnote, by simp, hends, hafter⟩
  · rintro (⟨hseparator | hcomment, hrest⟩ | ⟨key, others, equals, follow, hkey, rfl, rfl, hequals,
      value, _, rfl, hvalue, note, after, rfl, hnote, -, hends, hafter⟩)
    · exact .separator _ _ _ hseparator hrest
    · exact .comment _ _ _ hcomment hrest
    · have hentry : Entry fits key (lexeme :: equals :: value ++ note) :=
        .intro _ _ _ _ _ hkey hequals hvalue hnote
      simpa using Body.entry _ _ _ _ hentry hends hafter

/-- The inside of a list starts with a separator, a comment or an element. -/
theorem elements_cons_iff :
    Elements fits (lexeme :: rest) ↔
      ((IsSeparator lexeme ∨ lexeme.token = some .comment) ∧ Elements fits rest) ∨
        ValueThen fits (Tail false (Elements fits)) (lexeme :: rest) := by
  constructor
  · generalize hlexemes : lexeme :: rest = lexemes
    intro h
    cases h with
    | nil => cases hlexemes
    | separator _ _ hseparator hrest =>
        cases hlexemes
        exact .inl ⟨.inl hseparator, hrest⟩
    | comment _ _ hcomment hrest =>
        cases hlexemes
        exact .inl ⟨.inr hcomment, hrest⟩
    | element value note after hvalue hnote hends hafter =>
        exact .inr ⟨value, note ++ after, by simp, hvalue, note, after, rfl, hnote,
          by simp, hends, hafter⟩
  · rintro (⟨hseparator | hcomment, hrest⟩ |
      ⟨value, _, heq, hvalue, note, after, rfl, hnote, -, hends, hafter⟩)
    · exact .separator _ _ hseparator hrest
    · exact .comment _ _ hcomment hrest
    · rw [heq, ← List.append_assoc]
      exact .element _ _ _ hvalue hnote hends hafter

/-- A separator between elements leaves them as they are. -/
theorem elements_separator (hseparator : IsSeparator lexeme) :
    Elements fits (lexeme :: rest) ↔ Elements fits rest := by
  have hvalue : ¬ ValueThen fits (Tail false (Elements fits)) (lexeme :: rest) := by
    obtain htoken | htoken := hseparator <;> simp [value_then_cons_iff, IsScalar, htoken]
  simp [elements_cons_iff, hseparator, hvalue]

/-- A value inside a container can be split off before the closing delimiter is looked for. -/
theorem enclosed_value_then_iff :
    Enclosed closing (ValueThen fits inside) after rest ↔
      ValueThen fits (Enclosed closing inside after) rest := by
  constructor
  · rintro ⟨inner, last, follow, rfl, ⟨value, tail, rfl, hvalue, hinside⟩, hlast, hafter⟩
    exact ⟨value, tail ++ last :: follow, by simp, hvalue, tail, last, follow, rfl, hinside, hlast,
      hafter⟩
  · rintro ⟨value, _, rfl, hvalue, tail, last, follow, rfl, hinside, hlast, hafter⟩
    exact ⟨value ++ tail, last, follow, by simp, ⟨value, tail, rfl, hvalue, hinside⟩, hlast, hafter⟩

/-- The inside of a list with its closing bracket, from the first lexeme on. -/
theorem enclosed_elements_cons_iff :
    Enclosed .closeBracket (Elements fits) after (lexeme :: rest) ↔
      (lexeme.token = some .closeBracket ∧ after rest) ∨
      ((IsSeparator lexeme ∨ lexeme.token = some .comment) ∧
        Enclosed .closeBracket (Elements fits) after rest) ∨
      ValueThen fits (Enclosed .closeBracket (Tail false (Elements fits)) after)
        (lexeme :: rest) := by
  have hend : Elements fits [] := .nil
  simp only [enclosed_cons_iff, elements_cons_iff, enclosed_or_iff, enclosed_and_iff,
    ← enclosed_value_then_iff, not_value_then_nil, hend, true_and, false_and, false_or]

end Highlighter.Grammar
