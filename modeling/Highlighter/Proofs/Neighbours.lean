import Highlighter.Proofs.Items
import Highlighter.Proofs.Scan
import Mathlib.Data.List.Chain

/-!
# Which lexemes stand side by side

In a document that can be read, words and numbers stand apart: between two of them there is a
separator, a delimiter or an equals sign. After an identifier stands an equals sign, and before an
equals sign stands an identifier or a string. `Spaced` says this of every two neighbours, where the
ends count as line feeds, so it is true of each line of a document if it is true of the document
(`spaced_line`), and it is true of every document that can be read (`spaced_of_reads`). In a
document whose keys are all bare, `Orderly`, a string is never a key.
-/

namespace Highlighter

namespace Lexeme

/-- Whether a lexeme is a word or a number. -/
def isWord (lexeme : Lexeme) : Bool :=
  lexeme.token.any Token.isWord

/-- Whether two tokens may stand side by side. -/
structure Adjoins (first second : Option Token) : Prop where
  equals_of_ident : first = some .ident → second = some .equals
  key_of_equals : second = some .equals → first = some .ident ∨ first = some .string
  words_apart : ¬ (first.any Token.isWord = true ∧ second.any Token.isWord = true)

/-- The tokens of lexemes between two line feeds. -/
def edged (lexemes : List Lexeme) : List (Option Token) :=
  some .newline :: lexemes.map Lexeme.token ++ [some .newline]

/-- Whether every two neighbours among lexemes may stand side by side. The ends count as line
feeds. -/
def Spaced (lexemes : List Lexeme) : Prop :=
  (edged lexemes).IsChain Adjoins

/-- Whether every key is an identifier: before an equals sign stands nothing else. -/
def BareKeys (lexemes : List Lexeme) : Prop :=
  lexemes.IsChain fun key next => next.token = some .equals → key.token = some .ident

instance (lexemes : List Lexeme) : Decidable (BareKeys lexemes) :=
  inferInstanceAs (Decidable (List.IsChain _ _))

/-- Lexemes that may stand side by side and have no key in quotes. -/
structure Orderly (lexemes : List Lexeme) : Prop where
  spaced : Spaced lexemes
  bare : BareKeys lexemes

end Lexeme

namespace Reader

open Grammar (IsSeparator keyOf?)

/-- Whether a word or a number may stand next. -/
def State.takesWord : State → Bool
  | .item _ _ => true
  | .value _ => true
  | .element _ _ _ => true
  | _ => false

variable {state next : State} {lexeme : Lexeme}

/-- A word may start where a value may. -/
theorem takes_word_of_context {context : Context} (h : state.context? = some context) :
    state.takesWord = true := by
  cases state <;> cases h <;> rfl

/-- After a complete value no word may stand. -/
theorem takes_word_of_complete {context : Context} {value : Node}
    (h : context.complete value = .ok next) : next.takesWord = false := by
  obtain ⟨_, _, _, _, _, rfl⟩ | ⟨_, _, _, _, rfl⟩ := complete_cases h <;> rfl

/-- A word is taken only where one may stand, and none may stand after it; after an identifier an
equals sign must. -/
theorem taken_word (h : Taken state lexeme next) (hword : lexeme.isWord = true) :
    state.takesWord = true ∧ next.takesWord = false ∧
      (lexeme.token = some .ident → next.expectsEquals = true) := by
  cases h with
  | key braces body _ key hkey => exact ⟨rfl, rfl, fun _ => rfl⟩
  | scalar _ context _ value _ hcontext hscalar hcomplete =>
      refine ⟨takes_word_of_context hcontext, takes_word_of_complete hcomplete, ?_⟩
      intro htoken
      simp [scalarOf?, htoken] at hscalar
  | separator _ _ _ _ _ hseparator | listSeparator _ _ _ _ _ _ hseparator =>
      obtain htoken | htoken := hseparator <;> simp [Lexeme.isWord, htoken, Token.isWord] at hword
  | _ => simp_all [Lexeme.isWord, Token.isWord]

/-- An equals sign must stand only after a key. -/
theorem taken_key (h : Taken state lexeme next) (hexpects : next.expectsEquals = true) :
    lexeme.token = some .ident ∨ lexeme.token = some .string := by
  cases h with
  | key braces body _ key hkey =>
      unfold keyOf? at hkey
      split at hkey
      · next htoken => exact .inl htoken
      · next htoken => exact .inr htoken
      · cases hkey
  | scalar _ _ _ _ _ _ _ hcomplete | closeObject _ _ _ _ _ _ _ hcomplete
  | closeList _ _ _ _ _ _ _ _ hcomplete =>
      rw [expects_equals_of_complete hcomplete] at hexpects
      cases hexpects
  | _ => cases hexpects

/-- What is read after a lexeme that suits the state is spaced. -/
theorem spaced_of_reads_after {pos : Position} {tree : Body} {lexemes : List Lexeme}
    (h : Reads pos tree state lexemes) (last : Lexeme)
    (hident : last.token = some .ident → state.expectsEquals = true)
    (hkey : state.expectsEquals = true → last.token = some .ident ∨ last.token = some .string)
    (hword : last.isWord = true → state.takesWord = false) :
    (last.token :: lexemes.map Lexeme.token ++ [some Token.newline]).IsChain Lexeme.Adjoins := by
  induction h generalizing last with
  | finish state hopen hfinish =>
      refine List.isChain_cons_cons.2 ⟨⟨fun htoken => ?_, by simp, by simp [Token.isWord]⟩,
        List.isChain_singleton _⟩
      have hequals := hident htoken
      cases state <;> simp_all [State.finish, State.expectsEquals]
  | step state lexeme next rest htaken hrest ih =>
      refine List.isChain_cons_cons.2 ⟨⟨fun htoken => ?_, fun htoken => ?_, ?_⟩,
        ih lexeme ?_ (taken_key htaken) ?_⟩
      · exact (taken_equals_iff htaken).2 (hident htoken)
      · exact hkey ((taken_equals_iff htaken).1 htoken)
      · rintro ⟨hlast, hlexeme⟩
        have htakes := (taken_word htaken hlexeme).1
        rw [hword hlast] at htakes
        cases htakes
      · intro htoken
        exact (taken_word htaken (by simp [Lexeme.isWord, htoken, Token.isWord])).2.2 htoken
      · intro hlexeme
        exact (taken_word htaken hlexeme).2.1

/-- A document that can be read is spaced. -/
theorem spaced_of_reads {pos : Position} {tree : Body} {lexemes : List Lexeme}
    (h : Reads pos tree .initial lexemes) : Lexeme.Spaced lexemes :=
  -- A line feed before the document suits the first state.
  spaced_of_reads_after h ⟨some .newline, [], pos⟩ (by simp)
    (by simp [State.initial, State.expectsEquals]) (by simp [Lexeme.isWord, Token.isWord])

/-- A document with bare keys that can be read is in order. -/
theorem orderly_of_reads {pos : Position} {tree : Body} {lexemes : List Lexeme}
    (h : Reads pos tree .initial lexemes) (hbare : Lexeme.BareKeys lexemes) :
    Lexeme.Orderly lexemes :=
  ⟨spaced_of_reads h, hbare⟩

end Reader

namespace Lexeme

variable {before after lexemes : List Lexeme} {lexeme : Lexeme}

/-- Lexemes between line feeds are spaced if those around them are. -/
theorem spaced_line (h : Spaced (before ++ lexemes ++ after))
    (hbefore : ∀ lexeme ∈ before.getLast?, lexeme.token = some .newline)
    (hafter : ∀ lexeme ∈ after.head?, lexeme.token = some .newline) : Spaced lexemes := by
  obtain ⟨first, hfirst⟩ : ∃ first, some .newline :: before.map Lexeme.token =
      first ++ [some .newline] := by
    obtain rfl | ⟨before, last, rfl⟩ := List.eq_nil_or_concat' before
    · exact ⟨[], rfl⟩
    · exact ⟨some .newline :: before.map Lexeme.token, by simp [hbefore last (by simp)]⟩
  obtain ⟨rest, hrest⟩ : ∃ rest, after.map Lexeme.token ++ [some .newline] =
      some .newline :: rest := by
    cases after with
    | nil => exact ⟨[], rfl⟩
    | cons head others =>
        exact ⟨others.map Lexeme.token ++ [some .newline], by simp [hafter head rfl]⟩
  have hedged : edged (before ++ lexemes ++ after) = first ++ (edged lexemes ++ rest) :=
    calc edged (before ++ lexemes ++ after)
        = (some .newline :: before.map Lexeme.token) ++ lexemes.map Lexeme.token ++
            (after.map Lexeme.token ++ [some .newline]) := by simp [edged]
      _ = first ++ (edged lexemes ++ rest) := by simp [hfirst, hrest, edged]
  unfold Spaced at h
  rw [hedged] at h
  exact h.right_of_append.left_of_append

/-- The token of a neighbour, where the end counts as a line feed. -/
def edge (neighbour : Option Lexeme) : Option Token :=
  neighbour.elim (some .newline) Lexeme.token

/-- What follows a lexeme may stand beside it. -/
theorem adjoins_next (h : Spaced (before ++ lexeme :: after)) :
    Adjoins lexeme.token (edge after.head?) := by
  have hedged : edged (before ++ lexeme :: after) = (some .newline :: before.map Lexeme.token) ++
      lexeme.token :: (after.map Lexeme.token ++ [some .newline]) := by
    simp [edged]
  unfold Spaced at h
  rw [hedged] at h
  cases after with
  | nil => exact (List.isChain_cons_cons.1 h.right_of_append).1
  | cons next others => exact (List.isChain_cons_cons.1 h.right_of_append).1

/-- What stands before a lexeme may stand beside it. -/
theorem adjoins_previous (h : Spaced (before ++ lexeme :: after)) :
    Adjoins (edge before.getLast?) lexeme.token := by
  obtain rfl | ⟨before, last, rfl⟩ := List.eq_nil_or_concat' before
  · exact (List.isChain_cons_cons.1 h).1
  · have hpair : Spaced (before ++ last :: lexeme :: after) := by simpa using h
    simpa [edge] using adjoins_next hpair

/-- After an identifier stands an equals sign. -/
theorem equals_of_ident (h : Spaced (before ++ lexeme :: after))
    (htoken : lexeme.token = some .ident) :
    ∃ equals rest, after = equals :: rest ∧ equals.token = some .equals := by
  have hnext := (adjoins_next h).equals_of_ident htoken
  cases after with
  | nil => cases hnext
  | cons equals rest => exact ⟨equals, rest, rfl, hnext⟩

/-- Before an equals sign stands an identifier or a string. -/
theorem key_of_equals (h : Spaced (before ++ lexeme :: after))
    (htoken : lexeme.token = some .equals) :
    ∃ first key, before = first ++ [key] ∧
      (key.token = some .ident ∨ key.token = some .string) := by
  have hprevious := (adjoins_previous h).key_of_equals htoken
  obtain rfl | ⟨first, key, rfl⟩ := List.eq_nil_or_concat' before
  · obtain hprevious | hprevious := hprevious <;> cases hprevious
  · exact ⟨first, key, rfl, by simpa [edge] using hprevious⟩

/-- Lexemes after a line feed or at the start do not start with an equals sign. -/
theorem not_starts_with_equals (h : Spaced (before ++ after))
    (hbefore : ∀ lexeme ∈ before.getLast?, lexeme.token = some .newline) :
    startsWithEquals after = false := by
  cases after with
  | nil => rfl
  | cons lexeme rest =>
      rw [startsWithEquals, List.head?_cons, Option.any_some, decide_eq_false_iff_not]
      intro htoken
      obtain ⟨first, key, rfl, hkey⟩ := key_of_equals h htoken
      simp [hbefore key (by simp)] at hkey

/-- An equals sign comes first if it is the first lexeme. -/
theorem starts_with_equals_iff :
    startsWithEquals lexemes = true ↔
      ∃ equals rest, lexemes = equals :: rest ∧ equals.token = some .equals := by
  cases lexemes <;> simp [startsWithEquals]

/-- The parts of joined lexemes are those of both, unless an equals sign comes between them. -/
theorem items_append (h : startsWithEquals after = false) :
    items (before ++ after) = items before ++ items after := by
  induction before with
  | nil => rfl
  | cons lexeme rest ih =>
      have hstarts : startsWithEquals (rest ++ after) = startsWithEquals rest := by
        cases rest with
        | nil => exact h
        | cons next others => rfl
      rw [List.cons_append, items, items, ih, hstarts, List.append_assoc]

/-- A part of lexemes is what one of them is. -/
theorem mem_items_iff {item : Item} :
    item ∈ items lexemes ↔ ∃ first lexeme rest, lexemes = first ++ lexeme :: rest ∧
      lexeme.item? (startsWithEquals rest) = some item := by
  induction lexemes with
  | nil => simp [items]
  | cons head others ih =>
      rw [items, List.mem_append, Option.mem_toList, ih]
      constructor
      · rintro (hitem | ⟨first, lexeme, rest, rfl, hitem⟩)
        · exact ⟨[], head, others, rfl, hitem⟩
        · exact ⟨head :: first, lexeme, rest, rfl, hitem⟩
      · rintro ⟨first, lexeme, rest, hsplit, hitem⟩
        cases first with
        | nil =>
            obtain ⟨rfl, rfl⟩ := List.cons.inj hsplit
            exact .inl hitem
        | cons _ first =>
            obtain ⟨rfl, rfl⟩ := List.cons.inj hsplit
            exact .inr ⟨first, lexeme, rest, rfl, hitem⟩

end Lexeme

end Highlighter
