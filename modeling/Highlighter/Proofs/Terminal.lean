import Highlighter.Proofs.Messages
import Highlighter.Render.Ansi

/-!
# What a terminal shows

A terminal passes over escape sequences and shows every other character under the parameters that
are in force there. `Emits output cells` says what it shows for an output that starts and ends with
nothing in force; outputs that follow one another emit what each of them does (`Emits.flatMap`). A
text in a style emits its characters under the parameters of the style and nothing else
(`emits_styled`), whatever the style is.
-/

namespace Highlighter.Ansi

/-- A character that may stand in the parameters of an escape sequence. -/
def isParameter (c : Char) : Bool :=
  c.isDigit || c == ';' || c == ':'

/-- The parameters of the escape sequence that a text starts with. -/
def parameters? (text : Text) : Option Text :=
  let parameters := (text.drop 2).takeWhile isParameter
  if (escape parameters).isPrefixOf text then some parameters else none

/-- What is in force after an escape sequence: its parameters come on top of those before, and the
parameter zero, or none, takes all of them back. -/
def obey (active : List Text) (parameters : Text) : List Text :=
  if parameters = [] ∨ parameters = ['0'] then [] else active ++ [parameters]

/-- What a terminal shows of a text: the characters outside of escape sequences, each with what is
in force there. The first `skip` characters belong to a sequence already taken. -/
def shown (active : List Text) (skip : Nat) : Text → List (Char × List Text)
  | [] => []
  | c :: cs =>
      match skip with
      | skip + 1 => shown active skip cs
      | 0 =>
          match parameters? (c :: cs) with
          | some parameters => shown (obey active parameters) (parameters.length + 2) cs
          | none => (c, active) :: shown active 0 cs

/-- A text without its escape sequences. -/
def stripped (text : Text) : Text :=
  (shown [] 0 text).map Prod.fst

/-- The parameters that are in force under a style. -/
def inForce (base : Color) (style : Style) : List Text :=
  match codes base style with
  | [] => []
  | parameters => [join ";".toList parameters]

/-- The characters after those that belong to a sequence are shown. -/
theorem shown_skip (active : List Text) (first rest : Text) :
    shown active first.length (first ++ rest) = shown active 0 rest := by
  induction first with
  | nil => rfl
  | cons c cs ih => exact ih

/-- Only an escape character starts a sequence. -/
theorem parameters_of_plain {c : Char} (hc : c ≠ '\x1b') (cs : Text) :
    parameters? (c :: cs) = none := by
  refine if_neg ?_
  simp [escape, hc.symm]

/-- Plain characters are shown under what is in force. -/
theorem shown_plain (active : List Text) {text : Text} (htext : '\x1b' ∉ text) (rest : Text) :
    shown active 0 (text ++ rest) = text.map (·, active) ++ shown active 0 rest := by
  induction text with
  | nil => rfl
  | cons c cs ih =>
      obtain ⟨hc, hcs⟩ := List.ne_and_not_mem_of_not_mem_cons htext
      simp only [List.cons_append, shown, parameters_of_plain hc.symm, ih hcs, List.map_cons]

/-- An escape sequence has the parameters that it was made of. -/
theorem parameters_escape {parameters : Text} (h : ∀ c ∈ parameters, isParameter c = true)
    (rest : Text) : parameters? (escape parameters ++ rest) = some parameters := by
  have htaken : ((escape parameters ++ rest).drop 2).takeWhile isParameter = parameters := by
    have hrest : (escape parameters ++ rest).drop 2 = parameters ++ 'm' :: rest := by simp [escape]
    rw [hrest, List.takeWhile_append_of_pos h, List.takeWhile_cons_of_neg (by decide),
      List.append_nil]
  rw [parameters?, htaken]
  exact if_pos (by simp)

/-- An escape sequence is not shown, and changes what is in force. -/
theorem shown_escape (active : List Text) {parameters : Text}
    (h : ∀ c ∈ parameters, isParameter c = true) (rest : Text) :
    shown active 0 (escape parameters ++ rest) = shown (obey active parameters) 0 rest := by
  have hsequence : parameters? ('\x1b' :: ('[' :: parameters ++ ['m'] ++ rest)) = some parameters :=
    parameters_escape h rest
  have hlength : parameters.length + 2 = ('[' :: parameters ++ ['m']).length := by simp
  show shown active 0 ('\x1b' :: ('[' :: parameters ++ ['m'] ++ rest)) = _
  rw [shown, hsequence]
  show shown (obey active parameters) (parameters.length + 2) ('[' :: parameters ++ ['m'] ++ rest) =
    _
  rw [hlength, shown_skip]

/-- `Emits output cells` says that a terminal with nothing in force shows the given characters for
an output, each under the given parameters, and has nothing in force after it. -/
def Emits (output : Text) (cells : List (Char × List Text)) : Prop :=
  ∀ rest, shown [] 0 (output ++ rest) = cells ++ shown [] 0 rest

/-- Outputs that follow one another emit what each of them does. -/
theorem Emits.flatMap {α : Type} {output : α → Text} {cells : α → List (Char × List Text)}
    {parts : List α} (h : ∀ part ∈ parts, Emits (output part) (cells part)) :
    Emits (parts.flatMap output) (parts.flatMap cells) := by
  induction parts with
  | nil => exact fun rest => rfl
  | cons part parts ih =>
      obtain ⟨hpart, hparts⟩ := List.forall_mem_cons.1 h
      intro rest
      rw [List.flatMap_cons, List.flatMap_cons, List.append_assoc, hpart, ih hparts,
        List.append_assoc]

/-- What is emitted is what is shown. -/
theorem Emits.shown_eq {output : Text} {cells : List (Char × List Text)} (h : Emits output cells) :
    shown [] 0 output = cells := by
  have hall := h []
  rwa [List.append_nil, shown, List.append_nil] at hall

/-- `IsCode code` says that a text may be the parameters of a style: it consists of parameter
characters and does not start with a zero. -/
structure IsCode (code : Text) : Prop where
  parameters : ∀ c ∈ code, isParameter c = true
  starts : ∃ c cs, code = c :: cs ∧ c ≠ '0'

/-- The parameters of a style come on top of those before. -/
theorem IsCode.obey_eq {code : Text} (h : IsCode code) (active : List Text) :
    obey active code = active ++ [code] := by
  obtain ⟨c, cs, rfl, hc⟩ := h.starts
  simp [obey, hc]

/-- Parameters with a semicolon between them are parameters. -/
theorem IsCode.join {codes : List Text} (h : ∀ code ∈ codes, IsCode code) (hcodes : codes ≠ []) :
    IsCode (join ";".toList codes) := by
  induction codes with
  | nil => exact absurd rfl hcodes
  | cons code rest ih =>
      obtain ⟨hcode, hrest⟩ := List.forall_mem_cons.1 h
      cases rest with
      | nil => exact hcode
      | cons next others =>
          have hlater := ih hrest (by simp)
          refine ⟨fun c hc => ?_, ?_⟩
          · simp only [Ansi.join, List.mem_append] at hc
            rcases hc with (hc | hc) | hc
            · exact hcode.parameters c hc
            · rw [List.mem_singleton.1 hc]
              decide
            · exact hlater.parameters c hc
          · obtain ⟨c, cs, rfl, hc⟩ := hcode.starts
            exact ⟨c, _, rfl, hc⟩

/-- A colour after its selector is a parameter. -/
theorem IsCode.color (selector : String) (h : IsCode selector.toList) (color : Color) :
    IsCode (colorCode selector color) := by
  have hdigits : ∀ n, ∀ c ∈ Text.ofNat n, isParameter c = true := by
    intro n c hc
    simp [isParameter, Message.digits_of_nat n c hc]
  have hkind : ∀ c ∈ ";2;".toList, isParameter c = true := List.all_eq_true.1 (by decide)
  have hnext : ∀ c ∈ ";".toList, isParameter c = true := List.all_eq_true.1 (by decide)
  constructor
  · intro c hc
    simp only [colorCode, List.mem_append] at hc
    rcases hc with (((((hc | hc) | hc) | hc) | hc) | hc) | hc
    · exact h.parameters c hc
    · exact hkind c hc
    · exact hdigits _ c hc
    · exact hnext c hc
    · exact hdigits _ c hc
    · exact hnext c hc
    · exact hdigits _ c hc
  · obtain ⟨c, cs, hselector, hc⟩ := h.starts
    exact ⟨c, _, by rw [colorCode, hselector]; rfl, hc⟩

/-- A text of parameter characters that does not start with a zero is a parameter. -/
theorem is_code_of_check {code : Text}
    (h : (code.all isParameter && code.head?.any (· ≠ '0')) = true) : IsCode code := by
  rw [Bool.and_eq_true] at h
  obtain ⟨hall, hhead⟩ := h
  cases code with
  | nil => cases hhead
  | cons c cs => exact ⟨List.all_eq_true.1 hall, c, cs, rfl, by simpa using hhead⟩

/-- The codes of a style are parameters. -/
theorem is_code_of_mem {base : Color} {style : Style} : ∀ code ∈ codes base style, IsCode code := by
  intro code hcode
  simp only [codes, List.mem_append] at hcode
  rcases hcode with (((hbold | hitalic) | hunderline) | hforeground) | hbackground
  · split at hbold
    · rw [List.mem_singleton.1 hbold]
      exact is_code_of_check (by decide)
    · cases hbold
  · split at hitalic
    · rw [List.mem_singleton.1 hitalic]
      exact is_code_of_check (by decide)
    · cases hitalic
  · split at hunderline
    · cases hunderline
    · rcases List.mem_pair.1 hunderline with rfl | rfl
      · exact is_code_of_check (by decide)
      · exact IsCode.color "58" (is_code_of_check (by decide)) _
  · obtain ⟨color, -, rfl⟩ := Option.map_eq_some_iff.1 (Option.mem_toList.1 hforeground)
    exact IsCode.color "38" (is_code_of_check (by decide)) color
  · obtain ⟨color, -, rfl⟩ := Option.map_eq_some_iff.1 (Option.mem_toList.1 hbackground)
    exact IsCode.color "48" (is_code_of_check (by decide)) _

/-- A text in a style emits its characters under the parameters of the style. -/
theorem emits_styled (base : Color) (style : Style) {text : Text} (htext : '\x1b' ∉ text) :
    Emits (styled base style text) (text.map (·, inForce base style)) := by
  intro rest
  unfold styled inForce
  cases hcodes : codes base style with
  | nil => exact shown_plain [] htext rest
  | cons first others =>
      have hcode : IsCode (join ";".toList (first :: others)) :=
        IsCode.join (hcodes ▸ is_code_of_mem) (List.cons_ne_nil first others)
      have hreset : ∀ c ∈ "0".toList, isParameter c = true := List.all_eq_true.1 (by decide)
      have hplain : ∀ active, obey active "0".toList = [] := fun active => if_pos (.inr rfl)
      rw [List.append_assoc, List.append_assoc, shown_escape [] hcode.parameters, hcode.obey_eq,
        List.nil_append, shown_plain _ htext, shown_escape _ hreset, hplain]

end Highlighter.Ansi
