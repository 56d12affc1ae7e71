import Highlighter.Proofs.Acceptance
import Highlighter.Proofs.Attempts
import Highlighter.Proofs.Neighbours
import Highlighter.Proofs.Viable

/-!
# The tree above an error

An error leaves a tree if no container is open where its line starts. The lexemes that the reader
takes open and close its containers (`run_nest`), so when all that is opened above the line is
closed above it, nothing is open there (`AllClosed.suffix`), and the lines above are a document by
themselves (`read_above`). Recovery finds a tree then, if not with the part of the line before the
error, then without it (`parse_of_read_above`). In both cases the text that is read starts with the
lexemes above the line, and the tree has the same parts there as the text
(`partial_tree_above_error`).
-/

namespace Highlighter

namespace Grammar

/-- The container that a lexeme opens. -/
def opens? (lexeme : Lexeme) : Option Frame :=
  match lexeme.token with
  | some .openBrace => some .object
  | some .openBracket => some .list
  | _ => none

/-- The container that a lexeme closes. -/
def closes? (lexeme : Lexeme) : Option Frame :=
  match lexeme.token with
  | some .closeBrace => some .object
  | some .closeBracket => some .list
  | _ => none

/-- The open containers after a lexeme. It may close no other than the innermost. -/
def nest? (frames : List Frame) (lexeme : Lexeme) : Option (List Frame) :=
  match opens? lexeme, closes? lexeme with
  | some frame, _ => some (frame :: frames)
  | none, some frame => if frames.head? = some frame then some frames.tail else none
  | none, none => some frames

/-- The open containers after lexemes. -/
def nestAll? (frames : List Frame) (lexemes : List Lexeme) : Option (List Frame) :=
  lexemes.foldlM nest? frames

/-- The delimiters of the lexemes are in pairs. -/
def Balanced (lexemes : List Lexeme) : Prop :=
  nestAll? [] lexemes = some []

instance : DecidablePred Balanced :=
  fun lexemes => inferInstanceAs (Decidable (nestAll? [] lexemes = some []))

/-- Every container that is opened among the lexemes is closed among them. -/
def AllClosed : List Lexeme → Prop
  | [] => True
  | lexeme :: rest =>
      (∀ frame ∈ opens? lexeme, Enclosed frame.closing Balanced (fun _ => True) rest) ∧
        AllClosed rest

/-- A closing delimiter is found by its index. -/
theorem enclosed_iff_exists_index {closing : Token} {inside : List Lexeme → Prop}
    {lexemes : List Lexeme} :
    Enclosed closing inside (fun _ => True) lexemes ↔
      ∃ i, i < lexemes.length ∧ inside (lexemes.take i) ∧
        lexemes[i]?.bind Lexeme.token = some closing := by
  constructor
  · rintro ⟨inner, last, rest, rfl, hinside, hlast, -⟩
    exact ⟨inner.length, by simp, by simpa using hinside, by simpa using hlast⟩
  · rintro ⟨i, hi, hinside, hlast⟩
    rw [List.getElem?_eq_getElem hi] at hlast
    refine ⟨lexemes.take i, lexemes[i], lexemes.drop (i + 1), ?_, hinside, hlast, trivial⟩
    rw [List.getElem_cons_drop, List.take_append_drop]

instance (closing : Token) (inside : List Lexeme → Prop) [DecidablePred inside] :
    DecidablePred (Enclosed closing inside fun _ => True) :=
  fun _ => decidable_of_iff _ enclosed_iff_exists_index.symm

instance AllClosed.decidable : (lexemes : List Lexeme) → Decidable (AllClosed lexemes)
  | [] => isTrue trivial
  | lexeme :: rest =>
      have := AllClosed.decidable rest
      inferInstanceAs (Decidable
        ((∀ frame ∈ opens? lexeme, Enclosed frame.closing Balanced (fun _ => True) rest) ∧
          AllClosed rest))

variable {lexeme : Lexeme} {lexemes : List Lexeme} {frames after : List Frame}

theorem nest_all_cons (frames : List Frame) (lexeme : Lexeme) (rest : List Lexeme) :
    nestAll? frames (lexeme :: rest) = (nest? frames lexeme).bind (nestAll? · rest) :=
  rfl

theorem nest_all_append (frames : List Frame) (first rest : List Lexeme) :
    nestAll? frames (first ++ rest) = (nestAll? frames first).bind (nestAll? · rest) :=
  List.foldlM_append

/-- A closing delimiter closes the innermost container. -/
theorem nest_of_closing {frame : Frame} (h : lexeme.token = some frame.closing)
    (outer : List Frame) : nest? (frame :: outer) lexeme = some outer := by
  cases frame with
  | object => simp [nest?, opens?, closes?, h, Frame.closing]
  | list => simp [nest?, opens?, closes?, h, Frame.closing]

/-- Containers further out do not matter to a lexeme. -/
theorem nest_append (outer : List Frame) (h : nest? frames lexeme = some after) :
    nest? (frames ++ outer) lexeme = some (after ++ outer) := by
  unfold nest? at h ⊢
  split at h
  · cases h
    rfl
  · obtain ⟨hhead, hrest⟩ := Option.ite_none_right_eq_some.1 h
    cases hrest
    cases frames with
    | nil => cases hhead
    | cons frame frames => simpa using hhead
  · cases h
    rfl

/-- Containers further out do not matter to lexemes. -/
theorem nest_all_append_right (outer : List Frame) (h : nestAll? frames lexemes = some after) :
    nestAll? (frames ++ outer) lexemes = some (after ++ outer) := by
  induction lexemes generalizing frames with
  | nil =>
      cases h
      rfl
  | cons lexeme rest ih =>
      rw [nest_all_cons] at h ⊢
      obtain ⟨middle, hmiddle, hrest⟩ := Option.bind_eq_some_iff.1 h
      rw [nest_append outer hmiddle]
      exact ih hrest

/-- Lexemes with delimiters in pairs leave open what is open. -/
theorem nest_all_balanced (h : Balanced lexemes) (frames : List Frame) :
    nestAll? frames lexemes = some frames :=
  nest_all_append_right frames h

/-- What is closed among lexemes is closed among the last of them. -/
theorem AllClosed.of_append {first rest : List Lexeme} (h : AllClosed (first ++ rest)) :
    AllClosed rest := by
  induction first with
  | nil => exact h
  | cons lexeme first ih => exact ih h.2

/-- Where all that is opened is closed, nothing more is open in the end. -/
theorem AllClosed.suffix (h : AllClosed lexemes) (hnest : nestAll? frames lexemes = some after) :
    after <:+ frames := by
  induction hlength : lexemes.length using Nat.strong_induction_on
    generalizing lexemes frames with
  | _ length ih =>
      cases lexemes with
      | nil =>
          cases hnest
          exact List.suffix_rfl
      | cons lexeme rest =>
          rw [List.length_cons] at hlength
          rw [nest_all_cons] at hnest
          obtain ⟨middle, hmiddle, hrest⟩ := Option.bind_eq_some_iff.1 hnest
          unfold nest? at hmiddle
          split at hmiddle
          · next frame hopens =>
              cases hmiddle
              obtain ⟨inner, last, others, rfl, hinner, hlast, -⟩ := h.1 frame hopens
              rw [nest_all_append, nest_all_balanced hinner, Option.bind_some, nest_all_cons,
                nest_of_closing hlast, Option.bind_some] at hrest
              have hothers : AllClosed others := h.2.of_append.2
              refine ih others.length ?_ hothers hrest rfl
              rw [List.length_append, List.length_cons] at hlength
              omega
          · obtain ⟨-, htail⟩ := Option.ite_none_right_eq_some.1 hmiddle
            cases htail
            exact (ih rest.length (by omega) h.2 hrest rfl).trans (List.tail_suffix frames)
          · cases hmiddle
            exact ih rest.length (by omega) h.2 hrest rfl

end Grammar

namespace Reader

open Grammar

variable {state next last : State} {lexeme : Lexeme} {lexemes : List Lexeme}

/-- The containers that are open around a body that may end. -/
theorem frames_of_body {braces : Option Braces} {body : Body}
    (h : state.body? = some (braces, body)) : state.frames = framesIn braces := by
  cases state <;> cases h <;> rfl

/-- A list that may end is open. -/
theorem frames_of_list {outer : Context} {opened : Position} {items : Items}
    (h : state.list? = some (outer, opened, items)) : state.frames = .list :: outer.frames := by
  cases state <;> cases h <;> rfl

/-- The containers that are open around a value that may start. -/
theorem frames_of_context {context : Context} (h : state.context? = some context) :
    state.frames = context.frames := by
  cases state <;> cases h <;> rfl

theorem entry_context_frames (braces : Option Braces) (body : Body) (key : Text)
    (keyPos : Position) : (entryContext braces body key keyPos).frames = framesIn braces := by
  cases braces <;> rfl

/-- A complete value leaves open what is open around it. -/
theorem frames_of_complete {context : Context} {value : Node}
    (h : context.complete value = .ok next) : next.frames = context.frames := by
  obtain ⟨braces, body, key, keyPos, rfl, rfl⟩ | ⟨outer, opened, items, rfl, rfl⟩ :=
    complete_cases h
  · exact (entry_context_frames braces body key keyPos).symm
  · rfl

/-- A lexeme opens and closes the containers of the reader. -/
theorem taken_nest (h : Taken state lexeme next) :
    nest? state.frames lexeme = some next.frames := by
  cases h with
  | separator _ braces body _ hbody hseparator =>
      rw [frames_of_body hbody]
      obtain htoken | htoken := hseparator <;> simp [nest?, opens?, closes?, htoken]
  | comment braces body _ htoken | entryComment braces body entry _ _ htoken
  | listComment outer opened items _ htoken | elementComment outer opened items _ htoken =>
      simp [nest?, opens?, closes?, htoken]
  | key braces body _ key hkey =>
      unfold keyOf? at hkey
      split at hkey
      · next htoken => simp [nest?, opens?, closes?, htoken]
      · next htoken => simp [nest?, opens?, closes?, htoken]
      · cases hkey
  | equals braces body key keyPos _ htoken =>
      simp [nest?, opens?, closes?, htoken, entry_context_frames]
  | scalar _ context _ value _ hcontext hscalar hcomplete =>
      rw [frames_of_context hcontext, frames_of_complete hcomplete]
      unfold scalarOf? at hscalar
      split at hscalar
      case h_5 => cases hscalar
      all_goals next htoken => simp [nest?, opens?, closes?, htoken]
  | openObject _ context _ hcontext htoken =>
      rw [frames_of_context hcontext]
      simp [nest?, opens?, htoken]
  | openList _ context _ hcontext htoken =>
      rw [frames_of_context hcontext]
      simp [nest?, opens?, htoken]
  | closeObject _ braces body _ _ hbody htoken hcomplete =>
      rw [frames_of_body hbody, frames_of_complete hcomplete]
      exact nest_of_closing htoken _
  | listSeparator _ outer opened items _ hlist hseparator =>
      rw [frames_of_list hlist]
      obtain htoken | htoken := hseparator <;> simp [nest?, opens?, closes?, htoken]
  | closeList _ outer opened items _ _ hlist htoken hcomplete =>
      rw [frames_of_list hlist, frames_of_complete hcomplete]
      exact nest_of_closing htoken _

/-- A step that leaves the document open takes a token. -/
theorem taken_of_open (h : state.step lexeme = .ok next) (hopen : next.isOpen = true) :
    lexeme.token ≠ none ∧ state.isOpen = true ∧ Taken state lexeme next := by
  have hmatched : lexeme.token ≠ none := by
    intro hnone
    obtain ⟨body, rfl, -⟩ := stopped_of_step hnone h
    cases hopen
  have hstate : state.isOpen = true := by
    cases state with
    | stopped body =>
        cases h
        exact hopen
    | _ => rfl
  exact ⟨hmatched, hstate, taken_of_step hstate hmatched h⟩

/-- Lexemes are taken one after the other. -/
theorem exists_of_run_append {first rest : List Lexeme} (h : state.run (first ++ rest) = .ok last) :
    ∃ middle, state.run first = .ok middle ∧ middle.run rest = .ok last := by
  induction first generalizing state with
  | nil => exact ⟨state, rfl, h⟩
  | cons lexeme first ih =>
      obtain ⟨next, hstep, hrun⟩ := run_cons_iff.1 h
      obtain ⟨middle, hfirst, hrest⟩ := ih hrun
      exact ⟨middle, run_cons_iff.2 ⟨next, hstep, hfirst⟩, hrest⟩

/-- Lexemes that leave the document open are tokens, and they open and close the containers of the
reader. -/
theorem run_nest (h : state.run lexemes = .ok last) (hopen : last.isOpen = true) :
    (∀ lexeme ∈ lexemes, lexeme.token ≠ none) ∧ state.isOpen = true ∧
      nestAll? state.frames lexemes = some last.frames := by
  induction lexemes generalizing state with
  | nil =>
      cases h
      exact ⟨by simp, hopen, rfl⟩
  | cons lexeme rest ih =>
      obtain ⟨next, hstep, hrun⟩ := run_cons_iff.1 h
      obtain ⟨hrest, hnext, hnest⟩ := ih hrun
      obtain ⟨hlexeme, hstate, htaken⟩ := taken_of_open hstep hnext
      refine ⟨List.forall_mem_cons.2 ⟨hlexeme, hrest⟩, hstate, ?_⟩
      rw [nest_all_cons, taken_nest htaken]
      exact hnest

/-- Where a line feed is taken and no container is open, the document may end. -/
theorem finish_of_newline (h : Taken state lexeme next) (htoken : lexeme.token = some .newline)
    (hframes : next.frames = []) (pos : Position) : ∃ tree, state.finish pos = .ok tree := by
  cases h with
  | separator _ braces body _ hbody _ =>
      cases braces with
      | some braces => cases hframes
      | none =>
          cases state with
          | item _ body =>
              cases hbody
              exact ⟨_, rfl⟩
          | entryEnd _ body entry =>
              cases hbody
              exact ⟨_, rfl⟩
          | _ => cases hbody
  | listSeparator _ outer opened items _ hlist _ => cases hframes
  | _ => simp_all [keyOf?, scalarOf?]

end Reader

/-- A place that is before another stands no lower. -/
theorem Position.Before.line_le {first second : Position} (h : first.Before second) :
    first.line ≤ second.line := by
  unfold Before at h
  omega

open Grammar (AllClosed keyOf?)
open Lexeme (tokenize endPosition)
open Reader (State)

/-- Before an error the reader takes lexemes, and none of the others stands above the line of the
error. -/
theorem split_of_read_error {text : Text} {error : SyntaxError}
    (h : readDocument text = .error error) :
    ∃ before after last, tokenize text = before ++ after ∧
      State.initial.run before = .ok last ∧ last.isOpen = true ∧
      ∀ lexeme ∈ after, error.pos.line ≤ lexeme.pos.line := by
  unfold readDocument at h
  cases hrun : State.initial.run (tokenize text) with
  | error found =>
      rw [hrun] at h
      cases h
      obtain ⟨before, lexeme, after, last, hsplit, htaken, hstep⟩ := Reader.step_of_run_error hrun
      have hopen : last.isOpen = true := by
        cases last with
        | stopped body => cases hstep
        | _ => rfl
      refine ⟨before, lexeme :: after, last, hsplit, htaken, hopen, fun other hother => ?_⟩
      have hsorted : (before ++ lexeme :: after).Pairwise (·.pos.Before ·.pos) :=
        hsplit ▸ (Lexeme.scans_sorted (Lexeme.scans_scan _ text)).2
      obtain ⟨-, hafter, hbetween⟩ := List.pairwise_append.1 hsorted
      cases Reader.rejects_of_step hstep with
      | unexpected expected =>
          obtain rfl | hother := List.mem_cons.1 hother
          · exact Nat.le_refl _
          · exact ((List.pairwise_cons.1 hafter).1 other hother).line_le
      | duplicateKey key pos hkey =>
          -- The key was taken before, so it stands above the lexeme that completes its entry.
          obtain ⟨name, hname, -, rfl⟩ := Reader.key_of_run htaken hkey
          exact (hbetween name hname other hother).line_le
  | ok state =>
      rw [hrun] at h
      have hopen : state.isOpen = true := by
        cases state with
        | stopped body => cases h
        | _ => rfl
      exact ⟨tokenize text, [], state, by simp, hrun, hopen, by simp⟩

/-- Above a line of a text without carriage returns stand the lines before it, joined, and a line
feed. -/
theorem Recovery.split_above {text : Text} {start n : Nat} (hreturn : '\r' ∉ text)
    (hline : start + n < (Position.advance ⟨start, 1⟩ text).line) :
    ∃ rest, text = joinLines (text.lines.take (n + 1)) ++ '\n' :: rest ∧
      (Position.advance ⟨start, 1⟩ (joinLines (text.lines.take (n + 1)))).line = start + n := by
  induction n generalizing text start with
  | zero =>
      obtain ⟨hfeed, -⟩ | ⟨first, rest, rfl, hfeed, -, hlines⟩ := Text.lines_cases hreturn
      · rw [Position.advance_in_line _ hfeed] at hline
        exact absurd hline (Nat.lt_irrefl _)
      · rw [hlines]
        refine ⟨rest, rfl, ?_⟩
        show (Position.advance ⟨start, 1⟩ first).line = start
        rw [Position.advance_in_line _ hfeed]
  | succ n ih =>
      obtain ⟨hfeed, -⟩ | ⟨first, rest, rfl, hfeed, hrest, hlines⟩ := Text.lines_cases hreturn
      · rw [Position.advance_in_line _ hfeed] at hline
        dsimp only at hline
        omega
      · have hnext : ∀ more, Position.advance ⟨start, 1⟩ (first ++ '\n' :: more) =
            Position.advance ⟨start + 1, 1⟩ more := by
          intro more
          rw [Position.advance_append, Position.advance_in_line _ hfeed]
          rfl
        rw [hnext] at hline
        have hless : start + 1 + n < (Position.advance ⟨start + 1, 1⟩ rest).line := by omega
        obtain ⟨below, hbelow, hend⟩ := ih hrest hless
        have hjoin : joinLines ((first :: Text.lines rest).take (n + 1 + 1)) =
            first ++ '\n' :: joinLines ((Text.lines rest).take (n + 1)) := by
          rw [List.take_succ_cons, join_lines_cons]
          simp [Text.lines]
        rw [hlines, hjoin, hnext, hend]
        refine ⟨below, ?_, by omega⟩
        rw [List.append_assoc, List.cons_append, ← hbelow]

/-- Joined lines have the characters of each of them. -/
theorem Recovery.mem_join_lines {lines : List Text} {line : Text} {c : Char}
    (hline : line ∈ lines) (hc : c ∈ line) : c ∈ joinLines lines := by
  induction lines with
  | nil => cases hline
  | cons first rest ih =>
      by_cases hrest : rest = []
      · subst hrest
        obtain rfl := List.mem_singleton.1 hline
        exact hc
      · rw [join_lines_cons first hrest]
        obtain rfl | hline := List.mem_cons.1 hline
        · exact List.mem_append_left _ hc
        · exact List.mem_append_right _ (List.mem_cons_of_mem _ (ih hline))

/-- A lexeme stands no lower than the end of its text. -/
theorem Lexeme.line_lt_of_mem {text : Text} {lexeme : Lexeme} (h : lexeme ∈ tokenize text) :
    lexeme.pos.line < (endPosition text).line + 1 :=
  Nat.lt_succ_iff.2 (before_end_of_mem h).line_le

/-- The lexemes before a line feed are those of the text before it, and the others stand below. -/
theorem Lexeme.tokenize_above (above rest : Text) :
    ∃ below, tokenize (above ++ '\n' :: rest) =
        tokenize above ++ ⟨some .newline, ['\n'], endPosition above⟩ :: below ∧
      ∀ lexeme ∈ below, (endPosition above).line < lexeme.pos.line := by
  refine ⟨scan ((endPosition above).step '\n') 0 rest, ?_, fun lexeme hlexeme => ?_⟩
  · exact (scans_iff.1 (scans_feed (scans_scan _ above) (scans_scan _ rest))).symm
  · exact line_le_of_mem_scan hlexeme

/-- Above an error the lines are a document if all containers are closed there. -/
theorem read_above {above rest : Text} {error : SyntaxError}
    (h : readDocument (above ++ '\n' :: rest) = .error error)
    (hline : error.pos.line = (endPosition above).line + 1)
    (hclosed : AllClosed
      ((tokenize (above ++ '\n' :: rest)).filter (·.pos.line < error.pos.line))) :
    (∀ lexeme ∈ tokenize above, lexeme.token ≠ none) ∧ ∃ tree, readDocument above = .ok tree := by
  obtain ⟨below, htokens, hbelow⟩ := Lexeme.tokenize_above above rest
  let newline : Lexeme := ⟨some .newline, ['\n'], endPosition above⟩
  have habove : ∀ lexeme ∈ tokenize above ++ [newline], lexeme.pos.line < error.pos.line := by
    intro lexeme hlexeme
    rw [hline]
    obtain hlexeme | hlexeme := List.mem_append.1 hlexeme
    · exact Lexeme.line_lt_of_mem hlexeme
    · rw [List.mem_singleton.1 hlexeme]
      exact Nat.lt_succ_self _
  have hsplit : tokenize (above ++ '\n' :: rest) = tokenize above ++ [newline] ++ below := by
    rw [htokens, List.append_assoc]
    rfl
  have hfilter : (tokenize (above ++ '\n' :: rest)).filter (·.pos.line < error.pos.line) =
      tokenize above ++ [newline] := by
    rw [hsplit, List.filter_append, List.filter_eq_self.2 (by simpa using habove),
      List.filter_eq_nil_iff.2, List.append_nil]
    intro lexeme hlexeme
    have := hbelow lexeme hlexeme
    simp only [decide_eq_true_eq]
    omega
  rw [hfilter] at hclosed
  obtain ⟨before, after, last, htaken, hrun, hopen, hafter⟩ := split_of_read_error h
  -- The lexemes above the line are the first of those that are taken.
  obtain ⟨more, rfl⟩ : tokenize above ++ [newline] <+: before := by
    obtain ⟨more, hmore, -⟩ | ⟨more, hmore, hrest⟩ :=
      List.append_eq_append_iff.1 (hsplit.symm.trans htaken)
    · exact ⟨more, hmore.symm⟩
    · obtain rfl : more = [] := by
        refine List.eq_nil_iff_forall_not_mem.2 fun lexeme hlexeme => ?_
        have hless := habove lexeme (hmore ▸ List.mem_append_right _ hlexeme)
        have hleast := hafter lexeme (hrest ▸ List.mem_append_left _ hlexeme)
        omega
      exact ⟨[], by simpa using hmore⟩
  obtain ⟨state, hthrough, hmore⟩ := Reader.exists_of_run_append hrun
  obtain ⟨-, hstate, -⟩ := Reader.run_nest hmore hopen
  obtain ⟨hmatched, -, hnest⟩ := Reader.run_nest hthrough hstate
  have hframes : state.frames = [] := List.suffix_nil.1 (hclosed.suffix hnest)
  obtain ⟨final, habove, hfeed⟩ := Reader.exists_of_run_append hthrough
  obtain ⟨next, hstep, hlast⟩ := Reader.run_cons_iff.1 hfeed
  cases hlast
  obtain ⟨-, -, hnewline⟩ := Reader.taken_of_open hstep hstate
  refine ⟨fun lexeme hlexeme => hmatched lexeme (List.mem_append_left _ hlexeme), ?_⟩
  rw [readDocument, habove]
  exact Reader.finish_of_newline hnewline rfl hframes _

/-- Lexemes are cut before the first one without a token. -/
theorem Lexeme.split_matched (lexemes : List Lexeme) :
    ∃ taken dropped, lexemes = taken ++ dropped ∧ (∀ lexeme ∈ taken, lexeme.token ≠ none) ∧
      ∀ lexeme ∈ dropped.head?, lexeme.token = none := by
  induction lexemes with
  | nil => exact ⟨[], [], rfl, by simp, by simp⟩
  | cons lexeme rest ih =>
      by_cases hnone : lexeme.token = none
      · exact ⟨[], lexeme :: rest, rfl, by simp, by simpa using hnone⟩
      · obtain ⟨taken, dropped, rfl, hmatched, hhead⟩ := ih
        exact ⟨lexeme :: taken, dropped, rfl, List.forall_mem_cons.2 ⟨hnone, hmatched⟩, hhead⟩

/-- The parts of a document are the lexemes of its text up to the first one without a token. -/
theorem items_of_read {text : Text} {tree : Body} (h : readDocument text = .ok tree) :
    ∃ taken dropped, tokenize text = taken ++ dropped ∧
      (∀ lexeme ∈ dropped.head?, lexeme.token = none) ∧
      tree.items.Perm (Lexeme.items taken) := by
  obtain ⟨taken, dropped, hsplit, hmatched, hhead⟩ := Lexeme.split_matched (tokenize text)
  have hread : State.initial.read (tokenize text) (endPosition text) = .ok tree := h
  obtain ⟨pos, hread⟩ : ∃ pos, State.initial.read taken pos = .ok tree := by
    rw [hsplit] at hread
    cases dropped with
    | nil => exact ⟨_, List.append_nil taken ▸ hread⟩
    | cons bad after =>
        exact ⟨_, (Reader.read_append_unmatched _ _ (hhead bad rfl) _ _ _).1 hread⟩
  have hreads := Reader.reads_of_read rfl hmatched hread
  exact ⟨taken, dropped, hsplit, hhead, Reader.reads_items hreads⟩

/-- A part stands where one of the lexemes does. -/
theorem Lexeme.place_of_mem_items {lexemes : List Lexeme} {item : Item}
    (h : item ∈ items lexemes) : ∃ lexeme ∈ lexemes, item.pos = lexeme.pos.toSource := by
  obtain ⟨first, lexeme, rest, rfl, hitem⟩ := mem_items_iff.1 h
  exact ⟨lexeme, by simp, (item_cases hitem).1⟩

/-- A key before an equals sign is a part. -/
theorem Lexeme.mem_items_of_key {name equals : Lexeme} {key : Text} (hkey : keyOf? name = some key)
    (hequals : equals.token = some .equals) (before after : List Lexeme) :
    ⟨.key key, name.pos.toSource⟩ ∈ items (before ++ name :: equals :: after) := by
  refine mem_items_iff.2 ⟨before, name, equals :: after, rfl, ?_⟩
  rw [starts_with_equals_iff.2 ⟨equals, after, rfl, hequals⟩]
  exact Reader.item_key hkey

/-- The parts above a line are those of the lexemes above it. -/
theorem Lexeme.items_above {above below : List Lexeme} {number : Nat}
    (habove : ∀ lexeme ∈ above, lexeme.pos.line < number)
    (hhead : ∀ lexeme ∈ below.head?, lexeme.token = some .newline)
    (hbelow : ∀ lexeme ∈ below.tail, number ≤ lexeme.pos.line) :
    (items (above ++ below)).filter (·.pos.line < number) = items above := by
  have hequals : startsWithEquals below = false := by
    cases below with
    | nil => rfl
    | cons newline rest => simp [startsWithEquals, hhead newline rfl]
  have hitems : items below = items below.tail := by
    cases below with
    | nil => rfl
    | cons newline rest => simp [items, item?, hhead newline rfl]
  rw [items_append hequals, hitems, List.filter_append, List.filter_eq_self.2,
    List.filter_eq_nil_iff.2, List.append_nil]
  · intro item hitem
    obtain ⟨lexeme, hlexeme, hpos⟩ := place_of_mem_items hitem
    rw [decide_eq_true_eq, hpos, Nat.not_lt]
    exact hbelow lexeme hlexeme
  · intro item hitem
    obtain ⟨lexeme, hlexeme, hpos⟩ := place_of_mem_items hitem
    rw [decide_eq_true_eq, hpos]
    exact habove lexeme hlexeme

/-- A document that starts with lines of tokens has the parts of these lines in them. -/
theorem items_above_of_read {above text : Text} {tree : Body}
    (hmatched : ∀ lexeme ∈ tokenize above, lexeme.token ≠ none)
    (htext : text = above ∨ ∃ rest, text = above ++ '\n' :: rest)
    (h : readDocument text = .ok tree) :
    (tree.items.filter (·.pos.line < (endPosition above).line + 1)).Perm
      (Lexeme.items (tokenize above)) := by
  obtain ⟨below, htokens, hhead, hbelow⟩ : ∃ below, tokenize text = tokenize above ++ below ∧
      (∀ lexeme ∈ below.head?, lexeme.token = some .newline) ∧
      ∀ lexeme ∈ below.tail, (endPosition above).line + 1 ≤ lexeme.pos.line := by
    obtain rfl | ⟨rest, rfl⟩ := htext
    · exact ⟨[], (List.append_nil _).symm, by simp, by simp⟩
    · obtain ⟨below, htokens, hbelow⟩ := Lexeme.tokenize_above above rest
      exact ⟨_, htokens, by simp, hbelow⟩
  obtain ⟨taken, dropped, hsplit, hdropped, hitems⟩ := items_of_read h
  obtain ⟨more, rfl, hmore⟩ : ∃ more, taken = tokenize above ++ more ∧ more <+: below := by
    obtain ⟨more, htaken, hrest⟩ | ⟨more, habove, hrest⟩ :=
      List.append_eq_append_iff.1 (htokens.symm.trans hsplit)
    · exact ⟨more, htaken, dropped, hrest.symm⟩
    · cases more with
      | nil => exact ⟨[], by simp [habove], List.nil_prefix⟩
      | cons bad more =>
          have hbad : bad.token = none := hdropped bad (by simp [hrest])
          exact absurd hbad (hmatched bad (by simp [habove]))
  obtain ⟨last, rfl⟩ := hmore
  refine (hitems.filter _).trans (.of_eq ?_)
  refine Lexeme.items_above (fun lexeme hlexeme => Lexeme.line_lt_of_mem hlexeme) ?_ ?_
  · intro lexeme hlexeme
    exact hhead lexeme (by simp [Option.mem_def.1 hlexeme])
  · intro lexeme hlexeme
    cases more with
    | nil => cases hlexeme
    | cons newline more => exact hbelow lexeme (List.mem_append_left _ hlexeme)

namespace Recovery

/-- A tree is recovered if one of the texts to try has a tree. -/
theorem recover_of_mem {parser : Parser} {text attempt : Text} {error : ParseError}
    (hattempt : attempt ∈ attempts text (ErrorRecord.locate error))
    (htree : (parser attempt).tree?.isSome = true) :
    ∃ tree, ∃ handed ∈ attempts text (ErrorRecord.locate error),
      (parser handed).tree? = some tree ∧
      recover parser text error = .partialTree tree
        { error with
          line := some (ErrorRecord.locate error).line
          column := some (ErrorRecord.locate error).column } := by
  cases hfound : (attempts text (ErrorRecord.locate error)).findSome? fun handed =>
      (parser handed).tree? with
  | none =>
      rw [List.findSome?_eq_none_iff.1 hfound attempt hattempt] at htree
      cases htree
  | some tree =>
      obtain ⟨handed, hhanded, htree⟩ := List.exists_of_findSome?_eq_some hfound
      exact ⟨tree, handed, hhanded, htree, by simp [recover, hfound]⟩

end Recovery

/-- The parser has a tree of the texts that are documents. -/
theorem document_parser_tree_iff {text : Text} {tree : Body} :
    (documentParser text).tree? = some tree ↔ readDocument text = .ok tree := by
  unfold documentParser
  cases readDocument text with
  | ok found => simp [Outcome.tree?]
  | error error => simp [Outcome.tree?]

/-- An error stands no lower than the end of its text. -/
theorem line_le_of_read_error {text : Text} {error : SyntaxError}
    (h : readDocument text = .error error) : error.pos.line ≤ (endPosition text).line := by
  obtain hend | ⟨lexeme, hlexeme, hpos⟩ := place_of_read_error h
  · rw [hend]
  · rw [← hpos]
    exact (Lexeme.before_end_of_mem hlexeme).line_le

/-- The lines above an error, if there is something to be seen in them. -/
theorem lines_above_error {text : Text} {error : SyntaxError} (hreturn : '\r' ∉ text)
    (herror : readDocument text = .error error)
    (hseen : ∃ line ∈ text.lines.take (error.pos.line - 1), line.isBlank = false) :
    ∃ above rest, Recovery.joinLines (text.lines.take (error.pos.line - 1)) = above ∧
      text = above ++ '\n' :: rest ∧ error.pos.line = (endPosition above).line + 1 ∧
      above.isBlank = false := by
  obtain ⟨line, hline, hvisible⟩ := hseen
  obtain ⟨n, hn⟩ : ∃ n, error.pos.line = n + 2 := by
    refine ⟨error.pos.line - 2, ?_⟩
    have hcount := List.length_pos_of_mem hline
    rw [List.length_take] at hcount
    omega
  have hless : 1 + n < (endPosition text).line := by
    have hle := line_le_of_read_error herror
    omega
  rw [hn] at hline ⊢
  obtain ⟨rest, htext, hend⟩ := Recovery.split_above hreturn hless
  refine ⟨_, rest, rfl, htext, ?_, ?_⟩
  · show n + 2 = (endPosition (Recovery.joinLines (text.lines.take (n + 1)))).line + 1
    rw [endPosition, Position.start, hend]
    omega
  · rw [Text.isBlank, List.all_eq_false] at hvisible ⊢
    obtain ⟨c, hc, hspace⟩ := hvisible
    exact ⟨c, Recovery.mem_join_lines hline hc, hspace⟩

/-- When the lines above an error are a document, a tree is recovered, from them or from them and a
part of the line of the error. -/
theorem parse_of_read_above {above rest : Text} {error : SyntaxError} {whole : Body}
    (herror : readDocument (above ++ '\n' :: rest) = .error error)
    (habove : Recovery.joinLines ((Text.lines (above ++ '\n' :: rest)).take (error.pos.line - 1)) =
      above)
    (hvisible : above.isBlank = false) (hwhole : readDocument above = .ok whole) :
    ∃ tree handed, (handed = above ∨ ∃ cut, handed = above ++ '\n' :: cut) ∧
      readDocument handed = .ok tree ∧
      Recovery.parse documentParser (above ++ '\n' :: rest) =
        .partialTree tree error.toParseError := by
  obtain ⟨hfirst, -, hcolumn, -⟩ := bounds_of_read_error herror
  have hlocate := ErrorRecord.locate_cause error hfirst hcolumn
  have hattempt : above ∈ Recovery.attempts (above ++ '\n' :: rest)
      (ErrorRecord.locate error.toParseError) := by
    refine List.mem_filter.2 ⟨List.mem_append_right _ (List.mem_singleton.2 ?_), by simp [hvisible]⟩
    rw [hlocate]
    exact habove.symm
  obtain ⟨tree, handed, hhanded, htree, hrecover⟩ := Recovery.recover_of_mem hattempt
    (Option.isSome_iff_exists.2 ⟨whole, document_parser_tree_iff.2 hwhole⟩)
  rw [hlocate] at hhanded hrecover
  refine ⟨tree, handed, ?_, document_parser_tree_iff.1 htree, ?_⟩
  · have hempty : above.isEmpty = false := by
      cases above with
      | nil => cases hvisible
      | cons c cs => rfl
    obtain hbefore | ⟨line, -, -, hthrough⟩ := Recovery.attempt_cases hhanded
    · exact .inl (hbefore.trans habove)
    · simp only [ErrorRecord.ofPlace, habove, hempty] at hthrough
      exact .inr ⟨_, hthrough⟩
  · have hblank : Text.isBlank (above ++ '\n' :: rest) = false := by
      rw [Text.isBlank, List.all_append]
      exact (congrArg (· && _) hvisible).trans (Bool.false_and _)
    simp only [Recovery.parse, hblank, documentParser, herror]
    exact hrecover

/-- An error on a line that no container is open above leaves a tree. In a text without carriage
returns, if every container that is opened above the line of the error is closed above it and there
is something to be seen above it, then recovery finds a tree with the error as it was reported, and
the tree vouches for all lines above. Every entry whose key stands above the line is in the tree,
and there is nothing in the tree above the line but the parts that the text has there. -/
theorem partial_tree_above_error (text : Text) (error : SyntaxError) (hreturn : '\r' ∉ text)
    (herror : readDocument text = .error error)
    (hclosed : AllClosed ((tokenize text).filter (·.pos.line < error.pos.line)))
    (hseen : ∃ line ∈ text.lines.take (error.pos.line - 1), line.isBlank = false) :
    ∃ tree, Recovery.parse documentParser text = .partialTree tree error.toParseError ∧
      (Recovery.parse documentParser text).limit? = some error.pos.line ∧
      (∀ before name equals after key, tokenize text = before ++ name :: equals :: after →
        keyOf? name = some key → equals.token = some .equals →
        name.pos.line < error.pos.line → ⟨.key key, name.pos.toSource⟩ ∈ tree.items) ∧
      (tree.items.filter (·.pos.line < error.pos.line)).Perm
        ((Lexeme.items (tokenize text)).filter (·.pos.line < error.pos.line)) := by
  obtain ⟨above, rest, habove, rfl, hline, hvisible⟩ := lines_above_error hreturn herror hseen
  obtain ⟨hmatched, whole, hwhole⟩ := read_above herror hline hclosed
  obtain ⟨tree, handed, hstarts, htree, hparse⟩ :=
    parse_of_read_above herror habove hvisible hwhole
  have hitems : (tree.items.filter (·.pos.line < error.pos.line)).Perm
      ((Lexeme.items (tokenize (above ++ '\n' :: rest))).filter
        (·.pos.line < error.pos.line)) := by
    obtain ⟨below, htokens, hbelow⟩ := Lexeme.tokenize_above above rest
    rw [hline, htokens]
    refine (items_above_of_read hmatched hstarts htree).trans (.of_eq (Eq.symm ?_))
    exact Lexeme.items_above (fun lexeme hlexeme => Lexeme.line_lt_of_mem hlexeme) (by simp) hbelow
  refine ⟨tree, hparse, by rw [hparse]; rfl, ?_, hitems⟩
  intro before name equals after key hsplit hkey hequals hname
  refine List.mem_of_mem_filter (hitems.mem_iff.2 (List.mem_filter.2 ⟨?_, decide_eq_true hname⟩))
  rw [hsplit]
  exact Lexeme.mem_items_of_key hkey hequals before after

/-- A list in an object, both closed on later lines, above a key that is there a second time and an
object that is open on the same line. -/
theorem partial_tree_above_error_nested :
    let text := "o = \x7b\n l = [1,\n 2]\n\x7d // c\no = 1, p = \x7b".toList
    let error := SyntaxError.duplicateKey ['o'] ⟨5, 1⟩
    '\r' ∉ text ∧ readDocument text = .error error ∧
      AllClosed ((tokenize text).filter (·.pos.line < error.pos.line)) ∧
      (∃ line ∈ (Text.lines text).take (error.pos.line - 1), line.isBlank = false) ∧
      ∃ tree, Recovery.parse documentParser text = .partialTree tree error.toParseError ∧
        (Recovery.parse documentParser text).limit? = some 5 ∧
        ⟨.key ['o'], ⟨1, some 1⟩⟩ ∈ tree.items ∧ ⟨.key ['l'], ⟨2, some 2⟩⟩ ∈ tree.items := by
  intro text error
  have hreturn : '\r' ∉ text := by decide
  have herror : readDocument text = .error error := error_of_map_eq (by decide +kernel)
  have hclosed : AllClosed ((tokenize text).filter (·.pos.line < error.pos.line)) := by
    decide +kernel
  have hseen : ∃ line ∈ (Text.lines text).take (error.pos.line - 1), line.isBlank = false := by
    decide +kernel
  obtain ⟨tree, hparse, hlimit, hkeys, -⟩ :=
    partial_tree_above_error text error hreturn herror hclosed hseen
  have houter := hkeys [] ⟨some .ident, ['o'], ⟨1, 1⟩⟩ ⟨some .equals, ['='], ⟨1, 3⟩⟩
    ((tokenize text).drop 2) ['o'] (by decide +kernel) rfl rfl (by decide)
  have hinner := hkeys ((tokenize text).take 4) ⟨some .ident, ['l'], ⟨2, 2⟩⟩
    ⟨some .equals, ['='], ⟨2, 4⟩⟩ ((tokenize text).drop 6) ['l'] (by decide +kernel) rfl rfl
    (by decide)
  exact ⟨hreturn, herror, hclosed, hseen, tree, hparse, hlimit, houter, hinner⟩

end Highlighter
