import Highlighter.Cli.Run
import Highlighter.Proofs.Acceptance
import Highlighter.Proofs.Ticks
import Highlighter.Proofs.Words

/-!
# What a check says

A check fails if and only if the reader fails, whatever the settings and the arguments are
(`check_verdict`). Three things lead to this. The engine takes a blank text for an empty document
without asking the reader, and the reader would accept it too (`read_of_blank`). Recovery may put a
partial tree beside a failure but keeps its record (`errors_of_parse`). And the first paint after a
document was attached is due at the engine's next deadline, where nothing else is, so it commits the
text with its errors whatever the parse delay is and whether automatic parsing is on or not
(`first_snapshot`).
-/

namespace Highlighter

open Lexeme
open Reader (State)

/-- Line feeds and lexemes without a token add nothing to a document. -/
theorem Reader.read_of_spaces {lexemes : List Lexeme} (body : Body) (pos : Position)
    (h : ∀ lexeme ∈ lexemes, lexeme.token = none ∨ lexeme.token = some .newline) :
    (State.item none body).read lexemes pos = .ok body := by
  induction lexemes with
  | nil => rfl
  | cons lexeme rest ih =>
      obtain ⟨hlexeme, hrest⟩ := List.forall_mem_cons.1 h
      obtain htoken | htoken := hlexeme
      · exact (read_unmatched _ htoken rest pos body).2 rfl
      · rw [read_cons, State.step, readItem, htoken]
        exact ih hrest

/-- The reader accepts a blank text. -/
theorem read_of_blank {text : Text} (h : text.isBlank = true) :
    readDocument text = .ok .empty := by
  refine Reader.read_of_spaces .empty (endPosition text) fun lexeme hlexeme => ?_
  obtain ⟨before, after, htext, -, hshape⟩ := exists_of_mem_scans (scans_scan _ text) hlexeme
  refine token_of_space hshape fun c hc => ?_
  exact List.all_eq_true.1 h c (by simp [htext, hc])

/-- A number that a message names is not zero. -/
theorem Message.number_after_pos {words : List Text} {message : Text} {n : Nat}
    (h : numberAfter? words message = some n) : 0 < n := by
  obtain ⟨digits, -, h⟩ := Option.bind_eq_some_iff.1 h
  simp only [Option.ite_none_right_eq_some, Bool.and_eq_true, decide_eq_true_eq] at h
  obtain ⟨⟨⟨-, hpos⟩, -⟩, hvalue⟩ := h
  exact Option.some.inj hvalue ▸ hpos

namespace ErrorRecord

/-- A field that is not zero, or else a number that a message names, or else one, is not zero. -/
theorem place_pos (field : Option Nat) (words : List Text) (message : Text) :
    0 < (field.filter (0 < ·) <|> Message.numberAfter? words message).getD 1 := by
  cases hfield : field.filter (0 < ·) with
  | some n => simpa using (Option.filter_eq_some_iff.1 hfield).2
  | none =>
      cases hnumber : Message.numberAfter? words message with
      | some n => exact Message.number_after_pos hnumber
      | none => exact Nat.one_pos

/-- A failure that is put at its located place has the same record. -/
theorem locate_located (error : ParseError) :
    locate { error with line := some (locate error).line, column := some (locate error).column } =
      locate error := by
  have hline : 0 < (locate error).line := place_pos _ _ _
  have hcolumn : 0 < (locate error).column := place_pos _ _ _
  have hplace : ∀ n : Nat, 0 < n → ((some n).filter (0 < ·) : Option Nat) = some n := by simp
  conv_lhs => rw [locate]
  simp only [hplace _ hline, hplace _ hcolumn]
  rfl

end ErrorRecord

/-- Recovery keeps the record of a failure. -/
theorem Recovery.errors_of_recover (parser : Parser) (text : Text) (error : ParseError) :
    Engine.errorsOf (recover parser text error) = [ErrorRecord.locate error] := by
  unfold recover
  simp only
  split
  · simp [Engine.errorsOf, Outcome.error?, ErrorRecord.locate_located]
  · rfl

/-- The errors of a text are those that its parser finds, unless it is blank. -/
theorem Recovery.errors_of_parse (parser : Parser) (text : Text) :
    Engine.errorsOf (parse parser text) =
      if text.isBlank then [] else Engine.errorsOf (parser text) := by
  unfold parse
  split
  · rfl
  · split
    · next error herror => rw [errors_of_recover, herror]; rfl
    · rfl

/-- The reader has errors for the texts that it fails on. -/
theorem errors_ne_nil_iff (text : Text) :
    Engine.errorsOf (Recovery.parse documentParser text) ≠ [] ↔
      ∃ cause, readDocument text = .error cause := by
  rw [Recovery.errors_of_parse]
  split
  · next hblank => simp [read_of_blank hblank]
  · unfold documentParser
    cases readDocument text <;> simp [Engine.errorsOf, Outcome.error?]

/-- The engine's next deadline after a document was attached is that of the first paint, which
commits the text with its errors. -/
theorem Engine.first_snapshot (parser : Parser) (settings : Settings) (host : Host) (start : Nat) :
    let attached := ((ofSettings settings).update parser host .attached start).1
    attached.timers.nextDeadline = some (start + Timers.firstPaintDelay) ∧
      (attached.update parser host .tick (start + Timers.firstPaintDelay)).1.snapshot =
        { outcome := Recovery.parse parser host.text
          errors := errorsOf (Recovery.parse parser host.text)
          revision := host.revision } := by
  intro attached
  refine ⟨rfl, ?_⟩
  show (tick parser attached host (start + Timers.firstPaintDelay)).1.snapshot = _
  generalize hresult : tick parser attached host (start + Timers.firstPaintDelay) = result
  have hticks : Ticks parser attached host (start + Timers.firstPaintDelay) result :=
    hresult ▸ ticks_tick parser attached host _
  cases hticks with
  | idle hfirst _ => simp [attached, update, Timers.attach, Timers.paintsAt] at hfirst
  | firstPaint _ _ => rw [parse_now_snapshot]; rfl
  | task _ htask _ _ => cases htask
  | stale _ htask _ _ => cases htask

/-- The errors of the first paint decide how a check ends. -/
theorem Cli.exit_of_check {files user : Files} {args : Args} {text : Text}
    (hcheck : args.check = true) (htext : (files args.file).document = .ok text) :
    (runArgs files user args).exit =
      if (firstPaint (runSettings user args) (.ofText text)).1.snapshot.errors.isEmpty then 0
      else 1 := by
  simp [runArgs, htext, highlight, hcheck]

/-- Whatever the settings and the arguments are, the first paint of a text commits one and the same
snapshot, and a check of the text fails if and only if the reader fails. -/
theorem check_verdict (text : Text) :
    ∃ snapshot : Snapshot,
      (snapshot.errors ≠ [] ↔ ∃ cause, readDocument text = .error cause) ∧
      (∀ (settings : Settings) (args : Cli.Args) (start : Nat),
        let host := (Document.ofText text).host
        let attached :=
          ((Engine.ofSettings (args.apply settings)).update documentParser host .attached start).1
        ∃ due, attached.timers.nextDeadline = some due ∧
          (attached.update documentParser host .tick due).1.snapshot = snapshot) ∧
      ∀ (files user : Files) (words : List Text) (args : Cli.Args),
        Cli.parse words = .ok (.run args) → args.check = true →
        (files args.file).document = .ok text →
        ∃ output, Cli.run files user words = .done output ∧
          output.exit = if snapshot.errors.isEmpty then 0 else 1 := by
  let host := (Document.ofText text).host
  let outcome := Recovery.parse documentParser text
  refine ⟨⟨outcome, Engine.errorsOf outcome, host.revision⟩, errors_ne_nil_iff text, ?_, ?_⟩
  · intro settings args start
    exact ⟨_, Engine.first_snapshot documentParser (args.apply settings) host start⟩
  · intro files user words args hwords hcheck htext
    have hsnapshot : (Cli.firstPaint (Cli.runSettings user args) (.ofText text)).1.snapshot = _ :=
      (Engine.first_snapshot documentParser (Cli.runSettings user args) host 0).2
    refine ⟨Cli.runArgs files user args, by rw [Cli.run, hwords], ?_⟩
    rw [Cli.exit_of_check hcheck htext, hsnapshot]
    rfl

/-- A check of a text that ends within an entry, without errors shown: it fails, although automatic
parsing is off in the settings. -/
theorem check_verdict_failed :
    let files : Files := fun _ => .found (.ofBytes "a = ".toByteArray)
    let user : Files := fun _ => .found (.ofBytes "auto_parse_enabled: false".toByteArray)
    let words := ["d".toList, "--check".toList, "--no-errors".toList]
    ∃ output, Cli.run files user words = .done output ∧ output.exit = 1 := by
  intro files user words
  obtain ⟨snapshot, hverdict, -, hrun⟩ := check_verdict "a = ".toList
  obtain ⟨output, hdone, hexit⟩ := hrun files user words
    { file := "d".toList, check := true, hideErrors := true } (by rfl) rfl (by decide +kernel)
  have herrors : snapshot.errors ≠ [] := hverdict.2 ⟨_, rfl⟩
  exact ⟨output, hdone, by simpa [herrors] using hexit⟩

end Highlighter
