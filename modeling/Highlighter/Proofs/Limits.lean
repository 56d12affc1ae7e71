import Highlighter.Proofs.Verdict

/-!
# Where a partial tree ends

A partial tree vouches for the lines before its limit, which is read off the line field of its
failure. The error that is shown beside it is located from the field or else from the message. The
two name the same line if the field does, or if the field is missing and the message names no line
but the first (`limit_eq_iff`). Recovery writes the located line into the field, so its trees always
end at the error (`limit_of_recover`). A partial tree that the parser itself hands over is committed
as it is, and ends elsewhere when only the message tells the line (`limit_at_error_iff`).
-/

namespace Highlighter

open ErrorRecord (locate)

namespace ParseError

/-- Whether the line field of a failure tells its line: it names one, or it is missing and so is any
line but the first from the message. -/
def TellsLine (error : ParseError) : Prop :=
  error.line ≠ some 0 ∧ (error.line = none → ∀ line ∈ Message.line? error.message, line = 1)

end ParseError

/-- The limit of a partial tree is the located line of its failure if and only if the line field
tells it. -/
theorem limit_eq_iff (tree : Body) (error : ParseError) :
    (Outcome.partialTree tree error).limit? = some (locate error).line ↔ error.TellsLine := by
  have hlocated : (locate error).line =
      (error.line.filter (0 < ·) <|> Message.line? error.message).getD 1 := rfl
  rw [hlocated, Outcome.limit?, Option.some.injEq, ParseError.TellsLine]
  cases hfield : error.line with
  | none =>
      cases hmessage : Message.line? error.message with
      | none => simp
      | some named => simp [eq_comm]
  | some line =>
      cases line with
      | zero =>
          -- The limit would be line zero, but a located line is not.
          have hpos : 0 < (Option.filter (0 < ·) (some 0) <|> Message.line? error.message).getD 1 :=
            ErrorRecord.place_pos (some 0) _ error.message
          refine iff_of_false (fun hsame => ?_) (by simp)
          rw [← hsame] at hpos
          exact absurd hpos (Nat.lt_irrefl 0)
      | succ line =>
          have hkept : ((some (line + 1)).filter (0 < ·) : Option Nat) = some (line + 1) := by simp
          simp [hkept]

/-- A tree that is recovered comes with the failure at its located place. -/
theorem Recovery.failure_of_recover {parser : Parser} {text : Text} {failure error : ParseError}
    {tree : Body} (h : recover parser text failure = .partialTree tree error) :
    error = { failure with line := some (locate failure).line
                           column := some (locate failure).column } := by
  simp only [recover] at h
  split at h
  · cases h
    rfl
  · cases h

/-- A tree that is recovered ends at the error, whose record is that of the failure. -/
theorem Recovery.limit_of_recover {parser : Parser} {text : Text} {failure error : ParseError}
    {tree : Body} (h : recover parser text failure = .partialTree tree error) :
    locate error = locate failure ∧
      (Outcome.partialTree tree error).limit? = some (locate error).line := by
  obtain rfl := failure_of_recover h
  have hlocated := ErrorRecord.locate_located failure
  exact ⟨hlocated, by rw [hlocated]; rfl⟩

/-- A partial tree is recovered after a failure, or the parser itself hands it over. -/
theorem Recovery.partial_cases {parser : Parser} {text : Text} {tree : Body} {error : ParseError}
    (h : parse parser text = .partialTree tree error) :
    (∃ failure, parser text = .failed failure ∧
      recover parser text failure = .partialTree tree error) ∨
    parser text = .partialTree tree error := by
  unfold parse at h
  split at h
  · cases h
  · split at h
    · next failure hfailed => exact .inl ⟨failure, hfailed, h⟩
    · exact .inr h

/-- After a parse that renews the errors and leaves a partial tree, there is one error. A tree that
was recovered ends at its line. A tree that the parser itself handed over ends at its line if and
only if the line field of the failure tells it. -/
theorem limit_at_error_iff (parser : Parser) (engine : Engine) (host : Host) (kind : ParseKind)
    (tree : Body) (error : ParseError) (hkind : kind.updatesErrors = true)
    (hpartial : (engine.parseNow parser host kind).1.snapshot.outcome = .partialTree tree error) :
    let snapshot := (engine.parseNow parser host kind).1.snapshot
    ∃ record, snapshot.errors = [record] ∧
      ((∃ failure, parser host.text = .failed failure ∧ record = locate failure ∧
          snapshot.outcome.limit? = some record.line) ∨
        (parser host.text = .partialTree tree error ∧
          (snapshot.outcome.limit? = some record.line ↔
            error.line ≠ some 0 ∧
              (error.line = none → ∀ line ∈ Message.line? error.message, line = 1)))) := by
  intro snapshot
  have hsnapshot : snapshot = _ := Engine.parse_now_snapshot
  have hparse : Recovery.parse parser host.text = .partialTree tree error := by
    rw [← hpartial, Engine.parse_now_snapshot]
  rw [if_pos hkind, hparse] at hsnapshot
  rw [hsnapshot]
  refine ⟨locate error, rfl, ?_⟩
  obtain ⟨failure, hfailed, hrecover⟩ | hown := Recovery.partial_cases hparse
  · obtain ⟨hrecord, hlimit⟩ := Recovery.limit_of_recover hrecover
    exact .inl ⟨failure, hfailed, hrecord, hlimit⟩
  · exact .inr ⟨hown, limit_eq_iff tree error⟩

/-- A parser that hands over the entry of line one, and tells in the message alone that it failed on
line two. -/
def messageParser : Parser := fun _ =>
  .partialTree
    { entries := [{ key := "my key".toList, value := .scalar .null ⟨1, some 12⟩,
                    pos := ⟨1, some 1⟩ }] }
    { message := "expected value at line 2, col 5".toList }

/-- The tree of a text whose failure is told by the message alone, but recovered: it ends at the
error. -/
theorem limit_at_error_iff_recovered :
    let host := (Document.ofText "\"my key\" = null\nb = !".toList).host
    let failure : ParseError := { message := "expected value at line 2, col 5".toList }
    let parser : Parser := fun text =>
      if text.contains ['!'] then .failed failure else messageParser text
    let snapshot := ((Engine.ofSettings {}).parseNow parser host .diagnostics).1.snapshot
    ∃ record, snapshot.errors = [record] ∧ snapshot.outcome.limit? = some record.line := by
  intro host failure parser snapshot
  obtain ⟨record, herrors, hcases⟩ := limit_at_error_iff parser (Engine.ofSettings {}) host
    .diagnostics _ _ rfl rfl
  obtain ⟨-, -, -, hlimit⟩ | ⟨hown, -⟩ := hcases
  · exact ⟨record, herrors, hlimit⟩
  · cases hown

/-- A failure on line two that only its message tells: the error is shown on line two, but the tree
does not vouch for line one, whose quoted key is painted as a string. -/
theorem message_line_not_limit :
    let text : Text := "\"my key\" = null\nb = !".toList
    let engine := ((Engine.ofSettings {}).parseNow messageParser (Document.ofText text).host
      .diagnostics).1
    engine.snapshot.errors.map (·.line) = [2] ∧ engine.snapshot.outcome.limit? = some 1 ∧
      (engine.highlightLine 1 "\"my key\" = null".toList).categoryAt 0 = some .string := by
  decide +kernel

end Highlighter
