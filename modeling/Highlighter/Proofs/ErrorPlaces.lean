import Highlighter.Proofs.Items
import Highlighter.Proofs.Places

/-!
# Where errors are reported

The reader reports an error at the lexeme that may not stand next, at the key of an entry whose key
is taken, or at the end of the text. `Rejects` lists what the error of a step can be and
`rejects_of_step` is the one case split over the reader. A key that is reported is a part that the
state holds, and every part that a state holds is a lexeme that was taken (`item_of_run`), so every
error is about a lexeme of the text or about its end (`blames_of_read_error`) and has its place from
there (`place_of_read_error`).
-/

namespace Highlighter

namespace Reader

open Grammar (keyOf?)

variable {state next : State} {lexeme : Lexeme} {error : SyntaxError}

/-- `Rejects state lexeme error` says that a lexeme may not stand next, or that it completes an
entry whose key the state holds a second time. -/
inductive Rejects (state : State) (lexeme : Lexeme) : SyntaxError → Prop where
  | unexpected (expected) :
      Rejects state lexeme (.unexpected expected (Found.ofLexeme lexeme) lexeme.pos)
  | duplicateKey (key pos) :
      ⟨.key key, pos.toSource⟩ ∈ state.items → Rejects state lexeme (.duplicateKey key pos)

/-- A complete entry is refused for its key. -/
theorem complete_entry_error {braces : Option Braces} {body : Body} {key : Text}
    {keyPos : Position} {value : Node}
    (h : completeEntry braces body key keyPos value = .error error) :
    error = .duplicateKey key keyPos := by
  unfold completeEntry at h
  split at h
  · cases h
    rfl
  · cases h

/-- A complete value is refused for the key before it. -/
theorem complete_error {context : Context} {value : Node}
    (h : context.complete value = .error error) :
    ∃ key pos, error = .duplicateKey key pos ∧ ⟨.key key, pos.toSource⟩ ∈ context.items := by
  cases context with
  | top body key keyPos => exact ⟨key, keyPos, complete_entry_error h, by simp [Context.items]⟩
  | member outer opened body key keyPos =>
      exact ⟨key, keyPos, complete_entry_error h, by simp [Context.items]⟩
  | element outer opened items => cases h

/-- A value that is complete is refused for a key that the state holds. -/
theorem rejects_of_complete {context : Context} {value : Node}
    (hcontext : ∀ item ∈ context.items, item ∈ state.items)
    (h : context.complete value = .error error) : Rejects state lexeme error := by
  obtain ⟨key, pos, rfl, hkey⟩ := complete_error h
  exact .duplicateKey key pos (hcontext _ hkey)

/-- A lexeme is refused where a value must start. -/
theorem rejects_of_read_value {context : Context} (hcontext : state.context? = some context)
    (h : readValue context lexeme = .error error) : Rejects state lexeme error := by
  have hitems : ∀ item ∈ context.items, item ∈ state.items := by
    intro item hitem
    rwa [items_of_context hcontext]
  unfold readValue at h
  split at h
  · exact rejects_of_complete hitems h
  · exact rejects_of_complete hitems h
  · exact rejects_of_complete hitems h
  · exact rejects_of_complete hitems h
  · cases h
  · cases h
  · cases h
    exact .unexpected _

/-- A lexeme is refused where a body may end. -/
theorem rejects_of_end_body {braces : Option Braces} {body : Body} {instead : Expectation}
    (hbody : state.body? = some (braces, body))
    (h : endBody braces body instead lexeme = .error error) : Rejects state lexeme error := by
  unfold endBody at h
  split at h
  · refine rejects_of_complete (fun item hitem => ?_) h
    refine (items_of_body hbody).perm.mem_iff.2 (List.mem_append_left _ ?_)
    exact List.mem_append_left _ hitem
  · cases h
    exact .unexpected _
  · cases h
  · cases h
    exact .unexpected _

/-- A list that is complete is refused where it stands. -/
theorem rejects_of_close_list {outer : Context} {opened : Position} {items : Items}
    (hlist : state.list? = some (outer, opened, items))
    (h : closeList outer opened items lexeme = .error error) : Rejects state lexeme error := by
  refine rejects_of_complete (fun item hitem => ?_) h
  rw [items_of_list hlist]
  exact List.mem_append_left _ hitem

/-- Every error of a step is one of those that `Rejects` lists. -/
theorem rejects_of_step (h : state.step lexeme = .error error) : Rejects state lexeme error := by
  cases state with
  | item braces body =>
      simp only [State.step, readItem] at h
      split at h
      case h_6 => exact rejects_of_end_body rfl h
      all_goals cases h
  | equals braces body key keyPos =>
      simp only [State.step] at h
      split at h
      · cases h
      · cases h
        exact .unexpected _
  | value context => exact rejects_of_read_value rfl h
  | entryEnd braces body entry =>
      simp only [State.step, readEntryEnd] at h
      split at h
      · cases h
      · cases h
      · split at h
        · cases h
        · cases h
          exact .unexpected _
      · exact rejects_of_end_body rfl h
  | element outer opened items =>
      simp only [State.step, readElement] at h
      split at h
      · cases h
      · cases h
      · cases h
      · exact rejects_of_close_list rfl h
      · exact rejects_of_read_value rfl h
  | elementEnd outer opened items commented =>
      simp only [State.step, readElementEnd] at h
      split at h
      · cases h
      · cases h
      · exact rejects_of_close_list rfl h
      · split at h
        · cases h
          exact .unexpected _
        · cases h
      · cases h
        exact .unexpected _
  | stopped body => cases h

/-- A lexeme without a token that ends the document leaves nothing but its body. -/
theorem stopped_of_step (hnone : lexeme.token = none) (h : state.step lexeme = .ok next) :
    ∃ body, next = .stopped body ∧ ∀ item ∈ body.items, item ∈ state.items := by
  cases state with
  | item braces body =>
      cases braces with
      | none =>
          simp only [State.step, readItem, endBody, hnone, Except.ok.injEq] at h
          exact ⟨body, h.symm, fun item hitem => List.mem_append_right _ hitem⟩
      | some braces => simp [State.step, readItem, endBody, hnone, unexpected] at h
  | equals braces body key keyPos => simp [State.step, hnone, unexpected] at h
  | value context => simp [State.step, readValue, hnone, unexpected] at h
  | entryEnd braces body entry =>
      cases braces with
      | none =>
          simp only [State.step, readEntryEnd, endBody, hnone, Except.ok.injEq] at h
          refine ⟨body.push entry, h.symm, fun item hitem => ?_⟩
          simpa [State.items, itemsAround] using (push_items body entry).perm.mem_iff.1 hitem
      | some braces => simp [State.step, readEntryEnd, endBody, hnone, unexpected] at h
  | element outer opened items =>
      simp [State.step, readElement, readValue, hnone, unexpected] at h
  | elementEnd outer opened items commented =>
      simp [State.step, readElementEnd, hnone, unexpected] at h
  | stopped body =>
      cases h
      exact ⟨body, rfl, fun item hitem => hitem⟩

/-- Every part that a state holds was held before the step or is what the lexeme is. -/
theorem item_of_step {item : Item} (h : state.step lexeme = .ok next)
    (hitem : item ∈ next.items) :
    item ∈ state.items ∨ ∃ isKey, lexeme.item? isKey = some item := by
  by_cases hnone : lexeme.token = none
  · obtain ⟨body, rfl, hbody⟩ := stopped_of_step hnone h
    exact .inl (hbody item hitem)
  cases hopen : state.isOpen with
  | true =>
      have hmem := (taken_items (taken_of_step hopen hnone h)).perm.mem_iff.1 hitem
      obtain hheld | hnew := List.mem_append.1 hmem
      · exact .inl hheld
      · exact .inr ⟨_, Option.mem_toList.1 hnew⟩
  | false =>
      cases state with
      | stopped body =>
          cases h
          exact .inl hitem
      | _ => cases hopen

/-- Every part that a state holds was held before or is what a lexeme is that was taken. -/
theorem item_of_run {item : Item} {lexemes : List Lexeme} {last : State}
    (h : state.run lexemes = .ok last) (hitem : item ∈ last.items) :
    item ∈ state.items ∨ ∃ lexeme ∈ lexemes, ∃ isKey, lexeme.item? isKey = some item := by
  induction lexemes generalizing state with
  | nil =>
      cases h
      exact .inl hitem
  | cons lexeme rest ih =>
      obtain ⟨next, hstep, hrun⟩ := run_cons_iff.1 h
      obtain hnext | ⟨other, hother, hnew⟩ := ih hrun
      · obtain hstate | hnew := item_of_step hstep hnext
        · exact .inl hstate
        · exact .inr ⟨lexeme, List.mem_cons_self, hnew⟩
      · exact .inr ⟨other, List.mem_cons_of_mem _ hother, hnew⟩

/-- The error of a run is the error of a step, and the lexemes before it are taken. -/
theorem step_of_run_error {lexemes : List Lexeme} (h : state.run lexemes = .error error) :
    ∃ before lexeme after last, lexemes = before ++ lexeme :: after ∧
      state.run before = .ok last ∧ last.step lexeme = .error error := by
  induction lexemes generalizing state with
  | nil => cases h
  | cons lexeme rest ih =>
      rw [State.run] at h
      cases hstep : state.step lexeme with
      | error found =>
          rw [hstep] at h
          cases h
          exact ⟨[], lexeme, rest, state, rfl, rfl, hstep⟩
      | ok next =>
          rw [hstep] at h
          obtain ⟨before, other, after, last, rfl, hrun, herror⟩ := ih h
          refine ⟨lexeme :: before, other, after, last, rfl, ?_, herror⟩
          rw [State.run, hstep]
          exact hrun

/-- `Blames lexeme error` says that an error is about a lexeme: it may not stand next, or it is the
key of an entry whose key is taken. -/
inductive Blames (lexeme : Lexeme) : SyntaxError → Prop where
  | unexpected (expected) :
      Blames lexeme (.unexpected expected (Found.ofLexeme lexeme) lexeme.pos)
  | duplicateKey (key) : keyOf? lexeme = some key → Blames lexeme (.duplicateKey key lexeme.pos)

/-- An error stands where the lexeme does that it is about. -/
theorem Blames.pos_eq (h : Blames lexeme error) : lexeme.pos = error.pos := by
  cases h <;> rfl

/-- A key that the reader holds is a lexeme that was taken. -/
theorem key_of_run {lexemes : List Lexeme} {last : State} {key : Text} {pos : Position}
    (h : State.initial.run lexemes = .ok last) (hkey : ⟨.key key, pos.toSource⟩ ∈ last.items) :
    ∃ name ∈ lexemes, keyOf? name = some key ∧ name.pos = pos := by
  obtain hnone | ⟨name, hname, isKey, hitem⟩ := item_of_run h hkey
  · -- Before the first lexeme the reader holds no part.
    cases hnone
  · obtain ⟨hpos, hcase⟩ := item_cases hitem
    refine ⟨name, hname, ?_, (pos_of_to_source hpos).symm⟩
    rcases hcase with ⟨htoken, htext⟩ | ⟨htoken, -, htext⟩
    · simp [keyOf?, htoken, htext]
    · simp [keyOf?, htoken, htext]

/-- Every error of a run is about one of the lexemes. -/
theorem blames_of_run_error {lexemes : List Lexeme} (h : State.initial.run lexemes = .error error) :
    ∃ lexeme ∈ lexemes, Blames lexeme error := by
  obtain ⟨before, lexeme, after, last, rfl, hrun, hstep⟩ := step_of_run_error h
  cases rejects_of_step hstep with
  | unexpected expected => exact ⟨lexeme, by simp, .unexpected expected⟩
  | duplicateKey key pos hkey =>
      obtain ⟨name, hname, hspelled, rfl⟩ := key_of_run hrun hkey
      exact ⟨name, by simp [hname], .duplicateKey key hspelled⟩

/-- At the end of the input nothing but the end is reported. -/
theorem finish_error {pos : Position} (h : state.finish pos = .error error) :
    ∃ expected, error = .unexpected expected .endOfInput pos := by
  unfold State.finish at h
  split at h
  all_goals cases h
  all_goals exact ⟨_, rfl⟩

end Reader

open Reader (State)

/-- An error is about a lexeme of the text, or about its end. -/
theorem blames_of_read_error {text : Text} {error : SyntaxError}
    (h : readDocument text = .error error) :
    (∃ expected, error = .unexpected expected .endOfInput (Lexeme.endPosition text)) ∨
      ∃ lexeme ∈ Lexeme.tokenize text, Reader.Blames lexeme error := by
  unfold readDocument at h
  cases hrun : State.initial.run (Lexeme.tokenize text) with
  | error found =>
      rw [hrun] at h
      cases h
      exact .inr (Reader.blames_of_run_error hrun)
  | ok state =>
      rw [hrun] at h
      exact .inl (Reader.finish_error h)

/-- The place of an error is that of a lexeme or of the end of the text. -/
theorem place_of_read_error {text : Text} {error : SyntaxError}
    (h : readDocument text = .error error) :
    error.pos = Lexeme.endPosition text ∨
      ∃ lexeme ∈ Lexeme.tokenize text, lexeme.pos = error.pos := by
  rcases blames_of_read_error h with ⟨expected, rfl⟩ | ⟨lexeme, hlexeme, hblames⟩
  · exact .inl rfl
  · exact .inr ⟨lexeme, hlexeme, hblames.pos_eq⟩

/-- Lines and columns of errors count from one and do not go past the end of the text. -/
theorem bounds_of_read_error {text : Text} {error : SyntaxError}
    (h : readDocument text = .error error) :
    0 < error.pos.line ∧ error.pos.line ≤ text.length + 1 ∧
      0 < error.pos.column ∧ error.pos.column ≤ text.length + 1 := by
  obtain ⟨before, after, rfl, hpos⟩ : ∃ before after, text = before ++ after ∧
      error.pos = Position.start.advance before := by
    obtain hend | ⟨lexeme, hlexeme, hpos⟩ := place_of_read_error h
    · exact ⟨text, [], (List.append_nil text).symm, hend⟩
    · obtain ⟨before, after, htext, hplace, -⟩ :=
        Lexeme.exists_of_mem_scans (Lexeme.scans_scan Position.start text) hlexeme
      exact ⟨before, lexeme.text ++ after, by rw [htext, List.append_assoc], hpos ▸ hplace⟩
  have hfeeds : before.count '\n' ≤ before.length := List.count_le_length
  have hlast := Text.last_line_length_le before
  rw [hpos, Position.advance_start, List.length_append]
  dsimp only
  omega

/-- A text is rejected with an error when evaluation says so. -/
theorem error_of_map_eq {result : Except SyntaxError Body} {error : SyntaxError}
    (h : (result.map fun _ => ()) = .error error) : result = .error error := by
  cases result with
  | ok tree => cases h
  | error found =>
      cases h
      rfl

end Highlighter
