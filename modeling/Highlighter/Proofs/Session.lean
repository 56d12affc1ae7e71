import Highlighter.Proofs.Ticks

/-!
# An engine at work on a document

A session is an engine with the document that it paints. The document is edited and each edit is
reported at once; the engine is sent other events; or it is told to parse at once. Beside the two, a
session remembers how many edits there were, how many of them the text of the snapshot has seen, and
whether a full parse was cancelled since the last edit.

`Sound` is what every action keeps (`sound_act`), and so every run (`sound_run`): a pending task is
always for the document as it is, an edit that the snapshot has not seen has a task pending unless
it was cancelled, and a snapshot that has seen every edit is that of the document's text. Two
results follow. While automatic parsing stays on, no edit is lost (`pending_or_parsed`). While it is
off, an edit that the snapshot has not seen has a task pending unless turning it off has cancelled a
full parse since (`pending_iff_not_cancelled`).
-/

namespace Highlighter

/-- A change to a document. -/
inductive Change where
  | insert (index : Nat) (added : Text)
  | remove (first last : Nat)
  | setText (text : Text)
  deriving DecidableEq, Repr

/-- The document after a change, with what the change did. -/
def Document.change (doc : Document) : Change → Document × Edit
  | .insert index added => doc.insert index added
  | .remove first last => doc.remove first last
  | .setText text => doc.setText text

/-- What may happen in a session. -/
inductive Action where
  /-- The document is edited, and the engine told of it. -/
  | edit (change : Change)
  /-- The engine is told of something else. -/
  | send (event : Event)
  /-- The document is parsed at once. -/
  | parse (kind : ParseKind)
  deriving DecidableEq, Repr

/-- An engine and its document, with their history: the number of edits, the number of those that
the text of the snapshot has seen, and whether a full parse was cancelled since the last one. -/
structure Session where
  engine : Engine
  doc : Document
  edits : Nat := 0
  seen : Nat := 0
  cancelled : Bool := false

/-- What a task is to do, whenever it is due: the kind of parse and the revision it is for. -/
def Task.errand (task : Task) : ParseKind × UInt64 :=
  (task.kind, task.revision)

/-- Showing or hiding errors keeps the timers. -/
theorem Engine.set_show_errors_timers (engine : Engine) (on : Bool) :
    (engine.setShowErrors on).1.timers = engine.timers := by
  unfold Engine.setShowErrors
  split <;> rfl

/-- Showing or hiding errors keeps the snapshot. -/
theorem Engine.set_show_errors_snapshot (engine : Engine) (on : Bool) :
    (engine.setShowErrors on).1.snapshot = engine.snapshot := by
  unfold Engine.setShowErrors
  split <;> rfl

namespace Session

/-- A session with an engine that has done nothing. -/
def start (settings : Settings) (doc : Document) : Session where
  engine := .ofSettings settings
  doc := doc

/-- Tell the engine of an event. A tick that asks for the lines to be painted has parsed the
document. A task is cancelled if a full parse is pending before automatic parsing is turned off and
none is after. -/
def send (parser : Parser) (session : Session) (event : Event) (now : Nat) : Session :=
  let (engine, command) := session.engine.update parser session.doc.host event now
  let dropped :=
    session.engine.timers.pending.any (·.kind = .diagnostics) && engine.timers.pending.isNone
  { session with
    engine
    seen := if event = .tick && command.needsRehighlight then session.edits else session.seen
    cancelled :=
      match event with
      | .edited _ => false
      | .autoParse false => session.cancelled || dropped
      | _ => session.cancelled }

/-- The session after an action. -/
def act (parser : Parser) (session : Session) (action : Action) (now : Nat) : Session :=
  match action with
  | .edit change =>
      let (doc, edit) := session.doc.change change
      { session with doc, edits := session.edits + 1 }.send parser (.edited edit) now
  | .send event => session.send parser event now
  | .parse kind =>
      { session with
        engine := (session.engine.parseNow parser session.doc.host kind).1
        seen := session.edits }

/-- The session after actions in order, each with the time it happens at. -/
def run (parser : Parser) (session : Session) : List (Action × Nat) → Session
  | [] => session
  | (action, now) :: rest => (session.act parser action now).run parser rest

/-- The task that is pending. -/
abbrev pending (session : Session) : Option Task :=
  session.engine.timers.pending

/-- Whether automatic parsing is on. -/
abbrev auto (session : Session) : Bool :=
  session.engine.timers.auto

/-- Whether the snapshot is that of the document as it is. -/
def Current (parser : Parser) (session : Session) : Prop :=
  session.engine.snapshot.revision = session.doc.revision ∧
    session.engine.snapshot.outcome = Recovery.parse parser session.doc.text

/-- What holds of every session: a pending task is of the kind that edits arm and stamped with the
document's revision; an edit that the snapshot has not seen has a task pending, unless it was
cancelled and automatic parsing is off; and a snapshot that has seen every edit is current. -/
structure Sound (parser : Parser) (session : Session) : Prop where
  seen_le : session.seen ≤ session.edits
  kind : ∀ task ∈ session.pending, task.kind = if session.auto then .diagnostics else .syntaxOnly
  stamp : ∀ task ∈ session.pending, task.revision = session.doc.revision
  armed : session.seen ≠ session.edits → session.auto = true → session.pending ≠ none
  kept : session.seen ≠ session.edits → session.auto = false →
    (session.pending = none ↔ session.cancelled = true)
  current : session.seen = session.edits → 0 < session.edits → session.Current parser

variable {parser : Parser} {session : Session}

/-- A session in which nothing has happened is sound. -/
theorem sound_start (settings : Settings) (doc : Document) : (start settings doc).Sound parser where
  seen_le := Nat.le_refl 0
  kind := fun _ htask => nomatch htask
  stamp := fun _ htask => nomatch htask
  armed := fun hseen => absurd rfl hseen
  kept := fun hseen => absurd rfl hseen
  current := fun _ hedits => absurd hedits (Nat.lt_irrefl 0)

/-- What keeps the snapshot, and the pending task but for the time when it is due, keeps a session
sound. -/
theorem Sound.retimed {engine : Engine} (h : session.Sound parser)
    (hsnapshot : engine.snapshot = session.engine.snapshot)
    (hauto : engine.timers.auto = session.auto)
    (hpending : engine.timers.pending.map Task.errand = session.pending.map Task.errand) :
    { session with engine }.Sound parser := by
  have hold : ∀ task ∈ engine.timers.pending,
      ∃ old ∈ session.pending, old.errand = task.errand := by
    intro task htask
    have hmem : session.pending.map Task.errand = some task.errand := by
      rw [← hpending, htask, Option.map_some]
    exact Option.map_eq_some_iff.1 hmem
  have hnone : engine.timers.pending = none ↔ session.pending = none := by
    rw [← Option.map_eq_none_iff, hpending, Option.map_eq_none_iff]
  constructor
  · exact h.seen_le
  · intro task htask
    obtain ⟨old, hold, hsame⟩ := hold task htask
    show task.kind = if engine.timers.auto then _ else _
    rw [hauto, ← h.kind old hold]
    exact congrArg Prod.fst hsame.symm
  · intro task htask
    obtain ⟨old, hold, hsame⟩ := hold task htask
    rw [← h.stamp old hold]
    exact congrArg Prod.snd hsame.symm
  · intro hseen hon hpending
    exact h.armed hseen (hauto ▸ hon) (hnone.1 hpending)
  · intro hseen hoff
    exact hnone.trans (h.kept hseen (hauto ▸ hoff))
  · intro hseen hedits
    simpa only [Current, hsnapshot] using h.current hseen hedits

/-- A parse of the document keeps a session sound, whether it takes the pending task or not. -/
theorem sound_parse {timers : Timers} (kind : ParseKind) (h : session.Sound parser)
    (hauto : timers.auto = session.auto)
    (hpending : ∀ task ∈ timers.pending, task ∈ session.pending) :
    Session.Sound parser
      { session with
        engine :=
          (Engine.parseNow parser { session.engine with timers } session.doc.host kind).1
        seen := session.edits } := by
  constructor
  · exact Nat.le_refl _
  · intro task htask
    simp only [pending, auto, Engine.parse_now_timers] at htask ⊢
    rw [hauto]
    exact h.kind task (hpending task htask)
  · intro task htask
    simp only [pending, Engine.parse_now_timers] at htask
    exact h.stamp task (hpending task htask)
  · exact fun hseen => absurd rfl hseen
  · exact fun hseen => absurd rfl hseen
  · intro _ _
    simp only [Current, Engine.parse_now_snapshot]
    exact ⟨rfl, rfl⟩

/-- A report of an edit arms a task for the document as it is. -/
theorem sound_edited (edit : Edit) (now : Nat) (hseen : session.seen ≤ session.edits)
    (hcurrent : session.seen = session.edits → 0 < session.edits → session.Current parser) :
    (session.send parser (.edited edit) now).Sound parser := by
  have hpending : ∃ due, (session.send parser (.edited edit) now).pending =
      some ⟨if session.auto then .diagnostics else .syntaxOnly, session.doc.revision, due⟩ := by
    show ∃ due, (if session.auto then some (Task.mk _ _ _) else some (Task.mk _ _ _)) = _
    cases session.auto with
    | true => exact ⟨_, rfl⟩
    | false => exact ⟨_, rfl⟩
  obtain ⟨due, hpending⟩ := hpending
  constructor
  · exact hseen
  · rw [hpending]
    rintro task ⟨⟩
    rfl
  · rw [hpending]
    rintro task ⟨⟩
    rfl
  · simp [hpending]
  · intro _ _
    rw [hpending]
    exact iff_of_false (by simp) Bool.false_ne_true
  · exact hcurrent

/-- A tick finds no task for another revision, so it parses or does nothing. -/
theorem sound_tick (now : Nat) (h : session.Sound parser) :
    (session.send parser .tick now).Sound parser := by
  have hleft : ∀ task ∈ (session.engine.timers.left now).pending, task ∈ session.pending :=
    fun task htask => (Option.filter_eq_some_iff.1 htask).1
  show Session.Sound parser
    { session with
      engine := (session.engine.tick parser session.doc.host now).1
      seen :=
        if (session.engine.tick parser session.doc.host now).2.needsRehighlight then session.edits
        else session.seen }
  generalize hresult : session.engine.tick parser session.doc.host now = result
  have hticks : session.engine.Ticks parser session.doc.host now result :=
    hresult ▸ Engine.ticks_tick parser _ _ now
  cases hticks with
  | idle _ _ => exact h
  | firstPaint _ _ =>
      rw [if_pos Engine.parse_now_needs_rehighlight]
      exact sound_parse _ h rfl hleft
  | task _ _ _ _ =>
      rw [if_pos Engine.parse_now_needs_rehighlight]
      exact sound_parse _ h rfl hleft
  | stale task htask _ hstamp => exact absurd (h.stamp task htask) hstamp

/-- Automatic parsing that is set to what it was stays as it was. -/
theorem send_auto_parse_same (now : Nat) :
    session.send parser (.autoParse session.auto) now = session := by
  have hsame : session.engine.timers.setAuto session.auto session.doc.host.revision now =
      session.engine.timers := if_pos rfl
  have hdropped :
      (session.pending.any (·.kind = .diagnostics) && session.pending.isNone) = false := by
    cases session.pending with
    | none => rfl
    | some task => exact Bool.and_false _
  simp only [send, Engine.update, hsame, hdropped, Bool.or_false]
  cases session.auto <;> rfl

/-- Turning automatic parsing on arms a full parse. -/
theorem sound_turned_on (now : Nat) (h : session.Sound parser) (hoff : session.auto = false) :
    (session.send parser (.autoParse true) now).Sound parser := by
  have htimers : (session.send parser (.autoParse true) now).engine.timers =
      { session.engine.timers with
        auto := true
        pending := some
          ⟨.diagnostics, session.doc.revision, now + session.engine.timers.delay⟩ } :=
    if_neg (by simp [hoff])
  constructor
  · exact h.seen_le
  · rw [pending, auto, htimers]
    rintro task ⟨⟩
    rfl
  · rw [pending, htimers]
    rintro task ⟨⟩
    rfl
  · simp [pending, htimers]
  · simp [auto, htimers]
  · exact h.current

/-- Turning automatic parsing off cancels the task that is pending, which is a full parse. -/
theorem sound_turned_off (now : Nat) (h : session.Sound parser) (hon : session.auto = true) :
    (session.send parser (.autoParse false) now).Sound parser := by
  have hnone : session.pending.filter (·.kind ≠ .diagnostics) = none := by
    rw [Option.filter_eq_none_iff]
    intro task htask
    simp [h.kind task htask, hon]
  have htimers : (session.send parser (.autoParse false) now).engine.timers =
      { session.engine.timers with auto := false, pending := none } := by
    rw [← hnone]
    exact if_neg (by simp [hon])
  have hcancelled : (session.send parser (.autoParse false) now).cancelled =
      (session.cancelled || session.pending.any (·.kind = .diagnostics)) := by
    show (session.cancelled || (session.pending.any (·.kind = .diagnostics) &&
      (session.send parser (.autoParse false) now).engine.timers.pending.isNone)) = _
    simp [htimers]
  constructor
  · exact h.seen_le
  · simp [pending, htimers]
  · simp [pending, htimers]
  · simp [auto, htimers]
  · intro hseen _
    obtain ⟨task, htask⟩ := Option.ne_none_iff_exists'.1 (h.armed hseen hon)
    have hkind : task.kind = .diagnostics := by
      rw [h.kind task htask, hon, if_pos rfl]
    simp [pending, htimers, hcancelled, htask, hkind]
  · exact h.current

/-- Setting automatic parsing keeps a session sound. -/
theorem sound_auto_parse (on : Bool) (now : Nat) (h : session.Sound parser) :
    (session.send parser (.autoParse on) now).Sound parser := by
  by_cases hsame : session.auto = on
  · rw [← hsame, send_auto_parse_same]
    exact h
  · cases on with
    | true => exact sound_turned_on now h (by simpa using hsame)
    | false => exact sound_turned_off now h (by simpa using hsame)

/-- Every event keeps a session sound. -/
theorem sound_send (event : Event) (now : Nat) (h : session.Sound parser) :
    (session.send parser event now).Sound parser := by
  cases event with
  | edited edit => exact sound_edited edit now h.seen_le h.current
  | attached => exact h.retimed rfl rfl rfl
  | tick => exact sound_tick now h
  | showErrors on =>
      have htimers := Engine.set_show_errors_timers session.engine on
      refine h.retimed (Engine.set_show_errors_snapshot session.engine on) ?_ ?_
      · exact congrArg Timers.auto htimers
      · exact congrArg (fun timers => timers.pending.map Task.errand) htimers
  | parseDelay delay =>
      refine h.retimed rfl rfl ?_
      show (session.pending.map _).map Task.errand = session.pending.map Task.errand
      rw [Option.map_map]
      refine Option.map_congr fun task _ => ?_
      by_cases hkind : task.kind = .diagnostics <;> simp [Task.errand, hkind]
  | autoParse on => exact sound_auto_parse on now h

/-- Every action keeps a session sound. -/
theorem sound_act (action : Action) (now : Nat) (h : session.Sound parser) :
    (session.act parser action now).Sound parser := by
  cases action with
  | edit change =>
      refine sound_edited _ now (Nat.le_succ_of_le h.seen_le) fun hseen => ?_
      -- The snapshot cannot have seen an edit that was only just made.
      have hle := h.seen_le
      simp only at hseen
      omega
  | send event => exact sound_send event now h
  | parse kind => exact sound_parse kind h rfl fun _ htask => htask

/-- Every run keeps a session sound. -/
theorem sound_run (actions : List (Action × Nat)) (h : session.Sound parser) :
    (session.run parser actions).Sound parser := by
  induction actions generalizing session with
  | nil => exact h
  | cons timed rest ih => exact ih (sound_act timed.1 timed.2 h)

/-- Only an event that says so turns automatic parsing off. -/
theorem auto_act {action : Action} (now : Nat) (hauto : session.auto = true)
    (haction : action ≠ .send (.autoParse false)) :
    (session.act parser action now).auto = true := by
  cases action with
  | edit change => exact hauto
  | parse kind =>
      show (session.engine.parseNow parser session.doc.host kind).1.timers.auto = true
      rw [Engine.parse_now_timers]
      exact hauto
  | send event =>
      cases event with
      | edited edit => exact hauto
      | attached => exact hauto
      | tick =>
          exact (Engine.ticks_tick parser session.engine session.doc.host now).auto.trans hauto
      | showErrors on =>
          show (session.engine.setShowErrors on).1.timers.auto = true
          rw [Engine.set_show_errors_timers]
          exact hauto
      | parseDelay delay => exact hauto
      | autoParse on =>
          cases on with
          | true =>
              show (session.engine.timers.setAuto true _ now).auto = true
              rw [Timers.setAuto, if_pos hauto]
              exact hauto
          | false => exact absurd rfl haction

/-- Automatic parsing stays on unless it is turned off. -/
theorem auto_run {actions : List (Action × Nat)} (hauto : session.auto = true)
    (hactions : ∀ timed ∈ actions, timed.1 ≠ .send (.autoParse false)) :
    (session.run parser actions).auto = true := by
  induction actions generalizing session with
  | nil => exact hauto
  | cons timed rest ih =>
      obtain ⟨haction, hrest⟩ := List.forall_mem_cons.1 hactions
      exact ih (auto_act timed.2 hauto haction) hrest

/-- No action takes an edit back. -/
theorem edits_le_run (parser : Parser) (session : Session) (actions : List (Action × Nat)) :
    session.edits ≤ (session.run parser actions).edits := by
  induction actions generalizing session with
  | nil => exact Nat.le_refl _
  | cons timed rest ih =>
      obtain ⟨action, now⟩ := timed
      refine Nat.le_trans ?_ (ih (session.act parser action now))
      cases action with
      | edit change => exact Nat.le_succ _
      | send event => exact Nat.le_refl _
      | parse kind => exact Nat.le_refl _

/-- There were edits if there was one among the actions. -/
theorem edits_run_pos {actions : List (Action × Nat)} {change : Change} {now : Nat}
    (hedit : (.edit change, now) ∈ actions) : 0 < (session.run parser actions).edits := by
  induction actions generalizing session with
  | nil => cases hedit
  | cons timed rest ih =>
      obtain rfl | hlater := List.mem_cons.1 hedit
      · have hedits : (session.act parser (.edit change) now).edits = session.edits + 1 := rfl
        have hrest := edits_le_run parser (session.act parser (.edit change) now) rest
        show 0 < ((session.act parser (.edit change) now).run parser rest).edits
        omega
      · exact ih hlater

/-- While automatic parsing stays on, no edit is lost: after an edit a full parse is pending for the
document as it is, or nothing is pending and the snapshot is that of the document as it is. -/
theorem pending_or_parsed (parser : Parser) (settings : Settings) (doc : Document)
    (actions : List (Action × Nat)) (hauto : settings.autoParse = true)
    (hactions : ∀ timed ∈ actions, timed.1 ≠ .send (.autoParse false))
    (hedit : ∃ change now, (.edit change, now) ∈ actions) :
    let session := (start settings doc).run parser actions
    (∃ due, session.pending = some ⟨.diagnostics, session.doc.revision, due⟩) ∨
      session.pending = none ∧ session.engine.snapshot.revision = session.doc.revision ∧
        session.engine.snapshot.outcome = Recovery.parse parser session.doc.text := by
  intro session
  obtain ⟨change, now, hedit⟩ := hedit
  have hsound : session.Sound parser := sound_run actions (sound_start settings doc)
  have hon : session.auto = true := auto_run hauto hactions
  cases hpending : session.pending with
  | some task =>
      obtain ⟨kind, revision, due⟩ := task
      have hkind := hsound.kind _ hpending
      have hstamp := hsound.stamp _ hpending
      rw [hon, if_pos rfl] at hkind
      subst hkind hstamp
      exact .inl ⟨due, rfl⟩
  | none =>
      have hseen : session.seen = session.edits := by
        by_contra hseen
        exact hsound.armed hseen hon hpending
      exact .inr ⟨rfl, hsound.current hseen (edits_run_pos hedit)⟩

/-- The counter of edits wraps between two edits, of which the first paint has seen the first. -/
theorem pending_or_parsed_wrapped :
    let doc : Document := { text := "a = 1".toList, revision := 18446744073709551615 }
    let actions : List (Action × Nat) :=
      [(.send .attached, 0), (.edit (.insert 5 "0".toList), 90), (.send .tick, 100),
        (.edit (.remove 4 5), 120), (.send (.parseDelay 200), 130)]
    let session := (start {} doc).run documentParser actions
    (∃ due, session.pending = some ⟨.diagnostics, session.doc.revision, due⟩) ∨
      session.pending = none ∧ session.engine.snapshot.revision = session.doc.revision ∧
        session.engine.snapshot.outcome = Recovery.parse documentParser session.doc.text :=
  pending_or_parsed documentParser {} _ _ rfl (by decide) ⟨.remove 4 5, 120, by decide⟩

/-- While automatic parsing is off, an edit that the snapshot has not seen has a task pending if and
only if no full parse was cancelled since the last edit by turning automatic parsing off. A snapshot
that has seen every edit is that of the document as it is. -/
theorem pending_iff_not_cancelled (parser : Parser) (settings : Settings) (doc : Document)
    (actions : List (Action × Nat)) :
    let session := (start settings doc).run parser actions
    session.seen ≤ session.edits ∧
      (session.seen = session.edits → 0 < session.edits →
        session.engine.snapshot.revision = session.doc.revision ∧
          session.engine.snapshot.outcome = Recovery.parse parser session.doc.text) ∧
      (session.auto = false → session.seen < session.edits →
        (session.pending ≠ none ↔ session.cancelled = false)) := by
  intro session
  have hsound : session.Sound parser := sound_run actions (sound_start settings doc)
  refine ⟨hsound.seen_le, hsound.current, fun hoff hseen => ?_⟩
  rw [Ne, hsound.kept (Nat.ne_of_lt hseen) hoff, Bool.not_eq_true]

/-- An edit after a full parse was cancelled has a task pending again, and the tick when that is due
shows the document as it is. -/
theorem pending_iff_not_cancelled_edited :
    let doc := Document.ofText "a = 1".toList
    let actions : List (Action × Nat) :=
      [(.send .attached, 0), (.send .tick, 100), (.edit (.insert 5 "0".toList), 100),
        (.send (.autoParse false), 100), (.edit (.insert 6 "0".toList), 103)]
    let painted := actions ++ [(.send .tick, 113)]
    let session := (start {} doc).run documentParser actions
    let settled := (start {} doc).run documentParser painted
    session.auto = false ∧ session.seen < session.edits ∧ session.pending ≠ none ∧
      session.engine.snapshot.revision ≠ session.doc.revision ∧
      settled.auto = false ∧ settled.seen = settled.edits ∧
      settled.engine.snapshot.revision = settled.doc.revision ∧
      settled.engine.snapshot.outcome = Recovery.parse documentParser settled.doc.text := by
  intro doc actions painted session settled
  have hoff : session.auto = false := by decide +kernel
  have hseen : session.seen < session.edits := by decide +kernel
  have hall : settled.seen = settled.edits := by decide +kernel
  obtain ⟨-, -, hpending⟩ := pending_iff_not_cancelled documentParser {} doc actions
  obtain ⟨-, hcurrent, -⟩ := pending_iff_not_cancelled documentParser {} doc painted
  refine ⟨hoff, hseen, (hpending hoff hseen).2 ?_, ?_, ?_, hall, hcurrent hall ?_⟩
  · decide +kernel
  · decide +kernel
  · decide +kernel
  · decide +kernel

/-- An edit whose full parse was cancelled by turning automatic parsing off is not shown, and
nothing is pending that would show it. -/
theorem cancelled_edit_not_pending :
    let session := (start {} (.ofText "a = 1".toList)).run documentParser
      [(.send .attached, 0), (.send .tick, 100), (.edit (.insert 5 "0".toList), 100),
        (.send (.autoParse false), 100)]
    session.auto = false ∧ session.seen < session.edits ∧
      session.engine.snapshot.revision ≠ session.doc.revision ∧ session.pending = none := by
  decide +kernel

end Session

end Highlighter
