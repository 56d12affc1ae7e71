import Highlighter.Command
import Mathlib.Data.List.Basic

/-!
# Collapsed commands

A command is a tree of batches, and what it asks for stands at the leaves. `Command.requests` reads
these off in order, and both things that a host asks of a command are found in them: whether the
lines are to be painted (`needs_rehighlight_eq`) and which list of errors comes first
(`errors_eq`). One command for several has the requests of all (`requests_of_list`), so collapsing a
command keeps its requests and their order (`requests_collapse`).

`Tidy` says that no batch within a command could be left out. A collapsed command is tidy
(`tidy_collapse`), a tidy command stays as it is when it is collapsed (`collapse_of_tidy`), and the
only tidy command without requests is `none` (`eq_none_of_tidy`).
-/

namespace Highlighter.Command

/-- What holds of the leaves, and of each batch if it holds of its members, holds of every
command. -/
theorem member_induction {motive : Command → Prop} (none : motive .none)
    (errorsChanged : ∀ errors, motive (.errorsChanged errors)) (rehighlight : motive .rehighlight)
    (batch : ∀ commands, (∀ member ∈ commands, motive member) → motive (.batch commands))
    (command : Command) : motive command := by
  refine @Command.rec motive (fun commands => ∀ member ∈ commands, motive member) none
    errorsChanged rehighlight batch ?_ ?_ command
  · intro member hmember
    cases hmember
  · intro first rest hfirst hrest member hmember
    rcases List.mem_cons.1 hmember with rfl | hmember
    · exact hfirst
    · exact hrest member hmember

/-- `Within part command` says that a part is the command or stands somewhere in its batches. -/
inductive Within (part : Command) : Command → Prop where
  | self : Within part part
  | member (member commands) :
      member ∈ commands → Within part member → Within part (.batch commands)

/-- Whether each batch within a command has at least two members, none of which is `none`. -/
def Tidy (command : Command) : Prop :=
  ∀ commands, Within (.batch commands) command → .none ∉ commands ∧ 2 ≤ commands.length

mutual

/-- The leaves of a command that ask for something, in order. -/
def requests : Command → List Command
  | .none => []
  | .errorsChanged errors => [.errorsChanged errors]
  | .rehighlight => [.rehighlight]
  | .batch commands => allRequests commands

/-- The leaves of several commands that ask for something, in order. -/
def allRequests : List Command → List Command
  | [] => []
  | command :: rest => command.requests ++ allRequests rest

end

section Members

variable (commands : List Command)

/-- A batch has the requests of its members. -/
theorem requests_batch : (batch commands).requests = commands.flatMap requests := by
  show allRequests commands = _
  induction commands with
  | nil => rfl
  | cons command rest ih => rw [allRequests, ih, List.flatMap_cons]

/-- A batch asks for the lines to be painted if one of its members does. -/
theorem needs_rehighlight_batch :
    (batch commands).needsRehighlight = commands.any needsRehighlight := by
  show anyNeedsRehighlight commands = _
  induction commands with
  | nil => rfl
  | cons command rest ih => rw [anyNeedsRehighlight, ih, List.any_cons]

/-- The first errors of a batch are those of the first member that has some. -/
theorem errors_batch : (batch commands).errors? = commands.findSome? errors? := by
  show firstErrors? commands = _
  induction commands with
  | nil => rfl
  | cons command rest ih =>
      rw [firstErrors?, ih, List.findSome?_cons]
      cases command.errors? with
      | none => rfl
      | some errors => rfl

/-- A batch is collapsed after its members. -/
theorem collapse_batch : (batch commands).collapse = ofList (commands.map collapse) := by
  have hall : collapseAll commands = commands.map collapse := by
    induction commands with
    | nil => rfl
    | cons command rest ih => rw [collapseAll, ih, List.map_cons]
  show ofList (collapseAll commands) = _
  rw [hall]

end Members

/-- A command asks for the lines to be painted if one of its requests does. -/
theorem needs_rehighlight_eq (command : Command) :
    command.needsRehighlight = command.requests.any needsRehighlight := by
  induction command using member_induction with
  | none => rfl
  | errorsChanged errors => rfl
  | rehighlight => rfl
  | batch commands ih =>
      rw [needs_rehighlight_batch, requests_batch, List.any_flatMap]
      induction commands with
      | nil => rfl
      | cons first rest ihrest =>
          obtain ⟨hfirst, hrest⟩ := List.forall_mem_cons.1 ih
          rw [List.any_cons, List.any_cons, ihrest hrest, hfirst]

/-- The first errors of a command are those of the first request that has some. -/
theorem errors_eq (command : Command) : command.errors? = command.requests.findSome? errors? := by
  induction command using member_induction with
  | none => rfl
  | errorsChanged errors => rfl
  | rehighlight => rfl
  | batch commands ih =>
      rw [errors_batch, requests_batch]
      induction commands with
      | nil => rfl
      | cons first rest ihrest =>
          obtain ⟨hfirst, hrest⟩ := List.forall_mem_cons.1 ih
          rw [List.findSome?_cons, List.flatMap_cons, List.findSome?_append, ← ihrest hrest,
            ← hfirst]
          cases first.errors? with
          | none => rfl
          | some errors => rfl

/-- A part of a batch is the batch or a part of a member. -/
theorem within_batch_iff {part : Command} {commands : List Command} :
    Within part (.batch commands) ↔
      part = .batch commands ∨ ∃ member ∈ commands, Within part member := by
  constructor
  · intro h
    cases h with
    | self => exact .inl rfl
    | member member _ hmember hpart => exact .inr ⟨member, hmember, hpart⟩
  · rintro (rfl | ⟨member, hmember, hpart⟩)
    · exact .self
    · exact .member member commands hmember hpart

/-- The requests of a command are the parts of it that ask for something. -/
theorem mem_requests_iff {request command : Command} :
    request ∈ command.requests ↔ Within request command ∧
      (request = .rehighlight ∨ ∃ errors, request = .errorsChanged errors) := by
  induction command using member_induction with
  | none =>
      refine iff_of_false List.not_mem_nil ?_
      rintro ⟨hpart, hasks⟩
      cases hpart
      simp at hasks
  | errorsChanged errors =>
      rw [requests, List.mem_singleton]
      constructor
      · rintro rfl
        exact ⟨.self, .inr ⟨errors, rfl⟩⟩
      · rintro ⟨hpart, -⟩
        cases hpart
        rfl
  | rehighlight =>
      rw [requests, List.mem_singleton]
      constructor
      · rintro rfl
        exact ⟨.self, .inl rfl⟩
      · rintro ⟨hpart, -⟩
        cases hpart
        rfl
  | batch commands ih =>
      rw [requests_batch, List.mem_flatMap, within_batch_iff]
      constructor
      · rintro ⟨member, hmember, hrequest⟩
        obtain ⟨hpart, hasks⟩ := (ih member hmember).1 hrequest
        exact ⟨.inr ⟨member, hmember, hpart⟩, hasks⟩
      · rintro ⟨rfl | ⟨member, hmember, hpart⟩, hasks⟩
        · simp at hasks
        · exact ⟨member, hmember, (ih member hmember).2 ⟨hpart, hasks⟩⟩

/-- One command for several is `none` if nothing is left of them, the one that is left, or a batch
of those that are. -/
theorem of_list_cases (commands : List Command) {kept : List Command}
    (h : commands.filter (!·.isNone) = kept) :
    (kept = [] ∧ ofList commands = .none) ∨
      (∃ command, kept = [command] ∧ ofList commands = command) ∨
      (2 ≤ kept.length ∧ ofList commands = .batch kept) := by
  unfold ofList
  rw [h]
  rcases kept with _ | ⟨first, _ | ⟨second, rest⟩⟩
  · exact .inl ⟨rfl, rfl⟩
  · exact .inr (.inl ⟨first, rfl, rfl⟩)
  · exact .inr (.inr ⟨Nat.le_add_left 2 rest.length, rfl⟩)

/-- One command for several has the requests of all. -/
theorem requests_of_list (commands : List Command) :
    (ofList commands).requests = commands.flatMap requests := by
  have hkept : (commands.filter (!·.isNone)).flatMap requests = commands.flatMap requests := by
    induction commands with
    | nil => rfl
    | cons command rest ih =>
        cases command with
        | none => exact ih
        | _ => exact congrArg (_ ++ ·) ih
  rw [← hkept]
  obtain ⟨hnone, hlist⟩ | ⟨command, hone, hlist⟩ | ⟨-, hlist⟩ :=
    of_list_cases commands rfl
  · rw [hlist, hnone]
    rfl
  · rw [hlist, hone, List.flatMap_singleton]
  · rw [hlist, requests_batch]

/-- Collapsing keeps the requests of a command and their order. -/
theorem requests_collapse (command : Command) : command.collapse.requests = command.requests := by
  induction command using member_induction with
  | none => rfl
  | errorsChanged errors => rfl
  | rehighlight => rfl
  | batch commands ih =>
      rw [collapse_batch, requests_of_list, requests_batch, List.flatMap_map]
      exact List.flatMap_congr ih

/-- A batch is tidy if it has at least two members, none of which is `none`, and all are tidy. -/
theorem tidy_batch_iff {commands : List Command} :
    (batch commands).Tidy ↔
      (.none ∉ commands ∧ 2 ≤ commands.length) ∧ ∀ member ∈ commands, member.Tidy := by
  constructor
  · intro h
    refine ⟨h commands .self, fun member hmember inner hinner => ?_⟩
    exact h inner (.member member commands hmember hinner)
  · rintro ⟨hbatch, hmembers⟩ inner hinner
    obtain hself | ⟨member, hmember, hpart⟩ := within_batch_iff.1 hinner
    · cases hself
      exact hbatch
    · exact hmembers member hmember inner hpart

/-- A command without batches is tidy. -/
theorem tidy_of_leaf {command : Command} (h : ∀ commands, command ≠ .batch commands) :
    command.Tidy := by
  intro commands hpart
  cases hpart with
  | self => exact absurd rfl (h commands)
  | member _ outer => exact absurd rfl (h outer)

/-- One command for tidy commands is tidy. -/
theorem tidy_of_list {commands : List Command} (h : ∀ member ∈ commands, member.Tidy) :
    (ofList commands).Tidy := by
  obtain ⟨-, hlist⟩ | ⟨command, hone, hlist⟩ | ⟨hlength, hlist⟩ :=
    of_list_cases commands rfl
  · rw [hlist]
    exact tidy_of_leaf fun _ heq => by cases heq
  · rw [hlist]
    have hmem : command ∈ commands.filter (!·.isNone) := by simp [hone]
    exact h command (List.mem_filter.1 hmem).1
  · rw [hlist, tidy_batch_iff]
    refine ⟨⟨fun hnone => ?_, hlength⟩, fun member hmember => ?_⟩
    · cases (List.mem_filter.1 hnone).2
    · exact h member (List.mem_filter.1 hmember).1

/-- A collapsed command is tidy. -/
theorem tidy_collapse (command : Command) : command.collapse.Tidy := by
  induction command using member_induction with
  | none => exact tidy_of_leaf fun _ heq => by cases heq
  | errorsChanged errors => exact tidy_of_leaf fun _ heq => by cases heq
  | rehighlight => exact tidy_of_leaf fun _ heq => by cases heq
  | batch commands ih =>
      rw [collapse_batch]
      refine tidy_of_list fun member hmember => ?_
      obtain ⟨original, horiginal, rfl⟩ := List.mem_map.1 hmember
      exact ih original horiginal

/-- Collapsing a tidy command changes nothing. -/
theorem collapse_of_tidy {command : Command} (h : command.Tidy) : command.collapse = command := by
  induction command using member_induction with
  | none => rfl
  | errorsChanged errors => rfl
  | rehighlight => rfl
  | batch commands ih =>
      obtain ⟨⟨hnone, hlength⟩, hmembers⟩ := tidy_batch_iff.1 h
      have hsame : commands.map collapse = commands.map id :=
        List.map_congr_left fun member hmember => ih member hmember (hmembers member hmember)
      have hkept : commands.filter (!·.isNone) = commands := by
        refine List.filter_eq_self.2 fun member hmember => ?_
        cases member with
        | none => exact absurd hmember hnone
        | _ => rfl
      rw [collapse_batch, hsame, List.map_id]
      -- Nothing is left out of a tidy batch, so what is made of its members is the batch.
      obtain ⟨rfl, -⟩ | ⟨member, rfl, -⟩ | ⟨-, hlist⟩ := of_list_cases commands hkept
      · simp at hlength
      · simp at hlength
      · exact hlist

/-- A tidy command without requests asks for nothing. -/
theorem eq_none_of_tidy {command : Command} (h : command.Tidy) (hrequests : command.requests = []) :
    command = .none := by
  induction command using member_induction with
  | none => rfl
  | errorsChanged errors => cases hrequests
  | rehighlight => cases hrequests
  | batch commands ih =>
      obtain ⟨⟨hnone, hlength⟩, hmembers⟩ := tidy_batch_iff.1 h
      have hpos : 0 < commands.length := Nat.lt_of_lt_of_le Nat.two_pos hlength
      obtain ⟨member, hmember⟩ := List.exists_mem_of_length_pos hpos
      rw [requests_batch, List.flatMap_eq_nil_iff] at hrequests
      have hmemberNone := ih member hmember (hmembers member hmember) (hrequests member hmember)
      exact absurd (hmemberNone ▸ hmember) hnone

/-- Collapsing a command keeps what it asks for: the same requests in the same order, so the same
answer to whether the lines are to be painted and the same first errors. It leaves `none` if and
only if nothing in the command asks for anything. No batch within the result could be left out, and
collapsing the result once more changes nothing. -/
theorem collapse_keeps_requests (command : Command) :
    let collapsed := command.collapse
    collapsed.requests = command.requests ∧
    collapsed.needsRehighlight = command.needsRehighlight ∧
    collapsed.errors? = command.errors? ∧
    (collapsed = .none ↔
      ¬ Within .rehighlight command ∧ ∀ errors, ¬ Within (.errorsChanged errors) command) ∧
    (∀ commands, Within (.batch commands) collapsed → .none ∉ commands ∧ 2 ≤ commands.length) ∧
    collapsed.collapse = collapsed := by
  intro collapsed
  have hrequests : collapsed.requests = command.requests := requests_collapse command
  have htidy : collapsed.Tidy := tidy_collapse command
  have hnone : collapsed = .none ↔ command.requests = [] := by
    rw [← hrequests]
    exact ⟨fun heq => by rw [heq]; rfl, eq_none_of_tidy htidy⟩
  refine ⟨hrequests, ?_, ?_, ?_, htidy, collapse_of_tidy htidy⟩
  · rw [needs_rehighlight_eq, hrequests, ← needs_rehighlight_eq]
  · rw [errors_eq, hrequests, ← errors_eq]
  · rw [hnone, List.eq_nil_iff_forall_not_mem]
    simp only [mem_requests_iff]
    constructor
    · intro hasks
      exact ⟨fun hpart => hasks _ ⟨hpart, .inl rfl⟩,
        fun errors hpart => hasks _ ⟨hpart, .inr ⟨errors, rfl⟩⟩⟩
    · rintro ⟨hpaint, herrors⟩ request ⟨hpart, rfl | ⟨errors, rfl⟩⟩
      · exact hpaint hpart
      · exact herrors errors hpart

end Highlighter.Command
