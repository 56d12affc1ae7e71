import Highlighter.Engine.Recovery
import Highlighter.Proofs.Lines
import Highlighter.Proofs.Messages

/-!
# What recovery hands to a parser

The texts that recovery tries are made of lines that were cut out and joined again. In a text
without carriage returns, joining gives back a first part of the text (`split_line`), so a place in
such a part is the same place in the document (`char_at_of_append`). There is one exception: an
error on the second line below an empty first line. The first part is then the empty line alone,
which is taken for no line at all, and its line feed is lost (`attempts_of_drops`).
`recovery_keeps_places_iff` says that all other texts that are tried begin the document.
-/

namespace Highlighter

namespace Text

/-- The character on a line and in a column, both counted from one. -/
def charAt? (text : Text) (pos : Position) : Option Char :=
  text.lines[pos.line - 1]?.bind (·[pos.column - 1]?)

/-- What stands between line feeds is part of the text. -/
theorem mem_of_mem_split_feeds {text part : Text} {c : Char}
    (hpart : part ∈ (splitFeeds text).1 :: (splitFeeds text).2) (hc : c ∈ part) : c ∈ text := by
  induction text generalizing part with
  | nil =>
      obtain rfl : part = [] := by simpa [splitFeeds] using hpart
      cases hc
  | cons d ds ih =>
      by_cases hd : d = '\n'
      · simp only [splitFeeds, hd, if_true, List.mem_cons] at hpart ih
        obtain rfl | hpart := hpart
        · cases hc
        · exact List.mem_cons_of_mem _ (ih hpart hc)
      · simp only [splitFeeds, hd, if_false, List.mem_cons] at hpart ih
        obtain rfl | hpart := hpart
        · obtain rfl | hc := List.mem_cons.1 hc
          · exact List.mem_cons_self
          · exact List.mem_cons_of_mem _ (ih (.inl rfl) hc)
        · exact List.mem_cons_of_mem _ (ih (.inr hpart) hc)

/-- Without carriage returns, lines are what stands between line feeds. -/
theorem lines_eq {text : Text} (hreturn : '\r' ∉ text) :
    text.lines = (splitFeeds text).1 :: (splitFeeds text).2 := by
  refine (List.map_congr_left fun part hpart => ?_).trans (List.map_id _)
  refine strip_return_of_ne fun hlast => hreturn ?_
  exact mem_of_mem_split_feeds hpart (List.mem_of_getLast? hlast)

/-- A text without carriage returns is one line, or a line, a line feed and further lines. -/
theorem lines_cases {text : Text} (hreturn : '\r' ∉ text) :
    ('\n' ∉ text ∧ text.lines = [text]) ∨
      ∃ first rest, text = first ++ '\n' :: rest ∧ '\n' ∉ first ∧ '\r' ∉ rest ∧
        text.lines = first :: lines rest := by
  rw [lines_eq hreturn]
  obtain ⟨hsplit, hfeed⟩ | ⟨first, rest, rfl, hfeed, hsplit⟩ := split_feeds_cases text
  · exact .inl ⟨hfeed, by rw [hsplit]⟩
  · have hrest : '\r' ∉ rest := fun hmem => hreturn (by simp [hmem])
    exact .inr ⟨first, rest, rfl, hfeed, hrest, by rw [hsplit, lines_eq hrest]⟩

/-- A line of a text without carriage returns stands after the lines before it. -/
theorem split_line {text line : Text} {n : Nat} (hreturn : '\r' ∉ text)
    (h : text.lines[n]? = some line) :
    '\n' ∉ line ∧
      ∃ rest, text = (text.lines.take n).flatMap (· ++ ['\n']) ++ line ++ rest := by
  induction n generalizing text with
  | zero =>
      obtain ⟨hfeed, hlines⟩ | ⟨first, rest, rfl, hfeed, -, hlines⟩ := lines_cases hreturn
      · rw [hlines] at h
        cases h
        exact ⟨hfeed, [], by simp⟩
      · rw [hlines] at h
        cases h
        exact ⟨hfeed, '\n' :: rest, rfl⟩
  | succ n ih =>
      obtain ⟨-, hlines⟩ | ⟨first, rest, rfl, -, hrest, hlines⟩ := lines_cases hreturn
      · rw [hlines] at h
        cases h
      · rw [hlines] at h
        obtain ⟨hline, after, hafter⟩ := ih hrest h
        refine ⟨hline, after, ?_⟩
        rw [hlines, List.take_succ_cons, List.flatMap_cons, List.append_assoc, List.append_assoc,
          ← List.append_assoc _ line, ← hafter, List.append_assoc]
        rfl

/-- More text lets the last line grow and leaves the others as they are. -/
theorem split_feeds_append {text line : Text} {n : Nat} (more : Text)
    (h : ((splitFeeds text).1 :: (splitFeeds text).2)[n]? = some line) :
    ∃ tail, ((splitFeeds (text ++ more)).1 :: (splitFeeds (text ++ more)).2)[n]? =
      some (line ++ tail) := by
  induction text generalizing n line with
  | nil =>
      cases n with
      | zero =>
          cases h
          exact ⟨(splitFeeds more).1, rfl⟩
      | succ n => cases h
  | cons c cs ih =>
      by_cases hc : c = '\n'
      · simp only [splitFeeds, hc, if_true, List.cons_append] at h ⊢
        cases n with
        | zero =>
            cases h
            exact ⟨[], rfl⟩
        | succ n => exact ih h
      · simp only [splitFeeds, hc, if_false, List.cons_append] at h ⊢
        cases n with
        | zero =>
            cases h
            obtain ⟨tail, htail⟩ := @ih (splitFeeds cs).1 0 rfl
            have hgrown : (splitFeeds (cs ++ more)).1 = (splitFeeds cs).1 ++ tail :=
              Option.some.inj htail
            exact ⟨tail, congrArg (fun line => some (c :: line)) hgrown⟩
        | succ n => exact @ih line (n + 1) h

/-- A place in a text is the same place in a longer one. -/
theorem char_at_of_append {text more : Text} {pos : Position} {c : Char}
    (hreturn : '\r' ∉ text ++ more) (h : text.charAt? pos = some c) :
    (text ++ more).charAt? pos = some c := by
  have hfirst : '\r' ∉ text := fun hmem => hreturn (List.mem_append_left _ hmem)
  obtain ⟨line, hline, hc⟩ := Option.bind_eq_some_iff.1 h
  rw [lines_eq hfirst] at hline
  obtain ⟨tail, htail⟩ := split_feeds_append more hline
  rw [charAt?, lines_eq hreturn, htail]
  obtain ⟨hcolumn, -⟩ := List.getElem?_eq_some_iff.1 hc
  exact (List.getElem?_append_left hcolumn).trans hc

end Text

namespace Recovery

open Text

/-- Lines are joined by line feeds. -/
theorem join_lines_cons (line : Text) {rest : List Text} (h : rest ≠ []) :
    joinLines (line :: rest) = line ++ '\n' :: joinLines rest := by
  cases rest with
  | nil => exact absurd rfl h
  | cons next others => rfl

/-- A line feed after joined lines ends the last of them. -/
theorem join_lines_feed {lines : List Text} (h : lines ≠ []) :
    joinLines lines ++ ['\n'] = lines.flatMap (· ++ ['\n']) := by
  induction lines with
  | nil => exact absurd rfl h
  | cons line rest ih =>
      by_cases hrest : rest = []
      · simp [hrest, joinLines]
      · rw [join_lines_cons line hrest, List.flatMap_cons, ← ih hrest]
        simp

/-- The lines of a text without carriage returns are joined to the text. -/
theorem join_lines {text : Text} (hreturn : '\r' ∉ text) : joinLines text.lines = text := by
  induction hlength : text.length using Nat.strong_induction_on generalizing text with
  | _ length ih =>
      obtain ⟨-, hlines⟩ | ⟨first, rest, rfl, -, hrest, hlines⟩ := lines_cases hreturn
      · rw [hlines]
        rfl
      · rw [hlines, join_lines_cons first (by simp [lines]), ih rest.length ?_ hrest rfl]
        rw [← hlength, List.length_append, List.length_cons]
        omega

/-- The lines before a line, joined, and a line feed stand before it. -/
theorem split_joined {text line : Text} {n : Nat} (hreturn : '\r' ∉ text)
    (h : text.lines[n]? = some line) (hn : n ≠ 0) :
    ∃ rest, text = joinLines (text.lines.take n) ++ '\n' :: (line ++ rest) := by
  obtain ⟨-, rest, hrest⟩ := split_line hreturn h
  have hlines : text.lines.take n ≠ [] := by
    intro hnil
    rw [List.take_eq_nil_iff] at hnil
    simp [hn, lines] at hnil
  refine ⟨rest, ?_⟩
  rw [← List.singleton_append, ← List.append_assoc, join_lines_feed hlines, ← List.append_assoc]
  exact hrest

/-- First lines that are joined begin the text. -/
theorem joined_begins {text : Text} (hreturn : '\r' ∉ text) (n : Nat) :
    joinLines (text.lines.take n) <+: text := by
  cases hline : text.lines[n]? with
  | none =>
      have hall : joinLines (text.lines.take n) = text := by
        rw [List.take_of_length_le (List.getElem?_eq_none_iff.1 hline), join_lines hreturn]
      exact ⟨[], (List.append_nil _).trans hall⟩
  | some line =>
      by_cases hn : n = 0
      · rw [hn]
        exact List.nil_prefix
      · obtain ⟨rest, hrest⟩ := split_joined hreturn hline hn
        exact ⟨_, hrest.symm⟩

/-- Whether the first text that is tried lacks the line feed that the document starts with: the
error is on the second line, below an empty one, and something is to be seen before it there. -/
def DropsFeed (text : Text) (record : ErrorRecord) : Prop :=
  record.line = 2 ∧ text.head? = some '\n' ∧
    ∃ line, text.lines[1]? = some line ∧ isBlank (line.take (record.column - 1)) = false

/-- No more than an empty line is joined to an empty text. -/
theorem length_of_joined_nil {lines : List Text} (h : joinLines lines = []) : lines.length ≤ 1 := by
  match lines, h with
  | [], _ => exact Nat.zero_le _
  | [_], _ => exact Nat.le_refl _
  | line :: _ :: _, h =>
      rw [join_lines_cons line (List.cons_ne_nil _ _)] at h
      simp at h

/-- What is tried first begins the text unless a line feed is dropped. -/
theorem through_begins {text line : Text} {n : Nat} (hreturn : '\r' ∉ text)
    (h : text.lines[n]? = some line) (hfeed : n = 1 → text.head? ≠ some '\n') (count : Nat) :
    (if (joinLines (text.lines.take n)).isEmpty then line.take count
      else joinLines (text.lines.take n) ++ '\n' :: line.take count) <+: text := by
  by_cases hn : n = 0
  · subst hn
    obtain ⟨-, rest, hrest⟩ := split_line hreturn h
    show line.take count <+: text
    rw [hrest]
    exact (List.take_prefix count line).trans (List.prefix_append line rest)
  · obtain ⟨rest, hrest⟩ := split_joined hreturn h hn
    split
    · next hempty =>
        -- The lines before are one line, which is empty.
        rw [List.isEmpty_iff] at hempty
        have hlength := length_of_joined_nil hempty
        obtain ⟨hbound, -⟩ := List.getElem?_eq_some_iff.1 h
        rw [List.length_take_of_le hbound.le] at hlength
        rw [hempty] at hrest
        exact absurd (congrArg List.head? hrest) (hfeed (by omega))
    · conv_rhs => rw [hrest]
      refine (List.prefix_append_right_inj _).2 (List.cons_prefix_cons.2 ⟨rfl, ?_⟩)
      exact (List.take_prefix count line).trans (List.prefix_append line rest)

/-- The lines before the error are tried, or they and the part of its line before it. -/
theorem attempt_cases {text attempt : Text} {record : ErrorRecord}
    (h : attempt ∈ attempts text record) :
    attempt = joinLines (text.lines.take (record.line - 1)) ∨
      ∃ line, text.lines[record.line - 1]? = some line ∧
        isBlank (line.take (record.column - 1)) = false ∧
        attempt =
          if (joinLines (text.lines.take (record.line - 1))).isEmpty then
            line.take (record.column - 1)
          else joinLines (text.lines.take (record.line - 1)) ++
            '\n' :: line.take (record.column - 1) := by
  obtain ⟨hmem, -⟩ := List.mem_filter.1 h
  obtain hthrough | hbefore := List.mem_append.1 hmem
  · obtain ⟨cut, hcut, rfl⟩ := Option.map_eq_some_iff.1 (Option.mem_toList.1 hthrough)
    obtain ⟨hcut, hseen⟩ := Option.filter_eq_some_iff.1 hcut
    obtain ⟨line, hline, rfl⟩ := Option.map_eq_some_iff.1 hcut
    exact .inr ⟨line, hline, by simpa using hseen, rfl⟩
  · exact .inl (List.mem_singleton.1 hbefore)

/-- The texts that are tried begin the document unless a line feed is dropped. -/
theorem attempts_begin {text : Text} {record : ErrorRecord} (hreturn : '\r' ∉ text)
    (hkept : ¬ DropsFeed text record) : ∀ attempt ∈ attempts text record, attempt <+: text := by
  intro attempt hattempt
  obtain rfl | ⟨line, hline, hseen, rfl⟩ := attempt_cases hattempt
  · exact joined_begins hreturn _
  · refine through_begins hreturn hline (fun hn hhead => hkept ⟨by omega, hhead, line, ?_, hseen⟩) _
    rwa [hn] at hline

/-- Where a line feed is dropped, one text is tried, and it begins the document after that line
feed. -/
theorem attempts_of_drops {text : Text} {record : ErrorRecord} (hreturn : '\r' ∉ text)
    (h : DropsFeed text record) :
    ∃ cut, attempts text record = [cut] ∧ '\n' ∉ cut ∧ isBlank cut = false ∧
      '\n' :: cut <+: text := by
  obtain ⟨hplace, hhead, line, hline, hseen⟩ := h
  have hbefore : joinLines (text.lines.take 1) = [] := by
    obtain ⟨hfree, -⟩ | ⟨first, rest, rfl, hfirst, -, hlines⟩ := lines_cases hreturn
    · exact absurd (List.mem_of_head? hhead) hfree
    · rw [hlines]
      cases first with
      | nil => rfl
      | cons c cs =>
          cases hhead
          exact absurd List.mem_cons_self hfirst
  obtain ⟨rest, hrest⟩ := split_joined hreturn hline (by omega)
  have hfeed := (split_line hreturn hline).1
  rw [hbefore, List.nil_append] at hrest
  refine ⟨line.take (record.column - 1), ?_, fun hmem => hfeed (List.mem_of_mem_take hmem), hseen,
    ?_⟩
  · have hblank : isBlank [] = true := rfl
    simp [attempts, hplace, hline, hbefore, hblank, Option.filter_some, hseen]
  · rw [hrest]
    refine List.cons_prefix_cons.2 ⟨rfl, ?_⟩
    exact (List.take_prefix _ line).trans (List.prefix_append line rest)

/-- Nothing is dropped from a blank text. -/
theorem not_blank_of_drops {text : Text} {record : ErrorRecord} (hreturn : '\r' ∉ text)
    (h : DropsFeed text record) : text.isBlank = false := by
  obtain ⟨cut, -, -, hseen, rest, rfl⟩ := attempts_of_drops hreturn h
  rw [isBlank, List.all_eq_false] at hseen ⊢
  obtain ⟨c, hc, hspace⟩ := hseen
  exact ⟨c, by simp [hc], hspace⟩

/-- A text that lacks the line feed that a document starts with does not begin the document. -/
theorem not_begins_of_drops {text : Text} {record : ErrorRecord} (hreturn : '\r' ∉ text)
    (h : DropsFeed text record) : ∃ cut, attempts text record = [cut] ∧ ¬ cut <+: text := by
  obtain ⟨cut, hattempts, hfeed, hseen, rest, rfl⟩ := attempts_of_drops hreturn h
  refine ⟨cut, hattempts, fun hbegins => ?_⟩
  cases cut with
  | nil => cases hseen
  | cons c cs =>
      obtain ⟨rfl, -⟩ := List.cons_prefix_cons.1 hbegins
      exact hfeed List.mem_cons_self

/-- No text is tried but those that were to be tried. -/
theorem mem_of_mem_tried {parser : Parser} {texts : List Text} {handed : Text}
    (h : handed ∈ tried parser texts) : handed ∈ texts := by
  induction texts with
  | nil => cases h
  | cons attempt rest ih =>
      obtain rfl | hrest := List.mem_cons.1 h
      · exact List.mem_cons_self
      · split at hrest
        · cases hrest
        · exact List.mem_cons_of_mem _ (ih hrest)

/-- The first tree of some texts is that of one that is tried. -/
theorem exists_tried {parser : Parser} {texts : List Text} {tree : Body}
    (h : texts.findSome? (fun attempt => (parser attempt).tree?) = some tree) :
    ∃ handed ∈ tried parser texts, (parser handed).tree? = some tree := by
  induction texts with
  | nil => cases h
  | cons attempt rest ih =>
      rw [tried]
      cases htree : (parser attempt).tree? with
      | some found =>
          rw [List.findSome?_cons, htree] at h
          cases h
          exact ⟨attempt, List.mem_cons_self, htree⟩
      | none =>
          rw [List.findSome?_cons, htree] at h
          obtain ⟨handed, hhanded, hfound⟩ := ih h
          exact ⟨handed, List.mem_cons_of_mem _ (by simpa using hhanded), hfound⟩

/-- A tree that is recovered is that of a text that is tried. -/
theorem exists_of_recover {parser : Parser} {text : Text} {error failure : ParseError} {tree : Body}
    (h : recover parser text error = .partialTree tree failure) :
    ∃ handed ∈ tried parser (attempts text (ErrorRecord.locate error)),
      (parser handed).tree? = some tree := by
  simp only [recover] at h
  split at h
  · next found hfound =>
      cases h
      exact exists_tried hfound
  · cases h

end Recovery

open ErrorRecord (locate)
open Recovery (DropsFeed consulted)

/-- When a parser fails on a text without carriage returns, recovery hands it nothing but beginnings
of the text, unless it drops the line feed that the text starts with; then the only text that it
tries lacks this line feed. Where nothing is dropped, the tree that is recovered is that of a text
in which every place has the character that it has in the document. -/
theorem recovery_keeps_places_iff (parser : Parser) (text : Text) (error : ParseError)
    (hreturn : '\r' ∉ text) (hfailed : parser text = .failed error) :
    ((∀ handed ∈ consulted parser text, handed <+: text) ↔ ¬ DropsFeed text (locate error)) ∧
    (DropsFeed text (locate error) →
      ∃ handed, consulted parser text = [text, handed] ∧ '\n' :: handed <+: text) ∧
    (¬ DropsFeed text (locate error) → ∀ tree failure,
      Recovery.parse parser text = .partialTree tree failure →
      ∃ handed ∈ consulted parser text, (parser handed).tree? = some tree ∧
        ∀ pos c, handed.charAt? pos = some c → text.charAt? pos = some c) := by
  by_cases hblank : text.isBlank = true
  · -- A blank text is not handed to a parser.
    have hnone : consulted parser text = [] := if_pos hblank
    have hkept : ¬ DropsFeed text (locate error) := by
      intro hdrops
      simp [Recovery.not_blank_of_drops hreturn hdrops] at hblank
    refine ⟨iff_of_true (by simp [hnone]) hkept, fun hdrops => absurd hdrops hkept, ?_⟩
    intro _ tree failure hparse
    simp [Recovery.parse, hblank] at hparse
  · have hconsulted : consulted parser text =
        text :: Recovery.tried parser (Recovery.attempts text (locate error)) := by
      simp [consulted, hblank, hfailed]
    have hbegins : ¬ DropsFeed text (locate error) →
        ∀ handed ∈ consulted parser text, handed <+: text := by
      intro hkept handed hhanded
      rw [hconsulted] at hhanded
      obtain rfl | htried := List.mem_cons.1 hhanded
      · exact List.prefix_rfl
      · exact Recovery.attempts_begin hreturn hkept handed (Recovery.mem_of_mem_tried htried)
    refine ⟨⟨fun hall hdrops => ?_, hbegins⟩, fun hdrops => ?_, fun hkept tree failure hparse => ?_⟩
    · obtain ⟨cut, hattempts, hcut⟩ := Recovery.not_begins_of_drops hreturn hdrops
      refine hcut (hall cut ?_)
      simp [hconsulted, hattempts, Recovery.tried]
    · obtain ⟨cut, hattempts, -, -, hcut⟩ := Recovery.attempts_of_drops hreturn hdrops
      refine ⟨cut, ?_, hcut⟩
      simp [hconsulted, hattempts, Recovery.tried]
    · have hrecover : Recovery.recover parser text error = .partialTree tree failure := by
        simpa [Recovery.parse, hblank, hfailed] using hparse
      obtain ⟨handed, htried, htree⟩ := Recovery.exists_of_recover hrecover
      have hmem : handed ∈ consulted parser text := by
        rw [hconsulted]
        exact List.mem_cons_of_mem _ htried
      obtain ⟨more, rfl⟩ := hbegins hkept handed hmem
      exact ⟨handed, hmem, htree, fun pos c hc => Text.char_at_of_append hreturn hc⟩

/-- Two empty lines before an error keep their line feeds. -/
theorem recovery_keeps_places_iff_lines :
    let text := "\n\na = 1 b".toList
    '\r' ∉ text ∧ (∃ error, documentParser text = .failed error) ∧
      consulted documentParser text = [text, "\n\na = 1 ".toList] ∧
      ∀ handed ∈ consulted documentParser text, handed <+: text := by
  intro text
  have hreturn : '\r' ∉ text := by decide
  have hfailed : documentParser text = .failed
      { message := "expected ',' or newline at line 3, col 7, got \x60b\x60".toList
        line := some 3
        column := some 7
        token := some ['b'] } := failed_of_error (by decide +kernel)
  have hconsulted : consulted documentParser text = [text, "\n\na = 1 ".toList] := by
    decide +kernel
  refine ⟨hreturn, ⟨_, hfailed⟩, hconsulted, ?_⟩
  refine (recovery_keeps_places_iff documentParser text _ hreturn hfailed).1.2 fun hdrops => ?_
  exact absurd hdrops.1 (by decide)

/-- The line feed of a first line that is empty is dropped, and the key that stands on the second
line is on the first line of the tree. -/
theorem first_line_feed_dropped :
    let text : Text := "\na = 1 b".toList
    '\r' ∉ text ∧ consulted documentParser text = [text, "a = 1 ".toList] ∧
      ¬ "a = 1 ".toList <+: text ∧
      ((Recovery.parse documentParser text).tree?.map fun tree =>
        tree.entries.map fun entry => (entry.key, entry.pos)) = some [(['a'], ⟨1, some 1⟩)] ∧
      text.charAt? ⟨2, 1⟩ = some 'a' ∧ text.charAt? ⟨1, 1⟩ = none := by
  decide +kernel

end Highlighter
