import Highlighter.Proofs.Spans
import Mathlib.Data.List.Sort

/-!
# What a buffer keeps of its calls

A buffer is used by calls, which are claims and error overlays. A `Ledger` keeps the spans of the
accepted calls and judges the next call by these spans alone. `Ledger.Matches` relates the two: the
claimed bytes are those of the accepted claims, which are apart. A buffer and a ledger that match
accept the same calls (`Matches.accepts_eq`) and match after any call (`Matches.call`), and so after
any number of them (`Matches.run`).

The spans of a buffer say what it keeps and nothing else. `IsRun claimed span` says that a span is a
maximal run of bytes with one category; the runs that a buffer gives are all such spans in order
(`sorted_runs`), and no other list is (`sorted_runs_unique`). `calls_recorded` puts both together.
-/

namespace Highlighter

/-- Whether two spans have no byte in common. -/
def Span.apart (span other : Span) : Bool :=
  span.stop ≤ other.start || other.stop ≤ span.start

/-- Spans with bytes are apart if no offset lies in both. -/
theorem Span.apart_iff {span other : Span} (hspan : 0 < span.len) (hother : 0 < other.len) :
    span.apart other = true ↔
      ∀ offset, span.covers offset = true → other.covers offset = false := by
  simp only [apart, Bool.or_eq_true, decide_eq_true_eq, Span.covers_iff, Bool.eq_false_iff, Ne]
  constructor
  · intro h offset hoffset
    omega
  · intro h
    -- The later start lies in both spans unless they are apart.
    have hlater := h (max span.start other.start)
    simp only [Span.stop] at hlater ⊢
    omega

namespace Buffer

/-- What is asked of a buffer. -/
inductive Call where
  /-- Give a span to its category. -/
  | claim (span : Span)
  /-- Lay an error over some bytes. -/
  | overlay (start len : Nat)
  deriving DecidableEq, Repr

/-- Whether a buffer accepts a call. -/
def accepts (buffer : Buffer) : Call → Bool
  | .claim span => (buffer.claim? span.start span.len span.category).isSome
  | .overlay start len => 0 < len && start < buffer.length

/-- The buffer after a call. -/
def call (buffer : Buffer) : Call → Buffer
  | .claim span => buffer.claim span
  | .overlay start len => buffer.overlay start len

/-- The buffer after some calls. -/
def run (buffer : Buffer) (calls : List Call) : Buffer :=
  calls.foldl call buffer

/-- A call that is not accepted changes nothing. -/
theorem call_of_rejected {buffer : Buffer} {call : Call} (h : buffer.accepts call = false) :
    buffer.call call = buffer := by
  cases call with
  | claim span =>
      rw [accepts, Option.isSome_eq_false_iff, Option.isNone_iff_eq_none] at h
      rw [Buffer.call, claim, h, Option.getD_none]
  | overlay start len =>
      refine if_pos ?_
      simp only [accepts, Bool.and_eq_false_iff, decide_eq_false_iff_not] at h
      simp only [Bool.or_eq_true, decide_eq_true_eq]
      omega

/-- A claim is accepted if it has bytes, is not for errors, lies on the line and none of its bytes
is claimed. -/
theorem accepts_claim_iff {buffer : Buffer} {span : Span} :
    buffer.accepts (.claim span) = true ↔ 0 < span.len ∧ span.category ≠ .error ∧
      span.stop ≤ buffer.length ∧
      ∀ offset, span.covers offset = true → buffer.claimedAt offset = none := by
  have hfree : buffer.isFree ⟨span.start, span.start + span.len⟩ = true ↔
      span.stop ≤ buffer.length ∧
        ∀ offset, span.covers offset = true → buffer.claimedAt offset = none := is_free_iff
  rw [← hfree]
  simp only [accepts, claim?, Option.isSome_ite', Bool.or_eq_true, decide_eq_true_eq]
  grind

end Buffer

/-- The spans of the calls that a line of some bytes has accepted, in the order of the calls. -/
structure Ledger where
  length : Nat
  claims : List Span := []
  overlays : List Span := []
  deriving DecidableEq, Repr

namespace Ledger

open Buffer (Call)

/-- The ledger of a line before any call. -/
def ofText (line : Text) : Ledger :=
  { length := line.byteLength }

/-- Whether a call is to be accepted: a claim that has bytes, is not for errors, lies on the line
and has no byte in common with an accepted one; or an overlay that has bytes and starts on the
line. -/
def accepts (ledger : Ledger) : Call → Bool
  | .claim span =>
      0 < span.len && span.category ≠ .error && span.stop ≤ ledger.length &&
        ledger.claims.all (·.apart span)
  | .overlay start len => 0 < len && start < ledger.length

/-- The ledger after a call. An overlay is cut off at the end of the line. -/
def enter (ledger : Ledger) (call : Call) : Ledger :=
  if ledger.accepts call then
    match call with
    | .claim span => { ledger with claims := ledger.claims ++ [span] }
    | .overlay start len =>
        { ledger with
          overlays := ledger.overlays ++ [⟨start, min len (ledger.length - start), .error⟩] }
  else ledger

/-- The ledger after some calls. -/
def run (ledger : Ledger) (calls : List Call) : Ledger :=
  calls.foldl enter ledger

/-- `ledger.Matches buffer` says that a buffer keeps what its ledger says: the claimed bytes are
those of the accepted claims, each with its category, and the overlays are the same. The accepted
claims have bytes and are apart, and the overlays alone are for errors. -/
structure Matches (ledger : Ledger) (buffer : Buffer) : Prop where
  length : buffer.length = ledger.length
  overlays : buffer.overlays = ledger.overlays
  claimed : ∀ offset category, buffer.claimedAt offset = some category ↔
    ∃ span ∈ ledger.claims, span.covers offset = true ∧ span.category = category
  tokens : ∀ span ∈ ledger.claims, 0 < span.len ∧ span.category ≠ .error
  errors : ∀ span ∈ ledger.overlays, span.category = .error
  apart : ledger.claims.Pairwise (·.apart · = true)

section

variable {ledger : Ledger} {buffer : Buffer}

/-- A byte is free if no accepted claim covers it. -/
theorem Matches.claimed_at_eq_none_iff (h : ledger.Matches buffer) (offset : Nat) :
    buffer.claimedAt offset = none ↔ ∀ span ∈ ledger.claims, span.covers offset = false := by
  rw [Option.eq_none_iff_forall_ne_some]
  constructor
  · intro hnone span hspan
    rw [Bool.eq_false_iff]
    intro hcovers
    exact hnone span.category ((h.claimed offset _).2 ⟨span, hspan, hcovers, rfl⟩)
  · intro hfree category hclaimed
    obtain ⟨span, hspan, hcovers, -⟩ := (h.claimed offset category).1 hclaimed
    rw [hfree span hspan] at hcovers
    cases hcovers

/-- A buffer and its ledger accept the same calls. -/
theorem Matches.accepts_eq (h : ledger.Matches buffer) (call : Call) :
    buffer.accepts call = ledger.accepts call := by
  cases call with
  | overlay start len => rw [Buffer.accepts, accepts, h.length]
  | claim span =>
      rw [Bool.eq_iff_iff, Buffer.accepts_claim_iff, h.length]
      simp only [accepts, Bool.and_eq_true, decide_eq_true_eq, List.all_eq_true, and_assoc]
      refine and_congr_right fun hlen => and_congr_right fun _ => and_congr_right fun _ => ?_
      -- No byte of the span is claimed if it is apart from every accepted claim.
      simp only [h.claimed_at_eq_none_iff]
      constructor
      · intro hfree other hother
        refine (Span.apart_iff (h.tokens other hother).1 hlen).2 fun offset hoffset => ?_
        rw [Bool.eq_false_iff]
        intro hcovers
        rw [hfree offset hcovers other hother] at hoffset
        cases hoffset
      · intro hapart offset hoffset other hother
        rw [Bool.eq_false_iff]
        intro hcovers
        have hother := (Span.apart_iff (h.tokens other hother).1 hlen).1 (hapart other hother)
        rw [hother offset hcovers] at hoffset
        cases hoffset

/-- Before any call nothing is kept. -/
theorem matches_of_text (line : Text) : (Ledger.ofText line).Matches (Buffer.ofText line) where
  length := List.length_replicate
  overlays := rfl
  claimed offset category := by simp [Buffer.claimed_at_of_text, Ledger.ofText]
  tokens := by simp [Ledger.ofText]
  errors := by simp [Ledger.ofText]
  apart := List.Pairwise.nil

/-- An accepted claim is kept. -/
theorem Matches.claim {span : Span} (h : ledger.Matches buffer)
    (haccepted : ledger.accepts (.claim span) = true) :
    Matches { ledger with claims := ledger.claims ++ [span] } (buffer.claim span) := by
  obtain ⟨claimed, hclaimed⟩ := Option.isSome_iff_exists.1 ((h.accepts_eq _).trans haccepted)
  have hafter : buffer.claim span = claimed := by rw [Buffer.claim, hclaimed, Option.getD_some]
  have hfree := (Buffer.accepts_claim_iff.1 ((h.accepts_eq _).trans haccepted)).2.2.2
  simp only [accepts, Bool.and_eq_true, decide_eq_true_eq, List.all_eq_true] at haccepted
  obtain ⟨⟨⟨hlen, hcategory⟩, -⟩, hapart⟩ := haccepted
  rw [hafter]
  constructor
  · exact (Buffer.claim_length hclaimed).trans h.length
  · exact (Buffer.claim_overlays hclaimed).trans h.overlays
  · intro offset category
    have hat : claimed.claimedAt offset =
        if span.start ≤ offset ∧ offset < span.stop then some span.category
        else buffer.claimedAt offset := Buffer.claimed_at_claim hclaimed offset
    by_cases hcovers : span.covers offset = true
    · -- The byte was free, so the new claim is the one that covers it.
      have hothers := (h.claimed_at_eq_none_iff offset).1 (hfree offset hcovers)
      rw [hat, if_pos (Span.covers_iff.1 hcovers)]
      simp only [List.mem_append, List.mem_singleton]
      grind
    · rw [hat, if_neg (mt Span.covers_iff.2 hcovers), h.claimed]
      simp only [List.mem_append, List.mem_singleton]
      grind
  · intro other hother
    obtain hold | hnew := List.mem_append.1 hother
    · exact h.tokens other hold
    · rw [List.mem_singleton.1 hnew]
      exact ⟨hlen, hcategory⟩
  · exact h.errors
  · refine List.pairwise_append.2 ⟨h.apart, List.pairwise_singleton _ _, ?_⟩
    intro other hother new hnew
    rw [List.mem_singleton.1 hnew]
    exact hapart other hother

/-- An accepted overlay is kept. -/
theorem Matches.overlay {start len : Nat} (h : ledger.Matches buffer)
    (haccepted : ledger.accepts (.overlay start len) = true) :
    Matches
      { ledger with
        overlays := ledger.overlays ++ [⟨start, min len (ledger.length - start), .error⟩] }
      (buffer.overlay start len) := by
  have hlaid : buffer.overlay start len = { buffer with
      overlays := buffer.overlays ++ [⟨start, min len (buffer.length - start), .error⟩] } := by
    refine if_neg ?_
    simp only [accepts, Bool.and_eq_true, decide_eq_true_eq] at haccepted
    rw [h.length]
    simp only [Bool.or_eq_true, decide_eq_true_eq]
    omega
  rw [hlaid]
  refine ⟨h.length, by rw [h.overlays, h.length], h.claimed, h.tokens, fun span hspan => ?_,
    h.apart⟩
  obtain hold | hnew := List.mem_append.1 hspan
  · exact h.errors span hold
  · rw [List.mem_singleton.1 hnew]

/-- A buffer and its ledger match after a call. -/
theorem Matches.call (h : ledger.Matches buffer) (call : Call) :
    (ledger.enter call).Matches (buffer.call call) := by
  unfold enter
  split
  · next haccepted =>
      cases call with
      | claim span => exact h.claim haccepted
      | overlay start len => exact h.overlay haccepted
  · next hrejected =>
      rw [Buffer.call_of_rejected]
      · exact h
      · rw [h.accepts_eq, Bool.eq_false_iff]
        exact hrejected

/-- A buffer and its ledger match after any number of calls. -/
theorem Matches.run (h : ledger.Matches buffer) (calls : List Call) :
    (ledger.run calls).Matches (buffer.run calls) := by
  induction calls generalizing ledger buffer with
  | nil => exact h
  | cons call rest ih => exact ih (h.call call)

/-- What has been accepted stays so. -/
theorem claims_prefix_run (ledger : Ledger) (calls : List Call) :
    ledger.claims <+: (ledger.run calls).claims := by
  induction calls generalizing ledger with
  | nil => exact List.prefix_rfl
  | cons call rest ih =>
      refine List.IsPrefix.trans ?_ (ih (ledger.enter call))
      unfold enter
      split
      · cases call with
        | claim span => exact List.prefix_append _ _
        | overlay start len => exact List.prefix_rfl
      · exact List.prefix_rfl

/-- The span of an accepted claim is kept. -/
theorem mem_claims_of_accepted (ledger : Ledger) (first rest : List Call) {span : Span}
    (h : (ledger.run first).accepts (.claim span) = true) :
    span ∈ (ledger.run (first ++ .claim span :: rest)).claims := by
  have hentered : span ∈ ((ledger.run first).enter (.claim span)).claims := by
    simp [enter, h]
  rw [run, List.foldl_append, List.foldl_cons]
  exact (claims_prefix_run _ rest).subset hentered

/-- The accepted claim that covers a byte is the only one, and its category is that of the byte. -/
theorem Matches.covering_eq (h : ledger.Matches buffer) (offset : Nat) :
    (ledger.claims.filter (·.covers offset)).map (·.category) =
      (buffer.claimedAt offset).toList := by
  cases hclaimed : buffer.claimedAt offset with
  | none =>
      have hnone := (h.claimed_at_eq_none_iff offset).1 hclaimed
      rw [List.filter_eq_nil_iff.2 (by simpa using hnone)]
      rfl
  | some category =>
      obtain ⟨span, hspan, hcovers, rfl⟩ := (h.claimed offset category).1 hclaimed
      obtain ⟨before, after, hsplit⟩ := List.append_of_mem hspan
      have htokens := h.tokens
      have hapart := h.apart
      rw [hsplit] at htokens hapart ⊢
      rw [List.pairwise_append, List.pairwise_cons] at hapart
      obtain ⟨-, ⟨hafter, -⟩, hbefore⟩ := hapart
      -- A claim that is apart from this one does not cover the byte.
      have hlen : 0 < span.len := (htokens span (by simp)).1
      have hearlier : before.filter (·.covers offset) = [] := by
        refine List.filter_eq_nil_iff.2 fun other hother hother' => ?_
        have hlast := (Span.apart_iff (htokens other (by simp [hother])).1 hlen).1
          (hbefore other hother span List.mem_cons_self) offset hother'
        rw [hlast] at hcovers
        cases hcovers
      have hlater : after.filter (·.covers offset) = [] := by
        refine List.filter_eq_nil_iff.2 fun other hother hother' => ?_
        have hlast := (Span.apart_iff hlen (htokens other (by simp [hother])).1).1
          (hafter other hother) offset hcovers
        rw [hlast] at hother'
        cases hother'
      simp [hearlier, hlater, hcovers]

end

end Ledger

namespace Buffer

/-- `IsRun claimed span` says that a span is a maximal run of bytes with one category. -/
structure IsRun (claimed : Nat → Option Category) (span : Span) : Prop where
  bytes : 0 < span.len
  same : ∀ offset, span.covers offset = true → claimed offset = some span.category
  before : ∀ offset, offset + 1 = span.start → claimed offset ≠ some span.category
  after : claimed span.stop ≠ some span.category

/-- A maximal run reaches as far as any other with which it has a byte in common. -/
theorem IsRun.reaches {claimed : Nat → Option Category} {span other : Span} {offset : Nat}
    (h : IsRun claimed span) (hother : IsRun claimed other) (hcovers : span.covers offset = true)
    (hcommon : other.covers offset = true) : span.start ≤ other.start ∧ other.stop ≤ span.stop := by
  have hsame : other.category = span.category :=
    Option.some.inj ((hother.same offset hcommon).symm.trans (h.same offset hcovers))
  rw [Span.covers_iff] at hcovers hcommon
  constructor
  · by_contra hstart
    refine h.before (span.start - 1) (by omega) ?_
    rw [← hsame]
    exact hother.same _ (Span.covers_iff.2 (by omega))
  · by_contra hstop
    refine h.after ?_
    rw [← hsame]
    exact hother.same _ (Span.covers_iff.2 (by omega))

/-- Two maximal runs with a byte in common are the same. -/
theorem IsRun.unique {claimed : Nat → Option Category} {span other : Span} {offset : Nat}
    (h : IsRun claimed span) (hother : IsRun claimed other) (hcovers : span.covers offset = true)
    (hcommon : other.covers offset = true) : span = other := by
  have hsame : span.category = other.category :=
    Option.some.inj ((h.same offset hcovers).symm.trans (hother.same offset hcommon))
  have hover := h.reaches hother hcovers hcommon
  have hunder := hother.reaches h hcommon hcovers
  rcases span with ⟨start, len, category⟩
  rcases other with ⟨otherStart, otherLen, otherCategory⟩
  simp only [Span.stop, Span.mk.injEq] at hsame hover hunder ⊢
  exact ⟨by omega, by omega, hsame⟩

/-- A maximal run covers its start. -/
theorem IsRun.covers_start {claimed : Nat → Option Category} {span : Span}
    (h : IsRun claimed span) : span.covers span.start = true := by
  have hbytes := h.bytes
  exact Span.covers_iff.2 ⟨Nat.le_refl _, by simp only [Span.stop]; omega⟩

/-- `SortedRuns claimed spans` says that the spans are the maximal runs of claimed bytes, in
order. -/
structure SortedRuns (claimed : Nat → Option Category) (spans : List Span) : Prop where
  sorted : spans.Pairwise (·.start < ·.start)
  mem_iff : ∀ span, span ∈ spans ↔ IsRun claimed span

/-- There is only one list of the maximal runs in order. -/
theorem sorted_runs_unique {claimed : Nat → Option Category} {spans others : List Span}
    (h : SortedRuns claimed spans) (hothers : SortedRuns claimed others) : others = spans := by
  have : Std.Irrefl fun span other : Span => span.start < other.start :=
    ⟨fun span => Nat.lt_irrefl span.start⟩
  refine hothers.sorted.eq_of_mem_iff h.sorted fun span => ?_
  rw [hothers.mem_iff, h.mem_iff]

/-- The runs of cells are the maximal runs that start no earlier, if the cells say what is claimed
from their first on and do not go on with the byte before them. -/
theorem Runs.mem_iff {claimed : Nat → Option Category} {first : Nat}
    {cells : List (Option Category)} {spans : List Span} (h : Runs first cells spans)
    (hcells : ∀ index, claimed (first + index) = (cells[index]?).join)
    (hbefore : ∀ offset category, offset + 1 = first → claimed offset = some category →
      cells.head? ≠ some (some category)) (span : Span) :
    span ∈ spans ↔ first ≤ span.start ∧ IsRun claimed span := by
  induction h with
  | nil first =>
      refine iff_of_false List.not_mem_nil ?_
      rintro ⟨hstart, hrun⟩
      have hnone := hcells (span.start - first)
      rw [Nat.add_sub_cancel' hstart, hrun.same _ hrun.covers_start] at hnone
      cases hnone
  | @gap first cells spans hrest ih =>
      have hfirst : claimed first = none := hcells 0
      rw [ih (fun index => by rw [Nat.add_assoc, Nat.add_comm 1]; exact hcells (index + 1))
        (fun offset category hoffset hclaimed => by
          rw [Nat.succ.inj hoffset, hfirst] at hclaimed
          cases hclaimed)]
      refine and_congr_left fun hrun => ⟨Nat.le_of_succ_le, fun hstart => ?_⟩
      -- No run starts at the gap.
      refine Nat.lt_of_le_of_ne hstart fun hhere => ?_
      have hsame := hrun.same _ hrun.covers_start
      rw [← hhere, hfirst] at hsame
      cases hsame
  | @run first len category rest spans hstop hrest ih =>
      have hinside : ∀ offset, first ≤ offset → offset < first + (len + 1) →
          claimed offset = some category := by
        intro offset hlow hhigh
        have hcell := hcells (offset - first)
        rw [Nat.add_sub_cancel' hlow, List.getElem?_append_left (by simp; omega),
          List.getElem?_replicate_of_lt (by omega)] at hcell
        exact hcell
      have hlater : ∀ index, claimed (first + (len + 1) + index) = (rest[index]?).join := by
        intro index
        rw [Nat.add_assoc, hcells, List.getElem?_append_right (by simp), List.length_replicate,
          Nat.add_sub_cancel_left]
      have hrun : IsRun claimed ⟨first, len + 1, category⟩ := by
        refine ⟨Nat.succ_pos len, fun offset hoffset => ?_, fun offset hoffset hclaimed => ?_, ?_⟩
        · exact hinside offset (Span.covers_iff.1 hoffset).1 (Span.covers_iff.1 hoffset).2
        · exact hbefore offset category hoffset hclaimed rfl
        · have hcell := hlater 0
          rw [Nat.add_zero, ← List.head?_eq_getElem?] at hcell
          rw [Span.stop, hcell, Ne, Option.join_eq_some_iff]
          exact hstop
      rw [List.mem_cons, ih hlater fun offset other hoffset hclaimed => ?_]
      · constructor
        · rintro (rfl | ⟨hstart, hspan⟩)
          · exact ⟨Nat.le_refl _, hrun⟩
          · exact ⟨by omega, hspan⟩
        · rintro ⟨hstart, hspan⟩
          obtain hwithin | hpast := Nat.lt_or_ge span.start (first + (len + 1))
          · exact .inl (hspan.unique hrun hspan.covers_start (Span.covers_iff.2 ⟨hstart, hwithin⟩))
          · exact .inr ⟨hpast, hspan⟩
      · obtain rfl : offset = first + len := by omega
        rw [hinside _ (by omega) (by omega)] at hclaimed
        cases hclaimed
        exact hstop

/-- The runs of a buffer are the maximal runs of claimed bytes, in order. -/
theorem sorted_runs (buffer : Buffer) : SortedRuns buffer.claimedAt (runs 0 buffer.cells) := by
  have hruns := runs_runs 0 buffer.cells
  constructor
  · refine hruns.pairwise.imp_of_mem fun {span next} hspan _ hapart => ?_
    obtain ⟨-, hlen, -⟩ := hruns.bounds span hspan
    have hstop := hapart.1
    rw [Span.stop] at hstop
    omega
  · intro span
    have hcells : ∀ index, buffer.claimedAt (0 + index) = (buffer.cells[index]?).join := by
      intro index
      rw [Nat.zero_add, claimedAt]
    have hbefore : ∀ offset category, offset + 1 = 0 → buffer.claimedAt offset = some category →
        buffer.cells.head? ≠ some (some category) :=
      fun offset _ hzero => absurd hzero (Nat.succ_ne_zero offset)
    rw [hruns.mem_iff hcells hbefore, and_iff_right (Nat.zero_le span.start)]

/-- A buffer is faithful to its calls. It accepts a claim that has bytes, is not for errors, lies on
the line and has no byte in common with an accepted one, and an overlay that has bytes and starts on
the line. A call that it rejects changes nothing, and the bytes of a claim that it accepts keep its
category whatever is called later. A claimed byte has the category of the one accepted claim that
covers it. The spans are first the maximal runs of claimed bytes in order, of which there is only
one list, and then the accepted overlays, cut off at the end of the line, in the order of the calls;
and the category at each offset can be read off them. -/
theorem calls_recorded (line : Text) (calls : List Call) :
    let buffer := (Buffer.ofText line).run calls
    let ledger := (Ledger.ofText line).run calls
    (∀ first call rest, calls = first ++ call :: rest →
      let earlier := (Buffer.ofText line).run first
      earlier.accepts call = ((Ledger.ofText line).run first).accepts call ∧
      (earlier.accepts call = false → earlier.call call = earlier) ∧
      ∀ span, call = .claim span → earlier.accepts call = true →
        ∀ offset, span.covers offset = true → buffer.claimedAt offset = some span.category) ∧
    (∀ offset, (ledger.claims.filter (·.covers offset)).map (·.category) =
      (buffer.claimedAt offset).toList) ∧
    (∃ tokens, buffer.spans = tokens ++ ledger.overlays ∧ SortedRuns buffer.claimedAt tokens ∧
      ∀ others, SortedRuns buffer.claimedAt others → others = tokens) ∧
    ∀ state offset,
      (LineHighlight.mk buffer.spans state).categoryAt offset = buffer.claimedAt offset := by
  intro buffer ledger
  have hmatches : ledger.Matches buffer := (Ledger.matches_of_text line).run calls
  refine ⟨?_, hmatches.covering_eq, ?_, ?_⟩
  · rintro first call rest rfl
    intro earlier
    have hearlier := (Ledger.matches_of_text line).run first
    refine ⟨hearlier.accepts_eq call, call_of_rejected, ?_⟩
    rintro span rfl haccepted offset hcovers
    refine (hmatches.claimed offset span.category).2 ⟨span, ?_, hcovers, rfl⟩
    exact Ledger.mem_claims_of_accepted _ first rest (hearlier.accepts_eq _ ▸ haccepted)
  · refine ⟨runs 0 buffer.cells, ?_, buffer.sorted_runs, fun others => ?_⟩
    · rw [← hmatches.overlays, spans]
    · exact sorted_runs_unique buffer.sorted_runs
  · intro state offset
    refine category_in_eq_claimed (fun offset herror => ?_) ?_ offset
    · obtain ⟨span, hspan, -, hcategory⟩ := (hmatches.claimed offset .error).1 herror
      exact (hmatches.tokens span hspan).2 hcategory
    · rw [hmatches.overlays]
      exact hmatches.errors

end Buffer

end Highlighter
