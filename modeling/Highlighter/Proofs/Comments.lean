import Highlighter.Proofs.Spans

/-!
# The comment of a line

A line is walked over from its start: characters that are no quote and start no comment marker, and
literals that are closed, are passed over. `Settled` says so of a text without the walk. The walk
stops at a marker, at a quote that stays open, or at the end (`walk_ends`), so a marker that starts
no comment lies in a closed literal (`Settled.exists_literal`).

The comment is claimed before anything else and reaches to the end of the line. Whatever else is
offered as a comment reaches there too and is refused (`Buffer.Claims.comment_before`). So the
comment is painted as one span, and nothing else is painted as a comment (`comment_spans`), whatever
the outcome and its errors are.
-/

namespace Highlighter

open Text

/-- `Closed quote body` says that `body` is what follows the opening quote of a literal up to its
closing quote. A backslash takes the next character with it. -/
inductive Closed (quote : Char) : Text → Prop where
  | close : Closed quote [quote]
  | escape (c body) : Closed quote body → Closed quote ('\\' :: c :: body)
  | other (c body) : c ≠ quote → c ≠ '\\' → Closed quote body → Closed quote (c :: body)

/-- `Settled text` says that a text consists of closed literals and of characters outside them that
are no quote and start no comment marker. -/
inductive Settled : Text → Prop where
  | nil : Settled []
  | plain (c rest) :
      isQuote c = false → ¬ (c = '/' ∧ rest.head? = some '/') → Settled rest → Settled (c :: rest)
  | literal (quote body rest) :
      isQuote quote = true → Closed quote body → Settled rest → Settled (quote :: body ++ rest)

/-- `HasLiteral line first literal` says that a line starts with settled text and then has a closed
literal, from its opening to its closing quote. -/
def HasLiteral (line first literal : Text) : Prop :=
  ∃ quote body rest, literal = quote :: body ∧ line = first ++ literal ++ rest ∧ Settled first ∧
    isQuote quote = true ∧ Closed quote body

/-- A literal of a text is one of a longer text. -/
theorem HasLiteral.append {line first literal : Text} (h : HasLiteral line first literal)
    (more : Text) : HasLiteral (line ++ more) first literal := by
  obtain ⟨quote, body, rest, hliteral, rfl, hsettled, hclosed⟩ := h
  exact ⟨quote, body, rest ++ more, hliteral, by rw [List.append_assoc], hsettled, hclosed⟩

/-- A literal ends with its quote. -/
theorem Closed.getLast? {quote : Char} {body : Text} (h : Closed quote body) :
    body.getLast? = some quote := by
  induction h with
  | close => rfl
  | escape c body hbody ih => simp [List.getLast?_cons, ih]
  | other c body hquote hslash hbody ih => simp [List.getLast?_cons, ih]

/-- A character before a settled text keeps it settled if it starts no marker in a longer one. -/
theorem Settled.cons {c : Char} {first : Text} (more : Text) (hquote : isQuote c = false)
    (hmarker : ¬ (c = '/' ∧ (first ++ more).head? = some '/')) (h : Settled first) :
    Settled (c :: first) := by
  refine .plain c first hquote (fun hboth => hmarker ⟨hboth.1, ?_⟩) h
  rw [List.head?_append, hboth.2]
  rfl

/-- The walk after a quote finds it open to the end, or goes on after the literal. -/
theorem walk_quote (offset opened : Nat) (mark : Char) (text : Text) :
    LineScan.ofText offset (some (mark, opened)) text = .openQuote opened ∨
      ∃ body rest, text = body ++ rest ∧ Closed mark body ∧
        LineScan.ofText offset (some (mark, opened)) text =
          LineScan.ofText (offset + body.byteLength) none rest := by
  generalize hquote : some (mark, opened) = quote
  fun_induction LineScan.ofText offset quote text with
  | case1 offset =>
      cases hquote
      exact .inl rfl
  | case3 offset =>
      cases hquote
      exact .inl rfl
  | case4 offset mark opened d ds next ih =>
      cases hquote
      obtain hopen | ⟨body, rest, rfl, hclosed, hwalk⟩ := ih rfl
      · exact .inl hopen
      · refine .inr ⟨'\\' :: d :: body, rest, rfl, .escape d body hclosed, hwalk.trans ?_⟩
        simp [next, Nat.add_assoc]
  | case5 offset c cs next opened hescape =>
      cases hquote
      exact .inr ⟨[mark], cs, rfl, .close, by simp [next]⟩
  | case6 offset c cs next mark opened hescape hmark ih =>
      cases hquote
      obtain hopen | ⟨body, rest, rfl, hclosed, hwalk⟩ := ih rfl
      · exact .inl hopen
      · refine .inr ⟨c :: body, rest, rfl, .other c body hmark hescape hclosed, hwalk.trans ?_⟩
        simp [next, Nat.add_assoc]
  | _ => cases hquote

/-- `WalkEnds offset text scan` says how a walk over a text ends that starts at a byte offset
outside literals: after settled text, at its end, at a quote that stays open or at a comment
marker. -/
inductive WalkEnds (offset : Nat) (text : Text) : LineScan → Prop where
  | clear : Settled text → WalkEnds offset text .clear
  | openQuote (first quote body) :
      text = first ++ quote :: body → Settled first → isQuote quote = true →
      WalkEnds offset text (.openQuote (offset + first.byteLength))
  | marker (first rest) :
      text = first ++ '/' :: '/' :: rest → Settled first →
      WalkEnds offset text (.marker (offset + first.byteLength))

/-- A walk that passes over a word ends as the walk after it does. -/
theorem WalkEnds.append {offset : Nat} (word : Text) {rest : Text} {scan : LineScan}
    (hword : ∀ first more, rest = first ++ more → Settled first → Settled (word ++ first))
    (h : WalkEnds (offset + word.byteLength) rest scan) : WalkEnds offset (word ++ rest) scan := by
  cases h with
  | clear hsettled => exact .clear (hword rest [] (by simp) hsettled)
  | openQuote first quote body hrest hsettled hquote =>
      rw [Nat.add_assoc, ← byte_length_append]
      exact .openQuote (word ++ first) quote body (by simp [hrest]) (hword _ _ hrest hsettled)
        hquote
  | marker first after hrest hsettled =>
      rw [Nat.add_assoc, ← byte_length_append]
      exact .marker (word ++ first) after (by simp [hrest]) (hword _ _ hrest hsettled)

/-- The walk over a text ends after settled text. -/
theorem walk_ends (offset : Nat) (text : Text) :
    WalkEnds offset text (LineScan.ofText offset none text) := by
  induction hlength : text.length using Nat.strong_induction_on generalizing offset text with
  | _ length ih =>
      cases text with
      | nil => exact .clear .nil
      | cons c cs =>
          rw [List.length_cons] at hlength
          rw [LineScan.ofText.eq_def]
          simp only
          split
          · next hquote =>
              obtain hopen | ⟨body, rest, rfl, hclosed, hwalk⟩ :=
                walk_quote (offset + c.utf8Size) offset c cs
              · rw [hopen]
                exact .openQuote [] c cs rfl .nil hquote
              · rw [hwalk, Nat.add_assoc, ← byte_length_cons, ← List.cons_append]
                rw [List.length_append] at hlength
                refine .append (c :: body) (fun first _ _ hfirst => ?_)
                  (ih rest.length (by omega) _ _ rfl)
                exact .literal c body first hquote hclosed hfirst
          · next hquote =>
              split
              · next hmarker =>
                  obtain ⟨rfl, hslash⟩ : c = '/' ∧ cs.head? = some '/' := by simpa using hmarker
                  obtain ⟨rest, rfl⟩ := List.head?_eq_some_iff.1 hslash
                  exact .marker [] rest rfl .nil
              · next hmarker =>
                  refine .append [c] (fun first more hrest hfirst => ?_)
                    (ih cs.length (by omega) _ _ rfl)
                  exact .cons more (by simpa using hquote) (by simpa [← hrest] using hmarker) hfirst

/-- A marker that starts in a literal ends before its closing quote. -/
theorem Closed.marker_inside {quote : Char} {body before inner after rest : Text}
    (h : Closed quote body) (hquote : isQuote quote = true)
    (hword : quote :: body = before ++ inner)
    (hinner : '/' :: '/' :: after = inner ++ rest) (hstarts : inner ≠ []) :
    0 < before.length ∧ 2 < inner.length := by
  have hslash : '/' ≠ quote := by
    rintro rfl
    cases hquote
  have hlast : (before ++ inner).getLast? = some quote := by
    rw [← hword, List.getLast?_cons, h.getLast?]
    rfl
  constructor
  · refine List.length_pos_iff.2 ?_
    rintro rfl
    rw [List.nil_append] at hword
    rw [← hword] at hinner
    exact hslash (List.cons.inj hinner).1
  · match inner, hinner with
    | [], _ => exact absurd rfl hstarts
    | [c], hinner =>
        cases hinner
        exact absurd (by simpa using hlast) hslash
    | [c, d], hinner =>
        cases hinner
        exact absurd (by simpa using hlast) hslash
    | c :: d :: e :: inner, _ => simp

/-- A marker in settled text lies in a closed literal. -/
theorem Settled.exists_literal {text before after : Text} (h : Settled text)
    (hsplit : text = before ++ '/' :: '/' :: after) :
    ∃ first literal, HasLiteral text first literal ∧ first.length < before.length ∧
      before.length + 2 < (first ++ literal).length := by
  induction h generalizing before with
  | nil => simp at hsplit
  | plain c rest hquote hmarker hrest ih =>
      cases before with
      | nil =>
          obtain ⟨rfl, rfl⟩ := List.cons.inj hsplit
          exact absurd ⟨rfl, rfl⟩ hmarker
      | cons d before =>
          obtain ⟨rfl, htail⟩ := List.cons.inj hsplit
          obtain ⟨first, literal, ⟨quote, body, more, hliteral, rfl, hsettled, hclosed⟩, hlow,
            hhigh⟩ := ih htail
          rw [List.append_assoc] at hmarker
          refine ⟨c :: first, literal, ⟨quote, body, more, hliteral, rfl,
            .cons _ hquote hmarker hsettled, hclosed⟩, ?_, ?_⟩
          · simpa using hlow
          · simp only [List.length_append, List.length_cons] at hhigh ⊢
            omega
  | literal quote body rest hquote hclosed hrest ih =>
      obtain ⟨later, rfl, hlater⟩ | ⟨inner, hword, hinner⟩ := List.append_eq_append_iff.1 hsplit
      · -- The marker stands after the literal.
        obtain ⟨first, literal, ⟨mark, inside, more, hliteral, rfl, hsettled, hinside⟩, hlow,
          hhigh⟩ := ih hlater
        refine ⟨quote :: body ++ first, literal, ⟨mark, inside, more, hliteral, by simp,
          .literal _ _ _ hquote hclosed hsettled, hinside⟩, ?_, ?_⟩
        · simpa using hlow
        · simp only [List.length_append, List.length_cons] at hhigh ⊢
          omega
      · -- The marker starts in the literal, or right after it, where settled text has none.
        have hstarts : inner ≠ [] := by
          rintro rfl
          obtain ⟨_, _, -, hlow, -⟩ := @ih [] hinner.symm
          cases hlow
        obtain ⟨hbefore, hlong⟩ := hclosed.marker_inside hquote hword hinner hstarts
        refine ⟨[], quote :: body, ⟨quote, body, rest, rfl, rfl, .nil, hquote, hclosed⟩, hbefore,
          ?_⟩
        rw [hword, List.nil_append, List.length_append]
        omega

/-- A word is found where the text has it, or the text does not have it. -/
theorem find_cases (text word : Text) :
    (text.find? word = none ∧ ∀ before after, text ≠ before ++ word ++ after) ∨
      ∃ before after, text = before ++ word ++ after ∧
        text.find? word = some before.byteLength := by
  induction text with
  | nil =>
      cases word with
      | nil => exact .inr ⟨[], [], rfl, rfl⟩
      | cons c cs => exact .inl ⟨rfl, fun before after hsplit => by simp at hsplit⟩
  | cons c cs ih =>
      rw [find?]
      by_cases hstarts : word.isPrefixOf (c :: cs) = true
      · obtain ⟨after, hafter⟩ := List.isPrefixOf_iff_prefix.1 hstarts
        exact .inr ⟨[], after, hafter.symm, if_pos hstarts⟩
      rw [if_neg hstarts]
      obtain ⟨hnone, hlater⟩ | ⟨before, after, rfl, hfound⟩ := ih
      · refine .inl ⟨by rw [hnone]; rfl, fun before after hsplit => ?_⟩
        cases before with
        | nil => exact hstarts (List.isPrefixOf_iff_prefix.2 ⟨after, hsplit.symm⟩)
        | cons d before => exact hlater before after (List.cons.inj hsplit).2
      · exact .inr ⟨c :: before, after, rfl, by rw [hfound]; rfl⟩

/-- A quote has one byte. -/
theorem quote_size {quote : Char} (h : isQuote quote = true) : quote.utf8Size = 1 := by
  obtain rfl | rfl : quote = '"' ∨ quote = '\'' := by simpa [isQuote] using h
  · rfl
  · rfl

/-- What stands after a quote. -/
theorem split_after_quote (first : Text) {quote : Char} (body : Text)
    (hquote : isQuote quote = true) :
    splitAt? (first.byteLength + 1) (first ++ quote :: body) = some (first ++ [quote], body) := by
  have hcut := split_at_byte_length (first ++ [quote]) body
  rwa [byte_length_append, byte_length_cons, quote_size hquote, List.append_assoc] at hcut

/-- A marker of a line with a quote stands before the quote, unless there is one after it. -/
theorem marker_before_quote {first body before after : Text} {quote : Char}
    (hquote : isQuote quote = true)
    (hnone : ∀ before after, body ≠ before ++ ['/', '/'] ++ after)
    (hsplit : first ++ quote :: body = before ++ '/' :: '/' :: after) :
    ∃ rest, first = before ++ '/' :: '/' :: rest := by
  have hslash : '/' ≠ quote := by
    rintro rfl
    cases hquote
  obtain ⟨later, -, hlater⟩ | ⟨inner, rfl, hinner⟩ := List.append_eq_append_iff.1 hsplit
  · cases later with
    | nil => exact absurd (List.cons.inj hlater).1.symm hslash
    | cons c later => exact absurd (by simpa using (List.cons.inj hlater).2) (hnone later after)
  · match inner, hinner with
    | [], hinner => exact absurd (List.cons.inj hinner).1 hslash
    | [c], hinner => exact absurd (List.cons.inj (List.cons.inj hinner).2).1 hslash
    | c :: d :: rest, hinner =>
        cases hinner
        exact ⟨rest, rfl⟩

/-- Either a comment starts at a marker, or every marker lies in a closed literal. -/
theorem comment_start_cases (line : Text) :
    (∃ before after, line = before ++ '/' :: '/' :: after ∧
      commentStart? line = some before.byteLength) ∨
    (commentStart? line = none ∧ ∀ before after, line = before ++ '/' :: '/' :: after →
      ∃ first literal, HasLiteral line first literal ∧ first.length < before.length ∧
        before.length + 2 < (first ++ literal).length) := by
  have hends := walk_ends 0 line
  unfold commentStart?
  generalize LineScan.ofText 0 none line = scan at hends
  cases hends with
  | clear hsettled => exact .inr ⟨rfl, fun before after hsplit => hsettled.exists_literal hsplit⟩
  | openQuote first quote body hline hsettled hquote =>
      subst hline
      simp only [Nat.zero_add, split_after_quote first body hquote]
      obtain ⟨hnone, hlater⟩ | ⟨before, after, rfl, hfound⟩ := find_cases body ['/', '/']
      · refine .inr ⟨congrArg (Option.map _) hnone, fun before after hsplit => ?_⟩
        obtain ⟨rest, hrest⟩ := marker_before_quote hquote hlater hsplit
        obtain ⟨passed, literal, hliteral, hlow, hhigh⟩ := hsettled.exists_literal hrest
        exact ⟨passed, literal, hliteral.append (quote :: body), hlow, hhigh⟩
      · refine .inl ⟨first ++ quote :: before, after, by simp, ?_⟩
        show (find? _ ['/', '/']).map _ = _
        rw [hfound]
        simp [quote_size hquote, Nat.add_assoc]
  | marker first rest hline hsettled => exact .inl ⟨first, rest, hline, by simp⟩

/-- A literal without line feeds is one of the lexer's. -/
theorem Closed.literal {quote : Char} {body : Text} (h : Closed quote body) (hfeed : '\n' ∉ body) :
    Lexeme.Literal quote body := by
  induction h with
  | close => exact .close
  | escape c body hbody ih =>
      simp only [List.mem_cons, not_or] at hfeed
      exact .escape c body (Ne.symm hfeed.2.1) (ih hfeed.2.2)
  | other c body hquote hslash hbody ih =>
      simp only [List.mem_cons, not_or] at hfeed
      exact .other c body hquote hslash (Ne.symm hfeed.1) (ih hfeed.2)

/-- The literals after settled text are found. -/
theorem Settled.matches_subset {first : Text} (h : Settled first) (hfeed : '\n' ∉ first)
    (offset : Nat) (before : Option Char) (rest : Text) :
    ∃ last, matchesFrom quotedLiteral (offset + first.byteLength) last 0 rest ⊆
      matchesFrom quotedLiteral offset before 0 (first ++ rest) := by
  induction h generalizing offset before with
  | nil => exact ⟨before, List.Subset.refl _⟩
  | plain c first hquote hmarker hfirst ih =>
      obtain ⟨hc, hfeed⟩ := List.ne_and_not_mem_of_not_mem_cons hfeed
      obtain ⟨last, hlast⟩ := ih hfeed (offset + c.utf8Size) (some c)
      refine ⟨last, ?_⟩
      rw [Nat.add_assoc] at hlast
      simpa [matchesFrom, quoted_literal_plain hquote] using hlast
  | literal quote body first hquote hclosed hfirst ih =>
      simp only [List.cons_append, List.mem_cons, List.mem_append, not_or] at hfeed
      have hmatch : quotedLiteral before (quote :: body ++ (first ++ rest)) = _ :=
        quoted_literal_of_munched (.string _ _ _ hquote (hclosed.literal hfeed.2.1)) before
      obtain ⟨last, hlast⟩ := ih hfeed.2.2 (offset + byteLength (quote :: body))
        ((quote :: body).getLast?.or before)
      refine ⟨last, ?_⟩
      rw [List.append_assoc, matches_from_match offset (by simp) hmatch, byte_length_append,
        ← Nat.add_assoc]
      exact List.Subset.trans hlast (List.subset_cons_self _ _)

/-- A literal on a line without a comment is one that the line shows. -/
theorem mem_literals {line first literal : Text} (h : HasLiteral line first literal)
    (hfeed : '\n' ∉ line) (hcomment : commentStart? line = none) :
    ⟨first.byteLength, (first ++ literal).byteLength⟩ ∈ (LineView.ofText line).literals := by
  obtain ⟨quote, body, rest, rfl, rfl, hsettled, hquote, hclosed⟩ := h
  simp only [List.mem_append, List.mem_cons, not_or] at hfeed
  obtain ⟨⟨hfirst, -, hbody⟩, -⟩ := hfeed
  obtain ⟨last, hsubset⟩ := hsettled.matches_subset hfirst 0 none (quote :: body ++ rest)
  have hmatch : quotedLiteral last (quote :: body ++ rest) = _ :=
    quoted_literal_of_munched (.string _ _ _ hquote (hclosed.literal hbody)) last
  rw [matches_from_match _ (by simp) hmatch, ← List.append_assoc] at hsubset
  have hstart := quote.utf8Size_pos
  simp only [LineView.ofText, hcomment, List.mem_filter, decide_eq_true_eq, Option.getD_none]
  constructor
  · simpa [findAll, Nat.add_assoc] using hsubset List.mem_cons_self
  · simp only [byte_length_append, byte_length_cons]
    omega

namespace Buffer

/-- Copies of a category are one run. -/
theorem runs_replicate (offset len : Nat) (category : Category) :
    runs offset (List.replicate (len + 1) (some category)) = [⟨offset, len + 1, category⟩] := by
  induction len generalizing offset with
  | zero => rfl
  | succ len ih =>
      rw [List.replicate_succ, runs, ih]
      simp

/-- The runs of some kind are the last run if no cell before it is of the kind. -/
theorem filter_runs (kind : Category → Bool) (offset len : Nat) {category : Category}
    (hkind : kind category = true) {front : List (Option Category)}
    (hfront : ∀ other, some other ∈ front → kind other = false) :
    (runs offset (front ++ List.replicate (len + 1) (some category))).filter (kind ·.category) =
      [⟨offset + front.length, len + 1, category⟩] := by
  induction front generalizing offset with
  | nil => simp [runs_replicate, hkind]
  | cons cell front ih =>
      have hrest := ih (offset + 1) fun other hother => hfront other (List.mem_cons_of_mem _ hother)
      rw [List.length_cons, ← Nat.add_assoc, Nat.add_right_comm, ← hrest]
      cases cell with
      | none => rfl
      | some other =>
          have hother := hfront other List.mem_cons_self
          rw [List.cons_append, runs]
          split
          · next hnil => simp [hnil, hother]
          · next next spans hcons =>
              rw [hcons]
              split
              · next hsame =>
                  obtain ⟨-, rfl⟩ : next.start = offset + 1 ∧ next.category = other := by
                    simpa using hsame
                  simp [hother]
              · simp [hother]

/-- Where a byte is claimed, claims that reach over it are refused, so up to it comments are where
they were if all that are offered reach over it. -/
theorem Claims.comment_before {offered : Span → Prop} {buffer after : Buffer} {offset last : Nat}
    {category : Category} (h : Claims offered buffer after)
    (hreach : ∀ span, offered span → span.category.isComment = true → last < span.stop)
    (hlast : buffer.claimedAt last ≠ none) (hoffset : offset ≤ last)
    (hclaimed : after.claimedAt offset = some category) (hcomment : category.isComment = true) :
    buffer.claimedAt offset = some category := by
  induction h with
  | refl => exact hclaimed
  | @claim buffer claimed after span hoffer hgranted hrest ih =>
      have hkept : claimed.claimedAt last ≠ none := by
        obtain ⟨other, hother⟩ := Option.ne_none_iff_exists'.1 hlast
        have hclaim : Claims offered buffer claimed := .claim hoffer hgranted (.refl claimed)
        simp [hclaim.claimed_at hother]
      have hbefore := ih hkept hclaimed
      rw [claimed_at_claim hgranted] at hbefore
      split at hbefore
      · next hinside =>
          cases hbefore
          have hstop := hreach span hoffer hcomment
          rw [claim_of_claimed (hinside.1.trans hoffset) hstop hlast] at hgranted
          cases hgranted
      · exact hbefore

end Buffer

/-- A span for the rest of a line reaches to its end. -/
theorem le_stop_of_rest (line : Text) (start : Nat) (category : Category) :
    line.byteLength ≤ Span.stop ⟨start, line.byteLength - start, category⟩ := by
  simp only [Span.stop]
  omega

/-- What a tree offers as a comment reaches to the end of the line. -/
theorem reach_of_offer {number : Nat} {line : Text} {items : List Item} {span : Span}
    (h : (Canvas.ofText number line).Offers items span)
    (hcomment : span.category.isComment = true) : line.byteLength ≤ span.stop := by
  cases h with
  | comment hitem hhas hstart => exact le_stop_of_rest line _ _
  | @scalar value pos range hitem hhas hrange => cases value <;> cases hcomment
  | _ => cases hcomment

/-- What the patterns want as a comment reaches to the end of the line. -/
theorem reach_of_pattern_span {line : Text} {span : Span} (h : span ∈ patternSpans line)
    (hcomment : span.category.isComment = true) : line.byteLength ≤ span.stop := by
  have hmatch : ∀ {ranges : List Range} {category : Category}, category.isComment = false →
      span ∉ ranges.map (Span.ofRange · category) := by
    intro ranges category hother hspan
    obtain ⟨range, -, rfl⟩ := List.mem_map.1 hspan
    exact absurd hcomment (by simp [Span.ofRange, hother])
  simp only [patternSpans, List.mem_append] at h
  obtain (((((hspan | hliteral) | hkey) | hboolean) | hnull) | hnumber) | hsymbol := h
  · obtain ⟨⟨start, kind⟩, -, rfl⟩ := Option.map_eq_some_iff.1 (Option.mem_toList.1 hspan)
    exact le_stop_of_rest line start _
  · exact absurd hliteral (hmatch rfl)
  · split at hkey
    · rw [List.mem_pair] at hkey
      obtain rfl | rfl := hkey
      · cases hcomment
      · cases hcomment
    · cases hkey
  · exact absurd hboolean (hmatch rfl)
  · exact absurd hnull (hmatch rfl)
  · exact absurd hnumber (hmatch rfl)
  · exact absurd hsymbol (hmatch rfl)

/-- After its comment, a line is painted by claims; those for comments reach its end. -/
theorem Pass.claims_tokens (pass : Pass) (number : Nat) (line : Text) :
    Buffer.Claims (fun span => span.category.isComment = true → line.byteLength ≤ span.stop)
      ((Buffer.ofText line).paintComment line) (pass.paintTokens number line) := by
  have hpatterns : Buffer.Claims _ ((Buffer.ofText line).paintComment line)
      (((Buffer.ofText line).paintComment line).paintPatterns line) :=
    Buffer.claims_claim_all fun span hspan => reach_of_pattern_span hspan
  simp only [paintTokens]
  split
  · next tree _ =>
      split
      · exact (Canvas.claims_tree tree number line _).mono fun span hspan => reach_of_offer hspan
      · exact hpatterns
  · exact hpatterns

/-- A comment has bytes, is painted as one and reaches to the end of the line. -/
theorem comment_span_shape {line : Text} {span : Span} (h : commentSpan? line = some span) :
    span.start < line.byteLength ∧ span.stop = line.byteLength ∧
      span.category.isComment = true := by
  obtain ⟨⟨start, kind⟩, hfind, rfl⟩ := Option.map_eq_some_iff.1 h
  obtain ⟨marker, hmarker, hsplit⟩ := Option.bind_eq_some_iff.1 hfind
  obtain ⟨rest, -, hboth⟩ := Option.bind_eq_some_iff.1 hsplit
  cases hboth
  have hstart : start < line.byteLength := by
    obtain ⟨before, after, hline, hstart⟩ | ⟨hnone, -⟩ := comment_start_cases line
    · have hsize := Char.utf8Size_pos '/'
      rw [hmarker, Option.some.injEq] at hstart
      rw [hline, hstart, byte_length_append, byte_length_cons]
      omega
    · simp [hmarker] at hnone
  refine ⟨hstart, ?_, ?_⟩
  · simp only [Span.stop]
    omega
  · show (CommentKind.category _).isComment = true
    unfold CommentKind.category
    split
    · rfl
    · rfl

/-- A line without a comment has no start of one. -/
theorem comment_start_of_span_none {line : Text} (h : commentSpan? line = none) :
    commentStart? line = none := by
  obtain ⟨before, after, rfl, hstart⟩ | ⟨hnone, -⟩ := comment_start_cases line
  · simp [commentSpan?, findComment?, hstart, split_at_byte_length] at h
  · exact hnone

namespace Buffer

/-- Painting the comment of a line claims its span and nothing else. -/
theorem claimed_at_paint_comment {line : Text} {span : Span} (h : commentSpan? line = some span)
    (offset : Nat) :
    ((Buffer.ofText line).paintComment line).claimedAt offset =
      if span.start ≤ offset ∧ offset < line.byteLength then some span.category else none := by
  obtain ⟨hstart, hstop, hcomment⟩ := comment_span_shape h
  have hfree : (Buffer.ofText line).isFree ⟨span.start, span.stop⟩ = true := by
    refine is_free_iff.2 ⟨?_, fun other _ => claimed_at_of_text line other⟩
    exact hstop.le.trans (List.length_replicate).ge
  have hcategory : span.category ≠ .error := by
    intro herror
    simp [herror, Category.isComment] at hcomment
  have hlen : span.len ≠ 0 := by
    rw [Span.stop] at hstop
    omega
  obtain ⟨claimed, hgranted⟩ := claim_of_free hlen hcategory hfree
  have hpaint : (Buffer.ofText line).paintComment line = claimed := by
    simp [paintComment, h, claimAll, claim, hgranted]
  rw [hpaint, claimed_at_claim hgranted, claimed_at_of_text, ← hstop]
  rfl

/-- Cells that are claimed for a category from an offset on end with copies of it. -/
theorem cells_of_claimed {buffer : Buffer} {start : Nat} {category : Category}
    (h : ∀ offset, start ≤ offset → offset < buffer.length →
      buffer.claimedAt offset = some category) :
    buffer.cells =
      buffer.cells.take start ++ List.replicate (buffer.length - start) (some category) := by
  have hdrop : buffer.cells.drop start =
      List.replicate (buffer.length - start) (some category) := by
    refine List.eq_replicate_iff.2 ⟨List.length_drop, fun cell hcell => ?_⟩
    obtain ⟨index, hindex⟩ := List.getElem?_of_mem hcell
    rw [List.getElem?_drop] at hindex
    obtain ⟨hbound, -⟩ := List.getElem?_eq_some_iff.1 hindex
    have hclaimed := h (start + index) (by omega) hbound
    rw [claimedAt, hindex] at hclaimed
    exact hclaimed
  rw [← hdrop, List.take_append_drop]

end Buffer

/-- The cells of a line with a comment end with those of the comment, and no other is for
comments. -/
theorem comment_cells (pass : Pass) (number : Nat) {line : Text} {span : Span}
    (h : commentSpan? line = some span) :
    ∃ front, (pass.paintTokens number line).cells =
        front ++ List.replicate span.len (some span.category) ∧
      front.length = span.start ∧
      ∀ category, some category ∈ front → category.isComment = false := by
  obtain ⟨hstart, hstop, -⟩ := comment_span_shape h
  have hpainted := Buffer.claimed_at_paint_comment h
  have hclaims := pass.claims_tokens number line
  have hlength : (pass.paintTokens number line).length = line.byteLength :=
    (Buffer.Aligned.paint_tokens pass number line).length
  have hcells := Buffer.cells_of_claimed fun offset hlow hhigh =>
    hclaims.claimed_at ((hpainted offset).trans (if_pos ⟨hlow, hlength ▸ hhigh⟩))
  have hlen : line.byteLength - span.start = span.len := by
    rw [← hstop, Span.stop, Nat.add_sub_cancel_left]
  rw [hlength, hlen] at hcells
  refine ⟨_, hcells, List.length_take_of_le ?_, fun category hcategory => ?_⟩
  · exact hstart.le.trans hlength.ge
  · obtain ⟨offset, hoffset⟩ := List.getElem?_of_mem hcategory
    rw [List.getElem?_take, Option.ite_none_right_eq_some] at hoffset
    obtain ⟨hbefore, hcell⟩ := hoffset
    have hclaimed : (pass.paintTokens number line).claimedAt offset = some category := by
      rw [Buffer.claimedAt, hcell]
      rfl
    have hlast :
        ((Buffer.ofText line).paintComment line).claimedAt (line.byteLength - 1) ≠ none := by
      rw [hpainted, if_pos (by omega)]
      exact Option.some_ne_none _
    have hreach : ∀ other : Span,
        (other.category.isComment = true → line.byteLength ≤ other.stop) →
        other.category.isComment = true → line.byteLength - 1 < other.stop := by
      intro other hother hcomment
      have hrest := hother hcomment
      omega
    rw [← Bool.not_eq_true]
    intro hcomment
    have hheld := hclaims.comment_before hreach hlast (by omega) hclaimed hcomment
    rw [hpainted, if_neg (by omega)] at hheld
    cases hheld

/-- The comment of a line is painted as one span, and nothing else is painted as a comment. -/
theorem comment_spans (pass : Pass) (number : Nat) {line : Text} {span : Span}
    (h : commentSpan? line = some span) :
    (pass.highlightLine number line).spans.filter (·.category.isComment) = [span] := by
  obtain ⟨hstart, hstop, hcomment⟩ := comment_span_shape h
  obtain ⟨front, hcells, hfront, hother⟩ := comment_cells pass number h
  obtain ⟨hsame, herrors⟩ := pass.paint_errors_cells number line
    fun span hspan => ((Buffer.Aligned.paint_tokens pass number line).overlays span hspan).1
  obtain ⟨len, hlen⟩ : ∃ len, span.len = len + 1 := by
    refine Nat.exists_eq_succ_of_ne_zero fun hzero => ?_
    rw [Span.stop, hzero] at hstop
    omega
  have hruns := Buffer.filter_runs Category.isComment 0 len hcomment hother
  rw [← hlen, ← hcells, hfront, Nat.zero_add, ← hsame] at hruns
  show (Buffer.runs 0 _ ++ _).filter _ = _
  rw [List.filter_append, hruns]
  have hnone : ∀ other ∈ (pass.paintErrors number line (pass.paintTokens number line)).overlays,
      ¬ other.category.isComment = true := by
    intro other hoverlay hcomment
    rw [herrors other hoverlay] at hcomment
    cases hcomment
  rw [List.filter_eq_nil_iff.2 hnone, List.append_nil]

/-- Comments never disappear. Whatever the outcome and its errors are, the comment of a line is
painted as one span and nothing else on it is painted as a comment. A line without a comment has
comment markers inside closed literals only; if it has no line feed, these are literals that it
shows. -/
theorem comments_shown (pass : Pass) (number : Nat) (line : Text) :
    (∀ span, commentSpan? line = some span →
      (pass.highlightLine number line).spans.filter (·.category.isComment) = [span]) ∧
    (commentSpan? line = none →
      ∀ before after, line = before ++ "//".toList ++ after →
        ∃ first literal, HasLiteral line first literal ∧
          first.length < before.length ∧ before.length + 2 < (first ++ literal).length ∧
          ('\n' ∉ line → ⟨first.byteLength, (first ++ literal).byteLength⟩ ∈
            (LineView.ofText line).literals)) := by
  refine ⟨fun span hspan => comment_spans pass number hspan, fun hnone before after hsplit => ?_⟩
  have hstart := comment_start_of_span_none hnone
  obtain ⟨_, _, -, hsome⟩ | ⟨-, hmarkers⟩ := comment_start_cases line
  · simp [hstart] at hsome
  · obtain ⟨first, literal, hliteral, hlow, hhigh⟩ := hmarkers before after (by simpa using hsplit)
    exact ⟨first, literal, hliteral, hlow, hhigh, fun hfeed => mem_literals hliteral hfeed hstart⟩

/-- A comment after a literal with a marker in it, and the line without the comment. -/
theorem comments_shown_quoted :
    let line := "k = '//' // c".toList
    let pass : Pass := ⟨documentParser line, [], true⟩
    commentSpan? line = some ⟨9, 4, .comment⟩ ∧
      (pass.highlightLine 1 line).spans.filter (·.category.isComment) = [⟨9, 4, .comment⟩] ∧
      commentSpan? (line.take 8) = none ∧
      ∃ first literal, HasLiteral (line.take 8) first literal ∧ first.length < 5 ∧
        7 < (first ++ literal).length := by
  intro line pass
  have hspan : commentSpan? line = some ⟨9, 4, .comment⟩ := by decide +kernel
  have hnone : commentSpan? (line.take 8) = none := by decide +kernel
  obtain ⟨first, literal, hliteral, hlow, hhigh, -⟩ :=
    (comments_shown pass 1 (line.take 8)).2 hnone "k = '".toList ['\''] (by decide +kernel)
  exact ⟨hspan, (comments_shown pass 1 line).1 _ hspan, hnone, first, literal, hliteral, hlow,
    hhigh⟩

end Highlighter
