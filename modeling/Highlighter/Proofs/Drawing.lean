import Highlighter.Proofs.Highlighting

/-!
# What is drawn before a key

The strokes that paint a document come in the order of its lexemes, but for comments and commas. A
`Drawing` holds the strokes for a line of a document that was read. What has been drawn on the line
when the stroke for a key in quotes comes is the comment, the commas if a container that ends before
the key opens on the line or has a member there, and every other lexeme that stands before the key
(`Lexeme.PaintedBefore`, `claimed_iff`).
-/

namespace Highlighter

open Lexeme

section

variable {text : Text} {lexeme other : Lexeme}

/-- A lexeme of a text is known by its place. -/
theorem eq_of_place (hlexeme : lexeme ∈ tokenize text) (hother : other ∈ tokenize text)
    (hplace : lexeme.pos.toSource = other.pos.toSource) : lexeme = other :=
  List.inj_on_of_nodup_map (places_nodup text) hlexeme hother hplace

/-- The lexemes of a text can be split at a lexeme in one way only. -/
theorem tokenize_split_unique {before after first rest : List Lexeme}
    (hsplit : tokenize text = before ++ lexeme :: after)
    (hother : tokenize text = first ++ lexeme :: rest) : before = first ∧ after = rest := by
  have hnodup := (places_nodup text).of_map
  rw [hsplit, List.nodup_middle, List.nodup_cons, List.mem_append, not_or] at hnodup
  obtain ⟨hfirst, -, hrest⟩ := (List.append_cons_inj_of_notMem hnodup.1.1 hnodup.1.2).1
    (hsplit.symm.trans hother)
  exact ⟨hfirst, hrest⟩

/-- Of neighbours in a text, the second stands before a lexeme that it is not if the first does. -/
theorem neighbours_before {first rest before after : List Lexeme} {next : Lexeme}
    (hsplit : tokenize text = first ++ lexeme :: rest)
    (hpair : tokenize text = before ++ other :: next :: after) (hnext : next ≠ lexeme)
    (hmem : other ∈ first) : ∃ middle, first = before ++ other :: next :: middle := by
  obtain ⟨start, stop, rfl⟩ := List.append_of_mem hmem
  rw [List.append_assoc, List.cons_append] at hsplit
  obtain ⟨rfl, hrest⟩ := tokenize_split_unique hpair hsplit
  cases stop with
  | nil => exact absurd (List.cons.inj hrest).1 hnext
  | cons following middle =>
      obtain ⟨rfl, -⟩ := List.cons.inj hrest
      exact ⟨middle, rfl⟩

/-- Neighbours in a text stand on the same side of a lexeme that is not the second of them. -/
theorem neighbour_mem_iff {first rest before after : List Lexeme} {next : Lexeme}
    (hsplit : tokenize text = first ++ lexeme :: rest)
    (hpair : tokenize text = before ++ other :: next :: after) (hnext : next ≠ lexeme) :
    other ∈ first ↔ next ∈ first := by
  constructor
  · intro hmem
    obtain ⟨middle, rfl⟩ := neighbours_before hsplit hpair hnext hmem
    simp
  · intro hmem
    obtain ⟨start, stop, rfl⟩ := List.append_of_mem hmem
    rw [List.append_assoc, List.cons_append] at hsplit
    have hconcat : tokenize text = (before ++ [other]) ++ next :: after := by simp [hpair]
    obtain ⟨rfl, -⟩ := tokenize_split_unique hconcat hsplit
    simp

/-- A part of a text is known by its place. -/
theorem item_eq_of_place {first second : Item} (hfirst : first ∈ Lexeme.items (tokenize text))
    (hsecond : second ∈ Lexeme.items (tokenize text)) (hplace : first.pos = second.pos) :
    first = second :=
  List.inj_on_of_nodup_map (positions_nodup text) hfirst hsecond hplace

end

/-- Lists of parts that agree on what is wanted agree before and after a part that is wanted and
stands once. -/
theorem filter_split {wanted : Item → Bool} {item : Item} {first rest before after : List Item}
    (hsame : (first ++ item :: rest).filter wanted = (before ++ item :: after).filter wanted)
    (hwanted : wanted item = true) (hfirst : item ∉ first) (hrest : item ∉ rest) :
    first.filter wanted = before.filter wanted ∧ rest.filter wanted = after.filter wanted := by
  rw [List.filter_append, List.filter_append, List.filter_cons_of_pos hwanted,
    List.filter_cons_of_pos hwanted, List.append_cons_inj_of_notMem
      (fun hmem => hfirst (List.mem_of_mem_filter hmem))
      (fun hmem => hrest (List.mem_of_mem_filter hmem))] at hsame
  exact ⟨hsame.1, hsame.2.2⟩

/-- A key of a line and its equals sign stand side by side in the text. -/
theorem Excerpt.key_in_text {text : Text} {number : Nat} {line : Text} {lexemes : List Lexeme}
    (h : Excerpt text number line lexemes) {first rest : List Lexeme} {key sign : Lexeme}
    (hsplit : lexemes = first ++ key :: sign :: rest) (hsign : sign.token = some .equals) :
    ∃ before after, tokenize text = before ++ key :: sign :: after := by
  have hspaced := h.legible.spaced
  rw [hsplit] at hspaced
  have hkey := (adjoins_next hspaced).key_of_equals hsign
  obtain ⟨before, own, after, hcut, hown, -⟩ := h.cut
  rw [hown, List.map_eq_append_iff] at hsplit
  obtain ⟨start, others, rfl, -, hothers⟩ := hsplit
  obtain ⟨first, others, rfl, rfl, hrest⟩ := List.map_eq_cons_iff.1 hothers
  obtain ⟨second, others, rfl, rfl, -⟩ := List.map_eq_cons_iff.1 hrest
  have hpair : tokenize text = (before ++ start) ++ first :: second :: (others ++ after) := by
    simp [hcut]
  -- Neither is a comment, so no carriage return was taken off.
  have hfirst : first.token = some .ident ∨ first.token = some .string := hkey
  have hsecond : second.token = some .equals := hsign
  rw [strip_return_of_token (show first ∈ tokenize text by simp [hpair])
      (by rcases hfirst with htoken | htoken <;> simp [htoken])
      (by rcases hfirst with htoken | htoken <;> simp [htoken]),
    strip_return_of_token (show second ∈ tokenize text by simp [hpair]) (by simp [hsecond])
      (by simp [hsecond])]
  exact ⟨_, _, hpair⟩

/-- `Drawing text tree number line lexemes strokes` says that strokes paint the tree of a text on
one of its lines, which has the given lexemes. -/
structure Drawing (text : Text) (tree : Body) (number : Nat) (line : Text) (lexemes : List Lexeme)
    (strokes : List Stroke) : Prop where
  matched : ∀ lexeme ∈ tokenize text, lexeme.token ≠ none
  spaced : Spaced (tokenize text)
  excerpt : Excerpt text number line lexemes
  reorders : Reorders tree.items (Lexeme.items (tokenize text))
  draws : Draws (Canvas.ofText number line) strokes tree.items tree.containers
    ((Canvas.ofText number line).paintBody tree none)

/-- Each line of a document that was read is painted by strokes. -/
theorem exists_drawing {text line : Text} {tree : Body} {n : Nat}
    (hmatched : ∀ lexeme ∈ tokenize text, lexeme.token ≠ none)
    (hread : readDocument text = .ok tree) (hline : text.lines[n]? = some line) :
    ∃ lexemes strokes, Drawing text tree (n + 1) line lexemes strokes := by
  have hreads : Reader.Reads (endPosition text) tree Reader.State.initial (tokenize text) :=
    Reader.reads_of_read rfl hmatched hread
  have hspaced := Reader.spaced_of_reads hreads
  obtain ⟨lexemes, hexcerpt⟩ := excerpt_of_spaced hspaced hmatched hline
  obtain ⟨strokes, hdraws⟩ := exists_draws_body (Canvas.ofText (n + 1) line) tree
    (Reader.reads_initial_closed hreads)
  exact ⟨lexemes, strokes, hmatched, hspaced, hexcerpt, Reader.reads_reorders hreads, hdraws⟩

/-- Whether a lexeme is a part of the code: it is neither a comment nor a separator nor an equals
sign. -/
def Lexeme.isCode (lexeme : Lexeme) : Bool :=
  (lexeme.item? false).any Item.isCode

/-- What a lexeme of the code is as a part. -/
theorem item_of_is_code {lexeme : Lexeme} (h : lexeme.isCode = true) (isKey : Bool) :
    ∃ item, lexeme.item? isKey = some item ∧ item.isCode = true := by
  unfold Lexeme.isCode at h
  cases isKey with
  | false => simpa [Option.any_eq_true] using h
  | true =>
      by_cases hstring : lexeme.token = some .string
      · simp [Lexeme.item?, hstring, Item.isCode]
      · have hsame : lexeme.item? true = lexeme.item? false := by
          unfold Lexeme.item?
          split <;> first | rfl | contradiction
        simpa [hsame, Option.any_eq_true] using h

/-- Whether a lexeme of a document is painted on a line before what stands after the given lexemes.
The comment is painted first and the commas at the end of a container. -/
def Lexeme.PaintedBefore (tree : Body) (number : Nat) (first : List Lexeme) (lexeme : Lexeme) :
    Prop :=
  match lexeme.token with
  | some .comment => True
  | some .comma => ∃ container ∈ tree.containers, container.separates number = true ∧
      ∃ closing ∈ first, container.close = some closing.pos.toSource
  | _ => lexeme ∈ first

namespace Drawing

variable {text : Text} {tree : Body} {number : Nat} {line : Text} {lexemes : List Lexeme}
  {strokes : List Stroke} (h : Drawing text tree number line lexemes strokes)

include h

/-- The strokes are for the parts of the text. -/
theorem mem_items_iff {item : Item} :
    item ∈ strokes.filterMap Stroke.item? ↔ item ∈ Lexeme.items (tokenize text) := by
  rw [h.draws.items_eq, h.reorders.perm.mem_iff]

/-- The strokes are for parts at different places, which stand on the line as its lexemes do. -/
theorem stands : (∀ item ∈ strokes.filterMap Stroke.item?, Stands number lexemes item) ∧
    ((strokes.filterMap Stroke.item?).map Item.pos).Nodup := by
  rw [h.draws.items_eq]
  exact h.excerpt.tree_stands h.spaced h.matched h.reorders.perm

/-- A key of the text that is on the line stands before an equals sign, in the text as on the
line. -/
theorem exists_key_pair {name : Text} {pos : SourcePos}
    (hitem : ⟨.key name, pos⟩ ∈ Lexeme.items (tokenize text)) (hnumber : pos.line = number) :
    ∃ key sign, key.pos.toSource = pos ∧ sign.token = some .equals ∧
      (∃ before after, lexemes = before ++ key :: sign :: after) ∧
      ∃ before after, tokenize text = before ++ key :: sign :: after := by
  have hlegible := h.excerpt.legible
  obtain ⟨key, hkey, hpart⟩ := h.excerpt.stands h.spaced h.matched hitem hnumber
  obtain ⟨hpos, hcases⟩ := item_cases hpart
  have hfollowed : key.isKeyIn lexemes = true := by
    rcases hcases with ⟨hident, -⟩ | ⟨-, hfollowed, -⟩
    · exact hlegible.is_key_of_ident hkey hident
    · exact hfollowed
  obtain ⟨before, sign, after, hsplit, hsign⟩ := hlegible.equals_of_is_key hkey hfollowed
  exact ⟨key, sign, hpos.symm, hsign, ⟨before, after, hsplit⟩,
    h.excerpt.key_in_text hsplit hsign⟩

section

variable {first rest : List Lexeme} {key equals : Lexeme}
  (htext : tokenize text = first ++ key :: equals :: rest) (hstring : key.token = some .string)
  (hequals : equals.token = some .equals)

include htext hstring hequals

omit h in
/-- The parts of the text are those before a key in quotes, the key, and those after it. -/
theorem items_split :
    Lexeme.items (tokenize text) = Lexeme.items first ++
      ⟨.key (Quoted.unquote key.text), key.pos.toSource⟩ :: Lexeme.items rest := by
  have hstart : startsWithEquals (key :: equals :: rest) = false := by
    simp [startsWithEquals, hstring]
  rw [htext, items_append hstart, Lexeme.items, Lexeme.items]
  simp [Lexeme.item?, hstring, startsWithEquals, hequals]

omit h in
/-- A string before an equals sign is a key of the text. -/
theorem key_mem :
    ⟨.key (Quoted.unquote key.text), key.pos.toSource⟩ ∈ Lexeme.items (tokenize text) := by
  simp [items_split htext hstring hequals]

/-- A key in quotes has a stroke. -/
theorem exists_stroke : ∃ done later, strokes = done ++ key.keyStroke :: later := by
  have hmem := h.mem_items_iff.2 (key_mem htext hstring hequals)
  obtain ⟨stroke, hstroke, hitem⟩ := List.mem_filterMap.1 hmem
  cases stroke with
  | part item =>
      obtain rfl := Option.some.inj hitem
      exact List.append_of_mem hstroke
  | commas container => cases hitem

variable {done later : List Stroke} (hstrokes : strokes = done ++ key.keyStroke :: later)

include hstrokes

omit htext hstring hequals in
/-- What is drawn before a key is drawn neither with it nor after it. -/
theorem not_placed_later {pos : SourcePos}
    (hdone : pos ∈ (done.filterMap Stroke.item?).map Item.pos) :
    pos ∉ ((key.keyStroke :: later).filterMap Stroke.item?).map Item.pos := by
  intro hlater
  have hnodup := h.stands.2
  rw [hstrokes, List.filterMap_append, List.map_append] at hnodup
  exact (List.nodup_append.1 hnodup).2.2 pos hdone pos hlater rfl

/-- The strokes before and after that of a key are for the parts before and after the key, in their
order but for comments. -/
theorem order :
    (done.filterMap Stroke.item?).filter Item.isCode = (Lexeme.items first).filter Item.isCode ∧
    (later.filterMap Stroke.item?).filter Item.isCode =
      (Lexeme.items rest).filter Item.isCode := by
  have hsame := h.reorders.code
  have hitems : strokes.filterMap Stroke.item? = done.filterMap Stroke.item? ++
      ⟨.key (Quoted.unquote key.text), key.pos.toSource⟩ :: later.filterMap Stroke.item? := by
    rw [hstrokes, List.filterMap_append]
    rfl
  -- A part stands once, since no two stand at one place.
  have hnodup := h.stands.2.of_map
  rw [hitems, List.nodup_middle, List.nodup_cons, List.mem_append, not_or] at hnodup
  rw [← h.draws.items_eq, hitems, items_split htext hstring hequals] at hsame
  exact filter_split hsame rfl hnodup.1.1 hnodup.1.2

/-- A lexeme that is a part of the code is drawn before a key just if it stands before the key. -/
theorem placed_iff {lexeme : Lexeme} {item : Item} (hlexeme : lexeme ∈ tokenize text)
    (hitem : item ∈ Lexeme.items (tokenize text)) (hplace : item.pos = lexeme.pos.toSource)
    (hcode : item.isCode = true) :
    lexeme.pos.toSource ∈ (done.filterMap Stroke.item?).map Item.pos ↔ lexeme ∈ first := by
  obtain ⟨hdone, -⟩ := h.order htext hstring hequals hstrokes
  have hsplit : item ∈ (done.filterMap Stroke.item?).filter Item.isCode ↔
      item ∈ (Lexeme.items first).filter Item.isCode := by rw [hdone]
  simp only [List.mem_filter, hcode, and_true] at hsplit
  constructor
  · intro hmem
    obtain ⟨drawn, hdrawn, hpos⟩ := List.mem_map.1 hmem
    have hsame : drawn = item := by
      refine item_eq_of_place (h.mem_items_iff.1 ?_) hitem (hpos.trans hplace.symm)
      simp [hstrokes, hdrawn]
    obtain ⟨found, hfound, hat, -⟩ := exists_of_mem_items (hsplit.1 (hsame ▸ hdrawn))
    have hown : found = lexeme :=
      eq_of_place (by simp [htext, hfound]) hlexeme (hat.symm.trans hplace)
    exact hown ▸ hfound
  · intro hmem
    have hstart : startsWithEquals (key :: equals :: rest) = false := by
      simp [startsWithEquals, hstring]
    have hboth := hitem
    rw [htext, items_append hstart, List.mem_append] at hboth
    rw [← hplace]
    rcases hboth with hbefore | hafter
    · exact List.mem_map_of_mem (hsplit.2 hbefore)
    · -- The lexeme would stand before the key and after it.
      obtain ⟨found, hfound, hat, -⟩ := exists_of_mem_items hafter
      have hown : found = lexeme := by
        refine eq_of_place ?_ hlexeme (hat.symm.trans hplace)
        rw [htext]
        exact List.mem_append_right _ hfound
      have hnodup := (places_nodup text).of_map
      rw [htext] at hnodup
      exact absurd rfl ((List.nodup_append.1 hnodup).2.2 lexeme hmem lexeme (hown ▸ hfound))

/-- The commas are drawn before a key if a container that ends before the key has them. -/
theorem commas_drawn_iff :
    done.any (Stroke.separates number) = true ↔
      ∃ container ∈ tree.containers, container.separates number = true ∧
        ∃ closing ∈ first, container.close = some closing.pos.toSource := by
  obtain ⟨hdone, -⟩ := h.order htext hstring hequals hstrokes
  rw [List.any_eq_true]
  constructor
  · rintro ⟨stroke, hstroke, hseparates⟩
    cases stroke with
    | part item => cases hseparates
    | commas container =>
        obtain ⟨before, after, rfl⟩ := List.append_of_mem hstroke
        obtain ⟨closing, hfind, hcloses, hclose⟩ := h.draws.closing before container
          (after ++ key.keyStroke :: later) (by simp [hstrokes])
        -- The key is no closing delimiter, so the container ends before it.
        have hmem : closing ∈ after.filterMap Stroke.item? := by
          rw [List.filterMap_append, List.find?_append, Option.or_eq_some_iff] at hfind
          rcases hfind with hfind | ⟨-, hfind⟩
          · exact List.mem_of_find?_eq_some hfind
          · have hkey : (⟨.key (Quoted.unquote key.text), key.pos.toSource⟩ : Item) = closing := by
              simpa [Lexeme.keyStroke, Stroke.item?, Item.isCode] using hfind
            rcases hcloses with hpart | hpart <;> simp [← hkey] at hpart
        have hbefore : closing ∈ (Lexeme.items first).filter Item.isCode := by
          rw [← hdone]
          exact List.mem_filter.2 ⟨List.filterMap_subset _ (by simp) hmem, hcloses.is_code⟩
        obtain ⟨lexeme, hlexeme, hpos, -⟩ := exists_of_mem_items (List.mem_of_mem_filter hbefore)
        refine ⟨container, (h.draws.commas_iff container).1 (by simp [hstrokes]), hseparates,
          lexeme, hlexeme, hpos ▸ hclose⟩
  · rintro ⟨container, hcontainer, hseparates, lexeme, hlexeme, hclose⟩
    have hmem := (h.draws.commas_iff container).2 hcontainer
    rw [hstrokes, List.mem_append, List.mem_cons] at hmem
    rcases hmem with hmem | hmem | hmem
    · exact ⟨.commas container, hmem, hseparates⟩
    · cases hmem
    · -- The delimiter that closes the container would stand before the key and after it.
      obtain ⟨before, after, rfl⟩ := List.append_of_mem hmem
      obtain ⟨closing, hfind, hcloses, hsame⟩ := h.draws.closing
        (done ++ key.keyStroke :: before) container after (by simp [hstrokes])
      have hclosing : closing ∈ after.filterMap Stroke.item? := List.mem_of_find?_eq_some hfind
      have hpos : closing.pos = lexeme.pos.toSource := Option.some.inj (hsame.symm.trans hclose)
      have hitem : closing ∈ strokes.filterMap Stroke.item? :=
        List.filterMap_subset _ (fun stroke hstroke => by simp [hstrokes, hstroke]) hclosing
      have hdrawn := (h.placed_iff htext hstring hequals hstrokes (by simp [htext, hlexeme])
        (h.mem_items_iff.1 hitem) hpos hcloses.is_code).2 hlexeme
      refine absurd ?_ (h.not_placed_later hstrokes hdrawn)
      rw [← hpos]
      exact List.mem_map_of_mem
        (List.filterMap_subset _ (fun stroke hstroke => by simp [hstroke]) hclosing)

/-- A lexeme of the code is drawn before a key just if it stands before the key. -/
theorem placed_iff_of_code {lexeme : Lexeme} (hlexeme : lexeme ∈ tokenize text)
    (hcode : lexeme.isCode = true) :
    lexeme.pos.toSource ∈ (done.filterMap Stroke.item?).map Item.pos ↔ lexeme ∈ first := by
  obtain ⟨before, after, hsplit⟩ := List.append_of_mem hlexeme
  obtain ⟨item, hitem, hpart⟩ := item_of_is_code hcode (startsWithEquals after)
  exact h.placed_iff htext hstring hequals hstrokes hlexeme
    (Lexeme.mem_items_iff.2 ⟨before, lexeme, after, hsplit, hitem⟩) (item_cases hitem).1 hpart

/-- An equals sign is drawn before a key just if it stands before the key. -/
theorem equals_drawn_iff {sign : Lexeme} (hsign : sign ∈ lexemes)
    (htoken : sign.token = some .equals) :
    DrawnBy number lexemes done sign ↔ sign ∈ first := by
  have hlegible := h.excerpt.legible
  obtain ⟨before, after, hsplit⟩ := List.append_of_mem hsign
  obtain ⟨start, owner, rfl, howner⟩ := key_of_equals (hsplit ▸ hlegible.spaced) htoken
  have hpair : lexemes = start ++ owner :: sign :: after := by simp [hsplit]
  -- The key of the sign stands right before it, in the text as on the line.
  obtain ⟨others, behind, hother⟩ := h.excerpt.key_in_text hpair htoken
  have hcode : owner.isCode = true := by
    rcases howner with hword | hword <;> simp [Lexeme.isCode, Lexeme.item?, hword, Item.isCode]
  have hplaced := h.placed_iff_of_code htext hstring hequals hstrokes
    (show owner ∈ tokenize text by simp [hother]) hcode
  have hne : sign ≠ key := by
    rintro rfl
    simp [htoken] at hstring
  rw [← neighbour_mem_iff htext hother hne, ← hplaced]
  constructor
  · rintro (hcomment | ⟨hcomma, -⟩ | ⟨pos, hpos, ⟨hne, -⟩ | ⟨-, first, found, rest, hfound, rfl⟩⟩)
    · simp [htoken] at hcomment
    · simp [htoken] at hcomma
    · exact absurd htoken hne
    · have hconcat : lexemes = (first ++ [found]) ++ sign :: rest := by simp [hfound]
      obtain ⟨hends, -⟩ := hlegible.split_unique hsplit hconcat
      obtain ⟨-, hlast⟩ := List.append_inj' hends rfl
      obtain rfl : owner = found := by simpa using hlast
      exact hpos
  · intro hpos
    exact .inr (.inr ⟨_, hpos, .inr ⟨htoken, start, owner, after, hpair, rfl⟩⟩)

/-- What is drawn on the line before a key is what is painted before it. -/
theorem drawn_iff {lexeme : Lexeme} (hlexeme : lexeme ∈ tokenize text)
    (hmem : stripReturn lexeme ∈ lexemes) :
    DrawnBy number lexemes done (stripReturn lexeme) ↔
      lexeme.PaintedBefore tree number first := by
  have hlegible := h.excerpt.legible
  obtain ⟨token, htoken⟩ := Option.ne_none_iff_exists'.1 (h.matched lexeme hlexeme)
  have hstripped : (stripReturn lexeme).token = some token := htoken
  unfold Lexeme.PaintedBefore
  cases token with
  | comment => simp [htoken, DrawnBy, ShownBy, hstripped]
  | comma =>
      have hstands : ∀ item ∈ done.filterMap Stroke.item?, Stands number lexemes item := by
        intro item hitem
        exact h.stands.1 item (List.filterMap_subset _ (by simp [hstrokes]) hitem)
      simp only [htoken]
      rw [DrawnBy, hlegible.comma_shown_iff hstands hmem hstripped,
        h.commas_drawn_iff htext hstring hequals hstrokes]
  | equals =>
      rw [strip_return_of_token hlexeme (by simp [htoken]) (by simp [htoken])] at hmem ⊢
      simp only [htoken]
      exact h.equals_drawn_iff htext hstring hequals hstrokes hmem htoken
  | newline => exact absurd hstripped (hlegible.token_ne_newline hmem)
  | _ =>
      have hcode : lexeme.isCode = true := by
        simp [Lexeme.isCode, Lexeme.item?, htoken, Item.isCode]
      simp only [htoken]
      rw [← h.placed_iff_of_code htext hstring hequals hstrokes hlexeme hcode]
      exact shown_iff_place (by simp [hstripped]) (by simp [hstripped]) (by simp [hstripped])

/-- What is claimed on the line before the stroke for a key are the bytes of what is painted before
it. -/
theorem claimed_iff {buffer : Buffer} {offset : Nat}
    (hpainted : Painted line lexemes (DrawnBy number lexemes done) buffer)
    (hoffset : offset < line.byteLength) :
    buffer.claimedAt offset ≠ none ↔ ∃ lexeme ∈ tokenize text,
      lexeme.PaintedBefore tree number first ∧ lexeme.covers number line offset = true := by
  have hdrawn := fun (lexeme : Lexeme) (hlexeme : lexeme ∈ tokenize text) =>
    h.drawn_iff htext hstring hequals hstrokes hlexeme
  have hcovers := fun (lexeme : Lexeme) (hlexeme : lexeme ∈ tokenize text) =>
    h.excerpt.covers_iff h.matched hoffset hlexeme
  rw [Option.ne_none_iff_exists']
  constructor
  · intro hclaimed
    obtain ⟨category, hclaimed⟩ := hclaimed
    obtain ⟨lexeme, hlexeme, hshown, hcontains, -⟩ := (hpainted.claimed offset category).1 hclaimed
    obtain ⟨other, hother, rfl⟩ := h.excerpt.original lexeme hlexeme
    exact ⟨other, hother, (hdrawn other hother hlexeme).1 hshown,
      (hcovers other hother).2 ⟨hlexeme, hcontains⟩⟩
  · intro hpaintedBefore
    obtain ⟨lexeme, hlexeme, hbefore, hcovered⟩ := hpaintedBefore
    obtain ⟨hmem, hcontains⟩ := (hcovers lexeme hlexeme).1 hcovered
    obtain ⟨category, hshade⟩ := h.excerpt.legible.shade_of_mem hmem
    exact ⟨category, (hpainted.claimed offset category).2
      ⟨_, hmem, (hdrawn lexeme hlexeme hmem).2 hbefore, hcontains, hshade⟩⟩

end

end Drawing

end Highlighter
