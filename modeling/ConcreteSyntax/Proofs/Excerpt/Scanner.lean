import ConcreteSyntax.Proofs.Node.Shift
import ConcreteSyntax.Proofs.Token.Break
import ConcreteSyntax.Proofs.Token.Spelling

/-! # Scanning a part of a text

An excerpt is a text inside a longer one (`Excerpt`). A scanner of the text and one of the whole
stand at the same token if they are at the same place and what they have read is alike
(`Scanner.Placed`). They go on alike, whatever is scanned next, unless the text ends there or its
token has a fault: behind the text stands a line break, which ends every token that has no fault
(`Scanner.scan_placed`). Where the text ends, the scanner of the whole reads what stands behind it as
a scanner of that text alone does, the comments at the end of the text before the others
(`Scanner.scan_across`). -/

namespace ConcreteSyntax

open Text (Place byteLength)

/-! ### Excerpts -/

/-- A text inside a longer one, and what was reported before it. A line break stands behind it if
anything does, and if anything stands before it, it does not begin with the line that names an
interpreter. -/
structure Excerpt where
  text : List Char
  front : List Char := []
  tail : List Char := []
  reported : List Diagnostic := []
  broken : tail = [] ∨ ∃ more, tail = '\n' :: more
  plain : front = [] ∨ Scanner.shebang? { offset := 0, rest := text } = none

namespace Excerpt

/-- The longer text. -/
def whole (E : Excerpt) : List Char := E.front ++ (E.text ++ E.tail)

/-- The number of bytes before the text. -/
def shift (E : Excerpt) : Nat := byteLength E.front

/-- A place of the text as a place of the whole. -/
def move (E : Excerpt) (c : Cursor) : Cursor :=
  { offset := c.offset + E.shift, cut := c.cut, rest := c.rest ++ E.tail }

variable {E : Excerpt}

theorem move_in {c : Cursor} (h : c.In E.text) : (E.move c).In E.whole := by
  obtain ⟨hcut, before, htext, hbefore⟩ := h
  refine ⟨hcut, E.front ++ before, ?_, ?_⟩
  · simp [whole, move, htext]
  · simp only [Text.byteLength_append, hbefore, move, shift]
    omega

/-- A property of the text that is left does not see what stands behind the text. -/
theorem read_tail {α : Type} (f : List Char → α) (cs : List Char)
    (hbreak : ∀ more, f (cs ++ '\n' :: more) = f cs) : f (cs ++ E.tail) = f cs := by
  rcases E.broken with h | ⟨more, h⟩
  · rw [h, List.append_nil]
  · rw [h, hbreak]

theorem move_advance {c : Cursor} {n : Nat} (h : n ≤ c.rest.length) :
    (E.move c).advance n = E.move (c.advance n) := by
  simp only [Cursor.advance, move, List.take_append_of_le_length h, List.drop_append_of_le_length h]
  congr 1
  omega

end Excerpt

/-! ### Tokens of another place -/

namespace Lexeme

theorem placePieces_append {offset : Nat} {cs tail : List Char} {pieces : List (Kind × Nat)}
    (h : piecesLength pieces ≤ cs.length) :
    placePieces offset (cs ++ tail) pieces = placePieces offset cs pieces := by
  induction pieces generalizing offset cs with
  | nil => rfl
  | cons p pieces ih =>
    obtain ⟨kind, n⟩ := p
    rw [piecesLength_cons] at h
    have hn : n ≤ cs.length := by omega
    simp only [placePieces, List.take_append_of_le_length hn, List.drop_append_of_le_length hn]
    rw [ih (by rw [List.length_drop]; omega)]

/-- What stands behind a lexeme does not matter to its token. -/
theorem Fits.place_append {l : Lexeme} {cs : List Char} (h : l.Fits cs) (offset : Nat)
    (tail : List Char) : l.place offset (cs ++ tail) = l.place offset cs := by
  have hpieces : piecesLength l.pieces ≤ cs.length := by
    have := h.le
    rcases h.filled with he | he
    · rw [he]
      exact Nat.zero_le _
    · omega
  unfold place
  simp only [List.take_append_of_le_length h.le, placePieces_append hpieces]

theorem placePieces_shift (k offset : Nat) (cs : List Char) (pieces : List (Kind × Nat)) :
    placePieces (offset + k) cs pieces = (placePieces offset cs pieces).map (Piece.shift k) := by
  induction pieces generalizing offset cs with
  | nil => rfl
  | cons p pieces ih =>
    obtain ⟨kind, n⟩ := p
    rw [placePieces, placePieces, List.map_cons, Nat.add_right_comm, ih]
    rfl

theorem place_shift (l : Lexeme) (k offset : Nat) (cs : List Char) :
    l.place (offset + k) cs = (l.place offset cs).shift k := by
  have hrange : (⟨offset + k, offset + k + byteLength (cs.take l.length)⟩ : Range) =
      Range.shift k ⟨offset, offset + byteLength (cs.take l.length)⟩ := by
    rw [Nat.add_right_comm]
    rfl
  have hfault (p : Piece) : pieceFault? (p.shift k) = (pieceFault? p).map (Fault.shift k) := by
    unfold pieceFault? Piece.shift
    by_cases hp : p.kind = .errorSentinel
    · simp only [hp, if_true, Option.map_some, Fault.shift]
    · simp only [hp, if_false, Option.map_none]
  unfold place Token.shift
  simp only [hrange, placePieces_shift, List.map_append, List.filterMap_map, List.map_filterMap]
  congr 2
  · cases l.fault <;> rfl
  · congr 1
    funext p
    exact hfault p

end Lexeme

/-! ### White space and comments -/

namespace Trivia

open Lexeme (contextual?)

/-- White space and comments that end before the text does are the same before a line break; if they
reach to its end, they go on behind it. -/
theorem skip_break (admitted : Admitted) (offset : Nat) (lineBreak : Bool)
    (comments : Array Token) (cs more : List Char) :
    ∀ t, t = skip contextual? admitted offset lineBreak comments cs → t.endless = none →
      skip contextual? admitted offset lineBreak comments (cs ++ '\n' :: more) =
        if t.cursor.rest = [] then
          skip contextual? admitted t.cursor.offset t.lineBreak t.comments ('\n' :: more)
        else { t with cursor := { t.cursor with rest := t.cursor.rest ++ '\n' :: more } } := by
  fun_induction skip contextual? admitted offset lineBreak comments cs with
  | case1 offset lineBreak comments =>
    rintro t rfl -
    rfl
  | case2 offset lineBreak comments c rest hw ih =>
    intro t ht hendless
    rw [List.cons_append, skip, if_pos hw]
    exact ih t ht hendless
  | case3 offset lineBreak comments c rest hw hslash hr =>
    intro t ht _
    subst ht
    have hnone : contextual? admitted.comments (c :: (rest ++ '\n' :: more)) = none := by
      rw [← List.cons_append, ← hr]
      refine Lexeme.contextual?_break (List.cons_ne_nil c rest) fun l hl => ?_
      cases hr.symm.trans hl
    rw [List.cons_append, skip, if_neg hw, if_pos hslash]
    simp [hr, hnone]
  | case4 offset lineBreak comments c rest hw hslash l hcomment hr token ih =>
    intro t ht hendless
    have hfit := Lexeme.contextual_fits hr
    have hsame : contextual? admitted.comments (c :: (rest ++ '\n' :: more)) = some l := by
      rw [← List.cons_append, ← hr]
      refine Lexeme.contextual?_break (List.cons_ne_nil c rest) fun l' hl' => ?_
      obtain rfl := Option.some.inj (hr.symm.trans hl')
      exact (hfit.faultless (Kind.mayBeFaulty_of_isComment hcomment)).1
    have hle := hfit.le
    have hpos := hfit.pos
    simp only [List.length_cons] at hle
    rw [List.cons_append, skip, if_neg hw, if_pos hslash]
    simp only [hr, hsame, hcomment, if_true] at ht ⊢
    rw [← List.cons_append, hfit.place_append,
      List.drop_append_of_le_length (show l.length - 1 ≤ rest.length by omega)]
    exact ih t ht hendless
  | case5 offset lineBreak comments c rest hw hslash l hcomment hr =>
    intro t ht hendless
    simp only [hr, hcomment] at ht
    rw [ht] at hendless
    cases hendless
  | case6 offset lineBreak comments c rest hw hslash =>
    intro t ht _
    subst ht
    rw [List.cons_append, skip, if_neg hw, if_neg hslash]
    simp

/-- White space and comments that stand some bytes later are skipped alike, whatever was found
before. -/
theorem skip_shift (k : Nat) (admitted : Admitted) (offset : Nat) (lineBreak : Bool)
    (comments : Array Token) (cs : List Char) : ∀ lineBreak' comments', ∃ more,
      let t := skip contextual? admitted offset lineBreak comments cs
      let t' := skip contextual? admitted (offset + k) lineBreak' comments' cs
      t.comments.toList = comments.toList ++ more ∧
        t'.comments.toList = comments'.toList ++ more.map (Token.shift k) ∧
        t'.cursor = { t.cursor with offset := t.cursor.offset + k } ∧ t'.endless = t.endless := by
  fun_induction skip contextual? admitted offset lineBreak comments cs with
  | case1 offset lineBreak comments =>
    intro lineBreak' comments'
    refine ⟨[], ?_⟩
    simp
  | case2 offset lineBreak comments c rest hw ih =>
    intro lineBreak' comments'
    rw [skip, if_pos hw, Nat.add_right_comm]
    exact ih _ _
  | case3 offset lineBreak comments c rest hw hslash hr =>
    intro lineBreak' comments'
    refine ⟨[], ?_⟩
    rw [skip, if_neg hw, if_pos hslash]
    simp [hr]
  | case4 offset lineBreak comments c rest hw hslash l hcomment hr token ih =>
    intro lineBreak' comments'
    obtain ⟨more, hmore, hmore', hrest⟩ := ih lineBreak' (comments'.push (token.shift k))
    refine ⟨token :: more, ?_⟩
    rw [skip, if_neg hw, if_pos hslash]
    simp only [hr, hcomment, if_true, Lexeme.place_shift]
    refine ⟨?_, ?_, hrest⟩
    · simpa using hmore
    · have hpush : (comments'.push (token.shift k)).toList ++ more.map (Token.shift k) =
          comments'.toList ++ (token :: more).map (Token.shift k) := by
        simp
      exact hmore'.trans hpush
  | case5 offset lineBreak comments c rest hw hslash l hcomment hr =>
    intro lineBreak' comments'
    refine ⟨[], ?_⟩
    rw [skip, if_neg hw, if_pos hslash]
    simp [hr, hcomment]
  | case6 offset lineBreak comments c rest hw hslash =>
    intro lineBreak' comments'
    refine ⟨[], ?_⟩
    rw [skip, if_neg hw, if_neg hslash]
    simp

/-- What is read where only comments are admitted is a comment or has a fault. -/
theorem fault_of_comments {admitted : Admitted} {cs : List Char} {l : Lexeme}
    (h : contextual? admitted.comments cs = some l) (hk : l.kind.isComment = false) :
    l.fault ≠ none := by
  have honly {admits : Bool} {l' : Lexeme} (h : Lexeme.onlyIf admits l' = some l) : l' = l := by
    cases admits with
    | false => cases h
    | true => exact Option.some.inj h
  revert h
  fun_cases contextual? admitted.comments cs
  case case1 suffix hsuffix => exact absurd hsuffix (by simp [suffix, Admitted.comments])
  case case2 cs suffix hsuffix =>
    intro hl
    obtain rfl := honly hl
    have hline : (Comment.line ('/' :: '/' :: cs)).kind = .lineComment := by
      unfold Comment.line
      split <;> rfl
    rw [hline] at hk
    cases hk
  case case3 rest suffix hsuffix =>
    intro hl
    obtain rfl := honly hl
    unfold Comment.block at hk ⊢
    split at hk
    · exact Option.some_ne_none _
    · split at hk <;> cases hk
  case case4 rest suffix hsuffix =>
    intro hl
    simp [QuoteMark.scan?, Admitted.comments] at hl
  all_goals
    intro hl
    simp [Lexeme.onlyIf, Admitted.comments] at *

/-- A comment that does not end has a fault. -/
theorem endless_fault {admitted : Admitted} {offset : Nat} {lineBreak : Bool}
    {comments : Array Token} {cs : List Char} {l : Lexeme}
    (h : (skip contextual? admitted offset lineBreak comments cs).endless = some l) :
    l.fault ≠ none := by
  fun_induction skip contextual? admitted offset lineBreak comments cs with
  | case1 => cases h
  | case2 offset lineBreak comments c rest hw ih => exact ih h
  | case3 offset lineBreak comments c rest hw hslash hr =>
    simp only [hr] at h
    cases h
  | case4 offset lineBreak comments c rest hw hslash l' hcomment hr token ih =>
    simp only [hr, hcomment, if_true] at h
    exact ih h
  | case5 offset lineBreak comments c rest hw hslash l' hcomment hr =>
    simp only [hr, hcomment] at h
    obtain rfl := Option.some.inj h
    exact fault_of_comments hr (by simpa using hcomment)
  | case6 => cases h

end Trivia

/-! ### Scanners at the same token -/

namespace Scanner

open Lexeme (contextual?)

/-- A scanner of the whole at the token at which a scanner of the text stands. -/
structure Placed (E : Excerpt) (s s' : Scanner) : Prop where
  start : s'.start = E.move s.start
  here : s'.here = E.move s.here
  token : s.token.Shifted E.shift s'.token
  leading : s'.leading = s.leading.map (Token.shift E.shift)

/-- A token of the text that is no part of a longer one of the whole: one without a fault, or any, if
nothing stands behind the text. -/
def Firm (E : Excerpt) (s : Scanner) : Prop :=
  E.tail = [] ∨ s.token.faults = [] ∧ s.kind ≠ .endOfFile

variable {E : Excerpt} {s s' : Scanner}

theorem Placed.kind (h : s.Placed E s') : s'.kind = s.kind := h.token.kind

theorem Placed.markLineBreak (h : s.Placed E s') (b b' : Bool) :
    (s.markLineBreak b).Placed E (s'.markLineBreak b') := by
  obtain ⟨hstart, hhere, ⟨hkind, hrange, hpieces, hfaults⟩, hleading⟩ := h
  unfold Scanner.markLineBreak
  split <;> split <;> exact ⟨hstart, hhere, ⟨hkind, hrange, hpieces, hfaults⟩, hleading⟩

theorem firm_markLineBreak {b : Bool} : (s.markLineBreak b).Firm E ↔ s.Firm E := by
  unfold Scanner.markLineBreak
  split <;> exact Iff.rfl

/-- A lexeme that fits into the text makes the same token there and in the whole. -/
theorem moveTo_placed {place : Cursor} {l : Lexeme} (hl : l.Fits place.rest)
    (hleading : s'.leading = s.leading.map (Token.shift E.shift)) :
    (s.moveTo place l).Placed E (s'.moveTo (E.move place) l) := by
  have htoken : (s'.moveTo (E.move place) l).token = (s.moveTo place l).token.shift E.shift := by
    show l.place (place.offset + E.shift) (place.rest ++ E.tail) = _
    rw [hl.place_append, Lexeme.place_shift]
    rfl
  refine ⟨rfl, E.move_advance hl.le, ?_, hleading⟩
  rw [htoken]
  exact ⟨rfl, rfl, rfl, rfl⟩

/-- With nothing behind the text, so does any lexeme. -/
theorem moveTo_placed_last (htail : E.tail = []) (place : Cursor) (l : Lexeme)
    (hleading : s'.leading = s.leading.map (Token.shift E.shift)) :
    (s.moveTo place l).Placed E (s'.moveTo (E.move place) l) := by
  have hmove (c : Cursor) : E.move c = { c with offset := c.offset + E.shift } := by
    simp [Excerpt.move, htail]
  have htoken : (s'.moveTo (E.move place) l).token = (s.moveTo place l).token.shift E.shift := by
    rw [hmove]
    exact Lexeme.place_shift l E.shift place.offset place.rest
  refine ⟨rfl, ?_, ?_, hleading⟩
  · show (E.move place).advance l.length = E.move (place.advance l.length)
    rw [hmove, hmove]
    simp only [Cursor.advance]
    congr 1
    omega
  · rw [htoken]
    exact ⟨rfl, rfl, rfl, rfl⟩

theorem readToken_eq_moveTo {recognize : Recognizer} {admitted : Admitted} {place : Cursor}
    (h : place.cut = 0) : readToken recognize admitted s place =
      s.moveTo place (Lexeme.next recognize admitted place.rest) :=
  if_neg (not_not.2 h)

/-- A firm token is the same in the text and in the whole. -/
theorem readToken_placed {admitted : Admitted} {place : Cursor} (ha : admitted.ReadsLiterals)
    (hplace : place.In E.text) (hleading : s'.leading = s.leading.map (Token.shift E.shift))
    (hfirm : (readToken contextual? admitted s place).Firm E) :
    (readToken contextual? admitted s place).Placed E
      (readToken contextual? admitted s' (E.move place)) := by
  rw [readToken_eq_moveTo hplace.1] at hfirm ⊢
  rw [readToken_eq_moveTo (show (E.move place).cut = 0 from hplace.1)]
  by_cases hrest : place.rest = []
  · -- only where nothing stands behind the text its end is firm
    have htail : E.tail = [] := by
      rcases hfirm with htail | ⟨-, hkind⟩
      · exact htail
      · rw [hrest] at hkind
        exact absurd rfl hkind
    have hmove : (E.move place).rest = place.rest := by simp [Excerpt.move, htail]
    rw [hmove]
    exact moveTo_placed_last htail place _ hleading
  · have hsame : Lexeme.next contextual? admitted (E.move place).rest =
        Lexeme.next contextual? admitted place.rest := by
      rcases hfirm with htail | ⟨hfaults, -⟩
      · simp [Excerpt.move, htail]
      · refine E.read_tail _ _ fun more => Lexeme.next_break hrest ?_
        have hnone := (List.append_eq_nil_iff.1 hfaults).1
        simpa using hnone
    rw [hsame]
    exact moveTo_placed (Lexeme.next_fits ha hrest) hleading

/-! ### Going on -/

/-- White space and comments before a firm token are the same in the text and in the whole. -/
theorem skip_placed (admitted : Admitted) {place : Cursor} (hplace : place.In E.text) :
    let t := Trivia.skip contextual? admitted place.offset false #[] place.rest
    let t' := Trivia.skip contextual? admitted (E.move place).offset false #[] (E.move place).rest
    E.tail = [] ∨ t.endless = none ∧ t.cursor.rest ≠ [] →
      t'.cursor = E.move t.cursor ∧ t'.endless = t.endless ∧
        t'.comments.toList = t.comments.toList.map (Token.shift E.shift) := by
  intro t t' h
  have hcut : t.cursor.cut = 0 :=
    (Trivia.skip_sound contextual? Lexeme.contextual_fits admitted false #[] hplace.2).cursor.1
  -- the same text some bytes later
  obtain ⟨more, hmore, hmore', hcursor, hendless⟩ :=
    Trivia.skip_shift E.shift admitted place.offset false #[] place.rest false #[]
  simp only [List.nil_append] at hmore hmore'
  rcases E.broken with htail | ⟨behind, htail⟩
  · have ht' : t' = Trivia.skip contextual? admitted (place.offset + E.shift) false #[] place.rest := by
      simp [t', Excerpt.move, htail]
    rw [ht']
    refine ⟨hcursor.trans ?_, hendless, hmore'.trans (congrArg _ hmore.symm)⟩
    simp [Excerpt.move, htail, t]
  · obtain ⟨hnone, hrest⟩ : t.endless = none ∧ t.cursor.rest ≠ [] := by
      refine h.resolve_left ?_
      rw [htail]
      exact nofun
    have hbreak := Trivia.skip_break admitted (place.offset + E.shift) false #[] place.rest behind _
      rfl (hendless.trans hnone)
    rw [hcursor, if_neg hrest] at hbreak
    have ht' : t' = _ := (congrArg _ (by rw [← htail]; rfl)).trans hbreak
    rw [ht']
    refine ⟨?_, hendless, hmore'.trans (congrArg _ hmore.symm)⟩
    simp [Excerpt.move, htail, t]

/-- The next token is a comment that does not end, or what stands behind the white space and the
comments. -/
theorem scanPastTrivia_eq {text : List Char} {a : Admitted} {s : Scanner} {t : Trivia}
    (hhere : s.here.In text)
    (ht : Trivia.skip contextual? a s.here.offset false #[] s.here.rest = t) :
    s.scanPastTrivia contextual? a =
      (({ s with leading := t.comments.toList } : Scanner).moveTo t.cursor
        (t.endless.getD (Lexeme.next contextual? a.withoutSuffix t.cursor.rest))).markLineBreak
        (t.endless.isNone && t.lineBreak) := by
  have hcut : t.cursor.cut = 0 := by
    rw [← ht]
    exact (Trivia.skip_sound contextual? Lexeme.contextual_fits a false #[] hhere.2).cursor.1
  unfold scanPastTrivia
  rw [if_neg (not_not.2 hhere.1), ht]
  cases hendless : t.endless with
  | some l =>
    simp only [hendless]
    rfl
  | none => simp [hendless, readToken_eq_moveTo hcut]

theorem scanPastTrivia_placed {admitted : Admitted} (ha : admitted.ReadsLiterals)
    (hhere : s.here.In E.text) (hmove : s'.here = E.move s.here)
    (hfirm : (s.scanPastTrivia contextual? admitted).Firm E) :
    (s.scanPastTrivia contextual? admitted).Placed E (s'.scanPastTrivia contextual? admitted) := by
  have hhere' : s'.here.In E.whole := by
    rw [hmove]
    exact Excerpt.move_in hhere
  have hskip := skip_placed admitted hhere
  have hsound := Trivia.skip_sound contextual? Lexeme.contextual_fits admitted false #[] hhere.2
  rw [← hmove] at hskip
  generalize ht : Trivia.skip contextual? admitted s.here.offset false #[] s.here.rest = t at *
  generalize ht' : Trivia.skip contextual? admitted s'.here.offset false #[] s'.here.rest = t' at *
  rw [scanPastTrivia_eq hhere ht, firm_markLineBreak] at hfirm
  rw [scanPastTrivia_eq hhere ht, scanPastTrivia_eq hhere' ht']
  refine Placed.markLineBreak ?_ _ _
  cases hendless : t.endless with
  | some l =>
    rw [hendless] at hfirm
    have htail : E.tail = [] := by
      refine hfirm.resolve_right fun ⟨hfaults, _⟩ => ?_
      have hnone := (List.append_eq_nil_iff.1 hfaults).1
      rw [← ht] at hendless
      exact Trivia.endless_fault hendless (by simpa using hnone)
    obtain ⟨hcursor, hsame, hcomments⟩ := hskip (.inl htail)
    rw [hsame, hendless, hcursor]
    exact moveTo_placed (hsound.endless l hendless).1 hcomments
  | none =>
    rw [hendless, Option.getD_none, ← readToken_eq_moveTo hsound.cursor.1] at hfirm
    have hgoes : E.tail = [] ∨ t.endless = none ∧ t.cursor.rest ≠ [] := by
      refine hfirm.imp_right fun ⟨_, hkind⟩ => ⟨hendless, fun hrest => hkind ?_⟩
      rw [readToken_eq_moveTo hsound.cursor.1, hrest]
      rfl
    obtain ⟨hcursor, hsame, hcomments⟩ := hskip hgoes
    rw [hsame, hendless, Option.getD_none, Option.getD_none, hcursor,
      ← readToken_eq_moveTo hsound.cursor.1,
      ← readToken_eq_moveTo (show (E.move t.cursor).cut = 0 from hsound.cursor.1)]
    exact readToken_placed (by exact ha) hsound.cursor hcomments hfirm

theorem shebang_break (offset : Nat) (cs more : List Char) :
    shebang? { offset, rest := cs ++ '\n' :: more } = shebang? { offset, rest := cs } := by
  have hline : (cs ++ '\n' :: more).takeWhile (· != '\n') = cs.takeWhile (· != '\n') :=
    Text.takeWhile_break rfl cs
  unfold shebang?
  simp only [hline]
  split
  · rcases cs with _ | ⟨c, _ | ⟨d, _ | ⟨e, cs⟩⟩⟩
    · rfl
    · simp
    · by_cases hc : c = '#' <;> by_cases hd : d = '!' <;> simp [hc, hd]
    · by_cases hc : c = '#' <;> by_cases hd : d = '!' <;> by_cases he : e = '[' <;>
        simp [hc, hd, he]
  · rfl

/-- The line that names an interpreter is read only at the start of the whole. -/
theorem shebang_placed {c : Cursor} (hc : c.In E.text) : shebang? (E.move c) = shebang? c := by
  by_cases hshift : E.shift = 0
  · have htail := E.read_tail (fun cs => shebang? { offset := c.offset, rest := cs }) c.rest
      fun more => shebang_break _ _ more
    simpa [Excerpt.move, hshift, shebang?] using htail
  · have hlater {c : Cursor} (h : c.offset ≠ 0) : shebang? c = none := if_neg h
    rw [hlater (show c.offset + E.shift ≠ 0 by omega)]
    by_cases hoffset : c.offset = 0
    · -- at the start of the text stands the whole text
      have hplace := hc.2
      rw [hoffset] at hplace
      have hplain : shebang? { offset := 0, rest := E.text } = none := by
        refine E.plain.resolve_left fun hfront => hshift ?_
        simp [Excerpt.shift, hfront]
      rw [← hplace.rest_unique (Place.start _), ← hoffset] at hplain
      exact hplain.symm
    · exact (hlater hoffset).symm

theorem suffix_break (cs more : List Char) :
    contextual? .suffixOnly (cs ++ '\n' :: more) = contextual? .suffixOnly cs := by
  by_cases hne : cs = []
  · subst hne
    have hstart : Text.isIdentifierStart '\n' = false := by decide
    simp [contextual?, hstart, Text.identifierPrefix]
  · refine Lexeme.contextual?_break hne fun l hl => ?_
    revert hl
    fun_cases contextual? .suffixOnly cs
    case case1 suffix hsuffix =>
      intro hl
      obtain rfl := Option.some.inj hl
      rfl
    all_goals
      intro hl
      simp [Lexeme.onlyIf, Admitted.suffixOnly, QuoteMark.scan?] at *

/-- **Scanning on** from the same place leads to the same token, if it is firm. -/
theorem scan_placed {admitted : Admitted} (ha : admitted.ReadsLiterals) (hhere : s.here.In E.text)
    (hmove : s'.here = E.move s.here) (hfirm : (s.scan contextual? admitted).Firm E) :
    (s.scan contextual? admitted).Placed E (s'.scan contextual? admitted) := by
  have hcut : ¬ s'.here.cut ≠ 0 := by
    rw [hmove]
    exact not_not.2 hhere.1
  have hsuffix : contextual? .suffixOnly s'.here.rest = contextual? .suffixOnly s.here.rest := by
    rw [hmove]
    exact E.read_tail _ _ fun more => suffix_break _ more
  have hshebang : shebang? s'.here = shebang? s.here := by
    rw [hmove, shebang_placed hhere]
  unfold scan at hfirm ⊢
  simp only [not_not.2 hhere.1, hcut, if_false, hsuffix, hshebang] at hfirm ⊢
  split at hfirm
  · next l hl =>
    rw [hmove]
    refine moveTo_placed ?_ rfl
    rw [Option.orElse_eq_orElse, Option.orElse_eq_or, Option.or_eq_some_iff] at hl
    rcases hl with hs | ⟨-, hb⟩
    · split at hs
      · exact Lexeme.contextual_fits hs
      · exact nomatch hs
    · exact (shebang_fits hb).1
  · exact scanPastTrivia_placed ha (by exact hhere) (by exact hmove) hfirm

/-! ### Changing the current token -/

theorem Placed.resize {written rest : List Char} (h : s.Placed E s') (kind : Kind)
    (hcut : s.start.cut = 0) (hr : s.start.rest = written ++ rest) :
    (s.resize kind (byteLength written)).Placed E (s'.resize kind (byteLength written)) := by
  have hr' : s'.start.rest = written ++ (rest ++ E.tail) := by
    rw [h.start, ← List.append_assoc, ← hr]
    rfl
  have hcut' : s'.start.cut = 0 := by rw [h.start]; exact hcut
  have hoffset : s'.start.offset = s.start.offset + E.shift := by rw [h.start]; rfl
  refine ⟨h.start, ?_, ⟨rfl, ?_, rfl, rfl⟩, h.leading⟩
  · show s'.start.skip _ = E.move (s.start.skip _)
    rw [Cursor.skip_append written hcut' hr', Cursor.skip_append written hcut hr, hoffset]
    simp only [Excerpt.move]
    congr 1
    omega
  · show (⟨s'.start.offset, s'.start.offset + byteLength written⟩ : Range) =
      Range.shift E.shift ⟨s.start.offset, s.start.offset + byteLength written⟩
    rw [hoffset, Nat.add_right_comm]
    rfl

/-- The mark that a `>` makes with what touches it, if it makes one. -/
def joint? : List Char → Option (Kind × List Char)
  | '>' :: '=' :: _ => some (.shrEq, ['>', '>', '='])
  | '>' :: _ => some (.shr, ['>', '>'])
  | '=' :: _ => some (.gtEq, ['>', '='])
  | _ => none

theorem joint?_spelled {cs written : List Char} {kind : Kind} (h : joint? cs = some (kind, written)) :
    ∃ rest, '>' :: cs = written ++ rest := by
  unfold joint? at h
  split at h
  · obtain ⟨-, rfl⟩ := Prod.mk.inj (Option.some.inj h)
    exact ⟨_, rfl⟩
  · obtain ⟨-, rfl⟩ := Prod.mk.inj (Option.some.inj h)
    exact ⟨_, rfl⟩
  · obtain ⟨-, rfl⟩ := Prod.mk.inj (Option.some.inj h)
    exact ⟨_, rfl⟩
  · exact nomatch h

theorem joint?_break (cs more : List Char) : joint? (cs ++ '\n' :: more) = joint? cs := by
  rcases cs with _ | ⟨c, _ | ⟨d, cs⟩⟩
  · simp [joint?]
  · by_cases hgt : c = '>' <;> by_cases heq : c = '=' <;> simp [joint?, hgt, heq]
  · by_cases hgt : c = '>' <;> by_cases heq : c = '=' <;> by_cases heq' : d = '=' <;>
      simp [joint?, hgt, heq, heq']

/-- Joining a `>` with what touches it. -/
theorem joinGreater_eq {cs : List Char} (hk : s.kind = .gt) (hcut : s.start.cut = 0)
    (hr : s.start.rest = '>' :: cs) : s.joinGreater =
      match joint? cs with
      | some (kind, written) => s.resize kind (byteLength written)
      | none => s := by
  have hskip (written : List Char) {rest : List Char} (h : s.start.rest = written ++ rest) :
      (s.start.skip (byteLength written)).peek? = rest.head? := by
    rw [Cursor.skip_append written hcut h]
    rfl
  unfold joinGreater
  rw [if_neg (not_not.2 hk), show (s.start.skip 1).peek? = cs.head? from hskip ['>'] hr]
  rcases cs with _ | ⟨c, cs⟩
  · rfl
  · by_cases hgt : c = '>'
    · subst hgt
      rw [show (s.start.skip 2).peek? = cs.head? from hskip ['>', '>'] hr]
      rcases cs with _ | ⟨d, cs⟩
      · rfl
      · by_cases heq : d = '='
        · subst heq
          rfl
        · have hshr : joint? ('>' :: d :: cs) = some (.shr, ['>', '>']) := by simp [joint?, heq]
          rw [hshr]
          show _ = s.resize .shr 2
          simp [heq]
    · by_cases heq : c = '='
      · subst heq
        rfl
      · simp [joint?, hgt, heq]

theorem Placed.joinGreater (hs : s.Sound E.text) (h : s.Placed E s') :
    s.joinGreater.Placed E s'.joinGreater := by
  by_cases hk : s.kind = .gt
  · have hr : s.start.rest = '>' :: s.here.rest := hs.spelled ">" (by rw [hk]; rfl)
    have hr' : s'.start.rest = '>' :: (s.here.rest ++ E.tail) := by
      rw [h.start, ← List.cons_append, ← hr]
      rfl
    have hcut' : s'.start.cut = 0 := by rw [h.start]; exact hs.start.1
    rw [joinGreater_eq hk hs.start.1 hr, joinGreater_eq (h.kind.trans hk) hcut' hr',
      E.read_tail joint? _ fun more => joint?_break _ more]
    split
    · next kind written hjoint =>
      obtain ⟨rest, hw⟩ := joint?_spelled hjoint
      exact h.resize kind hs.start.1 (hr.trans hw)
    · exact h
  · unfold Scanner.joinGreater
    rw [if_pos hk, if_pos (by rwa [h.kind])]
    exact h

theorem Placed.split {first : Kind} (hs : s.Sound E.text) (hk : SplitsInto s.kind first)
    (h : s.Placed E s') : (s.split first).Placed E (s'.split first) := by
  obtain ⟨hmem, d, hd, hdouble, hfirst⟩ := hk.spelled
  have hr : s.start.rest = [d] ++ d :: s.here.rest := by
    simpa using hs.spelled _ (Kind.written?_of_mark hdouble)
  have hlength : s'.token.length = s.token.length := by
    simp only [Token.length, Range.length, h.token.range, Range.shift]
    omega
  have hone : (String.ofList [d]).utf8ByteSize = byteLength [d] := by
    rw [← Text.byteLength_toList, String.toList_ofList]
  unfold Scanner.split
  simp only [hfirst, hone, hlength]
  split
  · exact h.resize first hs.start.1 hr
  · exact h

/-! ### Behind the text -/

/-- Where the next token is the end, only white space and comments are left. -/
theorem scan_endOfFile {text : List Char} {admitted : Admitted} (ha : admitted.ReadsLiterals)
    (hhere : s.here.In text) (hend : (s.scan contextual? admitted).kind = .endOfFile) :
    ((if admitted.literalSuffix then contextual? .suffixOnly s.here.rest else none)
        <|> shebang? s.here) = none ∧
      ∃ t, t = Trivia.skip contextual? admitted s.here.offset false #[] s.here.rest ∧
        t.endless = none ∧ t.cursor.rest = [] ∧
        (s.scan contextual? admitted).leading = t.comments.toList := by
  have hplaced {s : Scanner} {place : Cursor} {l : Lexeme} (hl : l.Fits place.rest) :
      (s.moveTo place l).kind ≠ .endOfFile := hl.kind_ne.1
  unfold scan at hend ⊢
  simp only [not_not.2 hhere.1, if_false] at hend ⊢
  split at hend
  · next l hl =>
    refine absurd hend (hplaced ?_)
    rw [Option.orElse_eq_orElse, Option.orElse_eq_or, Option.or_eq_some_iff] at hl
    rcases hl with hs | ⟨-, hb⟩
    · split at hs
      · exact Lexeme.contextual_fits hs
      · exact nomatch hs
    · exact (shebang_fits hb).1
  · next hnone =>
    rw [hnone]
    refine ⟨rfl, _, rfl, ?_⟩
    have hsound := Trivia.skip_sound contextual? Lexeme.contextual_fits admitted false #[] hhere.2
    generalize ht : Trivia.skip contextual? admitted s.here.offset false #[] s.here.rest = t at *
    have hkind (s : Scanner) (b : Bool) : (s.markLineBreak b).kind = s.kind := by
      unfold Scanner.markLineBreak
      split <;> rfl
    have hpast := scanPastTrivia_eq (s := { s with leading := [] }) hhere ht
    rw [hpast, hkind] at hend
    rw [hpast]
    cases hendless : t.endless with
    | some l =>
      rw [hendless] at hend
      exact absurd hend (hplaced (hsound.endless l hendless).1)
    | none =>
      rw [hendless] at hend
      refine ⟨rfl, ?_, by simp [moveTo]⟩
      by_contra hrest
      exact hplaced (Lexeme.next_fits (by exact ha) hrest) hend

theorem scan_eq_scanPastTrivia {text : List Char} (hhere : s.here.In text)
    (htouch : shebang? s.here = none) :
    s.scan contextual? .usual =
      ({ s with leading := [] } : Scanner).scanPastTrivia contextual? .usual := by
  unfold scan
  simp only [not_not.2 hhere.1, if_false, htouch]
  rfl

/-- **Scanning over the end** of the text leads to the token at which a scanner begins that reads what
stands behind the text alone; the comments at the end of the text stand before its comments. -/
theorem scan_across {E₂ : Excerpt} (htail : E.tail = '\n' :: E₂.text)
    (hfront : E₂.front = E.front ++ (E.text ++ ['\n'])) (hlast : E₂.tail = [])
    (hhere : s.here.In E.text) (hmove : s'.here = E.move s.here)
    (hend : (s.scan contextual? .usual).kind = .endOfFile) :
    ∃ t : Scanner, (facing .usual { offset := 0, rest := E₂.text }).Placed E₂ t ∧
      s'.scan contextual? .usual =
        { t with
          leading := (s.scan contextual? .usual).leading.map (Token.shift E.shift) ++ t.leading } := by
  obtain ⟨hnone, t, ht, hendless, hrest, hleading⟩ := scan_endOfFile ⟨rfl, rfl⟩ hhere hend
  let first : Scanner :=
    { start := { offset := 0, rest := E₂.text }, here := { offset := 0, rest := E₂.text },
      token := noToken 0 }
  have hfirst : first.here.In E₂.text := ⟨rfl, Place.start _⟩
  have hhere' : s'.here.In E.whole := by
    rw [hmove]
    exact Excerpt.move_in hhere
  have hshift : byteLength E.text + E.shift + 1 = E₂.shift := by
    have hbreak : ('\n' : Char).utf8Size = 1 := rfl
    simp only [Excerpt.shift, hfront, Text.byteLength_append, Text.byteLength_cons,
      Text.byteLength_nil, hbreak]
    omega
  -- no lexeme touches the token before it
  have htouch : shebang? s'.here = none := by
    rw [hmove, shebang_placed hhere]
    simpa [Admitted.usual] using hnone
  have htouch₂ : shebang? first.here = none := by
    refine E₂.plain.resolve_left fun hnil => ?_
    rw [hfront] at hnil
    simp at hnil
  -- the white space and the comments go on over the line break
  obtain ⟨more, hmore, hmore', hcursor, hsame⟩ :=
    Trivia.skip_shift E.shift .usual s.here.offset false #[] s.here.rest false #[]
  have hbreak := Trivia.skip_break .usual (s.here.offset + E.shift) false #[] s.here.rest E₂.text _
    rfl (hsame.trans (ht ▸ hendless))
  have hoffset : t.cursor.offset = byteLength E.text := by
    have hsound := Trivia.skip_sound contextual? Lexeme.contextual_fits .usual false #[] hhere.2
    rw [← ht] at hsound
    have hplace := hsound.cursor.2.offset_add
    rw [hrest] at hplace
    exact hplace
  rw [hcursor, ← ht, if_pos hrest, Trivia.skip, if_pos (by decide)] at hbreak
  generalize Trivia.skip contextual? .usual (s.here.offset + E.shift) false #[] s.here.rest = t₁ at *
  have hstart : t.cursor.offset + E.shift + ('\n' : Char).utf8Size = 0 + E₂.shift := by
    rw [hoffset, Nat.zero_add]
    exact hshift
  obtain ⟨more₂, hmore₂, hmore₂', hcursor₂, hsame₂⟩ := Trivia.skip_shift E₂.shift .usual 0 false #[]
    E₂.text (t₁.lineBreak || Text.isLineBreak '\n') t₁.comments
  generalize hu : Trivia.skip contextual? .usual 0 false #[] E₂.text = u at *
  have hu' : Trivia.skip contextual? .usual s'.here.offset false #[] s'.here.rest =
      Trivia.skip contextual? .usual (0 + E₂.shift) (t₁.lineBreak || Text.isLineBreak '\n')
        t₁.comments E₂.text := by
    rw [← hstart, ← hbreak, hmove, Excerpt.move, htail]
  generalize Trivia.skip contextual? .usual (0 + E₂.shift) (t₁.lineBreak || Text.isLineBreak '\n')
    t₁.comments E₂.text = u' at *
  simp only [List.nil_append] at hmore hmore' hmore₂
  have hcursor₂' : u'.cursor = E₂.move u.cursor := by
    rw [hcursor₂]
    simp [Excerpt.move, hlast]
  have hscan := scanPastTrivia_eq (s := { first with leading := [] }) hfirst hu
  have hscan' := scanPastTrivia_eq (s := { s' with leading := [] }) hhere' hu'
  rw [← scan_eq_scanPastTrivia hfirst htouch₂, scan_eq] at hscan
  rw [← scan_eq_scanPastTrivia hhere' htouch] at hscan'
  refine ⟨{ s'.scan contextual? .usual with
    leading := u.comments.toList.map (Token.shift E₂.shift) }, ?_, ?_⟩
  · have hrest₂ : (E₂.move u.cursor).rest = u.cursor.rest := by simp [Excerpt.move, hlast]
    have hswap (s : Scanner) (b : Bool) (leading : List Token) :
        { s.markLineBreak b with leading } = ({ s with leading } : Scanner).markLineBreak b := by
      unfold Scanner.markLineBreak
      split <;> rfl
    rw [hscan, hscan', hswap, hsame₂, hcursor₂', hrest₂]
    refine Placed.markLineBreak ?_ _ _
    let past : Scanner := { first with leading := u.comments.toList }
    let past' : Scanner := { s' with leading := u.comments.toList.map (Token.shift E₂.shift) }
    have hplaced (l : Lexeme) : (past.moveTo u.cursor l).Placed E₂ (past'.moveTo (E₂.move u.cursor) l) :=
      moveTo_placed_last hlast u.cursor l rfl
    exact hplaced _
  · have hcomments : (s'.scan contextual? .usual).leading = u'.comments.toList := by
      rw [hscan', markLineBreak_leading]
      rfl
    have hfound : t.comments.toList = more := by rw [ht, hmore]
    have hall : (s'.scan contextual? .usual).leading =
        (s.scan contextual? .usual).leading.map (Token.shift E.shift) ++
          u.comments.toList.map (Token.shift E₂.shift) := by
      rw [hcomments, hmore₂', hmore', hmore₂, hleading, hfound]
    exact congrArg (fun leading => { s'.scan contextual? .usual with leading }) hall

end Scanner

end ConcreteSyntax
