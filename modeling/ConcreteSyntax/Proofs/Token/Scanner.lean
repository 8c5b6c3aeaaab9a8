import ConcreteSyntax.Proofs.Text.Blank
import ConcreteSyntax.Proofs.Token.Mark
import ConcreteSyntax.Token.Scanner

/-! # What the scanner promises

At every step the scanner stands at a token of the text (`Scanner.Sound`): the token reaches from
one place to another, is empty only at the end, and is laid out in pieces (`Token.Laid`). Between
two tokens stand comments and white space, nothing else (`Leading`). `Scanner.scan_sound` is the
step; the changes to the current token that the grammar makes keep the promise as well. -/

namespace ConcreteSyntax

open Text (Place Blank byteLength)

/-! ### Tokens -/

/-- Pieces that follow one another over a range, each at least a byte long. -/
def Pieces (start : Nat) : List Piece → Nat → Prop
  | [], stop => start = stop
  | p :: more, stop =>
    p.range.start = start ∧ p.range.start < p.range.stop ∧ p.kind.isPiece = true ∧
      Pieces p.range.stop more stop

/-- The code of the message about a fault. -/
def Fault.code (f : Fault) : Nat := (f.kind.message "").1.code

/-- What is promised of a token, wherever it stands. -/
structure Token.Laid (t : Token) : Prop where
  kind_ne : t.kind ≠ .error
  pieces : t.pieces = [] ∨ Pieces t.range.start t.pieces t.range.stop
  pieces_ne : t.kind.hasPieces = true → t.pieces ≠ []
  /-- What could not be read has a fault, and so has a piece that could not. -/
  explained : t.kind = .errorSentinel → t.faults ≠ []
  unread : ∀ p ∈ t.pieces, p.kind = .errorSentinel → ∃ f ∈ t.faults, f.range = p.range
  faultless : t.kind.mayBeFaulty = false → t.faults = []
  /-- A fault is about some bytes of the token. -/
  within : ∀ f ∈ t.faults, t.range.start ≤ f.range.start ∧ f.range.start < f.range.stop ∧
    f.range.stop ≤ t.range.stop
  /-- Two faults differ in what they say or in what they are about. -/
  distinct : (t.faults.map fun f => (f.code, f.range)).Nodup

/-- A token without faults could be read, and so could its pieces. -/
theorem Token.Laid.readable {t : Token} (h : t.Laid) (hf : t.faults = []) :
    t.kind ≠ .errorSentinel ∧ ∀ p ∈ t.pieces, p.kind ≠ .errorSentinel := by
  refine ⟨fun hk => h.explained hk hf, fun p hp hk => ?_⟩
  obtain ⟨f, hmem, -⟩ := h.unread p hp hk
  rw [hf] at hmem
  exact nomatch hmem

theorem Pieces.isPiece {pieces : List Piece} {start stop : Nat} (h : Pieces start pieces stop) :
    ∀ p ∈ pieces, p.kind.isPiece = true := by
  induction pieces generalizing start with
  | nil => exact nofun
  | cons p pieces ih =>
    obtain ⟨-, -, hk, hrest⟩ := h
    exact List.forall_mem_cons.2 ⟨hk, ih hrest⟩

theorem Token.Laid.isPiece {t : Token} (h : t.Laid) : ∀ p ∈ t.pieces, p.kind.isPiece = true := by
  rcases h.pieces with hnil | hp
  · rw [hnil]
    exact nofun
  · exact hp.isPiece

theorem Token.Laid.piece_ne {t : Token} (h : t.Laid) : ∀ p ∈ t.pieces, p.kind ≠ .error :=
  fun p hp => Kind.ne_of_isPiece (h.isPiece p hp)

/-- Pieces begin one behind the other. -/
theorem Pieces.pairwise {pieces : List Piece} {start stop : Nat} (h : Pieces start pieces stop) :
    start ≤ stop ∧ (∀ p ∈ pieces, start ≤ p.range.start ∧ p.range.start < p.range.stop ∧
      p.range.stop ≤ stop) ∧ pieces.Pairwise fun p q => p.range.start < q.range.start := by
  induction pieces generalizing start with
  | nil => exact ⟨Nat.le_of_eq h, nofun, .nil⟩
  | cons p pieces ih =>
    obtain ⟨hstart, hlt, -, hrest⟩ := h
    obtain ⟨hle, hwithin, hpairs⟩ := ih hrest
    refine ⟨by omega, List.forall_mem_cons.2 ⟨by omega, fun q hq => ?_⟩,
      List.pairwise_cons.2 ⟨fun q hq => ?_, hpairs⟩⟩
    all_goals
      have := hwithin q hq
      omega

namespace Lexeme

theorem placePieces_pieces (offset : Nat) {cs : List Char} {pieces : List (Kind × Nat)}
    (hle : piecesLength pieces ≤ cs.length) (hp : ∀ p ∈ pieces, 0 < p.2 ∧ p.1.isPiece = true) :
    Pieces offset (placePieces offset cs pieces)
      (offset + byteLength (cs.take (piecesLength pieces))) := by
  induction pieces generalizing offset cs with
  | nil => simp [placePieces, Pieces]
  | cons p pieces ih =>
    obtain ⟨kind, n⟩ := p
    obtain ⟨hpos, hk⟩ := hp _ List.mem_cons_self
    simp only [piecesLength_cons] at hle ⊢
    have hne : cs.take n ≠ [] := by
      intro h
      have := congrArg List.length h
      simp only [List.length_take, List.length_nil] at this
      omega
    have := Text.byteLength_pos hne
    refine ⟨rfl, by simp only; omega, hk, ?_⟩
    have hrest := ih (offset + byteLength (cs.take n))
      (show piecesLength pieces ≤ (cs.drop n).length by rw [List.length_drop]; omega)
      fun p h => hp p (List.mem_cons_of_mem _ h)
    rw [List.take_add, Text.byteLength_append, ← Nat.add_assoc]
    exact hrest

theorem kind_of_mem_placePieces {offset : Nat} {cs : List Char} {pieces : List (Kind × Nat)}
    {p : Piece} (h : p ∈ placePieces offset cs pieces) : ∃ q ∈ pieces, q.1 = p.kind := by
  induction pieces generalizing offset cs with
  | nil => simp [placePieces] at h
  | cons q pieces ih =>
    obtain ⟨kind, n⟩ := q
    rcases List.mem_cons.1 h with rfl | h
    · exact ⟨_, List.mem_cons_self, rfl⟩
    · obtain ⟨q, hq, he⟩ := ih h
      exact ⟨q, List.mem_cons_of_mem _ hq, he⟩

/-- The fault of a piece is about that piece. -/
theorem eq_of_pieceFault? {p : Piece} {f : Fault} (h : pieceFault? p = some f) :
    f.range = p.range ∧ f.kind = .invalidEscape := by
  unfold pieceFault? at h
  split at h
  · obtain rfl := Option.some.inj h
    exact ⟨rfl, rfl⟩
  · exact nomatch h

/-- Only an escape that could not be read has the code of one. -/
theorem eq_invalidEscape_of_code {f : Fault}
    (h : f.code = (FaultKind.invalidEscape.message "").1.code) : f.kind = .invalidEscape := by
  obtain ⟨kind, range⟩ := f
  cases kind <;> first | rfl | exact nomatch h

theorem Fits.place_pieces {cs : List Char} {l : Lexeme} (h : l.Fits cs) (offset : Nat) :
    (l.place offset cs).pieces = [] ∨ Pieces offset (l.place offset cs).pieces
      (offset + byteLength (cs.take l.length)) := by
  rcases h.filled with he | he
  · exact .inl (by simp [place, he, placePieces])
  · right
    have := placePieces_pieces offset (he ▸ h.le) h.piece
    rwa [he] at this

/-- A lexeme that fits makes a token with its promise. -/
theorem Fits.laid {cs : List Char} {l : Lexeme} (h : l.Fits cs) (offset : Nat) :
    (l.place offset cs).Laid where
  kind_ne := h.kind_ne.2
  pieces := h.place_pieces offset
  pieces_ne := by
    intro hk
    obtain ⟨⟨kind, n⟩, ps, hps⟩ := List.exists_cons_of_ne_nil (h.pieces_ne hk)
    simp [place, hps, placePieces]
  explained := by
    intro hk
    obtain ⟨f, hf⟩ := Option.isSome_iff_exists.1 (h.explained hk)
    simp [place, hf]
  unread := fun p hp hk => by
    have hfault : pieceFault? p = some ⟨.invalidEscape, p.range⟩ := if_pos hk
    exact ⟨_, List.mem_append_right _ (List.mem_filterMap.2 ⟨p, hp, hfault⟩), rfl⟩
  faultless := by
    intro hk
    obtain ⟨hf, hp⟩ := h.faultless hk
    simp only [place, hf, Option.map_none, Option.toList_none, List.nil_append,
      List.filterMap_eq_nil_iff]
    intro p hp'
    obtain ⟨q, hq, he⟩ := kind_of_mem_placePieces hp'
    exact if_neg (he ▸ hp q hq)
  within := by
    intro f hf
    rcases List.mem_append.1 hf with hf | hf
    · -- a fault of the token as a whole
      obtain ⟨kind, -, rfl⟩ := Option.map_eq_some_iff.1 (Option.mem_toList.1 hf)
      have hne : cs.take l.length ≠ [] := by
        have hpos := h.pos
        have hle := h.le
        refine List.ne_nil_of_length_pos ?_
        rw [List.length_take]
        omega
      have := Text.byteLength_pos hne
      exact ⟨Nat.le_refl offset, Nat.lt_add_of_pos_right this, Nat.le_refl _⟩
    · obtain ⟨p, hp, hfault⟩ := List.mem_filterMap.1 hf
      rw [(eq_of_pieceFault? hfault).1]
      rcases h.place_pieces offset with hnil | hpieces
      · exact absurd (hnil ▸ hp : p ∈ []) nofun
      · exact hpieces.pairwise.2.1 p hp
  distinct := by
    rw [place, List.map_append, List.nodup_append]
    refine ⟨?_, ?_, ?_⟩
    · cases l.fault with
      | none => exact .nil
      | some kind => exact List.nodup_cons.2 ⟨nofun, .nil⟩
    · rcases h.place_pieces offset with hnil | hpieces
      · rw [show placePieces offset cs l.pieces = [] from hnil]
        exact .nil
      · have hranges {f g : Fault} (hne : f.range ≠ g.range) : (f.code, f.range) ≠ (g.code, g.range) :=
          fun he => hne (congrArg Prod.snd he)
        refine List.Pairwise.map _ (fun _ _ => hranges) ?_
        refine hpieces.pairwise.2.2.filterMap _ fun p q hlt f hf g hg he => ?_
        rw [(eq_of_pieceFault? hf).1, (eq_of_pieceFault? hg).1] at he
        rw [he] at hlt
        exact Nat.lt_irrefl _ hlt
    · intro a ha b hb hab
      obtain ⟨f, hf, rfl⟩ := List.mem_map.1 ha
      obtain ⟨g, hg, rfl⟩ := List.mem_map.1 hb
      obtain ⟨kind, hkind, rfl⟩ := Option.map_eq_some_iff.1 (Option.mem_toList.1 hf)
      obtain ⟨p, -, hfault⟩ := List.mem_filterMap.1 hg
      have hcode := congrArg Prod.fst hab
      simp only [Fault.code, (eq_of_pieceFault? hfault).2] at hcode
      have hescape : kind = .invalidEscape := eq_invalidEscape_of_code (f := ⟨kind, ⟨0, 0⟩⟩) hcode
      exact h.whole (hescape ▸ hkind)

end Lexeme

/-! ### Comments before a token -/

/-- Comments and white space between two places of a text. -/
def Leading (text : List Char) (start : Nat) : List Token → Nat → Prop
  | [], stop => Blank text start stop
  | c :: more, stop =>
    Blank text start c.range.start ∧ c.range.start < c.range.stop ∧ c.Laid ∧
      c.kind.isComment = true ∧ Leading text c.range.stop more stop

theorem Leading.le {text : List Char} {a b : Nat} {comments : List Token}
    (h : Leading text a comments b) : a ≤ b := by
  induction comments generalizing a with
  | nil => exact Blank.le h
  | cons c comments ih =>
    obtain ⟨hb, hlt, -, -, hrest⟩ := h
    have := hb.le
    have := ih hrest
    omega

theorem Leading.of_mem {text : List Char} {a b : Nat} {comments : List Token}
    (h : Leading text a comments b) {c : Token} (hc : c ∈ comments) :
    c.Laid ∧ c.kind.isComment = true := by
  induction comments generalizing a with
  | nil => simp at hc
  | cons d comments ih =>
    obtain ⟨-, -, hl, hk, hrest⟩ := h
    rcases List.mem_cons.1 hc with rfl | hc
    · exact ⟨hl, hk⟩
    · exact ih hrest hc

/-- White space before the first comment. -/
theorem Leading.blank_append {text : List Char} {a b c : Nat} {comments : List Token}
    (hab : Blank text a b) (h : Leading text b comments c) : Leading text a comments c := by
  cases comments with
  | nil => exact hab.trans h
  | cons t comments => exact ⟨hab.trans h.1, h.2⟩

/-- A cursor between two characters of a text. -/
def Cursor.In (text : List Char) (c : Cursor) : Prop := c.cut = 0 ∧ Place text c.offset c.rest

theorem Cursor.In.advance {text : List Char} {c : Cursor} (h : c.In text) (n : Nat) :
    (c.advance n).In text :=
  ⟨rfl, h.2.advance n⟩

/-- What is promised of the white space and the comments from an offset on. -/
structure Trivia.Sound (text : List Char) (offset : Nat) (found : List Token) (t : Trivia) :
    Prop where
  cursor : t.cursor.In text
  comments : ∃ more, t.comments.toList = found ++ more ∧ Leading text offset more t.cursor.offset
  endless : ∀ l, t.endless = some l → l.Fits t.cursor.rest ∧ l.kind.isComment = false

/-- A lexeme that fits ends further on, at a place of the text. -/
theorem Lexeme.Fits.place_stop {l : Lexeme} {c : Char} {rest text : List Char} {offset : Nat}
    (hfit : l.Fits (c :: rest)) (h : Place text offset (c :: rest)) :
    offset < (l.place offset (c :: rest)).range.stop ∧
      Place text (l.place offset (c :: rest)).range.stop (rest.drop (l.length - 1)) := by
  obtain ⟨n, hn⟩ : ∃ n, l.length = n + 1 := ⟨l.length - 1, by have := hfit.pos; omega⟩
  have hplace := h.advance l.length
  refine ⟨Nat.lt_add_of_pos_right ?_, ?_⟩
  · rw [hn, List.take_succ_cons]
    exact Text.byteLength_pos nofun
  · rwa [show (c :: rest).drop l.length = rest.drop (l.length - 1) by simp [hn]] at hplace

/-- Skipping keeps the promise if all that is recognised fits. -/
theorem Trivia.skip_sound (recognize : Recognizer)
    (hfits : ∀ {admitted cs l}, recognize admitted cs = some l → l.Fits cs)
    (admitted : Admitted) (lineBreak : Bool) (comments : Array Token) {text : List Char}
    {offset : Nat} {cs : List Char} (h : Place text offset cs) :
    (Trivia.skip recognize admitted offset lineBreak comments cs).Sound text offset
      comments.toList := by
  -- where nothing more is skipped
  have hstop (endless : Option Lexeme) {offset : Nat} {cs : List Char} {lineBreak : Bool}
      {comments : Array Token} (h : Place text offset cs)
      (he : ∀ l, endless = some l → l.Fits cs ∧ l.kind.isComment = false) :
      Trivia.Sound text offset comments.toList
        { cursor := { offset, rest := cs }, lineBreak, comments, endless } :=
    ⟨⟨rfl, h⟩, ⟨[], by simp, h.blank_self⟩, he⟩
  fun_induction Trivia.skip recognize admitted offset lineBreak comments cs with
  | case1 => exact hstop none h (fun _ he => by simp at he)
  | case2 offset lineBreak comments c rest hw ih =>
    have hb : Blank text offset (offset + c.utf8Size) := h.blank_cons hw
    obtain ⟨hc, ⟨more, hm, hl⟩, he⟩ := ih (by simpa using h.advance 1)
    exact ⟨hc, ⟨more, hm, hl.blank_append hb⟩, he⟩
  | case3 offset lineBreak comments c rest hw hslash hr =>
    simp only [hr]
    exact hstop none h (fun _ he => by simp at he)
  | case4 offset lineBreak comments c rest hw hslash l hcomment hr token ih =>
    have hfit := hfits hr
    obtain ⟨hlt, hplace⟩ := hfit.place_stop h
    obtain ⟨hc, ⟨more, hm, hl⟩, he⟩ := ih hplace
    simp only [hcomment, hr, if_true]
    exact ⟨hc, ⟨token :: more, by simpa using hm, h.blank_self, hlt, hfit.laid offset, hcomment, hl⟩,
      he⟩
  | case5 offset lineBreak comments c rest hw hslash l hcomment hr =>
    simp only [hcomment, hr]
    exact hstop (some l) h fun l' hl' => by
      obtain rfl := Option.some.inj hl'
      exact ⟨hfits hr, Bool.eq_false_iff.2 hcomment⟩
  | case6 => exact hstop none h (fun _ he => by simp at he)

/-! ### The scanner -/

namespace Scanner

/-- What is promised of a scanner at a token of a text. -/
structure Sound (text : List Char) (s : Scanner) : Prop where
  start : s.start.In text
  here : s.here.In text
  range : s.token.range = ⟨s.start.offset, s.here.offset⟩
  laid : s.token.Laid
  lt : s.kind ≠ .endOfFile → s.start.offset < s.here.offset
  atEnd : s.kind = .endOfFile → s.start.rest = [] ∧ s.here = s.start
  /-- A mark or a word stands in the text as it is written. -/
  spelled : ∀ written, s.kind.written? = some written →
    s.start.rest = written.toList ++ s.here.rest
  /-- Comments are read before the token. -/
  noComment : s.kind.isComment = false

theorem Sound.le {text : List Char} {s : Scanner} (h : s.Sound text) :
    s.start.offset ≤ s.here.offset := by
  by_cases hk : s.kind = .endOfFile
  · exact Nat.le_of_eq (by rw [(h.atEnd hk).2])
  · exact Nat.le_of_lt (h.lt hk)

theorem Sound.markLineBreak {text : List Char} {s : Scanner} (h : s.Sound text) (b : Bool) :
    (s.markLineBreak b).Sound text := by
  unfold Scanner.markLineBreak
  split
  · exact ⟨h.start, h.here, h.range, ⟨h.laid.1, h.laid.2, h.laid.3, h.laid.4, h.laid.5,
      h.laid.6, h.laid.7, h.laid.8⟩,
      h.lt, h.atEnd, h.spelled, h.noComment⟩
  · exact h

@[simp] theorem markLineBreak_start (s : Scanner) (b : Bool) :
    (s.markLineBreak b).start = s.start := by
  unfold Scanner.markLineBreak
  split <;> rfl

@[simp] theorem markLineBreak_leading (s : Scanner) (b : Bool) :
    (s.markLineBreak b).leading = s.leading := by
  unfold Scanner.markLineBreak
  split <;> rfl

/-- Some characters take some bytes. -/
theorem lt_advance {place : Cursor} {n : Nat} (hrest : place.rest ≠ []) (hn : 0 < n) :
    place.offset < (place.advance n).offset := by
  have hne : place.rest.take n ≠ [] := by
    rw [Ne, List.take_eq_nil_iff, not_or]
    exact ⟨Nat.ne_of_gt hn, hrest⟩
  have := Text.byteLength_pos hne
  show place.offset < place.offset + byteLength (place.rest.take n)
  omega

/-- At a lexeme that fits the scanner is sound. -/
theorem moveTo_sound {text : List Char} {s : Scanner} {place : Cursor} {l : Lexeme}
    (hp : place.In text) (hl : l.Fits place.rest) (hc : l.kind.isComment = false) :
    (s.moveTo place l).Sound text where
  start := hp
  here := hp.advance l.length
  range := rfl
  laid := hl.laid place.offset
  lt := fun _ => lt_advance (List.ne_nil_of_length_pos (Nat.lt_of_lt_of_le hl.pos hl.le)) hl.pos
  atEnd := fun h => absurd h hl.kind_ne.1
  spelled := fun written h => by
    rw [← hl.spelled written h]
    exact (List.take_append_drop l.length place.rest).symm
  noComment := hc

/-- So it is at the end of the text, where nothing is read. -/
theorem moveTo_end_sound {text : List Char} {s : Scanner} {place : Cursor} (hp : place.In text)
    (hrest : place.rest = []) : (s.moveTo place (.plain .endOfFile 0)).Sound text := by
  obtain ⟨offset, cut, rest⟩ := place
  obtain rfl : cut = 0 := hp.1
  obtain rfl : rest = [] := hrest
  exact ⟨hp, hp, rfl, ⟨nofun, .inl rfl, nofun, nofun, nofun, fun _ => rfl, nofun, .nil⟩,
    fun h => absurd rfl h, fun _ => ⟨rfl, rfl⟩, nofun, rfl⟩

theorem shebang_fits {c : Cursor} {l : Lexeme} (h : shebang? c = some l) :
    l.Fits c.rest ∧ l.kind.isComment = false := by
  unfold shebang? at h
  split at h
  · split at h
    · simp at h
    · next heq =>
      obtain rfl := Option.some.inj h
      exact ⟨Lexeme.fits_plain (by decide) (by simp [heq]) (Lexeme.length_takeWhile_le _ _) nofun,
        rfl⟩
    · simp at h
  · simp at h

/-- A step of the scanner, whatever is admitted: it moves to a lexeme, with the comments in between
before it. -/
theorem scan_eq_moveTo [Text.Xid] {text : List Char} {s : Scanner} (admitted : Admitted)
    (h : s.here.In text) :
    ∃ (leading : List Token) (place : Cursor) (l : Lexeme) (lineBreak : Bool),
      s.scan Lexeme.contextual? admitted =
        (({ s with leading } : Scanner).moveTo place l).markLineBreak lineBreak ∧
      place.In text ∧ Leading text s.here.offset leading place.offset ∧
      (l.Fits place.rest ∧ l.kind.isComment = false ∨
        l = Lexeme.next Lexeme.contextual? admitted.withoutSuffix place.rest) := by
  unfold scan
  simp only [h.1, ne_eq, not_true_eq_false, if_false]
  -- a lexeme that touches the token before it
  split
  · next l hl =>
    have hfit : l.Fits s.here.rest ∧ l.kind.isComment = false := by
      rw [Option.orElse_eq_orElse, Option.orElse_eq_or, Option.or_eq_some_iff] at hl
      rcases hl with hs | ⟨-, hb⟩
      · split at hs
        · exact ⟨Lexeme.contextual_fits hs, by rw [Lexeme.kind_of_suffixOnly hs]; rfl⟩
        · simp at hs
      · exact shebang_fits hb
    exact ⟨[], s.here, l, false, rfl, h, h.2.blank_self, .inl hfit⟩
  · unfold scanPastTrivia
    simp only [h.1, ne_eq, not_true_eq_false, if_false]
    obtain ⟨hc, ⟨more, hm, hl⟩, he⟩ :=
      Trivia.skip_sound Lexeme.contextual? Lexeme.contextual_fits admitted false #[] h.2
    simp only [List.nil_append] at hm
    split
    · next l hl' => exact ⟨_, _, l, false, rfl, hc, hm ▸ hl, .inl (he l hl')⟩
    · refine ⟨_, _, _,
        (Trivia.skip Lexeme.contextual? admitted s.here.offset false #[] s.here.rest).lineBreak,
        ?_, hc, hm ▸ hl, .inr rfl⟩
      unfold readToken
      rw [if_neg (not_not.2 hc.1)]

/-- A step of the scanner: it stands at a token again, with the comments in between before it. -/
theorem scan_sound [Text.Xid] {text : List Char} {s : Scanner} {admitted : Admitted}
    (ha : admitted.ReadsLiterals) (h : s.here.In text) :
    (s.scan Lexeme.contextual? admitted).Sound text ∧
      Leading text s.here.offset (s.scan Lexeme.contextual? admitted).leading
        (s.scan Lexeme.contextual? admitted).start.offset := by
  obtain ⟨leading, place, l, lineBreak, hscan, hplace, hleading, hl⟩ := scan_eq_moveTo admitted h
  rw [hscan]
  refine ⟨Sound.markLineBreak ?_ _, by simpa [moveTo] using hleading⟩
  rcases hl with ⟨hl, hc⟩ | rfl
  · exact moveTo_sound hplace hl hc
  · by_cases hrest : place.rest = []
    · rw [hrest]
      exact moveTo_end_sound hplace hrest
    · exact moveTo_sound hplace (Lexeme.next_fits (by exact ha) hrest) Lexeme.next_isComment

end Scanner

/-! ### Changing the current token -/

theorem Cursor.skip_append {c : Cursor} (front : List Char) {rest : List Char} (hc : c.cut = 0)
    (hr : c.rest = front ++ rest) :
    c.skip (byteLength front) = { offset := c.offset + byteLength front, rest } := by
  have hfrom (offset : Nat) : skipFrom offset (byteLength front) (front ++ rest) =
      { offset := offset + byteLength front, rest } := by
    clear hr
    induction front generalizing offset with
    | nil => cases rest <;> simp [skipFrom]
    | cons d front ih =>
      have := d.utf8Size_pos
      simp only [List.cons_append, skipFrom, Text.byteLength_cons]
      rw [if_neg (by omega), if_neg (by omega), Nat.add_sub_cancel_left, ih, Nat.add_assoc]
  unfold skip
  split
  · next h =>
    obtain rfl : front = [] := by
      by_contra hne
      have := Text.byteLength_pos hne
      omega
    obtain ⟨offset, cut, rest'⟩ := c
    simp_all
  · rw [hc, hr]
    simpa using hfrom c.offset

/-- The marks that the grammar may make of the mark at a token: the first part of a doubled mark, or
a `>` joined with what touches it. -/
def Kind.reshapes : Kind → List Kind
  | .ampAmp => [.amp]
  | .shl => [.lt]
  | .pipePipe => [.pipe]
  | .gt => [.gtEq, .shr, .shrEq]
  | _ => []

theorem Kind.plain_of_mem_reshapes {k first : Kind} (h : first ∈ k.reshapes) :
    Lexeme.IsPlain first ∧ k.mayBeFaulty = false := by
  unfold Kind.reshapes at h
  split at h
  · exact ⟨List.mem_singleton.1 h ▸ by decide, rfl⟩
  · exact ⟨List.mem_singleton.1 h ▸ by decide, rfl⟩
  · exact ⟨List.mem_singleton.1 h ▸ by decide, rfl⟩
  · simp only [List.mem_cons, List.not_mem_nil, or_false] at h
    rcases h with rfl | rfl | rfl <;> exact ⟨by decide, rfl⟩
  · simp at h

namespace Scanner

/-- Cutting or joining marks keeps the promise. -/
theorem Sound.resize {text : List Char} {s : Scanner} {kind : Kind} {written : String}
    {rest : List Char} (h : s.Sound text) (hk : Lexeme.IsPlain kind)
    (hm : kind.markText = some written) (hr : s.start.rest = written.toList ++ rest)
    (hne : written.toList ≠ []) :
    (s.resize kind (byteLength written.toList)).Sound text := by
  have hpos := Text.byteLength_pos hne
  have hplace : Place text (s.start.offset + byteLength written.toList) rest := by
    have := h.start.2.advance written.toList.length
    rwa [hr, List.take_left, List.drop_left] at this
  have hskip := Cursor.skip_append written.toList h.start.1 hr
  refine ⟨h.start, ?_, ?_, ⟨hk.2.1, .inl rfl, fun hp => absurd (hk.2.2.2.1.symm.trans hp) nofun,
    fun he => absurd he hk.2.2.1, nofun, fun _ => rfl, nofun, .nil⟩, fun _ => ?_,
    fun he => absurd he hk.1, fun written' hw => ?_, hk.2.2.2.2⟩
  · show (s.start.skip _).In text
    rw [hskip]
    exact ⟨rfl, hplace⟩
  · show (⟨s.start.offset, _⟩ : Range) = ⟨s.start.offset, (s.start.skip _).offset⟩
    rw [hskip]
  · show s.start.offset < (s.start.skip _).offset
    rw [hskip]
    show s.start.offset < s.start.offset + byteLength written.toList
    omega
  · obtain rfl : written = written' :=
      Option.some.inj ((Kind.written?_of_mark hm).symm.trans hw)
    show s.start.rest = written.toList ++ (s.start.skip _).rest
    rw [hskip, hr]

/-- A sound scanner at a token that is reshaped from that of another one. -/
structure Reshaped (text : List Char) (s s' : Scanner) : Prop where
  sound : s'.Sound text
  start : s'.start = s.start
  leading : s'.leading = s.leading
  kind : s'.kind = s.kind ∨ s'.kind ∈ s.kind.reshapes
  faults : s'.token.faults = s.token.faults

theorem Reshaped.refl {text : List Char} {s : Scanner} (h : s.Sound text) : Reshaped text s s :=
  ⟨h, rfl, rfl, .inl rfl, rfl⟩

theorem reshaped_of_resize {text : List Char} {s : Scanner} {kind : Kind} (written : String)
    {rest : List Char} (h : s.Sound text) (hmem : kind ∈ s.kind.reshapes)
    (hm : kind.markText = some written) (hr : s.start.rest = written.toList ++ rest)
    (hne : written.toList ≠ []) :
    Reshaped text s (s.resize kind (byteLength written.toList)) where
  sound := h.resize (Kind.plain_of_mem_reshapes hmem).1 hm hr hne
  start := rfl
  leading := rfl
  kind := .inr hmem
  faults := (h.laid.faultless (Kind.plain_of_mem_reshapes hmem).2).symm

theorem peek_eq_some {c : Cursor} {d : Char} (h : c.peek? = some d) : ∃ rest, c.rest = d :: rest := by
  unfold Cursor.peek? at h
  split at h
  · exact ⟨_, (List.head?_eq_some_iff.1 h).choose_spec⟩
  · simp at h

/-- Only a `>` is joined. -/
theorem joinGreater_eq_self {s : Scanner} (h : s.kind ≠ .gt) : s.joinGreater = s := if_pos h

theorem joinGreater_reshaped {text : List Char} {s : Scanner} (h : s.Sound text) :
    Reshaped text s s.joinGreater := by
  unfold joinGreater
  split
  · exact .refl h
  · next hk =>
    have hk : s.kind = .gt := not_not.1 hk
    have hgt : s.start.rest = '>' :: s.here.rest := h.spelled ">" (by rw [hk]; rfl)
    have hone : s.start.skip 1 = { offset := s.start.offset + 1, rest := s.here.rest } :=
      Cursor.skip_append ['>'] h.start.1 hgt
    split
    · next h1 h2 =>
      rw [hone] at h1
      obtain ⟨rest, hr⟩ := peek_eq_some h1
      have hr : s.start.rest = '>' :: '>' :: rest := by rw [hgt]; exact congrArg _ hr
      rw [show s.start.skip 2 = _ from Cursor.skip_append ['>', '>'] h.start.1 hr] at h2
      obtain ⟨rest', hr'⟩ := peek_eq_some h2
      exact reshaped_of_resize ">>=" h (by rw [hk]; decide) rfl
        (hr.trans (congrArg ('>' :: '>' :: ·) hr')) nofun
    · next h1 _ =>
      rw [hone] at h1
      obtain ⟨rest, hr⟩ := peek_eq_some h1
      exact reshaped_of_resize ">>" h (by rw [hk]; decide) rfl
        (hgt.trans (congrArg ('>' :: ·) hr)) nofun
    · next h1 =>
      rw [hone] at h1
      obtain ⟨rest, hr⟩ := peek_eq_some h1
      exact reshaped_of_resize ">=" h (by rw [hk]; decide) rfl
        (hgt.trans (congrArg ('>' :: ·) hr)) nofun
    · exact .refl h

/-- A doubled mark and its first part. -/
def SplitsInto (kind first : Kind) : Prop :=
  (kind, first) ∈ [(Kind.ampAmp, Kind.amp), (.shl, .lt), (.pipePipe, .pipe)]

theorem SplitsInto.spelled {kind first : Kind} (h : SplitsInto kind first) :
    first ∈ kind.reshapes ∧ ∃ d : Char, d.utf8Size = 1 ∧
      kind.markText = some (String.ofList [d, d]) ∧ first.markText = some (String.ofList [d]) := by
  simp only [SplitsInto, List.mem_cons, Prod.mk.injEq, List.not_mem_nil, or_false] at h
  rcases h with ⟨rfl, rfl⟩ | ⟨rfl, rfl⟩ | ⟨rfl, rfl⟩
  · exact ⟨by decide, '&', rfl, rfl, rfl⟩
  · exact ⟨by decide, '<', rfl, rfl, rfl⟩
  · exact ⟨by decide, '|', rfl, rfl, rfl⟩

theorem split_reshaped {text : List Char} {s : Scanner} {first : Kind} (h : s.Sound text)
    (hk : SplitsInto s.kind first) :
    Reshaped text s (s.split first) ∧ (s.split first).kind = first := by
  obtain ⟨hmem, d, hd, hdouble, hfirst⟩ := hk.spelled
  have hr : s.start.rest = d :: d :: s.here.rest := by
    simpa using h.spelled _ (Kind.written?_of_mark hdouble)
  -- the token is two bytes long
  have hlen : s.token.length = 2 := by
    have h1 := h.start.2.offset_add
    have h2 := h.here.2.offset_add
    rw [hr] at h1
    simp only [Text.byteLength_cons, hd] at h1
    rw [Token.length, Range.length, h.range]
    show s.here.offset - s.start.offset = 2
    omega
  have hsize : (String.ofList [d]).utf8ByteSize = byteLength (String.ofList [d]).toList :=
    (Text.byteLength_toList _).symm
  have hone : byteLength (String.ofList [d]).toList = 1 := by simp [hd]
  have hsplit : s.split first = s.resize first (byteLength (String.ofList [d]).toList) := by
    unfold Scanner.split
    rw [hfirst]
    simp only [hsize]
    rw [if_pos (by rw [hone, hlen]; decide)]
  rw [hsplit]
  exact ⟨reshaped_of_resize _ h hmem hfirst (by simpa using hr) (by simp), rfl⟩

end Scanner

end ConcreteSyntax
