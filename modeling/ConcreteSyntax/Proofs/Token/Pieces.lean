import ConcreteSyntax.Proofs.Text.Blank
import ConcreteSyntax.Proofs.Token.Repertoire
import ConcreteSyntax.Proofs.Token.StringEnd
import Mathlib.Data.List.Chain

/-! # Pieces tile their token

The pieces of a token lie side by side between places of the text and fill the token
(`Lexeme.pieces_tile`). In strings and characters the faults are those of the escapes that could not
be read, one each and in order, and what stands between the escapes is one piece without a quote or a
backslash. A row of pieces is laid out from its words (`Piece.row`), so what is said of the words
(`Lexeme.parts`) is said of the pieces. -/

namespace ConcreteSyntax

open Text (Place byteLength)

/-! ### Rows of words -/

/-- What stands between two places of a text is this piece. -/
def Piece.Spells (text : List Char) (p : Piece) (word : List Char) : Prop :=
  ∃ rest, Place text p.range.start (word ++ rest) ∧
    p.range.stop = p.range.start + byteLength word

/-- The pieces of a row of words that begins at an offset. -/
def Piece.row (offset : Nat) : List (Kind × List Char) → List Piece
  | [] => []
  | (kind, word) :: more =>
    ⟨kind, offset, offset + byteLength word⟩ :: row (offset + byteLength word) more

theorem Piece.spells_of_mem_row {text rest : List Char} {offset : Nat}
    {words : List (Kind × List Char)} (h : Place text offset (words.flatMap (·.2) ++ rest))
    {p : Piece} (hp : p ∈ row offset words) : ∃ w ∈ words, p.kind = w.1 ∧ p.Spells text w.2 := by
  induction words generalizing offset with
  | nil => exact absurd hp List.not_mem_nil
  | cons w words ih =>
    obtain ⟨kind, word⟩ := w
    rw [List.flatMap_cons, List.append_assoc] at h
    rcases List.mem_cons.1 hp with rfl | hp
    · exact ⟨_, List.mem_cons_self, rfl, _, h, rfl⟩
    · have hnext := h.advance word.length
      rw [List.take_left, List.drop_left] at hnext
      obtain ⟨w, hw, hspells⟩ := ih hnext hp
      exact ⟨w, List.mem_cons_of_mem _ hw, hspells⟩

/-- A row of words that are not empty is a row of pieces. -/
theorem Piece.pieces_row {words : List (Kind × List Char)}
    (h : ∀ w ∈ words, w.1.isPiece = true ∧ w.2 ≠ []) (offset : Nat) :
    Pieces offset (row offset words) (offset + byteLength (words.flatMap (·.2))) := by
  induction words generalizing offset with
  | nil => rfl
  | cons w words ih =>
    obtain ⟨kind, word⟩ := w
    obtain ⟨hkind, hword⟩ := h _ List.mem_cons_self
    rw [List.flatMap_cons, Text.byteLength_append, ← Nat.add_assoc]
    exact ⟨rfl, Nat.lt_add_of_pos_right (Text.byteLength_pos hword), hkind,
      ih (fun w hw => h w (List.mem_cons_of_mem _ hw)) _⟩

/-- A piece lies between two places of the text. -/
theorem Piece.Spells.places {text word : List Char} {p : Piece} (h : p.Spells text word) :
    (∃ rest, Place text p.range.start rest) ∧ ∃ rest, Place text p.range.stop rest := by
  obtain ⟨rest, hplace, hstop⟩ := h
  have hnext := hplace.advance word.length
  rw [List.take_left, ← hstop] at hnext
  exact ⟨⟨_, hplace⟩, ⟨_, hnext⟩⟩

theorem Piece.Spells.slice_eq {source : String} {word : List Char} {p : Piece}
    (h : p.Spells source.toList word) : p.range.slice source = String.ofList word := by
  obtain ⟨rest, hplace, hstop⟩ := h
  rw [← Range.slice_eq hplace, ← hstop]

namespace Lexeme

/-- The words of a row of pieces over a run of characters. -/
def parts (cs : List Char) : List (Kind × Nat) → List (Kind × List Char)
  | [] => []
  | (kind, length) :: more => (kind, cs.take length) :: parts (cs.drop length) more

theorem placePieces_eq_row (offset : Nat) (cs : List Char) (pieces : List (Kind × Nat)) :
    placePieces offset cs pieces = Piece.row offset (parts cs pieces) := by
  induction pieces generalizing offset cs with
  | nil => rfl
  | cons p pieces ih => simp only [placePieces, parts, Piece.row, ih]

/-- A row of words as the pieces of a lexeme. -/
abbrev counts (words : List (Kind × List Char)) : List (Kind × Nat) :=
  words.map fun w => (w.1, w.2.length)

theorem placePieces_words (offset : Nat) (words : List (Kind × List Char)) (rest : List Char) :
    placePieces offset (words.flatMap (·.2) ++ rest) (counts words) = Piece.row offset words := by
  induction words generalizing offset with
  | nil => rfl
  | cons w words ih =>
    obtain ⟨kind, word⟩ := w
    rw [List.flatMap_cons, List.append_assoc, counts, List.map_cons, placePieces_cons, ih]
    rfl

theorem flatMap_parts (cs : List Char) (pieces : List (Kind × Nat)) :
    (parts cs pieces).flatMap (·.2) = cs.take (piecesLength pieces) := by
  induction pieces generalizing cs with
  | nil => simp [parts]
  | cons p pieces ih => simp only [parts, List.flatMap_cons, ih, piecesLength_cons, List.take_add]

theorem parts_append (cs : List Char) (ps qs : List (Kind × Nat)) :
    parts cs (ps ++ qs) = parts cs ps ++ parts (cs.drop (piecesLength ps)) qs := by
  induction ps generalizing cs with
  | nil => simp [parts]
  | cons p ps ih =>
    simp only [List.cons_append, parts, ih, List.drop_drop, piecesLength_cons]

/-- The pieces of a lexeme spell its words. -/
theorem spells_of_mem_pieces {text cs : List Char} {offset : Nat} (h : Place text offset cs)
    {l : Lexeme} {p : Piece} (hp : p ∈ (l.place offset cs).pieces) :
    ∃ w ∈ parts cs l.pieces, p.kind = w.1 ∧ p.Spells text w.2 := by
  have hp : p ∈ placePieces offset cs l.pieces := hp
  rw [placePieces_eq_row] at hp
  have hrow : Place text offset
      ((parts cs l.pieces).flatMap (·.2) ++ cs.drop (piecesLength l.pieces)) := by
    rwa [flatMap_parts, List.take_append_drop]
  exact Piece.spells_of_mem_row hrow hp

theorem map_kind_placePieces (offset : Nat) (cs : List Char) (pieces : List (Kind × Nat)) :
    (placePieces offset cs pieces).map (·.kind) = pieces.map (·.1) := by
  induction pieces generalizing offset cs with
  | nil => rfl
  | cons p pieces ih => simp only [placePieces, List.map_cons, ih]

/-- The faults of pieces are those of the pieces that could not be read. -/
theorem filterMap_pieceFault? (pieces : List Piece) :
    pieces.filterMap pieceFault? =
      (pieces.filter (·.kind = .errorSentinel)).map fun p => ⟨.invalidEscape, p.range⟩ := by
  induction pieces with
  | nil => rfl
  | cons p pieces ih =>
    by_cases hk : p.kind = .errorSentinel
    · simp [pieceFault?, hk, ih]
    · simp [pieceFault?, hk, ih]

/-! ### Strings and characters -/

/-- Two kinds of which not both are the content of a string. -/
def Apart (k k' : Kind) : Prop := ¬ (k = .stringContent ∧ k' = .stringContent)

theorem isChain_cons_apart {k : Kind} (hk : k ≠ .stringContent) {kinds : List Kind}
    (h : kinds.IsChain Apart) : (k :: kinds).IsChain Apart :=
  List.isChain_cons.2 ⟨fun _ _ hboth => hk hboth.1, h⟩

/-- A lexeme between quotes at the front of `cs`: only its pieces are faulty, and what stands between
its escapes is one piece without a quote or a backslash. -/
structure Quoted (cs : List Char) (l : Lexeme) : Prop where
  fault : l.fault = none
  plain : ∀ w ∈ parts cs l.pieces, w.1 = .stringContent →
    ∀ c ∈ w.2, StringLiteral.isPlain c = true
  apart : (l.pieces.map (·.1)).IsChain Apart

theorem escape_piece_ne (e : Escape) : e.piece.1 ≠ .stringContent := by
  unfold Escape.piece
  dsimp only
  split <;> nofun

theorem contentPiece?_ne {cs : List Char} {p : Kind × Nat}
    (h : QuoteMark.contentPiece? cs = some p) : p.1 ≠ .stringContent := by
  unfold QuoteMark.contentPiece? at h
  split at h
  · exact nomatch h
  · obtain rfl := Option.some.inj h
    exact escape_piece_ne _
  · obtain ⟨-, h⟩ := Option.ite_none_left_eq_some.1 h
    obtain rfl := Option.some.inj h
    exact nofun

theorem quoted_character {lead : Nat} {flags : TokenFlags} {cs : List Char} {l : Lexeme}
    (text : List Char) (h : QuoteMark.character? lead flags cs = some l) : l.Quoted text := by
  unfold QuoteMark.character? at h
  split at h
  · exact nomatch h
  · next kind length hcontent =>
    have hkind : kind ≠ .stringContent := contentPiece?_ne hcontent
    obtain ⟨-, h⟩ := Option.ite_none_right_eq_some.1 h
    obtain rfl := Option.some.inj h
    refine ⟨rfl, fun w hw hk => ?_, ?_⟩
    · simp only [parts, List.mem_cons, List.not_mem_nil, or_false] at hw
      rcases hw with rfl | rfl | rfl
      · exact nomatch hk
      · exact absurd hk hkind
      · exact nomatch hk
    · show [Kind.charStart, kind, .charEnd].IsChain Apart
      exact isChain_cons_apart (by decide)
        (isChain_cons_apart hkind (isChain_cons_apart (by decide) .nil))

/-- A run of plain characters before a piece of another kind. -/
theorem string_content {cs : List Char} {k : Kind} {n : Nat} {more : List (Kind × Nat)}
    (hk : k ≠ .stringContent)
    (hplain : ∀ w ∈ parts (cs.drop (cs.takeWhile StringLiteral.isPlain).length) ((k, n) :: more),
      w.1 = .stringContent → ∀ c ∈ w.2, StringLiteral.isPlain c = true)
    (hapart : (((k, n) :: more).map (·.1)).IsChain Apart) :
    (∀ w ∈ parts cs (StringLiteral.contentPiece (cs.takeWhile StringLiteral.isPlain).length ++
        (k, n) :: more), w.1 = .stringContent → ∀ c ∈ w.2, StringLiteral.isPlain c = true) ∧
      ((StringLiteral.contentPiece (cs.takeWhile StringLiteral.isPlain).length ++
        (k, n) :: more).map (·.1)).IsChain Apart := by
  refine ⟨fun w hw => ?_, ?_⟩
  · rw [parts_append, stringContent_sound.1] at hw
    rcases List.mem_append.1 hw with hw | hw
    · unfold StringLiteral.contentPiece at hw
      split at hw
      · exact absurd hw List.not_mem_nil
      · obtain rfl := List.mem_singleton.1 hw
        exact fun _ c hc => Text.of_mem_take_takeWhile hc
    · exact hplain w hw
  · unfold StringLiteral.contentPiece
    split
    · exact hapart
    · refine List.isChain_cons.2 ⟨fun k' hk' hboth => ?_, hapart⟩
      obtain rfl := Option.some.inj hk'
      exact hk hboth.2

theorem string_pieces {cs : List Char} {pieces : List (Kind × Nat)}
    (h : StringLiteral.pieces? cs = some pieces) :
    (∀ w ∈ parts cs pieces, w.1 = .stringContent → ∀ c ∈ w.2, StringLiteral.isPlain c = true) ∧
      (pieces.map (·.1)).IsChain Apart := by
  fun_induction StringLiteral.pieces? cs generalizing pieces with
  | case1 => cases h
  | case2 cs plain rest =>
    obtain rfl := Option.some.inj h
    refine string_content (by decide) (fun w hw hk => ?_) (isChain_cons_apart (by decide) .nil)
    obtain rfl := List.mem_singleton.1 hw
    cases hk
  | case3 cs plain c rest hdrop _ escape =>
    rename_i ih
    obtain ⟨more, hmore, rfl⟩ := Option.map_eq_some_iff.1 h
    obtain ⟨hplain, hapart⟩ := ih hmore
    refine string_content (escape_piece_ne escape) (fun w hw hk => ?_)
      (isChain_cons_apart (escape_piece_ne escape) hapart)
    rcases List.mem_cons.1 hw with rfl | hw
    · exact absurd hk (escape_piece_ne escape)
    · -- behind the escape the string goes on as the induction has it
      have hskip : (cs.drop plain).drop escape.length = rest.drop (escape.length - 1) := by
        have hpos : 0 < escape.length := (scan_length_bounds true rest).1
        rw [hdrop, ← Nat.sub_add_cancel hpos, List.drop_succ_cons]
        rfl
      exact hplain w (hskip ▸ hw) hk

theorem quoted_string {lead : Nat} {flags : TokenFlags} {before cs : List Char}
    (hb : before.length = lead + 1) (hk : (StringLiteral.scan lead flags cs).kind = .stringToken) :
    (StringLiteral.scan lead flags cs).Quoted (before ++ cs) := by
  unfold StringLiteral.scan at hk ⊢
  cases hpieces : StringLiteral.pieces? cs with
  | none =>
    rw [hpieces] at hk
    exact nomatch hk
  | some more =>
    obtain ⟨hplain, hapart⟩ := string_pieces hpieces
    refine ⟨rfl, fun w hw hcontent => ?_, ?_⟩
    · rcases List.mem_cons.1 hw with rfl | hw
      · exact nomatch hcontent
      · rw [← hb, List.drop_left] at hw
        exact hplain w hw hcontent
    · show (Kind.stringStart :: more.map (·.1)).IsChain Apart
      exact isChain_cons_apart (by decide) hapart

/-- What is recognised as a string or a character is one between quotes. -/
theorem Recognized.quoted [Text.Xid] {admitted : Admitted} {cs : List Char} {l : Lexeme}
    (h : Recognized admitted cs l) (hk : l.kind = .stringToken ∨ l.kind = .charToken) :
    l.Quoted cs := by
  have hother {k : Kind} (he : l.kind = k) (hs : k ≠ .stringToken ∧ k ≠ .charToken) :
      l.Quoted cs :=
    hk.elim (fun h => absurd (he.symm.trans h) hs.1) fun h => absurd (he.symm.trans h) hs.2
  cases h with
  | suffix | lifetime | unclosed => exact hk.elim nofun nofun
  | lineComment => exact hother (line_kind _) (by decide)
  | blockComment =>
    rcases block_kind _ with h | h
    · exact hother h (by decide)
    · exact hother h (by decide)
  | char _ _ h => exact quoted_character _ h
  | string _ lead cs =>
    rcases string_kind lead.letters.length lead.flags cs with h | h
    · have htext : lead.letters ++ '"' :: cs = lead.letters ++ ['"'] ++ cs := by simp
      rw [htext]
      exact quoted_string (by simp) h
    · exact hother h (by decide)
  | rawString _ _ h =>
    rcases rawString_kind h with h | h
    · exact hother h (by decide)
    · exact hother h (by decide)
  | number =>
    rcases number_kind _ _ with h | h
    · exact hother h (by decide)
    · exact hother h (by decide)

/-- **Pieces tile their token**, whatever is admitted: they are not empty, each begins where the one
before ends, the first one where the token begins and the last one ends where the token does, and all
ends lie between two characters. In a string or a character the faults are those of its pieces that
could not be read, one each and in order; what else stands in a string is in pieces without a quote or
a backslash, of which no two are neighbours. -/
theorem pieces_tile [Text.Xid] {source : String} {offset : Nat} {cs : List Char}
    (hplace : Place source.toList offset cs) (admitted : Admitted) {t : Token}
    (ht : (contextual? admitted cs).map (·.place offset cs) = some t) (hne : t.pieces ≠ []) :
    (Pieces t.range.start t.pieces t.range.stop ∧
      ∀ p ∈ t.pieces, (∃ rest, Place source.toList p.range.start rest) ∧
        ∃ rest, Place source.toList p.range.stop rest) ∧
    (t.kind = .stringToken ∨ t.kind = .charToken →
      t.faults = (t.pieces.filter (·.kind = .errorSentinel)).map
        (fun p => ⟨.invalidEscape, p.range⟩) ∧
      (∀ p ∈ t.pieces, p.kind = .stringContent →
        ∀ c ∈ (p.range.slice source).toList, c ≠ '"' ∧ c ≠ '\\') ∧
      t.pieces.IsChain fun p q => ¬ (p.kind = .stringContent ∧ q.kind = .stringContent)) := by
  obtain ⟨l, hl, rfl⟩ := Option.map_eq_some_iff.1 ht
  refine ⟨⟨(contextual_fits hl).place_pieces offset |>.resolve_left hne, fun p hp => ?_⟩,
    fun hk => ?_⟩
  · obtain ⟨w, -, -, hspells⟩ := spells_of_mem_pieces hplace hp
    exact hspells.places
  · obtain ⟨hfault, hplain, hapart⟩ := (recognized_of_contextual hl).quoted hk
    refine ⟨?_, fun p hp hcontent c hc => ?_, ?_⟩
    · simp only [place, hfault, Option.map_none, Option.toList_none, List.nil_append]
      exact filterMap_pieceFault? _
    · obtain ⟨w, hw, hkind, hspells⟩ := spells_of_mem_pieces hplace hp
      rw [hspells.slice_eq, String.toList_ofList] at hc
      have h := hplain w hw (hkind ▸ hcontent) c hc
      unfold StringLiteral.isPlain at h
      rwa [Bool.and_eq_true, bne_iff_ne, bne_iff_ne] at h
    · rw [← map_kind_placePieces offset cs l.pieces, List.isChain_map] at hapart
      exact hapart

/-- An unknown escape and one that is known, behind a character of two bytes. -/
theorem pieces_tile_escapes :
    ∃ t : Token, (contextual? .usual "b\"é\\q\\n\"".toList).map
        (·.place 1 "b\"é\\q\\n\"".toList) = some t ∧
      t.pieces = [⟨.stringStart, 1, 3⟩, ⟨.stringContent, 3, 5⟩, ⟨.errorSentinel, 5, 7⟩,
        ⟨.escapeSequence, 7, 9⟩, ⟨.stringEnd, 9, 10⟩] ∧
      Pieces t.range.start t.pieces t.range.stop ∧ t.faults = [⟨.invalidEscape, 5, 7⟩] := by
  refine ⟨_, rfl, by decide +kernel, ?_⟩
  have hplace : Place "=b\"é\\q\\n\"".toList 1 "b\"é\\q\\n\"".toList := ⟨['='], rfl, rfl⟩
  have htile := pieces_tile hplace .usual rfl (by decide +kernel)
  exact ⟨htile.1.1, (htile.2 (.inl (by decide +kernel))).1.trans (by decide +kernel)⟩

end Lexeme

end ConcreteSyntax
