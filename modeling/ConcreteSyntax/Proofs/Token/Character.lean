import ConcreteSyntax.Proofs.Token.ReadAt
import Mathlib.Data.List.TakeWhile

/-! # Lifetimes and characters

A quote begins a character when one escape or one plain character stands before the next quote
(`QuoteMark.Content`), and is a lifetime's when a name follows and no second quote comes right after
its first character. The scanner asks for the end of the name, for the name `static`, and for a
character where there is none; together these come to that rule (`QuoteMark.readAt_quote`). An
escape is taken for one whether it means something or not (`QuoteMark.Escaped`); behind its first
character none goes on past a quote, so the quote tells where it ends (`Escape.scan_escaped`). -/

namespace ConcreteSyntax

open Text (byteLength)

namespace QuoteMark

/-! ### What stands between the quotes -/

/-- What a backslash takes along, and whether it means something then. A byte takes up to two
digits, a code point those in its braces; any other character stands alone. -/
inductive Escaped : List Char → Bool → Prop
  | simple {c : Char} (h : Escape.isSimple c = true) : Escaped [c] true
  | byte {digits : List Char} (h : ∀ d ∈ digits, Text.isHexDigit d = true)
      (hle : digits.length ≤ 2) : Escaped ('x' :: digits) (digits.length == 2)
  | codePoint {digits : List Char} (h : ∀ d ∈ digits, (Text.isHexDigit d || d == '_') = true) :
      Escaped ('u' :: '\x7b' :: (digits ++ ['\x7d'])) (1 ≤ digits.length && digits.length ≤ 6)
  | cut {digits : List Char} (h : ∀ d ∈ digits, (Text.isHexDigit d || d == '_') = true) :
      Escaped ('u' :: '\x7b' :: digits) false
  | other {c : Char} (hsimple : Escape.isSimple c = false) (hbyte : c ≠ 'x') : Escaped [c] false

/-- What may stand between the quotes of a character, and the kind of its piece. A backslash always
begins an escape. -/
inductive Content : List Char → Kind → Prop
  | char {c : Char} (hquote : c ≠ '\'') (hbreak : c ≠ '\n' ∧ c ≠ '\r') (hescape : c ≠ '\\') :
      Content [c] .charContent
  | escape {cs : List Char} {valid : Bool} (h : Escaped cs valid) :
      Content ('\\' :: cs) (if valid then .escapeSequence else .errorSentinel)

/-- The token of a character: its pieces lie side by side, and a content that is no valid escape is
its only fault. -/
def characterToken (offset : Nat) (content : List Char) (kind : Kind) : Token :=
  let opened := offset + 1
  let closing := opened + byteLength content
  { kind := .charToken
    range := ⟨offset, closing + 1⟩
    pieces := [⟨.charStart, offset, opened⟩, ⟨kind, opened, closing⟩,
      ⟨.charEnd, closing, closing + 1⟩]
    faults := if kind = .errorSentinel then [⟨.invalidEscape, opened, closing⟩] else [] }

end QuoteMark

open QuoteMark (Escaped Content characterToken)

/-! ### Escapes before a quote -/

theorem Text.takeWhile_before_quote {p : Char → Bool} {run : List Char} {c : Char}
    (hrun : ∀ d ∈ run, p d = true) (hc : p c = false) (rest : List Char) :
    ((run ++ c :: rest).takeWhile p) = run := by
  rw [List.takeWhile_append_of_pos hrun, List.takeWhile_cons_of_neg (by simp [hc]),
    List.append_nil]

/-- An escape before a quote is taken as it is. -/
theorem Escape.scan_escaped {cs : List Char} {valid : Bool} (h : Escaped cs valid)
    (rest : List Char) : Escape.scan false (cs ++ '\'' :: rest) = ⟨cs.length + 1, valid⟩ := by
  -- a character other than `x` with no brace behind it is an escape alone
  have halone {c : Char} (hbyte : c ≠ 'x') :
      Escape.scan false ([c] ++ '\'' :: rest) = ⟨2, Escape.isSimple c⟩ := by
    rw [List.singleton_append, Escape.scan.eq_4 _ _ _ hbyte (fun _ _ h => by simp at h)]
    cases Escape.isSimple c <;> simp
  cases h with
  | @simple c h =>
    have hbyte : c ≠ 'x' := by
      rintro rfl
      exact absurd h (by decide)
    rw [halone hbyte, h]
    rfl
  | @byte digits h hle =>
    have hdigits : ((digits ++ '\'' :: rest).take 2).takeWhile Text.isHexDigit = digits := by
      rw [← List.take_takeWhile, Text.takeWhile_before_quote h (by decide),
        List.take_of_length_le hle]
    simp only [List.cons_append, Escape.scan, hdigits]
    rfl
  | @codePoint digits h =>
    have hrun : (digits ++ '\x7d' :: '\'' :: rest).takeWhile
        (fun c => Text.isHexDigit c || c == '_') = digits :=
      Text.takeWhile_before_quote h (by decide) _
    simp only [List.cons_append, List.append_assoc, List.nil_append, Escape.scan, hrun]
    simp
  | @cut digits h =>
    have hrun : (digits ++ '\'' :: rest).takeWhile
        (fun c => Text.isHexDigit c || c == '_') = digits :=
      Text.takeWhile_before_quote h (by decide) _
    simp only [List.cons_append, Escape.scan, hrun]
    simp
  | other hsimple hbyte =>
    rw [halone hbyte, hsimple]
    rfl

/-- What a backslash takes along is an escape, if it is not the end of the text. -/
theorem Escape.escaped_of_scan {cs : List Char} (h : cs ≠ []) :
    ∃ n, (Escape.scan false cs).length = n + 1 ∧
      Escaped (cs.take n) (Escape.scan false cs).valid := by
  have htake {run : List Char} (cs : List Char) (hrun : run <+: cs) : cs.take run.length = run :=
    (List.prefix_iff_eq_take.1 hrun).symm
  fun_cases Escape.scan false cs with
  | case1 => exact absurd rfl h
  | case2 rest digits =>
    have hrun : (rest.take 2).takeWhile Text.isHexDigit <+: rest :=
      (List.takeWhile_prefix _).trans (List.take_prefix 2 rest)
    refine ⟨digits + 1, rfl, ?_⟩
    rw [List.take_succ_cons, htake rest hrun]
    refine .byte (fun d hd => List.mem_takeWhile_imp hd) ?_
    exact Nat.le_trans (List.takeWhile_prefix _).length_le (List.length_take_le 2 rest)
  | case3 rest digits hclose =>
    have hrun (d : Char) (hd : d ∈ rest.takeWhile fun c => Text.isHexDigit c || c == '_') :
        (Text.isHexDigit d || d == '_') = true := by simpa using List.mem_takeWhile_imp hd
    refine ⟨digits + 3, rfl, ?_⟩
    rw [List.take_succ_cons, List.take_succ_cons, List.take_add_one, hclose,
      htake rest (List.takeWhile_prefix _)]
    exact .codePoint hrun
  | case4 rest digits hopen =>
    have hrun (d : Char) (hd : d ∈ rest.takeWhile fun c => Text.isHexDigit c || c == '_') :
        (Text.isHexDigit d || d == '_') = true := by simpa using List.mem_takeWhile_imp hd
    refine ⟨digits + 2, rfl, ?_⟩
    rw [List.take_succ_cons, List.take_succ_cons, htake rest (List.takeWhile_prefix _)]
    exact .cut hrun
  | case5 c rest hbyte hbrace hsimple => exact ⟨1, rfl, .simple hsimple⟩
  | case6 c rest hbyte hbrace hsimple hbreak => exact absurd hbreak Bool.false_ne_true
  | case7 c rest hbyte hbrace hsimple hbreak =>
    exact ⟨1, rfl, .other (Bool.eq_false_iff.2 hsimple) hbyte⟩

/-! ### The token -/

namespace QuoteMark

section

variable [Text.Xid]

omit [Text.Xid] in
/-- A content before a quote is found. -/
theorem contentPiece?_of_content {content : List Char} {kind : Kind} (h : Content content kind)
    (rest : List Char) :
    contentPiece? (content ++ '\'' :: rest) = some (kind, content.length) := by
  cases h with
  | char hquote hbreak hescape =>
    simp [contentPiece?, hquote, hbreak.1, hbreak.2]
  | escape h =>
    rw [List.cons_append, contentPiece?, Escape.scan_escaped h]
    rfl

omit [Text.Xid] in
/-- What is found before a quote is a content. -/
theorem content_of_contentPiece? {cs : List Char} {kind : Kind} {length : Nat}
    (h : contentPiece? cs = some (kind, length)) (hquote : cs[length]? = some '\'') :
    ∃ content rest, cs = content ++ '\'' :: rest ∧ Content content kind := by
  have hsplit : cs = cs.take length ++ '\'' :: cs.drop (length + 1) := by
    obtain ⟨hlt, hget⟩ := List.getElem?_eq_some_iff.1 hquote
    rw [← hget, ← List.drop_eq_getElem_cons hlt, List.take_append_drop]
  refine ⟨cs.take length, cs.drop (length + 1), hsplit, ?_⟩
  unfold contentPiece? at h
  split at h
  · exact nomatch h
  · next rest =>
    obtain ⟨rfl, rfl⟩ := Prod.mk.inj (Option.some.inj h)
    have hne : rest ≠ [] := by
      rintro rfl
      simp [Escape.scan] at hquote
    obtain ⟨n, hn, hescaped⟩ := Escape.escaped_of_scan hne
    rw [hn, List.take_succ_cons]
    exact .escape hescaped
  · next c rest hescape =>
    split at h
    · exact nomatch h
    · next hplain =>
      obtain ⟨rfl, rfl⟩ := Prod.mk.inj (Option.some.inj h)
      simp only [Bool.or_eq_true, decide_eq_true_eq, not_or] at hplain
      exact .char hplain.1.1 ⟨hplain.1.2, hplain.2⟩ hescape

/-- The character of a content before a quote. -/
def characterLexeme (length : Nat) (kind : Kind) : Lexeme :=
  { kind := .charToken
    length := length + 2
    pieces := [(.charStart, 1), (kind, length), (.charEnd, 1)] }

omit [Text.Xid] in
theorem character?_of_content {content : List Char} {kind : Kind} (h : Content content kind)
    (rest : List Char) :
    character? 0 {} (content ++ '\'' :: rest) = some (characterLexeme content.length kind) := by
  unfold character?
  rw [contentPiece?_of_content h]
  simp [characterLexeme]

omit [Text.Xid] in
/-- A character has a content before its quote. -/
theorem content_of_character? {cs : List Char} {l : Lexeme} (h : character? 0 {} cs = some l) :
    ∃ content kind rest, cs = content ++ '\'' :: rest ∧ Content content kind := by
  unfold character? at h
  split at h
  · exact nomatch h
  · next kind length hpiece =>
    split at h
    · next hquote =>
      obtain ⟨content, rest, hcs, hcontent⟩ := content_of_contentPiece? hpiece hquote
      exact ⟨content, kind, rest, hcs, hcontent⟩
    · exact nomatch h

omit [Text.Xid] in
/-- The character in its place. -/
theorem place_character (offset : Nat) (content rest : List Char) {kind : Kind} :
    (characterLexeme content.length kind).place offset ('\'' :: (content ++ '\'' :: rest)) =
      characterToken offset content kind := by
  have hquote : byteLength ['\''] = 1 := rfl
  have htext : '\'' :: (content ++ '\'' :: rest) = ['\''] ++ (content ++ (['\''] ++ rest)) := by
    simp
  have hpieces : Lexeme.placePieces offset (['\''] ++ (content ++ (['\''] ++ rest)))
      (characterLexeme content.length kind).pieces =
        (characterToken offset content kind).pieces := by
    change Lexeme.placePieces _ _
      [(.charStart, ['\''].length), (kind, content.length), (.charEnd, ['\''].length)] = _
    rw [Lexeme.placePieces_cons, Lexeme.placePieces_cons, Lexeme.placePieces_cons, hquote]
    rfl
  have hrange : byteLength ((['\''] ++ (content ++ (['\''] ++ rest))).take
      (characterLexeme content.length kind).length) = 1 + byteLength content + 1 := by
    rw [← List.append_assoc content, ← List.append_assoc,
      List.take_left' (by simp [characterLexeme])]
    simp only [Text.byteLength_append, hquote, Nat.add_assoc]
  have hfault : (characterToken offset content kind).pieces.filterMap Lexeme.pieceFault? =
      (characterToken offset content kind).faults := by
    unfold characterToken
    by_cases h : kind = .errorSentinel <;> simp [Lexeme.pieceFault?, h]
  unfold Lexeme.place
  rw [htext, hrange, hpieces]
  simp only [hfault]
  simp [characterLexeme, characterToken, Nat.add_assoc]

/-- **A quote begins a character or a lifetime**, where both are admitted. If a name follows, it is
a character when a second quote comes right after the first character of the name, and otherwise a
lifetime's quote, however long the name is. If none follows, it is a character when a content
stands before the next quote, and otherwise an error that begins at the quote. -/
theorem readAt_quote {admitted : Admitted} (hchar : admitted.char = true)
    (hlifetime : admitted.lifetime = true) (cs : List Char) (offset : Nat) :
    (∀ c rest, cs = c :: rest → Text.isIdentifierStart c = true →
      (rest.head? = some '\'' →
        Token.ReadAt admitted offset ('\'' :: cs) (characterToken offset [c] .charContent)) ∧
      (rest.head? ≠ some '\'' →
        Token.ReadAt admitted offset ('\'' :: cs)
          { kind := .quote, range := ⟨offset, offset + 1⟩ })) ∧
    ((∀ c, cs.head? = some c → Text.isIdentifierStart c = false) →
      (∀ content kind rest, cs = content ++ '\'' :: rest → Content content kind →
        Token.ReadAt admitted offset ('\'' :: cs) (characterToken offset content kind)) ∧
      ((∀ content kind rest, cs = content ++ '\'' :: rest → ¬ Content content kind) →
        ∃ stop, Token.ReadAt admitted offset ('\'' :: cs)
          (.endless {} .unterminatedChar ⟨offset, stop⟩))) := by
  have hread {l : Lexeme} (h : scan? admitted cs = some l) :
      Token.ReadAt admitted offset ('\'' :: cs) (l.place offset ('\'' :: cs)) := by
    have hname : Text.identifierPrefix ('\'' :: cs) = [] := by
      simp [Text.identifierPrefix, Text.isIdentifierStart]
    refine Token.readAt_of_contextual (by decide) (fun _ => hname) ?_ offset
    unfold Lexeme.contextual?
    simpa [hname] using h
  refine ⟨?_, fun hnone => ?_⟩
  · rintro c rest rfl hstart
    have hne (d : Char) (hd : Text.isIdentifierStart d = false) : c ≠ d := by
      rintro rfl
      exact absurd (hd.symm.trans hstart) Bool.false_ne_true
    have hcontent : Content [c] .charContent :=
      .char (hne _ rfl) ⟨hne _ rfl, hne _ rfl⟩ (hne _ rfl)
    have hname : Text.identifierPrefix (c :: rest) = c :: rest.takeWhile Text.isIdentifierPart := by
      simp [Text.identifierPrefix, hstart]
    refine ⟨fun hquote => ?_, fun hquote => ?_⟩
    · obtain ⟨more, rfl⟩ := List.head?_eq_some_iff.1 hquote
      have hpart : Text.isIdentifierPart '\'' = false := rfl
      have hcharacter := character?_of_content hcontent more
      have hscan : scan? admitted (c :: '\'' :: more) = some (characterLexeme 1 .charContent) := by
        unfold scan?
        simp only [List.singleton_append] at hcharacter
        simp [hname, hpart, hchar, hcharacter]
      exact place_character offset [c] more ▸ hread hscan
    · have hcharacter : character? 0 {} (c :: rest) = none := by
        refine Option.eq_none_iff_forall_ne_some.2 fun l hl => ?_
        obtain ⟨content, kind, more, hcs, h⟩ := content_of_character? hl
        cases h with
        | char => exact hquote (by rw [(List.cons.inj hcs).2]; rfl)
        | escape => exact hne '\\' rfl (List.cons.inj hcs).1
      have hscan : scan? admitted (c :: rest) = some alone := by
        unfold scan?
        rw [hcharacter]
        simp only [hname, hlifetime, hchar, List.isEmpty_cons, Bool.not_true, Bool.not_false,
          Bool.and_true, Bool.true_and, Bool.false_eq_true, if_true, if_false]
        split <;> rfl
      exact hread hscan
  · have hname : Text.identifierPrefix cs = [] := by
      cases cs with
      | nil => rfl
      | cons c rest => simp [Text.identifierPrefix, hnone c rfl]
    have hscan : scan? admitted cs = some ((character? 0 {} cs).getD (unclosed 0 {} cs)) := by
      unfold scan?
      simp only [hname, hlifetime, hchar, List.isEmpty_nil, Bool.not_true, Bool.and_false,
        Bool.false_and, Bool.false_eq_true, if_false]
      cases character? 0 {} cs <;> rfl
    refine ⟨?_, fun hcontent => ?_⟩
    · rintro content kind rest rfl hcontent
      rw [character?_of_content hcontent] at hscan
      have h := hread hscan
      rwa [Option.getD_some, place_character] at h
    · have hcharacter : character? 0 {} cs = none := by
        refine Option.eq_none_iff_forall_ne_some.2 fun l hl => ?_
        obtain ⟨content, kind, rest, hcs, h⟩ := content_of_character? hl
        exact hcontent content kind rest hcs h
      rw [hcharacter] at hscan
      exact ⟨_, hread hscan⟩

end

/-- A name between two quotes, an escape with too few digits between them, and a line end. -/
theorem readAt_quote_closed :
    Token.ReadAt .usual 0 "'static'".toList { kind := .quote, range := ⟨0, 1⟩ } ∧
      Token.ReadAt .usual 0 "'\\x4'".toList
        { kind := .charToken
          range := ⟨0, 5⟩
          pieces := [⟨.charStart, 0, 1⟩, ⟨.errorSentinel, 1, 4⟩, ⟨.charEnd, 4, 5⟩]
          faults := [⟨.invalidEscape, 1, 4⟩] } ∧
      ∃ stop, Token.ReadAt .usual 0 "'\n'".toList (.endless {} .unterminatedChar ⟨0, stop⟩) := by
  have hescape : Content "\\x4".toList .errorSentinel :=
    .escape (@Escaped.byte ['4'] (fun d hd => List.mem_singleton.1 hd ▸ rfl) (by decide))
  have hnone (c : Char) (hc : Text.isIdentifierStart c = false) (cs : List Char) :
      ∀ d, (c :: cs).head? = some d → Text.isIdentifierStart d = false :=
    fun d hd => Option.some.inj hd ▸ hc
  refine ⟨((readAt_quote rfl rfl _ 0).1 's' "tatic'".toList rfl (by decide)).2 (by decide),
    ((readAt_quote rfl rfl _ 0).2 (hnone '\\' rfl _)).1 "\\x4".toList _ [] rfl hescape,
    ((readAt_quote rfl rfl _ 0).2 (hnone '\n' rfl _)).2 fun content kind rest hcs h => ?_⟩
  cases h with
  | char _ hbreak _ => exact hbreak.1 (List.cons.inj hcs).1.symm
  | escape _ => exact absurd (List.cons.inj hcs).1 (by decide)

end QuoteMark

end ConcreteSyntax
