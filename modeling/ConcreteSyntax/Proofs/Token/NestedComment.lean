import ConcreteSyntax.Proofs.Token.ReadAt

/-! # Block comments nest

A block comment is an opening mark, items, and a closing mark; an item is a block comment, or one
character at which no mark begins (`Comment.Items`, `Comment.Nested`). The scanner only counts the
marks that are open (`Comment.closeLength?`), which comes to the same: the comment that is read is
the front of the text that the grammar derives, if there is one (`Comment.readAt_block`). Counting
from `depth` open comments is related to as many closing marks with items before them
(`Comment.Closes`). -/

namespace ConcreteSyntax

open Text (byteLength)

namespace Comment

/-! ### The grammar -/

/-- Items stand at the front of a text, and this is left behind them. -/
inductive Items : List Char → List Char → Prop
  | none {cs : List Char} : Items cs cs
  | comment {body cs rest : List Char} (inner : Items body ('*' :: '/' :: cs))
      (more : Items cs rest) : Items ('/' :: '*' :: body) rest
  | char {c : Char} {cs rest : List Char} (hopen : ¬ ['/', '*'] <+: c :: cs)
      (hclose : ¬ ['*', '/'] <+: c :: cs) (more : Items cs rest) : Items (c :: cs) rest

/-- A text is a block comment: items between two marks. -/
def Nested (cs : List Char) : Prop :=
  ∃ body, cs = '/' :: '*' :: body ∧ Items body ['*', '/']

/-- Items and a closing mark, as often as one comment more than `depth` asks for. -/
def Closes : Nat → List Char → Prop
  | 0, cs => Items cs ['*', '/']
  | depth + 1, cs => ∃ rest, Items cs ('*' :: '/' :: rest) ∧ Closes depth rest

theorem Closes.prepend {cs ds : List Char} (h : ∀ {rest}, Items ds rest → Items cs rest)
    {depth : Nat} (hd : Closes depth ds) : Closes depth cs := by
  cases depth with
  | zero => exact h hd
  | succ depth =>
    obtain ⟨rest, hitems, hrest⟩ := hd
    exact ⟨rest, h hitems, hrest⟩

/-! ### The count -/

/-- The count reaches to where as many comments are closed as are open. -/
theorem closes_take {depth n : Nat} {cs : List Char} (h : closeLength? depth cs = some n) :
    Closes depth (cs.take n) := by
  fun_induction closeLength? depth cs generalizing n with
  | case1 => simp at h
  | case2 cs =>
    obtain rfl : 2 = n := by simpa using h
    exact .none
  | case3 depth cs hne ih =>
    obtain ⟨m, hm, rfl⟩ := Option.map_eq_some_iff.1 h
    obtain ⟨depth, rfl⟩ := Nat.exists_eq_succ_of_ne_zero hne
    exact ⟨cs.take m, .none, ih hm⟩
  | case4 depth cs ih =>
    obtain ⟨m, hm, rfl⟩ := Option.map_eq_some_iff.1 h
    obtain ⟨rest, hitems, hrest⟩ := ih hm
    exact hrest.prepend fun hmore => .comment hitems hmore
  | case5 depth c cs hstar hslash ih =>
    obtain ⟨m, hm, rfl⟩ := Option.map_eq_some_iff.1 h
    -- a mark at the front of what is taken would be one at the front of the text
    have hno {d e : Char} (hde : ∀ ds, c = d → cs = e :: ds → False) :
        ¬ [d, e] <+: c :: cs.take m := by
      intro hp
      obtain ⟨ds, hds⟩ := hp.trans (List.prefix_cons_inj c |>.2 (List.take_prefix m cs))
      obtain ⟨hd, htail⟩ := List.cons.inj hds
      exact hde ds hd.symm htail.symm
    exact (ih hm).prepend fun hmore => .char (hno hslash) (hno hstar) hmore

/-- Items are counted as a whole, however many comments are open around them. -/
theorem Items.closeLength {cs rest : List Char} (h : Items cs rest) :
    ∃ front, cs = front ++ rest ∧
      ∀ depth, closeLength? depth cs = (closeLength? depth rest).map (· + front.length) := by
  induction h with
  | none => exact ⟨[], rfl, fun depth => by simp⟩
  | comment _ _ ihinner ihmore =>
    obtain ⟨inner, rfl, hinner⟩ := ihinner
    obtain ⟨front, rfl, hmore⟩ := ihmore
    refine ⟨'/' :: '*' :: (inner ++ '*' :: '/' :: front), by simp, fun depth => ?_⟩
    -- the comment inside is open while its items are counted, and its mark closes it
    have hclose (cs : List Char) :
        closeLength? (depth + 1) ('*' :: '/' :: cs) = (closeLength? depth cs).map (· + 2) := by
      simp [closeLength?]
    rw [closeLength?, hinner, hclose, hmore]
    simp only [Option.map_map, List.length_cons, List.length_append]
    congr 1
    funext n
    simp only [Function.comp_apply]
    omega
  | @char c cs _ hopen hclose _ ih =>
    obtain ⟨front, rfl, hmore⟩ := ih
    refine ⟨c :: front, rfl, fun depth => ?_⟩
    rw [closeLength?.eq_4 _ _ _ (fun ds hc hcs => hclose (by rw [hc, hcs]; exact ⟨ds, rfl⟩))
      (fun ds hc hcs => hopen (by rw [hc, hcs]; exact ⟨ds, rfl⟩)), hmore, Option.map_map]
    rfl

/-- **The count finds the comment** that the grammar derives. -/
theorem closeLength?_eq_some_iff {body : List Char} {n : Nat} :
    closeLength? 0 body = some n ↔
      n ≤ body.length ∧ Nested ('/' :: '*' :: body.take n) := by
  constructor
  · intro h
    exact ⟨(Lexeme.closeLength_bounds h).2, _, rfl, closes_take h⟩
  · rintro ⟨hle, body', heq, hitems⟩
    obtain rfl : body.take n = body' := by simpa using heq
    obtain ⟨front, hfront, hcount⟩ := hitems.closeLength
    have hlength : n = front.length + 2 := by
      have h := congrArg List.length hfront
      rw [List.length_take, Nat.min_eq_left hle, List.length_append] at h
      exact h
    have hclose : closeLength? 0 (body.take n) = some n := by
      rw [hcount 0, hlength, Nat.add_comm]
      rfl
    have h := closeLength?_append (body.drop n) hclose
    rwa [List.take_append_drop] at h

/-- The count of a comment is the same whatever follows. -/
theorem Nested.closeLength {body : List Char} (h : Nested ('/' :: '*' :: body)) (rest : List Char) :
    closeLength? 0 (body ++ rest) = some body.length :=
  closeLength?_eq_some_iff.2 ⟨by simp, by rwa [List.take_left]⟩

/-- At most one prefix of a text is a comment. -/
theorem Nested.unique {comment comment' rest rest' : List Char} (h : Nested comment)
    (h' : Nested comment') (htext : comment ++ rest = comment' ++ rest') : comment = comment' := by
  obtain ⟨body, rfl, -⟩ := id h
  obtain ⟨body', rfl, -⟩ := id h'
  have hbody : body ++ rest = body' ++ rest' := by simpa using htext
  have hlength : body.length = body'.length := by
    have hclose := h.closeLength rest
    rw [hbody, h'.closeLength rest'] at hclose
    exact (Option.some.inj hclose).symm
  rw [List.append_inj_left hbody hlength]

/-- What stands between the marks of a comment does not begin with the closing mark. -/
theorem Nested.between {comment : List Char} (h : Nested comment) :
    ∃ inner, comment = '/' :: '*' :: (inner ++ ['*', '/']) ∧ ¬ ['*', '/'] <+: inner := by
  obtain ⟨body, rfl, hitems⟩ := h
  obtain ⟨inner, rfl, -⟩ := hitems.closeLength
  refine ⟨inner, rfl, ?_⟩
  rintro ⟨more, rfl⟩
  -- only no item at all stands before a closing mark
  generalize hcs : ['*', '/'] ++ more ++ ['*', '/'] = cs at hitems
  cases hitems with
  | none => simpa using congrArg List.length hcs
  | comment => exact nomatch hcs
  | char _ hclose _ => exact hclose ⟨more ++ ['*', '/'], by rw [← hcs, List.append_assoc]⟩

/-! ### The token -/

/-- The marker that makes a block comment a doc comment, and how the token is marked. -/
def docMarker? : List Char → Option (Kind × TokenFlags)
  | '/' :: '*' :: '!' :: _ => some (.innerDocCommentMarker, { innerDoc := true })
  | '/' :: '*' :: '*' :: c :: _ =>
    if c = '*' ∨ c = '/' then none else some (.outerDocCommentMarker, { outerDoc := true })
  | _ => none

/-- The pieces of a doc comment: what stands between its marks falls into marker and content. -/
def docPieces (marker : Kind) (start stop : Nat) : List Piece :=
  [⟨.blockCommentStart, start, start + 2⟩, ⟨marker, start + 2, start + 3⟩] ++
    (if start + 3 < stop - 2 then [⟨.docComment, start + 3, stop - 2⟩] else []) ++
    [⟨.blockCommentEnd, stop - 2, stop⟩]

/-- The token of a block comment. -/
def token (offset : Nat) (comment : List Char) : Token :=
  let stop := offset + byteLength comment
  match docMarker? comment with
  | none => { kind := .blockComment, range := ⟨offset, stop⟩ }
  | some (marker, flags) =>
    { kind := .blockComment
      range := ⟨offset, stop⟩
      flags
      pieces := docPieces marker offset stop }

/-- The marker is the first character between the marks. -/
theorem blockDoc?_eq {inner : List Char} (h : ¬ ['*', '/'] <+: inner) :
    blockDoc? inner = (docMarker? ('/' :: '*' :: (inner ++ ['*', '/']))).map
      fun m => (m.1, m.2, inner.length - 1) := by
  unfold blockDoc?
  split
  · rfl
  · rfl
  · rfl
  · next content hstar hstars =>
    obtain _ | ⟨c, content⟩ := content
    · exact absurd rfl hstar
    · have hc : ¬ (c = '*' ∨ c = '/') := by
        rintro (rfl | rfl)
        · exact hstars content rfl
        · exact h ⟨content, rfl⟩
      simp [docMarker?, hc]
  · next hbang hone htwo hstar =>
    obtain _ | ⟨c, content⟩ := inner
    · rfl
    · have hc : c ≠ '!' ∧ c ≠ '*' :=
        ⟨fun hc => hbang content (by rw [hc]), fun hc => hstar content (by rw [hc])⟩
      simp [docMarker?, hc]

/-- The pieces of a doc comment in their place. -/
theorem placePieces_doc (marker : Kind) {c : Char} (hc : c.utf8Size = 1) (offset : Nat)
    (content rest : List Char) :
    Lexeme.placePieces offset ('/' :: '*' :: c :: (content ++ '*' :: '/' :: rest))
      ((.blockCommentStart, 2) :: (marker, 1) ::
        (contentPiece .docComment content.length ++ [(.blockCommentEnd, 2)])) =
      docPieces marker offset (offset + (byteLength content + 5)) := by
  have hmarker : byteLength [c] = 1 := by
    rw [Text.byteLength_cons, hc]
    rfl
  have hend (start : Nat) :
      Lexeme.placePieces start ('*' :: '/' :: rest) [(.blockCommentEnd, 2)] =
        [⟨.blockCommentEnd, start, start + 2⟩] :=
    Lexeme.placePieces_cons start .blockCommentEnd ['*', '/'] rest []
  have hcontent (start : Nat) : Lexeme.placePieces start (content ++ '*' :: '/' :: rest)
      (contentPiece .docComment content.length ++ [(.blockCommentEnd, 2)]) =
        (if 0 < byteLength content then [⟨.docComment, start, start + byteLength content⟩]
          else []) ++
          [⟨.blockCommentEnd, start + byteLength content, start + byteLength content + 2⟩] := by
    cases content with
    | nil => exact hend start
    | cons d content =>
      rw [if_pos (Text.byteLength_pos (List.cons_ne_nil d content))]
      exact (Lexeme.placePieces_cons start .docComment _ _ _).trans (congrArg _ (hend _))
  have hmarks (more : List (Kind × Nat)) :
      Lexeme.placePieces offset (['/', '*'] ++ ([c] ++ (content ++ '*' :: '/' :: rest)))
        ((.blockCommentStart, ['/', '*'].length) :: (marker, [c].length) :: more) =
        ⟨.blockCommentStart, offset, offset + 2⟩ :: ⟨marker, offset + 2, offset + 3⟩ ::
          Lexeme.placePieces (offset + 3) (content ++ '*' :: '/' :: rest) more := by
    rw [Lexeme.placePieces_cons, Lexeme.placePieces_cons, hmarker]
    rfl
  refine (hmarks _).trans ?_
  rw [hcontent]
  have hstop : offset + (byteLength content + 5) - 2 = offset + 3 + byteLength content := by omega
  have hpos : offset + 3 < offset + 3 + byteLength content ↔ 0 < byteLength content := by omega
  unfold docPieces
  rw [hstop, show offset + (byteLength content + 5) = offset + 3 + byteLength content + 2 by omega]
  simp only [hpos, List.cons_append, List.nil_append]

/-- A marker is a single character between the marks. -/
theorem docMarker?_eq_some {inner : List Char} {marker : Kind} {flags : TokenFlags}
    (h : docMarker? ('/' :: '*' :: (inner ++ ['*', '/'])) = some (marker, flags)) :
    marker ≠ .errorSentinel ∧ ∃ c content, inner = c :: content ∧ c.utf8Size = 1 := by
  obtain _ | ⟨c, content⟩ := inner
  · simp [docMarker?] at h
  · simp only [List.cons_append] at h
    unfold docMarker? at h
    split at h
    · next heq =>
      obtain ⟨rfl, -⟩ : _ ∧ _ := by simpa using h
      obtain ⟨rfl, -⟩ : c = '!' ∧ _ := by simpa using heq
      exact ⟨nofun, '!', content, rfl, rfl⟩
    · next heq =>
      obtain ⟨rfl, -⟩ : c = '*' ∧ _ := by simpa using heq
      split at h
      · exact nomatch h
      · obtain ⟨rfl, -⟩ : _ ∧ _ := by simpa using h
        exact ⟨nofun, '*', content, rfl, rfl⟩
    · exact nomatch h

/-- What the scanner makes of a comment. -/
theorem block_place {comment : List Char} (h : Nested comment) {body rest : List Char}
    (htext : '/' :: '*' :: body = comment ++ rest) (offset : Nat) :
    (block body).place offset ('/' :: '*' :: body) = token offset comment := by
  obtain ⟨inner, hcomment, hinner⟩ := h.between
  obtain rfl : body = inner ++ ['*', '/'] ++ rest := by
    rw [hcomment] at htext
    simpa using htext
  have hclose : closeLength? 0 (inner ++ ['*', '/'] ++ rest) = some (inner.length + 2) := by
    rw [hcomment] at h
    rw [h.closeLength rest, List.length_append]
    rfl
  have htake : (inner ++ ['*', '/'] ++ rest).take inner.length = inner := by simp
  have hrange : byteLength
      (('/' :: '*' :: (inner ++ ['*', '/'] ++ rest)).take (inner.length + 2 + 2)) =
        byteLength comment := by
    rw [htext, List.take_left' (by simp [hcomment])]
  unfold block token
  rw [hclose]
  simp only [Nat.add_sub_cancel, htake, blockDoc?_eq hinner, ← hcomment]
  cases hmarker : docMarker? comment with
  | none => simp only [Option.map_none, Lexeme.place, Lexeme.plain, hrange]; rfl
  | some m =>
    obtain ⟨marker, flags⟩ := m
    rw [hcomment] at hmarker
    obtain ⟨hkind, c, content, rfl, hc⟩ := docMarker?_eq_some hmarker
    have hstop : offset + byteLength comment = offset + (byteLength content + 5) := by
      have hmarks : byteLength ['*', '/'] = 2 ∧ ('/' : Char).utf8Size = 1 ∧
          ('*' : Char).utf8Size = 1 := ⟨rfl, rfl, rfl⟩
      rw [hcomment]
      simp only [Text.byteLength_cons, Text.byteLength_append, List.cons_append, hc, hmarks.1,
        hmarks.2.1, hmarks.2.2]
      omega
    have hpieces := placePieces_doc marker hc offset content rest
    have hread : (docPieces marker offset (offset + (byteLength content + 5))).filterMap
        Lexeme.pieceFault? = [] := by
      unfold docPieces
      split <;> simp [Lexeme.pieceFault?, hkind]
    have hcs : c :: content ++ ['*', '/'] ++ rest = c :: (content ++ '*' :: '/' :: rest) := by simp
    simp only [Option.map_some, Lexeme.place, hrange, hstop]
    simp only [hcs, List.length_cons, Nat.add_sub_cancel, hpieces, hread]
    rfl

/-- Comments that were found before stay in front of those that are found next. -/
theorem skip_comments [Text.Xid] (admitted : Admitted) (offset : Nat) (lineBreak : Bool)
    (comments : Array Token) (cs : List Char) :
    comments.toList <+:
      (Trivia.skip Lexeme.contextual? admitted offset lineBreak comments cs).comments.toList := by
  fun_induction Trivia.skip Lexeme.contextual? admitted offset lineBreak comments cs with
  | case1 | case6 => exact List.prefix_rfl
  | case2 offset lineBreak comments c rest hw ih => exact ih
  | case3 offset lineBreak comments c rest hw hslash hl =>
    simp only [hl]
    exact List.prefix_rfl
  | case4 offset lineBreak comments c rest hw hslash l hcomment hl token ih =>
    simp only [hl, hcomment, if_true]
    rw [Array.toList_push] at ih
    exact (List.prefix_append _ _).trans ih
  | case5 offset lineBreak comments c rest hw hslash l hcomment hl =>
    simp only [hl, hcomment]
    exact List.prefix_rfl

section

variable [Text.Xid] {admitted : Admitted}

/-- The comments that are collected are those that are skipped. -/
theorem leading_scanPastTrivia {s : Scanner} (hcut : s.here.cut = 0) :
    (s.scanPastTrivia Lexeme.contextual? admitted).leading =
      (Trivia.skip Lexeme.contextual? admitted s.here.offset false #[]
        s.here.rest).comments.toList := by
  unfold Scanner.scanPastTrivia
  rw [if_neg (fun h => h hcut)]
  simp only
  split
  · rfl
  · unfold Scanner.markLineBreak Scanner.readToken
    split <;> split <;> rfl

/-- A block comment is recognised where it is admitted. -/
theorem contextual?_block (ha : admitted.blockComment = true) (body : List Char) :
    Lexeme.contextual? admitted ('/' :: '*' :: body) = some (block body) := by
  have hname : Text.identifierPrefix ('/' :: '*' :: body) = [] := by
    simp [Text.identifierPrefix, Text.isIdentifierStart]
  unfold Lexeme.contextual?
  simp [hname, ha, Lexeme.onlyIf]

/-- Behind an opening mark the scanner goes on as behind white space: no suffix begins there. -/
theorem scan_block {body : List Char} {offset : Nat} {s : Scanner}
    (hhere : s.here = { offset, rest := '/' :: '*' :: body }) :
    s.scan Lexeme.contextual? admitted =
      { s with leading := [] }.scanPastTrivia Lexeme.contextual? admitted := by
  have hsuffix : Lexeme.contextual? .suffixOnly ('/' :: '*' :: body) = none :=
    Lexeme.contextual?_suffixOnly (by simp [Text.identifierPrefix, Text.isIdentifierStart])
  unfold Scanner.scan
  simp [hhere, hsuffix, Scanner.shebang?]

/-- The comment is skipped, if it ends. -/
theorem skip_block (ha : admitted.blockComment = true) (body : List Char) (offset : Nat) :
    Trivia.skip Lexeme.contextual? admitted offset false #[] ('/' :: '*' :: body) =
      if (block body).kind.isComment then
        let token := (block body).place offset ('/' :: '*' :: body)
        Trivia.skip Lexeme.contextual? admitted token.range.stop false #[token]
          (('*' :: body).drop ((block body).length - 1))
      else
        { cursor := { offset, rest := '/' :: '*' :: body }, lineBreak := false, comments := #[],
          endless := some (block body) } := by
  have hblank : Text.isWhiteSpace '/' = false := by decide
  have hany : admitted.anyComment = true := by simp [Admitted.anyComment, ha]
  rw [Trivia.skip.eq_def]
  simp only [hblank, hany, Bool.false_eq_true, if_false, decide_true, Bool.and_self, if_true,
    contextual?_block (show admitted.comments.blockComment = true from ha)]
  rfl

/-- **Block comments nest.** Where block comments are admitted, a text that begins with the opening
mark begins with the token of the one prefix that is a comment, and a scanner that stands there
collects it; if no prefix is a comment, it is an error up to the end of the text. -/
theorem readAt_block (ha : admitted.blockComment = true) (body : List Char) (offset : Nat) :
    (∀ comment rest, '/' :: '*' :: body = comment ++ rest → Nested comment →
      (Lexeme.contextual? admitted ('/' :: '*' :: body)).map
          (·.place offset ('/' :: '*' :: body)) = some (token offset comment) ∧
        (∀ s : Scanner, s.here = { offset, rest := '/' :: '*' :: body } →
          (s.scan Lexeme.contextual? admitted).leading.head? = some (token offset comment)) ∧
        ∀ comment' rest', '/' :: '*' :: body = comment' ++ rest' → Nested comment' →
          comment' = comment) ∧
    ((∀ comment rest, '/' :: '*' :: body = comment ++ rest → ¬ Nested comment) →
      Token.ReadAt admitted offset ('/' :: '*' :: body)
        (.endless {} .unterminatedBlockComment
          ⟨offset, offset + byteLength ('/' :: '*' :: body)⟩)) := by
  have hread := contextual?_block ha body
  refine ⟨fun comment rest htext h => ⟨?_, fun s hhere => ?_, fun comment' rest' htext' h' => ?_⟩,
    fun hnone => ?_⟩
  · rw [hread, Option.map_some, block_place h htext]
  · have hkind : (block body).kind.isComment = true := by
      have hplace := congrArg Token.kind (block_place h htext offset)
      rw [show (block body).kind = (token offset comment).kind from hplace]
      unfold token
      split <;> rfl
    have hfirst := skip_comments admitted (token offset comment).range.stop false
      #[token offset comment] (('*' :: body).drop ((block body).length - 1))
    have hskip := skip_block ha body offset
    rw [if_pos hkind, block_place h htext] at hskip
    rw [scan_block hhere, leading_scanPastTrivia (by rw [hhere])]
    obtain ⟨more, hmore⟩ := hfirst
    simp only [hhere, hskip, ← hmore]
    rfl
  · exact h'.unique h (htext'.symm.trans htext)
  · have hclose : closeLength? 0 body = none := by
      cases hclose : closeLength? 0 body with
      | none => rfl
      | some n =>
        have h := (closeLength?_eq_some_iff.1 hclose).2
        exact absurd h (hnone _ (body.drop n) (by simp))
    have hblock : block body =
        StringLiteral.unterminated {} ('/' :: '*' :: body).length .unterminatedBlockComment := by
      unfold block
      rw [hclose]
      rfl
    rw [← Lexeme.place_unterminated, ← hblock]
    refine ⟨by rw [hread, Option.map_some], fun s hhere => ?_⟩
    have hskip := skip_block ha body offset
    rw [if_neg (by rw [hblock]; exact nofun)] at hskip
    rw [scan_block hhere]
    unfold Scanner.scanPastTrivia
    simp only [hhere, hskip, ne_eq, not_true, if_false]
    rfl

end

/-- A doc comment with a comment in it that begins like a closed one, and an opening mark whose star
cannot be that of the closing mark, too. -/
theorem readAt_block_overlapping :
    (∀ s : Scanner, s.here = { offset := 0, rest := "/**x/*/ */*/;".toList } →
      (s.scan Lexeme.contextual? .usual).leading.head? = some
        { kind := .blockComment
          range := ⟨0, 12⟩
          flags := { outerDoc := true }
          pieces := [⟨.blockCommentStart, 0, 2⟩, ⟨.outerDocCommentMarker, 2, 3⟩,
            ⟨.docComment, 3, 10⟩, ⟨.blockCommentEnd, 10, 12⟩] }) ∧
      Token.ReadAt .usual 0 "/*/".toList
        { kind := .errorSentinel
          range := ⟨0, 3⟩
          flags := { unterminated := true }
          faults := [⟨.unterminatedBlockComment, 0, 3⟩] } := by
  have hnested : Nested "/**x/*/ */*/".toList :=
    (@closeLength?_eq_some_iff "*x/*/ */*/;".toList 10).1 (by decide) |>.2
  refine ⟨((readAt_block rfl _ 0).1 _ _ rfl hnested).2.1,
    (readAt_block rfl ['/'] 0).2 fun comment rest htext h => ?_⟩
  obtain ⟨inner, rfl, -⟩ := h.between
  have hlength := congrArg List.length htext
  simp only [List.length_cons, List.length_append, List.length_nil] at hlength
  omega

end Comment

end ConcreteSyntax
