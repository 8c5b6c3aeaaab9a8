import ConcreteSyntax.Proofs.Text.Blank
import ConcreteSyntax.Proofs.Token.Repertoire
import ConcreteSyntax.Proofs.Token.Tiling

/-! # When a token is marked to follow a line end

A token is marked exactly if a line ends in the white space that its call skipped, outside the
comments there (`Scanner.hasPrecedingLineBreak_scans`). Only the fault of a comment that does not end
is never marked: the scanner stops inside the white space and does not come to the mark. -/

namespace ConcreteSyntax

open Text (Place)

/-! ### Lexemes -/

theorem LiteralPrefix.flags_precedingLineBreak (lead : LiteralPrefix) :
    lead.flags.precedingLineBreak = false := by
  cases lead <;> rfl

namespace Lexeme

/-- A lexeme without the mark, and no block comment without an end. -/
structure Unmarked (l : Lexeme) : Prop where
  flag : l.flags.precedingLineBreak = false
  fault : l.fault ≠ some .unterminatedBlockComment

theorem unmarked_plain (kind : Kind) (length : Nat) : (plain kind length).Unmarked := ⟨rfl, nofun⟩

theorem unmarked_ite {p : Prop} [Decidable p] {l l' : Lexeme} (h : l.Unmarked) (h' : l'.Unmarked) :
    (if p then l else l').Unmarked := by
  split
  · exact h
  · exact h'

theorem block_flag (body : List Char) : (Comment.block body).flags.precedingLineBreak = false := by
  have hdoc {text : List Char} {kind : Kind} {flags : TokenFlags} {content : Nat}
      (h : Comment.blockDoc? text = some (kind, flags, content)) :
      flags.precedingLineBreak = false := by
    unfold Comment.blockDoc? at h
    split at h
    all_goals cases h
    all_goals rfl
  unfold Comment.block
  split
  · rfl
  · split
    · rfl
    · next h => exact hdoc h

/-- A block comment is one or has no end. -/
theorem block_fault {body : List Char} (h : (Comment.block body).kind.isComment = false) :
    (Comment.block body).fault = some .unterminatedBlockComment := by
  unfold Comment.block at h ⊢
  split
  · rfl
  · next hlength =>
    rw [hlength] at h
    dsimp only at h
    split at h
    · exact nomatch h
    · exact nomatch h

theorem unmarked_character {lead : Nat} {flags : TokenFlags} {cs : List Char} {l : Lexeme}
    (hflags : flags.precedingLineBreak = false)
    (h : QuoteMark.character? lead flags cs = some l) : l.Unmarked := by
  unfold QuoteMark.character? at h
  split at h
  · exact nomatch h
  · obtain ⟨-, h⟩ := Option.ite_none_right_eq_some.1 h
    obtain rfl := Option.some.inj h
    exact ⟨hflags, nofun⟩

theorem unmarked_string (lead : Nat) {flags : TokenFlags}
    (hflags : flags.precedingLineBreak = false) (cs : List Char) :
    (StringLiteral.scan lead flags cs).Unmarked := by
  unfold StringLiteral.scan
  split
  · exact ⟨hflags, nofun⟩
  · exact ⟨hflags, nofun⟩

theorem unmarked_rawString {lead : Nat} {flags : TokenFlags} {cs : List Char} {l : Lexeme}
    (hflags : flags.precedingLineBreak = false)
    (h : StringLiteral.scanRaw? lead flags cs = some l) : l.Unmarked := by
  unfold StringLiteral.scanRaw? at h
  dsimp only at h
  split at h
  · split at h
    · obtain rfl := Option.some.inj h
      exact ⟨hflags, nofun⟩
    · obtain rfl := Option.some.inj h
      exact ⟨hflags, nofun⟩
  · exact nomatch h

variable [Text.Xid] {admitted : Admitted} {cs : List Char} {l : Lexeme}

theorem unmarked_number (float : Bool) (cs : List Char) : (Number.scan float cs).Unmarked := by
  have hbased (base : Nat) {flags : TokenFlags} (hflags : flags.precedingLineBreak = false)
      (rest : List Char) : (Number.based base flags rest).Unmarked := by
    refine ⟨hflags, ?_⟩
    unfold Number.based
    dsimp only
    split <;> nofun
  unfold Number.scan
  split
  · exact hbased 16 rfl _
  · exact hbased 8 rfl _
  · exact hbased 2 rfl _
  · exact unmarked_ite (unmarked_plain _ _) ⟨rfl, nofun⟩

/-- Only what begins with a slash is a block comment. -/
theorem Recognized.unmarked (h : Recognized admitted cs l) (hslash : cs.head? ≠ some '/') :
    l.Unmarked := by
  cases h with
  | suffix | lifetime => exact unmarked_plain _ _
  | lineComment | blockComment => exact absurd rfl hslash
  | @char _ lead _ _ _ h => exact unmarked_character lead.flags_precedingLineBreak h
  | @unclosed _ lead => exact ⟨lead.flags_precedingLineBreak, nofun⟩
  | string _ lead cs => exact unmarked_string _ lead.flags_precedingLineBreak cs
  | rawString _ lead h => exact unmarked_rawString lead.flags_precedingLineBreak h
  | number => exact unmarked_number _ _

theorem unmarked_rawName (h : rawName? cs = some l) : l.Unmarked := by
  unfold rawName? at h
  split at h
  · obtain ⟨-, h⟩ := Option.ite_none_left_eq_some.1 h
    obtain rfl := Option.some.inj h
    exact ⟨rfl, nofun⟩
  · exact nomatch h

/-- What is read behind white space is not marked by itself. -/
theorem Reads.unmarked (h : Reads admitted cs l) : l.Unmarked := by
  cases h with
  | mark h =>
    obtain ⟨m, -, rfl⟩ := Option.map_eq_some_iff.1 h
    exact unmarked_plain _ _
  | contextual hslash h => exact h.unmarked hslash
  | dollar => exact unmarked_ite (unmarked_plain _ _) (unmarked_plain _ _)
  | rawName h => exact unmarked_rawName h
  | word => exact unmarked_ite ⟨rfl, nofun⟩ (unmarked_plain _ _)
  | quote | unreadable | atEnd => exact unmarked_plain _ _

theorem unmarked_suffix (h : contextual? .suffixOnly cs = some l) : l.Unmarked := by
  cases recognized_of_contextual h with
  | suffix => exact unmarked_plain _ _
  | lineComment ha | blockComment ha | lifetime ha | char ha | unclosed ha | string ha | rawString ha
  | number ha => exact nomatch ha

omit [Text.Xid] in
theorem unmarked_shebang {c : Cursor} (h : Scanner.shebang? c = some l) : l.Unmarked := by
  unfold Scanner.shebang? at h
  obtain ⟨-, h⟩ := Option.ite_none_right_eq_some.1 h
  split at h
  · exact nomatch h
  · obtain rfl := Option.some.inj h
    exact unmarked_plain _ _
  · exact nomatch h

/-- Among comments, what is none has no end. -/
theorem Recognized.endless (h : Recognized admitted.comments cs l)
    (hk : l.kind.isComment = false) :
    l.flags.precedingLineBreak = false ∧ l.fault = some .unterminatedBlockComment := by
  cases h with
  | lineComment _ cs =>
    rw [line_kind] at hk
    exact nomatch hk
  | blockComment _ body => exact ⟨block_flag body, block_fault hk⟩
  | suffix ha | lifetime ha | char ha | unclosed ha | string ha | rawString ha | number ha =>
    exact nomatch ha

omit [Text.Xid] in
theorem fault_of_mem_place {offset : Nat} {f : Fault} (h : f ∈ (l.place offset cs).faults)
    (hk : f.kind = .unterminatedBlockComment) : l.fault = some .unterminatedBlockComment := by
  rcases List.mem_append.1 h with h | h
  · obtain ⟨kind, hkind, rfl⟩ := Option.map_eq_some_iff.1 (Option.mem_toList.1 h)
    exact hkind.trans (congrArg some hk)
  · obtain ⟨p, -, hp⟩ := List.mem_filterMap.1 h
    unfold pieceFault? at hp
    obtain ⟨-, hp⟩ := Option.ite_none_right_eq_some.1 hp
    obtain rfl := Option.some.inj hp
    exact nomatch hk

omit [Text.Xid] in
theorem mem_faults_place {kind : FaultKind} (h : l.fault = some kind) (offset : Nat) :
    ⟨kind, (l.place offset cs).range⟩ ∈ (l.place offset cs).faults := by
  unfold place
  rw [h]
  exact List.mem_cons_self

end Lexeme

/-! ### White space between comments -/

/-- The characters between two offsets that stand outside the comments there. -/
def gaps (source : String) (start : Nat) : List Token → Nat → List Char
  | [], stop => (Range.slice ⟨start, stop⟩ source).toList
  | c :: more, stop =>
    (Range.slice ⟨start, c.range.start⟩ source).toList ++ gaps source c.range.stop more stop

theorem gaps_cons {source : String} {offset stop : Nat} {c : Char} {rest : List Char}
    {comments : List Token} (h : Place source.toList offset (c :: rest))
    (hleading : Leading source.toList (offset + c.utf8Size) comments stop) :
    gaps source offset comments stop = c :: gaps source (offset + c.utf8Size) comments stop := by
  cases comments with
  | nil => exact Range.toList_slice_cons h hleading
  | cons t comments =>
    rw [gaps, Range.toList_slice_cons h hleading.1]
    rfl

section

variable [Text.Xid]

/-- The flag of what is skipped says whether a line ends in it outside the comments. -/
theorem Trivia.lineBreak_skip (admitted : Admitted) (lineBreak : Bool) (comments : Array Token)
    {source : String} {offset : Nat} {cs : List Char} (h : Place source.toList offset cs)
    {more : List Token}
    (hmore : (skip Lexeme.contextual? admitted offset lineBreak comments cs).comments.toList =
      comments.toList ++ more) :
    (skip Lexeme.contextual? admitted offset lineBreak comments cs).lineBreak =
      (lineBreak || (gaps source offset more
        (skip Lexeme.contextual? admitted offset lineBreak comments cs).cursor.offset).any
          Text.isLineBreak) := by
  -- where nothing more is skipped
  have hstop {offset : Nat} {cs : List Char} {lineBreak : Bool} {comments : Array Token}
      (h : Place source.toList offset cs) {more : List Token}
      (hmore : comments.toList = comments.toList ++ more) :
      lineBreak = (lineBreak || (gaps source offset more offset).any Text.isLineBreak) := by
    obtain rfl := List.self_eq_append_right.1 hmore
    rw [gaps, Range.toList_slice_self h, List.any_nil, Bool.or_false]
  fun_induction skip Lexeme.contextual? admitted offset lineBreak comments cs generalizing more with
  | case1 => exact hstop h hmore
  | case2 offset lineBreak comments c rest hw ih =>
    have hnext : Place source.toList (offset + c.utf8Size) rest := by simpa using h.advance 1
    obtain ⟨-, ⟨more', hmore', hleading⟩, -⟩ := skip_sound Lexeme.contextual?
      Lexeme.contextual_fits admitted (lineBreak || Text.isLineBreak c) comments hnext
    obtain rfl := List.append_cancel_left (hmore.symm.trans hmore')
    rw [ih hnext hmore, gaps_cons h hleading, List.any_cons, Bool.or_assoc]
  | case3 offset lineBreak comments c rest hw hslash hl =>
    simp only [hl] at hmore ⊢
    exact hstop h hmore
  | case4 offset lineBreak comments c rest hw hslash l hcomment hl token ih =>
    simp only [hl, hcomment, if_true] at hmore ⊢
    obtain ⟨-, hnext⟩ := (Lexeme.contextual_fits hl).place_stop h
    obtain ⟨-, ⟨more', hmore', -⟩, -⟩ := skip_sound Lexeme.contextual? Lexeme.contextual_fits
      admitted lineBreak (comments.push token) hnext
    rw [ih hnext hmore']
    rw [hmore', Array.toList_push, List.append_assoc] at hmore
    obtain rfl := List.append_cancel_left hmore
    rw [List.singleton_append, gaps, show token.range.start = offset from rfl, Range.toList_slice_self h,
      List.nil_append]
  | case5 offset lineBreak comments c rest hw hslash l hcomment hl =>
    simp only [hl, hcomment] at hmore ⊢
    exact hstop h hmore
  | case6 => exact hstop h hmore

namespace Scanner

/-- Whether a line ends in the white space that a call skipped, and the token is no comment that does
not end. -/
def FollowsLineEnd (source : String) (s t : Scanner) : Prop :=
  (gaps source s.here.offset t.leading t.start.offset).any Text.isLineBreak = true ∧
    ∀ f ∈ t.token.faults, f.kind ≠ .unterminatedBlockComment

/-- **One call** marks the token to which it leads as it should. -/
theorem hasPrecedingLineBreak_of_moves {source : String} {admitted : Admitted} {s t : Scanner}
    (hs : s.here.In source.toList) (h : Moves admitted s t) :
    t.token.hasPrecedingLineBreak = true ↔ FollowsLineEnd source s t := by
  obtain ⟨hcut, hplace⟩ := hs
  obtain ⟨hcursor, -, -⟩ : (s.trivia admitted).Sound source.toList s.here.offset [] :=
    Trivia.skip_sound Lexeme.contextual? Lexeme.contextual_fits admitted false #[] hplace
  -- no white space stands before what touches the token before
  have htouch {l : Lexeme} (hl : l.Unmarked) :
      ({ s with leading := [] }.moveTo s.here l).token.hasPrecedingLineBreak = true ↔
        FollowsLineEnd source s ({ s with leading := [] }.moveTo s.here l) := by
    have hgap : gaps source s.here.offset [] s.here.offset = [] := Range.toList_slice_self hplace
    refine iff_of_false (fun h => ?_) fun h => ?_
    · exact nomatch hl.flag.symm.trans h
    · have hany : (gaps source s.here.offset [] s.here.offset).any Text.isLineBreak = true := h.1
      rw [hgap] at hany
      exact nomatch hany
  cases h with
  | suffix _ _ hl => exact htouch (Lexeme.unmarked_suffix hl)
  | shebang _ hl => exact htouch (Lexeme.unmarked_shebang hl)
  | inside hne => exact absurd hcut hne
  | @endless _ l hl =>
    obtain ⟨hk, rest, hrest⟩ := Trivia.recognized_of_endless hl
    obtain ⟨hflag, hfault⟩ := hrest.endless hk
    exact iff_of_false (fun h => nomatch hflag.symm.trans h) fun h =>
      h.2 _ (Lexeme.mem_faults_place hfault _) rfl
  | past _ hnone =>
    have hl := (Lexeme.reads_next admitted.withoutSuffix (s.trivia admitted).cursor.rest).unmarked
    have hread (s' : Scanner) : s'.readToken Lexeme.contextual? admitted.withoutSuffix
        (s.trivia admitted).cursor = s'.moveTo (s.trivia admitted).cursor
          (Lexeme.next Lexeme.contextual? admitted.withoutSuffix (s.trivia admitted).cursor.rest) :=
      if_neg (not_not.2 hcursor.1)
    have hmark : (s.trivia admitted).lineBreak =
        (gaps source s.here.offset (s.trivia admitted).comments.toList
          (s.trivia admitted).cursor.offset).any Text.isLineBreak :=
      (Trivia.lineBreak_skip admitted false #[] hplace (List.nil_append _).symm).trans
        (Bool.false_or _)
    rw [hread]
    generalize Lexeme.next Lexeme.contextual? admitted.withoutSuffix
      (s.trivia admitted).cursor.rest = l at hl
    have hfault : ∀ f ∈ (l.place (s.trivia admitted).cursor.offset
        (s.trivia admitted).cursor.rest).faults, f.kind ≠ .unterminatedBlockComment :=
      fun f hf hk => hl.fault (Lexeme.fault_of_mem_place hf hk)
    cases hbreak : (s.trivia admitted).lineBreak with
    | false =>
      rw [hbreak] at hmark
      exact iff_of_false (fun h => nomatch hl.flag.symm.trans h) fun h => nomatch hmark.trans h.1
    | true =>
      rw [hbreak] at hmark
      exact iff_of_true rfl ⟨hmark.symm, hfault⟩

/-- **A token is marked if a line ends before it**: in a row of calls from the start of a text,
whatever is admitted at each, a token is marked to follow a line end if and only if the white space
between the token before and this one has one outside the comments. The fault of a comment that does
not end is never marked. -/
theorem hasPrecedingLineBreak_scans (source : String) (admitted : Nat → Admitted) (n : Nat) :
    (scans source admitted (n + 1)).token.hasPrecedingLineBreak = true ↔
      FollowsLineEnd source (scans source admitted n) (scans source admitted (n + 1)) :=
  hasPrecedingLineBreak_of_moves (scans_here source admitted n).1 (moves_scan (admitted n) _)

end Scanner

end

-- The newline is skipped, but the comment behind it has no end.
example : (Scanner.scans "a\n/*" (fun _ => .usual) 2).token.hasPrecedingLineBreak = false := by
  decide +kernel

end ConcreteSyntax
