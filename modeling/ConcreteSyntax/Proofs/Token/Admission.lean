import ConcreteSyntax.Proofs.Token.Repertoire
import ConcreteSyntax.Proofs.Token.Scanner

/-! # Tokens and what is admitted

A token of a context-sensitive class is read only where its class is admitted
(`Scanner.permits_scan`), whatever was done with the scanner before: it was called, had a token read
again, joined or cut, gave its token away, or had a state put back that was saved (`Scanner.Reached`).
A token may be cut inside a character, so the scanner need not stand between two characters; but it
stands where its token ends (`Scanner.Reached.stands`), and there a suffix begins. -/

namespace ConcreteSyntax

open Text (Place byteLength)

/-! ### Classes of kinds -/

/-- Whether a token of a kind may be read where these classes are admitted. A float is a number that
may have a point, and what is in none of the classes is read anywhere. -/
def Admitted.permits (a : Admitted) : Kind → Bool
  | .stringToken => a.string
  | .rawStringToken => a.rawString
  | .charToken => a.char
  | .integerToken => a.integer
  | .floatToken => a.integer && a.float
  | .literalSuffix => a.literalSuffix
  | .lineComment => a.lineComment
  | .blockComment => a.blockComment
  | _ => true

namespace Admitted

variable {a : Admitted} {k : Kind}

/-- What may be read where nothing is admitted may be read anywhere. -/
theorem permits_of_none (h : ({} : Admitted).permits k = true) : a.permits k = true := by
  cases k <;> first | rfl | exact nomatch h

theorem permits_of_withoutSuffix (h : a.withoutSuffix.permits k = true) :
    a.permits k = true ∧ k ≠ .literalSuffix := by
  cases k <;> first | exact ⟨h, nofun⟩ | exact nomatch h

theorem permits_of_comments (h : a.comments.permits k = true) : a.permits k = true := by
  cases k <;> first | exact h | exact nomatch h

theorem ne_suffix_of_comments (h : a.comments.permits k = true) : k ≠ .literalSuffix := by
  rintro rfl
  exact nomatch h

end Admitted

/-! ### Lexemes -/

namespace Lexeme

variable [Text.Xid] {admitted : Admitted} {cs : List Char} {l : Lexeme}

/-- A number is a float only where floats are admitted. -/
theorem permits_number (ha : admitted.integer = true) (cs : List Char) :
    admitted.permits (Number.scan admitted.float cs).kind = true := by
  cases hf : admitted.float with
  | false =>
    have hk : (Number.scan false cs).kind = .integerToken := by
      unfold Number.scan
      split <;> rfl
    rw [hk]
    exact ha
  | true =>
    rcases number_kind true cs with hk | hk
    · rw [hk]
      exact ha
    · rw [hk]
      exact Bool.and_eq_true_iff.2 ⟨ha, hf⟩

theorem Recognized.permits (h : Recognized admitted cs l) : admitted.permits l.kind = true := by
  cases h with
  | suffix ha => exact ha
  | lineComment ha cs =>
    rw [line_kind]
    exact ha
  | blockComment ha body => rcases block_kind body with h | h <;> rw [h] <;> first | exact ha | rfl
  | lifetime => rfl
  | char ha _ h =>
    rw [QuoteMark.kind_of_character? h]
    exact ha
  | unclosed => rfl
  | string ha lead cs =>
    rcases string_kind lead.letters.length lead.flags cs with h | h <;> rw [h] <;>
      first | exact ha | rfl
  | rawString ha lead h => rcases rawString_kind h with h | h <;> rw [h] <;> first | exact ha | rfl
  | number ha _ cs => exact permits_number ha _

omit [Text.Xid] in
/-- What is read in every context may be read where nothing is admitted. -/
theorem permits_of_mem_constantKinds {k : Kind} (h : k ∈ constantKinds) :
    admitted.permits k = true := by
  have hall : constantKinds.all ({} : Admitted).permits = true := by decide +kernel
  exact Admitted.permits_of_none (List.all_eq_true.1 hall k h)

theorem permits_next (admitted : Admitted) (cs : List Char) :
    admitted.permits (next contextual? admitted cs).kind = true :=
  (reads_kind (reads_next admitted cs)).elim permits_of_mem_constantKinds Recognized.permits

end Lexeme

/-! ### A call of the scanner -/

section

variable [Text.Xid] (admitted : Admitted)

/-- The comments that are skipped are of a form that is admitted. -/
theorem Trivia.permits_skip (offset : Nat) (lineBreak : Bool) (comments : Array Token)
    (cs : List Char) :
    ∀ c ∈ (Trivia.skip Lexeme.contextual? admitted offset lineBreak comments cs).comments.toList,
      c ∈ comments.toList ∨
        c.kind.isComment = true ∧ admitted.comments.permits c.kind = true := by
  fun_induction Trivia.skip Lexeme.contextual? admitted offset lineBreak comments cs with
  | case1 | case6 => exact fun c hc => .inl hc
  | case2 offset lineBreak comments c rest hw ih => exact ih
  | case3 offset lineBreak comments c rest hw hslash hl =>
    simp only [hl]
    exact fun c hc => .inl hc
  | case4 offset lineBreak comments c rest hw hslash l hcomment hl token ih =>
    simp only [hl, hcomment, if_true]
    refine fun c hc => (ih c hc).elim (fun h => ?_) .inr
    rw [Array.toList_push, List.mem_append, List.mem_singleton] at h
    rcases h with h | h
    · exact .inl h
    · rw [h]
      exact .inr ⟨hcomment, (Lexeme.recognized_of_contextual hl).permits⟩
  | case5 offset lineBreak comments c rest hw hslash l hcomment hl =>
    simp only [hl, hcomment]
    exact fun c hc => .inl hc

/-- So is one that does not end. -/
theorem Trivia.permits_endless {admitted : Admitted} {offset : Nat} {lineBreak : Bool}
    {comments : Array Token} {cs : List Char} {l : Lexeme}
    (h : (Trivia.skip Lexeme.contextual? admitted offset lineBreak comments cs).endless = some l) :
    admitted.comments.permits l.kind = true := by
  obtain ⟨-, rest, hl⟩ := Trivia.recognized_of_endless h
  exact hl.permits

namespace Scanner

theorem permits_readToken (s : Scanner) (place : Cursor) :
    admitted.permits (s.readToken Lexeme.contextual? admitted place).kind = true := by
  unfold readToken
  split
  · rfl
  · exact Lexeme.permits_next admitted place.rest

theorem permits_trivia (s : Scanner) {c : Token} (hc : c ∈ (s.trivia admitted).comments.toList) :
    c.kind.isComment = true ∧ admitted.permits c.kind = true :=
  ((Trivia.permits_skip admitted _ _ _ _ c hc).resolve_left nofun).imp_right
    Admitted.permits_of_comments

theorem readToken_leading (s : Scanner) (place : Cursor) :
    (s.readToken Lexeme.contextual? admitted place).leading = s.leading := by
  unfold readToken
  split <;> rfl

/-- A call yields what is admitted. -/
theorem permits_of_moves {s t : Scanner} (h : Moves admitted s t) :
    admitted.permits t.kind = true ∧
      ∀ c ∈ t.leading, c.kind.isComment = true ∧ admitted.permits c.kind = true := by
  have hread (s : Scanner) (place : Cursor) := (Admitted.permits_of_withoutSuffix
    (permits_readToken admitted.withoutSuffix s place)).1
  have htrivia {c : Token} (hc : c ∈ (s.trivia admitted).comments.toList) :=
    permits_trivia admitted s hc
  cases h with
  | @suffix _ ha l hl =>
    have hk : l.kind = .literalSuffix := Lexeme.kind_of_suffixOnly hl
    refine ⟨?_, fun _ hc => absurd hc List.not_mem_nil⟩
    show admitted.permits l.kind = true
    rw [hk]
    exact ha
  | @shebang _ l hl =>
    have hk : l.kind = .shebang := shebang_kind hl
    refine ⟨?_, fun _ hc => absurd hc List.not_mem_nil⟩
    show admitted.permits l.kind = true
    rw [hk]
    rfl
  | inside =>
    rw [readToken_leading]
    exact ⟨hread _ _, fun _ hc => absurd hc List.not_mem_nil⟩
  | endless _ hl =>
    exact ⟨Admitted.permits_of_comments (Trivia.permits_endless hl),
      fun c hc => htrivia hc⟩
  | past =>
    rw [markLineBreak_kind, markLineBreak_leading, readToken_leading]
    exact ⟨hread _ _, fun c hc => htrivia hc⟩

/-- A suffix touches the token before. -/
theorem start_eq_of_moves {s t : Scanner} (h : Moves admitted s t) (hk : t.kind = .literalSuffix) :
    t.token.range.start = s.here.offset := by
  have hread (s : Scanner) (place : Cursor) := (Admitted.permits_of_withoutSuffix
    (permits_readToken admitted.withoutSuffix s place)).2
  cases h with
  | suffix => rfl
  | shebang _ hl => exact absurd ((shebang_kind hl).symm.trans hk) nofun
  | inside => exact absurd hk (hread _ _)
  | endless _ hl =>
    exact absurd hk (Admitted.ne_suffix_of_comments (Trivia.permits_endless hl))
  | past =>
    rw [markLineBreak_kind] at hk
    exact absurd hk (hread _ _)

end Scanner

end

/-! ### Where the scanner stands -/

namespace Cursor

/-- A place in a text, between two of its characters or inside one. -/
def Within (text : List Char) (c : Cursor) : Prop := Place text (c.offset + c.cut) c.rest

/-- The number of bytes behind a place. -/
def left (c : Cursor) : Nat := c.cut + byteLength c.rest

variable {text : List Char} {c : Cursor}

theorem In.within (h : c.In text) : c.Within text := by
  unfold Within
  rw [h.1]
  exact h.2

theorem Within.offset_add (h : c.Within text) : c.offset + c.left = byteLength text := by
  have := Place.offset_add h
  unfold left
  omega

theorem Within.skipFrom {offset : Nat} {rest : List Char} (h : Place text offset rest)
    (bytes : Nat) : (skipFrom offset bytes rest).Within text ∧
      (skipFrom offset bytes rest).offset = offset + min bytes (byteLength rest) := by
  induction rest generalizing offset bytes with
  | nil => exact ⟨h, by simp [Cursor.skipFrom]⟩
  | cons d rest ih =>
    have hnext : Place text (offset + d.utf8Size) rest := by simpa using h.advance 1
    unfold Cursor.skipFrom
    rw [Text.byteLength_cons]
    split
    · next hzero => exact ⟨h, by simp [hzero]⟩
    · split
      · next hlt =>
        refine ⟨?_, by simp only; omega⟩
        show Place text (offset + bytes + (d.utf8Size - bytes)) rest
        rwa [show offset + bytes + (d.utf8Size - bytes) = offset + d.utf8Size by omega]
      · obtain ⟨hwithin, hoffset⟩ := ih hnext (bytes - d.utf8Size)
        exact ⟨hwithin, by omega⟩

/-- Skipping stops at the end of the text. -/
theorem Within.skip (h : c.Within text) (bytes : Nat) :
    (c.skip bytes).Within text ∧ (c.skip bytes).offset = c.offset + min bytes c.left := by
  unfold Cursor.skip left
  split
  · next hle =>
    refine ⟨?_, by simp only; omega⟩
    show Place text (c.offset + bytes + (c.cut - bytes)) c.rest
    rwa [show c.offset + bytes + (c.cut - bytes) = c.offset + c.cut by omega]
  · obtain ⟨hwithin, hoffset⟩ := Within.skipFrom h (bytes - c.cut)
    exact ⟨hwithin, by omega⟩

/-- Where a character stands behind some bytes, there is one more. -/
theorem Within.lt_left (h : c.Within text) {bytes : Nat} {d : Char}
    (hd : (c.skip bytes).peek? = some d) : bytes < c.left := by
  obtain ⟨hwithin, hoffset⟩ := h.skip bytes
  obtain ⟨rest, hrest⟩ := Scanner.peek_eq_some hd
  have hbehind := hwithin.offset_add
  have hall := h.offset_add
  have hsize := d.utf8Size_pos
  rw [left, hrest, Text.byteLength_cons] at hbehind
  omega

end Cursor

namespace Scanner

/-- A scanner that stands at a token of a text, however the token was cut. -/
structure Stands (text : List Char) (s : Scanner) : Prop where
  start : s.start.Within text
  here : s.here.Within text
  range : s.token.range = ⟨s.start.offset, s.here.offset⟩

variable {text : List Char} {s : Scanner}

theorem Stands.markLineBreak (h : s.Stands text) (b : Bool) : (s.markLineBreak b).Stands text := by
  cases b with
  | false => exact h
  | true => exact ⟨h.start, h.here, h.range⟩

theorem stands_readToken [Text.Xid] (admitted : Admitted) (s : Scanner) {place : Cursor}
    (h : place.Within text) : (s.readToken Lexeme.contextual? admitted place).Stands text := by
  unfold readToken
  split
  · next hcut =>
    obtain ⟨hwithin, hoffset⟩ := h.skip 1
    have hleft : 1 ≤ place.left := by
      unfold Cursor.left
      omega
    rw [Nat.min_eq_left hleft] at hoffset
    exact ⟨h, hwithin, by rw [hoffset]⟩
  · next hcut =>
    have hin : place.In text := by
      have hcut := not_not.1 hcut
      unfold Cursor.Within at h
      rw [hcut] at h
      exact ⟨hcut, h⟩
    exact ⟨h, (hin.advance _).within, rfl⟩

theorem Stands.resize (h : s.Stands text) (kind : Kind) {bytes : Nat} (hle : bytes ≤ s.start.left) :
    (s.resize kind bytes).Stands text := by
  obtain ⟨hwithin, hoffset⟩ := h.start.skip bytes
  rw [Nat.min_eq_left hle] at hoffset
  refine ⟨h.start, hwithin, ?_⟩
  show (⟨s.start.offset, s.start.offset + bytes⟩ : Range) = ⟨s.start.offset, _⟩
  rw [← hoffset]
  rfl

theorem Stands.joinGreater (h : s.Stands text) : s.joinGreater.Stands text := by
  unfold Scanner.joinGreater
  split
  · exact h
  · split
    · next h2 => exact h.resize _ (h.start.lt_left h2)
    · next h1 _ => exact h.resize _ (h.start.lt_left h1)
    · next h1 => exact h.resize _ (h.start.lt_left h1)
    · exact h

theorem Stands.split (h : s.Stands text) (first : Kind) : (s.split first).Stands text := by
  have hstart := h.start.offset_add
  have hhere := h.here.offset_add
  have hlength : s.token.length = s.here.offset - s.start.offset := by
    rw [Token.length, h.range]
    rfl
  have hresize (bytes : Nat) :
      (if bytes < s.token.length then s.resize first bytes else s).Stands text := by
    split
    · exact h.resize _ (by omega)
    · exact h
  exact hresize _

theorem Stands.scan [Text.Xid] (h : s.Stands text) (admitted : Admitted) :
    (s.scan Lexeme.contextual? admitted).Stands text := by
  by_cases hcut : s.here.cut = 0
  · have hin : s.here.In text := by
      have hhere := h.here
      unfold Cursor.Within at hhere
      rw [hcut] at hhere
      exact ⟨hcut, hhere⟩
    obtain ⟨leading, place, l, lineBreak, hscan, hplace, -⟩ := scan_eq_moveTo admitted hin
    rw [hscan]
    exact Stands.markLineBreak ⟨hplace.within, (hplace.advance _).within, rfl⟩ _
  · unfold Scanner.scan scanPastTrivia
    simp only [hcut, ne_eq, not_false_eq_true, if_true]
    exact stands_readToken _ _ h.here

/-- The states of the scanner of a text that its user may come to. A state that was saved may be put
back at any time. -/
inductive Reached [Text.Xid] (source : String) : Scanner → Prop
  | start : Reached source (.ofText source)
  | scan {s : Scanner} (h : Reached source s) (admitted : Admitted) :
      Reached source (s.scan Lexeme.contextual? admitted)
  | rescan {s : Scanner} (h : Reached source s) (admitted : Admitted) :
      Reached source (s.rescan Lexeme.contextual? admitted)
  | joinGreater {s : Scanner} (h : Reached source s) : Reached source s.joinGreater
  | split {s : Scanner} (h : Reached source s) (first : Kind) : Reached source (s.split first)
  | withoutToken {s : Scanner} (h : Reached source s) : Reached source s.withoutToken
  | restore {s saved : Scanner} (h : Reached source s) (hsaved : Reached source saved) :
      Reached source saved

theorem Reached.stands [Text.Xid] {source : String} (h : Reached source s) :
    s.Stands source.toList := by
  induction h with
  | start => exact ⟨Place.start _, Place.start _, rfl⟩
  | scan _ admitted ih => exact ih.scan admitted
  | rescan _ admitted ih => exact (stands_readToken _ _ ih.start).markLineBreak _
  | joinGreater _ ih => exact ih.joinGreater
  | split _ first ih => exact ih.split first
  | withoutToken _ ih => exact ⟨ih.here, ih.here, rfl⟩
  | restore _ _ _ ih => exact ih

/-- **What is not admitted is not read.** Wherever the scanner has come to, a call yields a token of
a context-sensitive class, and collects a comment, only where its class is admitted; a suffix begins
where the token before ends. When the token is read again, the same holds, the comments before it
stay, and it never is a suffix. -/
theorem permits_scan [Text.Xid] {source : String} (h : Reached source s) (admitted : Admitted) :
    (admitted.permits (s.scan Lexeme.contextual? admitted).kind = true ∧
      ((s.scan Lexeme.contextual? admitted).kind = .literalSuffix →
        (s.scan Lexeme.contextual? admitted).token.range.start = s.token.range.stop) ∧
      ∀ c ∈ (s.scan Lexeme.contextual? admitted).leading,
        c.kind.isComment = true ∧ admitted.permits c.kind = true) ∧
    admitted.permits (s.rescan Lexeme.contextual? admitted).kind = true ∧
      (s.rescan Lexeme.contextual? admitted).kind ≠ .literalSuffix ∧
      (s.rescan Lexeme.contextual? admitted).leading = s.leading := by
  have hmoves := moves_scan admitted s
  obtain ⟨hkind, hleading⟩ := permits_of_moves admitted hmoves
  have hrescan := Admitted.permits_of_withoutSuffix
    (permits_readToken admitted.withoutSuffix s s.start)
  refine ⟨⟨hkind, fun hsuffix => ?_, hleading⟩, ?_, ?_, ?_⟩
  · rw [start_eq_of_moves admitted hmoves hsuffix, h.stands.range]
  · rw [rescan, markLineBreak_kind]
    exact hrescan.1
  · rw [rescan, markLineBreak_kind]
    exact hrescan.2
  · rw [rescan, markLineBreak_leading, readToken_leading]

/-- A number behind a mark that was cut, and the suffix that touches it: read again, the suffix is a
word. -/
theorem permits_scan_cut :
    ∃ s, Reached "&&1u8" s ∧ (s.scan Lexeme.contextual? .afterLiteral).kind = .literalSuffix ∧
      (s.scan Lexeme.contextual? .afterLiteral).token.range.start = s.token.range.stop ∧
      ((s.scan Lexeme.contextual? .afterLiteral).rescan Lexeme.contextual? .afterLiteral).kind ≠
        .literalSuffix := by
  have hcut : Reached "&&1u8" (((Scanner.ofText "&&1u8").scan Lexeme.contextual? .usual).split .amp) :=
    (Reached.start.scan .usual).split .amp
  have hnumber := (hcut.scan .usual).scan .usual
  exact ⟨_, hnumber, by decide +kernel,
    (permits_scan hnumber .afterLiteral).1.2.1 (by decide +kernel),
    (permits_scan (hnumber.scan .afterLiteral) .afterLiteral).2.2.1⟩

end Scanner

end ConcreteSyntax
