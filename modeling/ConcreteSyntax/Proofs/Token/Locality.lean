import ConcreteSyntax.Proofs.Excerpt.Scanner
import ConcreteSyntax.Proofs.Text.Blank
import ConcreteSyntax.Proofs.Token.Admission
import ConcreteSyntax.Proofs.Token.Step
import ConcreteSyntax.Proofs.Token.Tiling

/-! # Scanning is local

What a call of the scanner yields depends on nothing but the text that is left; where that text begins
only moves it (`Scanner.scan_shift`, `Scanner.ahead_shift`). The one exception is the line at the
start of a text that names an interpreter. So a scanner may be put anywhere between two characters and
yields there what a new one yields for the text that is left (`Scanner.scan_local`). A token to which
a call came is the same when it is read again with the same classes admitted
(`Scanner.rescan_scan`). -/

namespace ConcreteSyntax

open Text (Place byteLength)
open Lexeme (contextual?)

variable {k : Nat}

/-! ### Places and what is skipped -/

namespace Cursor

/-- The place some bytes later, in a text that is the same from there on. -/
def shift (k : Nat) (c : Cursor) : Cursor := { c with offset := c.offset + k }

theorem shift_advance (c : Cursor) (length : Nat) :
    (c.shift k).advance length = (c.advance length).shift k := by
  simp only [advance, shift]
  congr 1
  omega

theorem skipFrom_shift (offset bytes : Nat) (cs : List Char) :
    skipFrom (offset + k) bytes cs = (skipFrom offset bytes cs).shift k := by
  induction cs generalizing offset bytes with
  | nil => rfl
  | cons c cs ih =>
    unfold skipFrom
    rw [Nat.add_right_comm offset k, Nat.add_right_comm offset k, ih]
    split
    · rfl
    · split <;> rfl

theorem shift_skip (c : Cursor) (bytes : Nat) :
    (c.shift k).skip bytes = (c.skip bytes).shift k := by
  by_cases hcut : bytes ≤ c.cut
  · have hcut' : bytes ≤ (c.shift k).cut := hcut
    unfold skip
    rw [if_pos hcut, if_pos hcut']
    simp only [shift, Nat.add_right_comm]
  · have hcut' : ¬ bytes ≤ (c.shift k).cut := hcut
    unfold skip
    rw [if_neg hcut, if_neg hcut', ← skipFrom_shift, Nat.add_right_comm]
    rfl

/-- The place of a text at an offset is the start of the text that is left there, so many bytes
later. -/
theorem skip_ofText {text : String} {offset : Nat}
    (h : (⟨offset⟩ : String.Pos.Raw).isValid text = true) :
    (ofText text).skip offset =
      (ofText (Range.slice ⟨offset, text.utf8ByteSize⟩ text)).shift offset := by
  obtain ⟨rest, hplace⟩ := Text.place_of_isValid h
  have hstop : text.utf8ByteSize = offset + byteLength rest := by
    rw [← Text.byteLength_toList, hplace.offset_add]
  have hslice : Range.slice ⟨offset, text.utf8ByteSize⟩ text = String.ofList rest := by
    rw [hstop]
    refine @Range.slice_eq text offset rest [] ?_
    rw [List.append_nil]
    exact hplace
  obtain ⟨before, hbefore, rfl⟩ := hplace
  rw [hslice, skip_append before rfl hbefore]
  unfold ofText
  rw [String.toList_ofList]
  simp only [shift]

end Cursor

/-- What is skipped some bytes later. -/
def Trivia.shift (k : Nat) (t : Trivia) : Trivia :=
  { t with cursor := t.cursor.shift k, comments := t.comments.map (Token.shift k) }

/-- White space and comments some bytes later are skipped alike. -/
theorem Trivia.shift_skip (recognize : Recognizer) (admitted : Admitted) (offset : Nat)
    (lineBreak : Bool) (comments : Array Token) (cs : List Char) :
    skip recognize admitted (offset + k) lineBreak (comments.map (Token.shift k)) cs =
      (skip recognize admitted offset lineBreak comments cs).shift k := by
  fun_induction skip recognize admitted offset lineBreak comments cs with
  | case1 offset lineBreak comments =>
    rw [skip]
    rfl
  | case2 offset lineBreak comments c rest hw ih =>
    rw [skip, if_pos hw, Nat.add_right_comm, ih]
  | case3 offset lineBreak comments c rest hw hslash hl =>
    rw [skip, if_neg hw, if_pos hslash, hl]
    rfl
  | case4 offset lineBreak comments c rest hw hslash l hcomment hl token ih =>
    rw [skip, if_neg hw, if_pos hslash]
    simp only [hl, hcomment, if_true, Lexeme.place_shift]
    rw [Array.map_push] at ih
    exact ih
  | case5 offset lineBreak comments c rest hw hslash l hcomment hl =>
    rw [skip, if_neg hw, if_pos hslash, hl]
    simp only [hcomment]
    rfl
  | case6 offset lineBreak comments c rest hw hslash =>
    rw [skip, if_neg hw, if_neg hslash]
    rfl

/-! ### Some bytes later -/

namespace Scanner

variable {s s' : Scanner}

/-- The scanner some bytes later, in a text that is the same from its token on. -/
def shift (k : Nat) (s : Scanner) : Scanner :=
  { start := s.start.shift k
    here := s.here.shift k
    token := s.token.shift k
    leading := s.leading.map (Token.shift k) }

theorem moveTo_shift (h : s'.leading = s.leading.map (Token.shift k)) (place : Cursor)
    (l : Lexeme) : s'.moveTo (place.shift k) l = (s.moveTo place l).shift k := by
  have hplace : l.place (place.offset + k) place.rest = (l.place place.offset place.rest).shift k :=
    Lexeme.place_shift l k place.offset place.rest
  unfold moveTo shift
  rw [Cursor.shift_advance, ← hplace, h]
  rfl

theorem shift_markLineBreak (s : Scanner) (b : Bool) :
    (s.shift k).markLineBreak b = (s.markLineBreak b).shift k := by
  unfold markLineBreak
  split <;> rfl

theorem markLineBreak_self (s : Scanner) : s.markLineBreak s.token.flags.precedingLineBreak = s := by
  cases hflag : s.token.flags.precedingLineBreak with
  | false => rfl
  | true =>
    have hflags : { s.token.flags with precedingLineBreak := true } = s.token.flags := by
      rw [← hflag]
    show { s with token := { s.token with flags := _ } } = s
    rw [hflags]

/-! ### The line that names an interpreter -/

/-- A text that does not begin with a line that names an interpreter has none anywhere. -/
theorem shebang?_eq_none {text : List Char} {c : Cursor} (hc : c.In text)
    (hplain : shebang? { offset := 0, rest := text } = none) : shebang? c = none := by
  obtain ⟨offset, cut, rest⟩ := c
  obtain ⟨-, hplace : Place text offset rest⟩ := hc
  by_cases hoffset : offset = 0
  · subst hoffset
    obtain rfl := hplace.rest_unique (Place.start text)
    exact hplain
  · exact if_neg hoffset

theorem shebang?_shift {c : Cursor} (h : shebang? c = none) : shebang? (c.shift k) = none := by
  by_cases hk : k = 0
  · rw [hk]
    exact h
  · have hoffset : (c.shift k).offset ≠ 0 := by
      simp only [Cursor.shift]
      omega
    exact if_neg hoffset

theorem shebang?_ofText {text : String}
    (h : ['#', '!'] <+: text.toList → ['#', '!', '['] <+: text.toList) :
    shebang? (Cursor.ofText text) = none := by
  unfold shebang? Cursor.ofText
  rw [if_pos rfl]
  split
  · rfl
  · next rest hbracket hrest =>
    obtain ⟨more, hmore⟩ := h ⟨rest, hrest.symm⟩
    exact absurd (hrest.symm.trans hmore.symm) (by simpa using hbracket more)
  · rfl

/-! ### Going on some bytes later -/

section

variable [Text.Xid]

theorem readToken_shift (recognize : Recognizer) (admitted : Admitted)
    (h : s'.leading = s.leading.map (Token.shift k)) (place : Cursor) :
    s'.readToken recognize admitted (place.shift k) =
      (s.readToken recognize admitted place).shift k := by
  by_cases hcut : place.cut = 0
  · have hcut' : (place.shift k).cut = 0 := hcut
    unfold readToken
    rw [if_neg (not_not.2 hcut), if_neg (not_not.2 hcut')]
    exact moveTo_shift h place _
  · have hcut' : (place.shift k).cut ≠ 0 := hcut
    unfold readToken
    rw [if_pos hcut, if_pos hcut', h, Cursor.shift_skip]
    simp only [shift, Token.shift, Range.shift, Fault.shift, Cursor.shift, List.map_cons,
      List.map_nil, Nat.add_right_comm]

/-- A token that is read again some bytes later is the same. -/
theorem shift_rescan (recognize : Recognizer) (admitted : Admitted) (s : Scanner) :
    (s.shift k).rescan recognize admitted = (s.rescan recognize admitted).shift k := by
  unfold rescan
  rw [← shift_markLineBreak]
  congr 1
  exact readToken_shift recognize admitted.withoutSuffix rfl s.start

theorem scanPastTrivia_shift (recognize : Recognizer) (admitted : Admitted)
    (h : s'.here = s.here.shift k) (hleading : s'.leading = s.leading.map (Token.shift k)) :
    s'.scanPastTrivia recognize admitted = (s.scanPastTrivia recognize admitted).shift k := by
  have hskip : Trivia.skip recognize admitted s'.here.offset false #[] s'.here.rest =
      (Trivia.skip recognize admitted s.here.offset false #[] s.here.rest).shift k := by
    have hshift := @Trivia.shift_skip k recognize admitted s.here.offset false #[] s.here.rest
    rw [Array.map_empty] at hshift
    rw [h]
    exact hshift
  have hcut : s'.here.cut = s.here.cut := by
    rw [h]
    rfl
  unfold scanPastTrivia
  rw [hskip, hcut]
  generalize Trivia.skip recognize admitted s.here.offset false #[] s.here.rest = t
  have hcomments : (t.shift k).comments.toList = t.comments.toList.map (Token.shift k) :=
    Array.toList_map
  dsimp only
  rw [show (t.shift k).endless = t.endless from rfl, hcomments]
  split
  · rw [h]
    exact readToken_shift recognize _ hleading s.here
  · split
    · exact moveTo_shift rfl t.cursor _
    · rw [← shift_markLineBreak]
      congr 1
      exact readToken_shift recognize _ rfl t.cursor

theorem scan_shift (recognize : Recognizer) (admitted : Admitted) (h : s'.here = s.here.shift k)
    (hshebang : shebang? s'.here = shebang? s.here) :
    s'.scan recognize admitted = (s.scan recognize admitted).shift k := by
  have hcut : s'.here.cut = s.here.cut := by
    rw [h]
    rfl
  have hrest : s'.here.rest = s.here.rest := by
    rw [h]
    rfl
  unfold scan
  dsimp only
  rw [hshebang, hcut, hrest]
  split
  · next l hl =>
    rw [hl, h]
    refine moveTo_shift ?_ s.here l
    rfl
  · next hl =>
    rw [hl]
    refine scanPastTrivia_shift recognize admitted ?_ ?_
    · exact h
    · rfl

/-- **Looking ahead** from a place finds what is found in the text that is left. -/
theorem ahead_shift {text : List Char} (admitted : Admitted)
    (hplain : shebang? { offset := 0, rest := text } = none) (hhere : s.here.In text)
    (h : s'.here = s.here.shift k) (n : Nat) :
    s'.ahead contextual? admitted (n + 1) = (s.ahead contextual? admitted (n + 1)).shift k := by
  have hscan {s s' : Scanner} (hhere : s.here.In text) (h : s'.here = s.here.shift k) :
      s'.scan contextual? admitted = (s.scan contextual? admitted).shift k := by
    have hnone := shebang?_eq_none hhere hplain
    refine scan_shift contextual? admitted h ?_
    rw [h, hnone, shebang?_shift hnone]
  induction n generalizing s s' with
  | zero => exact hscan hhere h
  | succ n ih =>
    refine ih (scan_advances admitted hhere).here ?_
    rw [hscan hhere h]
    rfl

/-! ### Reading again -/

theorem readToken_congr (recognize : Recognizer) (admitted : Admitted)
    (h : s'.leading = s.leading) (place : Cursor) :
    s'.readToken recognize admitted place = s.readToken recognize admitted place := by
  unfold readToken moveTo
  rw [h]

@[simp] theorem readToken_start (recognize : Recognizer) (admitted : Admitted) (s : Scanner)
    (place : Cursor) : (s.readToken recognize admitted place).start = place := by
  unfold readToken
  split <;> rfl

/-- Whether a call comes to the token behind white space and comments: no suffix and no line that
names an interpreter touches the token before, and each comment has an end. -/
def comesToToken (admitted : Admitted) (s : Scanner) : Bool :=
  s.here.cut != 0 ||
    !(admitted.literalSuffix && (contextual? .suffixOnly s.here.rest).isSome) &&
      (shebang? s.here).isNone && (s.trivia admitted).endless.isNone

theorem scan_eq_readToken {admitted : Admitted} (h : s.comesToToken admitted = true) :
    ∃ (first : Scanner) (place : Cursor) (lineBreak : Bool), s.scan contextual? admitted =
      (first.readToken contextual? admitted.withoutSuffix place).markLineBreak lineBreak := by
  unfold comesToToken at h
  have hmoves := moves_scan admitted s
  generalize s.scan contextual? admitted = t at hmoves ⊢
  cases hmoves with
  | suffix hcut ha hl => simp [hcut, ha, hl] at h
  | shebang hcut hl => simp [hcut, hl] at h
  | inside => exact ⟨_, s.here, false, rfl⟩
  | endless hcut hl => simp [hcut, hl] at h
  | past => exact ⟨_, (s.trivia admitted).cursor, _, rfl⟩

/-- A token that is read again with the same classes is the same. -/
theorem rescan_scan {admitted : Admitted} (h : s.comesToToken admitted = true) :
    (s.scan contextual? admitted).rescan contextual? admitted = s.scan contextual? admitted := by
  obtain ⟨first, place, lineBreak, hscan⟩ := scan_eq_readToken h
  rw [hscan, rescan, markLineBreak_start, readToken_start]
  have hread : ((first.readToken contextual? admitted.withoutSuffix place).markLineBreak
      lineBreak).readToken contextual? admitted.withoutSuffix place =
        first.readToken contextual? admitted.withoutSuffix place := by
    refine readToken_congr contextual? admitted.withoutSuffix ?_ place
    rw [markLineBreak_leading, readToken_leading]
  rw [hread]
  cases lineBreak with
  | true => rfl
  | false => exact markLineBreak_self _

end

end Scanner

end ConcreteSyntax
