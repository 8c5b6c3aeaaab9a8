import ConcreteSyntax.Proofs.Token.Scanner
import Mathlib.Data.Nat.Find

/-! # Tokens tile the text

Whatever is admitted at each call, and whichever characters beyond ASCII make up names, the scanner
leaves nothing out but white space and yields nothing twice (`Scanner.tiles_scans`): a call moves on
from the token before to the next one (`Scanner.scan_advances`), and at the end of the text every
further call stays there. -/

namespace ConcreteSyntax

open Text (Place Blank byteLength)

/-- Tokens that follow one another from one offset to another: each one lies between two places of
the text, with only white space before it, and is not empty unless it is the end. -/
def Token.Tile (text : List Char) (start : Nat) : List Token → Nat → Prop
  | [], stop => start = stop
  | t :: more, stop =>
    Blank text start t.range.start ∧ (∃ rest, Place text t.range.stop rest) ∧
      (t.range.start < t.range.stop ∨ t.kind = .endOfFile ∧ t.range.start = t.range.stop) ∧
      Tile text t.range.stop more stop

theorem Leading.place {text : List Char} {start stop : Nat} {comments : List Token}
    (h : Leading text start comments stop) : ∃ rest, Place text start rest := by
  have hblank {a b : Nat} (h : Blank text a b) : ∃ rest, Place text a rest := by
    obtain ⟨rest, n, hplace, -⟩ := h
    exact ⟨rest, hplace⟩
  cases comments with
  | nil => exact hblank h
  | cons c comments => exact hblank h.1

/-- Comments and the token behind them. -/
theorem Leading.tile_concat {text : List Char} {start : Nat} {comments : List Token} {t : Token}
    (h : Leading text start comments t.range.start) (hplace : ∃ rest, Place text t.range.stop rest)
    (ht : t.range.start < t.range.stop ∨ t.kind = .endOfFile ∧ t.range.start = t.range.stop) :
    Token.Tile text start (comments ++ [t]) t.range.stop := by
  induction comments generalizing start with
  | nil => exact ⟨h, hplace, ht, rfl⟩
  | cons c comments ih =>
    obtain ⟨hblank, hlt, -, -, hrest⟩ := h
    exact ⟨hblank, hrest.place, .inl hlt, ih hrest⟩

namespace Scanner

/-- A scanner moves on to a token, which is not empty unless it is the end. -/
structure Advances (text : List Char) (s t : Scanner) : Prop where
  start : t.start.In text
  here : t.here.In text
  range : t.token.range = ⟨t.start.offset, t.here.offset⟩
  leading : Leading text s.here.offset t.leading t.start.offset
  moves : t.kind ≠ .endOfFile → t.start.offset < t.here.offset
  atEnd : t.kind = .endOfFile → t.start.rest = [] ∧ t.here = t.start

theorem Sound.advances {text : List Char} {s t : Scanner} (h : t.Sound text)
    (hleading : Leading text s.here.offset t.leading t.start.offset) : s.Advances text t :=
  ⟨h.start, h.here, h.range, hleading, h.lt, h.atEnd⟩

theorem Advances.markLineBreak {text : List Char} {s t : Scanner} (h : s.Advances text t) (b : Bool) :
    s.Advances text (t.markLineBreak b) := by
  cases b with
  | false => exact h
  | true => exact ⟨h.start, h.here, h.range, h.leading, h.moves, h.atEnd⟩

/-- **A call of the scanner** moves on, whatever is admitted. -/
theorem scan_advances [Text.Xid] {text : List Char} {s : Scanner} (admitted : Admitted)
    (h : s.here.In text) : s.Advances text (s.scan Lexeme.contextual? admitted) := by
  obtain ⟨leading, place, l, lineBreak, hscan, hplace, hleading, hl⟩ := scan_eq_moveTo admitted h
  rw [hscan]
  refine Advances.markLineBreak ?_ _
  rcases hl with ⟨hl, hc⟩ | rfl
  · exact (moveTo_sound hplace hl hc).advances hleading
  · by_cases hrest : place.rest = []
    · rw [hrest]
      exact (moveTo_end_sound hplace hrest).advances hleading
    · obtain hl | ⟨hsentinel, -⟩ := @Lexeme.next_fits_or _ admitted.withoutSuffix _ hrest
      · exact (moveTo_sound hplace hl Lexeme.next_isComment).advances hleading
      · rw [hsentinel]
        exact ⟨hplace, hplace.advance 1, rfl, hleading, fun _ => lt_advance hrest Nat.one_pos, nofun⟩

/-- At the end of the text the scanner stays there. -/
theorem Advances.stays {text : List Char} {s t : Scanner} (h : s.Advances text t)
    (hend : s.here.offset = byteLength text) : t.kind = .endOfFile := by
  by_contra hk
  have hle := h.leading.le
  have hlt := h.moves hk
  have hbound := h.here.2.offset_le
  omega

/-- The scanner of a text after so many calls. -/
def scans [Text.Xid] (source : String) (admitted : Nat → Admitted) : Nat → Scanner
  | 0 => .ofText source
  | n + 1 => (scans source admitted n).scan Lexeme.contextual? (admitted n)

section

variable [Text.Xid] (source : String) (admitted : Nat → Admitted)

theorem scans_here (n : Nat) : (scans source admitted n).here.In source.toList ∧
    (scans source admitted n).token.range.stop = (scans source admitted n).here.offset := by
  cases n with
  | zero => exact ⟨⟨rfl, Place.start _⟩, rfl⟩
  | succ n =>
    have hhere : (scans source admitted n).here.In source.toList := by
      induction n with
      | zero => exact ⟨rfl, Place.start _⟩
      | succ n ih => exact (scan_advances _ ih).here
    have h := scan_advances (admitted n) hhere
    exact ⟨h.here, congrArg Range.stop h.range⟩

theorem scans_advances (n : Nat) :
    (scans source admitted n).Advances source.toList (scans source admitted (n + 1)) :=
  scan_advances (admitted n) (scans_here source admitted n).1

/-- Each call that does not find the end takes a byte. -/
theorem le_scans_here {n : Nat}
    (h : ∀ m < n, (scans source admitted (m + 1)).kind ≠ .endOfFile) :
    n ≤ (scans source admitted n).here.offset := by
  induction n with
  | zero => exact Nat.zero_le _
  | succ n ih =>
    have hle := ih fun m hm => h m (Nat.lt_succ_of_lt hm)
    have hstep := scans_advances source admitted n
    have hlead := hstep.leading.le
    have hlt := hstep.moves (h n (Nat.lt_succ_self n))
    omega

/-- **The tokens tile the text**, whatever is admitted at each call: each call yields comments and a
token that go on where the token before ended; the end of the text is found after at most one call
more than there are bytes, and by every later call. -/
theorem tiles_scans :
    (∀ n, Token.Tile source.toList (scans source admitted n).token.range.stop
        ((scans source admitted (n + 1)).leading ++ [(scans source admitted (n + 1)).token])
        (scans source admitted (n + 1)).token.range.stop ∧
      ∀ c ∈ (scans source admitted (n + 1)).leading, c.kind.isComment = true) ∧
    ∃ last ≤ source.utf8ByteSize, ∀ n,
      ((scans source admitted (n + 1)).kind = .endOfFile ↔ last ≤ n) ∧
      (last ≤ n → (scans source admitted (n + 1)).token.range = .emptyAt source.utf8ByteSize) := by
  refine ⟨fun n => ?_, ?_⟩
  · have h := scans_advances source admitted n
    have hrange := h.range
    refine ⟨?_, fun c hc => (h.leading.of_mem hc).2⟩
    rw [(scans_here source admitted n).2]
    refine Leading.tile_concat ?_ ?_ ?_
    · rw [hrange]
      exact h.leading
    · rw [hrange]
      exact ⟨_, h.here.2⟩
    · rw [hrange]
      by_cases hk : (scans source admitted (n + 1)).kind = .endOfFile
      · exact .inr ⟨hk, congrArg Cursor.offset (h.atEnd hk).2.symm⟩
      · exact .inl (h.moves hk)
  · have hend {n : Nat} (hk : (scans source admitted (n + 1)).kind = .endOfFile) :
        (scans source admitted (n + 1)).here.offset = byteLength source.toList ∧
          (scans source admitted (n + 1)).token.range = .emptyAt source.utf8ByteSize := by
      have h := scans_advances source admitted n
      obtain ⟨hrest, hhere⟩ := h.atEnd hk
      have hplace := h.start.2.offset_add
      rw [hrest, Text.byteLength_nil, Nat.add_zero] at hplace
      refine ⟨by rw [hhere, hplace], ?_⟩
      rw [h.range, hhere, hplace, Text.byteLength_toList]
      rfl
    have hfound : ∃ n ≤ source.utf8ByteSize, (scans source admitted (n + 1)).kind = .endOfFile := by
      by_contra hnone
      have hle := le_scans_here source admitted (n := source.utf8ByteSize + 1) fun m hm hk =>
        hnone ⟨m, Nat.le_of_lt_succ hm, hk⟩
      have hbound := (scans_here source admitted (source.utf8ByteSize + 1)).1.2.offset_le
      rw [Text.byteLength_toList] at hbound
      omega
    have hstays {n m : Nat} (hk : (scans source admitted (n + 1)).kind = .endOfFile) (hle : n ≤ m) :
        (scans source admitted (m + 1)).kind = .endOfFile := by
      induction m, hle using Nat.le_induction with
      | base => exact hk
      | succ m _ ih => exact (scans_advances source admitted (m + 1)).stays (hend ih).1
    obtain ⟨bound, hle, hbound⟩ := hfound
    have hex : ∃ n, (scans source admitted (n + 1)).kind = .endOfFile := ⟨bound, hbound⟩
    have hiff (n : Nat) : (scans source admitted (n + 1)).kind = .endOfFile ↔ Nat.find hex ≤ n :=
      ⟨Nat.find_min' hex, hstays (Nat.find_spec hex)⟩
    exact ⟨Nat.find hex, Nat.le_trans (Nat.find_min' hex hbound) hle, fun n =>
      ⟨hiff n, fun h => (hend ((hiff n).2 h)).2⟩⟩

end

end Scanner

end ConcreteSyntax
