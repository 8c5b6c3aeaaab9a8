import ConcreteSyntax.Token.Mark
import ConcreteSyntax.Proofs.Kind

/-! # What a lexeme promises

A lexeme that was recognised at the front of a run of characters takes at least one of them and no
more than there are, its pieces fill it, and it is faulty only if its kind may be (`Lexeme.Fits`).
The main statement is `Lexeme.next_fits`: every lexeme of the scanner fits. -/

namespace ConcreteSyntax

namespace Lexeme

/-- The number of characters of a row of pieces. -/
def piecesLength (pieces : List (Kind × Nat)) : Nat := (pieces.map (·.2)).foldr (· + ·) 0

@[simp] theorem piecesLength_nil : piecesLength [] = 0 := rfl

@[simp] theorem piecesLength_cons (p : Kind × Nat) (pieces : List (Kind × Nat)) :
    piecesLength (p :: pieces) = p.2 + piecesLength pieces := by
  simp [piecesLength]

@[simp] theorem piecesLength_append (ps qs : List (Kind × Nat)) :
    piecesLength (ps ++ qs) = piecesLength ps + piecesLength qs := by
  induction ps with
  | nil => simp
  | cons p ps ih => simp [ih, Nat.add_assoc]

/-- What is promised of a lexeme at the front of `cs`. -/
structure Fits (cs : List Char) (l : Lexeme) : Prop where
  pos : 0 < l.length
  le : l.length ≤ cs.length
  kind_ne : l.kind ≠ .endOfFile ∧ l.kind ≠ .error
  /-- A mark or a word stands in the text as it is written. -/
  spelled : ∀ text, l.kind.written? = some text → cs.take l.length = text.toList
  /-- The pieces, if there are some, fill the lexeme. -/
  filled : l.pieces = [] ∨ piecesLength l.pieces = l.length
  piece : ∀ p ∈ l.pieces, 0 < p.2 ∧ p.1.isPiece = true
  pieces_ne : l.kind.hasPieces = true → l.pieces ≠ []
  /-- What could not be read has a fault. -/
  explained : l.kind = .errorSentinel → l.fault.isSome = true
  /-- Only a piece is an escape that could not be read. -/
  whole : l.fault ≠ some .invalidEscape
  /-- A comment begins with a slash. -/
  comment : l.kind.isComment = true → cs.head? = some '/'
  /-- Other kinds have none. -/
  faultless : l.kind.mayBeFaulty = false → l.fault = none ∧ ∀ p ∈ l.pieces, p.1 ≠ .errorSentinel

/-- The kinds of lexemes without pieces and faults that are no comments. -/
def IsPlain (kind : Kind) : Prop :=
  kind ≠ .endOfFile ∧ kind ≠ .error ∧ kind ≠ .errorSentinel ∧ kind.hasPieces = false ∧
    kind.isComment = false

instance : DecidablePred IsPlain := fun _ => inferInstanceAs (Decidable (_ ∧ _))

/-- A lexeme without pieces and faults fits if its length does. -/
theorem fits_plain {cs : List Char} {kind : Kind} {n : Nat} (hk : IsPlain kind) (hpos : 0 < n)
    (hle : n ≤ cs.length) (hm : ∀ text, kind.written? = some text → cs.take n = text.toList) :
    (plain kind n).Fits cs where
  pos := hpos
  le := hle
  kind_ne := ⟨hk.1, hk.2.1⟩
  spelled := hm
  filled := .inl rfl
  piece := nofun
  pieces_ne := fun h => absurd (hk.2.2.2.1.symm.trans h) nofun
  explained := fun h => absurd h hk.2.2.1
  whole := nofun
  comment := fun h => absurd (hk.2.2.2.2.symm.trans h) nofun
  faultless := fun _ => ⟨rfl, nofun⟩

/-- A comment without pieces fits if its length does. -/
theorem fits_comment {cs : List Char} {kind : Kind} {n : Nat} (hk : kind.isComment = true)
    (hc : cs.head? = some '/') (hpos : 0 < n) (hle : n ≤ cs.length) : (plain kind n).Fits cs := by
  obtain ⟨hend, herror, hread, hpieces, hwritten⟩ : kind ≠ .endOfFile ∧ kind ≠ .error ∧
      kind ≠ .errorSentinel ∧ kind.hasPieces = false ∧ kind.written? = none := by
    rcases Kind.isComment_iff.1 hk with rfl | rfl <;> exact ⟨nofun, nofun, nofun, rfl, rfl⟩
  exact {
    pos := hpos
    le := hle
    kind_ne := ⟨hend, herror⟩
    spelled := fun _ h => absurd (hwritten.symm.trans h) nofun
    filled := .inl rfl
    piece := nofun
    pieces_ne := fun h => absurd (hpieces.symm.trans h) nofun
    explained := fun h => absurd h hread
    whole := nofun
    comment := fun _ => hc
    faultless := fun _ => ⟨rfl, nofun⟩ }

/-- A lexeme that is one fault fits if its length does. -/
theorem fits_unreadable {cs : List Char} {n : Nat} {flags : TokenFlags} {fault : FaultKind}
    (hpos : 0 < n) (hle : n ≤ cs.length) (hf : fault ≠ .invalidEscape) :
    Fits cs { kind := .errorSentinel, length := n, flags, fault := some fault } where
  pos := hpos
  le := hle
  kind_ne := ⟨nofun, nofun⟩
  spelled := nofun
  filled := .inl rfl
  piece := nofun
  pieces_ne := nofun
  explained := fun _ => rfl
  whole := fun h => hf (Option.some.inj h)
  comment := nofun
  faultless := nofun

/-- A literal with pieces fits if its pieces are sound and its length does; only a literal that may
be faulty may hold an unreadable escape. -/
theorem fits_pieces {cs : List Char} {kind : Kind} {flags : TokenFlags}
    {pieces : List (Kind × Nat)} (hk : kind ≠ .endOfFile ∧ kind ≠ .error ∧ kind ≠ .errorSentinel)
    (hm : kind.written? = none) (hne : pieces ≠ []) (hle : piecesLength pieces ≤ cs.length)
    (hp : ∀ p ∈ pieces, 0 < p.2 ∧ p.1.isPiece = true)
    (hf : kind.mayBeFaulty = false → ∀ p ∈ pieces, p.1 ≠ .errorSentinel)
    (hc : kind.isComment = true → cs.head? = some '/') :
    Fits cs { kind, length := piecesLength pieces, flags, pieces } where
  pos := by
    obtain ⟨p, ps, rfl⟩ := List.exists_cons_of_ne_nil hne
    have := (hp p List.mem_cons_self).1
    simp only [piecesLength_cons]
    omega
  le := hle
  kind_ne := ⟨hk.1, hk.2.1⟩
  spelled := fun _ h => absurd (hm.symm.trans h) nofun
  filled := .inr rfl
  piece := hp
  pieces_ne := fun _ => hne
  explained := fun h => absurd h hk.2.2
  whole := nofun
  comment := hc
  faultless := fun h => ⟨rfl, hf h⟩

theorem length_takeWhile_le {α : Type} (p : α → Bool) (l : List α) :
    (l.takeWhile p).length ≤ l.length :=
  (List.takeWhile_sublist p).length_le

/-! ### Comments -/

theorem length_lineText_le (cs : List Char) : (Comment.lineText cs).length ≤ cs.length := by
  induction cs with
  | nil => simp [Comment.lineText]
  | cons c cs ih =>
    unfold Comment.lineText
    split
    · simp
    · split
      · simp
      · simpa using ih

theorem piecesLength_contentPiece (kind : Kind) (n : Nat) :
    piecesLength (Comment.contentPiece kind n) = n := by
  unfold Comment.contentPiece
  split
  · next h => simp [h]
  · simp

theorem mem_contentPiece {kind : Kind} {n : Nat} {p : Kind × Nat}
    (h : p ∈ Comment.contentPiece kind n) : p = (kind, n) ∧ 0 < n := by
  unfold Comment.contentPiece at h
  split at h
  · simp at h
  · next hn => exact ⟨by simpa using h, by omega⟩

theorem lineDoc_fits {cs : List Char} {marker : Kind} {flags : TokenFlags} {content : Nat}
    (hc : cs.head? = some '/') (hle : content + 3 ≤ cs.length)
    (hm : marker.isPiece = true ∧ marker ≠ .errorSentinel) :
    (Comment.lineDoc marker flags content).Fits cs := by
  have hlen : content + 3 =
      piecesLength ((.lineCommentStart, 2) :: (marker, 1) ::
        Comment.contentPiece .docComment content) := by
    simp only [piecesLength_cons, piecesLength_contentPiece]
    omega
  unfold Comment.lineDoc
  rw [hlen] at hle ⊢
  refine fits_pieces (by decide) rfl (by simp) hle (fun p hp => ?_) (fun _ p hp => ?_) fun _ => hc
  all_goals
    simp only [List.mem_cons] at hp
    rcases hp with rfl | rfl | hp
  · exact ⟨Nat.two_pos, rfl⟩
  · exact ⟨Nat.one_pos, hm.1⟩
  · obtain ⟨rfl, h⟩ := mem_contentPiece hp
    exact ⟨h, rfl⟩
  · nofun
  · exact hm.2
  · obtain ⟨rfl, -⟩ := mem_contentPiece hp
    nofun

theorem line_fits (cs : List Char) : (Comment.line ('/' :: '/' :: cs)).Fits ('/' :: '/' :: cs) := by
  have hle := length_lineText_le ('/' :: '/' :: cs)
  have htext : Comment.lineText ('/' :: '/' :: cs) = '/' :: '/' :: Comment.lineText cs := by
    simp [Comment.lineText]
  unfold Comment.line
  split
  · next heq =>
    rw [heq] at hle
    simp only [List.length_cons] at hle
    exact fits_comment rfl rfl (by omega) (by simp only [List.length_cons]; omega)
  · next heq =>
    rw [heq] at hle
    simp only [List.length_cons] at hle
    exact lineDoc_fits rfl (by simp only [List.length_cons]; omega) (by decide)
  · next heq =>
    rw [heq] at hle
    simp only [List.length_cons] at hle
    exact lineDoc_fits rfl (by simp only [List.length_cons]; omega) (by decide)
  · rw [htext] at hle ⊢
    exact fits_comment rfl rfl (by simp) hle

theorem closeLength_bounds {depth : Nat} {cs : List Char} {n : Nat}
    (h : Comment.closeLength? depth cs = some n) : 2 ≤ n ∧ n ≤ cs.length := by
  fun_induction Comment.closeLength? depth cs generalizing n with
  | case1 => simp at h
  | case2 cs =>
    obtain rfl : 2 = n := by simpa using h
    simp
  | case3 depth cs _ ih | case4 depth cs ih | case5 depth c cs _ _ ih =>
    obtain ⟨m, hm, rfl⟩ := Option.map_eq_some_iff.1 h
    have := ih hm
    simp only [List.length_cons]
    omega

theorem blockDoc_length {body : List Char} {marker : Kind} {flags : TokenFlags} {content : Nat}
    (h : Comment.blockDoc? body = some (marker, flags, content)) :
    content + 1 = body.length ∧ marker.isPiece = true ∧ marker ≠ .errorSentinel := by
  unfold Comment.blockDoc? at h
  split at h
  · simp only [Option.some.injEq, Prod.mk.injEq] at h
    obtain ⟨rfl, -, rfl⟩ := h
    exact ⟨by simp, rfl, nofun⟩
  · simp at h
  · simp at h
  · simp only [Option.some.injEq, Prod.mk.injEq] at h
    obtain ⟨rfl, -, rfl⟩ := h
    exact ⟨by simp, rfl, nofun⟩
  · simp at h

theorem block_fits (body : List Char) : (Comment.block body).Fits ('/' :: '*' :: body) := by
  unfold Comment.block
  split
  · exact fits_unreadable (by omega) (by simp) nofun
  · next n hn =>
    obtain ⟨h2, hle⟩ := closeLength_bounds hn
    split
    · exact fits_comment rfl rfl (by omega) (by simpa using hle)
    · next marker flags content hdoc =>
      obtain ⟨hlen, hm⟩ := blockDoc_length hdoc
      rw [List.length_take] at hlen
      have hn : n + 2 = piecesLength ((.blockCommentStart, 2) :: (marker, 1) ::
          (Comment.contentPiece .docComment content ++ [(.blockCommentEnd, 2)])) := by
        simp only [piecesLength_cons, piecesLength_append, piecesLength_contentPiece,
          piecesLength_nil]
        omega
      have hle' : n + 2 ≤ ('/' :: '*' :: body).length := by simpa using hle
      rw [hn] at hle' ⊢
      refine fits_pieces (by decide) rfl (by simp) hle' (fun p hp => ?_) (fun _ p hp => ?_)
        fun _ => rfl
      all_goals
        simp only [List.mem_cons, List.mem_append, List.not_mem_nil, or_false] at hp
        rcases hp with rfl | rfl | hp | rfl
      · exact ⟨Nat.two_pos, rfl⟩
      · exact ⟨Nat.one_pos, hm.1⟩
      · obtain ⟨rfl, h⟩ := mem_contentPiece hp
        exact ⟨h, rfl⟩
      · exact ⟨Nat.two_pos, rfl⟩
      · nofun
      · exact hm.2
      · obtain ⟨rfl, -⟩ := mem_contentPiece hp
        nofun
      · nofun

end Lexeme

end ConcreteSyntax
