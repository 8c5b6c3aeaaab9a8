import ConcreteSyntax.Proofs.Node.Rereadable
import ConcreteSyntax.Proofs.Reading.Take
import ConcreteSyntax.Proofs.Token.Pieces
import ConcreteSyntax.Proofs.Token.Repertoire

/-! # Tokens that are plain nodes

A token is *legible* if it becomes a node that is not rebuilt when it is read again
(`Token.Legible`). Wherever the scanner stands, it moves on to a legible token behind legible comments
(`Scanner.legible_scan`). -/

namespace ConcreteSyntax

theorem Kind.isRejoined_of_lexeme {k : Kind} (h : k ∈ Lexeme.kinds) : k.isRejoined = false := by
  revert k
  decide +kernel

/-! ### Tokens -/

/-- A token of a kind that is not rebuilt, with pieces of such kinds. -/
structure Token.Legible (t : Token) : Prop where
  kind : t.kind.isRejoined = false
  isPiece : ∀ p ∈ t.pieces, p.kind.isPiece = true

namespace Node

variable {t : Token}

theorem plain_ofComment (h : t.Legible) : (ofComment t).Plain := by
  unfold ofComment
  split
  · exact plain_leaf h.kind _ _
  · exact plain_ofPieces h.kind h.isPiece

/-- A token under whatever kind it is read. -/
theorem plain_ofToken (h : t.Legible) {as? : Option Kind}
    (has : ∀ kind ∈ as?, kind.isRejoined = false) : (ofToken t as?).Plain := by
  rcases ofToken_cases t as? with ⟨kind, hkind, he⟩ | ⟨he, -⟩ <;> rw [he]
  · exact plain_ofPieces (Kind.isRejoined_of_isPieced hkind) h.isPiece
  · cases as? with
    | none => exact plain_leaf h.kind _ _
    | some kind => exact plain_leaf (has kind rfl) _ _

end Node

/-! ### Lexemes -/

/-- A lexeme that makes a legible token. -/
structure Lexeme.Legible (l : Lexeme) : Prop where
  kind : l.kind ∈ kinds
  isPiece : ∀ p ∈ l.pieces, p.1.isPiece = true

namespace Lexeme

theorem Legible.place {l : Lexeme} (h : l.Legible) (offset : Nat) (cs : List Char) :
    (l.place offset cs).Legible := by
  refine ⟨Kind.isRejoined_of_lexeme h.kind, fun p hp => ?_⟩
  have hkind : p.kind ∈ (placePieces offset cs l.pieces).map (·.kind) := List.mem_map_of_mem hp
  rw [map_kind_placePieces] at hkind
  obtain ⟨q, hq, hk⟩ := List.mem_map.1 hkind
  exact hk ▸ h.isPiece q hq

variable [Text.Xid] {admitted : Admitted} {cs : List Char} {l : Lexeme}

theorem legible_contextual (h : contextual? admitted cs = some l) : l.Legible :=
  ⟨contextual_mem_kinds h, fun p hp => ((contextual_fits h).piece p hp).2⟩

theorem legible_next (admitted : Admitted) (cs : List Char) :
    (next contextual? admitted cs).Legible := by
  refine ⟨next_mem_kinds admitted cs, fun p hp => ?_⟩
  cases cs with
  | nil => exact nomatch hp
  | cons c cs =>
    rcases @next_fits_or _ admitted _ (List.cons_ne_nil c cs) with hfits | ⟨hplain, -⟩
    · exact (hfits.piece p hp).2
    · rw [hplain] at hp
      exact nomatch hp

end Lexeme

section

/-! ### The scanner -/

/-- A scanner at a legible token behind legible comments. -/
structure Scanner.Legible (s : Scanner) : Prop where
  token : s.token.Legible
  leading : ∀ t ∈ s.leading, t.Legible

variable [Text.Xid]

/-- The comments that are skipped are legible, and so is one that does not end. -/
theorem Trivia.legible_skip (admitted : Admitted) (offset : Nat) (lineBreak : Bool)
    (comments : Array Token) (cs : List Char) (h : ∀ t ∈ comments.toList, t.Legible) :
    (∀ t ∈ (skip Lexeme.contextual? admitted offset lineBreak comments cs).comments.toList,
      t.Legible) ∧
    ∀ l, (skip Lexeme.contextual? admitted offset lineBreak comments cs).endless = some l →
      l.Legible := by
  have hdone : ∀ l, (none : Option Lexeme) = some l → l.Legible := by
    intro l hl
    cases hl
  fun_induction skip Lexeme.contextual? admitted offset lineBreak comments cs with
  | case1 => exact ⟨h, hdone⟩
  | case2 offset lineBreak comments c rest hw ih => exact ih h
  | case3 offset lineBreak comments c rest hw hslash hl =>
    simp only [hl]
    exact ⟨h, hdone⟩
  | case4 offset lineBreak comments c rest hw hslash l hcomment hl token ih =>
    simp only [hl, hcomment, if_true]
    refine ih fun t ht => ?_
    rw [Array.toList_push, List.mem_append, List.mem_singleton] at ht
    rcases ht with ht | rfl
    · exact h t ht
    · exact (Lexeme.legible_contextual hl).place _ _
  | case5 offset lineBreak comments c rest hw hslash l hcomment hl =>
    simp only [hl, hcomment]
    refine ⟨h, ?_⟩
    rintro _ ⟨⟩
    exact Lexeme.legible_contextual hl
  | case6 => exact ⟨h, hdone⟩

namespace Scanner

theorem Legible.readToken (admitted : Admitted) {s : Scanner} (h : ∀ t ∈ s.leading, t.Legible)
    (place : Cursor) : (s.readToken Lexeme.contextual? admitted place).Legible := by
  unfold Scanner.readToken
  split
  · exact ⟨⟨rfl, List.forall_mem_nil _⟩, h⟩
  · exact ⟨(Lexeme.legible_next admitted place.rest).place _ _, h⟩

omit [Text.Xid] in
theorem Legible.markLineBreak {s : Scanner} (h : s.Legible) (lineBreak : Bool) :
    (s.markLineBreak lineBreak).Legible := by
  unfold Scanner.markLineBreak
  split
  · exact ⟨⟨h.token.kind, h.token.isPiece⟩, h.leading⟩
  · exact h

/-- **The scanner moves on to a legible token.** -/
theorem legible_scan (admitted : Admitted) (s : Scanner) :
    (s.scan Lexeme.contextual? admitted).Legible := by
  have hnone : ∀ t ∈ (#[] : Array Token).toList, t.Legible := List.forall_mem_nil _
  obtain ⟨hcomments, hendless⟩ :=
    Trivia.legible_skip admitted s.here.offset false #[] s.here.rest hnone
  have hbare : ∀ t ∈ ([] : List Token), t.Legible := List.forall_mem_nil _
  have h := moves_scan admitted s
  generalize s.scan Lexeme.contextual? admitted = t at h ⊢
  cases h with
  | suffix _ _ hl => exact ⟨(Lexeme.legible_contextual hl).place _ _, hbare⟩
  | shebang _ hl =>
    have hkind : _ = Kind.shebang := shebang_kind hl
    exact ⟨Lexeme.Legible.place ⟨List.mem_append_left _ (hkind ▸ List.mem_cons_self),
      fun p hp => ((shebang_fits hl).1.piece p hp).2⟩ _ _, hbare⟩
  | inside => exact .readToken _ hbare _
  | endless _ hl => exact ⟨(hendless _ hl).place _ _, hcomments⟩
  | past => exact (Legible.readToken _ hcomments _).markLineBreak _

omit [Text.Xid] in
theorem Legible.split {s : Scanner} (h : s.Legible) {first : Kind}
    (hk : first.isRejoined = false) : (s.split first).Legible := by
  have hresized (bytes : Nat) : (s.resize first bytes).Legible :=
    ⟨⟨hk, List.forall_mem_nil _⟩, h.leading⟩
  unfold Scanner.split
  exact iteInduction (fun _ => hresized _) fun _ => h

omit [Text.Xid] in
theorem Legible.joinGreater {s : Scanner} (h : s.Legible) : s.joinGreater.Legible := by
  have hresized {kind : Kind} (hk : kind.isRejoined = false) (bytes : Nat) :
      (s.resize kind bytes).Legible := ⟨⟨hk, List.forall_mem_nil _⟩, h.leading⟩
  unfold Scanner.joinGreater
  split
  · exact h
  · split
    · exact hresized rfl 3
    · exact hresized rfl 2
    · exact hresized rfl 2
    · exact h

end Scanner

end

/-! ### Sessions -/

/-- A session at a legible token behind legible comments. -/
def Session.Legible (s : Session) : Prop := s.scanner.Legible

namespace Session

theorem legible_start (text : String) : (start text).Legible := Scanner.legible_scan _ _

namespace Legible

variable {s : Session}

theorem plain_comments (h : s.Legible) : ∀ c ∈ s.comments, c.2.Plain :=
  List.forall_mem_map.2 fun t ht => Node.plain_ofComment (h.leading t ht)

theorem flushed (h : s.Legible) (σ : Setting) : (s.flushed σ).Legible :=
  ⟨h.token, List.forall_mem_nil _⟩

theorem taken (s : Session) (σ : Setting) (next : Admitted) : (s.taken σ next).Legible :=
  Scanner.legible_scan _ _

end Legible

end Session

end ConcreteSyntax
