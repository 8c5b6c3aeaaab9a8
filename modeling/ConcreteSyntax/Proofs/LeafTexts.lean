import ConcreteSyntax.Proofs.Node.Draft
import ConcreteSyntax.Proofs.Node.Retag
import ConcreteSyntax.Proofs.Token.Scanner
import ConcreteSyntax.Proofs.Termination
import ConcreteSyntax.Proofs.Text.Blank

/-! # The texts of leaves

A leaf that is not missing has the text that its kind asks for, if it asks for one, and it is
neither the end of the text nor a literal in one piece (`Node.Truthful`). Most kinds ask for nothing,
and those are the only ones that a node is given later on, when it is read again.

While a text is read, the kinds of all leaves tell the truth about their texts
(`Invariant.truthful`): the scanner reads a mark or a word just where it stands, a mark is cut or
joined only where its text allows, and a name becomes a word only if it spells that word. So in a
tree every mark and every word stands over its own text (`Tree.leaves_parse`). -/

namespace ConcreteSyntax

open Parse
open Text (Place)

section

/-- A leaf of this kind may have this text. -/
structure Kind.Suits (k : Kind) (text : String) : Prop where
  written : ∀ written, k.written? = some written → text = written
  notEnd : k ≠ .endOfFile
  /-- A literal between quotes is a node over its pieces. -/
  notLiteral : k.isCompositeLiteral = false

/-- The kinds of all leaves of a node suit their texts. -/
inductive Node.Truthful (source : String) : Node → Prop
  | mk {n : Node}
      (leaf : n.children = [] → n.flags.missing = false → n.kind.Suits (n.text source))
      (children : ∀ c ∈ n.children, c.2.Truthful source) : n.Truthful source

/-! ### Kinds -/

namespace Kind

theorem suits_of_isFree {k : Kind} (h : k.isFree = true) (text : String) : k.Suits text := by
  simp only [isFree, Bool.and_eq_true, bne_iff_ne, Bool.not_eq_true'] at h
  obtain ⟨⟨⟨⟨⟨⟨-, hnone⟩, -⟩, hliteral⟩, hend⟩, -⟩, -⟩ := h
  refine ⟨fun written hw => ?_, hend, hliteral⟩
  have hsome : k.written?.isNone = false := by rw [hw]; rfl
  cases hnone.symm.trans hsome

theorem suits_error (text : String) : Kind.error.Suits text := ⟨nofun, nofun, rfl⟩

theorem suits_of_isComment {k : Kind} (h : k.isComment = true) (text : String) : k.Suits text := by
  rcases isComment_iff.1 h with rfl | rfl <;> exact ⟨nofun, nofun, rfl⟩

/-- A piece is nothing that a token could be, but for what could not be read. -/
theorem suits_of_isPiece {k : Kind} (h : k.isPiece = true) (text : String) : k.Suits text := by
  have hplain : k.written? = none ∧ k ≠ .endOfFile ∧ k.isCompositeLiteral = false := by
    revert h
    cases k <;> decide
  refine ⟨fun written hw => ?_, hplain.2.1, hplain.2.2⟩
  exact nomatch hplain.1.symm.trans hw

theorem suits_of_wordText {k : Kind} {text : String} (h : k.wordText = some text) :
    k.Suits text := by
  have hplain : k ≠ .endOfFile ∧ k.isCompositeLiteral = false := by
    have hsome : k.wordText.isSome = true := by rw [h]; rfl
    revert hsome
    cases k <;> decide
  exact ⟨fun written hw => Option.some.inj ((written?_of_word h).symm.trans hw), hplain.1, hplain.2⟩

end Kind

variable {source : String}

namespace Node

theorem Truthful.children {n : Node} (h : n.Truthful source) :
    ∀ c ∈ n.children, c.2.Truthful source := by
  cases h
  assumption

/-! ### Finishing -/

theorem truthful_finishOver {d : Draft} (h : ∀ c ∈ d.children.toList, c.2.Truthful source)
    (hk : ∀ text, d.kind.Suits text) (range : Range) : (d.finishOver range).Truthful source :=
  ⟨fun _ _ => hk _, h⟩

theorem truthful_leaf {kind : Kind} {range : Range} {flags : NodeFlags}
    (h : flags.missing = false → kind.Suits (range.slice source)) :
    (leaf kind range flags).Truthful source := by
  refine ⟨fun _ hm => h ?_, nofun⟩
  unfold leaf at hm
  dsimp only at hm
  split at hm <;> exact hm

/-! ### Reading again -/

theorem truthful_withKind {n : Node} {kind : Kind} (h : n.Truthful source)
    (hk : kind.isFree = true) : (n.withKind kind).Truthful source :=
  ⟨fun _ _ => Kind.suits_of_isFree hk _, h.children⟩

theorem truthful_withFlags {n : Node} (h : n.Truthful source) (error ambiguous : Bool) :
    (n.withFlags { error, ambiguous }).Truthful source := by
  obtain ⟨leaf, children⟩ := h
  refine ⟨fun hn hm => leaf hn ?_, children⟩
  simpa [withFlags, NodeFlags.union] using hm

theorem lasting_truthful : Lasting (Truthful source) where
  children h := h.children
  renamed _ hk h := truthful_withKind h (Kind.isFree_of_isReread (Kind.isReread_of_isPathEnd hk))
  rebuilt hk h :=
    truthful_finishOver (by simpa using h) (Kind.suits_of_isFree (Kind.isFree_of_isReread hk)) _

/-! ### Tokens -/

/-- A node over the pieces of a token. -/
theorem truthful_ofPieces {kind : Kind} {flags : NodeFlags} {range : Range} {pieces : List Piece}
    (hk : ∀ text, kind.Suits text) (hp : ∀ p ∈ pieces, p.kind.isPiece = true) :
    (ofPieces kind flags range pieces).Truthful source := by
  refine truthful_finishOver (List.forall_mem_map.2 fun p h => ?_) hk range
  exact truthful_leaf fun _ => Kind.suits_of_isPiece (hp p h) _

theorem truthful_ofComment {t : Token} (hl : t.Laid) (hc : t.kind.isComment = true) :
    (ofComment t).Truthful source := by
  unfold ofComment
  split
  · exact truthful_leaf fun _ => Kind.suits_of_isComment hc _
  · exact truthful_ofPieces (Kind.suits_of_isComment hc) hl.isPiece

/-- A token with the text that its kind asks for, read under a kind that asks for no other. -/
theorem truthful_ofToken {t : Token} (hl : t.Laid) (hend : t.kind ≠ .endOfFile)
    (ht : ∀ written, t.kind.written? = some written → t.text source = written) {as? : Option Kind}
    (has : ∀ kind, as? = some kind → kind.Suits (t.text source)) :
    (ofToken t as?).Truthful source := by
  rcases ofToken_cases t as? with ⟨kind, hkind, he⟩ | ⟨he, hliteral⟩ <;> rw [he]
  · exact truthful_ofPieces (Kind.suits_of_isFree (Kind.isFree_of_isPieced hkind)) hl.isPiece
  · refine truthful_leaf fun _ => ?_
    cases as? with
    | none => exact ⟨ht, hend, hliteral⟩
    | some kind => exact has kind rfl

end Node

end

/-- The text of a token that is a mark or a word is what its kind asks for. -/
theorem Scanner.Sound.text_eq {source : String} {s : Scanner} (h : s.Sound source.toList)
    {written : String} (hk : s.kind.written? = some written) : s.token.text source = written := by
  have hrest := h.spelled written hk
  have hstart := h.start.2.offset_add
  have hstop := h.here.2.offset_add
  have hlength : s.here.offset = s.start.offset + Text.byteLength written.toList := by
    rw [hrest, Text.byteLength_append] at hstart
    omega
  have hplace : Place source.toList s.start.offset (written.toList ++ s.here.rest) :=
    hrest ▸ h.start.2
  rw [Token.text, h.range, hlength, Range.slice_eq hplace, String.ofList_toList]

theorem Standing.Tells.suits {F : Standing} {k : Kind} (h : F.Tells k) (text : String) :
    k.Suits text := by
  rcases h.isFree with h | rfl
  · exact Kind.suits_of_isFree h text
  · exact Kind.suits_error text

variable {source : String}

/-! ### Hands and sessions -/

/-- The nodes in the hands are truthful. -/
def Hand.Truthful (source : String) : Hand → Prop
  | .empty | .lost => True
  | .node n => n.Truthful source
  | .draft d F => (∀ c ∈ d.children.toList, c.2.Truthful source) ∧ F.Tells d.kind

/-- The nodes in the open draft and in the hands are truthful. -/
structure Session.Truthful (source : String) (s : Session) (h : Hand) (F : Standing) : Prop where
  draft : ∀ c ∈ s.draft.children.toList, c.2.Truthful source
  kind : F.Tells s.draft.kind
  hand : h.Truthful source

/-- Changes to what is in the hands give only kinds that ask for no text. -/
theorem Hand.Truthful.becomes {h h' : Hand} {o : Bool} (ht : h.Truthful source)
    (hb : h.Becomes o h') : h'.Truthful source := by
  cases hb with
  | same => exact ht
  | kind n hk => exact Node.truthful_withKind ht (Kind.isFree_of_isName hk)
  | type n => exact Node.lasting_truthful.asType ht
  | path n => exact Node.lasting_truthful.asPath ht
  | chain n => exact Node.lasting_truthful.asLetChain ht
  | ambiguous n => exact Node.truthful_withFlags ht false true
  | error n => exact Node.truthful_withFlags ht true false
  | retag d hk => exact ⟨ht.1, hk⟩
  | explained d hF => exact ⟨ht.1, hF.tells ht.2⟩
  | nothing d => trivial
  | lost => trivial

/-- The comments before a token go into the open draft. -/
theorem Session.Truthful.flushed {s : Session} {F : Standing} (hs : s.Truthful source .empty F)
    {text : List Char} (hsound : s.Sound text) (σ : Setting) :
    (s.flushed σ).Truthful source .empty F := by
  unfold Session.flushed
  split
  · have hcomments : ∀ c ∈ s.comments, c.2.Truthful source := by
      refine List.forall_mem_map.2 fun t ht => ?_
      obtain ⟨hl, hk⟩ := hsound.leading.of_mem ht
      exact Node.truthful_ofComment hl hk
    exact ⟨Draft.forall_mem_extend.2 ⟨hs.draft, hcomments⟩, hs.kind, trivial⟩
  · exact ⟨hs.draft, hs.kind, trivial⟩

/-! ### The invariant -/

/-- The kinds of all leaves tell the truth about their texts. -/
def Invariant.truthful (source : String) (options : Options) :
    Invariant source.toList options Unit where
  holds _ h F s := s.Truthful source h F
  stands hF hs := ⟨hs.draft, hF.tells hs.kind, hs.hand⟩
  becomes _ _ hh hs := ⟨hs.draft, hs.kind, hs.hand.becomes hh⟩
  beside hb hs := ⟨hb.draft ▸ hs.draft, hb.draft ▸ hs.kind, hs.hand⟩
  reshaped _ hs := ⟨hs.draft, hs.kind, hs.hand⟩
  flushed _ hsound hs := hs.flushed hsound _
  taken := by
    rintro _ F σ s as? next hσ hsound hk has hs
    obtain ⟨hdraft, hkind, -⟩ := hs.flushed hsound σ
    have hsource : σ.source = source := String.toList_inj.1 hσ.source
    refine ⟨hdraft, hkind, Node.truthful_ofToken hsound.scanner.laid hk
      (fun _ => hsound.scanner.text_eq) fun kind hkind => ?_⟩
    rcases has kind hkind with hname | hword
    · exact Kind.suits_of_isFree (Kind.isFree_of_isName hname) _
    · exact hsource ▸ Kind.suits_of_wordText hword
  pushed _ hs := ⟨Draft.forall_mem_pushChild.2 ⟨hs.draft, hs.hand⟩, hs.kind, trivial⟩
  unpacked _ _ hs :=
    ⟨Draft.forall_mem_extend.2 ⟨hs.draft, Node.Truthful.children hs.hand⟩, hs.kind, trivial⟩
  spread hs := ⟨Draft.forall_mem_extend.2 ⟨hs.draft, hs.hand.1⟩, hs.kind, trivial⟩
  renamed _ hk hs := ⟨hs.draft, hk, hs.hand⟩
  failed _ hs := ⟨Draft.forall_mem_clearFields.2 hs.draft, .inr rfl, hs.hand⟩
  opened hk _ hs :=
    ⟨(), ⟨nofun, hk.tells, hs.hand⟩, fun _ ht => ⟨hs.draft, hs.kind, ht.draft, ht.kind⟩⟩
  reopened hs :=
    ⟨(), ⟨hs.hand.1, hs.hand.2, trivial⟩, fun _ ht => ⟨hs.draft, hs.kind, ht.draft, ht.kind⟩⟩
  finished _ _ hs :=
    ⟨hs.draft, hs.kind, Node.truthful_finishOver hs.hand.1 hs.hand.2.suits _⟩
  missing _ _ _ hs := ⟨hs.draft, hs.kind, Node.truthful_leaf nofun⟩
  limited _ hb _ hs := ⟨hb.draft ▸ hs.draft, hb.draft ▸ hs.kind, trivial⟩

/-! ### Whole trees -/

theorem Setting.run_truthful {σ : Setting} {s : Session} (h : σ.run? = some s) :
    s.Truthful σ.source .empty .proper := by
  have hstart : (Session.start σ.source).Truthful σ.source .empty .proper := ⟨nofun, rfl, trivial⟩
  exact σ.run_keeps (.truthful _ _) (b := ()) hstart h

/-- **The kinds of leaves tell the truth.** A leaf that is not missing and is a mark stands over the
text of that mark, one that is a word over the text of that word, so a raw name is never one; and no
leaf is the end of the text or a literal between quotes. -/
theorem Tree.leaves_parse (file source : String) (options : Options) :
    ∀ n ∈ (parse file source options).root.leaves, n.isMissing = false →
      (n.kind.isMark = true → n.kind.markText = some (n.text source)) ∧
      (n.kind.isWord = true → n.kind.wordText = some (n.text source)) ∧
      (∀ name : String, n.text source = "r#" ++ name → n.kind.isWord = false) ∧
      n.kind ∉ [Kind.endOfFile, .stringToken, .rawStringToken, .charToken] := by
  obtain ⟨s, hrun, htree⟩ := Tree.parse_ends file source options
  have hend := Setting.run_truthful (hrun false)
  have hroot : (parse file source options).root.Truthful source := by
    rw [htree]
    exact Node.truthful_finishOver hend.draft hend.kind.suits _
  intro n hn hmissing
  obtain ⟨hn, hleaf⟩ := List.mem_filter.1 hn
  have htruthful := Node.forall_mem_preorder (fun _ h => h.children) hroot n hn
  obtain ⟨hleaves, -⟩ := htruthful
  obtain ⟨hwritten, hnotEnd, hliteral⟩ := hleaves (by simpa [Node.isLeaf] using hleaf) hmissing
  have hword (h : n.kind.isWord = true) : n.kind.wordText = some (n.text source) := by
    obtain ⟨word, hw⟩ := Kind.exists_wordText h
    rw [hw, hwritten word (Kind.written?_of_word hw)]
  refine ⟨fun h => ?_, hword, fun name hname => ?_, ?_⟩
  · obtain ⟨mark, hm⟩ := Kind.exists_markText h
    rw [hm, hwritten mark (Kind.written?_of_mark hm)]
  · cases hk : n.kind.isWord with
    | false => rfl
    | true => exact absurd (hname ▸ hword hk) (Kind.wordText_ne_raw _ _)
  · intro h
    simp only [List.mem_cons, List.not_mem_nil, or_false] at h
    rcases h with h | h | h | h
    · exact hnotEnd h
    all_goals
      rw [h] at hliteral
      cases hliteral

/-- The leaf of a `let` stands over that word. -/
theorem Tree.leaves_parse_let :
    Node.leaf .letKw ⟨0, 3⟩ {} ∈ (parse "" "let" {}).root.leaves ∧
      (Node.leaf .letKw ⟨0, 3⟩ {}).isMissing = false ∧
      Kind.letKw.wordText = some ((Node.leaf .letKw ⟨0, 3⟩ {}).text "let") := by
  have hleaf : Node.leaf .letKw ⟨0, 3⟩ {} ∈ (parse "" "let" {}).root.leaves := by decide +kernel
  have hthere : (Node.leaf .letKw ⟨0, 3⟩ {}).isMissing = false := rfl
  exact ⟨hleaf, hthere, (leaves_parse "" "let" {} _ hleaf hthere).2.1 rfl⟩

end ConcreteSyntax
