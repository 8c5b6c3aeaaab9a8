import ConcreteSyntax.Proofs.Node.Marked
import ConcreteSyntax.Proofs.Termination

/-! # The marks of a tree

While a text is read, all nodes that were built are marked as they should be, and what is in the
hands is no comment (`Invariant.marked`). So the marks of a tree can be trusted: a node has the mark
of an error below it just if some node below it is an error or a missing token, and the root tells
whether any is (`Tree.marks_parse`). -/

namespace ConcreteSyntax

open Parse

/-! ### Hands and sessions -/

/-- What is in the hands is marked as it should be, and no comment. -/
def Hand.Marked : Hand → Prop
  | .empty | .lost => True
  | .node n => n.Marked ∧ n.kind.isComment = false
  | .draft d F => d.Marked ∧ F.Tells d.kind

/-- The open draft and what is in the hands are marked as they should be. -/
structure Session.Marked (s : Session) (h : Hand) (F : Standing) : Prop where
  draft : s.draft.Marked
  kind : F.Tells s.draft.kind
  hand : h.Marked

theorem Standing.Tells.isComment {F : Standing} {k : Kind} (h : F.Tells k) :
    k.isComment = false := by
  rcases h.isFree with h | rfl
  · exact Kind.isComment_of_isFree h
  · rfl

theorem Standing.Tells.isNamed {F : Standing} {k : Kind} (h : F.Tells k) : k.isNamed = true := by
  rcases h.isFree with h | rfl
  · exact Kind.isNamed_of_isFree h
  · rfl

namespace Hand.Marked

variable {h h' : Hand} {o : Bool}

/-- Changes to what is in the hands keep the marks. -/
theorem becomes (hm : h.Marked) (hb : h.Becomes o h') : h'.Marked := by
  cases hb with
  | same => exact hm
  | kind n hk =>
    have hfree := Kind.isFree_of_isName hk
    exact ⟨Node.marked_withKind hm.1 hm.2 hfree, Kind.isComment_of_isFree hfree⟩
  | type n => exact ⟨Node.lasting_marked.asType hm.1, Node.isComment_of_reread n.asType_eq_or hm.2⟩
  | path n => exact ⟨Node.lasting_marked.asPath hm.1, Node.isComment_of_reread n.asPath_eq_or hm.2⟩
  | chain n =>
    exact ⟨Node.lasting_marked.asLetChain hm.1, Node.isComment_of_reread n.asLetChain_eq_or hm.2⟩
  | ambiguous n => exact ⟨Node.marked_withFlags hm.1 false true, hm.2⟩
  | error n => exact ⟨Node.marked_withFlags hm.1 true false, hm.2⟩
  | retag d hk => exact ⟨hm.1.setKind (Kind.ne_of_isFree hk).1, hk⟩
  | explained d hF => exact ⟨hm.1, hF.tells hm.2⟩
  | nothing d => trivial
  | lost => trivial

end Hand.Marked

namespace Session.Marked

variable {text : List Char} {s : Session} {h : Hand} {F : Standing}

/-- The comments before a token go into the open draft. -/
theorem flushed (hs : s.Marked .empty F) (hsound : s.Sound text) (σ : Setting) :
    (s.flushed σ).Marked .empty F := by
  unfold Session.flushed
  split
  · have hcomments : ∀ c ∈ s.comments, c.2.Marked ∧ c.1 = none := by
      intro c hc
      obtain ⟨t, ht, rfl⟩ := List.mem_map.1 hc
      obtain ⟨hl, hk⟩ := hsound.leading.of_mem ht
      exact ⟨Node.marked_ofComment hl hk, rfl⟩
    exact ⟨hs.draft.extend (fun c hc => (hcomments c hc).1) fun _ c hc => (hcomments c hc).2,
      hs.kind, trivial⟩
  · exact ⟨hs.draft, hs.kind, trivial⟩

/-- A label is given only in a draft that did not fail. -/
theorem pushed {n : Node} {label : Option Field} (hs : s.Marked (.node n) F)
    (hl : label = none ∨ F = .proper) :
    (s.withDraft (s.draft.pushChild label n)).Marked .empty F := by
  refine ⟨hs.draft.pushChild hs.hand.1 fun hk => ?_, hs.kind, trivial⟩
  rcases hl with hl | rfl
  · exact hl
  · exact absurd hk (Kind.ne_of_isFree hs.kind).1

end Session.Marked

/-! ### The invariant -/

/-- Everything that was built is marked as it should be. -/
def Invariant.marked (text : List Char) (options : Options) : Invariant text options Unit where
  holds _ h F s := s.Marked h F
  stands hF hs := ⟨hs.draft, hF.tells hs.kind, hs.hand⟩
  becomes _ _ hh hs := ⟨hs.draft, hs.kind, hs.hand.becomes hh⟩
  beside hb hs := ⟨hb.draft ▸ hs.draft, hb.draft ▸ hs.kind, hs.hand⟩
  reshaped _ hs := ⟨hs.draft, hs.kind, hs.hand⟩
  flushed _ hsound hs := hs.flushed hsound _
  taken := by
    rintro _ F σ s as? next - hsound hk has hs
    obtain ⟨hdraft, hkind, -⟩ := hs.flushed hsound σ
    refine ⟨hdraft, hkind, Node.marked_ofToken hsound.scanner.laid hsound.scanner.noComment
      fun kind hkind => ?_⟩
    rcases has kind hkind with hname | hword
    · have hfree := Kind.isFree_of_isName hname
      exact ⟨(Kind.ne_of_isFree hfree).1, Kind.isComment_of_isFree hfree⟩
    · exact ⟨(Kind.ne_of_wordText hword).1, Kind.isComment_of_wordText hword⟩
  pushed hl hs := hs.pushed hl
  unpacked := by
    rintro _ s token hl hne ⟨hdraft, hkind, hn, -⟩
    have hchildren : ∀ c ∈ (Node.ofToken token none).children, c.1 = none := by
      intro c hc
      obtain ⟨p, -, rfl⟩ := Node.mem_children_ofToken hc
      rfl
    exact ⟨(hdraft.addError _).extend hn.children fun _ => hchildren, hkind, trivial⟩
  spread := by
    rintro _ s d ⟨hdraft, hkind, hd, -⟩
    exact ⟨hdraft.extend hd.children fun hk => absurd hk (Kind.ne_of_isFree hkind).1, hkind,
      trivial⟩
  renamed _ hk hs := ⟨hs.draft.setKind (Kind.ne_of_isFree hk).1, hk, hs.hand⟩
  failed _ hs := ⟨hs.draft.fail, .inr rfl, hs.hand⟩
  opened := by
    intro _ h F F₀ s kind hk _ hs
    exact ⟨(), ⟨Draft.marked_ofKind kind, hk.tells, hs.hand⟩,
      fun _ ht => ⟨hs.draft, hs.kind, ht.draft, ht.kind⟩⟩
  reopened := by
    intro _ F F₀ s d hs
    exact ⟨(), ⟨hs.hand.1, hs.hand.2, trivial⟩,
      fun _ ht => ⟨hs.draft, hs.kind, ht.draft, ht.kind⟩⟩
  finished := by
    rintro _ F F₀ s d - - ⟨hdraft, hkind, hd, hk⟩
    exact ⟨hdraft, hkind, Node.marked_finishOver hd hk.isComment hk.isNamed _, hk.isComment⟩
  missing := by
    rintro _ F s kind hk - - ⟨hdraft, hkind, -⟩
    simp only [Kind.isStandIn, Bool.and_eq_true, bne_iff_ne, Bool.not_eq_true'] at hk
    obtain ⟨⟨⟨⟨hcomment, -⟩, -⟩, hne⟩, -⟩ := hk
    exact ⟨hdraft, hkind, Node.marked_leaf hne rfl (fun _ => rfl) hcomment.symm, hcomment⟩
  limited _ hb _ hs := ⟨hb.draft ▸ hs.draft, hb.draft ▸ hs.kind, trivial⟩

/-! ### Whole trees -/

/-- At the end of a reading everything is marked as it should be. -/
theorem Setting.run_marked {σ : Setting} {s : Session} (h : σ.run? = some s) :
    s.Marked .empty .proper := by
  have hstart : (Session.start σ.source).Marked .empty .proper :=
    ⟨Draft.marked_ofKind _, rfl, trivial⟩
  exact σ.run_keeps (.marked _ _) (b := ()) hstart h

theorem Tree.marked_parse (file source : String) (options : Options) :
    (parse file source options).root.Marked := by
  obtain ⟨s, hrun, htree⟩ := Tree.parse_ends file source options
  have hend := Setting.run_marked (hrun false)
  rw [htree]
  exact Node.marked_finishOver hend.draft hend.kind.isComment hend.kind.isNamed _

/-- **The marks of a tree can be trusted.** A node has the mark of an error below it just if a node
below it is an error or a missing token; an error has the mark of one and no labels; a missing token
is an empty leaf; the extras are the comments. So the root tells whether any node is an error or a
missing token. -/
theorem Tree.marks_parse (file source : String) (options : Options) :
    (∀ n ∈ (parse file source options).root.preorder,
      (n.flags.hasError = true ↔
        ∃ m ∈ n.preorder.tail, m.kind = .error ∨ m.flags.error = true ∨ m.isMissing = true) ∧
      (n.kind = .error → n.flags.error = true ∧ ∀ c ∈ n.children, c.1 = none) ∧
      (n.isMissing = true → n.isLeaf = true ∧ n.range.start = n.range.stop) ∧
      (n.isExtra = true ↔ n.kind = .lineComment ∨ n.kind = .blockComment)) ∧
    ((parse file source options).root.hasError = true ↔
      ∃ n ∈ (parse file source options).root.preorder, n.isError = true ∨ n.isMissing = true) := by
  have hroot := marked_parse file source options
  refine ⟨fun n hn => ?_, hroot.hasError_iff⟩
  have hmarked := Node.forall_mem_preorder (fun _ h => h.children) hroot n hn
  have hbelow := hmarked.below_iff
  simp only [Node.isError, Bool.or_eq_true, beq_iff_eq, or_assoc] at hbelow
  obtain ⟨-, herror, hmissing, hextra, -⟩ := hmarked
  refine ⟨hbelow, herror, fun h => ?_, ?_⟩
  · obtain ⟨hnil, hempty⟩ := hmissing h
    exact ⟨by simp [Node.isLeaf, hnil], hempty⟩
  · rw [Node.isExtra, hextra]
    exact Kind.isComment_iff

end ConcreteSyntax
