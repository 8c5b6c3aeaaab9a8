import ConcreteSyntax.Proofs.Node.Draft
import ConcreteSyntax.Proofs.Reading.Take
import ConcreteSyntax.Proofs.TokenTree.Sequence

/-! # The brackets of a tree

What groups and repetitions a node holds, with their delimiters and one inside another
(`Node.brackets`), and what is added to a draft of them while it is filled (`Draft.Adds`). Tokens
and comments hold none, whatever pieces they fall into (`Node.Bare`). -/

namespace ConcreteSyntax

open Node (ofToken ofComment ofPieces leaf)

/-! ### Kinds -/

namespace Kind

/-- Whether a token of this kind opens or closes a group. -/
def isDelimiter (k : Kind) : Bool := k.isOpen || k.isClose

theorem isDelimiter_of_isPieced {k : Kind} (h : k.isPieced = true) : k.isDelimiter = false := by
  unfold isPieced at h
  split at h
  all_goals first | rfl | exact nomatch h

theorem isDelimiter_of_isPiece {k : Kind} (h : k.isPiece = true) : k.isDelimiter = false := by
  cases k <;> first | rfl | exact nomatch h

theorem isDelimiter_of_isComment {k : Kind} (h : k.isComment = true) : k.isDelimiter = false := by
  rcases isComment_iff.1 h with rfl | rfl <;> rfl

end Kind

namespace TreeForm

variable {form : TreeForm} {k : Kind}

/-- Whether a node of this kind is a group or a repetition. -/
def isTree (form : TreeForm) (k : Kind) : Bool := k == form.groupKind || k == form.repetitionKind

/-- Only a node of a tree is one. -/
theorem isTree_eq_false (h : k ≠ form.groupKind ∧ k ≠ form.repetitionKind) :
    form.isTree k = false := by
  simp [isTree, h.1, h.2]

theorem isTree_of_isPieced (h : k.isPieced = true) : form.isTree k = false := by
  refine isTree_eq_false ⟨?_, ?_⟩ <;> (rintro rfl; cases form <;> exact nomatch h)

theorem isTree_of_isPiece (h : k.isPiece = true) : form.isTree k = false := by
  refine isTree_eq_false ⟨?_, ?_⟩ <;> (rintro rfl; cases form <;> exact nomatch h)

theorem isTree_of_isComment (h : k.isComment = true) : form.isTree k = false := by
  refine isTree_eq_false ⟨?_, ?_⟩ <;> (rintro rfl; cases form <;> exact nomatch h)

/-- Tokens are none. -/
theorem isTree_of_isToken (h : k.isToken = true) : form.isTree k = false := by
  refine isTree_eq_false ⟨?_, ?_⟩ <;> (rintro rfl; cases form <;> exact nomatch h)

end TreeForm

/-! ### Brackets -/

namespace Node

/-- The delimiters among some children. -/
def delimiters (children : List Child) : List Range :=
  (children.filter (·.2.kind.isDelimiter)).map (·.2.range)

mutual

/-- The brackets of a node: those of its children, in delimiters of their own if the node is a group
or a repetition. -/
def brackets (form : TreeForm) : Node → List Bracket
  | ⟨kind, _, _, children⟩ =>
    if form.isTree kind then
      [⟨kind == form.repetitionKind, delimiters children, bracketsAll form children⟩]
    else bracketsAll form children

/-- The brackets of some children. -/
def bracketsAll (form : TreeForm) : List (Option Field × Node) → List Bracket
  | [] => []
  | (_, n) :: rest => brackets form n ++ bracketsAll form rest

end

variable {form : TreeForm}

theorem brackets_eq (n : Node) : n.brackets form =
    if form.isTree n.kind then
      [⟨n.kind == form.repetitionKind, delimiters n.children, bracketsAll form n.children⟩]
    else bracketsAll form n.children := by
  obtain ⟨kind, range, flags, children⟩ := n
  rw [brackets]

theorem bracketsAll_append (cs ds : List Child) :
    bracketsAll form (cs ++ ds) = bracketsAll form cs ++ bracketsAll form ds := by
  induction cs with
  | nil => simp [bracketsAll]
  | cons c cs ih => simp [bracketsAll, ih]

theorem delimiters_append (cs ds : List Child) :
    delimiters (cs ++ ds) = delimiters cs ++ delimiters ds := by
  simp [delimiters]

theorem bracketsAll_eq_nil {cs : List Child} (h : ∀ c ∈ cs, c.2.brackets form = []) :
    bracketsAll form cs = [] := by
  induction cs with
  | nil => rw [bracketsAll]
  | cons c cs ih =>
    rw [bracketsAll, h c List.mem_cons_self, ih fun d hd => h d (List.mem_cons_of_mem c hd)]
    rfl

/-- A node that is no delimiter and holds no brackets. -/
structure Bare (form : TreeForm) (n : Node) : Prop where
  brackets : n.brackets form = []
  kind : n.kind.isDelimiter = false

/-- A leaf holds no brackets. -/
theorem brackets_leaf {kind : Kind} (range : Range) (flags : NodeFlags)
    (h : form.isTree kind = false) : (leaf kind range flags).brackets form = [] := by
  rw [brackets_eq]
  show (if form.isTree kind = true then _ else bracketsAll form []) = _
  rw [h, bracketsAll]
  rfl

theorem bare_ofPieces {kind : Kind} {flags : NodeFlags} {range : Range} {pieces : List Piece}
    (hk : form.isTree kind = false) (hd : kind.isDelimiter = false)
    (hp : ∀ p ∈ pieces, p.kind.isPiece = true) : (ofPieces kind flags range pieces).Bare form := by
  refine ⟨?_, hd⟩
  rw [brackets_eq, children_ofPieces]
  show (if form.isTree kind = true then _ else _) = _
  rw [hk]
  refine bracketsAll_eq_nil fun c hc => ?_
  obtain ⟨p, hp', rfl⟩ := List.mem_map.1 hc
  exact brackets_leaf _ _ (TreeForm.isTree_of_isPiece (hp p hp'))

theorem bare_ofComment {t : Token} (hl : t.Laid) (hc : t.kind.isComment = true) :
    (ofComment t).Bare form := by
  have hk : form.isTree t.kind = false := TreeForm.isTree_of_isComment hc
  have hd := Kind.isDelimiter_of_isComment hc
  unfold ofComment
  split
  · exact ⟨brackets_leaf _ _ hk, hd⟩
  · exact bare_ofPieces hk hd hl.isPiece

/-- A token that is taken holds no brackets. -/
theorem brackets_ofToken {t : Token} (hl : t.Laid) {as? : Option Kind}
    (hk : (as?.getD t.kind).isToken = true) : (ofToken t as?).brackets form = [] := by
  rcases ofToken_cases t as? with ⟨kind, hkind, he⟩ | ⟨he, -⟩ <;> rw [he]
  · exact (bare_ofPieces (TreeForm.isTree_of_isPieced hkind) (Kind.isDelimiter_of_isPieced hkind)
      hl.isPiece).brackets
  · exact brackets_leaf _ _ (TreeForm.isTree_of_isToken hk)

/-- It is a delimiter if it is read as one. -/
theorem isDelimiter_ofToken {t : Token} {as? : Option Kind}
    (hk : (as?.getD t.kind).isDelimiter = false) : (ofToken t as?).kind.isDelimiter = false := by
  rcases ofToken_cases t as? with ⟨kind, hkind, he⟩ | ⟨he, -⟩ <;> rw [he]
  · exact Kind.isDelimiter_of_isPieced hkind
  · exact hk

end Node

/-! ### Drafts -/

namespace Draft

variable {form : TreeForm}

/-- A draft with more children: these brackets and these delimiters are among them. -/
structure Adds (form : TreeForm) (d : Draft) (bs : List Bracket) (ds : List Range) (d' : Draft) :
    Prop where
  kind : d'.kind = d.kind
  brackets : Node.bracketsAll form d'.children.toList =
    Node.bracketsAll form d.children.toList ++ bs
  delimiters : Node.delimiters d'.children.toList = Node.delimiters d.children.toList ++ ds

theorem Adds.refl (d : Draft) : d.Adds form [] [] d := ⟨rfl, by simp, by simp⟩

theorem Adds.trans {d d' d'' : Draft} {bs bs' : List Bracket} {ds ds' : List Range}
    (h : d.Adds form bs ds d') (h' : d'.Adds form bs' ds' d'') :
    d.Adds form (bs ++ bs') (ds ++ ds') d'' :=
  ⟨h'.kind.trans h.kind, by rw [h'.brackets, h.brackets, List.append_assoc],
    by rw [h'.delimiters, h.delimiters, List.append_assoc]⟩

theorem adds_extend (d : Draft) (more : List Child) :
    d.Adds form (Node.bracketsAll form more) (Node.delimiters more) (d.extend more) := by
  refine ⟨rfl, ?_, ?_⟩
  · simp [extend, Node.bracketsAll_append]
  · simp [extend, Node.delimiters_append]

/-- Children that are bare add nothing. -/
theorem adds_bare {d : Draft} {more : List Child} (h : ∀ c ∈ more, c.2.Bare form) :
    d.Adds form [] [] (d.extend more) := by
  have hadds : d.Adds form _ _ _ := d.adds_extend more
  have hdelimiters : Node.delimiters more = [] := by
    rw [Node.delimiters, List.filter_eq_nil_iff.2 fun c hc => by simp [(h c hc).kind]]
    rfl
  rwa [Node.bracketsAll_eq_nil fun c hc => (h c hc).brackets, hdelimiters] at hadds

theorem adds_push {d : Draft} (label : Option Field) {n : Node} {bs : List Bracket}
    (hb : n.brackets form = bs) (hk : n.kind.isDelimiter = false) :
    d.Adds form bs [] (d.pushChild label n) := by
  have hadds : d.Adds form _ _ _ := d.adds_extend [(label, n)]
  rw [pushChild_eq_extend]
  simpa [Node.bracketsAll, Node.delimiters, hb, hk] using hadds

theorem adds_delimiter {d : Draft} {label : Option Field} {kind : Kind} {range : Range}
    {flags : NodeFlags} (hk : form.isTree kind = false) (hd : kind.isDelimiter = true) :
    d.Adds form [] [range] (d.pushChild label (Node.leaf kind range flags)) := by
  have hadds : d.Adds form _ _ _ := d.adds_extend [(label, Node.leaf kind range flags)]
  have hkind : (Node.leaf kind range flags).kind.isDelimiter = true := hd
  have hrange : (Node.leaf kind range flags).range = range := rfl
  rw [pushChild_eq_extend]
  simpa [Node.bracketsAll, Node.delimiters, Node.brackets_leaf range flags hk, hkind, hrange]
    using hadds

/-- The pieces of a token add nothing, whatever marks the draft gets. -/
theorem adds_unpacked (d : Draft) (flags : NodeFlags) {t : Token} (hl : t.Laid)
    (as? : Option Kind) :
    d.Adds form [] [] ((d.addFlags flags).extend (ofToken t as?).children) := by
  have hbare : ∀ c ∈ (ofToken t as?).children, c.2.Bare form := by
    intro c hc
    obtain ⟨p, hp, rfl⟩ := Node.mem_children_ofToken hc
    have hpiece := hl.isPiece p hp
    exact ⟨Node.brackets_leaf _ _ (TreeForm.isTree_of_isPiece hpiece),
      Kind.isDelimiter_of_isPiece hpiece⟩
  have hadds := (d.addFlags flags).adds_bare hbare
  exact ⟨hadds.kind, hadds.brackets, hadds.delimiters⟩

/-- A node over what a draft of its own holds. -/
theorem Adds.brackets_finish {kind : Kind} {bs : List Bracket} {ds : List Range} {d : Draft}
    (h : (Draft.ofKind kind).Adds form bs ds d) (offset : Nat) : (d.finish offset).brackets form =
      if form.isTree kind then [⟨kind == form.repetitionKind, ds, bs⟩] else bs := by
  have hkind : d.kind = kind := h.kind
  have hbrackets : Node.bracketsAll form d.children.toList = bs := by
    simpa [ofKind, Node.bracketsAll] using h.brackets
  have hdelimiters : Node.delimiters d.children.toList = ds := by
    simpa [ofKind, Node.delimiters] using h.delimiters
  rw [Node.brackets_eq]
  show (if form.isTree d.kind then [⟨d.kind == form.repetitionKind,
    Node.delimiters d.children.toList, Node.bracketsAll form d.children.toList⟩]
      else Node.bracketsAll form d.children.toList) = _
  rw [hkind, hbrackets, hdelimiters]

theorem Adds.kind_finish {kind : Kind} {bs : List Bracket} {ds : List Range} {d : Draft}
    (h : (Draft.ofKind kind).Adds form bs ds d) (offset : Nat) : (d.finish offset).kind = kind :=
  h.kind

theorem Adds.group {bs : List Bracket} {ds : List Range} {d : Draft}
    (h : (Draft.ofKind form.groupKind).Adds form bs ds d) (offset : Nat) :
    (d.finish offset).brackets form = [⟨false, ds, bs⟩] ∧
      (d.finish offset).kind.isDelimiter = false := by
  rw [h.brackets_finish, h.kind_finish]
  cases form <;> exact ⟨rfl, rfl⟩

theorem Adds.repetition {bs : List Bracket} {ds : List Range} {d : Draft}
    (h : (Draft.ofKind form.repetitionKind).Adds form bs ds d) (offset : Nat) :
    (d.finish offset).brackets form = [⟨true, ds, bs⟩] ∧
      (d.finish offset).kind.isDelimiter = false := by
  rw [h.brackets_finish, h.kind_finish]
  cases form <;> exact ⟨rfl, rfl⟩

end Draft

end ConcreteSyntax
