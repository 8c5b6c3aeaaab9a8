import ConcreteSyntax.Grammar.Type
import ConcreteSyntax.Proofs.Grammar.Recovery

/-! # Names and literals are orderly

Segments, paths without arguments, literals and quoted names. Each takes the token that it may begin
with. -/

namespace ConcreteSyntax

open Parse

/-- The draft that a path is continued in, if there is one. -/
def Hand.ofScope : Option Draft → Hand
  | none => .empty
  | some scope => .draft scope .proper

/-- A token read under another kind is a leaf, unless it is a literal between quotes. -/
theorem Node.ofToken_as {token : Token} {kind : Kind}
    (hk : token.kind.isCompositeLiteral = false) :
    ofToken token (some kind) = leaf kind token.range { error := !token.faults.isEmpty } := by
  have hliteral : literalKind? token false = none := by
    unfold literalKind?
    split
    all_goals first | rfl | simp_all [Kind.isCompositeLiteral]
  simp only [ofToken, Option.isNone_some, hliteral, Option.getD_some]

theorem Node.ofToken_segment {token : Token} (as? : Option Kind)
    (hk : token.kind.startsSegment = true) :
    ofToken token as? =
      leaf (as?.getD token.kind) token.range { error := !token.faults.isEmpty } := by
  have hliteral : literalKind? token as?.isNone = none := by
    unfold literalKind?
    split
    all_goals first | rfl | simp_all [Kind.startsSegment]
  simp only [ofToken, hliteral]

/-- A segment is a leaf that is no error. -/
theorem Parse.segment_leaf {kind : Kind} {σ : Setting} {s s' : Session} {n : Node}
    (hrun : segment kind σ s = some (n, s')) :
    n.isLeaf = true ∧ (n.kind = kind ∨ n.kind.startsSegment = true) := by
  have hleaf (as? : Option Kind) (hs : s.kind.startsSegment = true)
      (has : as?.getD s.kind = kind ∨ (as?.getD s.kind).startsSegment = true)
      (h : leaf as? σ s = some (n, s')) :
      n.isLeaf = true ∧ (n.kind = kind ∨ n.kind.startsSegment = true) := by
    have hend : s.kind ≠ .endOfFile := fun he => by simp [he, Kind.startsSegment] at hs
    obtain ⟨rfl, -⟩ := Prod.mk.inj (Option.some.inj ((leaf_run as? σ hend).symm.trans h))
    rw [Node.ofToken_segment as? hs]
    exact ⟨rfl, has⟩
  obtain ⟨c, _, h₁, hrun⟩ := bind_eq_some.1 hrun
  obtain ⟨hc, rfl⟩ := Prod.mk.inj (Option.some.inj h₁)
  split at hrun
  case h_1 | h_2 => exact hleaf (some kind) (by rw [hc]; rfl) (.inl rfl) hrun
  case h_3 | h_4 | h_5 | h_6 => exact hleaf none (by rw [hc]; rfl) (.inr (by rw [hc]; rfl)) hrun
  case h_7 =>
    obtain ⟨_, t, -, hrun⟩ := bind_eq_some.1 hrun
    obtain ⟨rfl, -⟩ := Prod.mk.inj (Option.some.inj hrun)
    exact ⟨rfl, .inl rfl⟩

namespace Orderly

variable {text : List Char} {g : Grammar} {k : Nat} {f : Bool} {a : Option Kind} {m o : Bool} {F : Standing}

/-! ### Paths -/

theorem segment {kind : Kind} (hk : kind.isName = true) :
    Orderly text g k f ⟨.empty, a, m, o, F⟩ (Parse.segment kind)
      fun n => ⟨.node n, none, m, o, F⟩ := by
  refine .kind fun c _ => ?_
  split
  case h_1 | h_2 => exact .perhaps (.leaf nofun (readAs_some hk))
  case h_3 | h_4 | h_5 | h_6 => exact .perhaps (.leaf nofun readAs_none)
  case h_7 =>
    exact .forget <| .forgive <| .bind (.report (aside_reportExpected _)) fun _ =>
      .missing (Kind.isStandIn_of_isFree (Kind.isFree_of_isName hk))

theorem segmentAt {kind c : Kind} (hk : kind.isName = true)
    (hc : c.startsSegment = true) :
    Orderly text g k f ⟨.empty, some c, m, o, F⟩ (Parse.segment kind)
      fun n => ⟨.node n, none, true, o, F⟩ := by
  refine .kind fun c' hc' => ?_
  obtain rfl := hc' c rfl
  split
  case h_1 | h_2 => exact .leaf nofun (readAs_some hk)
  case h_3 | h_4 | h_5 | h_6 => exact .leaf nofun readAs_none
  case h_7 => exact absurd hc (by simp_all [Kind.startsSegment])

theorem begins_scoped : Standing.proper.Begins .scopedIdentifier :=
  show Kind.isFree .scopedIdentifier = true from rfl

theorem scopeAfter {path : Node} :
    Orderly text g k f ⟨.node path, a, m, o, F⟩ (Parse.scopeAfter path)
      fun d => ⟨.ofScope (some d), none, m, o, F⟩ :=
  .collect begins_scoped <| .bind .pushField fun _ => .expect rfl

theorem scopeAfterAt {path : Node} :
    Orderly text g k f ⟨.node path, some .colonColon, m, o, F⟩ (Parse.scopeAfter path)
      fun d => ⟨.ofScope (some d), none, true, o, F⟩ :=
  .collect begins_scoped <| .bind .pushField fun _ => .expectAt nofun

theorem globalScope :
    Orderly text g k f ⟨.empty, a, m, o, F⟩ Parse.globalScope
      fun d => ⟨.ofScope (some d), none, m, o, F⟩ :=
  .collect begins_scoped .consume

theorem segmentIn {scope : Option Draft} {kind : Kind}
    (hk : kind.isName = true) :
    Orderly text g k f ⟨.ofScope scope, a, m, o, F⟩ (Parse.segmentIn scope kind)
      fun n => ⟨.node n, none, m, o, F⟩ := by
  cases scope with
  | none => exact .segment hk
  | some scope => exact .resume (.field (.segment hk))

theorem segmentInAt {scope : Option Draft} {kind c : Kind}
    (hk : kind.isName = true) (hc : c.startsSegment = true) :
    Orderly text g k f ⟨.ofScope scope, some c, m, o, F⟩ (Parse.segmentIn scope kind)
      fun n => ⟨.node n, none, true, o, F⟩ := by
  cases scope with
  | none => exact .segmentAt hk hc
  | some scope => exact .resume (.field (.segmentAt hk hc))

theorem globalScopeIf :
    Orderly text g k f ⟨.empty, a, m, o, F⟩ Parse.globalScopeIf
      fun d => ⟨.ofScope d, none, m, o, F⟩ :=
  .isAt (.bind .globalScope fun _ => .pure (.refl _)) (.pure .forget)

theorem simplePath :
    Orderly text g k f ⟨.empty, a, m, o, F⟩ Parse.simplePath
      fun n => ⟨.node n, none, m, o, F⟩ := by
  refine .bind .flush fun _ => .bind .globalScopeIf fun _ =>
    .bind (.segmentIn rfl) fun _ => .turns .node fun path => .look (fun _ _ => rfl) fun s _ => ?_
  split
  · next hs =>
    have hk : s.kind = .colonColon := eq_of_beq (Bool.and_eq_true_iff.1 hs).1
    rw [hk]
    exact .bind .scopeAfterAt fun _ => .bind (.segmentIn rfl) fun _ => .pure (.refl _)
  · exact .pure .forget

/-! ### Literals -/

/-- The node of a literal in pieces. -/
theorem pieced {kind : Kind} {body : Parse Unit} {h : Hand} {a' : Option Kind} {m' o' : Bool}
    (hk : kind.isPieced = true)
    (hp : Orderly text g k f ⟨h, a, m, o, .literal⟩ body fun _ => ⟨.empty, a', m', o', .literal⟩) :
    Orderly text g k f ⟨h, a, m, o, F⟩ (Parse.node kind body) fun n => ⟨.node n, a', m', o', F⟩ :=
  have hbegins : Standing.literal.Begins kind := hk
  .bind (.collect hbegins hp) fun _ => .finish nofun

theorem numberAt {kind c : Kind} (hk : kind.isPieced = true) (hc : c ≠ .endOfFile) :
    Orderly text g k f ⟨.empty, some c, m, o, F⟩ (Parse.number kind)
      fun n => ⟨.node n, none, true, o, F⟩ :=
  .pieced hk <| .bind (.consumeNumber hc ⟨rfl, rfl⟩) fun _ => .consumeIf

/-- The token that a literal begins with. -/
theorem literalAt {c : Kind} (hc : c.startsLiteral = true) :
    Orderly text g k f ⟨.empty, some c, m, o, F⟩ Parse.literal
      fun n => ⟨.node n, none, true, o, F⟩ := by
  refine .bind .flush fun _ => .kind fun c' hc' => ?_
  obtain rfl := hc' c rfl
  split
  case h_1 | h_2 => exact .numberAt rfl nofun
  case h_3 | h_4 => exact .node rfl (.consumeAt nofun)
  case h_5 | h_6 | h_7 => exact .quotedLiteral (by simp)
  case h_8 => exact absurd hc (by simp_all [Kind.startsLiteral])

theorem literal :
    Orderly text g k f ⟨.empty, a, m, o, F⟩ Parse.literal fun n => ⟨.node n, none, m, o, F⟩ := by
  refine .bind .flush fun _ => .kind fun c _ => ?_
  split
  case h_1 | h_2 => exact .perhaps (.numberAt rfl nofun)
  case h_3 | h_4 => exact .node rfl .consume
  case h_5 | h_6 | h_7 => exact .perhaps (.quotedLiteral (by simp))
  case h_8 => exact .forget <| .forgive <| .bind (.report (aside_reportExpected _)) fun _ => .missing rfl

theorem negativeLiteral :
    Orderly text g k f ⟨.empty, a, m, o, F⟩ Parse.negativeLiteral
      fun n => ⟨.node n, none, m, o, F⟩ :=
  .node rfl <| .bind .consume fun _ => .child .literal

theorem tupleIndex :
    Orderly text g k f ⟨.empty, some .integerToken, m, o, F⟩ Parse.tupleIndex
      fun n => ⟨.node n, none, m, o, F⟩ :=
  .pieced rfl <| .perhaps (.consumeNumber nofun ⟨rfl, rfl⟩)

theorem memberName {label : Field} :
    Orderly text g k f ⟨.empty, a, m, o, .proper⟩ (Parse.memberName label)
      fun _ => ⟨.empty, none, m, o, .proper⟩ :=
  .isAt (.field .literal) (.consumeFieldAs rfl)

/-! ### Quoted names -/

theorem afterQuote :
    Orderly text g k f ⟨.empty, a, m, o, F⟩
      (Parse.kind >>= fun current =>
        if current == .identifier || current.isWord then Parse.consumeAs .identifier
        else if current == .underscore then Parse.consume
        else do
          reportExpected "identifier"
          Parse.pushMissing .identifier)
      fun _ => ⟨.empty, none, m, o, F⟩ := by
  refine .kind fun c _ => ?_
  split
  · exact .consumeAs rfl
  · split
    · exact .consume
    · exact .forget <| .forgive <| .bind (.report (aside_reportExpected _)) fun _ => .pushMissing rfl

theorem quotedName {kind : Kind} (hk : kind.isFree = true) :
    Orderly text g k f ⟨.empty, a, m, o, F⟩ (Parse.quotedName kind)
      fun n => ⟨.node n, none, m, o, F⟩ :=
  .node hk <| .bind (.expect rfl) fun _ => .afterQuote

theorem quotedNameAt {kind : Kind} (hk : kind.isFree = true) :
    Orderly text g k f ⟨.empty, some .quote, m, o, F⟩ (Parse.quotedName kind)
      fun n => ⟨.node n, none, true, o, F⟩ :=
  .node hk <| .bind (.expectAt nofun) fun _ => .afterQuote

theorem lifetime :
    Orderly text g k f ⟨.empty, a, m, o, F⟩ Parse.lifetime fun n => ⟨.node n, none, m, o, F⟩ :=
  .bind .flush fun _ => .quotedName rfl

theorem lifetimeAt :
    Orderly text g k f ⟨.empty, some .quote, m, o, F⟩ Parse.lifetime
      fun n => ⟨.node n, none, true, o, F⟩ :=
  .bind .flush fun _ => .quotedNameAt rfl

end Orderly

end ConcreteSyntax
