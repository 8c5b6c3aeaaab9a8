import ConcreteSyntax.Grammar.Pattern
import ConcreteSyntax.Grammar.Type
import ConcreteSyntax.Proofs.Excerpt.Lookahead
import ConcreteSyntax.Proofs.Reading.Rules

/-! # Types, patterns and token trees keep step

The productions of paths, token trees, attributes, generics, signatures, types and patterns track
themselves over a longer text, if the nonterminals inside them do. -/

namespace ConcreteSyntax

open Parse

/-- A grammar for the whole whose nonterminals track those of one for the text. -/
def Grammar.Tracks (E : Excerpt) (g g' : Grammar) : Prop :=
  ∀ {pre : List Child} {a : Option Kind} {nonterminal : Nonterminal},
    Parse.Tracks E pre a (Node.shift E.shift) (g.parse nonterminal) (g'.parse nonterminal)

namespace Parse.Follows

variable {E : Excerpt} {pre : List Child} {a : Option Kind} {g g' : Grammar}

/-! ### Paths -/

theorem segment {kind : Kind} :
    Tracks E pre a (Node.shift E.shift) (Parse.segment kind) (Parse.segment kind) := by
  refine .kind fun c _ => ?_
  split
  all_goals first | exact .leaf | exact .bind .reportExpected fun _ => .missing

theorem scopeAfter {n : Node} : Tracks E pre a (Draft.shift E.shift) (Parse.scopeAfter n)
    (Parse.scopeAfter (n.shift E.shift)) :=
  .collectNew <| .bind .pushField fun _ => .expect

theorem globalScope :
    Tracks E pre a (Draft.shift E.shift) Parse.globalScope Parse.globalScope :=
  .collectNew .consume

theorem segmentIn {scope : Option Draft} {kind : Kind} :
    Tracks E pre a (Node.shift E.shift) (Parse.segmentIn scope kind)
      (Parse.segmentIn (scope.map (Draft.shift E.shift)) kind) := by
  cases scope with
  | some d => exact .resume (.field .segment)
  | none => exact .segment

theorem globalScopeIf : Tracks E pre a (Option.map (Draft.shift E.shift)) Parse.globalScopeIf
    Parse.globalScopeIf :=
  .isAt (.bind .globalScope fun _ => .pure _) (.pure _)

theorem simplePath :
    Tracks E pre a (Node.shift E.shift) Parse.simplePath Parse.simplePath := by
  refine .bind .flush fun _ => .bind .globalScopeIf fun _ => .bind .segmentIn fun _ =>
    .loop (Node.shift E.shift) fun path => .lookAt (fun s _ => .choose ?_ (.pure _))
      fun _ hf halike => by rw [halike.isAtSegment hf]
  exact .bind .scopeAfter fun d => .bind
    (show Tracks E pre _ _ (Parse.segmentIn (some d) _)
      (Parse.segmentIn (some (d.shift E.shift)) _) from
    .segmentIn) fun _ => .pure _

/-! ### Token trees -/

theorem binding : Tracks E pre a (Node.shift E.shift) Grammar.binding Grammar.binding := by
  refine .node <| .bind .consumeField fun _ => .bind .consume fun _ => .kind fun c _ => ?_
  split
  · refine .bind .tokenText fun word => .choose (c := Fragment.isSpecifier word) .consumeFieldAs ?_
    refine .bind .reportHere fun _ => .bind .leaf fun n => ?_
    rw [Node.withFlags_shift]
    exact .pushField
  · exact .bind .reportExpected fun _ => .pushMissingField

theorem treeElement (hg : g.Tracks E g') {form : TreeForm} {s : Session} :
    Tracks E pre a id (g.treeElement form s) (g'.treeElement form s) := by
  unfold Grammar.treeElement
  split
  · exact .child hg
  · exact .child hg
  · exact .child hg
  · split
    · exact .child hg
    · exact .consume
  · split
    · exact .child .binding
    · exact .consume
  · split
    · exact .child .lifetime
    · exact .consume
  · split
    · exact .child .literal
    · exact .consume

theorem treeElement_agree {form : TreeForm} {s s' : Session} (halike : s.Alike E pre s')
    (hf : s.Fair E) : g'.treeElement form s' = g'.treeElement form s := by
  unfold Grammar.treeElement
  simp only [halike.kind]
  refine halike.by_guide hf (fun hahead => ?_) fun k hk hother => ?_
  · simp only [hahead]
  · simp only [List.mem_cons, List.not_mem_nil, or_false] at hother
    rcases hother with rfl | rfl | rfl | rfl | rfl | rfl | rfl | rfl | rfl | rfl | rfl | rfl | rfl
      <;> rw [hk]

theorem treeContents (hg : g.Tracks E g') {form : TreeForm} :
    Tracks E pre a id (g.treeContents form) (g'.treeContents form) := by
  refine .repeatWhile <| .bind .flush fun _ => .lookAt (fun s _ => ?_) fun {s s'} _ hf halike => ?_
  · split
    · exact .pure _
    · exact .bind (.treeElement hg) fun _ => .pure _
  · rw [halike.isAt, halike.kind, treeElement_agree halike hf]

theorem reportInPlace {opener closer c : Kind} {range : Range} :
    Tracks E pre a id (Grammar.reportInPlace opener closer range c)
      (Grammar.reportInPlace opener closer (range.shift E.shift) c) := by
  unfold Grammar.reportInPlace
  split
  · exact .reportAt
  · exact .reportHere

theorem treeCloser {opener closer : Kind} {range : Range} :
    Tracks E pre a id (Grammar.treeCloser opener closer range)
      (Grammar.treeCloser opener closer (range.shift E.shift)) := by
  refine .kind fun c _ => ?_
  split
  · exact .bind .consume fun _ => .pure _
  · exact .bind .reportInPlace fun _ => .bind .pushMissing fun _ => .pure _

theorem delimitedTree (hg : g.Tracks E g') {form : TreeForm} :
    Tracks E pre a (Node.shift E.shift) (g.delimitedTree form) (g'.delimitedTree form) := by
  refine .node <| .kind fun c _ => ?_
  split
  · exact .bind .reportExpected fun _ => .bind .pushMissing fun _ => .pushMissing
  · exact .bind .tokenRange fun _ => .bind .consume fun _ => .bind (.treeContents hg) fun _ =>
      .bind .treeCloser fun _ => .pure _

theorem tokenTree (hg : g.Tracks E g') {form : TreeForm} :
    Tracks E pre a (Node.shift E.shift) (g.tokenTree form) (g'.tokenTree form) :=
  .bind .flush fun _ => .guarded (.delimitedTree hg)

theorem repetitionMark : Tracks E pre a id Grammar.repetitionMark Grammar.repetitionMark := by
  refine .kind fun c _ => .bind (.provided .consume) fun _ => .kind fun c _ => ?_
  split
  · exact .consume
  · exact .bind .reportHere fun _ => .pushMissing

theorem repetition (hg : g.Tracks E g') {form : TreeForm} :
    Tracks E pre a (Node.shift E.shift) (g.repetition form) (g'.repetition form) :=
  .node <| .bind .consume fun _ => .bind .tokenRange fun _ => .bind .consume fun _ =>
    .bind (.treeContents hg) fun _ => .test .treeCloser .repetitionMark (.pure _)

theorem macroCall (hg : g.Tracks E g') {path : Node} :
    Tracks E pre a (Node.shift E.shift) (g.macroCall path) (g'.macroCall (path.shift E.shift)) :=
  .node <| .bind .pushField fun _ => .bind .expect fun _ => .child hg

/-! ### Attributes and visibility -/

theorem attributeBody (hg : g.Tracks E g') :
    Tracks E pre a (Node.shift E.shift) g.attributeBody g'.attributeBody := by
  refine .bind .flush fun _ => .node <| .bind (.child .simplePath) fun _ => .kind fun c _ => ?_
  split
  · exact .bind .consume fun _ => .field (.unrestricted hg)
  · split
    · exact .field hg
    · exact .pure _

theorem attributeItem (hg : g.Tracks E g') :
    Tracks E pre a (Node.shift E.shift) g.attributeItem g'.attributeItem :=
  .bind .flush fun _ => .node <| .bind .consume fun _ =>
    .bind (.ifAt (.bind .setKind fun _ => .consume)) fun _ =>
    .isAt (.bind .tokenRange fun _ => .bind .consume fun _ => .bind (.child (.attributeBody hg))
      fun _ => .close) .expect

theorem attributes (hg : g.Tracks E g') : Tracks E pre a id g.attributes g'.attributes :=
  .repeatWhile <| .isAt (.bind (.child (.attributeItem hg)) fun _ => .pure _) (.pure _)

theorem visibilityScope : Tracks E pre a id Parse.visibilityScope Parse.visibilityScope :=
  .isAt (.bind .consume fun _ => .child .simplePath) .consume

theorem visibility : Tracks E pre a (Node.shift E.shift) Parse.visibility Parse.visibility := by
  refine .bind .flush fun _ => .node <| .bind .consume fun _ => .lookAt (fun s _ => ?_)
    fun {s s'} _ hf halike => ?_
  · refine .choose (.choose ?_ .settle) (.pure _)
    exact .bind .settle fun _ => .bind .consume fun _ => .bind .visibilityScope fun _ => .expect
  · rw [halike.isAt]
    cases hk : s.isAt .openParen with
    | false => rfl
    | true =>
      have hguide : s.kind.isGuide = true := by rw [show s.kind = _ from eq_of_beq hk]; rfl
      rw [if_pos rfl, if_pos rfl, halike.ahead_one hf hguide]
      split
      any_goals rfl
      all_goals next hnext => rw [halike.ahead_two hf hguide (by rw [hnext]; rfl)]

theorem visibilityIf : Tracks E pre a id Parse.visibilityIf Parse.visibilityIf :=
  .ifAt (.child .visibility)

/-! ### Arguments of types -/

theorem typeAsArgument (hg : g.Tracks E g') :
    Tracks E pre a (Node.shift E.shift) g.typeAsArgument g'.typeAsArgument := by
  refine .bind hg fun type => ?_
  rw [Node.shift_kind]
  refine .choose (.bind .settle fun _ => .give ?_) (.pure _)
  rw [Node.withFlags_shift]

theorem typeBinding (hg : g.Tracks E g') :
    Tracks E pre a (Node.shift E.shift) g.typeBinding g'.typeBinding :=
  .node <| .bind .consumeFieldAs fun _ => .bind .consume fun _ => .field hg

theorem typeArgument (hg : g.Tracks E g') :
    Tracks E pre a (Node.shift E.shift) g.typeArgument g'.typeArgument := by
  refine .bind .flush fun _ => .lookAt (fun s _ => ?_) fun {s s'} _ hf halike => ?_
  · split
    · exact .lifetime
    · exact hg
    · exact .negativeLiteral
    · exact .choose (.typeBinding hg) (.typeAsArgument hg)
    · exact .choose .literal (.typeAsArgument hg)
  · rw [halike.kind]
    split
    any_goals rfl
    next hk => rw [halike.ahead_one hf (by rw [hk]; rfl)]

theorem typeArguments (hg : g.Tracks E g') :
    Tracks E pre a (Node.shift E.shift) g.typeArguments g'.typeArguments :=
  .bind .flush fun _ => .node <| .bind (.ifAt (.split Scanner.splitsInto_shl)) fun _ =>
    .unrestricted (.list (.child (.typeArgument hg)))

/-! ### Bounds -/

theorem bound (hg : g.Tracks E g') :
    Tracks E pre a (Node.shift E.shift) g.bound g'.bound := by
  refine .bind .flush fun _ => .kind fun c _ => ?_
  split
  · exact .lifetime
  · exact .node <| .bind .consume fun _ => .child hg
  · exact hg

theorem traitBounds (hg : g.Tracks E g') :
    Tracks E pre a (Node.shift E.shift) g.traitBounds g'.traitBounds :=
  .bind .flush fun _ => .node <| .bind .expect fun _ => .repeatWhile <| .kind fun _ _ =>
    .choose (.bind (.child (.bound hg)) fun _ => .accept) (.pure _)

theorem traitBoundsIf (hg : g.Tracks E g') :
    Tracks E pre a id g.traitBoundsIf g'.traitBoundsIf :=
  .ifAt (.field (.traitBounds hg))

/-! ### Generic parameters -/

theorem lifetimeParameter (hg : g.Tracks E g') :
    Tracks E pre a (Node.shift E.shift) g.lifetimeParameter g'.lifetimeParameter :=
  .node <| .bind (.field .lifetime) fun _ => .traitBoundsIf hg

theorem constParameter (hg : g.Tracks E g') :
    Tracks E pre a (Node.shift E.shift) g.constParameter g'.constParameter :=
  .node <| .bind .consume fun _ => .bind .expectName fun _ => .bind .expect fun _ =>
    .bind (.field hg) fun _ => .ifAt (.bind .consume fun _ => .field (.typeArgument hg))

theorem typeParameter (hg : g.Tracks E g') :
    Tracks E pre a (Node.shift E.shift) g.typeParameter g'.typeParameter :=
  .node <| .bind .expectName fun _ => .bind (.traitBoundsIf hg) fun _ =>
    .ifAt (.bind .consume fun _ => .field hg)

theorem genericParameter (hg : g.Tracks E g') :
    Tracks E pre a (Node.shift E.shift) g.genericParameter g'.genericParameter := by
  refine .bind .flush fun _ => .kind fun c _ => ?_
  split
  · exact .lifetimeParameter hg
  · exact .constParameter hg
  · exact .typeParameter hg

theorem genericList (hg : g.Tracks E g') : Tracks E [] a id g.genericList g'.genericList :=
  .list (.bind (.attributes hg) fun _ => .child (.genericParameter hg))

theorem typeParameters (hg : g.Tracks E g') :
    Tracks E pre a (Node.shift E.shift) g.typeParameters g'.typeParameters :=
  .bind .flush fun _ => .node (.genericList hg)

theorem typeParametersIf (hg : g.Tracks E g') :
    Tracks E pre a id g.typeParametersIf g'.typeParametersIf :=
  .ifAt (.field (.typeParameters hg))

/-- A binder begins with `for`. -/
theorem forBinder (hg : g.Tracks E g') :
    Tracks E pre (some .forKw) (Node.shift E.shift) g.forBinder g'.forBinder := by
  refine .node <| .lookAt (fun s _ => .choose ?_ ?_) fun {s s'} hk hf halike => ?_
  · exact .bind .settle fun _ => .bind .consume fun _ => .list (.child .lifetime)
  · exact .bind .settle fun _ => .bind .setKind fun _ => .bind .consume fun _ => .genericList hg
  · have hguide : s.kind.isGuide = true := by rw [hk _ rfl]; rfl
    rw [halike.ahead_one hf hguide]
    cases hangle : s.ahead 1 == .lt with
    | true => rw [halike.ahead_two hf hguide (by rw [eq_of_beq hangle]; rfl)]
    | false => rfl

/-! ### Where clauses -/

theorem whereSubject (hg : g.Tracks E g') :
    Tracks E pre a (Node.shift E.shift) g.whereSubject g'.whereSubject :=
  .isAt .lifetime hg

theorem wherePredicate (hg : g.Tracks E g') :
    Tracks E pre a id g.wherePredicate g'.wherePredicate :=
  .bind (.whereSubject hg) fun _ => .child <| .node <| .bind .pushField fun _ =>
    .field (.traitBounds hg)

theorem whereClause (hg : g.Tracks E g') :
    Tracks E pre a (Node.shift E.shift) g.whereClause g'.whereClause :=
  .bind .flush fun _ => .node <| .bind .consume fun _ => .repeatWhile <| .bind .flush fun _ =>
    .kind fun _ _ => .choose (.bind (.wherePredicate hg) fun _ => .accept) (.pure _)

theorem whereClauseIf (hg : g.Tracks E g') :
    Tracks E pre a id g.whereClauseIf g'.whereClauseIf :=
  .ifAt (.child (.whereClause hg))

/-! ### Signatures -/

theorem externModifier :
    Tracks E pre a (Node.shift E.shift) Parse.externModifier Parse.externModifier :=
  .bind .flush fun _ => .node <| .bind .consume fun _ => .providedThat .isAtAny (.child .literal)

theorem functionModifier : Tracks E pre a id Parse.functionModifier Parse.functionModifier := by
  refine .kind fun c _ => ?_
  split
  · exact .bind .consume fun _ => .pure _
  · exact .bind .consume fun _ => .pure _
  · exact .bind .consume fun _ => .pure _
  · exact .bind (.child .externModifier) fun _ => .pure _
  · exact .test .isAtWord (.bind .consumeAs fun _ => .pure _) (.pure _)
  · exact .pure _

theorem functionModifiers :
    Tracks E pre a (Node.shift E.shift) Parse.functionModifiers Parse.functionModifiers :=
  .bind .flush fun _ => .node (.repeatWhile .functionModifier)

theorem consumeDefault : Tracks E pre a id Parse.consumeDefault Parse.consumeDefault :=
  .providedThat .isAtWord .consumeAs

theorem receiver : Tracks E pre a (Node.shift E.shift) Parse.receiver Parse.receiver :=
  .bind .flush fun _ => .node <|
    .bind (.ifAt (.bind .consume fun _ => .ifAt (.child .lifetime))) fun _ =>
    .bind .consumeIf fun _ => .expect

theorem bareParameter (hg : g.Tracks E g') :
    Tracks E pre a id g.bareParameter g'.bareParameter := by
  refine .lookAt (fun s _ => .choose ?_ (.child hg)) fun {s s'} _ hf halike => ?_
  · exact .child <| .node <| .bind (.field .leaf) fun _ => .bind .consume fun _ => .field hg
  · rw [halike.isAtAny]
    cases hk : s.isAtAny [.identifier, .underscore] with
    | false => rfl
    | true =>
      rw [halike.ahead_one hf ?_]
      have hkind : s.kind = .identifier ∨ s.kind = .underscore := by simpa [Session.isAtAny] using hk
      rcases hkind with hkind | hkind <;> rw [hkind] <;> rfl

theorem parameterPattern (hg : g.Tracks E g') :
    Tracks E pre a (Option.map (Draft.shift E.shift)) g.parameterPattern? g'.parameterPattern? := by
  refine .bind (.collectNew (.bind .consumeIf fun _ => .field hg)) fun d => ?_
  exact .bind .isAtKind fun b => .give (by cases b <;> rfl)

theorem reportAnonymous {range : Range} : Tracks E pre a id (Grammar.reportAnonymous range)
    (Grammar.reportAnonymous (range.shift E.shift)) :=
  .bind .options fun o => .choose (c := o.allowAnonymousParameters) .reportAt .reportAt

theorem report_ne_nil_of_reportAnonymous {range : Range} {σ : Setting} {s t : Session} {r : Unit}
    (h : Grammar.reportAnonymous range σ s = some (r, t)) : t.report.toList ≠ [] := by
  obtain ⟨o, u, -, h⟩ := bind_eq_some.1 h
  split at h
  all_goals
    obtain ⟨-, rfl⟩ := Prod.mk.inj (Option.some.inj h)
    simp [Report.add, Report.toList]

theorem namedParameter (hg : g.Tracks E g') :
    Tracks E pre a id g.namedParameter g'.namedParameter := by
  refine .speculate (.parameterPattern hg) (fun d => ?_) ?_ fun {σ s r t} h => ?_
  · exact .child (.resume (.bind .consume fun _ => .field hg))
  · refine .bind (.node (.field hg)) fun n => ?_
    rw [Node.shift_range]
    exact .bind .reportAnonymous fun _ => .push
  · obtain ⟨n, u, -, h⟩ := bind_eq_some.1 h
    obtain ⟨_, w, hreport, h⟩ := bind_eq_some.1 h
    obtain ⟨-, rfl⟩ := Prod.mk.inj (Option.some.inj h)
    show w.report.toList ≠ []
    exact report_ne_nil_of_reportAnonymous hreport

theorem parameter (hg : g.Tracks E g') {plain plain' : Parse Unit}
    (hplain : ∀ {a}, Tracks E pre a id plain plain') :
    Tracks E pre a id (g.parameter plain) (g'.parameter plain') := by
  refine .bind .flush fun _ => .bind (.attributes hg) fun _ => .look (fun s =>
    if s.isAtReceiver = true then Parse.child Parse.receiver
    else if s.isAt .dotDotDot = true then Parse.child (Parse.node .variadicParameter Parse.consume)
    else plain') (fun s _ => ?_) fun _ hf halike => ?_
  · exact .choose (.child .receiver) (.choose (.child (.node .consume)) hplain)
  · rw [halike.isAtReceiver hf, halike.isAt]

theorem parameters (hg : g.Tracks E g') :
    Tracks E pre a (Node.shift E.shift) g.parameters g'.parameters :=
  .bind .flush fun _ => .node <| .unrestricted <| .list <| .parameter hg <| .namedParameter hg

theorem bareParameters (hg : g.Tracks E g') :
    Tracks E pre a (Node.shift E.shift) g.bareParameters g'.bareParameters :=
  .bind .flush fun _ => .node <| .unrestricted <| .list <| .parameter hg <| .bareParameter hg

theorem returnTypeIf (hg : g.Tracks E g') : Tracks E pre a id g.returnTypeIf g'.returnTypeIf :=
  .ifAt (.bind .consume fun _ => .field hg)

/-! ### Paths of types -/

theorem typeAsTrait (hg : g.Tracks E g') :
    Tracks E pre a (Node.shift E.shift) g.typeAsTrait g'.typeAsTrait :=
  .bind hg fun _ => .isAt
    (.node <| .bind .pushField fun _ => .bind .consume fun _ => .field hg) (.pure _)

theorem bracketedType (hg : g.Tracks E g') :
    Tracks E pre a (Node.shift E.shift) g.bracketedType g'.bracketedType :=
  .node <| .bind (.ifAt (.split Scanner.splitsInto_shl)) fun _ => .bind .consume fun _ =>
    .bind (.child (.typeAsTrait hg)) fun _ => .expect

theorem pathScope (hg : g.Tracks E g') :
    Tracks E pre a (Option.map (Draft.shift E.shift)) g.pathScope g'.pathScope :=
  .kind fun _ _ => .choose
    (.bind (.bracketedType hg) fun _ => .bind .scopeAfter fun _ => .pure _)
    (.choose (.bind .globalScope fun _ => .pure _) (.pure _))

theorem isAtPrimitive : Tracks E pre a id Grammar.isAtPrimitive Grammar.isAtPrimitive :=
  .isAt (.bind .tokenText fun _ => .pure _) (.pure _)

theorem typeName {scope : Option Draft} : Tracks E pre a (Node.shift E.shift)
    (Grammar.typeName scope) (Grammar.typeName (scope.map (Draft.shift E.shift))) := by
  cases scope with
  | some d => exact .resume (d := d.setKind .scopedTypeIdentifier) (.field .segment)
  | none =>
    refine .bind .isAtPrimitive fun b => .bind .segment fun n => .give ?_
    cases b with
    | true => exact Node.withKind_shift n .primitiveType
    | false => rfl

theorem genericType (hg : g.Tracks E g') {name : Node} :
    Tracks E pre a (Node.shift E.shift) (g.genericType name) (g'.genericType (name.shift E.shift)) :=
  .node <| .bind .pushField fun _ => .bind .consumeIf fun _ => .field (.typeArguments hg)

theorem functionTrait (hg : g.Tracks E g') {name : Node} : Tracks E pre a (Node.shift E.shift)
    (g.functionTrait name) (g'.functionTrait (name.shift E.shift)) :=
  .node <| .bind .pushField fun _ => .bind (.field (.bareParameters hg)) fun _ => .returnTypeIf hg

theorem typePathTurn (hg : g.Tracks E g') {scope : Option Draft} :
    Tracks E pre a (mapStep (Option.map (Draft.shift E.shift)) (Node.shift E.shift))
      (g.typePathTurn scope) (g'.typePathTurn (scope.map (Draft.shift E.shift))) := by
  refine .lookAt (fun s _ => .choose ?_ ?_) fun {s s'} _ hf halike => ?_
  · exact .bind .segmentIn fun _ => .bind .scopeAfter fun _ => .pure _
  · refine .bind .typeName fun name => ?_
    rw [Node.shift_kind, Node.asPath_shift]
    refine .lookAt (fun s _ => .choose ?_ (.choose ?_ (.choose ?_ (.pure _)))) fun {s s'} _ hf halike => ?_
    · refine .bind (.genericType hg) fun type => .lookAt (fun s _ => .choose ?_ (.pure _))
        fun _ hf halike => by rw [halike.isAtSegment hf]
      exact .bind .scopeAfter fun _ => .pure _
    · exact .bind (.functionTrait hg) fun _ => .pure _
    · exact .bind (.macroCall hg) fun _ => .pure _
    · rw [halike.kind, halike.isAtArguments hf, halike.isAt, halike.isAtCall hf]
  · rw [halike.kind]
    cases hk : s.kind.startsSegment with
    | false => rfl
    | true =>
      have hguide := Kind.isGuide_of_startsSegment hk
      rw [halike.ahead_one hf hguide]
      cases hscope : s.ahead 1 == .colonColon with
      | true => rw [halike.ahead_two hf hguide (by rw [eq_of_beq hscope]; rfl)]
      | false => rfl

theorem typePath (hg : g.Tracks E g') :
    Tracks E pre a (Node.shift E.shift) g.typePath g'.typePath :=
  .bind .flush fun _ => .bind (.pathScope hg) fun _ =>
    .loop (Option.map (Draft.shift E.shift)) fun _ => .typePathTurn hg

/-! ### Types -/

/-- A tuple begins with a parenthesis. -/
theorem tupleType (hg : g.Tracks E g') :
    Tracks E pre (some .openParen) (Node.shift E.shift) g.tupleType g'.tupleType := by
  refine .node <| .bind (.ahead_one rfl) fun k => .choose (c := k == .closeParen) ?_ (.list (.child hg))
  exact .bind .settle fun _ => .bind .setKind fun _ => .bind .consume fun _ => .consume

theorem arrayType (hg : g.Tracks E g') :
    Tracks E pre a (Node.shift E.shift) g.arrayType g'.arrayType :=
  .node <| .bind .consume fun _ => .bind (.field hg) fun _ =>
    .bind (.ifAt (.bind .consume fun _ => .field (.unrestricted hg))) fun _ => .expect

theorem referenceType (hg : g.Tracks E g') :
    Tracks E pre a (Node.shift E.shift) g.referenceType g'.referenceType := by
  refine .node <| .isAt ?_ ?_
  · exact .bind (.split Scanner.splitsInto_ampAmp) fun _ => .bind .consume fun _ => .field hg
  · exact .bind .consume fun _ => .bind (.ifAt (.child .lifetime)) fun _ =>
      .bind .consumeIf fun _ => .field hg

theorem pointerModifier : Tracks E pre a id Grammar.pointerModifier Grammar.pointerModifier :=
  .test .isAtAny .consume .reportExpected

theorem pointerType (hg : g.Tracks E g') :
    Tracks E pre a (Node.shift E.shift) g.pointerType g'.pointerType :=
  .node <| .bind .consume fun _ => .bind .pointerModifier fun _ => .field hg

theorem boundSum (hg : g.Tracks E g') :
    Tracks E pre a (Node.shift E.shift) g.boundSum g'.boundSum := by
  refine .bind (.bound hg) fun _ => .loop (Node.shift E.shift) fun sum => .isAt ?_ (.pure _)
  refine .bind (.node ?_) fun _ => .pure _
  exact .bind .push fun _ => .bind .consume fun _ => .child (.bound hg)

theorem boundedType (hg : g.Tracks E g') {kind : Kind} :
    Tracks E pre a (Node.shift E.shift) (g.boundedType kind) (g'.boundedType kind) :=
  .node <| .bind .consume fun _ => .field (.boundSum hg)

theorem functionTypeRest (hg : g.Tracks E g') :
    Tracks E pre a id g.functionTypeRest g'.functionTypeRest :=
  .bind .isAtAny fun _ => .bind (.provided (.child .functionModifiers)) fun _ =>
    .bind .expect fun _ => .bind (.field (.bareParameters hg)) fun _ => .returnTypeIf hg

theorem boundType (hg : g.Tracks E g') :
    Tracks E pre (some .forKw) (Node.shift E.shift) g.boundType g'.boundType :=
  .bind (.forBinder hg) fun _ => .test .isAtAny
    (.node <| .bind .push fun _ => .functionTypeRest hg)
    (.node <| .bind .pushField fun _ => .field hg)

theorem typeForm (hg : g.Tracks E g') :
    Tracks E pre a (Node.shift E.shift) g.typeForm g'.typeForm := by
  refine .kind fun c _ => ?_
  split
  case h_1 => exact .tupleType hg
  case h_2 => exact .arrayType hg
  case h_3 | h_4 => exact .referenceType hg
  case h_5 => exact .pointerType hg
  case h_6 => exact .node .consume
  case h_7 | h_8 => exact .leaf
  case h_9 | h_10 => exact .boundedType hg
  case h_11 | h_12 | h_13 => exact .node (.functionTypeRest hg)
  case h_14 => exact .boundType hg
  case h_23 => exact .bind .reportExpected fun _ => .missing
  all_goals exact .typePath hg

theorem type (hg : g.Tracks E g') :
    Tracks E pre a (Node.shift E.shift) g.type g'.type :=
  .bind .flush fun _ => .guarded (.typeForm hg)

end Parse.Follows

end ConcreteSyntax
