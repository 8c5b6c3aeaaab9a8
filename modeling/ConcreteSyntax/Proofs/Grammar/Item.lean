import ConcreteSyntax.Grammar.Item
import ConcreteSyntax.Proofs.Grammar.Operator

/-! # Items are orderly

An item is read into a draft that is an error at first. Every form of item either gives the draft a
kind of its own or reports that there is none. -/

namespace ConcreteSyntax

open Parse

theorem Grammar.steady_memberList : Grammar.memberList.Steady := ⟨rfl, rfl, rfl, nofun⟩

theorem Grammar.steady_orderedFieldList : Grammar.orderedFieldList.Steady :=
  ⟨rfl, rfl, rfl, by decide⟩

theorem Grammar.steady_useList : Grammar.useList.Steady := ⟨rfl, rfl, rfl, by decide⟩

theorem Parse.reportReference_run (σ : Setting) (s : Session) :
    Grammar.reportReference σ s = some ((), { s with
      report := s.report.addStaticRef σ.file s.scanner.token.range σ.options }) := by
  unfold Report.addStaticRef
  show (Parse.provided (!σ.options.allowStaticRef) (Parse.reportHere .staticRef [])) σ s = _
  cases σ.options.allowStaticRef <;> rfl

theorem Parse.aside_reportReference : Grammar.reportReference.Aside false := by
  refine fun σ s => ⟨(), { s with
    report := s.report.addStaticRef σ.file s.scanner.token.range σ.options },
    fun _ _ => reportReference_run _ s, ?_, fun l hs => ⟨hs, ?_⟩⟩
  · unfold Report.addStaticRef
    split
    · exact .refl s
    · exact { beside_reportAt (by decide) σ.file s.scanner.token.range [] s with owed := nofun }
  · rw [reportReference_run]
    unfold Session.relaxed
    rw [Report.relaxed_addStaticRef]
    rfl

theorem Parse.aside_isAtFunctionModifier : Grammar.isAtFunctionModifier.Aside false :=
  .bind (aside_isAtAny _) fun isModifier => by
    cases isModifier
    · exact aside_isAtWord _
    · exact aside_pure _

/-! ### Words that begin an item -/

/-- Programs that agree on the text of the current token may stand for each other behind it. -/
theorem Parse.tokenText_congr {α : Type} {K K' : String → Parse α}
    (h : ∀ σ s, K (s.scanner.tokenText σ.source) σ s = K' (s.scanner.tokenText σ.source) σ s) :
    (tokenText >>= K) = (tokenText >>= K') :=
  funext fun σ => funext fun s => h σ s

theorem Parse.setKind_congr {α : Type} {kind : Kind} {K K' : Unit → Parse α} {σ : Setting}
    {s : Session} (h : K () σ (s.withDraft (s.draft.setKind kind)) =
      K' () σ (s.withDraft (s.draft.setKind kind))) :
    (setKind kind >>= K) σ s = (setKind kind >>= K') σ s :=
  h

namespace Grammar

/-- A union whose first word is taken only if it is `union`. -/
def unionAt (g : Grammar) : Parse Unit := do
  setKind .unionItem
  takeWord .unionKw
  expectName .name .typeIdentifier
  g.typeParametersIf
  g.whereClauseIf
  g.structureBody false

/-- A definition whose first word is taken only if it is `macro_rules`. -/
def macroAt (g : Grammar) : Parse Unit := do
  setKind .macroDefinition
  takeWord .macroRulesKw
  expect .bang
  expectName .name .identifier
  flush
  let opener ← kind
  match opener.closer? with
  | none => reportExpected "'\x7b', '(' or '['"
  | some closer =>
    let openRange ← tokenRange
    consume
    g.macroRules opener closer openRange
    unless opener == .openBrace do expect .semicolon

/-- An item by its first word, where unions and definitions are read in either of two ways. -/
def itemBy (g : Grammar) (s : Session) (union definition : Parse Unit) (word : String) :
    Parse Unit :=
  if word = "union" then if s.ahead 1 == .identifier then union else notAnItem
  else if word = "auto" then if s.ahead 1 == .traitKw then g.traitItem else notAnItem
  else if word = "macro_rules" then if s.ahead 1 == .bang then definition else notAnItem
  else if word = "default" then g.itemAtDefault s
  else notAnItem

theorem itemAtWord_eq_itemBy (g : Grammar) (s : Session) :
    g.itemAtWord s = (tokenText >>= g.itemBy s g.unionItem g.macroDefinition) := by
  refine congrArg (tokenText >>= ·) (funext fun word => ?_)
  unfold itemBy
  split
  all_goals simp_all

theorem unionItem_eq (g : Grammar) {σ : Setting} {s : Session}
    (hs : s.scanner.tokenText σ.source = "union") : g.unionItem σ s = g.unionAt σ s := by
  unfold unionItem unionAt
  have hs' : (s.withDraft (s.draft.setKind .unionItem)).scanner.tokenText σ.source = "union" := hs
  exact setKind_congr (takeWord_bind .unionKw rfl hs').symm

theorem macroDefinition_eq (g : Grammar) {σ : Setting} {s : Session}
    (hs : s.scanner.tokenText σ.source = "macro_rules") :
    g.macroDefinition σ s = g.macroAt σ s := by
  unfold macroDefinition macroAt
  have hs' : (s.withDraft (s.draft.setKind .macroDefinition)).scanner.tokenText σ.source = "macro_rules" := hs
  exact setKind_congr (takeWord_bind .macroRulesKw rfl hs').symm

theorem itemAtWord_eq (g : Grammar) (s : Session) :
    g.itemAtWord s = (tokenText >>= g.itemBy s g.unionAt g.macroAt) := by
  rw [itemAtWord_eq_itemBy]
  refine tokenText_congr fun σ t => ?_
  generalize ht : t.scanner.tokenText σ.source = word
  unfold itemBy
  split
  · next hword =>
    split
    · exact g.unionItem_eq (ht.trans hword)
    · rfl
  · split
    · rfl
    · split
      · next hword =>
        split
        · exact g.macroDefinition_eq (ht.trans hword)
        · rfl
      · rfl

end Grammar

namespace Orderly

variable {text : List Char} {g : Grammar} {k : Nat} {a : Option Kind} {m o : Bool} {F : Standing}

/-- The end of a part that a skipped brace may stand in for. -/
theorem absorbOr {what : String} :
    Orderly text g k true ⟨.empty, a, m, o, F⟩
      (do unless ← Parse.absorbBrace do reportExpected what)
      fun _ => ⟨.empty, none, m, o, F⟩ := by
  refine .bind (.keep .absorbBrace) fun absorbed => .anywhere ?_
  split
  · exact .pure (.refl _)
  · exact .beside ((aside_reportExpected _).weaken nofun)

theorem declarations :
    Orderly text g k true ⟨.empty, a, m, o, .proper⟩ g.declarations fun _ => ⟨.empty, none, m, o, .proper⟩ :=
  .field (.call (.inl rfl) rfl)

/-! ### Constants and functions -/

theorem typedValue :
    Orderly text g k true ⟨.empty, a, m, o, .proper⟩ g.typedValue fun _ => ⟨.empty, none, m, o, .proper⟩ :=
  .bind (.expect rfl) fun _ => .bind (.field (.call (.inl rfl) rfl)) fun _ =>
    .bind (.ifAt <| .bind .consume fun _ => .field (.call (.inl rfl) rfl)) fun _ => .expect rfl

theorem constItem :
    Orderly text g k true ⟨.empty, a, m, o, .failed⟩ g.constItem fun _ => ⟨.empty, none, m, o, .proper⟩ :=
  .bind (.setKind nofun rfl) fun _ => .bind .consumeDefault fun _ => .bind .consume fun _ =>
    .bind .markOrName fun _ => .typedValue

theorem staticItem :
    Orderly text g k true ⟨.empty, a, m, o, .failed⟩ g.staticItem fun _ => ⟨.empty, none, m, o, .proper⟩ :=
  .bind (.setKind nofun rfl) fun _ => .bind .consume fun _ =>
    .bind (.ifAt <| .bind (.beside aside_reportReference) fun _ => .consume) fun _ =>
    .bind .consumeIf fun _ => .bind (.expectName rfl) fun _ => .typedValue

theorem functionEnd :
    Orderly text g k true ⟨.empty, a, m, o, .proper⟩ g.functionEnd
      fun _ => ⟨.empty, none, m, o, .proper⟩ := by
  refine .kind fun c _ => ?_
  split
  · exact .field (.call (.inl rfl) rfl)
  · exact .bind (.setKind nofun rfl) fun _ => .consume
  · exact .absorbOr

theorem functionItem :
    Orderly text g k true ⟨.empty, a, m, o, .failed⟩ g.functionItem
      fun _ => ⟨.empty, none, m, o, .proper⟩ :=
  .bind (.setKind nofun rfl) fun _ => .bind (.beside aside_isAtFunctionModifier) fun _ =>
    .bind (.provided (.child .functionModifiers)) fun _ => .bind (.expect rfl) fun _ =>
    .bind (.expectName rfl) fun _ => .bind .typeParametersIf fun _ =>
    .bind (.field .parameters) fun _ => .bind .returnTypeIf fun _ => .bind .whereClauseIf fun _ =>
    .functionEnd

/-! ### Structures, unions and enumerations -/

theorem fieldDeclarations :
    Orderly text g k true ⟨.empty, a, m, o, F⟩ g.fieldDeclarations
      fun n => ⟨.node n, none, m, o, F⟩ :=
  .bind .flush fun _ => .fairNode rfl <| .list Grammar.steady_memberList <|
    .bind .attributes fun _ => .bind .flush fun _ => .child <| .node rfl <|
    .bind .visibilityIf fun _ => .bind (.expectName rfl) fun _ => .bind (.expect rfl) fun _ =>
    .field (.call (.inl rfl) rfl)

theorem orderedFieldDeclarations :
    Orderly text g k true ⟨.empty, a, m, o, F⟩ g.orderedFieldDeclarations
      fun n => ⟨.node n, none, m, o, F⟩ :=
  .bind .flush fun _ => .fairNode rfl <| .list Grammar.steady_orderedFieldList <|
    .bind .attributes fun _ => .bind .visibilityIf fun _ => .field (.call (.inl rfl) rfl)

theorem structureBody {isStruct : Bool} :
    Orderly text g k true ⟨.empty, a, m, o, .proper⟩ (g.structureBody isStruct)
      fun _ => ⟨.empty, none, m, o, .proper⟩ := by
  refine .kind fun c _ => ?_
  split
  · exact .field .fieldDeclarations
  · split
    · exact .bind (.field .orderedFieldDeclarations) fun _ => .bind .whereClauseIf fun _ => .expect rfl
    · split
      · exact .consume
      · exact .absorbOr

theorem structItem :
    Orderly text g k true ⟨.empty, a, m, o, .failed⟩ g.structItem fun _ => ⟨.empty, none, m, o, .proper⟩ :=
  .bind (.setKind nofun rfl) fun _ => .bind .consume fun _ => .bind (.expectName rfl) fun _ =>
    .bind .typeParametersIf fun _ => .bind .whereClauseIf fun _ => .structureBody

theorem unionAt :
    Orderly text g k true ⟨.empty, a, m, o, .failed⟩ g.unionAt fun _ => ⟨.empty, none, m, o, .proper⟩ :=
  .bind (.setKind nofun rfl) fun _ => .bind .takeWord fun _ =>
    .bind (.expectName rfl) fun _ => .bind .typeParametersIf fun _ =>
    .bind .whereClauseIf fun _ => .structureBody

theorem variant :
    Orderly text g k true ⟨.empty, a, m, o, F⟩ g.variant fun n => ⟨.node n, none, m, o, F⟩ := by
  have hfields : Orderly text g k true ⟨.empty, none, m, o, .proper⟩ g.variantFields
      fun _ => ⟨.empty, none, m, o, .proper⟩ := by
    refine .kind fun c _ => ?_
    split
    · exact .field .fieldDeclarations
    · exact .field .orderedFieldDeclarations
    · exact .pure .forget
  exact .bind .flush fun _ => .node rfl <| .bind .visibilityIf fun _ =>
    .bind (.expectName rfl) fun _ => .bind hfields fun _ =>
    .ifAt <| .bind .consume fun _ => .field (.call (.inl rfl) rfl)

theorem enumItem :
    Orderly text g k true ⟨.empty, a, m, o, .failed⟩ g.enumItem fun _ => ⟨.empty, none, m, o, .proper⟩ :=
  .bind (.setKind nofun rfl) fun _ => .bind .consume fun _ => .bind (.expectName rfl) fun _ =>
    .bind .typeParametersIf fun _ => .bind .whereClauseIf fun _ => .bind .flush fun _ =>
    .field <| .fairNode rfl <| .list Grammar.steady_memberList <|
    .bind .attributes fun _ => .child .variant

/-! ### Traits, implementations and type aliases -/

theorem autoIf {α : Type} {K : Unit → Parse α} {q : α → Stage}
    (rest : ∀ r, Orderly text g k true ⟨.empty, none, m, o, F⟩ (K r) q) :
    Orderly text g k true ⟨.empty, a, m, o, F⟩
      (Parse.isAtWord "auto" >>= fun b => Parse.provided b (Parse.consumeAs .autoKw) >>= K) q := by
  have hword : (Parse.isAtWord "auto" >>= fun b => Parse.provided b (Parse.consumeAs .autoKw) >>= K) =
      (Parse.isAtWord "auto" >>= fun b => Parse.provided b (Parse.takeWord .autoKw) >>= K) :=
    isAtWord_congr rfl fun _ _ hs => (takeWord_bind .autoKw rfl hs).symm
  rw [hword]
  exact .bind (.beside (aside_isAtWord _)) fun _ => .bind (.provided .takeWord) rest

theorem traitItem :
    Orderly text g k true ⟨.empty, a, m, o, .failed⟩ g.traitItem fun _ => ⟨.empty, none, m, o, .proper⟩ :=
  .bind (.setKind nofun rfl) fun _ => .bind .consumeIf fun _ => .autoIf fun _ =>
    .bind (.expect rfl) fun _ =>
    .bind (.expectName rfl) fun _ => .bind .typeParametersIf fun _ =>
    .bind .traitBoundsIf fun _ => .bind .whereClauseIf fun _ => .declarations

theorem implItem :
    Orderly text g k true ⟨.empty, a, m, o, .failed⟩ g.implItem
      fun _ => ⟨.empty, none, m, o, .proper⟩ := by
  have htype : Orderly text g k true ⟨.empty, none, m, o, .proper⟩ g.implementedType
      fun _ => ⟨.empty, none, m, o, .proper⟩ :=
    .bind (.call (.inl rfl) rfl) fun _ => .isAt
      (.bind .pushField fun _ => .bind .consume fun _ => .field (.call (.inl rfl) rfl)) .pushField
  exact .bind (.setKind nofun rfl) fun _ => .bind .consumeDefault fun _ => .bind .consumeIf fun _ =>
    .bind (.expect rfl) fun _ => .bind .typeParametersIf fun _ => .bind .consumeIf fun _ =>
    .bind htype fun _ => .bind .whereClauseIf fun _ => .isAt .consume .declarations

theorem typeItem :
    Orderly text g k true ⟨.empty, a, m, o, .failed⟩ g.typeItem fun _ => ⟨.empty, none, m, o, .proper⟩ :=
  .bind (.setKind nofun rfl) fun _ => .bind .consumeDefault fun _ => .bind .consume fun _ =>
    .bind (.expectName rfl) fun _ => .bind .typeParametersIf fun _ =>
    .bind .traitBoundsIf fun _ => .bind .whereClauseIf fun _ =>
    .bind (.ifAt <| .bind (.setKind nofun rfl) fun _ => .bind .consume fun _ =>
      .bind (.field (.call (.inl rfl) rfl)) fun _ => .whereClauseIf) fun _ => .expect rfl

/-! ### Modules and imports -/

theorem modItem :
    Orderly text g k true ⟨.empty, a, m, o, .failed⟩ g.modItem fun _ => ⟨.empty, none, m, o, .proper⟩ :=
  .bind (.setKind nofun rfl) fun _ => .bind .consume fun _ => .bind (.expectName rfl) fun _ =>
    .isAt .consume .declarations

theorem foreignModItem :
    Orderly text g k true ⟨.empty, a, m, o, .failed⟩ g.foreignModItem
      fun _ => ⟨.empty, none, m, o, .proper⟩ :=
  .bind (.setKind nofun rfl) fun _ => .bind .consumeIf fun _ => .bind (.child .externModifier) fun _ =>
    .declarations

theorem newName {f : Bool} :
    Orderly text g k f ⟨.empty, a, m, o, .proper⟩ Grammar.newName fun _ => ⟨.empty, none, m, o, .proper⟩ :=
  .bind .consume fun _ => .markOrName

theorem externCrateDeclaration :
    Orderly text g k true ⟨.empty, a, m, o, .failed⟩ Grammar.externCrateDeclaration
      fun _ => ⟨.empty, none, m, o, .proper⟩ :=
  .bind (.setKind nofun rfl) fun _ => .bind .consume fun _ => .bind .consume fun _ =>
    .bind .markOrName fun _ => .bind (.ifAt .newName) fun _ => .expect rfl

theorem imports {f : Bool} :
    Orderly text g k f ⟨.empty, a, m, o, F⟩ g.imports fun n => ⟨.node n, none, m, o, F⟩ :=
  .bind .flush fun _ => .fairNode rfl <|
    .list Grammar.steady_useList (.child (.call (.inl rfl) rfl))

theorem globalImports {f : Bool} :
    Orderly text g k f ⟨.empty, a, m, o, F⟩ g.globalImports fun n => ⟨.node n, none, m, o, F⟩ :=
  .node rfl <| .bind .consume fun _ => .isAt (.bind (.setKind nofun rfl) fun _ => .consume)
    (.field .imports)

theorem importsFrom {f : Bool} {path : Node} :
    Orderly text g k f ⟨.node path, a, m, o, F⟩ (g.importsFrom path)
      fun n => ⟨.node n, none, m, o, F⟩ := by
  refine .look (fun _ _ => rfl) fun s _ => ?_
  split
  · exact .node rfl <| .bind .pushField fun _ => .bind .consume fun _ => .field .imports
  · split
    · exact .node rfl <| .bind .push fun _ => .bind .consume fun _ => .consume
    · split
      · exact .node rfl <| .bind .pushField fun _ => .newName
      · exact .pure .forget

theorem useClause {f : Bool} :
    Orderly text g k f ⟨.empty, a, m, o, F⟩ g.useClause fun n => ⟨.node n, none, m, o, F⟩ := by
  refine .bind .flush fun _ => .look (fun _ _ => rfl) fun s _ => ?_
  split
  · exact .imports
  · split
    · exact .node rfl .consume
    · split
      · exact .globalImports
      · exact .bind .simplePath fun _ => .importsFrom

theorem useDeclaration :
    Orderly text g k true ⟨.empty, a, m, o, .failed⟩ g.useDeclaration
      fun _ => ⟨.empty, none, m, o, .proper⟩ :=
  .bind (.setKind nofun rfl) fun _ => .bind .consume fun _ =>
    .bind (.field (.call (.inl rfl) rfl)) fun _ => .expect rfl

/-! ### Definitions of macros -/

theorem macroRule {c : Kind} (hc : c.isOpen = true) :
    Orderly text g k true ⟨.empty, some c, m, o, F⟩ g.macroRule
      fun n => ⟨.node n, none, true, o, F⟩ :=
  .bind .flush fun _ => .node rfl <| .bind (.field (.callAt (.inl rfl) hc)) fun _ =>
    .bind (.expect rfl) fun _ => .field (.call (.inl rfl) rfl)

theorem macroRules {opener closer : Kind} {range : Range} (hc : closer.isStandIn = true) :
    Orderly text g k true ⟨.empty, a, m, o, F⟩ (g.macroRules opener closer range)
      fun _ => ⟨.empty, none, m, o, F⟩ := by
  refine .repeatWhile <| .bind .flush fun _ => .kind fun c _ => ?_
  split
  · exact .bind (.treeCloser hc) fun _ => .pure (.refl _)
  · next hopens =>
    have hskip : c.isSkipped = true := by simpa [Kind.isSkipped, and_comm] using hopens
    have hentry : Orderly text g k true ⟨.empty, some c, false, o, F⟩ (g.macroEntry c)
        fun _ => ⟨.empty, none, true, o, F⟩ := by
      unfold Grammar.macroEntry
      split
      · next hsemicolon =>
        obtain rfl := eq_of_beq hsemicolon
        exact .consumeAt (by decide)
      · split
        · next hopen => exact .child (.macroRule hopen)
        · exact .forgive <| .bind (.report aside_reportUnexpected) fun _ =>
            .child (.skipGroupAt hskip)
    exact .bind hentry fun _ => .pure (.refl _)

theorem macroAt :
    Orderly text g k true ⟨.empty, a, m, o, .failed⟩ g.macroAt
      fun _ => ⟨.empty, none, m, o, .proper⟩ := by
  refine .bind (.setKind nofun rfl) fun _ => .bind .takeWord fun _ =>
    .bind (.expect rfl) fun _ => .bind (.expectName rfl) fun _ => .bind .flush fun _ =>
    .kind fun c _ => ?_
  split
  · exact .forget (.beside ((aside_reportExpected _).weaken nofun))
  · next closer hcloser =>
    refine .bind (.beside aside_tokenRange) fun _ => .bind .consume fun _ =>
      .bind (.macroRules (Kind.isStandIn_of_closer? hcloser)) fun _ => ?_
    split
    · exact .pure (.refl _)
    · exact .expect rfl

/-! ### Any item -/

theorem notAnItem :
    Orderly text g k true ⟨.empty, a, m, o, .failed⟩ Grammar.notAnItem
      fun _ => ⟨.empty, none, m, o, .fair⟩ :=
  .after (.bind (.report (aside_reportExpected _)) fun _ => .failDraft nofun) fun _ =>
    .less (.inl rfl) id (fun _ => rfl) (.owed rfl)

theorem itemAtConst {s : Session} :
    Orderly text g k true ⟨.empty, a, m, o, .failed⟩ (g.itemAtConst s)
      fun _ => ⟨.empty, none, m, o, .proper⟩ := by
  unfold Grammar.itemAtConst
  split
  · exact .functionItem
  · exact .constItem

theorem itemAtUnsafe {s : Session} :
    Orderly text g k true ⟨.empty, a, m, o, .failed⟩ (g.itemAtUnsafe s)
      fun _ => ⟨.empty, none, m, o, .proper⟩ := by
  unfold Grammar.itemAtUnsafe
  split
  · exact .implItem
  · exact .traitItem
  · refine .bind (.beside (aside_textAhead 1)) fun _ => ?_
    split
    · exact .traitItem
    · exact .functionItem
  · split
    · exact .foreignModItem
    · exact .functionItem
  · exact .functionItem

theorem itemAtExtern {s : Session} :
    Orderly text g k true ⟨.empty, a, m, o, .failed⟩ (g.itemAtExtern s)
      fun _ => ⟨.empty, none, m, o, .proper⟩ := by
  unfold Grammar.itemAtExtern
  split
  · exact .externCrateDeclaration
  · split
    · exact .foreignModItem
    · exact .functionItem

theorem itemAtDefault {s : Session} :
    Orderly text g k true ⟨.empty, a, m, o, .failed⟩ (g.itemAtDefault s)
      fun _ => ⟨.empty, none, m, o, .proper⟩ := by
  unfold Grammar.itemAtDefault
  split
  · exact .implItem
  · exact .typeItem
  · split
    · exact .functionItem
    · exact .constItem
  · exact .functionItem

theorem itemAtWord {s : Session} :
    Orderly text g k true ⟨.empty, a, m, o, .failed⟩ (g.itemAtWord s)
      fun _ => ⟨.empty, none, m, o, .fair⟩ := by
  rw [Grammar.itemAtWord_eq]
  refine .bind (.beside aside_tokenText) fun word => ?_
  unfold Grammar.itemBy
  split
  · split
    · exact .fairly .unionAt
    · exact .notAnItem
  · split
    · split
      · exact .fairly .traitItem
      · exact .notAnItem
    · split
      · split
        · exact .fairly .macroAt
        · exact .notAnItem
      · split
        · exact .fairly .itemAtDefault
        · exact .notAnItem

theorem itemForm :
    Orderly text g k true ⟨.empty, a, m, o, .failed⟩ g.itemForm
      fun _ => ⟨.empty, none, m, o, .fair⟩ := by
  refine .look (fun _ _ => rfl) fun s _ => ?_
  split
  case h_1 | h_2 => exact .fairly .functionItem
  case h_3 => exact .fairly .itemAtConst
  case h_4 => exact .fairly .itemAtUnsafe
  case h_5 => exact .fairly .itemAtExtern
  case h_6 => exact .fairly .staticItem
  case h_7 => exact .fairly .structItem
  case h_8 => exact .fairly .enumItem
  case h_9 => exact .fairly .traitItem
  case h_10 => exact .fairly .implItem
  case h_11 => exact .fairly .typeItem
  case h_12 => exact .fairly .modItem
  case h_13 => exact .fairly .useDeclaration
  case h_14 => exact .itemAtWord
  case h_15 => exact .notAnItem

theorem item :
    Orderly text g k true ⟨.empty, a, m, o, F⟩ g.item fun _ => ⟨.empty, none, m, o, F⟩ := by
  refine .bind .flush fun _ => .isAt ?_ ?_
  · exact .perhaps <| .bind (.child .attributeItemAt) fun _ => .pure (.refl _)
  · refine .bind (.beside aside_isAtItem) fun isAtItem => ?_
    split
    · have hbegins : Standing.failed.Begins .error := .inr rfl
      have hfilled : Orderly text g k true ⟨.empty, a, m, o, .failed⟩
          (do Parse.visibilityIf; g.itemForm) fun _ => ⟨.empty, none, m, o, .fair⟩ :=
        .bind .visibilityIf fun _ => .itemForm
      have hitem : Orderly text g k true ⟨.empty, a, m, o, F⟩
          (Parse.node .error (do Parse.visibilityIf; g.itemForm))
          fun n => ⟨.node n, none, m, o, F⟩ :=
        .bind (.collect hbegins hfilled) fun _ => .finish nofun
      exact .bind (.child hitem) fun _ => .pure (.refl _)
    · exact .pure .forget

end Orderly

end ConcreteSyntax
