import ConcreteSyntax.Proofs.Reading.Aside
import ConcreteSyntax.Proofs.Sheds.Recovery

/-! # Paths, token trees and attributes without comments

The productions of simple paths, token trees and attributes shed comments, if the nonterminals inside
them do (`Grammar.Sheds`). Whether the call of a macro needs a semicolon depends on the opener at the
front of the group that ends it; no comment stands at either place, since the comments before the
group go to the node around it. -/

namespace ConcreteSyntax

open Parse

/-- A group of tokens that begins with its opener, and the one that it sheds to. -/
structure Node.HeadBares (n m : Node) : Prop extends n.Bares m where
  headed : n.Headed

/-- A grammar whose nonterminals shed comments. -/
structure Grammar.Sheds (g : Grammar) : Prop where
  parse {P : Scanner → Prop} {T : Draft.Trait} {nonterminal : Nonterminal} :
    Parse.Sheds P T Node.Bares (g.parse nonterminal) (g.parse nonterminal)
  tree {P : Scanner → Prop} {T : Draft.Trait} {form : TreeForm} :
    Parse.Sheds P T Node.HeadBares (g.parse (.tokenTree form)) (g.parse (.tokenTree form))

namespace Parse

variable {α α' : Type} {P : Scanner → Prop} {T : Draft.Trait} {R : α → α' → Prop} {g : Grammar}
  {σ : Setting} {s : Session} {w : Twin}

/-! ### Groups of tokens -/

/-- The next token is of the same kind in both sessions. -/
theorem ShedsAt.kind {c : Kind} {K : Kind → Parse α} {K' : Kind → Parse α'} (hc : s.kind = c)
    (h : ShedsAt T R σ s w (K c) (K' c)) :
    ShedsAt T R σ s w (Parse.kind >>= K) (Parse.kind >>= K') := by
  subst hc
  exact .step rfl rfl h

/-- A draft that takes a token right after the comments before it begins with that token. -/
theorem ShedsAt.consumeOpener {kind : Kind} {K : Unit → Parse α} {K' : Unit → Parse α'}
    (hσ : σ.options.keepComments = true) (hk : kind ≠ .macroInvocation)
    (hs : s.Sheds T w) (hleading : s.scanner.leading = []) (hend : s.kind ≠ .endOfFile)
    (hK : Sheds Anywhere .headed R (K ()) (K' ())) :
    ShedsAt .headed R σ (s.withDraft (.ofKind kind)) (w.withDraft (.ofKind kind)) (Parse.consume >>= K)
      (Parse.consume >>= K') := by
  have htoken := Node.bares_ofToken s.scanner.token none
  have hnew : (s.withDraft (.ofKind kind)).Sheds .usual (w.withDraft (.ofKind kind)) :=
    hs.withDraft (.ofKind kind) hk
  have ht := hnew.taken hσ .usual
  have hempty : ((s.withDraft (.ofKind kind)).taken σ .usual).draft.children.toList = [] := by
    show (if σ.options.keepComments = true then _ else _ : Draft).children.toList = []
    rw [if_pos hσ, Draft.children_extend, Session.comments]
    show [] ++ s.scanner.leading.map _ = []
    rw [hleading]
    rfl
  have hpushed := ht.withDraft (ht.draft.pushChild htoken.sheds htoken.plain none)
    (Draft.Trait.headed_pushChild ht.trait hempty htoken.plain none)
  exact .step (consume_run (s := s.withDraft (.ofKind kind)) hend)
    (consume_run (s := (s.withDraft (.ofKind kind)).twin (w.withDraft (.ofKind kind))) hend)
    (hK.follow hσ hpushed trivial)

namespace Sheds

/-- A node whose draft begins with a child that is no extra. -/
theorem headedNode {kind : Kind} {body body' : Parse Unit}
    (h : ∀ {σ : Setting} {s : Session} {w : Twin}, σ.options.keepComments = true → s.Sheds T w →
      P s.scanner → ShedsAt .headed Eq σ (s.withDraft (.ofKind kind)) (w.withDraft (.ofKind kind)) body
        body') :
    Sheds P T Node.HeadBares (Parse.node kind body) (Parse.node kind body') := by
  refine ⟨fun {σ s w} hσ hs hP => ⟨fun hrun => ?_⟩⟩
  obtain ⟨_, _, hcollect, hfinish⟩ := bind_eq_some.1 hrun
  obtain ⟨t, hbody, rfl, rfl⟩ := collect_eq_some.1 hcollect
  obtain ⟨rfl, rfl⟩ := Prod.mk.inj (Option.some.inj hfinish)
  obtain ⟨_, w', hbody', -, ht⟩ := (h hσ hs hP).run hbody
  obtain ⟨hk, c, cs, hc, hplain⟩ := ht.trait
  refine ⟨_, w'.withDraft w.draft, bind_eq_some.2 ⟨_, _, collect_eq_some.2 ⟨_, hbody', rfl, rfl⟩, rfl⟩,
    ⟨ht.draft.bares hk t.consumedEnd, fun d hd => ?_⟩, ht.withDraft hs.draft hs.trait⟩
  obtain rfl : c = d := Option.some.inj ((congrArg List.head? hc).symm.trans hd)
  exact hplain

/-- Where a closer or the end of the text stands, nothing is skipped. -/
theorem skipGroup_run {σ : Setting} {s : Session}
    (hstop : (s.kind.isClose || s.kind == .endOfFile) = true) :
    Parse.skipGroup σ s = some ((Draft.ofKind .error).finish s.consumedEnd, s) := by
  have hbody : (do
      let first ← Parse.kind
      if first.isClose || first == .endOfFile then return
      Parse.loop Parse.skipNext 0 : Parse Unit) σ (s.withDraft (.ofKind .error)) =
        some ((), s.withDraft (.ofKind .error)) := by
    show (if (s.kind.isClose || s.kind == .endOfFile) = true then _ else _ : Parse Unit) σ _ = _
    rw [if_pos hstop]
    rfl
  exact bind_eq_some.2 ⟨_, _, collect_eq_some.2 ⟨_, hbody, rfl, rfl⟩, rfl⟩

/-- What is skipped anywhere else begins with its first token. -/
theorem skipGroup_opens : Sheds (fun s => s.leading = [] ∧
    (s.kind.isClose || s.kind == .endOfFile) = false) T Node.HeadBares Parse.skipGroup
    Parse.skipGroup := by
  refine headedNode fun {σ s w} hσ hs hat => .kind (c := s.kind) rfl ?_
  obtain ⟨hleading, hgo⟩ := hat
  have hgo : (s.kind.isClose || s.kind == .endOfFile) = false := hgo
  have hend : (s.kind == .endOfFile) = false := (Bool.or_eq_false_iff.1 hgo).2
  have hturn : ShedsAt .headed (Step.Rel Eq Eq) σ (s.withDraft (.ofKind .error))
      (w.withDraft (.ofKind .error)) (Parse.skipNext 0) (Parse.skipNext 0) := by
    refine .kind (c := s.kind) rfl ?_
    rw [if_neg (Bool.eq_false_iff.1 hend)]
    refine .consumeOpener hσ (by decide) hs hleading (ne_of_beq_false hend) ?_
    exact .give (.refl _)
  rw [if_neg (Bool.eq_false_iff.1 hgo)]
  exact .step rfl rfl (iterate_first hσ hturn (iterate (fun _ _ h => h ▸ .skipNext) _))

theorem skipGroup_headed (hP : ∀ s, P s → s.leading = []) :
    Sheds P T Node.HeadBares Parse.skipGroup Parse.skipGroup := by
  refine ⟨fun {σ s w} hσ hs hPs => ?_⟩
  cases hstop : s.kind.isClose || s.kind == .endOfFile with
  | true =>
    refine ⟨fun hrun => ?_⟩
    obtain ⟨rfl, rfl⟩ := Prod.mk.inj (Option.some.inj ((skipGroup_run hstop).symm.trans hrun))
    refine ⟨_, w, skipGroup_run hstop, ⟨(Draft.Sheds.ofKind .error).bares (by decide) _, ?_⟩, hs⟩
    intro c hc
    cases hc
  | false => exact skipGroup_opens.follow hσ hs ⟨hP _ hPs, hstop⟩

theorem skipNested_headed (hP : ∀ s, P s → s.leading = []) :
    Sheds P T Node.HeadBares Parse.skipNested Parse.skipNested := by
  refine ⟨fun {σ s w} hσ hs hPs => ?_⟩
  obtain ⟨_, t, hrun, hbeside, -⟩ := aside_reportLimit σ s
  have hrun : Parse.reportLimit σ s = some (_, t) := hrun σ.watches σ.opened
  obtain ⟨_, w', hrun', -, ht⟩ := (reportLimit.follow hσ hs hPs).run hrun
  exact .step hrun hrun' ((skipGroup_headed fun _ => id).follow hσ ht (hbeside.scanner ▸ hP _ hPs))

/-! ### Paths -/

theorem segment {kind : Kind} :
    Sheds P T Node.Bares (Parse.segment kind) (Parse.segment kind) := by
  refine .kind fun c => ?_
  split
  all_goals first | exact .leaf | exact .bind .reportExpected fun _ => .missing

theorem scopeAfter {n m : Node} (h : n.Bares m) :
    Sheds P T Draft.Bares (Parse.scopeAfter n) (Parse.scopeAfter m) :=
  .collectBare (Draft.bares_ofKind rfl) <| .bind (.pushField h) fun _ => .expect

theorem globalScope : Sheds P T Draft.Bares Parse.globalScope Parse.globalScope :=
  .collectBare (Draft.bares_ofKind rfl) .consume

theorem segmentIn {scope scope' : Option Draft} (h : Option.Rel Draft.Bares scope scope')
    {kind : Kind} :
    Sheds P T Node.Bares (Parse.segmentIn scope kind) (Parse.segmentIn scope' kind) := by
  cases h with
  | some h => exact .resume h (.field .segment)
  | none => exact .segment

theorem globalScopeIf :
    Sheds P T (Option.Rel Draft.Bares) Parse.globalScopeIf Parse.globalScopeIf :=
  .isAt (.draw .globalScope fun _ _ h => .give (.some h)) (.give .none)

theorem simplePath : Sheds P T Node.Bares Parse.simplePath Parse.simplePath := by
  refine .bind .flush fun _ => .draw .globalScopeIf fun _ _ h => .draw (.segmentIn h) fun _ _ h => ?_
  refine .loop (R := Node.Bares) (fun x y h => ?_) h
  refine .look (fun _ _ => rfl) fun s _ => ?_
  refine .choose ?_ ?_
  · exact .draw (.scopeAfter h) fun _ _ h => .draw (.segmentIn (.some h)) fun _ _ h => .give (.again h)
  · exact .give (.done h)

/-! ### Token trees -/

theorem binding : Sheds P T Node.Bares Grammar.binding Grammar.binding := by
  refine .node rfl <| .bind .consumeField fun _ => .bind .consume fun _ => .kind fun _ => .choose ?_ ?_
  · refine .bind .tokenText fun word => .choose .consumeFieldAs ?_
    exact .bind .reportHere fun _ => .draw .leaf fun _ _ h => .pushField (h.withFlags rfl)
  · exact .bind .reportExpected fun _ => .pushMissingField

theorem treeElement (hg : g.Sheds) {form : TreeForm} {s : Session} :
    Sheds P T Eq (g.treeElement form s) (g.treeElement form s) := by
  unfold Grammar.treeElement
  split
  · exact .child hg.parse
  · exact .child hg.parse
  · exact .child hg.parse
  · exact .choose (.child hg.parse) .consume
  · exact .choose (.child .binding) .consume
  · exact .choose (.child .lifetime) .consume
  · exact .choose (.child .literal) .consume

theorem treeContents (hg : g.Sheds) {form : TreeForm} :
    Sheds P T Eq (g.treeContents form) (g.treeContents form) :=
  .repeatWhile <| .bind .flush fun _ => .look (fun _ _ => rfl) fun _ _ => .choose (.pure _)
    (.bind (.treeElement hg) fun _ => .pure _)

theorem reportInPlace {opener closer c : Kind} {range : Range} : Sheds P T Eq
    (Grammar.reportInPlace opener closer range c) (Grammar.reportInPlace opener closer range c) :=
  .choose .reportAt .reportHere

theorem treeCloser {opener closer : Kind} {range : Range} : Sheds P T Eq
    (Grammar.treeCloser opener closer range) (Grammar.treeCloser opener closer range) :=
  .kind fun _ => .choose (.bind .consume fun _ => .pure _)
    (.bind .reportInPlace fun _ => .bind .pushMissing fun _ => .pure _)

/-- Where no opener stands, the group begins with one that is missing. -/
theorem missingTree {kind : Kind} {σ : Setting} {s : Session} {w : Twin}
    (hσ : σ.options.keepComments = true) (hk : kind ≠ .macroInvocation) (hs : s.Sheds T w) :
    ShedsAt .headed Eq σ (s.withDraft (.ofKind kind)) (w.withDraft (.ofKind kind))
      (do
        Parse.reportExpected "'(', '[' or '\x7b'"
        Parse.pushMissing .openParen
        Parse.pushMissing .closeParen)
      (do
        Parse.reportExpected "'(', '[' or '\x7b'"
        Parse.pushMissing .openParen
        Parse.pushMissing .closeParen) := by
  have hnew : (s.withDraft (.ofKind kind)).Sheds .usual (w.withDraft (.ofKind kind)) :=
    hs.withDraft (.ofKind _) hk
  have hreport : Sheds Anywhere .usual Eq (Parse.reportExpected "'(', '[' or '\x7b'")
      (Parse.reportExpected "'(', '[' or '\x7b'") := .reportExpected
  obtain ⟨r, t, hrun, hbeside, -⟩ := aside_reportExpected "'(', '[' or '\x7b'" σ
    (s.withDraft (.ofKind kind))
  have hrun := hrun σ.watches σ.opened
  obtain ⟨_, w', hrun', -, ht⟩ := (hreport.follow hσ hnew trivial).run hrun
  have hopener : (Node.leaf .openParen (.emptyAt t.consumedEnd) { missing := true }).Bares _ :=
    Node.bares_leaf rfl
  have hempty : t.draft.children.toList = [] := by
    rw [hbeside.draft]
    rfl
  have hpushed := ht.withDraft (ht.draft.pushChild hopener.sheds hopener.plain none)
    (Draft.Trait.headed_pushChild ht.trait hempty hopener.plain none)
  have hrest : Sheds Anywhere .headed Eq (Parse.pushMissing .closeParen)
      (Parse.pushMissing .closeParen) := .pushMissing
  exact .step hrun hrun' (.step rfl rfl (hrest.follow hσ hpushed trivial))

/-- A group of tokens begins with its opener, or with one that is missing. -/
theorem delimitedTree (hg : g.Sheds) {form : TreeForm} : Sheds (fun s => s.leading = []) T
    Node.HeadBares (g.delimitedTree form) (g.delimitedTree form) := by
  have hk : form.groupKind ≠ .macroInvocation := by cases form <;> decide
  refine headedNode fun {σ s w} hσ hs hleading => .kind (c := s.kind) rfl ?_
  split
  · exact missingTree hσ hk hs
  · next closer hcloser =>
    have hend : s.kind ≠ .endOfFile := by
      intro hend
      rw [hend] at hcloser
      cases hcloser
    refine .step rfl rfl (.consumeOpener hσ hk hs hleading hend ?_)
    exact .bind (.treeContents hg) fun _ => .bind .treeCloser fun _ => .pure _

theorem tokenTree (hg : g.Sheds) {form : TreeForm} :
    Sheds P T Node.HeadBares (g.tokenTree form) (g.tokenTree form) :=
  .afterFlush (.guardedBy (.delimitedTree hg) (skipNested_headed fun _ => id))

theorem repetitionMark : Sheds P T Eq Grammar.repetitionMark Grammar.repetitionMark :=
  .kind fun _ => .bind (.provided .consume) fun _ => .kind fun _ => .choose .consume
    (.bind .reportHere fun _ => .pushMissing)

theorem repetition (hg : g.Sheds) {form : TreeForm} :
    Sheds P T Node.Bares (g.repetition form) (g.repetition form) :=
  .node (by cases form <;> rfl) <| .bind .consume fun _ => .bind .tokenRange fun _ =>
    .bind .consume fun _ => .bind (.treeContents hg) fun _ =>
    .test .treeCloser .repetitionMark (.pure _)

/-- The call of a macro ends with its group of tokens. -/
theorem macroCall (hg : g.Sheds) {path path' : Node} (hpath : path.Bares path') :
    Sheds P T Node.Bares (g.macroCall path) (g.macroCall path') := by
  refine ⟨fun {σ s w} hσ hs hP => ⟨fun hrun => ?_⟩⟩
  obtain ⟨_, _, hcollect, hfinish⟩ := bind_eq_some.1 hrun
  obtain ⟨t, hbody, rfl, rfl⟩ := collect_eq_some.1 hcollect
  obtain ⟨rfl, rfl⟩ := Prod.mk.inj (Option.some.inj hfinish)
  obtain ⟨_, u, hpushed, hbody⟩ := bind_eq_some.1 hbody
  obtain ⟨_, q, hbang, hbody⟩ := bind_eq_some.1 hbody
  obtain ⟨tree, v, htree, hbody⟩ := bind_eq_some.1 hbody
  obtain ⟨-, rfl⟩ := Prod.mk.inj (Option.some.inj hbody)
  have hnew : (s.withDraft (.ofKind .macroInvocation)).Sheds .any
      (w.withDraft (.ofKind .macroInvocation)) :=
    hs.withDraft (.ofKind _) trivial
  have hstart : Sheds P .any Node.HeadBares (do
      Parse.pushField .macroName path
      Parse.expect .bang
      g.parse (.tokenTree .arguments)) (do
      Parse.pushField .macroName path'
      Parse.expect .bang
      g.parse (.tokenTree .arguments)) :=
    .bind (.pushField hpath) fun _ => .bind .expect fun _ => hg.tree
  obtain ⟨tree', w', hrun', hbares, hv⟩ := (hstart.follow hσ hnew hP).run
    (bind_eq_some.2 ⟨_, u, hpushed, bind_eq_some.2 ⟨_, q, hbang, htree⟩⟩)
  obtain ⟨_, u', hpushed', hrun'⟩ := bind_eq_some.1 hrun'
  obtain ⟨_, q', hbang', htree'⟩ := bind_eq_some.1 hrun'
  have hdraft := hv.draft.pushChild hbares.sheds hbares.plain none
  refine ⟨_, w'.withDraft w.draft, bind_eq_some.2 ⟨_, _, collect_eq_some.2 ⟨_, bind_eq_some.2
    ⟨_, u', hpushed', bind_eq_some.2 ⟨_, q', hbang', bind_eq_some.2 ⟨tree', _, htree', rfl⟩⟩⟩,
    rfl, rfl⟩, rfl⟩,
    ⟨hdraft.finish v.consumedEnd, hdraft.plain, fun _ c hc => ?_⟩, hv.withDraft hs.draft hs.trait⟩
  have hlast : (v.draft.pushChild none tree).children.toList.getLast? = some (none, tree) := by
    rw [Draft.children_pushChild, List.getLast?_concat]
  obtain rfl := Option.some.inj (hlast.symm.trans hc)
  exact ⟨hbares.plain, hbares.headed⟩

/-! ### Attributes and visibility -/

theorem attributeBody (hg : g.Sheds) : Sheds P T Node.Bares g.attributeBody g.attributeBody :=
  .bind .flush fun _ => .node rfl <| .bind (.child .simplePath) fun _ => .kind fun _ =>
    .choose (.bind .consume fun _ => .field (.unrestricted hg.parse))
      (.choose (.field hg.parse) (.pure _))

theorem attributeItem (hg : g.Sheds) : Sheds P T Node.Bares g.attributeItem g.attributeItem :=
  .bind .flush fun _ => .node rfl <| .bind .consume fun _ =>
    .bind (.ifAt (.bind (.setKind rfl) fun _ => .consume)) fun _ =>
    .isAt (.bind .tokenRange fun _ => .bind .consume fun _ => .bind (.child (.attributeBody hg))
      fun _ => .close) .expect

theorem attributes (hg : g.Sheds) : Sheds P T Eq g.attributes g.attributes :=
  .repeatWhile <| .isAt (.bind (.child (.attributeItem hg)) fun _ => .pure _) (.pure _)

theorem visibilityScope : Sheds P T Eq Parse.visibilityScope Parse.visibilityScope :=
  .isAt (.bind .consume fun _ => .child .simplePath) .consume

theorem visibility : Sheds P T Node.Bares Parse.visibility Parse.visibility :=
  .bind .flush fun _ => .node rfl <| .bind .consume fun _ => .look (fun _ _ => rfl) fun _ _ =>
    .choose (.choose (.bind .settle fun _ => .bind .consume fun _ => .bind .visibilityScope fun _ =>
      .expect) .settle) (.pure _)

theorem visibilityIf : Sheds P T Eq Parse.visibilityIf Parse.visibilityIf :=
  .ifAt (.child .visibility)

end Sheds

end Parse

end ConcreteSyntax
