import ConcreteSyntax.Proofs.MacroCalls.Path
import ConcreteSyntax.Proofs.Reading.Outcome

/-! # Calls of macros in the place of items

Where the look ahead finds the call of a macro, the path of the call is read (`Grammar.valuePath_call`),
and the operators that follow leave the call where it is, at the front of what they make of it
(`Invariant.front`). So the statement begins with the call that was looked for, unless its path is a
single word of the language or a single `$name` (`Grammar.itemStatement_call`). -/

namespace ConcreteSyntax

open Parse

variable {text : List Char} {σ : Setting} {s s' : Session} {g : Grammar}

/-! ### The call -/

/-- A call of a macro over a path of this range is the node, or what its first child begins with. -/
inductive Node.BeginsWithCall (range : Range) : Node → Prop
  | call {n path : Node} {more : List Child} (kind : n.kind = .macroInvocation)
      (children : n.children = (some .macroName, path) :: more) (path : path.range = range) :
      BeginsWithCall range n
  | first {n : Node} {c : Child} {more : List Child} (children : n.children = c :: more)
      (first : c.2.BeginsWithCall range) : BeginsWithCall range n

/-- A group of tokens leaves nothing but comments in the open draft. -/
theorem Grammar.parse_tokenTree_draft {depth : Nat} {form : TreeForm} {n : Node}
    (hrun : (Grammar.upTo depth).parse (.tokenTree form) σ s = some (n, s')) :
    s'.draft = (s.flushed σ).draft := by
  cases depth with
  | zero => exact nomatch hrun
  | succ depth =>
    obtain ⟨opened, hrun⟩ := opening_eq_some hrun
    rw [production, tokenTree, bind_of_run (flush_run _ s), guarded_eq] at hrun
    split at hrun
    · obtain ⟨t, -, -, rfl⟩ := node_eq_some.1 hrun
      rfl
    · obtain ⟨_, t, hreport, hskip⟩ := bind_eq_some.1 hrun
      obtain ⟨u, -, -, rfl⟩ := node_eq_some.1 hskip
      exact (aside_reportLimit.beside hreport).draft

/-- What a draft was given first, of which kind it is and where its first child stands. -/
structure Draft.Opens (kind : Kind) (c : Child) (d : Draft) : Prop where
  kind : d.kind = kind
  first : ∃ more, d.children.toList = c :: more

namespace Draft.Opens

variable {d : Draft} {kind : Kind} {c : Child}

theorem extend (h : d.Opens kind c) (more : List Child) : (d.extend more).Opens kind c := by
  obtain ⟨rest, hd⟩ := h.first
  exact ⟨h.kind, rest ++ more, by simp [Draft.extend, hd]⟩

theorem push (h : d.Opens kind c) (label : Option Field) (n : Node) :
    (d.pushChild label n).Opens kind c := by
  obtain ⟨rest, hd⟩ := h.first
  exact ⟨h.kind, rest ++ [(label, n)], by simp [Draft.pushChild, hd]⟩

theorem flushed (h : s.draft.Opens kind c) : (s.flushed σ).draft.Opens kind c := by
  show (if σ.options.keepComments then s.draft.extend s.comments else s.draft).Opens kind c
  split
  · exact h.extend _
  · exact h

end Draft.Opens

/-- The call of a macro whose path was read. -/
theorem Grammar.macroCall_begins {depth : Nat} {path n : Node} (hs : s.kind = .bang)
    (hrun : (Grammar.upTo depth).macroCall path σ s = some (n, s')) :
    n.BeginsWithCall path.range := by
  obtain ⟨t, hbody, rfl, rfl⟩ := node_eq_some.1 hrun
  let u := s.withDraft ((Draft.ofKind .macroInvocation).pushField .macroName path)
  have hu : u.draft.Opens .macroInvocation (some .macroName, path) := ⟨rfl, [], rfl⟩
  have hbang : u.kind ≠ .endOfFile := by
    show s.kind ≠ _
    rw [hs]
    decide
  have hexpect := (expect_eq (σ := σ) (s := u) (beq_iff_eq.2 hs)).trans (consume_run hbang)
  rw [bind_of_run (show pushField .macroName path σ (s.withDraft _) = some ((), u) from rfl),
    bind_of_run hexpect] at hbody
  obtain ⟨tree, w, htree, hchild⟩ := bind_eq_some.1 hbody
  obtain ⟨-, rfl⟩ := Prod.mk.inj (Option.some.inj hchild)
  have hv : Draft.Opens .macroInvocation (some .macroName, path)
      ((u.taken σ .usual).draft.pushChild none (.ofToken u.scanner.token none)) :=
    (Draft.Opens.flushed hu).push none _
  have hw : w.draft.Opens .macroInvocation (some .macroName, path) :=
    parse_tokenTree_draft htree ▸ Draft.Opens.flushed hv
  obtain ⟨hkind, more, hmore⟩ := hw.push none tree
  exact .call hkind hmore rfl

/-! ### At the front -/

namespace Node.BeginsWithCall

variable {range : Range} {n : Node}

theorem children_ne (h : n.BeginsWithCall range) : n.isLeaf = false := by
  cases h with
  | call kind children => simp [isLeaf, children]
  | first children => simp [isLeaf, children]

theorem withFlags (h : n.BeginsWithCall range) (flags : NodeFlags) :
    (n.withFlags flags).BeginsWithCall range := by
  cases h with
  | call kind children path => exact .call kind children path
  | first children first => exact .first children first

theorem withKind (h : n.BeginsWithCall range) (hl : n.isLeaf = true) (kind : Kind) :
    (n.withKind kind).BeginsWithCall range :=
  absurd (hl.symm.trans h.children_ne) (by decide)

/-- A node of another kind over the children, the first of them read again or not. -/
theorem rebuilt {kind : Kind} {flags : NodeFlags} {c : Child} {more : List Child}
    (hc : c.2.BeginsWithCall range) : (rebuild n kind flags (c :: more)).BeginsWithCall range := by
  have hchildren : (rebuild n kind flags (c :: more)).children = c :: more := by
    simp [rebuild, Draft.finishOver]
  exact .first hchildren hc

/-- What the first child begins with it begins with when it is read again. -/
theorem again (p : Child → Prop) [DecidablePred p] (label : Child → Option Field) {f : Node → Node}
    {c : Child} (others : List Child) (hc : c.2.BeginsWithCall range)
    (hf : (f c.2).BeginsWithCall range) :
    ∃ c' more, ((c :: others).map fun c => if p c then (label c, f c.2) else c) = c' :: more ∧
      c'.2.BeginsWithCall range := by
  refine ⟨_, _, List.map_cons, ?_⟩
  split
  · exact hf
  · exact hc

theorem asType (h : n.BeginsWithCall range) : n.asType.BeginsWithCall range := by
  induction h with
  | @call n path more kind children hpath =>
    rcases n.asType_cases with ⟨hk, -⟩ | ⟨hk, -⟩ | ⟨hk, -⟩ | he
    · exact absurd (hk.symm.trans kind) (by decide)
    · exact absurd (hk.symm.trans kind) (by decide)
    · exact absurd (hk.symm.trans kind) (by decide)
    · rw [he]
      exact .call kind children hpath
  | @first n c more children first ih =>
    rcases n.asType_cases with ⟨-, he⟩ | ⟨-, he⟩ | ⟨-, he⟩ | he
    · rw [he]
      exact .first children first
    · obtain ⟨c', more', hmap, hc'⟩ := again (fun c => c.1 = some .name) (fun c => c.1) more
        first ih
      rw [he, children, hmap]
      exact rebuilt hc'
    · obtain ⟨c', more', hmap, hc'⟩ := again (fun c => c.1 = some .function) (fun _ => some .type)
        more first ih
      rw [he, children, hmap]
      exact rebuilt hc'
    · rw [he]
      exact .first children first

theorem asPath (h : n.BeginsWithCall range) : n.asPath.BeginsWithCall range := by
  induction h with
  | @call n path more kind children hpath =>
    rcases n.asPath_cases with ⟨hk, -⟩ | ⟨hk, -⟩ | he
    · exact absurd (hk.symm.trans kind) (by decide)
    · exact absurd (hk.symm.trans kind) (by decide)
    · rw [he]
      exact .call kind children hpath
  | @first n c more children first ih =>
    rcases n.asPath_cases with ⟨-, he⟩ | ⟨-, he⟩ | he
    · rw [he]
      exact .first children first
    · obtain ⟨c', more', hmap, hc'⟩ := again (fun c => c.1 = some .name) (fun c => c.1) more
        first ih
      rw [he, children, hmap]
      exact rebuilt hc'
    · rw [he]
      exact .first children first

/-- The first conjunct begins with what the condition does. -/
theorem conjuncts (h : n.BeginsWithCall range) :
    ∃ part more, n.conjuncts = part :: more ∧ part.BeginsWithCall range := by
  induction h with
  | @call n path more kind children hpath =>
    have hnone : n.isConjunction = false := by
      rw [isConjunction, kind]
      rfl
    rw [conjuncts_eq, if_neg (by rw [hnone]; decide)]
    exact ⟨n, [], rfl, .call kind children hpath⟩
  | @first n c more children first ih =>
    rw [conjuncts_eq]
    split
    · rw [children, List.flatMap_cons]
      split
      · obtain ⟨part, others, hparts, hpart⟩ := ih
        exact ⟨part, _, by rw [hparts]; rfl, hpart⟩
      · exact ⟨c.2, _, rfl, first⟩
    · exact ⟨n, [], rfl, .first children first⟩

theorem asLetChain (h : n.BeginsWithCall range) : n.asLetChain.BeginsWithCall range := by
  rcases n.asLetChain_cases with ⟨he, -⟩ | he
  · obtain ⟨part, more, hparts, hpart⟩ := h.conjuncts
    rw [he, hparts]
    exact rebuilt hpart
  · rw [he]
    exact h

/-- No token is a call. -/
theorem of_token {token : Token} {as? : Option Kind}
    (h : (ofToken token as?).BeginsWithCall range) : False := by
  have hleaf {c : Child} {more : List Child} (hc : (ofToken token as?).children = c :: more) :
      c.1 = none ∧ c.2.isLeaf = true := by
    obtain ⟨p, -, rfl⟩ := mem_children_ofToken (hc ▸ List.mem_cons_self)
    exact ⟨rfl, rfl⟩
  cases h with
  | call kind children => exact absurd (hleaf children).1 (Option.some_ne_none _)
  | first children first => exact absurd ((hleaf children).2.symm.trans first.children_ne) (by decide)

end Node.BeginsWithCall

/-- The child at a place of a draft begins with a call. -/
def Draft.CallAt (range : Range) (i : Nat) (d : Draft) : Prop :=
  ∃ c, d.children.toList[i]? = some c ∧ c.2.BeginsWithCall range

namespace Draft.CallAt

variable {range : Range} {i : Nat} {d : Draft}

theorem extend (h : d.CallAt range i) (more : List Child) : (d.extend more).CallAt range i := by
  obtain ⟨c, hi, hc⟩ := h
  refine ⟨c, ?_, hc⟩
  have hlt := (List.getElem?_eq_some_iff.1 hi).1
  simpa [Draft.extend, List.getElem?_append_left hlt] using hi

theorem push (h : d.CallAt range i) (label : Option Field) (n : Node) :
    (d.pushChild label n).CallAt range i := by
  obtain ⟨c, hi, hc⟩ := h
  refine ⟨c, ?_, hc⟩
  have hlt := (List.getElem?_eq_some_iff.1 hi).1
  simpa [Draft.pushChild, List.getElem?_append_left hlt] using hi

theorem flushed (h : s.draft.CallAt range i) : (s.flushed σ).draft.CallAt range i := by
  show (if σ.options.keepComments then s.draft.extend s.comments else s.draft).CallAt range i
  split
  · exact h.extend _
  · exact h

end Draft.CallAt

/-- What is in the hands begins with a call; what is lost does not count. -/
def Hand.BeginsWithCall (range : Range) : Hand → Prop
  | .empty => False
  | .node n => n.BeginsWithCall range
  | .draft d _ => d.CallAt range 0
  | .lost => True

theorem Hand.BeginsWithCall.becomes {range : Range} {h h' : Hand} {o : Bool}
    (hh : h.BeginsWithCall range) (hb : h.Becomes o h') : h'.BeginsWithCall range := by
  cases hb with
  | same => exact hh
  | kind n hk hl => exact Node.BeginsWithCall.withKind hh hl _
  | type n => exact Node.BeginsWithCall.asType hh
  | path n => exact Node.BeginsWithCall.asPath hh
  | chain n => exact Node.BeginsWithCall.asLetChain hh
  | ambiguous n => exact Node.BeginsWithCall.withFlags hh _
  | error n => exact Node.BeginsWithCall.withFlags hh _
  | retag d => exact hh
  | explained d => exact hh
  | nothing d hd =>
    obtain ⟨c, hc, -⟩ := hh
    have hnil : d.children.toList = [] := by simpa [Draft.isEmpty] using hd
    rw [hnil] at hc
    exact absurd hc.symm (Option.some_ne_none c)
  | lost => trivial

/-- What began with a call is in the hands and comes next in the open draft, or it stands there, at the
same place. -/
def Session.CallAt (range : Range) (place : Option Nat) (h : Hand) (s : Session) : Prop :=
  s.report.isLimited = true ∨ ∀ i, place = some i →
    h.BeginsWithCall range ∧ s.draft.children.toList.length = i ∨ s.draft.CallAt range i

/-- A draft that was filled begins with a call that was in the hands. -/
theorem Session.CallAt.filled {range : Range} {place : Option Nat} {h : Hand} {F : Standing}
    {t : Session} (hs : s.CallAt range place h)
    (hlimited : s.report.isLimited = true → t.report.isLimited = true)
    (ht : t.report.isLimited = true ∨ t.draft.CallAt range 0) :
    (t.withDraft s.draft).CallAt range place (.draft t.draft F) := by
  rcases ht with ht | ht
  · exact .inl ht
  · exact hs.imp hlimited fun hs i hi => (hs i hi).imp_left fun h => ⟨ht, h.2⟩

/-- A draft that did not have the call to begin with leaves it where it stands. -/
theorem Session.CallAt.outside {range : Range} {place : Option Nat} {h h' : Hand} {t : Session}
    (hs : s.CallAt range place h) (hh : ¬h.BeginsWithCall range)
    (hlimited : s.report.isLimited = true → t.report.isLimited = true) :
    (t.withDraft s.draft).CallAt range place h' :=
  hs.imp hlimited fun hs i hi => .inr ((hs i hi).resolve_left fun h => hh h.1)

theorem Session.CallAt.nowhere {range : Range} {h : Hand} : s.CallAt range none h :=
  .inr fun i hi => absurd hi.symm (Option.some_ne_none i)

/-- A call that is read first stays at the front of everything that is made of it, unless the limit of
nesting is met. -/
def Invariant.front (text : List Char) (options : Options) (range : Range) :
    Invariant text options (Option Nat) where
  holds place h _ s := s.CallAt range place h
  stands _ hs := hs
  becomes _ _ hh hs := hs.imp_right fun hs i hi => (hs i hi).imp_left fun h => ⟨h.1.becomes hh, h.2⟩
  beside hb hs := by
    refine hs.imp hb.report.isLimited fun hs i hi => ?_
    rw [hb.draft]
    exact hs i hi
  reshaped _ hs := hs
  flushed := by
    intro place F σ s _ _ hs
    refine hs.imp_right fun hs i hi => .inr ?_
    exact Draft.CallAt.flushed ((hs i hi).resolve_left fun h => h.1)
  taken := by
    intro place F σ s as? next _ _ _ _ hs
    refine hs.imp (Report.Grows.isLimited (Report.grows_addAll _ _)) fun hs i hi => .inr ?_
    exact Draft.CallAt.flushed ((hs i hi).resolve_left fun h => h.1)
  pushed := by
    intro place F s label n _ hs
    refine hs.imp_right fun hs i hi => .inr ?_
    rcases hs i hi with ⟨hn, rfl⟩ | hi
    · exact ⟨(label, n), by simp [Session.withDraft, Draft.pushChild], hn⟩
    · exact hi.push label n
  unpacked := by
    intro place s token _ _ hs
    refine hs.imp_right fun hs i hi => .inr ?_
    have hi := (hs i hi).resolve_left fun h => h.1.of_token
    exact Draft.CallAt.extend (d := s.draft.addFlags _) hi _
  spread := by
    intro place s d hs
    refine hs.imp_right fun hs i hi => .inr ?_
    rcases hs i hi with ⟨⟨c, hc, hcall⟩, rfl⟩ | hi
    · refine ⟨c, ?_, hcall⟩
      have hchildren : (s.draft.extend d.children.toList).children.toList =
          s.draft.children.toList ++ d.children.toList := by
        simp [Draft.extend]
      rw [Session.withDraft, hchildren, List.getElem?_append_right (Nat.le_refl _), Nat.sub_self]
      exact hc
    · exact hi.extend _
  renamed _ _ hs := hs
  failed := by
    intro place h F s _ hs
    refine hs.imp_right fun hs i hi => (hs i hi).imp (fun h => ⟨h.1, ?_⟩) fun h => ?_
    · simpa [Session.withDraft, Draft.clearFields, Draft.setKind] using h.2
    · obtain ⟨c, hc, hcall⟩ := h
      refine ⟨(none, c.2), ?_, hcall⟩
      show ((s.draft.setKind .error).clearFields).children.toList[i]? = _
      have hc : (s.draft.setKind .error).children.toList[i]? = some c := hc
      simp only [Draft.clearFields, Array.toList_map, List.getElem?_map, hc, Option.map_some]
  -- What the new draft is filled with begins with the call if that was in the hands. If not, the call
  -- stands in the draft outside, and nothing is claimed of the new one.
  opened := by
    intro place h F F₀ s kind _ _ hs
    by_cases hh : h.BeginsWithCall range
    · refine ⟨some 0, .inr fun i hi => .inl ⟨hh, Option.some.inj hi⟩, fun {t F'} hon ht => ?_⟩
      exact .filled hs (hon.report.isLimited ·) (ht.imp_right fun h => (h 0 rfl).resolve_left (·.1))
    · exact ⟨none, .nowhere, fun {t F'} hon _ => hs.outside hh hon.report.isLimited⟩
  reopened := by
    intro place F F₀ s d hs
    by_cases hd : d.CallAt range 0
    · refine ⟨some 0, .inr fun i hi => .inr (Option.some.inj hi ▸ hd), fun {t F'} hon ht => ?_⟩
      exact .filled hs (hon.report.isLimited ·) (ht.imp_right fun h => (h 0 rfl).resolve_left (·.1))
    · exact ⟨none, .nowhere, fun {t F'} hon _ => hs.outside hd hon.report.isLimited⟩
  finished := by
    intro place F F₀ s d _ _ hs
    refine hs.imp_right fun hs i hi => (hs i hi).imp_left fun h => ⟨?_, h.2⟩
    obtain ⟨c, hc, hcall⟩ := h.1
    cases hd : d.children.toList with
    | nil =>
      rw [hd] at hc
      exact absurd hc.symm (Option.some_ne_none c)
    | cons c' more =>
      rw [hd] at hc
      obtain rfl := Option.some.inj hc
      exact .first (show _ = c' :: more from hd) hcall
  missing := by
    intro place F s kind _ _ _ hs
    exact hs.imp_right fun hs i hi => .inr ((hs i hi).resolve_left fun h => h.1)
  limited _ _ hl _ := .inl hl

/-! ### The statement -/

/-- A session at the path of a call that is no single word of the language and no single `$name`. -/
structure Session.AtCall (text : List Char) (stop : Nat) (s : Session) : Prop where
  sound : s.Sound text
  calls : s.scanner.pastColons.CallsAt stop
  named : s.kind.isLoneWord = true → s.ahead 1 ≠ .bang

namespace Session.AtCall

variable {stop : Nat}

theorem kind (h : s.AtCall text stop) : s.kind = .colonColon ∨ s.kind.startsSegment = true := by
  by_cases hk : s.scanner.kind = .colonColon
  · exact .inl hk
  · have hcalls := h.calls
    rw [Scanner.pastColons_ne hk] at hcalls
    exact .inr hcalls.segment

theorem flushed (h : s.AtCall text stop) : (s.flushed σ).AtCall text stop := by
  refine ⟨h.sound.flushed σ, ?_, h.named⟩
  by_cases hk : s.scanner.kind = .colonColon
  · have hk' : (s.flushed σ).scanner.kind = .colonColon := hk
    rw [Scanner.pastColons_eq hk']
    exact Scanner.pastColons_eq hk ▸ h.calls
  · have hk' : (s.flushed σ).scanner.kind ≠ .colonColon := hk
    rw [Scanner.pastColons_ne hk']
    exact (Scanner.pastColons_ne hk ▸ h.calls).unled

theorem startsPath (h : s.AtCall text stop) : s.kind.startsPath = true := by
  rcases h.kind with h | h <;> simp [Kind.startsPath, h]

/-- Where a path begins no block does. -/
theorem isAtBlockLike (h : s.AtCall text stop) : s.isAtBlockLike = false := by
  have hkind := h.startsPath
  rw [Session.isAtBlockLike]
  generalize s.kind = k at hkind
  cases k
  case identifier | selfKw | selfTypeKw | superKw | crateKw | metavariable | colonColon => rfl
  all_goals exact absurd hkind (by decide)

/-- Where a path begins no operator does. -/
theorem begins (h : s.AtCall text stop) :
    g.prefixed σ s = g.postfixed σ s ∧ g.primary σ s = g.pathExpression σ s := by
  have hkind := h.startsPath
  have hget : (get : Parse Session) σ s = some (s, s) := rfl
  have hprefixed : g.prefixed σ s = _ := bind_of_run hget
  have hprimary : g.primary σ s = _ := bind_of_run hget
  rw [hprefixed, hprimary]
  generalize s.kind = k at hkind
  cases k
  case identifier | selfKw | selfTypeKw | superKw | crateKw | metavariable | colonColon =>
    exact ⟨rfl, rfl⟩
  all_goals exact absurd hkind (by decide)

end Session.AtCall

section Statements

variable {depth stop : Nat} {n : Node}

/-- The call and nothing but comments before it. -/
theorem Grammar.primary_call (h : s.AtCall text stop)
    (hrun : (Grammar.upTo depth).primary σ s = some (n, s')) :
    n.BeginsWithCall ⟨s.offset, stop⟩ ∧ s'.draft = (s.flushed σ).draft := by
  rw [h.begins.2] at hrun
  obtain ⟨path, t, hpath, hrun⟩ := bind_eq_some.1 hrun
  obtain ⟨hrange, hkind, hcall, hdraft, -⟩ := valuePath_call h.sound h.calls h.named hpath
  obtain ⟨_, _, hget, hrun⟩ := bind_eq_some.1 hrun
  obtain ⟨rfl, rfl⟩ := Prod.mk.inj (Option.some.inj hget)
  have hname : ((path.kind == .identifier || path.kind == .scopedIdentifier) && t.isAtCall) = true := by
    rw [hcall]
    rcases hkind with hkind | hkind <;> rw [hkind] <;> rfl
  rw [if_pos hname] at hrun
  have hbang : t.kind = .bang := eq_of_beq (Bool.and_eq_true_iff.1 hcall).1
  refine ⟨hrange ▸ macroCall_begins hbang hrun, ?_⟩
  obtain ⟨u, -, -, rfl⟩ := node_eq_some.1 hrun
  exact hdraft

/-- What follows the call leaves it at the front. -/
theorem Orderly.keepsCall (depth : Nat) {α : Type} {range : Range} {place : Option Nat} {h : Hand}
    {m : Parse α} {q : α → Stage} {r : α} (hσ : σ.source.toList = text)
    (hm : Orderly text (.upTo depth) 0 true ⟨h, none, false, false, .proper⟩ m q)
    (hs : s.Sound text) (hrun : m σ s = some (r, s')) (hcall : s.CallAt range place h) :
    s'.CallAt range place (q r).hand ∧ s'.Sound text :=
  ⟨hm.keeps (Grammar.leads_upTo text depth)
      (Grammar.keeps_upTo (Invariant.front text σ.options range) depth) ⟨hσ, rfl⟩ hs ⟨nofun, nofun⟩
      hrun hcall,
    (hm.arrives (Grammar.leads_upTo text depth) hs ⟨nofun, nofun⟩ hrun).onward.sound⟩

/-- The path, the call and the operators behind it. -/
theorem Grammar.infixForms_call {min : Precedence} (hσ : σ.source.toList = text)
    (h : s.AtCall text stop)
    (hrun : ((Grammar.upTo depth).prefixed >>= (Grammar.upTo depth).infixForms min) σ s =
      some (n, s')) :
    s'.CallAt ⟨s.offset, stop⟩ (some (s.flushed σ).draft.children.toList.length) (.node n) ∧
      s'.Sound text := by
  obtain ⟨m, u, hprefixed, hinfix⟩ := bind_eq_some.1 hrun
  rw [h.begins.1] at hprefixed
  obtain ⟨m, t, hprimary, hpostfix⟩ := bind_eq_some.1 hprefixed
  obtain ⟨hcall, hdraft⟩ := primary_call h hprimary
  have hread : Orderly text (Grammar.upTo depth) 0 true ⟨.empty, none, false, false, .proper⟩
      (Grammar.upTo depth).primary fun n => ⟨.node n, none, false, false, .proper⟩ :=
    .primary (.inl rfl)
  have ht : t.Sound text :=
    (hread.arrives (leads_upTo text depth) h.sound ⟨nofun, nofun⟩ hprimary).onward.sound
  have hfront : t.CallAt ⟨s.offset, stop⟩ (some (s.flushed σ).draft.children.toList.length)
      (.node m) := .inr fun i hi => .inl ⟨hcall, hdraft ▸ Option.some.inj hi⟩
  obtain ⟨hfront, hu⟩ := Orderly.keepsCall depth hσ .postfixForms ht hpostfix hfront
  exact Orderly.keepsCall depth hσ .infixForms hu hinfix hfront

/-- An expression that begins with a call. -/
theorem Grammar.expression_call (hσ : σ.source.toList = text) (h : s.AtCall text stop)
    (hrun : (Grammar.upTo depth).expression σ s = some (n, s')) :
    s'.CallAt ⟨s.offset, stop⟩ (some (s.flushed σ).draft.children.toList.length) (.node n) ∧
      s'.Sound text := by
  cases depth with
  | zero => exact nomatch hrun
  | succ depth =>
    obtain ⟨opened, hrun⟩ := opening_eq_some hrun
    rw [production, expressionFrom, bind_of_run (flush_run _ s), guarded_eq] at hrun
    have hflushed {σ' : Setting} : (s.flushed σ).flushed σ' = s.flushed σ :=
      Session.flushed_of_leading rfl
    split at hrun
    · have hcall := infixForms_call (σ := { σ with opened, depth := σ.depth + 1 }) hσ
        (h.flushed (σ := σ)) hrun
      rwa [hflushed] at hcall
    · obtain ⟨t, -, hlimit, hon⟩ := skipNested_limited (h.sound.flushed _) hrun
      exact ⟨.inl (hlimit.onward hon).2, hon.sound⟩

/-- The expression of a statement that begins with a call. -/
theorem Grammar.statementExpression_call {isBlockLike : Bool} (hσ : σ.source.toList = text)
    (h : s.AtCall text stop)
    (hrun : (Grammar.upTo depth).statementExpression σ s = some ((n, isBlockLike), s')) :
    s'.CallAt ⟨s.offset, stop⟩ (some (s.flushed σ).draft.children.toList.length) (.node n) ∧
      s'.Sound text := by
  have hpath := h.flushed (σ := σ)
  have hget : (get : Parse Session) σ (s.flushed σ) = some (s.flushed σ, s.flushed σ) := rfl
  rw [statementExpression, bind_of_run (flush_run σ s), bind_of_run hget, if_neg (by rw [hpath.isAtBlockLike]; decide)] at hrun
  obtain ⟨m, t, hexpression, hrest⟩ := bind_eq_some.1 hrun
  obtain ⟨hmn, rfl⟩ := pure_eq_some.1 hrest
  obtain ⟨rfl, -⟩ := Prod.mk.inj hmn
  have hcall := expression_call hσ hpath hexpression
  rwa [Session.flushed_of_leading (s := s.flushed σ) rfl] at hcall

/-- **A call that the look ahead finds is read.** Where only items may stand and the look ahead finds
a path and the call of a macro, the statement begins with a call over this path, unless the path is
a single word of the language or a single `$name`, or the limit of nesting is met. -/
theorem Grammar.itemStatement_call (hσ : σ.source.toList = text) (hs : s.Sound text)
    (hfound : Parse.isAtMacro σ s = some (true, s)) (hitem : Parse.isAtItem σ s = some (false, s))
    (hword : s.kind.isLoneWord = true → s.ahead 1 ≠ .bang)
    (hrun : (Grammar.upTo depth).itemStatement σ s = some ((), s')) :
    ∃ stop, s.scanner.pastColons.CallsAt stop ∧ (s'.report.isLimited = true ∨
      s'.draft.CallAt ⟨s.offset, stop⟩ (s.flushed σ).draft.children.toList.length) := by
  have hahead : s.scanner.isAtMacro σ.turns = true := by
    have hboth : (s.kind.startsPath && s.scanner.isAtMacro σ.turns) = true :=
      (Prod.mk.inj (Option.some.inj hfound)).1
    exact (Bool.and_eq_true_iff.1 hboth).2
  obtain ⟨stop, hcalls⟩ := Scanner.callsAt_of_isAtMacro _ hahead
  have h : s.AtCall text stop := ⟨hs, hcalls, hword⟩
  refine ⟨stop, hcalls, ?_⟩
  obtain ⟨_, _, h₁, hrun⟩ := bind_eq_some.1 hrun
  obtain ⟨rfl, rfl⟩ := Prod.mk.inj (Option.some.inj (hfound.symm.trans h₁))
  obtain ⟨_, _, h₁, hrun⟩ := bind_eq_some.1 hrun
  obtain ⟨rfl, rfl⟩ := Prod.mk.inj (Option.some.inj (hitem.symm.trans h₁))
  obtain ⟨⟨n, isBlockLike⟩, t, hexpression, hrest⟩ := bind_eq_some.1 hrun
  obtain ⟨hfront, ht⟩ := statementExpression_call hσ h hexpression
  obtain ⟨hfront, -⟩ := Orderly.keepsCall depth hσ .afterExpression ht hrest hfront
  exact hfront.imp_right fun hcall => (hcall _ rfl).resolve_left fun h => h.1

end Statements

end ConcreteSyntax
