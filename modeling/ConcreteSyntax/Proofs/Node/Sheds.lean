import ConcreteSyntax.Proofs.Node.Draft
import ConcreteSyntax.Proofs.Node.Quiet

/-! # Nodes that shed their comments

A node sheds its extras (`Node.Sheds`): the other one has its kind, its flags and those of its
children that are no extras, each of which sheds its own. Only a leaf has to keep its place, since
comments widen the nodes around them. Reading two such nodes again, or finishing two such drafts,
gives two such nodes. -/

namespace ConcreteSyntax

/-! ### Rows of children -/

/-- Two rows of children agree: label for label, and node for node by `R`. -/
inductive Paired (R : Node → Node → Prop) : List Child → List Child → Prop
  | nil : Paired R [] []
  | cons {label : Option Field} {n m : Node} {ns ms : List Child} (head : R n m)
      (rest : Paired R ns ms) : Paired R ((label, n) :: ns) ((label, m) :: ms)

/-- A child with a label read again under another, and any other as it is. -/
def Child.again (old new : Field) (change : Node → Node) (c : Child) : Child :=
  if c.1 = some old then (some new, change c.2) else c

/-- The children that are no extras. -/
def significant (children : List Child) : List Child := children.filter fun c => !c.2.isExtra

/-- The extras among some children are without labels and without errors, as comments are. -/
def Unobtrusive (children : List Child) : Prop :=
  ∀ c ∈ children, c.2.isExtra = true → c.1 = none ∧ c.2.hasError = false

/-- `m` is `n` without the extras in it: a node of the same kind with the same flags, and with those
of the children that are no extras, each without the extras in it. A leaf stays where it is. -/
inductive Node.Sheds : Node → Node → Prop
  | mk {n m : Node} (kind : m.kind = n.kind) (flags : m.flags = n.flags)
      (place : n.children = [] → m.range = n.range) (extras : Unobtrusive n.children)
      (children : Paired Sheds (significant n.children) m.children) : Sheds n m

namespace Paired

variable {R S : Node → Node → Prop} {ns ms ns' ms' : List Child}

theorem append (h : Paired R ns ms) (h' : Paired R ns' ms') : Paired R (ns ++ ns') (ms ++ ms') := by
  induction h with
  | nil => exact h'
  | cons head _ ih => exact .cons head ih

theorem refl (h : ∀ c ∈ ns, R c.2 c.2) : Paired R ns ns := by
  induction ns with
  | nil => exact .nil
  | cons c ns ih =>
    exact .cons (h c List.mem_cons_self) (ih fun d hd => h d (List.mem_cons_of_mem _ hd))

/-- The children with a label are read again. -/
theorem again (h : Paired R ns ms) {old new : Field} {change : Node → Node}
    (hc : ∀ c ∈ ns, ∀ m, R c.2 m → R (change c.2) (change m)) :
    Paired R (ns.map (Child.again old new change)) (ms.map (Child.again old new change)) := by
  induction h with
  | nil => exact .nil
  | @cons l n m _ _ head _ ih =>
    have hrest := ih fun c hmem => hc c (List.mem_cons_of_mem _ hmem)
    rw [List.map_cons, List.map_cons, Child.again, Child.again]
    by_cases hl : l = some old
    · rw [if_pos hl, if_pos hl]
      exact .cons (hc _ List.mem_cons_self _ head) hrest
    · rw [if_neg hl, if_neg hl]
      exact .cons head hrest

theorem clearFields (h : Paired R ns ms) :
    Paired R (ns.map fun c => (none, c.2)) (ms.map fun c => (none, c.2)) := by
  induction h with
  | nil => exact .nil
  | cons head _ ih => exact .cons head ih

/-- Each child is taken apart, in the same way. -/
theorem flatMap (h : Paired R ns ms) {parts parts' : Child → List Child}
    (hp : ∀ l n m, (l, n) ∈ ns → R n m → Paired S (parts (l, n)) (parts' (l, m))) :
    Paired S (ns.flatMap parts) (ms.flatMap parts') := by
  induction h with
  | nil => exact .nil
  | @cons l n m _ _ head _ ih =>
    exact (hp l n m List.mem_cons_self head).append
      (ih fun l n m hmem => hp l n m (List.mem_cons_of_mem _ hmem))

theorem exists_of_mem (h : Paired R ns ms) {c : Child} (hc : c ∈ ns) : ∃ m, R c.2 m := by
  induction h with
  | nil => exact absurd hc List.not_mem_nil
  | cons head _ ih =>
    rcases List.mem_cons.1 hc with rfl | hc
    · exact ⟨_, head⟩
    · exact ih hc

/-- The last child of a row, and the last of the other. -/
theorem exists_concat {c : Child} (h : Paired R (ns ++ [c]) ms) :
    ∃ ms' m, ms = ms' ++ [(c.1, m)] ∧ R c.2 m := by
  induction ns generalizing ms with
  | nil =>
    cases h with
    | cons head rest =>
      cases rest
      exact ⟨[], _, rfl, head⟩
  | cons _ ns ih =>
    cases h with
    | cons head rest =>
      obtain ⟨ms', m, rfl, hm⟩ := ih rest
      exact ⟨_ :: ms', m, rfl, hm⟩

theorem eq_nil_iff (h : Paired R ns ms) : ns = [] ↔ ms = [] := by
  cases h with
  | nil => exact Iff.rfl
  | cons => simp

/-- What is alike in the nodes of two rows is found in both. -/
theorem any_eq (h : Paired R ns ms) {p : Child → Bool}
    (hp : ∀ l n m, (l, n) ∈ ns → R n m → p (l, m) = p (l, n)) : ms.any p = ns.any p := by
  induction h with
  | nil => rfl
  | cons head _ ih =>
    rw [List.any_cons, List.any_cons, hp _ _ _ List.mem_cons_self head,
      ih fun l n m hmem => hp l n m (List.mem_cons_of_mem _ hmem)]

theorem find_eq (h : Paired R ns ms) {β : Type} {f : Node → β} (hf : ∀ n m, R n m → f m = f n)
    (p : Option Field → Bool) :
    ((ms.find? fun c => p c.1).map fun c => f c.2) = (ns.find? fun c => p c.1).map fun c => f c.2 := by
  induction h with
  | nil => rfl
  | @cons l n m _ _ head _ ih =>
    rw [List.find?_cons, List.find?_cons]
    cases p l with
    | true => simp [hf _ _ head]
    | false => exact ih

end Paired

/-! ### Extras -/

variable {cs ds : List Child}

theorem significant_append (cs ds : List Child) :
    significant (cs ++ ds) = significant cs ++ significant ds :=
  List.filter_append ..

theorem significant_cons {c : Child} (h : c.2.isExtra = false) :
    significant (c :: cs) = c :: significant cs :=
  List.filter_cons_of_pos (by simp [h])

theorem significant_cons_extra {c : Child} (h : c.2.isExtra = true) :
    significant (c :: cs) = significant cs :=
  List.filter_cons_of_neg (by simp [h])

theorem significant_of_extras (h : ∀ c ∈ cs, c.2.isExtra = true) : significant cs = [] :=
  List.filter_eq_nil_iff.2 fun c hc => by simp [h c hc]

theorem significant_eq_self (h : ∀ c ∈ cs, c.2.isExtra = false) : significant cs = cs :=
  List.filter_eq_self.2 fun c hc => by simp [h c hc]

theorem mem_of_mem_significant {c : Child} (h : c ∈ significant cs) : c ∈ cs :=
  (List.mem_filter.1 h).1

/-- What no extra has is found among the others. -/
theorem any_significant {p : Child → Bool} (h : ∀ c ∈ cs, c.2.isExtra = true → p c = false) :
    (significant cs).any p = cs.any p := by
  rw [significant, List.any_filter, List.any_eq, List.any_eq]
  refine decide_eq_decide.2 (exists_congr fun c => and_congr_right fun hc => ?_)
  cases he : c.2.isExtra with
  | true => simp [h c hc he]
  | false => simp

/-- Children that are taken apart, the extras into extras. -/
theorem significant_flatMap {parts : Child → List Child}
    (h : ∀ c ∈ cs, c.2.isExtra = true → significant (parts c) = []) :
    significant (cs.flatMap parts) = (significant cs).flatMap fun c => significant (parts c) := by
  induction cs with
  | nil => rfl
  | cons c cs ih =>
    have hrest := ih fun d hd => h d (List.mem_cons_of_mem _ hd)
    rw [List.flatMap_cons, significant_append, hrest]
    cases he : c.2.isExtra with
    | true => rw [significant_cons_extra he, h c List.mem_cons_self he, List.nil_append]
    | false => rw [significant_cons he, List.flatMap_cons]

theorem unobtrusive_of_plain (h : ∀ c ∈ cs, c.2.isExtra = false) : Unobtrusive cs :=
  fun c hc he => absurd (he.symm.trans (h c hc)) (by decide)

namespace Unobtrusive

theorem append (h : Unobtrusive cs) (h' : Unobtrusive ds) : Unobtrusive (cs ++ ds) :=
  List.forall_mem_append.2 ⟨h, h'⟩

/-- No extra is found by its label. -/
theorem find_eq (h : Unobtrusive cs) (f : Field) :
    (significant cs).find? (·.1 == some f) = cs.find? (·.1 == some f) := by
  induction cs with
  | nil => rfl
  | cons c cs ih =>
    have ih := ih fun d hd => h d (List.mem_cons_of_mem _ hd)
    rw [List.find?_cons]
    cases he : c.2.isExtra with
    | true =>
      rw [significant_cons_extra he, (h c List.mem_cons_self he).1]
      exact ih
    | false => rw [significant_cons he, List.find?_cons, ih]

/-- The children with a label are read again; the extras have none. -/
theorem again (h : Unobtrusive cs) {old new : Field} {change : Node → Node}
    (hc : ∀ n, n.isExtra = false → (change n).isExtra = false) :
    Unobtrusive (cs.map (Child.again old new change)) ∧
      significant (cs.map (Child.again old new change)) =
        (significant cs).map (Child.again old new change) := by
  have hplain {c : Child} (hmem : c ∈ cs) (hl : c.1 = some old) : c.2.isExtra = false :=
    Bool.eq_false_iff.2 fun he => nomatch (h c hmem he).1.symm.trans hl
  have hagain {c : Child} (hmem : c ∈ cs) : (Child.again old new change c).2.isExtra = c.2.isExtra := by
    unfold Child.again
    split
    · next hl => rw [hplain hmem hl, hc _ (hplain hmem hl)]
    · rfl
  refine ⟨fun d hd he => ?_, ?_⟩
  · obtain ⟨c, hmem, rfl⟩ := List.mem_map.1 hd
    have he := (hagain hmem).symm.trans he
    rw [Child.again, if_neg fun hl => Bool.false_ne_true ((hplain hmem hl).symm.trans he)]
    exact h c hmem he
  · rw [significant, significant, List.filter_map]
    refine congrArg (List.map _) (List.filter_congr fun c hmem => ?_)
    rw [Function.comp_apply, hagain hmem]

end Unobtrusive

/-! ### Nodes -/

namespace Node.Sheds

variable {n m : Node}

theorem kind (h : n.Sheds m) : m.kind = n.kind := by
  cases h
  assumption

theorem flags (h : n.Sheds m) : m.flags = n.flags := by
  cases h
  assumption

theorem place (h : n.Sheds m) : n.children = [] → m.range = n.range := by
  cases h
  assumption

theorem extras (h : n.Sheds m) : Unobtrusive n.children := by
  cases h
  assumption

theorem children (h : n.Sheds m) : Paired Sheds (significant n.children) m.children := by
  cases h
  assumption

theorem hasError (h : n.Sheds m) : m.hasError = n.hasError := by
  rw [Node.hasError, Node.hasError, isError, isError, isMissing, isMissing, h.kind, h.flags]

/-- A node has nothing to shed where its children have nothing to shed. -/
theorem refl (h : ∀ c ∈ n.children, c.2.isExtra = false ∧ c.2.Sheds c.2) : n.Sheds n := by
  refine ⟨rfl, rfl, fun _ => rfl, unobtrusive_of_plain fun c hc => (h c hc).1, ?_⟩
  rw [significant_eq_self fun c hc => (h c hc).1]
  exact .refl fun c hc => (h c hc).2

theorem leaf (kind : Kind) (range : Range) (flags : NodeFlags) :
    (Node.leaf kind range flags).Sheds (Node.leaf kind range flags) :=
  refl (List.forall_mem_nil _)

theorem ofPieces (kind : Kind) (flags : NodeFlags) (range : Range) (pieces : List Piece) :
    (Node.ofPieces kind flags range pieces).Sheds (Node.ofPieces kind flags range pieces) := by
  refine refl ?_
  rw [children_ofPieces]
  refine List.forall_mem_map.2 fun p _ => ⟨?_, leaf _ _ _⟩
  unfold Node.leaf
  split <;> rfl

end Node.Sheds

/-! ### Drafts -/

/-- What a draft finishes as sheds its extras, and is none itself. -/
structure Draft.Sheds (d e : Draft) : Prop where
  kind : e.kind = d.kind
  flags : e.flags = d.flags
  plain : d.flags.extra = false
  extras : Unobtrusive d.children.toList
  children : Paired Node.Sheds (significant d.children.toList) e.children.toList

namespace Draft.Sheds

variable {d e : Draft}

theorem ofKind (kind : Kind) : (Draft.ofKind kind).Sheds (Draft.ofKind kind) :=
  ⟨rfl, rfl, rfl, List.forall_mem_nil _, .nil⟩

theorem setKind (h : d.Sheds e) (kind : Kind) : (d.setKind kind).Sheds (e.setKind kind) :=
  ⟨rfl, h.flags, h.plain, h.extras, h.children⟩

theorem addError (h : d.Sheds e) (error : Bool) :
    (d.addFlags { error }).Sheds (e.addFlags { error }) :=
  ⟨h.kind, congrArg (·.union { error }) h.flags, Bool.or_eq_false_iff.2 ⟨h.plain, rfl⟩, h.extras,
    h.children⟩

theorem extend (h : d.Sheds e) {more more' : List Child} (hm : Unobtrusive more)
    (hp : Paired Node.Sheds (significant more) more') : (d.extend more).Sheds (e.extend more') := by
  refine ⟨h.kind, h.flags, h.plain, ?_, ?_⟩
  · simpa [Draft.extend] using h.extras.append hm
  · simpa [Draft.extend, significant_append] using h.children.append hp

theorem clearFields (h : d.Sheds e) : d.clearFields.Sheds e.clearFields := by
  refine ⟨h.kind, h.flags, h.plain, forall_mem_clearFields.2 fun c hc he => ⟨rfl, (h.extras c hc he).2⟩, ?_⟩
  have hsignificant : significant d.clearFields.children.toList =
      (significant d.children.toList).map fun c => (none, c.2) := by
    rw [significant, significant, Draft.clearFields, Array.toList_map, List.filter_map]
    rfl
  rw [hsignificant, Draft.clearFields, Array.toList_map]
  exact h.children.clearFields

/-- The finished nodes, over ranges that agree where no child gives one. -/
theorem finishOver (h : d.Sheds e) {r r' : Range} (hr : d.children.toList = [] → r' = r) :
    (d.finishOver r).Sheds (e.finishOver r') := by
  have herror : e.hasError = d.hasError := by
    rw [Draft.hasError, Draft.hasError, ← Array.any_toList, ← Array.any_toList,
      ← any_significant fun c hc he => (h.extras c hc he).2]
    exact h.children.any_eq fun _ _ _ _ => Node.Sheds.hasError
  refine ⟨h.kind, ?_, hr, h.extras, h.children⟩
  simp only [Draft.finishOver, h.kind, h.flags, herror]

theorem finish (h : d.Sheds e) (offset : Nat) : (d.finish offset).Sheds (e.finish offset) := by
  refine h.finishOver fun hnil => ?_
  have hnil' : e.children.toList = [] := by
    have hchildren := h.children
    rw [hnil] at hchildren
    exact hchildren.eq_nil_iff.1 rfl
  rw [span, span, hnil, hnil']

end Draft.Sheds

/-! ### Reading again -/

namespace Node

/-! #### Paths -/

theorem asType_eq (n : Node) : n.asType =
    if n.kind = .identifier then n.withKind .typeIdentifier
    else if n.kind = .scopedIdentifier then
      rebuild n .scopedTypeIdentifier { ambiguous := n.flags.ambiguous }
        (n.children.map (Child.again .name .name asType))
    else if n.kind = .genericFunction then
      rebuild n .genericType {} (n.children.map (Child.again .function .type asType))
    else n := by
  rw [asType.eq_def n]
  split
  · rfl
  · rw [namesAsTypes_eq_map]
    refine congrArg (rebuild _ _ _) (List.map_congr_left fun c _ => ?_)
    unfold Child.again
    split
    · next h => rw [h]
    · rfl
  · rw [functionsAsTypes_eq_map]
    rfl
  · next hname hscoped hgeneric =>
    obtain ⟨kind, range, flags, children⟩ := n
    rw [if_neg fun (hk : kind = _) => hname range flags children (by rw [hk]),
      if_neg fun (hk : kind = _) => hscoped range flags children (by rw [hk]),
      if_neg fun (hk : kind = _) => hgeneric range flags children (by rw [hk])]

theorem asPath_eq (n : Node) : n.asPath =
    if n.kind = .typeIdentifier then n.withKind .identifier
    else if n.kind = .scopedTypeIdentifier then
      rebuild n .scopedIdentifier { ambiguous := n.flags.ambiguous }
        (n.children.map (Child.again .name .name asPath))
    else n := by
  rw [asPath.eq_def n]
  split
  · rfl
  · rw [namesAsPaths_eq_map]
    refine congrArg (rebuild _ _ _) (List.map_congr_left fun c _ => ?_)
    unfold Child.again
    split
    · next h => rw [h]
    · rfl
  · next hname hscoped =>
    obtain ⟨kind, range, flags, children⟩ := n
    rw [if_neg fun (hk : kind = _) => hname range flags children (by rw [hk]),
      if_neg fun (hk : kind = _) => hscoped range flags children (by rw [hk])]

theorem isExtra_asType {n : Node} (h : n.isExtra = false) : n.asType.isExtra = false := by
  rcases n.asType_cases with ⟨-, he⟩ | ⟨-, he⟩ | ⟨-, he⟩ | he <;> rw [he]
  · exact h
  · rfl
  · rfl
  · exact h

theorem isExtra_asPath {n : Node} (h : n.isExtra = false) : n.asPath.isExtra = false := by
  rcases n.asPath_cases with ⟨-, he⟩ | ⟨-, he⟩ | he <;> rw [he]
  · exact h
  · rfl
  · exact h

/-! #### Conditions -/

theorem hasLet_eq (n : Node) : n.hasLet =
    (n.kind == .letCondition ||
      (n.isConjunction && n.children.any fun c => isOperand c.1 && c.2.hasLet)) := by
  have hany (children : List Child) :
      anyOperandHasLet children = children.any fun c => isOperand c.1 && c.2.hasLet := by
    induction children with
    | nil => simp [anyOperandHasLet]
    | cons c children ih => simp [anyOperandHasLet, ih]
  obtain ⟨kind, range, flags, children⟩ := n
  rw [hasLet, hany]

theorem conjuncts_ne_nil (n : Node) : n.conjuncts ≠ [] := by
  induction n using Node.induction with
  | step n ih =>
    rw [conjuncts_eq]
    split
    · next hconj =>
      -- a conjunction has an operator at least
      obtain ⟨c, cs, hcs⟩ : ∃ c cs, n.children = c :: cs := by
        cases hn : n.children with
        | nil => simp [isConjunction, childByField?, hn] at hconj
        | cons c cs => exact ⟨c, cs, rfl⟩
      rw [hcs, List.flatMap_cons]
      refine List.append_ne_nil_of_left_ne_nil ?_ _
      split
      · exact ih c (hcs ▸ List.mem_cons_self)
      · exact List.cons_ne_nil _ _
    · exact List.cons_ne_nil _ _

/-! #### Sheds -/

namespace Sheds

variable {n m : Node}

theorem rebuild (h : n.Sheds m) (kind : Kind) {flags : NodeFlags} (hf : flags.extra = false)
    {cs cs' : List Child} (hx : Unobtrusive cs) (hc : Paired Sheds (significant cs) cs')
    (hnil : cs = [] → n.children = []) :
    (Node.rebuild n kind flags cs).Sheds (Node.rebuild m kind flags cs') := by
  have hd : Draft.Sheds { kind, flags, children := cs.toArray } { kind, flags, children := cs'.toArray } :=
    ⟨rfl, rfl, hf, hx, hc⟩
  exact hd.finishOver fun h' => h.place (hnil h')

theorem withKind (h : n.Sheds m) (kind : Kind) : (n.withKind kind).Sheds (m.withKind kind) :=
  ⟨rfl, h.flags, h.place, h.extras, h.children⟩

theorem withFlags (h : n.Sheds m) (flags : NodeFlags) : (n.withFlags flags).Sheds (m.withFlags flags) :=
  ⟨h.kind, congrArg (·.union flags) h.flags, h.place, h.extras, h.children⟩

/-- The path rebuilt with the children under a label read again. -/
theorem rebuildAgain (h : n.Sheds m) (kind : Kind) {flags : NodeFlags} (hf : flags.extra = false)
    {old new : Field} {change : Node → Node} (hx : ∀ n, n.isExtra = false → (change n).isExtra = false)
    (hc : ∀ c ∈ n.children, ∀ m, c.2.Sheds m → (change c.2).Sheds (change m)) :
    (Node.rebuild n kind flags (n.children.map (Child.again old new change))).Sheds
      (Node.rebuild m kind flags (m.children.map (Child.again old new change))) := by
  have hpaired : Paired Sheds ((significant n.children).map (Child.again old new change))
      (m.children.map (Child.again old new change)) :=
    h.children.again fun c hmem => hc c (mem_of_mem_significant hmem)
  rw [← (h.extras.again hx).2] at hpaired
  exact h.rebuild _ hf (h.extras.again hx).1 hpaired List.map_eq_nil_iff.1

theorem asType (h : n.Sheds m) : n.asType.Sheds m.asType := by
  induction n using Node.induction generalizing m with
  | step n ih =>
    have hchildren : ∀ c ∈ n.children, ∀ m, c.2.Sheds m → c.2.asType.Sheds m.asType :=
      fun c hc _ => ih c hc
    rw [asType_eq n, asType_eq m, h.kind, h.flags]
    split
    · exact h.withKind _
    · split
      · exact h.rebuildAgain _ rfl (fun _ => isExtra_asType) hchildren
      · split
        · exact h.rebuildAgain _ rfl (fun _ => isExtra_asType) hchildren
        · exact h

theorem asPath (h : n.Sheds m) : n.asPath.Sheds m.asPath := by
  induction n using Node.induction generalizing m with
  | step n ih =>
    rw [asPath_eq n, asPath_eq m, h.kind, h.flags]
    split
    · exact h.withKind _
    · split
      · exact h.rebuildAgain _ rfl (fun _ => isExtra_asPath) fun c hc _ => ih c hc
      · exact h

theorem isConjunction (h : n.Sheds m) : m.isConjunction = n.isConjunction := by
  have hfind := h.children.find_eq (f := fun n => n.kind == .ampAmp) (fun n m h => by rw [h.kind])
    (· == some .operator)
  rw [h.extras.find_eq] at hfind
  have hany (o : Option Child) : (o.map (·.2)).any (·.kind == .ampAmp) =
      (o.map fun c => c.2.kind == .ampAmp).getD false := by cases o <;> rfl
  rw [Node.isConjunction, Node.isConjunction, childByField?, childByField?, hany, hany, hfind, h.kind]

theorem hasLet (h : n.Sheds m) : m.hasLet = n.hasLet := by
  induction n using Node.induction generalizing m with
  | step n ih =>
    have hany : m.children.any (fun c => isOperand c.1 && c.2.hasLet) =
        (significant n.children).any fun c => isOperand c.1 && c.2.hasLet :=
      h.children.any_eq fun l n m hmem h => by rw [ih (l, n) (mem_of_mem_significant hmem) h]
    rw [any_significant fun c hc he => by rw [(h.extras c hc he).1]; rfl] at hany
    rw [hasLet_eq m, hasLet_eq n, h.kind, h.isConjunction, hany]

/-- The conjuncts without the extras among them. -/
theorem conjuncts (h : n.Sheds m) (hn : n.isExtra = false) :
    Unobtrusive (n.conjuncts.map fun part => (none, part)) ∧
      Paired Sheds (significant (n.conjuncts.map fun part => (none, part)))
        (m.conjuncts.map fun part => (none, part)) := by
  induction n using Node.induction generalizing m with
  | step n ih =>
    have halone {n m : Node} (h : n.Sheds m) (hn : n.isExtra = false) :
        Unobtrusive [(none, n)] ∧ Paired Sheds (significant [(none, n)]) [(none, m)] := by
      have hplain : ∀ c ∈ [((none, n) : Child)], c.2.isExtra = false :=
        List.forall_mem_singleton.2 hn
      rw [significant_eq_self hplain]
      exact ⟨unobtrusive_of_plain hplain, .cons h .nil⟩
    rw [conjuncts_eq n, conjuncts_eq m, h.isConjunction]
    split
    · rw [List.map_flatMap, List.map_flatMap]
      have hplain {l : Option Field} {x y : Node} (hmem : (l, x) ∈ significant n.children)
          (hxy : x.Sheds y) :
          Unobtrusive ((if isOperand l then x.conjuncts else [x]).map fun part => (none, part)) ∧
            Paired Sheds
              (significant ((if isOperand l then x.conjuncts else [x]).map fun part => (none, part)))
              ((if isOperand l then y.conjuncts else [y]).map fun part => (none, part)) := by
        obtain ⟨hmem, hx⟩ := List.mem_filter.1 hmem
        have hx : x.isExtra = false := by simpa using hx
        split
        · exact ih _ hmem hxy hx
        · exact halone hxy hx
      -- an extra has no label, so it is no operand
      have hextra {c : Child} (hc : c ∈ n.children) (he : c.2.isExtra = true) :
          (if isOperand c.1 then c.2.conjuncts else [c.2]).map (fun part => (none, part)) =
            [((none, c.2) : Child)] := by
        rw [(h.extras c hc he).1]
        rfl
      constructor
      · refine List.forall_mem_flatMap.2 fun c hc => ?_
        cases he : c.2.isExtra with
        | true =>
          rw [hextra hc he]
          exact List.forall_mem_singleton.2 fun _ => ⟨rfl, (h.extras c hc he).2⟩
        | false =>
          have hmem : c ∈ significant n.children := List.mem_filter.2 ⟨hc, by simp [he]⟩
          obtain ⟨y, hy⟩ := h.children.exists_of_mem hmem
          exact (hplain hmem hy).1
      · rw [significant_flatMap fun c hc he => by rw [hextra hc he]; exact significant_cons_extra he]
        exact h.children.flatMap fun l x y hmem hxy => (hplain hmem hxy).2
    · exact halone h hn

theorem asLetChain (h : n.Sheds m) (hn : n.isExtra = false) : n.asLetChain.Sheds m.asLetChain := by
  rw [Node.asLetChain, Node.asLetChain, h.isConjunction, h.hasLet]
  split
  · obtain ⟨hx, hp⟩ := h.conjuncts hn
    exact h.rebuild _ rfl hx hp fun hnil => absurd (List.map_eq_nil_iff.1 hnil) n.conjuncts_ne_nil
  · exact h

end Sheds

end Node

end ConcreteSyntax
