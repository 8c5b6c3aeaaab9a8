import ConcreteSyntax.Proofs.Lossless
import ConcreteSyntax.Proofs.Node.Flagged

/-! # Faults in a report and in a tree

The faults of a token are reported when the token is taken, and the token enters the tree with the
mark of an error. While a text is read, every fault that was reported lies in a flagged node, of the
open draft, in the hands or further out (`Invariant.accounted`); a reading that fails takes back its
report with its nodes. So in a tree every fault is reported once and lies in one outermost flagged
leaf or literal (`Tree.faults_parse`). -/

namespace ConcreteSyntax

open Parse

variable {text : List Char} {options : Options}

/-! ### Reports -/

namespace Report

/-- The ranges over which faults were reported. -/
def blamed (r : Report) : List Range := r.lexical.filterMap (·.range)

theorem mem_blamed {r : Report} {range : Range} :
    range ∈ r.blamed ↔ ∃ d ∈ r.lexical, d.range = some range := by
  simp [blamed]

theorem Grows.blamed {r r' : Report} (h : r.Grows r') : r.blamed ⊆ r'.blamed :=
  ((h.front.filter _).filterMap _).subset

theorem lexical_addAll (r : Report) {ds : List Diagnostic} (h : ∀ d ∈ ds, d.isLexical = true) :
    (r.addAll ds).lexical = r.lexical ++ ds := by
  simp [lexical, addAll, toList, List.filter_eq_self.2 h]

end Report

namespace Fault

variable (f : Fault) (file source : String)

theorem isLexical_diagnostic : (f.diagnostic file source).isLexical = true := by
  obtain ⟨kind, range⟩ := f
  cases kind <;> rfl

theorem code_diagnostic : (f.diagnostic file source).code = f.code := by
  obtain ⟨kind, range⟩ := f
  cases kind <;> rfl

end Fault

/-! ### Drafts -/

/-- The children of a draft are explained; a mark of an error it has only as a literal, over a range
that was blamed. -/
structure Draft.Explained (blamed : Range → Prop) (F : Standing) (d : Draft) : Prop where
  tells : F.Tells d.kind
  fault : d.flags.error = true →
    F = .literal ∧ d.children.toList ≠ [] ∧ ∃ r, blamed r ∧ (d.span 0).covers r = true
  children : ∀ c ∈ d.children.toList, c.2.Explained blamed

namespace Draft

variable {blamed : Range → Prop} {F F' : Standing} {d : Draft}

theorem explained_ofKind {kind : Kind} (h : F.Tells kind) : (ofKind kind).Explained blamed F :=
  ⟨h, nofun, nofun⟩

namespace Explained

theorem mono {blamed' : Range → Prop} (h : d.Explained blamed F) (hb : ∀ r, blamed r → blamed' r) :
    d.Explained blamed' F := by
  refine ⟨h.tells, fun he => ?_, fun c hc => (h.children c hc).mono hb⟩
  obtain ⟨hF, hne, r, hr, hcovers⟩ := h.fault he
  exact ⟨hF, hne, r, hb r hr, hcovers⟩

theorem serves {owed : Prop} (h : d.Explained blamed F) (hF : F.Serves owed F') :
    d.Explained blamed F' := by
  refine ⟨hF.tells h.tells, fun he => ?_, h.children⟩
  obtain ⟨hliteral, hspan⟩ := h.fault he
  cases hF with
  | same => exact ⟨hliteral, hspan⟩
  | _ => exact nomatch hliteral

/-- A draft that is no literal has no mark of an error. -/
theorem error_eq_false (h : d.Explained blamed F) (hF : F ≠ .literal) : d.flags.error = false :=
  Bool.eq_false_iff.2 fun he => hF (h.fault he).1

theorem spots_eq (h : d.Explained blamed F) (hF : F ≠ .literal) :
    d.spots = d.children.toList.flatMap (·.2.spots) := by
  rw [spots, if_neg (Bool.eq_false_iff.1 (h.error_eq_false hF))]

theorem extend (h : d.Explained blamed F) {more : List Child}
    (hm : ∀ c ∈ more, c.2.Explained blamed) : (d.extend more).Explained blamed F := by
  refine ⟨h.tells, fun he => ?_, forall_mem_extend.2 ⟨h.children, hm⟩⟩
  obtain ⟨hF, hne, r, hr, hcovers⟩ := h.fault he
  refine ⟨hF, by simp [Draft.extend, hne], r, hr, ?_⟩
  exact Range.covers_trans (span_extend_covers hne more) hcovers

/-- A draft that is no literal under another kind. -/
theorem setKind (h : d.Explained blamed F) (hF : F ≠ .literal) {kind : Kind} (hk : F'.Tells kind) :
    (d.setKind kind).Explained blamed F' :=
  ⟨hk, fun he => absurd he (Bool.eq_false_iff.1 (h.error_eq_false hF)), h.children⟩

theorem fail (h : d.Explained blamed F) (hF : F ≠ .literal) :
    (d.setKind .error).clearFields.Explained blamed .failed :=
  ⟨.inr rfl, fun he => absurd he (Bool.eq_false_iff.1 (h.error_eq_false hF)),
    forall_mem_clearFields.2 h.children⟩

theorem spots_fail (h : d.Explained blamed F) (hF : F ≠ .literal) :
    (d.setKind .error).clearFields.spots = d.spots := by
  have he : (d.setKind .error).clearFields.flags.error = false := h.error_eq_false hF
  rw [h.spots_eq hF, spots, if_neg (Bool.eq_false_iff.1 he)]
  simp [clearFields, Draft.setKind, List.flatMap_map]

theorem finish (h : d.Explained blamed F) (offset : Nat) : (d.finish offset).Explained blamed := by
  refine ⟨fun he hk _ => ?_, fun _ hn => ?_, h.children⟩
  · have he : d.flags.error = true := by
      have hk : d.kind ≠ .error := hk
      simpa [Draft.finish, finishOver, hk] using he
    obtain ⟨rfl, hne, r, hr, hcovers⟩ := h.fault he
    refine ⟨.inr h.tells, r, hr, ?_⟩
    show (d.span offset).covers r = true
    rwa [span_eq hne]
  · have hnil : d.children.toList = [] := hn
    show (d.span offset).start = (d.span offset).stop
    rw [span, hnil]
    rfl

/-- A proper draft becomes a node without the mark of an error, whatever its range. -/
theorem error_finishOver (h : d.Explained blamed .proper) (range : Range) :
    (d.finishOver range).flags.error = false := by
  have hk : d.kind ≠ .error := (Kind.ne_of_isFree h.tells).1
  have he : d.flags.error = false := h.error_eq_false (by rintro ⟨⟩)
  simp [finishOver, he, hk]

theorem nested_finish (h : d.Explained blamed F) (offset : Nat) :
    Range.Nested d.spots (d.finish offset).spots := by
  refine Draft.nested_finish (fun he => ?_) (fun he => (h.fault he).2.1) offset
  obtain ⟨rfl, -⟩ := h.fault he
  exact h.tells

end Explained

theorem Faultless.spots (h : d.Faultless) : d.spots = [] := by
  rw [Draft.spots, if_neg (Bool.eq_false_iff.1 h.error)]
  exact List.flatMap_eq_nil_iff.2 fun c hc => (h.children c hc).spots

end Draft

/-! ### Hands -/

namespace Hand

/-- What is in the hands is explained. -/
def Explained (blamed : Range → Prop) : Hand → Prop
  | .empty | .lost => True
  | .node n => n.Explained blamed
  | .draft d F => d.Explained blamed F

/-- The spots of what is in the hands. -/
def spots : Hand → List Range
  | .empty | .lost => []
  | .node n => n.spots
  | .draft d _ => d.spots

variable {blamed : Range → Prop} {h h' : Hand} {o : Bool}

/-- Changes to what is in the hands keep it explained and hide no spot, if they do not lose it. -/
theorem Explained.becomes (he : h.Explained blamed) (hb : h.Becomes o h') (hl : h' ≠ .lost) :
    h'.Explained blamed ∧ Range.Nested h.spots h'.spots := by
  have hsame {s : List Range} {s' : List Range} (h : s' = s) : Range.Nested s s' :=
    Range.nested_of_subset (h ▸ List.Subset.refl s)
  cases hb with
  | same => exact ⟨he, hsame rfl⟩
  | kind n hk hleaf hn hf =>
    exact ⟨Node.explained_withKind he hleaf hn hf hk, hsame (Node.spots_withKind hleaf _)⟩
  | type n => exact ⟨Node.lasting_explained.asType he, hsame (Node.Explained.spots_asType he)⟩
  | path n => exact ⟨Node.lasting_explained.asPath he, hsame (Node.Explained.spots_asPath he)⟩
  | chain n =>
    exact ⟨Node.lasting_explained.asLetChain he, hsame (Node.Explained.spots_asLetChain he)⟩
  | ambiguous n => exact ⟨Node.explained_ambiguous he, hsame n.spots_ambiguous⟩
  | error n _ hn => exact ⟨Node.explained_withError he hn, Node.nested_withError hn⟩
  | retag d hk => exact ⟨Draft.Explained.setKind he nofun hk, hsame rfl⟩
  | explained d hF => exact ⟨Draft.Explained.serves he hF, hsame rfl⟩
  | @nothing d F hd =>
    have hnil : d.children.toList = [] := by simpa [Draft.isEmpty] using hd
    have herror : d.flags.error = false :=
      Bool.eq_false_iff.2 fun herror => (Draft.Explained.fault he herror).2.1 hnil
    have hspots : (Hand.draft d F).spots = [] := by simp [Hand.spots, Draft.spots, herror, hnil]
    exact ⟨trivial, hsame hspots.symm⟩
  | lost => exact absurd rfl hl

theorem Spare.spots (hh : h.Spare) : h.spots = [] := by
  cases h with
  | draft d F => exact Draft.Faultless.spots hh
  | node n => exact hh.elim
  | _ => rfl

end Hand

/-! ### Sessions -/

/-- Every fault was reported once, over some bytes that were consumed, and lies in a spot: further
out, in the open draft, or in the hands. -/
structure Session.Accounted (outer : List Range) (h : Hand) (F : Standing) (s : Session) : Prop where
  draft : s.draft.Explained (· ∈ s.report.blamed) F
  hand : h.Explained (· ∈ s.report.blamed)
  nested : Range.Nested s.report.blamed (outer ++ s.draft.spots ++ h.spots)
  bytes : ∀ r ∈ s.report.blamed, r.start < r.stop ∧ r.stop ≤ s.consumedEnd
  placed : ∀ d ∈ s.report.lexical, d.range.isSome = true
  distinct : (s.report.lexical.map fun d => (d.code, d.range)).Nodup

/-- The kinds under which a token may be read are kinds of tokens. -/
theorem Session.TakesAs.isToken {σ : Setting} {s : Session} {as? : Option Kind}
    (h : s.TakesAs σ as?) (kind : Kind) (hk : as? = some kind) :
    kind.isToken = true ∧ kind ≠ .errorSentinel := by
  rcases h kind hk with hname | hword
  · exact ⟨Kind.isToken_of_isName hname, (Kind.ne_of_isFree (Kind.isFree_of_isName hname)).2⟩
  · exact ⟨Kind.isToken_of_wordText hword, (Kind.ne_of_wordText hword).2⟩

namespace Session.Accounted

variable {outer outer' : List Range} {h h' : Hand} {F F' : Standing} {s s' : Session}

/-- A step that reports no fault and hides no spot. -/
theorem moved (hs : s.Accounted outer h F) (hlexical : s'.report.lexical = s.report.lexical)
    (hend : s.consumedEnd ≤ s'.consumedEnd)
    (hdraft : s'.draft.Explained (· ∈ s.report.blamed) F')
    (hhand : h'.Explained (· ∈ s.report.blamed))
    (hnested : Range.Nested (outer ++ s.draft.spots ++ h.spots)
      (outer' ++ s'.draft.spots ++ h'.spots)) : s'.Accounted outer' h' F' := by
  have hblamed : s'.report.blamed = s.report.blamed := by rw [Report.blamed, hlexical]; rfl
  refine ⟨hblamed ▸ hdraft, hblamed ▸ hhand, hblamed ▸ hs.nested.trans hnested, fun r hr => ?_,
    hlexical ▸ hs.placed, hlexical ▸ hs.distinct⟩
  obtain ⟨hlt, hle⟩ := hs.bytes r (hblamed ▸ hr)
  exact ⟨hlt, Nat.le_trans hle hend⟩

/-- A step that moves spots from one place to another. -/
theorem shuffled (hs : s.Accounted outer h F) (hreport : s'.report = s.report)
    (hend : s'.consumedEnd = s.consumedEnd)
    (hdraft : s'.draft.Explained (· ∈ s.report.blamed) F')
    (hhand : h'.Explained (· ∈ s.report.blamed))
    (hspots : outer ++ s.draft.spots ++ h.spots ⊆ outer' ++ s'.draft.spots ++ h'.spots) :
    s'.Accounted outer' h' F' :=
  hs.moved (congrArg Report.lexical hreport) (Nat.le_of_eq hend.symm) hdraft hhand
    (Range.nested_of_subset hspots)

/-- More children in the open draft. -/
theorem extend {whole : Prop} {more : List Child} (hs : s.Accounted outer h F)
    (hd : ∀ c ∈ s.draft.children.toList, c.2.Tiled text whole)
    (hm : ∀ c ∈ more, c.2.Tiled text whole)
    (he : ∀ c ∈ more, c.2.Explained (· ∈ s.report.blamed))
    (hspots : h.spots ⊆ more.flatMap (·.2.spots)) :
    (s.withDraft (s.draft.extend more)).Accounted outer .empty F := by
  refine hs.moved rfl (Nat.le_refl _) (hs.draft.extend he) trivial ?_
  have hmore := Draft.nested_extend hd hm fun h => (hs.draft.fault h).2.1
  have hsubset : s.draft.spots ++ h.spots ⊆ s.draft.spots ++ more.flatMap (·.2.spots) :=
    List.append_subset.2 ⟨List.subset_append_left _ _, List.subset_append_of_subset_right _ hspots⟩
  have hnested := (Range.nested_of_subset hsubset).trans hmore
  have houter := (Range.nested_of_subset (List.Subset.refl outer)).append hnested
  simpa [Hand.spots, Session.withDraft, List.append_assoc] using houter

/-- The comments before a token go into the open draft. -/
theorem flushed (hs : s.Accounted outer .empty F) (hsound : s.Sound text) {whole : Prop}
    (hd : ∀ c ∈ s.draft.children.toList, c.2.Tiled text whole) (σ : Setting) :
    (s.flushed σ).Accounted outer .empty F := by
  have hcomments : Tiles text whole s.consumedEnd s.comments (s.flushed σ).consumedEnd :=
    hsound.leading.tiles
  have hle := hcomments.row.le
  unfold Session.flushed at hle ⊢
  split
  · have hpushed := hs.extend hd hcomments.tiled
      (fun c hc => (Session.quiet_comments hsound c hc).explained) nofun
    exact hpushed.moved rfl hle hpushed.draft trivial (Range.nested_of_subset (List.Subset.refl _))
  · exact hs.moved rfl hle hs.draft trivial (Range.nested_of_subset (List.Subset.refl _))

/-- The faults of a token that is taken are reported, and the token is in the hands. -/
theorem taken (hs : s.Accounted outer .empty F) (hsound : s.Sound text) {whole : Prop}
    (hd : ∀ c ∈ s.draft.children.toList, c.2.Tiled text whole) {σ : Setting} {as? : Option Kind}
    (has : s.TakesAs σ as?) (next : Admitted) :
    (s.taken σ next).Accounted outer (.node (.ofToken s.scanner.token as?)) F := by
  have hflushed := hs.flushed hsound hd σ
  have hlaid := hsound.scanner.laid
  set faults := s.scanner.token.faults.map (·.diagnostic σ.file σ.source) with hfaults
  have hlexical : (s.taken σ next).report.lexical = s.report.lexical ++ faults :=
    Report.lexical_addAll _ (List.forall_mem_map.2 fun f _ => f.isLexical_diagnostic _ _)
  have hblamed : (s.taken σ next).report.blamed =
      s.report.blamed ++ s.scanner.token.faults.map (·.range) := by
    rw [Report.blamed, hlexical, List.filterMap_append, hfaults, List.filterMap_map]
    congr 1
    rw [← List.filterMap_eq_map]
    exact List.filterMap_congr fun f _ => f.range_diagnostic _ _
  have hold : ∀ r ∈ s.report.blamed, r ∈ (s.taken σ next).report.blamed := fun r hr =>
    hblamed ▸ List.mem_append_left _ hr
  have hnew : ∀ f ∈ s.scanner.token.faults, f.range ∈ (s.taken σ next).report.blamed := fun f hf =>
    hblamed ▸ List.mem_append_right _ (List.mem_map_of_mem hf)
  have hstart : (s.flushed σ).consumedEnd ≤ s.scanner.token.range.start :=
    (hsound.flushed σ).consumedEnd_le
  have hstop : s.scanner.token.range.start ≤ s.scanner.token.range.stop := by
    rw [hsound.scanner.range]
    exact hsound.scanner.le
  refine ⟨hflushed.draft.mono hold,
    Node.explained_ofToken hlaid hnew (Session.TakesAs.isToken has), ?_, ?_, ?_, ?_⟩
  · rw [hblamed]
    refine List.forall_mem_append.2 ⟨fun r hr => ?_, List.forall_mem_map.2 fun f hf => ?_⟩
    · obtain ⟨spot, hspot, hcovers⟩ := hflushed.nested r hr
      rw [List.append_assoc, Hand.spots, List.append_nil] at hspot
      exact ⟨spot, List.mem_append_left _ hspot, hcovers⟩
    · have hspots : (Node.ofToken s.scanner.token as?).spots = [s.scanner.token.range] :=
        Node.spots_ofToken (List.ne_nil_of_mem hf) as?
      have hwithin := hlaid.within f hf
      exact ⟨s.scanner.token.range, List.mem_append_right _ (by simp [Hand.spots, hspots]),
        Range.covers_iff.2 ⟨hwithin.1, hwithin.2.2⟩⟩
  · rw [hblamed]
    refine List.forall_mem_append.2 ⟨fun r hr => ?_, List.forall_mem_map.2 fun f hf => ?_⟩
    · obtain ⟨hlt, hle⟩ := hflushed.bytes r hr
      exact ⟨hlt, Nat.le_trans hle (Nat.le_trans hstart hstop)⟩
    · exact (hlaid.within f hf).2
  · rw [hlexical]
    refine List.forall_mem_append.2 ⟨hs.placed, List.forall_mem_map.2 fun f _ => ?_⟩
    rw [f.range_diagnostic]
    rfl
  · have hcodes : faults.map (fun d => (d.code, d.range)) =
        (s.scanner.token.faults.map fun f => (f.code, f.range)).map fun p => (p.1, some p.2) := by
      rw [hfaults, List.map_map, List.map_map]
      exact List.map_congr_left fun f _ =>
        Prod.ext (f.code_diagnostic σ.file σ.source) (f.range_diagnostic σ.file σ.source)
    have hnodup : (faults.map fun d => (d.code, d.range)).Nodup := by
      rw [hcodes]
      refine List.Pairwise.map _ (fun p q hne h => hne ?_) hlaid.distinct
      simpa [Prod.ext_iff] using h
    rw [hlexical, List.map_append]
    refine List.nodup_append.2 ⟨hs.distinct, hnodup, ?_⟩
    -- what was reported before lies behind the token
    rintro _ hp _ hq rfl
    obtain ⟨d, hd, rfl⟩ := List.mem_map.1 hp
    obtain ⟨_, hq, he⟩ := List.mem_map.1 hq
    obtain ⟨f, hf, rfl⟩ := List.mem_map.1 hq
    have hrange : d.range = some f.range := (congrArg Prod.snd he).symm
    have hbytes := hflushed.bytes f.range (Report.mem_blamed.2 ⟨d, hd, hrange⟩)
    have hwithin := hlaid.within f hf
    omega

/-- The pieces of a literal go into a draft in its stead. -/
theorem unpacked {n : Node} {whole : Prop} (hs : s.Accounted outer (.node n) .literal)
    (hd : ∀ c ∈ s.draft.children.toList, c.2.Tiled text whole) (hn : n.Tiled text whole)
    (hk : n.kind.isPieced = true) (hne : n.children ≠ []) :
    (s.withDraft ((s.draft.addFlags { error := n.flags.error }).extend n.children)).Accounted
      outer .empty .literal := by
  have hnode : n.Explained (· ∈ s.report.blamed) := hs.hand
  have hspan := Draft.span_extend_covers_node (d := s.draft) hn hne
  refine hs.moved rfl (Nat.le_refl _) ⟨hs.draft.tells, fun he => ⟨rfl, ?_, ?_⟩, ?_⟩ trivial ?_
  · simp [Session.withDraft, Draft.extend, hne]
  · cases herror : s.draft.flags.error with
    | true =>
      obtain ⟨-, hchildren, r, hr, hcovers⟩ := hs.draft.fault herror
      exact ⟨r, hr, Range.covers_trans (Draft.span_extend_covers hchildren _) hcovers⟩
    | false =>
      have hnerror : n.flags.error = true := by
        simpa [Session.withDraft, Draft.extend, Draft.addFlags, NodeFlags.union, herror] using he
      have hfragment : n.kind ≠ .fragmentSpecifier := by
        intro h
        rw [h] at hk
        cases hk
      have herror := (Kind.ne_of_isFree (Kind.isFree_of_isPieced hk)).1
      obtain ⟨-, r, hr, hcovers⟩ := hnode.fault hnerror herror hfragment
      exact ⟨r, hr, Range.covers_trans hspan hcovers⟩
  · exact Draft.forall_mem_extend.2 ⟨hs.draft.children, hnode.children⟩
  · have hmore := Draft.nested_unpacked hd hn hne fun h => (hs.draft.fault h).2.1
    have houter := (Range.nested_of_subset (List.Subset.refl outer)).append hmore
    simpa [Hand.spots, Session.withDraft, List.append_assoc] using houter

/-- A fresh draft is opened inside another one. -/
theorem opened (hs : s.Accounted outer h F) {kind : Kind} (hk : F'.Begins kind) :
    (s.withDraft (.ofKind kind)).Accounted (outer ++ s.draft.spots) h F' := by
  refine hs.shuffled rfl rfl (Draft.explained_ofKind hk.tells) hs.hand ?_
  have hnone : (Draft.ofKind kind).spots = [] := rfl
  simp [Session.withDraft, hnone]

/-- A draft is taken out of the hands and opened inside another one. -/
theorem reopened {d : Draft} (hs : s.Accounted outer (.draft d F') F) :
    (s.withDraft d).Accounted (outer ++ s.draft.spots) .empty F' := by
  refine hs.shuffled rfl rfl hs.hand trivial ?_
  simp [Session.withDraft, Hand.spots]

/-- The open draft goes into the hands, and the one around it is open again. -/
theorem closed (hs : s.Accounted (outer ++ s'.draft.spots) .empty F')
    (hd : s'.draft.Explained (· ∈ s.report.blamed) F) :
    (s.withDraft s'.draft).Accounted outer (.draft s.draft F') F := by
  refine hs.shuffled rfl rfl hd hs.draft ?_
  simp [Session.withDraft, Hand.spots]

end Session.Accounted

/-! ### The invariant -/

/-- What was consumed is tiled, and every fault that was reported is accounted for, as long as
nothing was lost. -/
def Invariant.accounted (text : List Char) (options : Options) :
    Invariant text options (Nat × List Range) where
  holds b h F s := s.Tiled text options b.1 h ∧ (h = .lost ∨ s.Accounted b.2 h F)
  stands := by
    rintro b h F F' s hF ⟨htiled, hs⟩
    exact ⟨htiled, hs.imp_right fun hs => hs.shuffled rfl rfl (hs.draft.serves hF) hs.hand
      (List.Subset.refl _)⟩
  becomes := by
    rintro b h h' o F s hsound ho hh ⟨htiled, hs⟩
    refine ⟨(Invariant.tiled text options).becomes (F := F) hsound ho hh htiled, ?_⟩
    by_cases hlost : h' = .lost
    · exact .inl hlost
    · rcases hs with rfl | hs
      · cases hh <;> exact absurd rfl hlost
      · obtain ⟨hhand, hnested⟩ := hs.hand.becomes hh hlost
        refine .inr (hs.moved rfl (Nat.le_refl _) hs.draft hhand ?_)
        exact (Range.nested_of_subset (List.Subset.refl _)).append hnested
  beside := by
    rintro b h F severe s s' hb ⟨htiled, hs⟩
    refine ⟨(Invariant.tiled text options).beside (F := F) hb htiled, hs.imp_right fun hs => ?_⟩
    refine hs.moved hb.lexical (Nat.le_of_eq hb.consumedEnd.symm) (hb.draft ▸ hs.draft) hs.hand ?_
    rw [hb.draft]
    exact Range.nested_of_subset (List.Subset.refl _)
  reshaped := by
    rintro b h F s scanner hr ⟨htiled, hs⟩
    exact ⟨htiled, hs.imp_right fun hs => hs.shuffled rfl rfl hs.draft hs.hand (List.Subset.refl _)⟩
  flushed := by
    rintro b F σ s hσ hsound ⟨htiled, hs⟩
    obtain ⟨e, htiles, -⟩ := id htiled
    exact ⟨htiled.flush hσ.options hsound,
      .inr ((hs.resolve_left nofun).flushed hsound htiles.tiled σ)⟩
  taken := by
    rintro b F σ s as? next hσ hsound hk has ⟨htiled, hs⟩
    obtain ⟨e, htiles, -⟩ := id htiled
    exact ⟨(Invariant.tiled text options).taken (F := F) hσ hsound hk has htiled,
      .inr ((hs.resolve_left nofun).taken hsound htiles.tiled has next)⟩
  pushed := by
    rintro b F s label n hl ⟨htiled, hs⟩
    obtain ⟨e, htiles, -, hn, -⟩ := id htiled
    have hs := hs.resolve_left nofun
    refine ⟨htiled.push label, .inr ?_⟩
    rw [Draft.pushChild_eq_extend]
    exact hs.extend htiles.tiled (List.forall_mem_singleton.2 hn) (List.forall_mem_singleton.2 hs.hand)
      (by simp [Hand.spots])
  unpacked := by
    rintro b s token hl hne ⟨htiled, hs⟩
    obtain ⟨e, htiles, -, hn, -⟩ := id htiled
    exact ⟨(Invariant.tiled text options).unpacked hl hne htiled,
      .inr ((hs.resolve_left nofun).unpacked htiles.tiled hn (Node.isPieced_ofToken hne) hne)⟩
  spread := by
    rintro b s d ⟨htiled, hs⟩
    obtain ⟨e, htiles, e', htiles', -⟩ := id htiled
    have hs := hs.resolve_left nofun
    refine ⟨(Invariant.tiled text options).spread htiled, .inr ?_⟩
    have hhand : d.Explained _ .failed := hs.hand
    exact hs.extend htiles.tiled htiles'.tiled hhand.children
      (hhand.spots_eq nofun ▸ List.Subset.refl _)
  renamed := by
    rintro b h F s kind hF hk ⟨htiled, hs⟩
    exact ⟨htiled, hs.imp_right fun hs => hs.shuffled rfl rfl (hs.draft.setKind hF hk) hs.hand
      (List.Subset.refl _)⟩
  failed := by
    rintro b h F s hF ⟨htiled, hs⟩
    refine ⟨(Invariant.tiled text options).failed hF htiled, hs.imp_right fun hs => ?_⟩
    refine hs.shuffled rfl rfl (hs.draft.fail hF) hs.hand ?_
    rw [Session.withDraft, hs.draft.spots_fail hF]
    exact List.Subset.refl _
  opened := by
    rintro b h F F₀ s kind hk hh ⟨htiled, hs⟩
    have hs := hs.resolve_left hh
    obtain ⟨base, hopen, hclose⟩ := (Invariant.tiled text options).opened (F := F) hk hh htiled
    refine ⟨(base, b.2 ++ s.draft.spots), ⟨hopen, .inr (hs.opened hk)⟩, fun {t F'} hon ht => ?_⟩
    refine ⟨hclose hon ht.1, .inr ((ht.2.resolve_left nofun).closed (hs.draft.mono fun r hr => ?_))⟩
    exact hon.report.blamed hr
  reopened := by
    rintro b F F₀ s d ⟨htiled, hs⟩
    have hs := hs.resolve_left nofun
    obtain ⟨base, hopen, hclose⟩ := (Invariant.tiled text options).reopened (F := F) htiled
    refine ⟨(base, b.2 ++ s.draft.spots), ⟨hopen, .inr hs.reopened⟩, fun {t F'} hon ht => ?_⟩
    refine ⟨hclose hon ht.1, .inr ((ht.2.resolve_left nofun).closed (hs.draft.mono fun r hr => ?_))⟩
    exact hon.report.blamed hr
  finished := by
    rintro b F F₀ s d hsound hF ⟨htiled, hs⟩
    have hs := hs.resolve_left nofun
    have hhand : d.Explained _ F₀ := hs.hand
    refine ⟨(Invariant.tiled text options).finished (F := F) hsound hF htiled, .inr ?_⟩
    refine hs.moved rfl (Nat.le_refl _) hs.draft (hhand.finish _) ?_
    exact (Range.nested_of_subset (List.Subset.refl _)).append (hhand.nested_finish _)
  missing := by
    rintro b F s kind hk hsound ho ⟨htiled, hs⟩
    have hs := hs.resolve_left nofun
    have hne := Kind.ne_of_isStandIn hk
    have hn := Node.faultless_missing hne.2 (.emptyAt s.consumedEnd)
    refine ⟨(Invariant.tiled text options).missing (F := F) hk hsound ho htiled, .inr ?_⟩
    refine hs.shuffled rfl rfl hs.draft (Node.explained_missing hne.1 hne.2 _) ?_
    simp [Hand.spots]
  limited := by
    rintro b h F s s' hh hb hl ⟨htiled, hs⟩
    refine ⟨(Invariant.tiled text options).limited (F := F) hh hb hl htiled, .inr ?_⟩
    have hkept : h ≠ .lost := by
      rintro rfl
      exact hh
    have hs := hs.resolve_left hkept
    refine hs.moved hb.lexical (Nat.le_of_eq hb.consumedEnd.symm) (hb.draft ▸ hs.draft) trivial ?_
    rw [hb.draft, hh.spots]
    exact Range.nested_of_subset (List.Subset.refl _)

/-! ### Whole trees -/

namespace Tree

/-- The diagnostics about single tokens. -/
def lexical (t : Tree) : List Diagnostic := t.diagnostics.filter Diagnostic.isLexical

/-- The faults of the tokens are told once, and can be seen in the tree. -/
structure TellsFaults (t : Tree) : Prop where
  /-- No two diagnostics about single tokens have the same code and the same range. -/
  once : (t.lexical.map fun d => (d.code, d.range)).Nodup
  /-- The range of each lies in exactly one of the outermost flagged nodes. -/
  shown : ∀ d ∈ t.lexical, ∃ r, d.range = some r ∧
    (t.root.outermost Node.isFlagged).countP (·.range.covers r) = 1
  /-- A flagged node is a fragment of an unknown kind, an empty error, or holds the range of one. -/
  told : ∀ n ∈ t.root.preorder, n.isFlagged = true → n.kind ≠ .fragmentSpecifier →
    ¬ (n.kind = .error ∧ n.range.start = n.range.stop) →
      ∃ d ∈ t.lexical, ∃ r, d.range = some r ∧ n.range.covers r = true

end Tree

/-- What was reported of single tokens is what the tree tells of them, in another order. -/
theorem Session.lexical_tree (s : Session) (σ : Setting) :
    (s.tree σ).lexical.Perm s.report.lexical :=
  (List.mergeSort_perm _ _).filter _

/-- At the end of a reading every fault is accounted for. -/
theorem Setting.run_accounted {σ : Setting} {s : Session} (h : σ.run? = some s) :
    s.Accounted [] .empty .proper := by
  have hstart : (Session.start σ.source).Accounted [] .empty .proper :=
    ⟨Draft.explained_ofKind rfl, trivial, nofun, nofun, nofun, .nil⟩
  have htiled : (Session.start σ.source).Tiled σ.source.toList σ.options 0 .empty :=
    ⟨0, .nil 0, .refl 0⟩
  exact (σ.run_keeps (.accounted _ _) (b := (0, [])) ⟨htiled, .inr hstart⟩ h).2.resolve_left nofun

namespace Tree

/-- **The faults of the tokens are told once, and can be seen in the tree.** -/
theorem faults_parse (file source : String) (options : Options) :
    (parse file source options).TellsFaults := by
  obtain ⟨s, hrun, htree⟩ := parse_ends file source options
  have hrun : ({ file, source, options } : Setting).run? = some s := hrun false
  have hend := Setting.run_accounted hrun
  obtain ⟨e, htiles, -⟩ := Setting.run_tiled hrun
  have hperm := s.lexical_tree { file, source, options }
  rw [htree]
  set t := s.tree { file, source, options } with ht
  have hkind : t.root.kind ≠ .error := (Kind.ne_of_isFree hend.draft.tells).1
  have herror : t.root.flags.error = false := hend.draft.error_finishOver _
  have hroot : t.root.Explained (· ∈ s.report.blamed) :=
    ⟨fun h => absurd (herror.symm.trans h) Bool.false_ne_true, fun h => absurd h hkind,
      hend.draft.children⟩
  have hflat := hend.draft.spots_eq (by rintro ⟨⟩)
  have hspots : t.root.spots = s.draft.spots := by
    rw [Node.spots_of_not_isFlagged (Node.isFlagged_eq_false herror), hflat]
    rfl
  refine ⟨?_, fun d hd => ?_, fun n hn hflagged hfragment hempty => ?_⟩
  · exact (hperm.map _).nodup_iff.2 hend.distinct
  · have hd := hperm.mem_iff.1 hd
    obtain ⟨r, hr⟩ := Option.isSome_iff_exists.1 (hend.placed d hd)
    have hblamed : r ∈ s.report.blamed := Report.mem_blamed.2 ⟨d, hd, hr⟩
    have hrow : t.root.spots.Pairwise fun r r' => r.stop ≤ r'.start := by
      have horder : Node.InOrder 0 (s.draft.children.toList.flatMap fun c =>
          c.2.outermost Node.isFlagged) e :=
        Node.inOrder_flatMap htiles.row fun c hc => (htiles.tiled c hc).outermost
      have hranges : s.draft.spots = (s.draft.children.toList.flatMap fun c =>
          c.2.outermost Node.isFlagged).map (·.range) := by
        rw [hflat, List.map_flatMap]
        rfl
      rw [hspots, hranges]
      exact List.pairwise_map.2 horder.2
    have hin : ∃ spot ∈ t.root.spots, spot.covers r = true := by
      simpa [hspots, Hand.spots] using hend.nested r hblamed
    refine ⟨r, hr, ?_⟩
    have hcount := Range.countP_covers hrow (hend.bytes r hblamed).1 hin
    rwa [Node.spots, List.countP_map] at hcount
  · have hexplained := Node.forall_mem_preorder (fun _ h => h.children) hroot n hn
    obtain ⟨r, hr, hcovers⟩ := hexplained.tells hflagged hfragment hempty
    obtain ⟨d, hd, hrange⟩ := Report.mem_blamed.1 hr
    exact ⟨d, hperm.mem_iff.2 hd, r, hrange, hcovers⟩

/-- Where the limit of nesting is reported before anything that could be skipped, an error is left
that holds the range of no fault. -/
theorem untold_at_limit :
    ∃ n ∈ (parse "f.rs" "type A =" { maxDepth := 0 }).root.preorder, n.isFlagged = true ∧
      n.kind ≠ .fragmentSpecifier ∧ ¬ ∃ d ∈ (parse "f.rs" "type A =" { maxDepth := 0 }).lexical,
        ∃ r, d.range = some r ∧ n.range.covers r = true := by
  have hnode : ∃ n ∈ (parse "f.rs" "type A =" { maxDepth := 0 }).root.preorder,
      n.isFlagged = true ∧ n.kind ≠ .fragmentSpecifier := by decide +kernel
  have hreport : (({ file := "f.rs", source := "type A =", options := { maxDepth := 0 } } :
      Setting).run?.getD (.start "type A =")).report.lexical = [] := by decide +kernel
  have hnone : (parse "f.rs" "type A =" { maxDepth := 0 }).lexical = [] :=
    (hreport ▸ Session.lexical_tree _ _).eq_nil
  obtain ⟨n, hn, hflagged, hfragment⟩ := hnode
  refine ⟨n, hn, hflagged, hfragment, ?_⟩
  rintro ⟨d, hd, -⟩
  rw [hnone] at hd
  cases hd

end Tree

end ConcreteSyntax
