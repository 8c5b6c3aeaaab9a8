import ConcreteSyntax.Grammar.Statement
import ConcreteSyntax.Proofs.Node.Sheds
import ConcreteSyntax.Proofs.Reading.Take

/-! # Sessions without comments

Of two sessions over a text one keeps the comments and the other drops them (`Setting.bare`). All
that differs between them is the open draft: the one that keeps the comments sheds them
(`Session.Sheds`). What the grammar asks about a draft or a node is never about comments: a draft has
a trait that more children do not take away (`Draft.Trait`), and a node is upright
(`Node.Upright`). -/

namespace ConcreteSyntax

open Text (Place byteLength)
open Lexeme (contextual?)

/-- The setting in which comments are dropped. -/
def Setting.bare (σ : Setting) : Setting :=
  { σ with options := { σ.options with keepComments := false } }

/-! ### Nodes -/

namespace Node

/-- No extra stands first. -/
def Headed (n : Node) : Prop := ∀ c ∈ n.children.head?, c.2.isExtra = false

/-- The call of a macro ends with its group of tokens, which begins with its opener. -/
def Upright (n : Node) : Prop :=
  n.kind = .macroInvocation → ∀ c ∈ n.children.getLast?, c.2.isExtra = false ∧ c.2.Headed

/-- `m` is `n` without the extras in it, and `n` is a node that the grammar may look at. -/
structure Bares (n m : Node) : Prop where
  sheds : n.Sheds m
  plain : n.isExtra = false
  upright : n.Upright

variable {n m : Node}

/-- The opener of a group. -/
theorem Sheds.opener (h : n.Sheds m) (hn : n.Headed) :
    ((m.child? 0).any fun c => c.kind == .openBrace) =
      (n.child? 0).any fun c => c.kind == .openBrace := by
  have hpaired := h.children
  cases hc : n.children with
  | nil =>
    rw [hc] at hpaired
    cases hm : m.children with
    | nil => rw [child?, child?, hc, hm]
    | cons => rw [hm] at hpaired; cases hpaired
  | cons c cs =>
    rw [hc, significant_cons (hn c (by rw [hc]; rfl))] at hpaired
    cases hm : m.children with
    | nil => rw [hm] at hpaired; cases hpaired
    | cons d ds =>
      rw [hm] at hpaired
      cases hpaired with
      | cons head => simp [child?, hc, hm, head.kind]

theorem Bares.isBraceCall (h : n.Bares m) : Grammar.isBraceCall m = Grammar.isBraceCall n := by
  unfold Grammar.isBraceCall
  rw [h.sheds.kind]
  by_cases hk : n.kind = .macroInvocation
  · have hpaired := h.sheds.children
    rcases List.eq_nil_or_concat n.children with hc | ⟨rest, c, hc⟩
    · rw [hc] at hpaired ⊢
      rw [hpaired.eq_nil_iff.1 rfl]
    · obtain ⟨hplain, hheaded⟩ := h.upright hk c (by simp [hc])
      rw [hc, List.concat_eq_append, significant_append, significant_cons hplain] at hpaired
      obtain ⟨rest', tree, hm, htree⟩ := hpaired.exists_concat
      simp only [hc, hm, List.concat_eq_append, List.getLast?_append, List.getLast?_singleton,
        Option.some_or, htree.opener hheaded]
  · rw [beq_eq_false_iff_ne.2 hk, Bool.false_and, Bool.false_and]

theorem Upright.of_ne (h : n.kind ≠ .macroInvocation) : n.Upright := fun hk => absurd hk h

theorem bares_leaf {kind : Kind} {range : Range} {flags : NodeFlags} (h : flags.extra = false) :
    (leaf kind range flags).Bares (leaf kind range flags) := by
  refine ⟨.leaf _ _ _, ?_, fun _ => nofun⟩
  unfold leaf isExtra
  split <;> exact h

theorem bares_ofToken (t : Token) (as? : Option Kind) : (ofToken t as?).Bares (ofToken t as?) := by
  rcases ofToken_cases t as? with ⟨kind, hkind, he⟩ | ⟨he, -⟩ <;> rw [he]
  · refine ⟨.ofPieces _ _ _ _, rfl, .of_ne ?_⟩
    rintro (rfl : kind = .macroInvocation)
    exact Bool.false_ne_true hkind
  · exact bares_leaf rfl

namespace Bares

theorem kind (h : n.Bares m) : m.kind = n.kind := h.sheds.kind

/-- A node that is read again is no call of a macro any more. -/
theorem upright_again {n : Node} (h : n.kind.isReread = true) : n.Upright :=
  .of_ne fun hk => Bool.false_ne_true (by rw [hk] at h; exact h)

theorem withKind (h : n.Bares m) {kind : Kind} (hk : kind ≠ .macroInvocation) :
    (n.withKind kind).Bares (m.withKind kind) :=
  ⟨h.sheds.withKind kind, h.plain, .of_ne hk⟩

theorem withFlags (h : n.Bares m) {flags : NodeFlags} (hf : flags.extra = false) :
    (n.withFlags flags).Bares (m.withFlags flags) :=
  ⟨h.sheds.withFlags flags, Bool.or_eq_false_iff.2 ⟨h.plain, hf⟩, h.upright⟩

theorem asType (h : n.Bares m) : n.asType.Bares m.asType := by
  refine ⟨h.sheds.asType, isExtra_asType h.plain, ?_⟩
  rcases n.asType_eq_or with he | hk
  · rw [he]
    exact h.upright
  · exact upright_again hk

theorem asPath (h : n.Bares m) : n.asPath.Bares m.asPath := by
  refine ⟨h.sheds.asPath, isExtra_asPath h.plain, ?_⟩
  rcases n.asPath_eq_or with he | hk
  · rw [he]
    exact h.upright
  · exact upright_again hk

theorem asLetChain (h : n.Bares m) : n.asLetChain.Bares m.asLetChain := by
  refine ⟨h.sheds.asLetChain h.plain, ?_, ?_⟩
  · rcases n.asLetChain_cases with ⟨he, -⟩ | he <;> rw [he]
    · rfl
    · exact h.plain
  · rcases n.asLetChain_eq_or with he | hk
    · rw [he]
      exact h.upright
    · exact upright_again hk

end Bares

end Node

/-! ### Drafts -/

/-- What is asked about a draft, and stays true as it is filled. -/
structure Draft.Trait where
  holds : Draft → Prop
  extend : ∀ {d : Draft} (more : List Child), holds d → holds (d.extend more)
  setKind : ∀ {d : Draft} {kind : Kind}, kind ≠ .macroInvocation → holds d → holds (d.setKind kind)
  addFlags : ∀ {d : Draft} (flags : NodeFlags), holds d → holds (d.addFlags flags)
  clearFields : ∀ {d : Draft}, holds d → holds d.clearFields

namespace Draft

theorem children_extend (d : Draft) (more : List Child) :
    (d.extend more).children.toList = d.children.toList ++ more := by
  simp [extend]

theorem children_pushChild (d : Draft) (label : Option Field) (n : Node) :
    (d.pushChild label n).children.toList = d.children.toList ++ [(label, n)] := by
  simp [pushChild]

theorem children_clearFields (d : Draft) :
    d.clearFields.children.toList = d.children.toList.map fun c => (none, c.2) := by
  simp [clearFields]

namespace Trait

/-- A draft of which nothing is asked. -/
def any : Trait := ⟨fun _ => True, fun _ _ => trivial, fun _ _ => trivial, fun _ _ => trivial,
  fun _ => trivial⟩

/-- A draft that does not become the call of a macro. -/
def usual : Trait where
  holds d := d.kind ≠ .macroInvocation
  extend _ h := h
  setKind hk _ := hk
  addFlags _ h := h
  clearFields h := h

/-- A draft that begins with a child that is no extra. -/
def headed : Trait where
  holds d := d.kind ≠ .macroInvocation ∧
    ∃ c cs, d.children.toList = c :: cs ∧ c.2.isExtra = false
  extend := by
    rintro d more ⟨hk, c, cs, hc, he⟩
    exact ⟨hk, c, cs ++ more, by rw [children_extend, hc, List.cons_append], he⟩
  setKind hk h := ⟨hk, h.2⟩
  addFlags _ h := h
  clearFields := by
    rintro d ⟨hk, c, cs, hc, he⟩
    exact ⟨hk, (none, c.2), cs.map fun c => (none, c.2), by rw [children_clearFields, hc]; rfl, he⟩

/-- A draft that holds more than extras. -/
def filled : Trait where
  holds d := d.kind ≠ .macroInvocation ∧ ∃ c ∈ d.children.toList, c.2.isExtra = false
  extend := by
    rintro d more ⟨hk, c, hc, he⟩
    exact ⟨hk, c, by rw [children_extend]; exact List.mem_append_left _ hc, he⟩
  setKind hk h := ⟨hk, h.2⟩
  addFlags _ h := h
  clearFields := by
    rintro d ⟨hk, c, hc, he⟩
    exact ⟨hk, (none, c.2), by rw [children_clearFields]; exact List.mem_map.2 ⟨c, hc, rfl⟩, he⟩

theorem filled_pushChild {d : Draft} (hk : d.kind ≠ .macroInvocation) {n : Node}
    (hn : n.isExtra = false) (label : Option Field) : filled.holds (d.pushChild label n) :=
  ⟨hk, (label, n), by rw [children_pushChild]; exact List.mem_append_right _ List.mem_cons_self, hn⟩

theorem headed_pushChild {d : Draft} (hk : d.kind ≠ .macroInvocation) (hd : d.children.toList = [])
    {n : Node} (hn : n.isExtra = false) (label : Option Field) : headed.holds (d.pushChild label n) :=
  ⟨hk, (label, n), [], by rw [children_pushChild, hd]; rfl, hn⟩

end Trait

namespace Sheds

variable {d e : Draft}

/-- A draft that finishes as a node the grammar may look at. -/
theorem bares (h : d.Sheds e) (hk : d.kind ≠ .macroInvocation) (offset : Nat) :
    (d.finish offset).Bares (e.finish offset) :=
  ⟨h.finish offset, h.plain, .of_ne hk⟩

/-- One child more that is no extra. -/
theorem pushChild (h : d.Sheds e) {n m : Node} (hn : n.Sheds m) (hx : n.isExtra = false)
    (label : Option Field) : (d.pushChild label n).Sheds (e.pushChild label m) := by
  have hplain : ∀ c ∈ [((label, n) : Child)], c.2.isExtra = false := List.forall_mem_singleton.2 hx
  rw [pushChild_eq_extend, pushChild_eq_extend]
  refine h.extend (unobtrusive_of_plain hplain) ?_
  rw [significant_eq_self hplain]
  exact .cons hn .nil

/-- The children of a node more. -/
theorem unpack (h : d.Sheds e) {n m : Node} (hn : n.Sheds m) :
    (d.extend n.children).Sheds (e.extend m.children) :=
  h.extend hn.extras hn.children

/-- Extras more. -/
theorem extend_extras (h : d.Sheds e) {more : List Child} (hx : ∀ c ∈ more, c.2.isExtra = true)
    (hm : Unobtrusive more) : (d.extend more).Sheds e := by
  have he := h.extend hm (by rw [significant_of_extras hx]; exact .nil)
  rwa [Parse.extend_nil] at he

theorem isEmpty_of_filled (h : d.Sheds e) (hd : Trait.filled.holds d) :
    d.isEmpty = false ∧ e.isEmpty = false := by
  obtain ⟨-, c, hc, he⟩ := hd
  have hne {d : Draft} (hne : d.children.toList ≠ []) : d.isEmpty = false := by
    rw [isEmpty, ← Array.isEmpty_toList, List.isEmpty_eq_false_iff]
    exact hne
  have hmem : c ∈ significant d.children.toList := List.mem_filter.2 ⟨hc, by simp [he]⟩
  exact ⟨hne (List.ne_nil_of_mem hc),
    hne fun hnil => List.ne_nil_of_mem hmem (h.children.eq_nil_iff.2 hnil)⟩

end Sheds

end Draft

/-! ### Sessions -/

theorem Node.isExtra_ofComment (t : Token) : (ofComment t).isExtra = true := by
  unfold ofComment
  split
  · unfold leaf isExtra
    split <;> rfl
  · rfl

/-- Whether a diagnostic is about a parameter without a pattern: it points to a whole node. -/
def Diagnostic.isAnonymous (d : Diagnostic) : Bool :=
  d.code == Message.anonymousDeprecated.code || d.code == Message.anonymousForbidden.code

/-- A diagnostic without its place, if that is a whole node, at whose ends comments may stand. -/
def Diagnostic.unplaced (d : Diagnostic) : Diagnostic :=
  if d.isAnonymous then { d with range := none } else d

/-- What was reported, apart from where whole nodes stand. -/
def Report.unplaced (r : Report) : List Diagnostic := r.toList.map Diagnostic.unplaced

theorem Report.unplaced_add (r : Report) (d : Diagnostic) :
    (r.add d).unplaced = r.unplaced ++ [d.unplaced] := by
  simp [unplaced, add, toList]

theorem Report.unplaced_addAll (r : Report) (ds : List Diagnostic) :
    (r.addAll ds).unplaced = r.unplaced ++ ds.map Diagnostic.unplaced := by
  simp [unplaced, addAll, toList]

theorem Report.length_unplaced (r : Report) : r.unplaced.length = r.size := by
  simp [unplaced, toList, size]

/-- What may differ in a session that drops the comments: the open draft, and where a diagnostic
points that is about a whole node. -/
structure Twin where
  report : Report
  draft : Draft

/-- Another draft. -/
def Twin.withDraft (w : Twin) (draft : Draft) : Twin := { w with draft }

namespace Session

/-- The session that drops the comments. -/
def twin (s : Session) (w : Twin) : Session := { s with report := w.report, draft := w.draft }

/-- A session that keeps the comments and has a draft of the trait `T`, and what is its own in the one
that drops them: the same diagnostics, apart from where whole nodes stand, and a draft to which that of
the first sheds. -/
structure Sheds (T : Draft.Trait) (s : Session) (w : Twin) : Prop where
  report : w.report.unplaced = s.report.unplaced
  draft : s.draft.Sheds w.draft
  trait : T.holds s.draft
  comments : Unobtrusive s.comments

/-- The comments that a scan finds are quiet, wherever it begins. -/
theorem quiet_leading (s : Scanner) (next : Admitted) :
    ∀ c ∈ (s.scan contextual? next).leading, (Node.ofComment c).Quiet := by
  intro c hc
  by_cases hcut : s.here.cut = 0
  · -- some text has the same rest at the same place
    have hlength (n : Nat) : byteLength (List.replicate n 'a') = n := by
      induction n with
      | zero => rfl
      | succ n ih =>
        rw [List.replicate_succ, Text.byteLength_cons, ih, Nat.add_comm]
        rfl
    have hin : s.here.In (List.replicate s.here.offset 'a' ++ s.here.rest) :=
      ⟨hcut, _, rfl, hlength _⟩
    obtain ⟨leading, place, l, lineBreak, hscan, -, hleading, -⟩ := Scanner.scan_eq_moveTo next hin
    rw [hscan, Scanner.markLineBreak_leading] at hc
    obtain ⟨hl, hk⟩ := hleading.of_mem hc
    exact Node.quiet_ofComment hl hk
  · -- inside a character no comment is looked for
    have hnil : (s.scan contextual? next).leading = [] := by
      simp [Scanner.scan, Scanner.scanPastTrivia, Scanner.readToken, hcut]
    rw [hnil] at hc
    exact absurd hc List.not_mem_nil

variable {T : Draft.Trait} {s : Session} {w : Twin} {σ : Setting}

theorem isExtra_comments {c : Child} (h : c ∈ s.comments) : c.2.isExtra = true := by
  obtain ⟨t, -, rfl⟩ := List.mem_map.1 h
  exact Node.isExtra_ofComment t

/-- What is the twin's own after a token was taken. -/
def takenTwin (σ : Setting) (s : Session) (w : Twin) : Twin :=
  { w with report := w.report.addAll (s.scanner.token.faults.map (·.diagnostic σ.file σ.source)) }

namespace Sheds

/-- As much was reported in both. -/
theorem size (h : s.Sheds T w) : w.report.size = s.report.size := by
  rw [← Report.length_unplaced, h.report, Report.length_unplaced]

/-- The comments go to the draft, and the other draft stays as it is. -/
theorem flushed (h : s.Sheds T w) (hσ : σ.options.keepComments = true) : (s.flushed σ).Sheds T w := by
  have hdraft : (s.flushed σ).draft = s.draft.extend s.comments := if_pos hσ
  refine ⟨h.report, ?_, ?_, List.forall_mem_nil _⟩
  · rw [hdraft]
    exact h.draft.extend_extras (fun _ => isExtra_comments) h.comments
  · rw [hdraft]
    exact T.extend _ h.trait

theorem taken (h : s.Sheds T w) (hσ : σ.options.keepComments = true) (next : Admitted) :
    (s.taken σ next).Sheds T (s.takenTwin σ w) := by
  refine ⟨?_, (h.flushed hσ).draft, (h.flushed hσ).trait, fun c hc _ => ?_⟩
  · unfold takenTwin Session.taken
    rw [Report.unplaced_addAll, Report.unplaced_addAll, h.report]
  · obtain ⟨t, ht, rfl⟩ := List.mem_map.1 hc
    exact ⟨rfl, (quiet_leading _ next t ht).hasError_eq⟩

/-- Other drafts. -/
theorem withDraft {T' : Draft.Trait} {d d' : Draft} (h : s.Sheds T w) (hd : d.Sheds d')
    (ht : T'.holds d) : (s.withDraft d).Sheds T' (w.withDraft d') :=
  ⟨h.report, hd, ht, h.comments⟩

/-- Other reports. -/
theorem withReport {r r' : Report} (h : s.Sheds T w) (hr : r'.unplaced = r.unplaced) :
    ({ s with report := r } : Session).Sheds T { w with report := r' } :=
  ⟨hr, h.draft, h.trait, h.comments⟩

end Sheds

end Session

end ConcreteSyntax
