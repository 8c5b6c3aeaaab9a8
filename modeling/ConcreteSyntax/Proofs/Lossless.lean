import ConcreteSyntax.Proofs.Node.Preorder
import ConcreteSyntax.Proofs.Node.Tiled
import ConcreteSyntax.Proofs.Termination

/-! # Lossless trees

A byte that lies in no gap lies in exactly one leaf of a tiled node, if it lies in the node at all
(`Node.Tiled.leaves_at`). While a text is read, everything up to the end of what was consumed is tiled:
first the children of the open draft, then what is in the hands (`Invariant.tiled`). A tree is whole
unless comments are dropped or the limit of nesting is met; nothing of the text is lost in a whole tree
(`Tree.lossless_parse`). -/

namespace ConcreteSyntax

open Parse
open Text (Blank Place Spaced byteLength)

/-! ### Bytes and leaves -/

section

variable {text : List Char} {whole : Prop} {byte : Nat}

/-- The range holds the byte, counted as one. -/
def Range.holding (r : Range) (byte : Nat) : Nat := if r.contains byte then 1 else 0

theorem Range.contains_iff {r : Range} : r.contains byte = true ↔ r.start ≤ byte ∧ byte < r.stop := by
  simp [contains]

/-- A byte that lies in no gap of a row lies in exactly one of its ranges. -/
theorem Row.sum_holding (hb : ∀ {a b}, Spaced text a b → ¬ (a ≤ byte ∧ byte < b)) (hw : whole)
    {children : List Child} {a b : Nat} (h : Row text whole a children b) :
    (children.map fun c => c.2.range.holding byte).foldr (· + ·) 0 = (Range.mk a b).holding byte := by
  induction children generalizing a with
  | nil =>
    obtain rfl : a = b := h
    simp [Range.holding, Range.contains]
  | cons c children ih =>
    obtain ⟨hg, hle, hrest⟩ := h
    have hgap := hb (hg.2 hw)
    have hstart := hg.le
    have hstop := hrest.le
    rw [List.map_cons, List.foldr_cons, ih hrest]
    simp only [Range.holding, Range.contains_iff]
    split <;> split <;> split <;> omega

/-- **A byte in no gap lies in one leaf** of every node that it lies in, and in no other leaf. -/
theorem Node.Tiled.leaves_at (hb : ∀ {a b}, Spaced text a b → ¬ (a ≤ byte ∧ byte < b)) (hw : whole)
    {n : Node} (h : n.Tiled text whole) :
    n.leaves.countP (·.range.contains byte) = n.range.holding byte := by
  induction h with
  | @mk n le first row children ih =>
    rw [leaves_eq]
    split
    · simp [Range.holding, List.countP_cons]
    · next hne =>
      have hsum := (row hne).sum_holding hb hw
      rw [List.countP_flatMap, ← hsum]
      exact congrArg List.sum (List.map_congr_left ih)

end

variable {text : List Char}

/-! ### Hands and sessions -/

/-- What is in the hands stands over a stretch of the text, with gaps before and behind it. -/
def Hand.Covers (text : List Char) (whole : Prop) : Hand → Nat → Nat → Prop
  | .empty, a, b => Gap text whole a b
  | .node n, a, b =>
    Gap text whole a n.range.start ∧ n.Tiled text whole ∧ Gap text whole n.range.stop b
  | .draft d _, a, b => ∃ e, Tiles text whole a d.children.toList e ∧ Gap text whole e b
  | .lost, a, b => a ≤ b

namespace Hand.Covers

variable {whole : Prop} {h : Hand} {a b : Nat}

theorem le (hh : h.Covers text whole a b) : a ≤ b := by
  cases h with
  | empty => exact Gap.le hh
  | node n =>
    obtain ⟨hg, hn, hg'⟩ := hh
    exact Nat.le_trans hg.le (Nat.le_trans hn.le hg'.le)
  | draft d F =>
    obtain ⟨e, htiles, hg⟩ := hh
    exact Nat.le_trans htiles.row.le hg.le
  | lost => exact hh

theorem mono {whole' : Prop} (hh : h.Covers text whole a b) (hw : whole' → whole) :
    h.Covers text whole' a b := by
  cases h with
  | empty => exact Gap.mono hh hw
  | node n => exact ⟨hh.1.mono hw, hh.2.1.mono hw, hh.2.2.mono hw⟩
  | draft d F =>
    obtain ⟨e, htiles, hg⟩ := hh
    exact ⟨e, htiles.mono hw, hg.mono hw⟩
  | lost => exact hh

/-- Changes to what is in the hands leave it where it is. -/
theorem becomes {h' : Hand} {o : Bool} (hh : h.Covers text whole a b) (hb : h.Becomes o h') :
    h'.Covers text whole a b := by
  cases hb with
  | same => exact hh
  | kind n => exact ⟨hh.1, Node.tiled_withKind hh.2.1 _, hh.2.2⟩
  | type n =>
    rw [Covers, n.asType_range]
    exact ⟨hh.1, Node.tiled_asType hh.2.1, hh.2.2⟩
  | path n =>
    rw [Covers, n.asPath_range]
    exact ⟨hh.1, Node.tiled_asPath hh.2.1, hh.2.2⟩
  | chain n =>
    rw [Covers, n.asLetChain_range]
    exact ⟨hh.1, Node.tiled_asLetChain hh.2.1, hh.2.2⟩
  | ambiguous n => exact ⟨hh.1, Node.tiled_withFlags hh.2.1 _, hh.2.2⟩
  | error n => exact ⟨hh.1, Node.tiled_withFlags hh.2.1 _, hh.2.2⟩
  | retag d => exact hh
  | explained d => exact hh
  | nothing d hd =>
    obtain ⟨e, htiles, hg⟩ := hh
    have hnil : d.children.toList = [] := by simpa [Draft.isEmpty] using hd
    rw [hnil] at htiles
    obtain rfl : a = e := htiles.row
    exact hg
  | lost => exact hh.le

end Hand.Covers

/-- Comments before a token stand in a row. -/
theorem Leading.tiles {whole : Prop} {a b : Nat} {comments : List Token}
    (h : Leading text a comments b) :
    Tiles text whole a (comments.map fun c => (none, Node.ofComment c))
      (((comments.getLast?).map (·.range.stop)).getD a) := by
  induction comments generalizing a with
  | nil => exact .nil a
  | cons c comments ih =>
    obtain ⟨hb, hlt, hl, -, hrest⟩ := h
    obtain ⟨hn, hr⟩ : (Node.ofComment c).Tiled text whole ∧ (Node.ofComment c).range = c.range :=
      Node.tiled_ofComment hl (Nat.le_of_lt hlt)
    have hlast : (((c :: comments).getLast?).map (·.range.stop)).getD a =
        ((comments.getLast?).map (·.range.stop)).getD c.range.stop := by
      rw [List.getLast?_cons]
      cases comments.getLast? <;> rfl
    obtain ⟨hrow, htiled⟩ := ih hrest
    rw [hlast]
    refine ⟨?_, List.forall_mem_cons.2 ⟨hn, htiled⟩⟩
    simp only [List.map_cons, Row, hr]
    exact ⟨.of_blank hb, Nat.le_of_lt hlt, hrow⟩

namespace Session

/-- Nothing was left out of the tree so far. -/
def Whole (options : Options) (s : Session) : Prop :=
  options.keepComments = true ∧ s.report.isLimited = false

theorem Whole.of_grows {options : Options} {s s' : Session} (hr : s.report.Grows s'.report)
    (h : s'.Whole options) : s.Whole options := by
  refine ⟨h.1, Bool.eq_false_iff.2 fun hl => ?_⟩
  exact Bool.eq_false_iff.1 h.2 (hr.isLimited hl)

/-- The open draft, from `base` on, and what is in the hands stand over all that was consumed. -/
def Tiled (text : List Char) (options : Options) (base : Nat) (h : Hand) (s : Session) : Prop :=
  ∃ e, Tiles text (s.Whole options) base s.draft.children.toList e ∧
    h.Covers text (s.Whole options) e s.consumedEnd

variable {options : Options} {base : Nat} {h : Hand} {s s' : Session}

/-- A step that leaves the tree as it is. -/
theorem Tiled.of_same (hs : s.Tiled text options base h) (hr : s.report.Grows s'.report)
    (hd : s'.draft.children = s.draft.children) (hc : s'.consumedEnd = s.consumedEnd) :
    s'.Tiled text options base h := by
  obtain ⟨e, htiles, hcovers⟩ := hs
  have hw : s'.Whole options → s.Whole options := .of_grows hr
  exact ⟨e, hd ▸ htiles.mono hw, hc ▸ hcovers.mono hw⟩

/-- A node in the hands goes into the open draft. -/
theorem Tiled.push {n : Node} (hs : s.Tiled text options base (.node n)) (label : Option Field) :
    (s.withDraft (s.draft.pushChild label n)).Tiled text options base .empty := by
  obtain ⟨e, htiles, hg, hn, hg'⟩ := hs
  obtain ⟨e', htiles', hg''⟩ := htiles.push label hn hg hg'
  have hchildren : (s.draft.pushChild label n).children.toList =
      s.draft.children.toList ++ [(label, n)] := by
    simp [Draft.pushChild]
  exact ⟨e', by rwa [withDraft, hchildren], hg''⟩

/-- Nodes in a row go into the open draft. -/
theorem Tiled.extend {more : List Child} {a b : Nat}
    (hs : ∃ e, Tiles text (s.Whole options) base s.draft.children.toList e ∧
      Gap text (s.Whole options) e a)
    (hm : Tiles text (s.Whole options) a more b) (hg : Gap text (s.Whole options) b s.consumedEnd)
    {d : Draft} (hd : d.children = s.draft.children) :
    (s.withDraft (d.extend more)).Tiled text options base .empty := by
  obtain ⟨e, htiles, hg'⟩ := hs
  obtain ⟨e', htiles', hg''⟩ := htiles.append hg' hm hg
  have hchildren : (d.extend more).children.toList = s.draft.children.toList ++ more := by
    simp [Draft.extend, hd]
  exact ⟨e', by rwa [withDraft, hchildren], hg''⟩

/-- The comments before a token go into the open draft. -/
theorem Tiled.flush {σ : Setting} (hσ : σ.options = options) (hsound : s.Sound text)
    (hs : s.Tiled text options base .empty) :
    (s.flushed σ).Tiled text options base .empty := by
  obtain ⟨e, htiles, hg⟩ := hs
  by_cases hk : options.keepComments = true
  · obtain ⟨e', htiles', hg'⟩ := htiles.append hg hsound.leading.tiles (.refl _)
    have hchildren : (s.flushed σ).draft.children.toList =
        s.draft.children.toList ++ s.comments := by
      simp [flushed, hσ, hk, Draft.extend]
    exact ⟨e', by rwa [hchildren], hg'⟩
  · have hchildren : (s.flushed σ).draft = s.draft := by simp [flushed, hσ, hk]
    have htiles : Tiles text True s.consumedEnd s.comments (s.flushed σ).consumedEnd :=
      hsound.leading.tiles
    have hle : s.consumedEnd ≤ (s.flushed σ).consumedEnd := htiles.row.le
    exact ⟨e, by rwa [hchildren], Nat.le_trans hg.le hle, fun hw => absurd hw.1 hk⟩

end Session

/-! ### The invariant -/

/-- What was consumed is tiled. -/
def Invariant.tiled (text : List Char) (options : Options) : Invariant text options Nat where
  holds base h _ s := s.Tiled text options base h
  stands _ hs := hs
  becomes _ _ hh hs := by
    obtain ⟨e, htiles, hcovers⟩ := hs
    exact ⟨e, htiles, hcovers.becomes hh⟩
  beside hb hs := hs.of_same hb.report (by rw [hb.draft]) hb.consumedEnd
  reshaped _ hs := hs
  flushed hσ hsound hs := hs.flush hσ.options hsound
  taken := by
    intro base F σ s as? next hσ hsound hk has hs
    obtain ⟨e, htiles, hg⟩ := hs.flush hσ.options hsound
    have hgrows : s.report.Grows (s.taken σ next).report := Report.grows_addAll _ _
    have hw : (s.taken σ next).Whole options → s.Whole options := .of_grows hgrows
    have hle : s.scanner.token.range.start ≤ s.scanner.token.range.stop := by
      rw [hsound.scanner.range]
      exact hsound.scanner.le
    obtain ⟨hn, hr⟩ : (Node.ofToken s.scanner.token as?).Tiled text ((s.taken σ next).Whole options) ∧
        (Node.ofToken s.scanner.token as?).range = s.scanner.token.range :=
      Node.tiled_ofToken hsound.scanner.laid hle as?
    have hblank : Blank text (s.flushed σ).consumedEnd s.scanner.token.range.start := by
      rw [hsound.scanner.range]
      exact (hsound.flushed σ).leading
    refine ⟨e, htiles.mono hw, ?_, hn, ?_⟩
    · rw [hr]
      exact (hg.mono hw).trans (.of_blank hblank)
    · rw [hr]
      exact .refl _
  pushed _ hs := hs.push _
  unpacked := by
    rintro base s token - hne ⟨e, htiles, hg, hn, hg'⟩
    exact .extend ⟨e, htiles, hg⟩ (hn.tiling hne).toTiles hg' rfl
  spread := by
    rintro base s d ⟨e, htiles, e', htiles', hg⟩
    exact .extend ⟨e, htiles, .refl e⟩ htiles' hg rfl
  renamed _ _ hs := hs
  failed := by
    rintro base h F s - ⟨e, htiles, hcovers⟩
    refine ⟨e, ?_, hcovers⟩
    have hfields : (s.draft.setKind .error).clearFields.children.toList =
        s.draft.children.toList.map fun c => (none, c.2) := by
      simp [Draft.clearFields, Draft.setKind]
    rw [Session.withDraft, hfields]
    exact htiles.relabel fun _ => none
  opened := by
    rintro base h F F₀ s kind - - ⟨e, htiles, hcovers⟩
    refine ⟨e, ⟨e, .nil e, hcovers⟩, fun {t F'} hon ht => ?_⟩
    have hw : t.Whole options → s.Whole options := .of_grows hon.report
    exact ⟨e, htiles.mono hw, ht⟩
  reopened := by
    rintro base F F₀ s d ⟨e, htiles, e', htiles', hg⟩
    refine ⟨e, ⟨e', htiles', hg⟩, fun {t F'} hon ht => ?_⟩
    have hw : t.Whole options → s.Whole options := .of_grows hon.report
    exact ⟨e, htiles.mono hw, ht⟩
  finished := by
    rintro base F F₀ s d - - ⟨e, htiles, e', htiles', hg⟩
    exact ⟨e, htiles, htiles'.finish hg⟩
  missing := by
    rintro base F s kind - - - ⟨e, htiles, hg⟩
    exact ⟨e, htiles, hg, Node.tiled_of_leaf rfl (Nat.le_refl _), .refl _⟩
  limited := by
    rintro base h F s s' - hb hl ⟨e, htiles, hcovers⟩
    have hw : ¬ s'.Whole options := fun hw => Bool.eq_false_iff.1 hw.2 hl
    refine ⟨e, ?_, ?_⟩
    · rw [hb.draft]
      exact htiles.mono fun h => absurd h hw
    · rw [hb.consumedEnd]
      exact ⟨hcovers.le, fun h => absurd h hw⟩

/-! ### Whole trees -/

/-- Nothing of its text is lost in a tree. -/
structure Tree.Lossless (t : Tree) : Prop where
  /-- The root spans the text. -/
  root : t.root.range = ⟨0, t.source.utf8ByteSize⟩
  /-- Below the root, a node with children begins with the first of them and ends with the last. -/
  hull : ∀ c ∈ t.root.children, ∀ n ∈ c.2.preorder,
    (∀ d ∈ n.children.head?, d.2.range.start = n.range.start) ∧
      ∀ d ∈ n.children.getLast?, d.2.range.stop = n.range.stop
  /-- No node ends before it begins. -/
  forward : ∀ n ∈ t.root.preorder, n.range.start ≤ n.range.stop
  /-- A child ends before the next one begins, with only white space in between. -/
  order : ∀ n ∈ t.root.preorder, n.children.IsChain fun c d =>
    c.2.range.stop ≤ d.2.range.start ∧
      Spaced t.source.toList c.2.range.stop d.2.range.start
  /-- Before the first child of the root and behind the last there is only white space. -/
  margins : (∀ c ∈ t.root.children.head?, Spaced t.source.toList 0 c.2.range.start) ∧
    (∀ c ∈ t.root.children.getLast?,
      Spaced t.source.toList c.2.range.stop t.source.utf8ByteSize) ∧
    (t.root.children = [] → Spaced t.source.toList 0 t.source.utf8ByteSize)
  /-- A byte of any character but white space lies in exactly one leaf. -/
  leaf : ∀ {offset : Nat} {c : Char} {rest : List Char}, Place t.source.toList offset (c :: rest) →
    Text.isWhiteSpace c = false → ∀ byte, offset ≤ byte → byte < offset + c.utf8Size →
      t.root.leaves.countP (·.range.contains byte) = 1

/-- The root of a tree over a row of children. -/
theorem Tree.lossless_of_tiles {t : Tree} {e : Nat}
    (hr : t.root.range = ⟨0, t.source.utf8ByteSize⟩)
    (ht : Tiles t.source.toList True 0 t.root.children e)
    (hg : Gap t.source.toList True e t.source.utf8ByteSize) : t.Lossless := by
  have hbelow : ∀ c ∈ t.root.children, ∀ n ∈ c.2.preorder, n.Tiled t.source.toList True :=
    fun c hc => Node.forall_mem_preorder (fun _ hn => hn.children) (ht.tiled c hc)
  have hall : ∀ n ∈ t.root.preorder, n = t.root ∨ n.Tiled t.source.toList True := by
    intro n hn
    rw [Node.preorder_eq, List.mem_cons] at hn
    refine hn.imp_right fun hn => ?_
    obtain ⟨c, hc, hn⟩ := List.mem_flatMap.1 hn
    exact hbelow c hc n hn
  refine ⟨hr, fun c hc n hn => ⟨(hbelow c hc n hn).first, fun d hd => ?_⟩, ?_, ?_, ⟨?_, ?_, ?_⟩, ?_⟩
  · have hne : n.children ≠ [] := fun hnil => by simp [hnil] at hd
    exact ((hbelow c hc n hn).row hne).stop_getLast hd
  · intro n hn
    rcases hall n hn with rfl | hn
    · rw [hr]
      exact Nat.zero_le _
    · exact hn.le
  · intro n hn
    rcases hall n hn with rfl | hn
    · exact ht.row.isChain trivial
    · by_cases hne : n.children = []
      · rw [hne]
        exact .nil
      · exact (hn.row hne).isChain trivial
  · exact fun c hc => ht.row.spaced_head trivial hc
  · exact fun c hc => ht.row.stop_getLast hc ▸ hg.2 trivial
  · intro hnil
    have hrow := ht.row
    rw [hnil] at hrow
    obtain rfl : 0 = e := hrow
    exact hg.2 trivial
  · intro offset c rest hp hc byte hle hlt
    -- the byte lies in no gap, so it lies in the row of children
    have hb {a b : Nat} (hs : Spaced t.source.toList a b) : ¬ (a ≤ byte ∧ byte < b) := by
      intro hin
      rcases hs with rfl | hs
      · omega
      · exact Bool.eq_false_iff.1 hc (hs.isWhiteSpace_of_byte hp ⟨hle, hlt⟩ hin)
    have hsize : byte < t.source.utf8ByteSize := by
      have := hp.offset_add
      rw [Text.byteLength_toList, Text.byteLength_cons] at this
      omega
    have hin : byte < e := by
      have := hb (hg.2 trivial)
      omega
    have hne : t.root.children ≠ [] := by
      intro hnil
      have hrow := ht.row
      rw [hnil] at hrow
      obtain rfl : 0 = e := hrow
      omega
    rw [Node.leaves_eq, if_neg hne, List.countP_flatMap]
    have hsum := ht.row.sum_holding hb trivial
    have hchild : t.root.children.map (fun c => c.2.leaves.countP (·.range.contains byte)) =
        t.root.children.map fun c => c.2.range.holding byte :=
      List.map_congr_left fun c hc => (ht.tiled c hc).leaves_at hb trivial
    exact (congrArg List.sum hchild).trans (hsum.trans (if_pos (by simp [Range.contains, hin])))

/-- At the end of a reading the whole text is tiled. -/
theorem Setting.run_tiled {σ : Setting} {s : Session} (h : σ.run? = some s) :
    ∃ e, Tiles σ.source.toList (s.Whole σ.options) 0 s.draft.children.toList e ∧
      Gap σ.source.toList (s.Whole σ.options) e σ.source.utf8ByteSize := by
  have hsound := (σ.run_onward h).sound
  obtain ⟨hend, hleading⟩ := σ.run_atEnd h
  have hstart : (Session.start σ.source).Tiled σ.source.toList σ.options 0 .empty :=
    ⟨0, .nil 0, .refl 0⟩
  obtain ⟨e, htiles, hg⟩ := σ.run_keeps (.tiled _ _) hstart h
  have hblank : Blank σ.source.toList s.consumedEnd s.scanner.start.offset := by
    have := hsound.leading
    rwa [hleading] at this
  have hoffset : s.scanner.start.offset = σ.source.utf8ByteSize := by
    have hplace := hsound.scanner.start.2.offset_add
    rw [(hsound.scanner.atEnd hend).1, Text.byteLength_toList] at hplace
    simpa using hplace
  exact ⟨e, htiles, hg.trans (hoffset ▸ .of_blank hblank)⟩

/-- The limit of nesting was reported by a reading just if a diagnostic of the tree says so. -/
theorem Session.isLimited_iff (s : Session) (σ : Setting) :
    s.report.isLimited = true ↔ ∃ d ∈ (s.tree σ).diagnostics, d.code = Message.nestingLimit.code := by
  have hperm := List.mergeSort_perm s.report.items.toList fun d e => decide (d.sortKey ≤ e.sortKey)
  simp only [Report.isLimited, List.any_eq_true, beq_iff_eq, tree, Report.sortByPosition,
    Report.toList, hperm.mem_iff]

/-- **Lossless trees**: if comments are kept and the limit of nesting is not reported, nothing of the
text is lost. -/
theorem Tree.lossless_parse {file source : String} {options : Options}
    (hk : options.keepComments = true)
    (hl : ∀ d ∈ (parse file source options).diagnostics, d.code ≠ Message.nestingLimit.code) :
    (parse file source options).Lossless := by
  obtain ⟨s, hrun, htree⟩ := parse_ends file source options
  have hrun : ({ file, source, options } : Setting).run? = some s := hrun false
  rw [htree] at hl ⊢
  have hwhole : s.Whole options := by
    refine ⟨hk, Bool.eq_false_iff.2 fun hlimited => ?_⟩
    obtain ⟨d, hd, hcode⟩ := (s.isLimited_iff _).1 hlimited
    exact hl d hd hcode
  obtain ⟨e, htiles, hg⟩ := Setting.run_tiled hrun
  exact lossless_of_tiles rfl (htiles.mono fun _ => hwhole) (hg.mono fun _ => hwhole)

/-- A tree says nothing of the limit of nesting if the reading did not report it. -/
theorem Tree.code_ne_of_run {file source : String} {options : Options}
    (h : (({ file, source, options } : Setting).run?.getD (.start source)).report.isLimited = false) :
    ∀ d ∈ (parse file source options).diagnostics, d.code ≠ Message.nestingLimit.code := by
  intro d hd hcode
  exact Bool.eq_false_iff.1 h ((Session.isLimited_iff _ _).2 ⟨d, hd, hcode⟩)

/-- Nothing is lost of a function that breaks off, with a comment and a stray quote inside. -/
theorem Tree.lossless_parse_brokenOff :
    (∀ d ∈ (parse "f.rs" "fn f(x \x7b /* y */ ' 1" {}).diagnostics,
      d.code ≠ Message.nestingLimit.code) ∧ (parse "f.rs" "fn f(x \x7b /* y */ ' 1" {}).Lossless := by
  have h : ∀ d ∈ (parse "f.rs" "fn f(x \x7b /* y */ ' 1" {}).diagnostics,
      d.code ≠ Message.nestingLimit.code := code_ne_of_run (by decide +kernel)
  exact ⟨h, lossless_parse rfl h⟩

end ConcreteSyntax
