import ConcreteSyntax.Proofs.Expression.Readable
import ConcreteSyntax.Proofs.Lossless

/-! # A text of one statement

A text that is one statement is read to a tree with one child, and without a diagnostic, if the
statement is read up to the end of the text (`Tree.parse_only`): the members of a text are read in
turns, and the second turn finds the end. -/

namespace ConcreteSyntax

open Parse
open Text (byteLength)

variable {source : String} {draft : Draft} {cs word rest : List Char} {kind : Kind} {s : Session}
  {σ : Setting} {text : List Char} {depth : Nat} {P : Node → Prop}

/-! ### Both ends of a text -/

namespace Session

theorem Before.atEnd (h : s.Before source draft []) :
    s.kind = .endOfFile ∧ s.flushed σ = s := by
  obtain ⟨offset, h⟩ := h
  have hnil : s.scanner.kind = .endOfFile ∧ s.scanner.leading = [] := by
    obtain ⟨a, ha, hs | hs⟩ := h.scanner
    · rw [hs]
      exact Scanner.facing_nil ha.literalSuffix offset
    · rw [hs, Scanner.joinGreater_eq_self]
      · exact Scanner.facing_nil ha.literalSuffix offset
      · rw [(Scanner.facing_nil ha.literalSuffix offset).1]
        nofun
  exact ⟨hnil.1, flushed_of_leading hnil.2⟩

/-- A session at the start of a text faces the whole of it. -/
theorem faces_start (source : String) :
    (start source).Faces source (.ofKind .sourceFile) 0 source.toList := by
  refine ⟨sound_start _, ⟨.usual, .inl rfl, .inl ?_⟩, rfl, rfl, rfl⟩
  show (Scanner.ofText source).scan Lexeme.contextual? .usual = _
  rw [Scanner.scan_eq]
  rfl

end Session

/-! ### The only statement -/

/-- What a row of statements is read to that has one member. -/
def EndsWith (source : String) (draft : Draft) (P : Node → Prop) (s : Session) : Prop :=
  ∃ n, P n ∧ s.Before source (draft.push n) []

/-- A statement up to the end of the text, as a member of a row. -/
theorem Parse.Gives.onlyMember
    (h : Gives source.toList σ (Grammar.upTo depth).statement s
      fun _ t => EndsWith source draft P t) :
    Gives source.toList σ
      ((Grammar.upTo depth).rowMember { inBraces := false, itemsOnly := false }) s
      fun _ t => EndsWith source draft P t := by
  refine .step rfl (.bind (m := (Grammar.upTo depth).statement) h (fun _ => ?_) ?_)
  · refine .of_rule depth (h := .empty) (q := fun _ => ⟨.empty, none, false, false, .proper⟩)
      (.look (fun _ _ => rfl) fun t _ => ?_)
    split
    · exact .recoverUntil
    · exact .pure .forget
  · rintro ⟨⟩ t ⟨n, hn, ht⟩
    have hend : t.isAt .endOfFile = true := beq_iff_eq.2 (ht.atEnd (σ := σ)).1
    refine .step rfl ?_
    rw [hend, Bool.not_true, Bool.and_false]
    exact .pure ⟨n, hn, ht⟩

/-- A file with one statement, whose first token is known. -/
theorem Parse.Gives.onlyStatement {offset : Nat} (hs : s.Upon source draft offset kind word rest)
    (hk : kind ≠ .shebang ∧ kind ≠ .endOfFile ∧ kind ≠ .closeBrace)
    (h : Gives source.toList σ (Grammar.upTo depth).statement s
      fun _ t => EndsWith source draft P t) :
    Gives source.toList σ (Grammar.upTo depth).sourceFile s
      fun _ t => t.report = .empty ∧ ∃ n, P n ∧ t.draft = draft.push n := by
  have hstatements : Gives source.toList σ
      ((Grammar.upTo depth).statements { inBraces := false, itemsOnly := false }) s
      fun _ t => EndsWith source draft P t := by
    refine .repeatTwice (P := EndsWith source draft P)
      (.of_rule depth .rowTurn) (.step hs.flush (.step rfl ?_)) ?_
    · rw [hs.kind_eq]
      split
      · exact absurd rfl hk.2.1
      · exact absurd rfl hk.2.2
      · exact h.onlyMember.bind (fun _ => .pure _) fun _ t ht => .pure ⟨rfl, ht⟩
    · rintro t ⟨n, hn, ht⟩
      obtain ⟨hend, hflushed⟩ := ht.atEnd (σ := σ)
      refine ⟨t, bind_eq_some.2 ⟨(), t, ?_, bind_eq_some.2 ⟨t.kind, t, rfl, ?_⟩⟩, n, hn, ht⟩
      · rw [flush_run, hflushed]
      · rw [hend]
        rfl
  have hshebang : s.isAt .shebang = false := (hs.isAt .shebang).trans (beq_eq_false_iff_ne.2 hk.1)
  refine .step (ifAt_other hshebang) (.bind hstatements (fun _ => ?_) ?_)
  · exact .of_rule depth .flush
  · rintro ⟨⟩ t ⟨n, hn, ht⟩
    have hflush : flush σ t = some ((), t) := by rw [flush_run, ht.atEnd.2]
    obtain ⟨offset, ht⟩ := ht
    exact .of_run hflush ⟨ht.report, n, hn, ht.draft⟩

/-- A text that is read to one child without a report, unless the limit of nesting is met. -/
theorem Tree.parse_only {file : String} {options : Options}
    (hgives : ∀ depth, Gives source.toList { file, source, options } (Grammar.upTo depth).sourceFile
      (.start source) fun _ t =>
        t.report = .empty ∧ ∃ n, P n ∧ t.draft = (Draft.ofKind .sourceFile).push n)
    (h : ∀ d ∈ (parse file source options).diagnostics, d.code ≠ Message.nestingLimit.code) :
    (parse file source options).diagnostics = [] ∧
      ∃ n, (parse file source options).root.children = [(none, n)] ∧ P n := by
  obtain ⟨s, hrun, htree⟩ := parse_ends file source options
  have hrun : ({ file, source, options } : Setting).run? = some s := hrun false
  rw [htree] at h ⊢
  rcases hgives _ () s (Setting.run_eq_some hrun) with ⟨-, hlimited⟩ | ⟨hreport, n, hn, hdraft⟩
  · obtain ⟨d, hd, hcode⟩ := (s.isLimited_iff _).1 hlimited
    exact absurd hcode (h d hd)
  · refine ⟨?_, n, ?_, hn⟩
    · show s.report.sortByPosition.toList = []
      rw [hreport]
      simp [Report.sortByPosition, Report.empty, Report.toList]
    · show s.draft.children.toList = _
      rw [hdraft]
      rfl

end ConcreteSyntax
