import ConcreteSyntax.Proofs.Concatenation
import ConcreteSyntax.Proofs.Expression.Delimited

/-! # Parameters that are not closed

A brace that is skipped in a list of parameters is closed by the function itself. So a function that
breaks off there does not reach into what follows on the next line
(`Tree.parse_unclosedParameters`): each step of its reading is known, and it leaves nothing behind
but its node and what was reported. -/

namespace ConcreteSyntax

open Parse
open Text (byteLength)

/-! ### Tokens -/

theorem Scanner.facing_spells {cs word rest : List Char} {kind : Kind} (h : Spells cs kind word rest)
    (offset gap : Nat) : facing .usual { offset, rest := List.replicate gap ' ' ++ cs } =
      upon (offset + gap) kind word rest :=
  facing_spelled (h .usual (.inl rfl)) rfl offset gap

theorem spells_brace {c : Char} {kind : Kind} (rest : List Char)
    (h : (c, kind) ∈ [('\x7b', Kind.openBrace), ('\x7d', .closeBrace)]) :
    Spells (c :: rest) kind [c] rest := by
  have hall : ∀ p ∈ [('\x7b', Kind.openBrace), ('\x7d', .closeBrace)], ([p.1], p.2) ∈ Lexeme.marks ∧
      Lexeme.isLongest [p.1] = true ∧ Text.isWhiteSpace p.1 = false ∧ p.1 ≠ '#' ∧ p.1 ≠ '/' := by
    decide +kernel
  obtain ⟨hmark, hlong, hblank, hhash, hslash⟩ := hall _ h
  exact spells_mark hmark (fun d _ => Lexeme.extends?_of_isLongest hlong d)
    ⟨c, rest, rfl, hblank, hhash, fun h => absurd h hslash⟩

/-- The session behind a simple token that went into the open draft. -/
def Session.behind (s : Session) (label : Option Field) (kind : Kind) (start stop : Nat)
    (scanner : Scanner) : Session :=
  { s with
    scanner
    consumedEnd := stop
    draft := s.draft.pushChild label (.simple kind ⟨start, stop⟩) }

section

variable {σ : Setting} {s : Session} {kind : Kind} {rest : List Char} (offset : Nat) (word : List Char)

/-- Taking a simple token into the open draft. -/
theorem Parse.consumeWith_upon {label : Option Field} {as? : Option Kind} {next : Scanner}
    (hs : s.scanner = .upon offset kind word rest) (hk : kind.becomesLeaf = true)
    (has : as? = none ∨ as? = some kind)
    (hnext : .facing .usual { offset := offset + byteLength word, rest } = next) :
    consumeWith label as? .usual σ s =
      some ((), s.behind label kind offset (offset + byteLength word) next) := by
  have hend : s.kind ≠ .endOfFile := by
    rw [Session.kind, hs]
    rintro (rfl : kind = _)
    cases hk
  have hsentinel : kind ≠ .errorSentinel := by
    rintro rfl
    cases hk
  have hnode : Node.ofToken s.scanner.token as? = .simple kind ⟨offset, offset + byteLength word⟩ := by
    rw [hs, Scanner.ofToken_upon as? hk (by rcases has with rfl | rfl <;> simp [hsentinel])]
    rcases has with rfl | rfl <;> rfl
  rw [consumeWith_run, if_neg hend, hnode]
  refine congrArg (fun s => some ((), s)) ?_
  unfold Session.behind Session.taken
  rw [← hnext, Session.flushed_of_leading (by rw [hs]; rfl), Scanner.scan_eq, hs]
  simp [Scanner.upon, Report.addAll]

theorem Parse.flush_upon (hs : s.scanner = .upon offset kind word rest) : flush σ s = some ((), s) := by
  rw [flush_run, Session.flushed_of_leading (by rw [hs]; rfl)]

end

/-! ### The function -/

section

variable {σ : Setting} {s : Session} {g : Grammar} {more : List Char}

/-- The tokens of the function that breaks off. -/
theorem unclosed_tokens (more : List Char) :
    Scanner.facing .usual { offset := 0, rest := "fn f( \x7b \x7d".toList ++ more } =
        .upon 0 .fnKw ['f', 'n'] (" f( \x7b \x7d".toList ++ more) ∧
      Scanner.facing .usual { offset := 2, rest := " f( \x7b \x7d".toList ++ more } =
        .upon 3 .identifier ['f'] ("( \x7b \x7d".toList ++ more) ∧
      Scanner.facing .usual { offset := 4, rest := "( \x7b \x7d".toList ++ more } =
        .upon 4 .openParen ['('] (" \x7b \x7d".toList ++ more) ∧
      Scanner.facing .usual { offset := 5, rest := " \x7b \x7d".toList ++ more } =
        .upon 6 .openBrace ['\x7b'] (" \x7d".toList ++ more) ∧
      Scanner.facing .usual { offset := 7, rest := " \x7d".toList ++ more } =
        .upon 8 .closeBrace ['\x7d'] more := by
  have hfn (rest : List Char) : Spells (['f', 'n'] ++ ' ' :: rest) .fnKw ['f', 'n'] (' ' :: rest) :=
    spells_wordBlank (Lexeme.isWord_of_all (by decide) (by decide))
  have hname (rest : List Char) : Spells (['f'] ++ '(' :: rest) .identifier ['f'] ('(' :: rest) :=
    spells_word (Lexeme.isWord_of_all (by decide) (by decide))
      (fun _ hc => Option.some.inj hc ▸ by decide) fun _ hc => Option.some.inj hc ▸ by decide
  exact ⟨Scanner.facing_spells (hfn _) 0 0, Scanner.facing_spells (hname _) 2 1,
    Scanner.facing_spells (spells_delimiter '(' .openParen _ (by decide)) 4 0,
    Scanner.facing_spells (spells_brace _ (by decide)) 5 1,
    Scanner.facing_spells (spells_brace _ (by decide)) 7 1⟩

/-- The parameters that are not closed, an error that holds the brace. -/
def Node.unclosedParameters : Node :=
  { kind := .error
    range := ⟨4, 7⟩
    flags := { error := true }
    children := [(none, .simple .openParen ⟨4, 5⟩), (none, .simple .openBrace ⟨6, 7⟩)] }

/-- What is reported of the function that breaks off, in this order. -/
def Report.addUnclosed (r : Report) (file : String) : Report :=
  (r.add (.located file ⟨6, 7⟩ .unexpected ["\x7b"])).add (.located file ⟨4, 5⟩ .unclosed ["("])

theorem reportUnexpected_run (h : s.scanner.token.faults = []) : reportUnexpected σ s = some ((), { s with
    report := s.report.add
      (.located σ.file s.scanner.token.range .unexpected [s.scanner.tokenText σ.source]) }) := by
  refine bind_eq_some.2 ⟨false, s, ?_, rfl⟩
  show some (!s.scanner.token.faults.isEmpty, s) = _
  rw [h]
  rfl

/-- Two turns of a row, of which the second one is the last. -/
theorem repeatWhile_two {turn : Parse Bool} {t u : Session} (hσ : σ.watches = false)
    (h : turn σ s = some (true, t)) (h' : turn σ t = some (false, u)) :
    repeatWhile turn σ s = some ((), u) := by
  let step : Parse (Step Unit Unit) := do return if ← turn then .again () else .done ()
  have hagain : step σ s = some (.again (), t) := bind_eq_some.2 ⟨true, t, h, rfl⟩
  have hdone : step σ t = some (.done (), u) := bind_eq_some.2 ⟨false, u, h', rfl⟩
  show iterate (fun () => step) (4 * σ.source.utf8ByteSize + 14 + 1 + 1) () σ s = _
  rw [iterate_of_again hσ hagain, iterate_of_done hdone]

/-- The brace in the list of parameters is skipped. -/
theorem recoverInList_run (hσ : σ.watches = false)
    (hs : s.scanner = .upon 6 .openBrace ['\x7b'] (" \x7d".toList ++ more))
    (htext : s.scanner.tokenText σ.source = "\x7b") :
    ∃ remarks, recoverInList Grammar.parameterList σ s = some (false, { s with
      scanner := .upon 8 .closeBrace ['\x7d'] more
      report := s.report.add (.located σ.file ⟨6, 7⟩ .unexpected ["\x7b"])
      openBraces := s.openBraces + 1
      consumedEnd := 7
      remarks
      draft := s.draft.push (.simple .openBrace ⟨6, 7⟩) }) := by
  obtain ⟨-, -, -, -, hclose⟩ := unclosed_tokens more
  obtain ⟨_, report, braces, stop, declined, remarks, draft⟩ := s
  obtain rfl := hs
  let brace := Scanner.upon 6 .openBrace ['\x7b'] (" \x7d".toList ++ more)
  let closing := Scanner.upon 8 .closeBrace ['\x7d'] more
  let report' := report.add (.located σ.file ⟨6, 7⟩ .unexpected ["\x7b"])
  have hreport : reportUnexpected σ
      ⟨brace, report, braces, stop, declined, remarks.push (.listRecovery 6), draft⟩ =
      some ((), ⟨brace, report', braces, stop, declined, remarks.push (.listRecovery 6), draft⟩) := by
    rw [reportUnexpected_run rfl, htext]
    rfl
  let skipped : Session := Session.behind
    ⟨brace, report', braces + 1, stop, declined, remarks.push (.listRecovery 6), .ofKind .error⟩
    none .openBrace 6 7 closing
  have hskip : skipInList Grammar.parameterList σ
      ⟨brace, report', braces, stop, declined, remarks.push (.listRecovery 6), .ofKind .error⟩ =
      some (true, skipped) := by
    refine bind_eq_some.2 ⟨_, _, rfl, bind_eq_some.2 ⟨(), _, rfl, bind_eq_some.2 ⟨(), skipped, ?_, rfl⟩⟩⟩
    exact consumeWith_upon 6 ['\x7b'] rfl rfl (.inl rfl) hclose
  have hstop : skipInList Grammar.parameterList σ skipped = some (false, skipped) := rfl
  have hcollect : collect (.ofKind .error) (repeatWhile (skipInList Grammar.parameterList)) σ
      ⟨brace, report', braces, stop, declined, remarks.push (.listRecovery 6), draft⟩ =
      some (skipped.draft, skipped.withDraft draft) :=
    collect_eq_some.2 ⟨_, repeatWhile_two hσ hskip hstop, rfl, rfl⟩
  exact ⟨_, bind_eq_some.2 ⟨6, _, rfl, bind_eq_some.2 ⟨(), _, rfl, bind_eq_some.2 ⟨(), _, hreport,
    bind_eq_some.2 ⟨_, _, hcollect, rfl⟩⟩⟩⟩⟩

/-- The list of parameters breaks off before the `}` and becomes an error. -/
theorem parameters_run (hσ : σ.watches = false)
    (hs : s.scanner = .upon 4 .openParen ['('] (" \x7b \x7d".toList ++ more))
    (htext : (Scanner.upon 6 .openBrace ['\x7b'] (" \x7d".toList ++ more)).tokenText σ.source = "\x7b") :
    ∃ remarks, g.parameters σ s = some (.unclosedParameters, { s with
      scanner := .upon 8 .closeBrace ['\x7d'] more
      report := s.report.addUnclosed σ.file
      openBraces := s.openBraces + 1
      consumedEnd := 7
      remarks }) := by
  obtain ⟨-, -, -, hbrace, -⟩ := unclosed_tokens more
  obtain ⟨_, report, braces, stop, declined, remarks, draft⟩ := s
  obtain rfl := hs
  let paren := Scanner.upon 4 .openParen ['('] (" \x7b \x7d".toList ++ more)
  let brace := Scanner.upon 6 .openBrace ['\x7b'] (" \x7d".toList ++ more)
  let inside : Session := ⟨paren, report, braces, stop, declined, remarks, .ofKind .parameters⟩
  let opened : Session := inside.behind none .openParen 4 5 brace
  have hconsume : consume { σ with restriction := {} } inside = some ((), opened) :=
    consumeWith_upon 4 ['('] rfl rfl (.inl rfl) hbrace
  obtain ⟨remarks', hrecover⟩ :=
    recoverInList_run (σ := { σ with restriction := {} }) (s := opened) hσ rfl htext
  have hturn : listTurn Grammar.parameterList (g.parameter g.namedParameter)
      { σ with restriction := {} } opened =
      some (.done false, _) :=
    bind_eq_some.2 ⟨(), opened, flush_upon 6 ['\x7b'] rfl,
      bind_eq_some.2 ⟨.openBrace, opened, rfl, bind_eq_some.2 ⟨false, _, hrecover, rfl⟩⟩⟩
  have hlist : listRest Grammar.parameterList (g.parameter g.namedParameter)
      { σ with restriction := {} } opened =
      some (false, _) := loop_done hturn
  have hbody : list Grammar.parameterList (g.parameter g.namedParameter) { σ with restriction := {} } inside =
      some ((), _) :=
    bind_eq_some.2 ⟨true, inside, rfl, bind_eq_some.2 ⟨⟨4, 5⟩, inside, rfl,
      bind_eq_some.2 ⟨(), opened, hconsume,
      bind_eq_some.2 ⟨false, _, hlist, rfl⟩⟩⟩⟩
  have hfinish : (((opened.draft.push (.simple .openBrace ⟨6, 7⟩)).setKind .error).clearFields).finish 7 =
      .unclosedParameters := by
    simp [opened, inside, Session.behind, Draft.ofKind, Draft.push, Draft.pushChild, Draft.setKind,
      Draft.clearFields, Draft.finish, Draft.finishOver, Draft.span, Range.hull, Draft.hasError,
      Node.hasError,
      Node.isError, Node.isMissing, Node.simple, Node.unclosedParameters]
  refine ⟨remarks'.push (.unclosedList .openParen 4), bind_eq_some.2 ⟨(), _, flush_upon 4 ['('] rfl,
    bind_eq_some.2 ⟨_, _, collect_eq_some.2 ⟨_, hbody, rfl, rfl⟩, ?_⟩⟩⟩
  exact congrArg some (Prod.ext hfinish rfl)

/-- The function ends with the `}` of the brace that was skipped, and leaves no brace open. -/
theorem functionItem_run (hσ : σ.watches = false) (hopen : s.openBraces = 0)
    (hs : s.scanner = .upon 0 .fnKw ['f', 'n'] (" f( \x7b \x7d".toList ++ more))
    (htext : (Scanner.upon 6 .openBrace ['\x7b'] (" \x7d".toList ++ more)).tokenText σ.source = "\x7b") :
    ∃ remarks, g.functionItem σ s = some ((), { s with
      scanner := .facing .usual { offset := 9, rest := more }
      report := s.report.addUnclosed σ.file
      consumedEnd := 9
      remarks
      draft := ((((s.draft.setKind .functionItem).push (.simple .fnKw ⟨0, 2⟩)).pushField .name
        (.simple .identifier ⟨3, 4⟩)).pushField .parameters .unclosedParameters).push
          (.simple .closeBrace ⟨8, 9⟩) }) := by
  obtain ⟨-, hname, hparen, -, -⟩ := unclosed_tokens more
  obtain ⟨_, report, braces, stop, declined, remarks, draft⟩ := s
  obtain rfl := hs
  obtain rfl : braces = 0 := hopen
  let first : Session := ⟨.upon 0 .fnKw ['f', 'n'] (" f( \x7b \x7d".toList ++ more), report, 0, stop,
    declined, remarks, draft.setKind .functionItem⟩
  let second := first.behind none .fnKw 0 2 (.upon 3 .identifier ['f'] ("( \x7b \x7d".toList ++ more))
  let third := second.behind (some .name) .identifier 3 4
    (.upon 4 .openParen ['('] (" \x7b \x7d".toList ++ more))
  have hfn : consume σ first = some ((), second) := consumeWith_upon 0 ['f', 'n'] rfl rfl (.inl rfl) hname
  have hidentifier : consumeFieldAs .name .identifier σ second = some ((), third) :=
    consumeWith_upon 3 ['f'] rfl rfl (.inr rfl) hparen
  obtain ⟨remarks', hparameters⟩ := parameters_run (g := g) (s := third) hσ rfl htext
  let fourth : Session := ⟨.upon 8 .closeBrace ['\x7d'] more, report.addUnclosed σ.file, 1, 7,
    declined, remarks',
    third.draft.pushField .parameters .unclosedParameters⟩
  let fifth : Session := { fourth with openBraces := 0, remarks := remarks'.push (.absorbedBrace 8) }
  have hclose : consume σ fifth = some ((), _) := consumeWith_upon 8 ['\x7d'] rfl rfl (.inl rfl) rfl
  have habsorb : absorbBrace σ fourth = some (true, _) :=
    bind_eq_some.2 ⟨fourth, fourth, rfl, bind_eq_some.2 ⟨(), _, rfl, bind_eq_some.2 ⟨(), fifth, rfl,
      bind_eq_some.2 ⟨(), _, hclose, rfl⟩⟩⟩⟩
  have hmodifier : Grammar.isAtFunctionModifier σ first = some (false, first) := rfl
  have hparametersField : field .parameters g.parameters σ third = some ((), fourth) :=
    bind_eq_some.2 ⟨_, _, hparameters, rfl⟩
  exact ⟨_, bind_eq_some.2 ⟨(), first, rfl, bind_eq_some.2 ⟨false, first, hmodifier,
    bind_eq_some.2 ⟨(), first, rfl,
    bind_eq_some.2 ⟨(), second, hfn, bind_eq_some.2 ⟨(), third, hidentifier, bind_eq_some.2 ⟨(), third, rfl,
    bind_eq_some.2 ⟨(), fourth, hparametersField, bind_eq_some.2 ⟨(), fourth, rfl,
    bind_eq_some.2 ⟨(), fourth, rfl,
    bind_eq_some.2 ⟨.closeBrace, fourth, rfl, bind_eq_some.2 ⟨true, _, habsorb, rfl⟩⟩⟩⟩⟩⟩⟩⟩⟩⟩⟩⟩

/-- The function that breaks off: its list of parameters is an error that holds the brace. -/
def Node.unclosedFunction : Node :=
  { kind := .functionItem
    range := ⟨0, 9⟩
    flags := { hasError := true }
    children :=
      [(none, .simple .fnKw ⟨0, 2⟩), (some .name, .simple .identifier ⟨3, 4⟩),
        (some .parameters, .unclosedParameters), (none, .simple .closeBrace ⟨8, 9⟩)] }

/-- The function is a member of its own, and nothing is left to be made good behind it. -/
theorem rowTurn_run (hσ : σ.watches = false) (hopen : s.openBraces = 0)
    (hs : s.scanner = .upon 0 .fnKw ['f', 'n'] (" f( \x7b \x7d".toList ++ more))
    (hsource : σ.source.toList = "fn f( \x7b \x7d".toList ++ more) :
    ∃ remarks, g.rowTurn { inBraces := false, itemsOnly := false } σ s = some (true, { s with
      scanner := .facing .usual { offset := 9, rest := more }
      report := s.report.addUnclosed σ.file
      consumedEnd := 9
      remarks
      draft := s.draft.push .unclosedFunction }) := by
  have hbrace : Text.Place σ.source.toList 6 (['\x7b'] ++ (" \x7d".toList ++ more)) :=
    ⟨"fn f( ".toList, hsource, by decide⟩
  have htext : (Scanner.upon 6 .openBrace ['\x7b'] (" \x7d".toList ++ more)).tokenText σ.source = "\x7b" :=
    Range.slice_eq hbrace
  have hbehind : Cursor.In σ.source.toList { offset := 9, rest := more } := ⟨rfl, _, hsource, rfl⟩
  have hmoved := Scanner.le_facing hbehind
  obtain ⟨_, report, braces, stop, declined, remarks, draft⟩ := s
  obtain rfl := hs
  let first : Session := ⟨.upon 0 .fnKw ['f', 'n'] (" f( \x7b \x7d".toList ++ more), report, braces, stop,
    declined, remarks, draft⟩
  obtain ⟨remarks', hfunction⟩ := functionItem_run (g := g) (s := first.withDraft (.ofKind .error))
    hσ hopen rfl htext
  let filled : Session := ⟨.facing .usual { offset := 9, rest := more }, report.addUnclosed σ.file, braces, 9,
    declined, remarks', draft⟩
  have hflush : flush σ first = some ((), first) := flush_upon 0 ['f', 'n'] rfl
  have hitem : isAtItem σ first = some (true, first) := rfl
  have hnode : node .error (do visibilityIf; g.itemForm) σ first = some (.unclosedFunction, filled) := by
    refine bind_eq_some.2 ⟨_, _, collect_eq_some.2 ⟨_, bind_eq_some.2 ⟨(), _, rfl, hfunction⟩, rfl, rfl⟩, ?_⟩
    refine congrArg some (Prod.ext ?_ rfl)
    simp [first, Session.withDraft, Draft.ofKind, Draft.push, Draft.pushField, Draft.pushChild, Draft.setKind,
      Draft.finish, Draft.finishOver, Draft.span, Range.hull, Draft.hasError, Node.hasError, Node.isError,
      Node.isMissing, Node.simple, Node.unclosedParameters, Node.unclosedFunction]
  let last : Session := { filled with draft := draft.push .unclosedFunction }
  have hread : g.item σ first = some (true, last) :=
    bind_eq_some.2 ⟨(), first, hflush, bind_eq_some.2 ⟨false, first, rfl, bind_eq_some.2 ⟨true, first, hitem,
      bind_eq_some.2 ⟨(), last, bind_eq_some.2 ⟨_, _, hnode, rfl⟩, rfl⟩⟩⟩⟩
  have hstatement : g.statement σ first = some ((), last) :=
    bind_eq_some.2 ⟨(), first, hflush, bind_eq_some.2 ⟨.fnKw, first, rfl, bind_eq_some.2 ⟨true, first, hitem,
      bind_eq_some.2 ⟨true, last, hread, rfl⟩⟩⟩⟩
  have hmember : g.rowMember { inBraces := false, itemsOnly := false } σ first = some ((), last) := by
    refine bind_eq_some.2 ⟨0, first, rfl, bind_eq_some.2 ⟨(), last, hstatement,
      bind_eq_some.2 ⟨last, last, rfl, ?_⟩⟩⟩
    have hne : (last.offset == 0) = false :=
      beq_false_of_ne (Nat.ne_of_gt (Nat.lt_of_lt_of_le (Nat.zero_lt_succ 8) hmoved))
    simp only [hne, Bool.false_and, Bool.false_eq_true, if_false]
    rfl
  exact ⟨remarks', bind_eq_some.2 ⟨(), first, hflush, bind_eq_some.2 ⟨.fnKw, first, rfl,
    bind_eq_some.2 ⟨(), last, hmember, rfl⟩⟩⟩⟩

end

/-- What is reported of the function that breaks off. -/
def Diagnostic.unclosedFunction (file : String) : List Diagnostic :=
  [.located file ⟨4, 5⟩ .unclosed ["("], .located file ⟨6, 7⟩ .unexpected ["\x7b"]]

/-- What follows the function is read as if nothing stood before it. -/
theorem Session.start_unclosed {σ : Setting} {g : Grammar} {E : Excerpt} {t : Session} {second : String}
    (hσ : σ.watches = false) (hsource : σ.source = "fn f( \x7b \x7d\n" ++ second)
    (htext : E.text = second.toList) (hfront : E.front = "fn f( \x7b \x7d\n".toList) (htail : E.tail = [])
    (hreported : E.reported = (Report.empty.addUnclosed σ.file).toList)
    (hrow : Members g σ (.start σ.source) t) :
    ∃ v, (Session.start second).Alike E [(none, .unclosedFunction)] (v.endedAt E.shift) ∧
      Members g σ v t := by
  have hwhole : σ.source.toList = "fn f( \x7b \x7d".toList ++ '\n' :: second.toList := by
    rw [hsource]
    simp
  have hfirst : (Session.start σ.source).scanner =
      .upon 0 .fnKw ['f', 'n'] (" f( \x7b \x7d".toList ++ '\n' :: second.toList) := by
    rw [← (unclosed_tokens _).1, ← hwhole]
    exact Scanner.scan_eq .usual (.ofText σ.source)
  obtain ⟨remarks, hturn⟩ := rowTurn_run (g := g) hσ (s := .start σ.source) rfl hfirst hwhole
  -- the function as a text of its own
  let E₁ : Excerpt :=
    { text := "fn f( \x7b \x7d".toList
      tail := '\n' :: second.toList
      broken := .inr ⟨_, rfl⟩
      plain := .inl rfl }
  have hσ₁ : ({ σ with source := "fn f( \x7b \x7d" } : Setting).Within E₁ σ :=
    ⟨rfl, rfl, rfl, rfl, rfl, ⟨hσ, hσ⟩, rfl, hwhole⟩
  let last : Cursor := { offset := 9, rest := [] }
  have hlast : last.In E₁.text := ⟨rfl, "fn f( \x7b \x7d".toList, (List.append_nil _).symm, rfl⟩
  have hend : (Scanner.facing .usual { offset := 9, rest := [] }).kind = .endOfFile ∧
      (Scanner.facing .usual { offset := 9, rest := [] }).leading.isEmpty = true := by
    decide +kernel
  let u : Session :=
    { scanner := .facing .usual last
      report := Report.empty.addUnclosed σ.file
      consumedEnd := 9
      draft := (Draft.ofKind .sourceFile).push .unclosedFunction }
  let u' : Session :=
    { scanner := .facing .usual { offset := 9, rest := '\n' :: second.toList }
      report := Report.empty.addUnclosed σ.file
      consumedEnd := 9
      remarks
      draft := (Draft.ofKind .sourceFile).push .unclosedFunction }
  have hsound : u.Sound E₁.text := by
    obtain ⟨hscanner, hleading⟩ := Scanner.scan_sound readsLiterals_usual
      (s := { start := last, here := last, token := Scanner.noToken 9 }) hlast
    exact ⟨hscanner, hleading⟩
  have hlanded : u.Landed E₁ [] 0 u' := by
    refine ⟨⟨?_, ?_, rfl, .inr rfl, rfl, fun _ _ => iff_of_false List.not_mem_nil List.not_mem_nil,
      List.forall_mem_nil _, ?_, hsound⟩, last, hlast,
      Nat.zero_lt_succ 8, rfl, rfl⟩
    · rfl
    · simp [u, Report.addUnclosed, Report.add, Report.toList, Report.empty, Diagnostic.located,
        Diagnostic.ofMessage]
    · exact ⟨rfl, fun _ => ⟨rfl, rfl⟩⟩
  have hchildren : [] ++ (u.flushed { σ with source := "fn f( \x7b \x7d" }).draft.children.toList.map
      (Child.shift E₁.shift) = [(none, .unclosedFunction)] := by
    rw [Session.flushed_of_leading (List.isEmpty_iff.1 hend.2)]
    rfl
  obtain ⟨v, hv, hmembers⟩ := Row.across (u := u) (E := E₁) (by rw [htext])
    (by rw [hfront]; simp [E₁]) htail htext.symm (by rw [hreported]; rfl) hσ₁ hend.1 hlanded
    (hchildren ▸ List.cons_ne_nil _ _)
  exact ⟨v, hchildren ▸ hv, hmembers (hrow.behind hturn)⟩

namespace Tree

variable {file : String} {options : Options}

/-- **An unclosed list of parameters** is made good where the function ends. -/
theorem parse_unclosedParameters {second : String}
    (hplain : "#!".toList <+: second.toList → "#![".toList <+: second.toList) :
    (parse file ("fn f( \x7b \x7d\n" ++ second) options).root.children =
        (none, Node.unclosedFunction) ::
          (parse file second options).root.children.map (Child.shift 10) ∧
      (parse file ("fn f( \x7b \x7d\n" ++ second) options).diagnostics =
        Diagnostic.unclosedFunction file ++
          (parse file second options).diagnostics.map (Diagnostic.shift 10) := by
  obtain ⟨t, hrun, ht⟩ := parse_ends file second options
  obtain ⟨w, hrun', hw⟩ := parse_ends file ("fn f( \x7b \x7d\n" ++ second) options
  have hshebang := Scanner.shebang_eq_none hplain
  let E : Excerpt :=
    { text := second.toList, front := "fn f( \x7b \x7d\n".toList,
      reported := (Report.empty.addUnclosed file).toList, broken := .inl rfl, plain := .inr hshebang }
  have hσ : Setting.Within E { file, source := second, options }
      { file, source := "fn f( \x7b \x7d\n" ++ second, options } :=
    ⟨rfl, rfl, rfl, rfl, rfl, ⟨rfl, rfl⟩, rfl, by simp [Excerpt.whole, E]⟩
  have hfirst : Scanner.shebang? { offset := 0, rest := ("fn f( \x7b \x7d\n" ++ second).toList } = none := by
    rw [String.toList_append]
    rfl
  have hrow := row_of_repeatWhile (Setting.run_members (hrun' false) hfirst)
  obtain ⟨v, hv, hmembers⟩ := Session.start_unclosed (E := E) rfl rfl rfl rfl rfl rfl hrow
  have hreported : E.reported = (Diagnostic.unclosedFunction file).reverse := rfl
  have hfront : ∀ d ∈ E.reported, d.sortKey ≤ E.shift := by
    rw [hreported]
    simp [Diagnostic.unclosedFunction, Diagnostic.sortKey, Diagnostic.located,
      Diagnostic.ofMessage, E, Excerpt.shift]
    decide
  have hsorted : E.reported.mergeSort (fun d e => d.sortKey ≤ e.sortKey) =
      Diagnostic.unclosedFunction file := by
    rw [hreported]
    simp [Diagnostic.unclosedFunction, List.mergeSort, List.MergeSort.Internal.splitInTwo, Diagnostic.sortKey,
      Diagnostic.located, Diagnostic.ofMessage]
  obtain ⟨hchildren, hdiagnostics⟩ := of_continued rfl hσ hshebang (hrun false) hv hmembers hfront
  rw [hsorted] at hdiagnostics
  rw [ht, hw]
  exact ⟨hchildren, hdiagnostics⟩

/-- A declaration that breaks off behind the function. -/
theorem parse_unclosedParameters_let :
    ("#!".toList <+: "let".toList → "#![".toList <+: "let".toList) ∧
    (parse "f.rs" ("fn f( \x7b \x7d\n" ++ "let") {}).root.children =
      (none, Node.unclosedFunction) ::
        (parse "f.rs" "let" {}).root.children.map (Child.shift 10) := by
  have hplain : "#!".toList <+: "let".toList → "#![".toList <+: "let".toList := by decide
  exact ⟨hplain, (parse_unclosedParameters hplain).1⟩

end Tree

end ConcreteSyntax
