import ConcreteSyntax.Grammar.Recovery
import ConcreteSyntax.Grammar.Start
import ConcreteSyntax.Proofs.Reading.Orderly

/-! # Programs beside the reading

The programs that only look around, report, remark or count braces (`Parse.Aside`). Those that
report an error, or leave it to the fault of the current token, are severe. -/

namespace ConcreteSyntax.Parse

variable {α β : Type}

/-! ### Composition -/

theorem Aside.bind {a b : Bool} {m : Parse α} {K : α → Parse β} (hm : m.Aside a)
    (hK : ∀ r, (K r).Aside b) : (m >>= K).Aside (a || b) := by
  intro σ s
  obtain ⟨r, t, hm, hb, hl⟩ := hm σ s
  obtain ⟨r', s', hK, hb', hl'⟩ := hK r σ t
  refine ⟨r', s', fun w op => bind_eq_some.2 ⟨r, t, hm w op, hK w op⟩, hb.trans hb', fun l h => ?_⟩
  obtain ⟨ht, hK⟩ := hl' l h
  obtain ⟨hs, hm⟩ := hl l ht
  exact ⟨hs, bind_eq_some.2 ⟨r, t.relaxed l, hm, hK⟩⟩

theorem Aside.weaken {a b : Bool} {m : Parse α} (h : m.Aside a) (hab : b = true → a = true) :
    m.Aside b := by
  intro σ s
  obtain ⟨r, s', hm, hb, hl⟩ := h σ s
  exact ⟨r, s', hm, { hb with owed := fun hs => hb.owed (hab hs) }, hl⟩

/-- What the session and the setting say, the report, the options and whether the reading watches
apart. -/
theorem aside_ask {f : Setting → Session → α}
    (hw : ∀ σ s watches opened, f (σ.watching watches opened) s = f σ s)
    (hl : ∀ σ s l, f (σ.relaxed l) (s.relaxed l) = f σ s) :
    Aside false (fun σ s => some (f σ s, s)) :=
  fun σ s => ⟨f σ s, s, fun w op => congrArg (fun r => some (r, s)) (hw σ s w op), .refl s,
    fun l h => ⟨h, congrArg (fun r => some (r, s.relaxed l)) (hl σ s l)⟩⟩

theorem aside_pure (r : α) : (pure r : Parse α).Aside false :=
  aside_ask (f := fun _ _ => r) (fun _ _ _ _ => rfl) fun _ _ _ => rfl

/-- A program that looks at the session, but not at what was reported. -/
theorem aside_look {b : Bool} {K : Session → Parse α} (blind : ∀ s report, K { s with report } = K s)
    (h : ∀ s, (K s).Aside b) : (get >>= K).Aside b := by
  intro σ s
  obtain ⟨r, s', hm, hb, hl⟩ := h s σ s
  refine ⟨r, s', hm, hb, fun l hs => ⟨(hl l hs).1, ?_⟩⟩
  show K { s with report := _ } (σ.relaxed l) (s.relaxed l) = _
  rw [blind]
  exact (hl l hs).2

/-! ### Looking around -/

theorem aside_isAt (kind : Kind) : (isAt kind).Aside false :=
  aside_ask (f := fun _ s => s.isAt kind) (fun _ _ _ _ => rfl) fun _ _ _ => rfl

theorem aside_isAtAny (kinds : List Kind) : (isAtAny kinds).Aside false :=
  aside_ask (f := fun _ s => s.isAtAny kinds) (fun _ _ _ _ => rfl) fun _ _ _ => rfl

theorem aside_ahead (n : Nat) : (ahead n).Aside false :=
  aside_ask (f := fun _ s => s.ahead n) (fun _ _ _ _ => rfl) fun _ _ _ => rfl

theorem aside_offset : offset.Aside false :=
  aside_ask (f := fun _ s => s.offset) (fun _ _ _ _ => rfl) fun _ _ _ => rfl

theorem aside_tokenRange : tokenRange.Aside false :=
  aside_ask (f := fun _ s => s.scanner.token.range) (fun _ _ _ _ => rfl) fun _ _ _ => rfl

theorem aside_textAhead (n : Nat) : (textAhead n).Aside false :=
  aside_ask (f := fun σ s => (s.scannerAhead n).tokenText σ.source) (fun _ _ _ _ => rfl)
    fun _ _ _ => rfl

theorem aside_tokenText : tokenText.Aside false := aside_textAhead 0

theorem aside_isAtWord (word : String) : (isAtWord word).Aside false :=
  Aside.bind (aside_isAt _) fun atName => by
    cases atName
    · exact aside_pure _
    · exact Aside.bind aside_tokenText fun _ => aside_pure _

theorem aside_restriction : restriction.Aside false :=
  aside_ask (f := fun σ _ => σ.restriction) (fun _ _ _ _ => rfl) fun _ _ _ => rfl

theorem aside_isAtMacro : isAtMacro.Aside false :=
  aside_ask (f := fun σ s => s.kind.startsPath && s.scanner.isAtMacro σ.turns)
    (fun _ _ _ _ => rfl) fun _ _ _ => rfl

theorem aside_isAtExpression : isAtExpression.Aside false :=
  aside_ask (f := fun σ s => s.kind.startsExpression σ.restriction) (fun _ _ _ _ => rfl)
    fun _ _ _ => rfl

theorem aside_isAtItem : isAtItem.Aside false := by
  refine aside_look (fun _ _ => rfl) fun s => ?_
  split
  all_goals first | exact aside_pure _ | exact Aside.bind aside_tokenText fun _ => aside_pure _

/-! ### Remarks and reports -/

theorem aside_note (remark : Remark) : (note remark).Aside false :=
  fun _ s => ⟨(), { s with remarks := s.remarks.push remark }, fun _ _ => rfl,
    ⟨rfl, rfl, rfl, .refl _, rfl, nofun⟩, fun _ h => ⟨(h.of_push rfl).1, rfl⟩⟩

theorem aside_settle (ambiguity : Ambiguity) (chosen : Kind) :
    (settle ambiguity chosen).Aside false :=
  Aside.bind aside_offset fun _ => aside_note _

/-- A report about the grammar, beside the reading whatever it is about. -/
theorem beside_reportAt {message : Message} (h : 2000 ≤ message.code) (file : String) (range : Range)
    (arguments : List String) (s : Session) :
    s.Beside (message.severity == .error)
      { s with report := s.report.add (.located file range message arguments) } := by
  have hlexical : (Diagnostic.located file range message arguments).isLexical = false := by
    have hcode : (Diagnostic.located file range message arguments).code = message.code := rfl
    simp only [Diagnostic.isLexical, hcode, Bool.and_eq_false_iff, decide_eq_false_iff_not]
    omega
  refine ⟨rfl, rfl, rfl, Report.grows_add _ rfl, ?_, fun h => .inl (Report.hasErrors_add h)⟩
  rw [Report.lexical_add, hlexical]
  exact List.append_nil _

/-- A report about the grammar, and about no option. -/
theorem aside_reportAt {message : Message} (h : message.IsPlain) (range : Range)
    (arguments : List String) :
    (reportAt range message arguments).Aside (message.severity == .error) := by
  refine fun σ s => ⟨(), _, fun _ _ => rfl, beside_reportAt h.1 σ.file range arguments s,
    fun l hs => ⟨hs, ?_⟩⟩
  obtain ⟨hkeeps, hsame⟩ := Report.relaxed_plain (l := l)
    (show (Diagnostic.located σ.file range message arguments).code < _ from h.2)
  unfold Session.relaxed
  rw [Report.relaxed_add, if_pos hkeeps, hsame]
  rfl

theorem aside_reportHere {message : Message} (h : message.IsPlain) (arguments : List String) :
    (reportHere message arguments).Aside (message.severity == .error) :=
  Aside.bind aside_tokenRange fun _ => aside_reportAt h _ _

/-- A report of an error. -/
theorem aside_errorAt {message : Message} (hc : message.IsPlain)
    (h : message.severity = .error) (range : Range) (arguments : List String) :
    (reportAt range message arguments).Aside true :=
  (aside_reportAt hc range arguments).weaken fun _ => by rw [h]; rfl

theorem aside_errorHere {message : Message} (hc : message.IsPlain)
    (h : message.severity = .error) (arguments : List String) :
    (reportHere message arguments).Aside true :=
  (aside_reportHere hc arguments).weaken fun _ => by rw [h]; rfl

theorem aside_foundText : foundText.Aside false :=
  Aside.bind (aside_isAt _) fun atEnd => by
    cases atEnd
    · exact aside_tokenText
    · exact aside_pure _

/-- A report that is left to the fault of the current token, if it has one. -/
theorem aside_unlessFaulty {report : Parse Unit} (h : report.Aside true) :
    (isFaulty >>= fun isFaulty => if isFaulty then pure () else report).Aside true := by
  intro σ s
  by_cases hf : s.scanner.token.faults = []
  · obtain ⟨r, s', hr, hb, hl⟩ := h σ s
    have hask (τ : Setting) (r : Report) :
        isFaulty τ { s with report := r } = some (false, { s with report := r }) := by
      show some (!s.scanner.token.faults.isEmpty, _) = _
      rw [hf]
      rfl
    exact ⟨r, s', fun w op => bind_eq_some.2 ⟨false, s, hask _ _, hr w op⟩, hb, fun l ht =>
      ⟨(hl l ht).1, bind_eq_some.2 ⟨false, s.relaxed l, hask _ _, (hl l ht).2⟩⟩⟩
  · have hask (τ : Setting) (r : Report) :
        isFaulty τ { s with report := r } = some (true, { s with report := r }) := by
      show some (!s.scanner.token.faults.isEmpty, _) = _
      rw [List.isEmpty_eq_false_iff.2 hf]
      rfl
    exact ⟨(), s, fun w op => bind_eq_some.2 ⟨true, s, hask _ _, rfl⟩, ⟨rfl, rfl, rfl, .refl _, rfl,
      fun _ => .inr hf⟩, fun l ht => ⟨ht, bind_eq_some.2 ⟨true, s.relaxed l, hask _ _, rfl⟩⟩⟩

theorem aside_reportExpected (what : String) : (reportExpected what).Aside true :=
  aside_unlessFaulty (Aside.bind aside_foundText fun _ => aside_errorHere (by decide) rfl _)

theorem aside_reportUnexpected : reportUnexpected.Aside true :=
  aside_unlessFaulty (Aside.bind aside_tokenText fun _ => aside_errorHere (by decide) rfl _)

/-- A remark tells that the limit was met. -/
theorem reportLimit_remarks {σ : Setting} {s t : Session} {l : Lenience}
    (h : reportLimit σ s = some ((), t)) (ht : t.Untouched l) : l.depth = 0 := by
  obtain ⟨-, rfl⟩ := Prod.mk.inj (Option.some.inj h)
  exact Nat.eq_zero_of_not_pos (of_decide_eq_false (ht.of_push rfl).2)

/-- The message names the limit. -/
theorem aside_reportLimit : reportLimit.Aside true := by
  intro σ s
  have hrest (limit : Nat) : (do
      reportHere .nestingLimit [toString limit]
      note (.nestingLimit (← offset)) : Parse Unit).Aside true :=
    Aside.bind (aside_errorHere (by decide) rfl _) fun _ =>
      Aside.bind aside_offset fun _ => aside_note _
  obtain ⟨r, t, hrun, hb, hl⟩ := hrest σ.options.maxDepth σ s
  refine ⟨r, t, hrun, hb, fun l ht => ⟨(hl l ht).1, ?_⟩⟩
  have hlimit : reportLimit σ s = some ((), t) := hrun σ.watches σ.opened
  have hsame : (σ.relaxed l).options.maxDepth = σ.options.maxDepth :=
    congrArg (σ.options.maxDepth + ·) (reportLimit_remarks hlimit ht)
  show (do
    reportHere .nestingLimit [toString (σ.relaxed l).options.maxDepth]
    note (.nestingLimit (← offset)) : Parse Unit) (σ.relaxed l) (s.relaxed l) = _
  rw [hsame]
  exact (hl l ht).2

/-- Counting braces changes nothing else. -/
theorem aside_openBraces (change : Nat → Nat) :
    (modify fun s => { s with openBraces := change s.openBraces } : Parse Unit).Aside false :=
  fun _ s => ⟨(), { s with openBraces := change s.openBraces }, fun _ _ => rfl,
    ⟨rfl, rfl, rfl, .refl _, rfl, nofun⟩, fun _ h => ⟨h, rfl⟩⟩

end ConcreteSyntax.Parse
