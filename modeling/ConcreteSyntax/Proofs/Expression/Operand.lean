import ConcreteSyntax.Proofs.Expression.Spelling

/-! # Reading an operand

What the grammar does with a name and with each postfix form. A postfix form is read around what
stands before it, so a term that ends in postfix forms is read by going on after the first of its
parts (`Term.ReadsTight`). -/

namespace ConcreteSyntax

open Parse
open Text (byteLength)

/-! ### Settings and followers -/

/-- A setting inside a term: nothing is restricted, and no circles are watched for. -/
structure Setting.Plain (σ : Setting) : Prop where
  watches : σ.watches = false
  restriction : σ.restriction = {}

theorem Setting.Plain.deeper {σ : Setting} (h : σ.Plain) :
    Setting.Plain { σ with depth := σ.depth + 1 } :=
  ⟨h.watches, h.restriction⟩

/-- The tokens that go on with an operand: the postfix forms and the arguments of a method. -/
def Kind.isPostfix : Kind → Bool
  | .openParen | .openBracket | .question | .dot | .colonColon => true
  | _ => false

/-- The token that stands at a follower; one made of a `>` may not be joined yet. -/
theorem Scanner.Faces.kind_eq {s : Scanner} {offset : Nat} {cs : List Char} {kind : Kind}
    (h : s.Faces offset cs) (hf : Follower cs kind) :
    s.kind = kind ∨ s.kind = .gt ∧ kind.isGreater = true := by
  obtain ⟨gap, word, rest, hc⟩ := hf.comes
  have hj := hc.joined h
  rcases s.joinGreater_cases with hself | ⟨-, hgreater⟩
  · exact .inl (congrArg Scanner.kind (hself.symm.trans hj))
  · rw [hj] at hgreater
    by_cases hk : s.kind = .gt
    · exact .inr ⟨hk, hgreater⟩
    · exact .inl (congrArg Scanner.kind ((joinGreater_eq_self hk).symm.trans hj))

namespace Session.Faces

variable {source : String} {draft : Draft} {offset : Nat} {cs : List Char} {kind : Kind}
  {s : Session} {σ : Setting}

theorem kind_eq (h : s.Faces source draft offset cs) (hf : Follower cs kind) :
    s.kind = kind ∨ s.kind = .gt ∧ kind.isGreater = true :=
  h.scanner.kind_eq hf

theorem isAt_eq (h : s.Faces source draft offset cs) (hf : Follower cs kind) {kind' : Kind}
    (hne : kind' ≠ kind) (hgt : kind' ≠ .gt) : s.isAt kind' = false := by
  rcases h.kind_eq hf with hk | ⟨hk, -⟩
  · exact beq_eq_false_iff_ne.2 (hk ▸ hne.symm)
  · exact beq_eq_false_iff_ne.2 (hk ▸ hgt.symm)

end Session.Faces

/-! ### Names -/

section Names

variable {source : String} {draft : Draft} {offset : Nat} {cs word rest : List Char} {kind : Kind}
  {s : Session} {σ : Setting} {g : Grammar}

/-- A loop whose first turn is the last. -/
theorem Parse.loop_done {α ρ : Type} {turn : α → Parse (Step α ρ)} {x : α} {r : ρ}
    {s s' : Session} (h : turn x σ s = some (.done r, s')) : loop turn x σ s = some (r, s') := by
  show iterate turn (4 * σ.source.utf8ByteSize + 15 + 1) x σ s = _
  exact bind_eq_some.2 ⟨s, s, rfl, bind_eq_some.2 ⟨_, s', h, rfl⟩⟩

/-- A name is read as a path where no other segment follows. -/
theorem Grammar.valuePath_name (h : s.Upon source draft offset .identifier word rest)
    (hnext : ∀ t : Session, t.Faces source draft (offset + byteLength word) rest →
      t.isAt .colonColon = false) :
    ∃ s', g.valuePath σ s =
        some (.simple .identifier ⟨offset, offset + byteLength word⟩, s') ∧
      s'.Faces source draft (offset + byteLength word) rest := by
  obtain ⟨s', hleaf, hs'⟩ := h.leaf (σ := σ) (some .identifier) rfl nofun
  have hcolons : s'.isAt .colonColon = false := hnext s' hs'
  have hscope : g.pathScope σ s = some (none, s) := by
    refine bind_eq_some.2 ⟨s.kind, s, rfl, ?_⟩
    rw [h.kind_eq]
    rfl
  have hsegment : segmentIn none .identifier σ s =
      some (.simple .identifier ⟨offset, offset + byteLength word⟩, s') := by
    refine bind_eq_some.2 ⟨s.kind, s, rfl, ?_⟩
    rw [h.kind_eq]
    exact hleaf
  have harguments (n : Node) : g.withArguments n σ s' = some (n, s') := by
    refine bind_eq_some.2 ⟨s', s', rfl, ?_⟩
    rw [hcolons]
    rfl
  refine ⟨s', bind_eq_some.2 ⟨(), s, h.flush, bind_eq_some.2 ⟨none, s, hscope, loop_done ?_⟩⟩, hs'⟩
  refine bind_eq_some.2 ⟨_, s', hsegment, bind_eq_some.2 ⟨_, s', harguments _,
    bind_eq_some.2 ⟨s', s', rfl, ?_⟩⟩⟩
  rw [hcolons]
  rfl

theorem Grammar.valuePath_run (h : s.Upon source draft offset .identifier word rest)
    (hf : Follower rest kind) :
    ∃ s', g.valuePath σ s =
        some (.simple .identifier ⟨offset, offset + byteLength word⟩, s') ∧
      s'.Faces source draft (offset + byteLength word) rest := by
  refine valuePath_name h fun t ht => ht.isAt_eq hf ?_ (by decide)
  rintro rfl
  exact nomatch hf.ends

/-- A name alone is a primary expression. -/
theorem Grammar.primary_name (h : s.Upon source draft offset .identifier word rest)
    (hf : Follower rest kind) :
    ∃ s', g.primary σ s =
        some (.simple .identifier ⟨offset, offset + byteLength word⟩, s') ∧
      s'.Faces source draft (offset + byteLength word) rest := by
  obtain ⟨s', hpath, hs'⟩ := Grammar.valuePath_run (g := g) (σ := σ) h hf
  have hbang : s'.isAtCall = false := by
    have : s'.isAt .bang = false := by
      refine hs'.isAt_eq hf ?_ (by decide)
      rintro rfl
      exact nomatch hf.ends
    simp [Session.isAtCall, this]
  have hbrace : s'.isAt .openBrace = false := by
    refine hs'.isAt_eq hf ?_ (by decide)
    rintro rfl
    exact nomatch hf.ends
  refine ⟨s', bind_eq_some.2 ⟨s, s, rfl, ?_⟩, hs'⟩
  rw [h.kind_eq]
  refine bind_eq_some.2 ⟨_, s', hpath, bind_eq_some.2 ⟨s', s', rfl, ?_⟩⟩
  rw [hbang, hbrace]
  rfl

end Names

/-! ### Terms and their nodes -/

/-- A node that stands for a term. -/
def Node.IsTerm (source : String) (n : Node) (e : Term) : Prop := Term.ofNode? source n = some e

theorem Name.ofText?_ofList (n : Name) : Name.ofText? (String.ofList n.chars) = some n := by
  unfold Name.ofText?
  rw [String.toList_ofList, dif_pos n.isName]

theorem Digits.ofText?_ofList (d : Digits) : Digits.ofText? (String.ofList d.chars) = some d := by
  unfold Digits.ofText?
  rw [String.toList_ofList, dif_pos d.isDigits]

/-! ### Postfix forms -/

section Forms

variable {source : String} {draft : Draft} {cs : List Char} {kind : Kind} {s : Session}
  {σ : Setting} {g : Grammar} {n : Node} {e : Term}

/-- What one more postfix form gives: a node around what stood before it, and what follows. -/
def GoesOn (source : String) (σ : Setting) (g : Grammar) (n : Node) (s : Session) (e : Term)
    (draft : Draft) (cs : List Char) : Prop :=
  Gives source.toList σ (g.postfixTurn n) s fun step s' => ∃ m, step = .again m ∧
    m.IsTerm source e ∧ s'.Before source draft cs

theorem goesOn_question (hn : n.IsTerm source e) (h : s.Before source draft ('?' :: cs)) :
    GoesOn source σ g n s (.question e) draft cs := by
  obtain ⟨offset, hupon⟩ := h.upon (spells_delimiter '?' .question cs (by decide)) rfl
  obtain ⟨t, hconsume, ht⟩ := ((hupon.withDraft (.ofKind .tryExpression)).withDraft
    ((Draft.ofKind .tryExpression).push n)).consume (σ := σ) rfl
  refine .step rfl ?_
  rw [hupon.kind_eq]
  refine .step (node_run (bind_eq_some.2 ⟨(), _, rfl, hconsume⟩)) (.pure ⟨_, rfl, ?_, ?_⟩)
  · rw [ht.draft]
    show (do return Term.question (← Term.ofNode? source n)) = _
    rw [hn]
    rfl
  · exact h.draft_eq ▸ (ht.withDraft _).before

/-- A dot stands before a name or a number. -/
theorem upon_dot {word : List Char} (h : s.Before source draft ('.' :: (word ++ cs)))
    (hw : ∃ c cs, word = c :: cs ∧ Text.isIdentifierPart c = true) :
    ∃ offset, s.Upon source draft offset .dot ['.'] (word ++ cs) :=
  h.upon (spells_dot hw cs) rfl

theorem goesOn_await (hn : n.IsTerm source e)
    (h : s.Before source draft ('.' :: (awaitWord ++ cs))) (hf : Follower cs kind) :
    GoesOn source σ g n s (.await e) draft cs := by
  have hword : Spells (awaitWord ++ cs) .awaitKw awaitWord cs :=
    spells_word (Lexeme.isWord_of_all (by decide) (by decide)) hf.endsName hf.quiet
  obtain ⟨offset, hupon⟩ := upon_dot h ⟨_, _, rfl, by decide⟩
  have hahead : s.ahead 1 = .awaitKw := hupon.ahead_spells hword
  obtain ⟨t, hdot, ht⟩ := ((hupon.withDraft (.ofKind .awaitExpression)).withDraft
    ((Draft.ofKind .awaitExpression).push n)).consume (σ := σ) rfl
  obtain ⟨u, hawait, hu⟩ := (ht.upon (.of_spells hword nofun 0) rfl).consume (σ := σ) rfl
  have hbody : (do push n; consume; consume : Parse Unit) σ
      (s.withDraft (.ofKind .awaitExpression)) = some ((), u) :=
    bind_eq_some.2 ⟨(), _, rfl, bind_eq_some.2 ⟨(), t, hdot, hawait⟩⟩
  have hdotted : Grammar.dotted n σ s = some (u.draft.finish u.consumedEnd, u.withDraft s.draft) :=
    bind_eq_some.2 ⟨_, s, rfl, by rw [hahead]; exact node_run hbody⟩
  refine .step rfl ?_
  rw [hupon.kind_eq]
  refine .step hdotted (.pure ⟨_, rfl, ?_, ?_⟩)
  · rw [hu.draft]
    show (do return Term.await (← Term.ofNode? source n)) = _
    rw [hn]
    rfl
  · exact h.draft_eq ▸ (hu.withDraft _).before

/-- A dot before anything but `await` opens a field. -/
theorem dotted_run {word : List Char} {offset : Nat} {t u : Session}
    (hupon : s.Upon source draft offset .dot ['.'] word) (hahead : s.ahead 1 ≠ .awaitKw)
    (hdot : consumeWith none none .tupleIndex σ (s.withDraft
      ((Draft.ofKind .fieldExpression).pushField .value n)) = some ((), t))
    (hname : Grammar.fieldName σ t = some ((), u)) :
    g.postfixTurn n σ s =
      some (.again (u.draft.finish u.consumedEnd), u.withDraft s.draft) := by
  have hbody : (do pushField .value n; consumeWith none none .tupleIndex; Grammar.fieldName :
      Parse Unit) σ (s.withDraft (.ofKind .fieldExpression)) = some ((), u) :=
    bind_eq_some.2 ⟨(), _, rfl, bind_eq_some.2 ⟨(), t, hdot, hname⟩⟩
  have hdotted : Grammar.dotted n σ s = some (u.draft.finish u.consumedEnd, u.withDraft s.draft) :=
    bind_eq_some.2 ⟨_, s, rfl, by rw [beq_eq_false_iff_ne.2 hahead]; exact node_run hbody⟩
  refine bind_eq_some.2 ⟨s, s, rfl, ?_⟩
  rw [hupon.kind_eq]
  exact bind_eq_some.2 ⟨_, _, hdotted, rfl⟩

theorem goesOn_field {name : Name} (hn : n.IsTerm source e)
    (h : s.Before source draft ('.' :: (name.chars ++ cs))) (hf : Follower cs kind) :
    GoesOn source σ g n s (.field e name) draft cs := by
  have hword := name.spells hf.endsName hf.quiet
  obtain ⟨offset, hupon⟩ := upon_dot h name.part_head
  have hahead : s.ahead 1 ≠ .awaitKw := by
    rw [hupon.ahead_spells hword]
    nofun
  obtain ⟨t, hdot, ht, -⟩ := (hupon.withDraft
    ((Draft.ofKind .fieldExpression).pushField .value n)).consumeWith (σ := σ) none none
      .tupleIndex rfl nofun (.inr rfl)
  have htname := ht.upon (.of_spells hword nofun 0) rfl
  obtain ⟨u, hconsume, hu, -⟩ := htname.consumeWith (σ := σ) (some .field)
    (some .fieldIdentifier) .usual rfl nofun (.inl rfl)
  have hname : Grammar.fieldName σ t = some ((), u) := by
    refine bind_eq_some.2 ⟨t.kind, t, rfl, ?_⟩
    rw [htname.kind_eq]
    exact hconsume
  refine .of_run (dotted_run hupon hahead hdot hname) ⟨_, rfl, ?_, ?_⟩
  · rw [hu.draft]
    show (do return Term.field (← Term.ofNode? source n) (← Name.ofText? (Range.slice _ source))) = _
    rw [hn, htname.slice, name.ofText?_ofList]
    rfl
  · exact h.draft_eq ▸ (hu.withDraft _).before

/-- Digits after the dot of a field, all of them. -/
theorem Digits.spelled (digits : Digits) (hf : Follower cs kind) :
    Spelled .tupleIndex (digits.chars ++ cs) .integerToken digits.chars cs := by
  obtain ⟨hne, hdigit⟩ := digits.all_isDigit
  obtain ⟨c, more, hc, hpart⟩ := digits.part_head
  refine ⟨rfl, ?_, Lexeme.next_digits hne hdigit hf.endsName rfl rfl⟩
  rw [hc]
  exact begins_of_isIdentifierPart hpart _

/-- Digits ahead are no word, wherever they end. -/
theorem Digits.facing_kind (digits : Digits) (offset : Nat) :
    (Scanner.facing .usual { offset, rest := digits.chars ++ cs }).kind ≠ .awaitKw := by
  obtain ⟨-, hdigit⟩ := digits.all_isDigit
  obtain ⟨c, more, hc, hpart⟩ := digits.part_head
  have hread := Scanner.facing_eq .usual (begins_of_isIdentifierPart hpart (more ++ cs)) rfl offset 0
  rw [Lexeme.next_digit (hdigit c (by simp [hc])) rfl] at hread
  rw [hc]
  have hkind : (Scanner.facing .usual { offset, rest := c :: more ++ cs }).kind =
      (Number.scan true (c :: (more ++ cs))).kind := congrArg Scanner.kind hread
  rw [hkind]
  rcases Lexeme.number_kind true (c :: (more ++ cs)) with h | h
  · rw [h]; nofun
  · rw [h]; nofun

theorem goesOn_element {digits : Digits} (hn : n.IsTerm source e)
    (h : s.Before source draft ('.' :: (digits.chars ++ cs))) (hf : Follower cs kind) :
    GoesOn source σ g n s (.element e digits) draft cs := by
  obtain ⟨offset, hupon⟩ := upon_dot h digits.part_head
  have hahead : s.ahead 1 ≠ .awaitKw := by
    rw [hupon.ahead]
    exact digits.facing_kind _
  obtain ⟨t, hdot, ht, hscanner⟩ := (hupon.withDraft
    ((Draft.ofKind .fieldExpression).pushField .value n)).consumeWith (σ := σ) none none
      .tupleIndex rfl nofun (.inr rfl)
  have htdigits : t.Upon source t.draft (offset + byteLength ['.']) .integerToken digits.chars cs :=
    ⟨ht.sound, hscanner.trans (Scanner.facing_spelled (digits.spelled hf) rfl _ 0), ht.report, ht.braces, rfl⟩
  obtain ⟨u, hconsume, hu⟩ := (htdigits.withDraft (.ofKind .integerLiteral)).consumeNumber (σ := σ)
    .tupleIndex (.inr rfl)
  have hindex := node_run hconsume
  have hname : Grammar.fieldName σ t = some ((), (u.withDraft t.draft).withDraft
      (t.draft.pushField .field (u.draft.finish u.consumedEnd))) := by
    refine bind_eq_some.2 ⟨t.kind, t, rfl, ?_⟩
    rw [htdigits.kind_eq]
    exact bind_eq_some.2 ⟨_, _, hindex, rfl⟩
  refine .of_run (dotted_run hupon hahead hdot hname) ⟨_, rfl, ?_, ?_⟩
  · rw [hu.draft, ht.draft]
    show (do
      return Term.element (← Term.ofNode? source n) (← Digits.ofText?
        (Range.slice ⟨offset + byteLength ['.'], _ + byteLength digits.chars⟩ source))) = _
    rw [hn, htdigits.slice, digits.ofText?_ofList]
    rfl
  · exact h.draft_eq ▸ (((hu.withDraft _).withDraft _).withDraft _).before

end Forms

end ConcreteSyntax
