import ConcreteSyntax.Proofs.Expression.Statement

/-! # A value declared

The declaration `let x = …;` of a text that is read as a value (`Value`) is read without a diagnostic,
and its value is what the text is read to (`Tree.parse_value`): all that surrounds the text has known
runs. A written term is such a text (`Tree.parse_declaration`). -/

namespace ConcreteSyntax

open Parse
open Text (byteLength)

variable {source : String} {draft : Draft} {cs word rest : List Char} {kind : Kind} {s : Session}
  {σ : Setting} {e : Term} {text : List Char} {depth : Nat}

/-! ### The pattern -/

/-- A `=` between spaces. -/
def equals : BinaryMark := ⟨.eq, .assignment, rfl, by decide⟩

/-- The tokens before which a name is a whole pattern. -/
def Kind.endsPattern : Kind → Bool
  | .eq | .comma | .pipe => true
  | _ => false

theorem Session.Faces.isAt_endsPattern {offset : Nat} (h : s.Faces source draft offset rest)
    (hf : Follower rest kind) (hk : kind.endsPattern = true) {kind' : Kind}
    (hk' : kind'.endsPattern = false) (hgt : kind' ≠ .gt) : s.isAt kind' = false := by
  refine h.isAt_eq hf ?_ hgt
  rintro rfl
  exact nomatch hk.symm.trans hk'

theorem Grammar.rangeFrom_none {g : Grammar} {n : Node} (h : s.isAt .dotDot = false)
    (h' : s.isAt .dotDotEq = false) (h'' : s.isAt .dotDotDot = false) :
    g.rangeFrom n σ s = some (n, s) := by
  refine bind_eq_some.2 ⟨s.kind, s, rfl, ?_⟩
  rw [show (s.kind == .dotDot) = false from h, show (s.kind == .dotDotEq) = false from h',
    show (s.kind == .dotDotDot) = false from h'']
  rfl

/-- A name before what ends a pattern is one. -/
theorem Grammar.patternForm_name {g : Grammar} {offset : Nat}
    (h : s.Upon source draft offset .identifier word rest) (hf : Follower rest kind)
    (hk : kind.endsPattern = true) :
    ∃ t, g.patternForm σ s =
        some (.simple .identifier ⟨offset, offset + byteLength word⟩, t) ∧
      t.Faces source draft (offset + byteLength word) rest := by
  obtain ⟨t, hpath, ht⟩ := Grammar.valuePath_run (g := g) (σ := σ) h hf
  have hbang : t.isAtCall = false := by
    simp [Session.isAtCall, ht.isAt_endsPattern hf hk (show Kind.bang.endsPattern = false from rfl)]
  refine ⟨t, bind_eq_some.2 ⟨s, s, rfl, ?_⟩, ht⟩
  rw [h.kind_eq]
  refine bind_eq_some.2 ⟨_, t, hpath, bind_eq_some.2 ⟨t, t, rfl, ?_⟩⟩
  rw [ht.isAt_endsPattern hf hk (show Kind.openParen.endsPattern = false from rfl) (by decide),
    ht.isAt_endsPattern hf hk (show Kind.openBrace.endsPattern = false from rfl) (by decide), hbang]
  exact rangeFrom_none (ht.isAt_endsPattern hf hk rfl (by decide))
    (ht.isAt_endsPattern hf hk rfl (by decide)) (ht.isAt_endsPattern hf hk rfl (by decide))

/-- What a name that is a whole pattern is read to. -/
def ReadsName (source : String) (draft : Draft) (offset : Nat) (word rest : List Char) (n : Node)
    (s : Session) : Prop :=
  n = .simple .identifier ⟨offset, offset + byteLength word⟩ ∧
    s.Faces source draft (offset + byteLength word) rest

theorem gives_singlePattern {offset : Nat} (hw : σ.watches = false)
    (h : s.Upon source draft offset .identifier word rest) (hf : Follower rest kind)
    (hk : kind.endsPattern = true) :
    Gives source.toList σ ((Grammar.upTo depth).parse .singlePattern) s
      (ReadsName source draft offset word rest) := by
  refine .parse hw fun depth => .step h.flush (.bind (P := ReadsName source draft offset word rest)
    (.guarded h.sound ?_) (fun n => ?_) ?_)
  · obtain ⟨t, hname, ht⟩ := Grammar.patternForm_name (g := .upTo depth)
      (σ := { σ with depth := σ.depth + 1 }) h hf hk
    exact .of_run hname ⟨rfl, ht⟩
  · refine .of_rule depth (h := .node n) (q := fun n => ⟨.node n, none, false, false, .proper⟩)
      (.isAt (.perhaps ?_) (.pure .forget))
    exact .node rfl <| .bind .push fun _ => .bind (.consumeAt nofun) fun _ =>
      .child (.call (.inl rfl) rfl)
  · rintro n t ⟨hn, ht⟩
    refine .of_run (bind_eq_some.2 ⟨false, t, ?_, rfl⟩) ⟨hn, ht⟩
    exact congrArg some (Prod.ext (ht.isAt_endsPattern hf hk rfl (by decide)) rfl)

theorem gives_pattern {offset : Nat} (hw : σ.watches = false)
    (h : s.Upon source draft offset .identifier word rest) (hf : Follower rest .eq) :
    Gives source.toList σ ((Grammar.upTo depth).parse .pattern) s
      (ReadsName source draft offset word rest) := by
  refine .parse hw fun depth => .step h.flush (.guarded h.sound ?_)
  have hfirst : Gives source.toList { σ with depth := σ.depth + 1 }
      (Grammar.upTo depth).firstAlternative s (ReadsName source draft offset word rest) := by
    have hpipe : isAt .pipe { σ with depth := σ.depth + 1 } s = some (false, s) :=
      congrArg some (Prod.ext (h.isAt .pipe) rfl)
    exact .step hpipe (gives_singlePattern hw h hf rfl)
  refine .thenLoop fun k => .bind hfirst (fun n => ?_) ?_
  · exact .iterate (fun n => .of_rule depth .alternativeTurn) k n
  · rintro n t ⟨hn, ht⟩
    have hturn : (Grammar.upTo depth).alternativeTurn n { σ with depth := σ.depth + 1 } t =
        some (.done n, t) :=
      bind_eq_some.2 ⟨false, t, congrArg some (Prod.ext (ht.isAt_eq hf (by decide) (by decide)) rfl), rfl⟩
    exact .iterate (fun n => .of_rule depth .alternativeTurn) (.of_run hturn ⟨hn, ht⟩)

/-! ### The declaration -/

theorem Parse.Gives.ifAt {body : Parse Unit} {Q : Unit → Session → Prop} (h : s.isAt kind = true)
    (hbody : Gives text σ body s Q) : Gives text σ (Parse.ifAt kind body) s Q :=
  .step (show isAt kind σ s = some (true, s) from congrArg some (Prod.ext h rfl)) hbody

/-- A text that is read as the value of a declaration to a node of which this holds. -/
structure Value (source : String) (text : List Char) (P : Node → Prop) : Prop where
  starts : ∃ kind word rest, Spells (text ++ [';']) kind word rest
  reads : ∀ {depth : Nat} {σ : Setting} {draft : Draft} {s : Session}, σ.Plain →
    s.Before source draft (text ++ [';']) →
    Gives source.toList σ (Grammar.upTo depth).expression s
      fun n t => P n ∧ t.Before source draft [';']

/-- A node that declares a name with a value of which this holds. -/
def Node.HasValue (P : Node → Prop) (n : Node) : Prop :=
  n.kind = .letDeclaration ∧ ∃ value, n.childByField? .value = some value ∧ P value

/-- A node that declares a name with a term as its value. -/
def Node.Declares (source : String) (n : Node) (e : Term) : Prop :=
  n.kind = .letDeclaration ∧ ∃ value, n.childByField? .value = some value ∧ value.IsTerm source e

namespace Value

variable {P : Node → Prop}

/-- What stands behind the name of the declaration of a value. -/
def afterName (text : List Char) : List Char := ' ' :: '=' :: ' ' :: (text ++ [';'])

/-- The text `let x = …;` around a value. -/
def declaration (text : List Char) : String :=
  String.ofList ('l' :: 'e' :: 't' :: ' ' :: 'x' :: afterName text)

theorem spells_let (rest : List Char) :
    Spells (['l', 'e', 't'] ++ ' ' :: rest) .letKw ['l', 'e', 't'] (' ' :: rest) :=
  spells_wordBlank (Lexeme.isWord_of_all (by decide) (by decide))

theorem follower_afterName (text : List Char) : Follower (afterName text) .eq :=
  equals.follower (text ++ [';'])

theorem spells_x (text : List Char) :
    Spells (['x'] ++ afterName text) .identifier ['x'] (afterName text) :=
  spells_word (Lexeme.isWord_of_all (by decide) (by decide)) (follower_afterName text).endsName
    (follower_afterName text).quiet

/-- A value, with the `=` before it. -/
theorem gives_value (h : Value source text P) (hσ : σ.Plain)
    (hs : s.Before source draft (afterName text)) :
    Gives source.toList σ (do consume; Parse.field .value (Grammar.upTo depth).expression) s
      fun _ t => ∃ mark value, P value ∧
        t.Before source ((draft.push mark).pushField .value value) [';'] := by
  obtain ⟨offset, hs⟩ := hs
  obtain ⟨t, hconsume, ht⟩ := (hs.upon (equals.comes (text ++ [';'])) rfl).consume (σ := σ) rfl
  obtain ⟨first, word, rest, hspells⟩ := h.starts
  generalize Node.simple equals.kind _ = mark at ht
  refine .step hconsume (.field (h.reads hσ (ht.before.past hspells)) ?_)
  rintro m u ⟨hm, hu⟩
  refine ⟨mark, m, hm, ?_⟩
  rw [hu.draft_eq]
  exact hu.withDraft _

/-- The declaration of a value up to the end of the text. -/
theorem gives_letDeclaration (h : Value source text P) {offset : Nat} (hσ : σ.Plain)
    (hs : s.Upon source draft offset .letKw ['l', 'e', 't'] (' ' :: 'x' :: afterName text)) :
    Gives source.toList σ (Grammar.upTo depth).letDeclaration s
      fun n t => n.HasValue P ∧ t.Before source draft [] := by
  obtain ⟨t, hlet, ht⟩ := (hs.withDraft (.ofKind .letDeclaration)).consume (σ := σ) rfl
  obtain ⟨offset', hx⟩ := (ht.before.past (spells_x text)).upon (spells_x text) rfl
  refine .node (.step hlet (.step (ifAt_other (hx.isAt .mutKw)) (.bind
    (P := fun _ u => ∃ n, u.Before source (t.draft.pushField .pattern n) (afterName text))
    (.field (gives_pattern hσ.watches hx (follower_afterName text)) ?_) (fun _ => ?_) ?_)))
  · rintro n u ⟨-, hu⟩
    refine ⟨n, ?_⟩
    rw [hu.draft, ht.draft]
    exact (hu.withDraft _).before
  · exact .of_rule depth (q := fun _ => ⟨.empty, none, false, false, .proper⟩) <|
      .bind (.ifAt <| .bind .consume fun _ => .field (.call (.inl rfl) rfl)) fun _ =>
      .bind (.ifAt <| .bind .consume fun _ => .field (.call (.inl rfl) rfl)) fun _ =>
      .bind (.ifAt <| .bind .consume fun _ => .field (.call (.inl rfl) rfl)) fun _ => .expect rfl
  · rintro ⟨⟩ u ⟨pattern, hu⟩
    have hequals : u.isAt .colon = false ∧ u.isAt .eq = true := by
      obtain ⟨offset, hu⟩ := hu
      have hupon := hu.upon (equals.comes (text ++ [';'])) rfl
      exact ⟨hupon.isAt .colon, hupon.isAt .eq⟩
    refine .step (ifAt_other hequals.1)
      (.bind (.ifAt hequals.2 (h.gives_value hσ hu)) (fun _ => ?_) ?_)
    · exact .of_rule depth (q := fun _ => ⟨.empty, none, false, false, .proper⟩) <|
        .bind (.ifAt <| .bind .consume fun _ => .field (.call (.inl rfl) rfl)) fun _ => .expect rfl
    · rintro ⟨⟩ v ⟨mark, value, hvalue, hv⟩
      obtain ⟨offset, hend⟩ := hv.upon (spells_delimiter ';' .semicolon [] (by decide)) rfl
      obtain ⟨w, hsemicolon, hw⟩ := hend.consume (σ := σ) rfl
      have hexpect : expect .semicolon σ v = some ((), w) :=
        (expect_eq (hend.isAt .semicolon)).trans hsemicolon
      refine .step (ifAt_other (hend.isAt .elseKw)) (.of_run hexpect ⟨⟨?_, value, ?_, hvalue⟩,
        hs.draft ▸ (hw.withDraft _).before⟩)
      · show w.draft.kind = _
        rw [hw.draft, ht.draft]
        rfl
      · rw [hw.draft, ht.draft]
        rfl

/-- A file with the declaration of a value. -/
theorem gives_sourceFile (h : Value (declaration text) text P) (hσ : σ.Plain) :
    Gives (declaration text).toList σ (Grammar.upTo depth).sourceFile (.start (declaration text))
      fun _ t => t.report = .empty ∧ ∃ n, n.HasValue P ∧
        t.draft = (Draft.ofKind .sourceFile).push n := by
  have htext : (declaration text).toList = 'l' :: 'e' :: 't' :: ' ' :: 'x' :: afterName text :=
    String.toList_ofList
  have hstart := (Session.faces_start (declaration text)).before
  rw [htext] at hstart
  obtain ⟨offset, hs⟩ := hstart.upon (spells_let _) rfl
  refine .onlyStatement hs (by decide) (.step hs.flush (.step rfl ?_))
  rw [hs.kind_eq]
  refine .child (h.gives_letDeclaration hσ hs) ?_
  rintro n t ⟨hn, ht⟩
  exact ⟨n, hn, ht.draft_eq ▸ ht.withDraft _⟩

end Value

/-- The declaration of a value is read without a diagnostic, unless it nests too deeply, and what
holds of the value holds of the one that is declared. -/
theorem Tree.parse_value {file : String} {options : Options} {P : Node → Prop}
    (hvalue : Value (Value.declaration text) text P)
    (h : ∀ d ∈ (parse file (Value.declaration text) options).diagnostics,
      d.code ≠ Message.nestingLimit.code) :
    (parse file (Value.declaration text) options).diagnostics = [] ∧
      ∃ n, (parse file (Value.declaration text) options).root.children = [(none, n)] ∧
        n.HasValue P :=
  parse_only (fun _ => hvalue.gives_sourceFile ⟨rfl, rfl⟩) h

/-! ### The declaration of a term -/

namespace Term

/-- The value of a declaration and what ends it. -/
def afterEquals (e : Term) : List Char := e.text ++ [';']

/-- What stands behind the name of a declaration. -/
def afterName (e : Term) : List Char := ' ' :: '=' :: ' ' :: e.afterEquals

/-- The text `let x = …;` around a term. -/
def declaration (e : Term) : String := String.ofList ('l' :: 'e' :: 't' :: ' ' :: 'x' :: e.afterName)

theorem follower_semicolon : Follower [';'] .semicolon :=
  (spells_delimiter ';' .semicolon [] (by decide)).follower (by decide) (by decide)

/-- A written term is read as a value. -/
theorem value (source : String) (e : Term) : Value source e.text (·.IsTerm source e) where
  starts := by
    obtain ⟨first, word, rest, hopens, -⟩ := e.starts follower_semicolon
    exact ⟨first, word, rest, hopens.spells⟩
  reads hσ hs := (e.readable source).inside.inside hσ hs follower_semicolon ⟨rfl, rfl⟩

end Term

/-- **Operator expressions round-trip.** The declaration of a written term is read without a
diagnostic, unless it nests too deeply, and the value of the declaration is the term. -/
theorem Tree.parse_declaration {file : String} {options : Options} {e : Term}
    (h : ∀ d ∈ (parse file e.declaration options).diagnostics, d.code ≠ Message.nestingLimit.code) :
    (parse file e.declaration options).diagnostics = [] ∧
      ∃ n, (parse file e.declaration options).root.children = [(none, n)] ∧
        n.Declares e.declaration e :=
  parse_value (e.value e.declaration) h

/-- The term `-a.0.b(c, &&d) + (e = f[a])`, in which the place of every operator counts. -/
def Term.mixed : Term :=
  .binary ⟨.plus, .additive, rfl, by decide⟩
    (.unary .minus (.call
      (.field (.element (.name ⟨['a'], rfl⟩) ⟨['0'], rfl⟩) ⟨['b'], rfl⟩)
      [.name ⟨['c'], rfl⟩, .unary .amp (.unary .amp (.name ⟨['d'], rfl⟩))]))
    (.binary equals (.name ⟨['e'], rfl⟩) (.index (.name ⟨['f'], rfl⟩) (.name ⟨['a'], rfl⟩)))

/-- The mixed term is read back from its declaration. -/
theorem Tree.parse_declaration_mixed :
    (∀ d ∈ (parse "f.rs" Term.mixed.declaration {}).diagnostics,
      d.code ≠ Message.nestingLimit.code) ∧
    (parse "f.rs" Term.mixed.declaration {}).diagnostics = [] ∧
      ∃ n, (parse "f.rs" Term.mixed.declaration {}).root.children = [(none, n)] ∧
        n.Declares Term.mixed.declaration Term.mixed := by
  have h : ∀ d ∈ (parse "f.rs" Term.mixed.declaration {}).diagnostics,
      d.code ≠ Message.nestingLimit.code := code_ne_of_run (by decide +kernel)
  exact ⟨h, parse_declaration h⟩

end ConcreteSyntax
