import ConcreteSyntax.Proofs.Expression.Declaration

/-! # Closures that result in closures

A closure whose result is a closure is read to two of them, one inside the other, and so on to any
depth (`Tree.parse_closures`). A blank has to stand behind the parameters: two bars that touch are one
token, which is taken apart only where a closure begins. -/

namespace ConcreteSyntax

open Parse
open Text (byteLength)
open Lexeme (extends?)

/-! ### Closures as they are written and read -/

namespace Closures

/-- Names with a comma between them. -/
def namesText : List Name → List Char
  | [] => []
  | [name] => name.chars
  | name :: names => name.chars ++ ',' :: namesText names

/-- Parameters between their bars. -/
def parametersText (names : List Name) : List Char := '|' :: (namesText names ++ ['|'])

/-- Closures with these parameters from the outside in, and the result of the innermost. -/
def text : List (List Name) → Term → List Char
  | [], e => e.text
  | names :: more, e => parametersText names ++ ' ' :: text more e

/-- The tokens of names with a comma between them. -/
def namesTokens : List Name → List (Kind × String)
  | [] => []
  | [name] => [(.identifier, String.ofList name.chars)]
  | name :: names => (.identifier, String.ofList name.chars) :: (.comma, ",") :: namesTokens names

/-- A child that is a leaf without a label, and the token that it was read from. -/
def IsLeaf (source : String) (c : Child) (token : Kind × String) : Prop :=
  ∃ range, c = (none, .simple token.1 range) ∧ range.slice source = token.2

end Closures

open Closures

/-- A node that holds the parameters of a closure, with the bars and the commas. -/
def Node.HasParameters (source : String) (n : Node) (names : List Name) : Prop :=
  n.kind = .closureParameters ∧
    n.children.Forall₂ (IsLeaf source) ((.pipe, "|") :: (namesTokens names ++ [(.pipe, "|")]))

/-- Closures inside one another, with these parameters from the outside in, around a result. -/
def Node.IsCurried (source : String) : List (List Name) → Term → Node → Prop
  | [], e, n => n.IsTerm source e
  | names :: more, e, n => n.kind = .closureExpression ∧ ∃ parameters body,
      n.children = [(some .parameters, parameters), (some .body, body)] ∧
        parameters.HasParameters source names ∧ body.IsCurried source more e

namespace Closures

variable {source : String} {draft : Draft} {cs rest : List Char} {s : Session} {σ : Setting}
  {depth : Nat} {name : Name} {names : List Name} {e : Term}

/-! ### Bars -/

theorem spells_bar (h : ∀ c, rest.head? = some c → extends? ['|'] c = false) :
    Spells ('|' :: rest) .pipe ['|'] rest :=
  spells_mark (by decide +kernel) h ⟨'|', rest, rfl, by decide, by decide, nofun⟩

/-- The bar behind parameters. -/
theorem spells_lastBar (cs : List Char) : Spells ('|' :: ' ' :: cs) .pipe ['|'] (' ' :: cs) :=
  spells_bar fun _ hc => Option.some.inj hc ▸ by decide +kernel

/-- The bar before a parameter. -/
theorem spells_firstBar (name : Name) (rest : List Char) :
    Spells ('|' :: (name.chars ++ rest)) .pipe ['|'] (name.chars ++ rest) := by
  obtain ⟨c, more, hname, hc⟩ := name.part_head
  refine spells_bar fun d hd => Lexeme.extends?_of_isIdentifierPart _ ?_
  rw [hname] at hd
  exact Option.some.inj hd ▸ hc

/-- Two bars with nothing between them. -/
theorem spells_bars (cs : List Char) :
    Spells ('|' :: '|' :: ' ' :: cs) .pipePipe ['|', '|'] (' ' :: cs) := by
  have hlong : Lexeme.isLongest ['|', '|'] = true := by decide +kernel
  exact spells_mark (by decide +kernel) (fun c _ => Lexeme.extends?_of_isLongest hlong c)
    ⟨'|', _, rfl, by decide, by decide, nofun⟩

/-! ### One parameter -/

/-- The leaf that was read from a token. -/
theorem isLeaf_upon {offset : Nat} {kind : Kind} {word : List Char}
    (h : s.Upon source draft offset kind word rest) :
    IsLeaf source (none, .simple kind ⟨offset, offset + byteLength word⟩)
      (kind, String.ofList word) :=
  ⟨_, rfl, h.slice⟩

/-- A name before a comma or a bar is a parameter without a type. -/
theorem gives_closureParameter {offset : Nat} {kind : Kind} (hw : σ.watches = false)
    (hs : s.Upon source draft offset .identifier name.chars rest) (hf : Follower rest kind)
    (hk : kind.endsPattern = true) :
    Gives source.toList σ (Grammar.upTo depth).closureParameter s
      (ReadsName source draft offset name.chars rest) := by
  refine .step hs.flush (.bind (gives_singlePattern hw hs hf hk) (fun n => ?_) ?_)
  · exact .of_rule depth (q := fun n => ⟨.node n, none, false, false, .proper⟩) <|
      .isAt (.bind (.beside (aside_settle _ _)) fun _ => .node rfl <| .bind .pushField fun _ =>
          .bind .consume fun _ => .field (.call (.inl rfl) rfl))
        (.bind (.beside (aside_settle _ _)) fun _ => .pure .forget)
  · rintro n t ⟨hn, ht⟩
    have hcolon : isAt .colon σ t = some (false, t) :=
      congrArg some (Prod.ext (ht.isAt_endsPattern hf hk rfl (by decide)) rfl)
    exact .step hcolon (.step rfl (.pure ⟨hn, ht.noted _⟩))

/-! ### The parameters of one closure -/

theorem advances_closureParameterTurn {text : List Char} :
    (Grammar.upTo depth).closureParameterTurn.Advances text :=
  .of_rule depth (q := fun b => ⟨.empty, none, b, false, .proper⟩) .closureParameterTurn

/-- The comma behind a name, if more names follow. -/
def commaText : List Name → List Char
  | [] => []
  | _ :: _ => [',']

/-- The token of the comma behind a name. -/
def commaTokens : List Name → List (Kind × String)
  | [] => []
  | _ :: _ => [(.comma, ",")]

theorem namesText_cons (name : Name) (names : List Name) :
    namesText (name :: names) = name.chars ++ (commaText names ++ namesText names) := by
  cases names with
  | nil => simp [namesText, commaText]
  | cons => rfl

theorem namesTokens_cons (name : Name) (names : List Name) :
    namesTokens (name :: names) =
      (.identifier, String.ofList name.chars) :: (commaTokens names ++ namesTokens names) := by
  cases names with
  | nil => rfl
  | cons => rfl

/-- What a parameter and the comma behind it are read to. -/
def ReadsParameter (source : String) (name : Name) (names : List Name) (draft : Draft)
    (cs : List Char) (s : Session) : Prop :=
  ∃ front, front.Forall₂ (IsLeaf source)
    ((.identifier, String.ofList name.chars) :: commaTokens names) ∧
      s.Before source (draft.extend front) (namesText names ++ cs)

/-- Behind a name stands a comma or the bar after the last one. -/
theorem follower_name (names : List Name) (cs : List Char) :
    ∃ kind, Follower (commaText names ++ (namesText names ++ '|' :: ' ' :: cs)) kind ∧
      kind.endsPattern = true := by
  cases names with
  | nil => exact ⟨.pipe, (spells_lastBar cs).follower (by decide) (by decide), rfl⟩
  | cons =>
    exact ⟨.comma, (spells_delimiter ',' .comma _ (by decide)).follower (by decide) (by decide), rfl⟩

/-- A turn over the parameters of a closure that reads one of them. -/
theorem gives_closureParameterTurn (hw : σ.watches = false)
    (hs : s.Before source draft (namesText (name :: names) ++ '|' :: ' ' :: cs)) :
    Gives source.toList σ (Grammar.upTo depth).closureParameterTurn s fun more t =>
      more = true ∧ ReadsParameter source name names draft ('|' :: ' ' :: cs) t := by
  obtain ⟨kind, hf, hk⟩ := follower_name names cs
  rw [namesText_cons, List.append_assoc, List.append_assoc] at hs
  obtain ⟨offset, hname⟩ := hs.upon (name.spells hf.endsName hf.quiet) rfl
  refine .step hname.flush (.step rfl ?_)
  rw [hname.kind_eq]
  refine .step (Grammar.attributes_none (hname.isAt .pound)) (.bind
    (P := fun _ t => ∃ leaf, IsLeaf source leaf (.identifier, String.ofList name.chars) ∧
      t.Before source (draft.extend [leaf])
        (commaText names ++ (namesText names ++ '|' :: ' ' :: cs)))
    (.child (gives_closureParameter hw hname hf hk) ?_) (fun _ => ?_) ?_)
  · rintro n t ⟨rfl, ht⟩
    refine ⟨_, isLeaf_upon hname, ?_⟩
    rw [← Draft.pushChild_eq_extend]
    exact ht.draft ▸ (ht.withDraft _).before
  · exact .of_rule depth .closureMark
  · rintro ⟨⟩ t ⟨leaf, hleaf, ht⟩
    cases names with
    | nil =>
      obtain ⟨offset, hbar⟩ := ht.upon (spells_lastBar cs) rfl
      refine .step rfl ?_
      rw [hbar.kind_eq]
      exact .pure ⟨rfl, _, .cons hleaf .nil, ht⟩
    | cons name names =>
      obtain ⟨offset, hcomma⟩ := ht.upon (spells_delimiter ',' .comma _ (by decide)) rfl
      obtain ⟨u, htake, hu⟩ := hcomma.consume (σ := σ) rfl
      refine .step rfl ?_
      rw [hcomma.kind_eq]
      refine .step htake (.pure ⟨rfl, _, .cons hleaf (.cons (isLeaf_upon hcomma) .nil), ?_⟩)
      show Session.Before source (draft.extend ([leaf] ++ [_])) _ u
      rw [← Draft.extend_extend, ← Draft.pushChild_eq_extend]
      exact hu.before

theorem gives_parameters (hw : σ.watches = false) (names : List Name) :
    ∀ {draft : Draft} {s : Session} (n : Nat),
      s.Before source draft (namesText names ++ '|' :: ' ' :: cs) →
      Gives source.toList σ (iterate (asking (Grammar.upTo depth).closureParameterTurn) n ()) s
        fun _ t => ∃ children,
          children.Forall₂ (IsLeaf source) (namesTokens names ++ [(.pipe, "|")]) ∧
            t.Before source (draft.extend children) (' ' :: cs) := by
  induction names with
  | nil =>
    intro draft s n hs
    obtain ⟨offset, hbar⟩ := hs.upon (spells_lastBar cs) rfl
    obtain ⟨t, htake, ht⟩ := hbar.consume (σ := σ) rfl
    have hturn : (Grammar.upTo depth).closureParameterTurn σ s = some (false, t) := by
      refine bind_eq_some.2 ⟨(), s, hbar.flush, bind_eq_some.2 ⟨s.kind, s, rfl, ?_⟩⟩
      rw [hbar.kind_eq]
      exact bind_eq_some.2 ⟨(), t, bind_eq_some.2 ⟨true, s,
        congrArg some (Prod.ext (hbar.isAt .pipe) rfl), htake⟩, rfl⟩
    exact .askNoMore advances_closureParameterTurn hturn
      ⟨_, .cons (isLeaf_upon hbar) .nil, Draft.pushChild_eq_extend .. ▸ ht.before⟩
  | cons name names ih =>
    intro draft s n hs
    refine .askAgain advances_closureParameterTurn (gives_closureParameterTurn hw hs) ?_
    rintro t ⟨front, hfront, ht⟩ n
    refine .mono (ih n ht) ?_
    rintro - u ⟨children, hchildren, hu⟩
    rw [namesTokens_cons]
    refine ⟨front ++ children, ?_, Draft.extend_extend .. ▸ hu⟩
    simpa using List.rel_append hfront hchildren

/-- The parameters of a closure, where a blank stands behind them. -/
theorem gives_closureParameters (hw : σ.watches = false)
    (hs : s.Before source draft (parametersText names ++ ' ' :: cs)) :
    Gives source.toList σ (Grammar.upTo depth).closureParameters s fun n t =>
      n.HasParameters source names ∧ t.Before source draft (' ' :: cs) := by
  have htext : parametersText names ++ ' ' :: cs = '|' :: (namesText names ++ '|' :: ' ' :: cs) := by
    simp [parametersText]
  rw [htext] at hs
  cases names with
  | nil =>
    obtain ⟨offset, hbars⟩ := hs.upon (spells_bars cs) rfl
    have hfirst := (hbars.withDraft (.ofKind .closureParameters)).split
      Scanner.splitsInto_pipePipe rfl rfl
    obtain ⟨t, htake, ht⟩ := hfirst.consume (σ := σ) rfl
    have hlast := ht.upon (.of_spells (spells_lastBar cs) nofun 0) rfl
    obtain ⟨u, htake', hu⟩ := hlast.consume (σ := σ) rfl
    refine .node (.step (t := _) (congrArg some (Prod.ext (hbars.isAt .pipePipe) rfl)) ?_)
    refine .step rfl (.step htake (.of_run htake' ⟨⟨?_, ?_⟩, hs.draft_eq ▸ (hu.withDraft _).before⟩))
    · show u.draft.kind = _
      rw [hu.draft]
      rfl
    · show List.Forall₂ _ u.draft.children.toList _
      rw [hu.draft]
      exact .cons (isLeaf_upon hfirst) (.cons (isLeaf_upon hlast) .nil)
  | cons name names =>
    have hfirst : Spells ('|' :: (namesText (name :: names) ++ '|' :: ' ' :: cs)) .pipe ['|']
        (namesText (name :: names) ++ '|' :: ' ' :: cs) := by
      rw [namesText_cons, List.append_assoc]
      exact spells_firstBar name _
    obtain ⟨offset, hbar⟩ := hs.upon hfirst rfl
    obtain ⟨t, htake, ht⟩ := (hbar.withDraft (.ofKind .closureParameters)).consume (σ := σ) rfl
    have hexpect : expect .pipe σ (s.withDraft (.ofKind .closureParameters)) = some ((), t) :=
      bind_eq_some.2 ⟨true, _, congrArg some (Prod.ext (hbar.isAt .pipe) rfl), htake⟩
    refine .node (.step (t := _) (congrArg some (Prod.ext (hbar.isAt .pipePipe) rfl)) ?_)
    refine .step hexpect (.mono (.loop fun n => gives_parameters hw (name :: names) n ht.before) ?_)
    rintro - u ⟨children, hchildren, hu⟩
    refine ⟨⟨?_, ?_⟩, hs.draft_eq ▸ hu.withDraft _⟩
    · show u.draft.kind = _
      rw [hu.draft_eq]
      rfl
    · show List.Forall₂ _ u.draft.children.toList _
      rw [hu.draft_eq]
      simpa [Draft.extend, Draft.push, Draft.pushChild, Draft.ofKind] using
        List.Forall₂.cons (isLeaf_upon hbar) hchildren

/-! ### Closures -/

/-- The bar or the bars that a closure begins with. -/
theorem starts_closure (names : List Name) (more : List (List Name)) (e : Term) :
    ∃ kind word rest, Spells (text (names :: more) e ++ [';']) kind word rest ∧
      (kind = .pipe ∨ kind = .pipePipe) := by
  cases names with
  | nil => exact ⟨_, _, _, spells_bars _, .inr rfl⟩
  | cons name names =>
    have htext : text ((name :: names) :: more) e ++ [';'] = '|' :: (name.chars ++
        (commaText names ++ (namesText names ++ '|' :: ' ' :: (text more e ++ [';'])))) := by
      simp [text, parametersText, namesText_cons]
    rw [htext]
    exact ⟨_, _, _, spells_firstBar name _, .inl rfl⟩

/-- The first token of closures, or of their result if there are none. -/
theorem starts (parameters : List (List Name)) (e : Term) :
    ∃ kind word rest, Spells (text parameters e ++ [';']) kind word rest ∧
      kind.isGreater = false ∧ kind ≠ .arrow := by
  cases parameters with
  | nil =>
    obtain ⟨kind, word, rest, hopens, -⟩ := e.starts Term.follower_semicolon
    refine ⟨kind, word, rest, hopens.spells, Kind.isGreater_of_startsTerm hopens.starts, ?_⟩
    rintro rfl
    exact nomatch hopens.starts
  | cons names more =>
    obtain ⟨kind, word, rest, hspells, hkind⟩ := starts_closure names more e
    refine ⟨kind, word, rest, hspells, ?_⟩
    rcases hkind with rfl | rfl
    · exact ⟨rfl, nofun⟩
    · exact ⟨rfl, nofun⟩

/-- What closures are read to, up to the `;` behind the innermost. -/
def Reads (source : String) (parameters : List (List Name)) (e : Term) (draft : Draft) (n : Node)
    (s : Session) : Prop :=
  n.IsCurried source parameters e ∧ s.Before source draft [';']

/-- A closure before what it results in. -/
theorem gives_closure {parameters : List (List Name)} (hσ : σ.Plain)
    (hbody : ∀ {draft : Draft} {s : Session},
      s.Before source draft (text parameters e ++ [';']) →
      Gives source.toList σ (Grammar.upTo depth).expression s (Reads source parameters e draft))
    (hs : s.Before source draft (text (names :: parameters) e ++ [';'])) :
    Gives source.toList σ (Grammar.upTo depth).closure s
      (Reads source (names :: parameters) e draft) := by
  obtain ⟨kind, word, rest, hspells, hkind⟩ := starts_closure names parameters e
  obtain ⟨offset, hbar⟩ : ∃ offset, s.Upon source draft offset kind word rest :=
    hs.upon hspells (by rcases hkind with rfl | rfl <;> rfl)
  have hword : s.isAt .asyncKw = false ∧ s.isAt .moveKw = false := by
    rw [hbar.isAt, hbar.isAt]
    rcases hkind with rfl | rfl <;> exact ⟨rfl, rfl⟩
  have hs : s.Before source draft
      (parametersText names ++ ' ' :: (text parameters e ++ [';'])) := by
    simpa [text] using hs
  refine .node (.step (ifAt_other hword.1) (.step (ifAt_other hword.2) (.step
    (hbar.withDraft (.ofKind .closureExpression)).flush (.bind
      (P := fun _ t => ∃ n, n.HasParameters source names ∧ t.Before source
        ((Draft.ofKind .closureExpression).pushField .parameters n)
        (' ' :: (text parameters e ++ [';'])))
      (.field (gives_closureParameters hσ.watches (hs.withDraft _)) ?_) (fun _ => ?_) ?_))))
  · rintro n t ⟨hn, ht⟩
    exact ⟨n, hn, ht.draft_eq ▸ ht.withDraft _⟩
  · exact .of_rule depth .closureBody
  · rintro ⟨⟩ t ⟨n, hn, ht⟩
    obtain ⟨kind, word, rest, hspells, hgreater, hne⟩ := starts parameters e
    have hbefore := ht.past hspells
    obtain ⟨offset, hupon⟩ := hbefore.upon hspells hgreater
    have harrow : isAt .arrow σ t = some (false, t) :=
      congrArg some (Prod.ext ((hupon.isAt .arrow).trans (beq_eq_false_iff_ne.2 hne)) rfl)
    refine .step harrow (.field (hbody hbefore) ?_)
    rintro m u ⟨hm, hu⟩
    refine ⟨⟨?_, n, m, ?_, hn, hm⟩, hs.draft_eq ▸ (hu.withDraft _).withDraft _⟩
    · show u.draft.kind = _
      rw [hu.draft_eq]
      rfl
    · show (u.draft.pushField .body m).children.toList = _
      rw [hu.draft_eq]
      rfl

/-- Closures inside one another, up to the `;` behind the innermost. -/
theorem gives_expression (parameters : List (List Name)) :
    ∀ {depth : Nat} {σ : Setting} {draft : Draft} {s : Session}, σ.Plain →
      s.Before source draft (text parameters e ++ [';']) →
      Gives source.toList σ (Grammar.upTo depth).expression s (Reads source parameters e draft) := by
  induction parameters with
  | nil => exact fun hσ hs => (e.value source).reads hσ hs
  | cons names parameters ih =>
    intro depth σ draft s hσ hs
    obtain ⟨kind, word, rest, hspells, hkind⟩ := starts_closure names parameters e
    obtain ⟨offset, hbar⟩ : ∃ offset, s.Upon source draft offset kind word rest :=
      hs.upon hspells (by rcases hkind with rfl | rfl <;> rfl)
    refine .parse hσ.watches fun depth => .step hbar.flush (.guarded hs.sound ?_)
    have hclosure : Gives source.toList { σ with depth := σ.depth + 1 }
        (Grammar.upTo depth).closure s (Reads source (names :: parameters) e draft) :=
      gives_closure hσ.deeper (ih hσ.deeper) hs
    have hprefixed : Gives source.toList { σ with depth := σ.depth + 1 }
        (Grammar.upTo depth).prefixed s (Reads source (names :: parameters) e draft) := by
      refine .step rfl ?_
      rw [hbar.kind_eq]
      rcases hkind with rfl | rfl
      · exact hclosure
      · exact hclosure
    refine .thenLoop fun k => .bind hprefixed (advances_infixForms _ k) ?_
    rintro n t ⟨hn, ht⟩
    refine .iterate (advances_infixTurn _) ?_
    obtain ⟨t', hturn, ht'⟩ :=
      Grammar.infixTurn_done ht Term.follower_semicolon (Kind.below_of_none rfl)
    exact .of_run hturn ⟨hn, ht'⟩

theorem value (source : String) (parameters : List (List Name)) (e : Term) :
    Value source (text parameters e) fun n => n.IsCurried source parameters e where
  starts := by
    obtain ⟨kind, word, rest, hspells, -⟩ := starts parameters e
    exact ⟨kind, word, rest, hspells⟩
  reads hσ hs := gives_expression parameters hσ hs

end Closures

/-- **Closures that result in closures** are read without a diagnostic, unless they nest too deeply,
to closures inside one another around the result of the innermost. -/
theorem Tree.parse_closures {file : String} {options : Options} {parameters : List (List Name)}
    {e : Term}
    (h : ∀ d ∈ (parse file (Value.declaration (Closures.text parameters e)) options).diagnostics,
      d.code ≠ Message.nestingLimit.code) :
    (parse file (Value.declaration (Closures.text parameters e)) options).diagnostics = [] ∧
      ∃ n, (parse file (Value.declaration (Closures.text parameters e)) options).root.children =
          [(none, n)] ∧
        n.HasValue (Node.IsCurried (Value.declaration (Closures.text parameters e)) parameters e) :=
  parse_value (Closures.value _ parameters e) h

/-- Bars of two closures that touch are not taken apart. -/
example : (Tree.parse "f.rs" "let x = |a||b|c;" {}).diagnostics ≠ [] ∧
    (Tree.parse "f.rs" "let x = |a| |b| c;" {}).diagnostics = [] := by
  decide +kernel

end ConcreteSyntax
