import ConcreteSyntax.Proofs.Reading.Outcome
import ConcreteSyntax.Proofs.Text.Blank
import ConcreteSyntax.Proofs.Token.Spelling

/-! # Sessions before a known text

A session faces a text when the scanner has come to the first token of it and nothing was reported
(`Session.Faces`); it is upon a token when this token is known (`Session.Upon`). The tokens of a term
are the same whether the scanner has just passed the dot of a field or not, and a `>` may have been
joined with what touches it already: `Comes` tells the token that comes next in all these cases. -/

namespace ConcreteSyntax

open Parse
open Text (Place byteLength)

/-! ### Scanners -/

/-- What is admitted inside a term: the usual, or after the dot of a field all but floats. -/
def Admitted.InTerm (a : Admitted) : Prop := a = .usual ∨ a = .tupleIndex

theorem Admitted.InTerm.literalSuffix {a : Admitted} (h : a.InTerm) : a.literalSuffix = false := by
  rcases h with rfl | rfl <;> rfl

theorem Admitted.InTerm.readsLiterals {a : Admitted} (h : a.InTerm) : a.ReadsLiterals := by
  rcases h with rfl | rfl <;> exact ⟨rfl, rfl⟩

/-- A simple token begins a text, whatever is admitted inside a term. -/
def Spells (cs : List Char) (kind : Kind) (word rest : List Char) : Prop :=
  ∀ a, a.InTerm → Spelled a cs kind word rest

/-- A leaf without marks. -/
def Node.simple (kind : Kind) (range : Range) : Node := ⟨kind, range, {}, []⟩

/-- Whether a token of this kind without pieces enters a tree as a leaf of no special sort. -/
def Kind.becomesLeaf : Kind → Bool
  | .stringToken | .rawStringToken | .charToken | .floatToken => false
  | .errorSentinel | .endOfFile => false
  | _ => true

/-- The kinds of a `>` alone or joined. -/
def Kind.isGreater : Kind → Bool
  | .gt | .gtEq | .shr | .shrEq => true
  | _ => false

namespace Scanner

/-- Joining a `>` either leaves the scanner as it is or makes another mark of it. -/
theorem joinGreater_cases (s : Scanner) :
    s.joinGreater = s ∨ s.joinGreater.kind ≠ .gt ∧ s.joinGreater.kind.isGreater = true := by
  unfold joinGreater
  split
  · exact .inl rfl
  · split
    · exact .inr ⟨nofun, rfl⟩
    · exact .inr ⟨nofun, rfl⟩
    · exact .inr ⟨nofun, rfl⟩
    · exact .inl rfl

theorem joinGreater_idem (s : Scanner) : s.joinGreater.joinGreater = s.joinGreater := by
  rcases joinGreater_cases s with h | ⟨h, -⟩
  · rw [h, h]
  · exact joinGreater_eq_self h

/-- A scanner that has come to the first token of a text inside a term. -/
def Faces (s : Scanner) (offset : Nat) (cs : List Char) : Prop :=
  ∃ a : Admitted, a.InTerm ∧
    (s = facing a { offset, rest := cs } ∨ s = (facing a { offset, rest := cs }).joinGreater)

theorem Faces.joined {s : Scanner} {offset : Nat} {cs : List Char} (h : s.Faces offset cs) :
    s.joinGreater.Faces offset cs := by
  obtain ⟨a, ha, rfl | rfl⟩ := h
  · exact ⟨a, ha, .inr rfl⟩
  · exact ⟨a, ha, .inr (joinGreater_idem _)⟩

/-- Before a known token spaces do not matter. -/
theorem Faces.past {s : Scanner} {offset gap : Nat} {cs word rest : List Char} {kind : Kind}
    (h : s.Faces offset (List.replicate gap ' ' ++ cs)) (hc : Spells cs kind word rest) :
    s.Faces (offset + gap) cs := by
  obtain ⟨a, ha, h⟩ := h
  have hfacing : facing a { offset, rest := List.replicate gap ' ' ++ cs } =
      facing a { offset := offset + gap, rest := cs } :=
    (facing_spelled (hc a ha) ha.literalSuffix offset gap).trans
      (facing_spelled (hc a ha) ha.literalSuffix (offset + gap) 0).symm
  exact ⟨a, ha, hfacing ▸ h⟩

end Scanner

/-- The token that comes next in a text after some spaces, a `>` joined with what touches it. -/
structure Comes (cs : List Char) (gap : Nat) (kind : Kind) (word rest : List Char) : Prop where
  eq : cs = List.replicate gap ' ' ++ (word ++ rest)
  joined : ∀ {s : Scanner} {offset : Nat}, s.Faces offset cs →
    s.joinGreater = .upon (offset + gap) kind word rest

theorem Comes.of_spells {cs word rest : List Char} {kind : Kind} (h : Spells cs kind word rest)
    (hk : kind ≠ .gt) (gap : Nat) : Comes (List.replicate gap ' ' ++ cs) gap kind word rest where
  eq := by rw [(h .usual (.inl rfl)).eq]
  joined := by
    rintro s offset ⟨a, ha, hs⟩
    have hupon := Scanner.facing_spelled (h a ha) ha.literalSuffix offset gap
    have hself : (Scanner.upon (offset + gap) kind word rest).joinGreater = _ :=
      Scanner.joinGreater_eq_self hk
    rcases hs with rfl | rfl
    · rw [hupon, hself]
    · rw [hupon, hself, hself]

/-- The token itself, unless it is made of a `>`. -/
theorem Comes.upon {cs word rest : List Char} {gap offset : Nat} {kind : Kind} {s : Scanner}
    (h : Comes cs gap kind word rest) (hk : kind.isGreater = false) (hs : s.Faces offset cs) :
    s = .upon (offset + gap) kind word rest := by
  have hj := h.joined hs
  rcases s.joinGreater_cases with hself | ⟨-, hgreater⟩
  · exact hself.symm.trans hj
  · rw [hj] at hgreater
    exact absurd (hk.symm.trans hgreater) nofun

/-- The leaf that a simple token becomes. -/
theorem Scanner.ofToken_upon {offset : Nat} {kind : Kind} {word rest : List Char} (as? : Option Kind)
    (hk : kind.becomesLeaf = true) (has : as? ≠ some .errorSentinel) :
    Node.ofToken (upon offset kind word rest).token as? =
      .simple (as?.getD kind) ⟨offset, offset + byteLength word⟩ := by
  have hplain : Node.literalKind? (upon offset kind word rest).token as?.isNone = none := by
    unfold Node.literalKind? upon
    simp only [List.isEmpty_nil, Bool.not_true, Bool.and_false, Bool.false_eq_true, if_false]
    split
    · exact absurd hk nofun
    · exact absurd hk nofun
    · exact absurd hk nofun
    · rfl
    · exact absurd hk nofun
    · rfl
  have hsentinel : as?.getD kind ≠ .errorSentinel := by
    cases as? with
    | none =>
      rintro rfl
      exact absurd hk nofun
    | some kind' => exact fun he => has (congrArg some he)
  unfold Node.ofToken
  rw [hplain]
  simp [Node.leaf, Node.simple, upon, hsentinel]

/-! ### Sessions -/

namespace Session

/-- A session that has come to the first token of a text inside a term, with nothing reported and no
`{` skipped. -/
structure Faces (source : String) (draft : Draft) (offset : Nat) (cs : List Char) (s : Session) :
    Prop where
  sound : s.Sound source.toList
  scanner : s.scanner.Faces offset cs
  report : s.report = .empty
  braces : s.openBraces = 0
  draft : s.draft = draft

/-- A session at a simple token, with nothing reported and no `{` skipped. -/
structure Upon (source : String) (draft : Draft) (offset : Nat) (kind : Kind)
    (word rest : List Char) (s : Session) : Prop where
  sound : s.Sound source.toList
  scanner : s.scanner = .upon offset kind word rest
  report : s.report = .empty
  braces : s.openBraces = 0
  draft : s.draft = draft

variable {source : String} {draft : Draft} {offset gap : Nat} {cs word rest : List Char}
  {kind : Kind} {s : Session} {σ : Setting}

theorem Faces.upon (h : s.Faces source draft offset cs) (hc : Comes cs gap kind word rest)
    (hk : kind.isGreater = false) : s.Upon source draft (offset + gap) kind word rest :=
  ⟨h.sound, hc.upon hk h.scanner, h.report, h.braces, h.draft⟩

/-- Where an operator is wanted the token is known even if it is made of a `>`. -/
theorem Faces.upon_joined (h : s.Faces source draft offset cs) (hc : Comes cs gap kind word rest) :
    Upon source draft (offset + gap) kind word rest { s with scanner := s.scanner.joinGreater } :=
  ⟨(Onward.of_reshaped h.sound (Scanner.joinGreater_reshaped h.sound.scanner)).sound,
    hc.joined h.scanner, h.report, h.braces, h.draft⟩

theorem Faces.joined (h : s.Faces source draft offset cs) :
    Faces source draft offset cs { s with scanner := s.scanner.joinGreater } :=
  ⟨(Onward.of_reshaped h.sound (Scanner.joinGreater_reshaped h.sound.scanner)).sound,
    h.scanner.joined, h.report, h.braces, h.draft⟩

theorem Faces.past (h : s.Faces source draft offset (List.replicate gap ' ' ++ cs))
    (hc : Spells cs kind word rest) : s.Faces source draft (offset + gap) cs :=
  ⟨h.sound, h.scanner.past hc, h.report, h.braces, h.draft⟩

/-- Before a known token a space does not matter. -/
theorem Faces.pastBlank (h : s.Faces source draft offset (' ' :: cs))
    (hc : Spells cs kind word rest) : s.Faces source draft (offset + 1) cs := by
  have h : s.Faces source draft offset (List.replicate 1 ' ' ++ cs) := h
  exact h.past hc

theorem Faces.withDraft (h : s.Faces source draft offset cs) (d : Draft) :
    (s.withDraft d).Faces source d offset cs :=
  ⟨h.sound.withDraft d, h.scanner, h.report, h.braces, rfl⟩

/-- A remark changes nothing of what is known of a session. -/
theorem Faces.noted (h : s.Faces source draft offset cs) (remark : Remark) :
    Faces source draft offset cs { s with remarks := s.remarks.push remark } :=
  ⟨⟨h.sound.scanner, h.sound.leading⟩, h.scanner, h.report, h.braces, h.draft⟩

theorem Upon.withDraft (h : s.Upon source draft offset kind word rest) (d : Draft) :
    (s.withDraft d).Upon source d offset kind word rest :=
  ⟨h.sound.withDraft d, h.scanner, h.report, h.braces, rfl⟩

theorem Upon.kind_eq (h : s.Upon source draft offset kind word rest) : s.kind = kind := by
  rw [Session.kind, h.scanner]
  rfl

theorem Upon.isAt (h : s.Upon source draft offset kind word rest) (kind' : Kind) :
    s.isAt kind' = (kind == kind') := by
  rw [Session.isAt, h.kind_eq]

/-- The kind of the token after the current one. -/
theorem Upon.ahead (h : s.Upon source draft offset kind word rest) :
    s.ahead 1 =
      (Scanner.facing .usual { offset := offset + byteLength word, rest }).kind := by
  show (s.scanner.scan Lexeme.contextual? .usual).kind = _
  rw [Scanner.scan_eq, h.scanner]
  rfl

/-- The kind of the token after the current one, where this is known. -/
theorem Upon.ahead_spells (h : s.Upon source draft offset kind word rest) {kind' : Kind}
    {word' rest' : List Char} (hs : Spells rest kind' word' rest') : s.ahead 1 = kind' := by
  rw [h.ahead]
  exact congrArg Scanner.kind (Scanner.facing_spelled (hs _ (.inl rfl)) rfl _ 0)

theorem Upon.flushed (h : s.Upon source draft offset kind word rest) : s.flushed σ = s :=
  flushed_of_leading (congrArg Scanner.leading h.scanner)

theorem Upon.flush (h : s.Upon source draft offset kind word rest) :
    Parse.flush σ s = some ((), s) := by
  rw [flush_run, h.flushed]

/-- The text of the current token. -/
theorem Upon.slice (h : s.Upon source draft offset kind word rest) :
    Range.slice ⟨offset, offset + byteLength word⟩ source = String.ofList word := by
  have hplace := h.sound.scanner.start.2
  rw [h.scanner] at hplace
  exact Range.slice_eq hplace

/-! ### Taking a token -/

theorem Upon.ofToken (h : s.Upon source draft offset kind word rest) (as? : Option Kind)
    (hk : kind.becomesLeaf = true) (has : as? ≠ some .errorSentinel) :
    Node.ofToken s.scanner.token as? =
      .simple (as?.getD kind) ⟨offset, offset + byteLength word⟩ :=
  h.scanner ▸ Scanner.ofToken_upon as? hk has

theorem Upon.taken_scanner (h : s.Upon source draft offset kind word rest) {next : Admitted} :
    (s.taken σ next).scanner = .facing next { offset := offset + byteLength word, rest } := by
  show s.scanner.scan Lexeme.contextual? next = _
  rw [Scanner.scan_eq, h.scanner]
  rfl

theorem Upon.taken (h : s.Upon source draft offset kind word rest) {next : Admitted}
    (hn : next.InTerm) :
    (s.taken σ next).Faces source draft (offset + byteLength word) rest where
  sound := h.sound.taken σ hn.readsLiterals
  scanner := ⟨next, hn, .inl h.taken_scanner⟩
  report := by
    show s.report.addAll (s.scanner.token.faults.map _) = _
    rw [h.scanner, h.report]
    rfl
  braces := by
    show (s.flushed σ).openBraces = 0
    rw [h.flushed, h.braces]
  draft := by
    show (s.flushed σ).draft = draft
    rw [h.flushed, h.draft]

/-- Taking a simple token into the open draft. -/
theorem Upon.consumeWith (h : s.Upon source draft offset kind word rest) (label : Option Field)
    (as? : Option Kind) (next : Admitted) (hk : kind.becomesLeaf = true)
    (has : as? ≠ some .errorSentinel) (hn : next.InTerm) :
    ∃ s', Parse.consumeWith label as? next σ s = some ((), s') ∧
      s'.Faces source
        (draft.pushChild label (.simple (as?.getD kind) ⟨offset, offset + byteLength word⟩))
        (offset + byteLength word) rest ∧
      s'.scanner = .facing next { offset := offset + byteLength word, rest } := by
  have hend : s.kind ≠ .endOfFile := by
    rw [h.kind_eq]
    rintro rfl
    exact absurd hk nofun
  refine ⟨_, consumeWith_run label as? next σ s, ?_⟩
  rw [if_neg hend, h.ofToken as? hk has, (h.taken hn).draft]
  exact ⟨(h.taken hn).withDraft _, h.taken_scanner (σ := σ)⟩

theorem Upon.consume (h : s.Upon source draft offset kind word rest)
    (hk : kind.becomesLeaf = true) :
    ∃ s', Parse.consume σ s = some ((), s') ∧
      s'.Faces source (draft.push (.simple kind ⟨offset, offset + byteLength word⟩))
        (offset + byteLength word) rest := by
  obtain ⟨s', hconsume, hs', -⟩ := h.consumeWith (σ := σ) none none .usual hk nofun (.inl rfl)
  exact ⟨s', hconsume, hs'⟩

/-- Taking a simple token as a leaf of another kind. -/
theorem Upon.leaf (h : s.Upon source draft offset kind word rest) (as? : Option Kind)
    (hk : kind.becomesLeaf = true) (has : as? ≠ some .errorSentinel) :
    ∃ s', Parse.leaf as? σ s =
        some (.simple (as?.getD kind) ⟨offset, offset + byteLength word⟩, s') ∧
      s'.Faces source draft (offset + byteLength word) rest := by
  have hend : s.kind ≠ .endOfFile := by
    rw [h.kind_eq]
    rintro rfl
    exact absurd hk nofun
  exact ⟨_, h.ofToken as? hk has ▸ leaf_run as? σ hend, h.taken (.inl rfl)⟩

/-- Taking digits into the open draft. -/
theorem Upon.consumeNumber (h : s.Upon source draft offset .integerToken word rest)
    (next : Admitted) (hn : next.InTerm) :
    ∃ s', Parse.consumeNumber next σ s = some ((), s') ∧
      s'.Faces source (draft.push (.simple .integerToken ⟨offset, offset + byteLength word⟩))
        (offset + byteLength word) rest := by
  have hend : s.kind ≠ .endOfFile := by
    rw [h.kind_eq]
    nofun
  refine ⟨_, consumeNumber_run next σ hend, ?_⟩
  rw [h.ofToken none rfl nofun, (h.taken hn).draft]
  exact (h.taken hn).withDraft _

/-- The first half of a doubled mark. -/
theorem Upon.split {c : Char} {first : Kind} (h : s.Upon source draft offset kind [c, c] rest)
    (hk : Scanner.SplitsInto kind first) (hc : c.utf8Size = 1)
    (hfirst : first.markText = some (String.ofList [c])) :
    Upon source draft offset first [c] (c :: rest)
      { s with scanner := s.scanner.split first } := by
  have hsplits : Scanner.SplitsInto s.scanner.kind first := by
    rw [h.scanner]
    exact hk
  have hreshaped := (Scanner.split_reshaped h.sound.scanner hsplits).1
  refine ⟨(Onward.of_reshaped h.sound hreshaped).sound, ?_, h.report, h.braces, h.draft⟩
  show s.scanner.split first = _
  rw [h.scanner]
  have hskip : Cursor.skip { offset, rest := c :: c :: rest } 1 =
      { offset := offset + 1, rest := c :: rest } := by
    have hskip := Cursor.skip_append (c := { offset, rest := c :: c :: rest }) [c] rfl rfl
    simpa [hc] using hskip
  have hlength : (Scanner.upon offset kind [c, c] rest).token.length = 2 := by
    simp [Scanner.upon, Token.length, Range.length, hc]
  have hsize : (String.ofList [c]).utf8ByteSize = 1 := by
    rw [← Text.byteLength_toList, String.toList_ofList]
    simp [hc]
  unfold Scanner.split
  rw [hlength, hfirst]
  simp only [hsize]
  rw [if_pos (by decide)]
  unfold Scanner.resize
  simp [Scanner.upon, hc, hskip]

/-! ### Wherever the text stands -/

/-- A session that has come to the first token of a text, wherever this stands. -/
def Before (source : String) (draft : Draft) (cs : List Char) (s : Session) : Prop :=
  ∃ offset, s.Faces source draft offset cs

theorem Faces.before (h : s.Faces source draft offset cs) : s.Before source draft cs := ⟨offset, h⟩

theorem Before.upon (h : s.Before source draft cs) (hs : Spells cs kind word rest)
    (hk : kind.isGreater = false) : ∃ offset, s.Upon source draft offset kind word rest := by
  obtain ⟨offset, h⟩ := h
  have hgt : kind ≠ .gt := by
    rintro rfl
    exact nomatch hk
  exact ⟨offset, h.upon (.of_spells hs hgt 0) hk⟩

theorem Before.past (h : s.Before source draft (' ' :: cs)) (hs : Spells cs kind word rest) :
    s.Before source draft cs := by
  obtain ⟨offset, h⟩ := h
  exact ⟨offset + 1, h.pastBlank hs⟩

theorem Before.draft_eq (h : s.Before source draft cs) : s.draft = draft := by
  obtain ⟨offset, h⟩ := h
  exact h.draft

theorem Before.sound (h : s.Before source draft cs) : s.Sound source.toList := by
  obtain ⟨offset, h⟩ := h
  exact h.sound

theorem Before.withDraft (h : s.Before source draft cs) (d : Draft) :
    (s.withDraft d).Before source d cs := by
  obtain ⟨offset, h⟩ := h
  exact ⟨offset, h.withDraft d⟩

end Session

end ConcreteSyntax
