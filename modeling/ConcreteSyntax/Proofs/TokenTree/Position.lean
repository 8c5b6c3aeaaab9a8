import ConcreteSyntax.Proofs.Excerpt.Reach
import ConcreteSyntax.Proofs.Reading.Rules
import ConcreteSyntax.Proofs.TokenTree.Sequence

/-! # Standing at a sequence of tokens

The rest of a text as its tokens (`Scanner.Yields`), and what a session that stands there sees of
them (`Session.At`). Behind a literal the scanner is asked for a suffix, except where the literal is
the separator of a repetition; there it makes no difference, because the mark that has to follow is
no name (`Session.At.taken_separator`). -/

namespace ConcreteSyntax

open Lexeme (contextual?)
open TokenTree (headKind)

/-! ### Tokens to come -/

namespace Scanner

/-- What is admitted behind a token: a name that touches a literal is its suffix. -/
def admittedPast (k : Kind) : Admitted := if k.takesSuffix then .afterLiteral else .usual

/-- The scanner at the token behind this one. -/
def past (r : Scanner) : Scanner := r.scan contextual? (admittedPast r.kind)

/-- The rest of the text is lexically valid, and these are its tokens. -/
inductive Yields : Scanner → List Token → Prop
  | atEnd {r : Scanner} (hkind : r.kind = .endOfFile) : Yields r []
  | cons {r : Scanner} {ts : List Token} (hkind : r.kind ≠ .endOfFile)
      (hvalid : r.token.faults = []) (rest : Yields r.past ts) : Yields r (r.token :: ts)

theorem admittedPast_reads (k : Kind) : (admittedPast k).ReadsLiterals := by
  unfold admittedPast
  split
  · exact ⟨rfl, rfl⟩
  · exact readsLiterals_usual

theorem Yields.kind {r : Scanner} {ts : List Token} (h : r.Yields ts) : r.kind = headKind ts := by
  cases h with
  | atEnd hkind => exact hkind
  | cons => rfl

/-- The comments before a token are none of the tokens. -/
theorem Yields.withoutLeading {r : Scanner} {ts : List Token} (h : r.Yields ts) :
    Yields { r with leading := [] } ts := by
  have hpast : ({ r with leading := [] } : Scanner).past = r.past := by
    unfold past
    rw [scan_eq, scan_eq]
    rfl
  cases h with
  | atEnd hkind => exact .atEnd hkind
  | cons hkind hvalid rest =>
    exact .cons (r := { r with leading := [] }) hkind hvalid (hpast ▸ rest)

theorem past_sound {text : List Char} {r : Scanner} (h : r.Sound text) :
    r.past.Sound text ∧ r.here.offset ≤ r.past.start.offset := by
  obtain ⟨hsound, hleading⟩ := scan_sound (admittedPast_reads r.kind) h.here
  exact ⟨hsound, hleading.le⟩

/-- Each token ends behind the one before it. -/
theorem Yields.pairwise {text : List Char} {r : Scanner} {ts : List Token} (h : r.Yields ts)
    (hr : r.Sound text) : ts.Pairwise (·.range.stop < ·.range.stop) ∧
      ∀ t ∈ ts, r.start.offset < t.range.stop := by
  induction h with
  | atEnd => exact ⟨.nil, List.forall_mem_nil _⟩
  | @cons r ts hkind _ rest ih =>
    obtain ⟨hsound, hle⟩ := past_sound hr
    obtain ⟨hpairwise, hlater⟩ := ih hsound
    have hstop : r.token.range.stop = r.here.offset := congrArg Range.stop hr.range
    have hlt := hr.lt hkind
    refine ⟨List.pairwise_cons.2 ⟨fun t ht => ?_, hpairwise⟩, fun t ht => ?_⟩
    · have := hlater t ht
      omega
    · rcases List.mem_cons.1 ht with rfl | ht
      · omega
      · have := hlater t ht
        omega

/-- So a sequence splits in one way at the end of a token. -/
theorem Yields.unique {text : List Char} {r : Scanner} {ts us ts' us' : List Token} {c c' : Token}
    (h : r.Yields (ts ++ c :: us)) (hr : r.Sound text) (he : ts ++ c :: us = ts' ++ c' :: us')
    (hstop : c.range.stop = c'.range.stop) : ts = ts' ∧ c = c' ∧ us = us' := by
  have hpairwise := (h.pairwise hr).1
  rcases List.append_eq_append_iff.1 he with ⟨more, hts, hrest⟩ | ⟨more, hts, hrest⟩
  · cases more with
    | nil =>
      obtain ⟨rfl, rfl⟩ := List.cons.inj hrest
      exact ⟨by simpa using hts.symm, rfl, rfl⟩
    | cons d more =>
      obtain ⟨rfl, rfl⟩ := List.cons.inj hrest
      have hlt := (List.pairwise_append.1 hpairwise).2.1
      have := (List.pairwise_cons.1 hlt).1 c' (by simp)
      omega
  · cases more with
    | nil =>
      obtain ⟨rfl, rfl⟩ := List.cons.inj hrest
      exact ⟨by simpa using hts, rfl, rfl⟩
    | cons d more =>
      obtain ⟨rfl, rfl⟩ := List.cons.inj hrest
      rw [he] at hpairwise
      have hlt := (List.pairwise_append.1 hpairwise).2.1
      have := (List.pairwise_cons.1 hlt).1 c (by simp)
      omega

/-- The tokens to come, where they are all valid and no more than a number. -/
def tokens? : Nat → Scanner → Option (List Token)
  | 0, r => if r.kind = .endOfFile then some [] else none
  | n + 1, r =>
    if r.kind = .endOfFile then some []
    else if r.token.faults = [] then (tokens? n r.past).map (r.token :: ·)
    else none

theorem yields_of_tokens? {n : Nat} {r : Scanner} {ts : List Token} (h : tokens? n r = some ts) :
    r.Yields ts := by
  induction n generalizing r ts with
  | zero =>
    unfold tokens? at h
    split at h
    · next hkind =>
      obtain rfl := Option.some.inj h
      exact .atEnd hkind
    · exact nomatch h
  | succ n ih =>
    unfold tokens? at h
    split at h
    · next hkind =>
      obtain rfl := Option.some.inj h
      exact .atEnd hkind
    · next hkind =>
      split at h
      · next hvalid =>
        obtain ⟨us, hus, rfl⟩ := Option.map_eq_some_iff.1 h
        exact .cons hkind hvalid (ih hus)
      · exact nomatch h

/-- A mark is read behind a literal whether or not a suffix is asked for. -/
theorem facing_repetitionMark {c : Cursor} (hcut : c.cut = 0)
    (h : (facing .afterLiteral c).kind.isRepetitionMark = true ∨
      (facing .usual c).kind.isRepetitionMark = true) :
    facing .afterLiteral c = facing .usual c := by
  by_cases hname : Text.identifierPrefix c.rest = []
  · exact facing_afterLiteral hname
  · exfalso
    rcases h with h | h
    · rw [(facing_suffix hcut hname).1] at h
      exact Bool.false_ne_true h
    · rw [facing_name rfl hcut hname] at h
      change (Lexeme.next contextual? .usual c.rest).kind.isRepetitionMark = true at h
      rcases Lexeme.next_name .usual rfl hname with hk | hk | hk | hk
      · have hword : (Lexeme.word c.rest).kind =
            Lexeme.wordKind (Text.identifierPrefix c.rest) := by
          simp [Lexeme.word, hname, Lexeme.plain]
        rw [hk, hword] at h
        rcases Lexeme.wordKind_cases (Text.identifierPrefix c.rest) with hk | hk | ⟨hk, -⟩
        · rw [hk] at h
          exact Bool.false_ne_true h
        · rw [hk] at h
          exact Bool.false_ne_true h
        · have hnone : Kind.reservedWords.all (!·.isRepetitionMark) = true := by decide +kernel
          have := List.all_eq_true.1 hnone _ hk
          simp [h] at this
      · rw [hk] at h
        exact Bool.false_ne_true h
      · rcases Kind.eq_of_takesSuffix hk with hk | hk | hk | hk | hk <;> rw [hk] at h <;>
          exact Bool.false_ne_true h
      · rw [hk] at h
        exact Bool.false_ne_true h

end Scanner

/-! ### Sessions -/

namespace Session

/-- A session stands at these tokens, which are all that is left of the text. -/
structure At (text : List Char) (s : Session) (ts : List Token) : Prop where
  sound : s.Sound text
  isToken : s.kind.isToken = true
  yields : s.scanner.Yields ts

namespace At

variable {text : List Char} {s : Session} {ts : List Token} {t : Token} {σ : Setting}

theorem kind (h : s.At text ts) : s.kind = headKind ts := h.yields.kind

theorem kind_cons (h : s.At text (t :: ts)) : s.kind = t.kind := h.kind

theorem flushed (h : s.At text ts) : (s.flushed σ).At text ts :=
  ⟨h.sound.flushed σ, h.isToken, h.yields.withoutLeading⟩

theorem withDraft (h : s.At text ts) (d : Draft) : (s.withDraft d).At text ts :=
  ⟨h.sound.withDraft d, h.isToken, h.yields⟩

/-- Nothing is wrong at the current token. -/
theorem faults (h : s.At text ts) : s.scanner.token.faults = [] := by
  obtain ⟨hsound, -, hyields⟩ := h
  cases hyields with
  | atEnd hkind =>
    have hkind : s.scanner.token.kind = .endOfFile := hkind
    exact hsound.scanner.laid.faultless (by rw [hkind]; rfl)
  | cons _ hvalid => exact hvalid

theorem token (h : s.At text (t :: ts)) : s.scanner.token = t := by
  obtain ⟨-, -, hyields⟩ := h
  generalize hus : t :: ts = us at hyields
  cases hyields with
  | atEnd => exact nomatch hus
  | cons => exact (List.cons.inj hus).1.symm

theorem ne_end (h : s.At text (t :: ts)) : s.kind ≠ .endOfFile := by
  obtain ⟨-, -, hyields⟩ := h
  generalize hus : t :: ts = us at hyields
  cases hyields with
  | atEnd => exact nomatch hus
  | cons hkind => exact hkind

/-- Where something else than the end comes next, there is a token. -/
theorem exists_cons (h : s.At text ts) (hk : s.kind ≠ .endOfFile) :
    ∃ t us, ts = t :: us ∧ t.kind = s.kind := by
  cases ts with
  | nil => exact absurd h.kind hk
  | cons t us => exact ⟨t, us, rfl, h.kind.symm⟩

/-- A session stands at the tokens behind the one that was taken. -/
theorem taken (h : s.At text (t :: ts)) : (s.taken σ (Scanner.admittedPast t.kind)).At text ts := by
  have htoken := h.token
  obtain ⟨hsound, -, hyields⟩ := h
  generalize hus : t :: ts = us at hyields
  cases hyields with
  | atEnd => exact nomatch hus
  | cons _ _ rest =>
    obtain ⟨rfl, rfl⟩ := List.cons.inj hus
    refine ⟨hsound.taken σ (Scanner.admittedPast_reads _), ?_, rest⟩
    have hkind : (s.taken σ (Scanner.admittedPast s.scanner.token.kind)).kind ∈ Scanner.kinds :=
      Scanner.scan_mem_kinds _ _
    have hall : Scanner.kinds.all (fun k => k.isToken || k.isComment) = true := by decide +kernel
    have hno := (hsound.taken σ (Scanner.admittedPast_reads s.scanner.token.kind)).scanner.noComment
    rcases Bool.or_eq_true_iff.1 (List.all_eq_true.1 hall _ hkind) with h | h
    · exact h
    · exact nomatch hno.symm.trans h

theorem taken_usual (h : s.At text (t :: ts)) (hk : t.kind.takesSuffix = false) :
    (s.taken σ .usual).At text ts := by
  have htaken := h.taken (σ := σ)
  rwa [Scanner.admittedPast, hk] at htaken

theorem taken_literal (h : s.At text (t :: ts)) (hk : t.kind.takesSuffix = true) :
    (s.taken σ .afterLiteral).At text ts := by
  have htaken := h.taken (σ := σ)
  rwa [Scanner.admittedPast, hk] at htaken

/-- A look ahead sees the next token but one. -/
theorem ahead (h : s.At text (t :: ts)) (hk : t.kind.takesSuffix = false) (σ : Setting) :
    s.ahead 1 = headKind ts :=
  (h.taken_usual (σ := σ) hk).kind

/-- Before the mark of a repetition it makes no difference whether a suffix is asked for. -/
theorem taken_separator (h : s.At text (t :: ts))
    (hop : (headKind ts).isRepetitionMark = true ∨
      (s.taken σ .usual).kind.isRepetitionMark = true) :
    (s.taken σ .usual).At text ts := by
  by_cases hk : t.kind.takesSuffix = true
  · have htaken := h.taken_literal (σ := σ) hk
    have hsame : s.taken σ .usual = s.taken σ .afterLiteral := by
      have hop : (Scanner.facing .afterLiteral s.scanner.here).kind.isRepetitionMark = true ∨
          (Scanner.facing .usual s.scanner.here).kind.isRepetitionMark = true := by
        rw [← Scanner.scan_eq, ← Scanner.scan_eq]
        refine hop.imp_left fun hop => ?_
        rwa [← htaken.kind] at hop
      have hscan :
          s.scanner.scan contextual? .usual = s.scanner.scan contextual? .afterLiteral := by
        rw [Scanner.scan_eq, Scanner.scan_eq,
          Scanner.facing_repetitionMark h.sound.scanner.here.1 hop]
      unfold Session.taken
      rw [hscan]
    rwa [hsame]
  · exact h.taken_usual (Bool.eq_false_iff.2 hk)

end At

end Session

end ConcreteSyntax
