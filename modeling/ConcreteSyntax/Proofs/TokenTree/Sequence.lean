import ConcreteSyntax.Grammar.TokenTree

/-! # Sequences of tokens that form trees

Which sequences of tokens may stand between the delimiters of a token tree, said of the sequence
alone: it is balanced, every `$( … )` in it is repeated, and in a pattern every metavariable before
a colon binds a fragment (`TokenTree.Accepted`). The same is said once more along the brackets of
the sequence (`TokenTree.Derives`), which is the form that readings are compared with. The two agree
(`TokenTree.accepted_iff`), because a delimiter has one partner only (`TokenTree.Balanced.unique`):
no front of a balanced sequence closes more than it opens. -/

namespace ConcreteSyntax

/-! ### Brackets -/

/-- Two delimiters that belong together: whether they are those of a repetition, where they stand,
and the brackets between them. -/
structure Bracket where
  repeats : Bool
  delimiters : List Range
  inside : List Bracket

/-- Whether nothing is asked of a token of this kind or of what follows it. -/
def Kind.isInert (k : Kind) : Bool := !(k.isOpen || k.isClose || k == .dollar || k == .metavariable)

namespace TokenTree

/-- A sequence is balanced and has these brackets. Whether a `$` stands before it says whether a
parenthesis at its front is that of a repetition. -/
inductive Nests : Bool → List Token → List Bracket → Prop
  | nil {dollar : Bool} : Nests dollar [] []
  | token {dollar : Bool} {t : Token} {ts : List Token} {bs : List Bracket}
      (hopen : t.kind.isOpen = false) (hclose : t.kind.isClose = false)
      (rest : Nests (t.kind == .dollar) ts bs) : Nests dollar (t :: ts) bs
  | group {dollar : Bool} {o c : Token} {ts us : List Token} {inside bs : List Bracket}
      (hoc : o.kind.closer? = some c.kind) (inner : Nests false ts inside)
      (rest : Nests false us bs) :
      Nests dollar (o :: (ts ++ c :: us))
        (⟨dollar && o.kind == .openParen, [o.range, c.range], inside⟩ :: bs)

/-- The delimiters of a sequence match. -/
def Balanced (ts : List Token) : Prop := ∃ bs, Nests false ts bs

/-! ### What is accepted -/

/-- A separator and a mark that says how often, or the mark alone, comes next. -/
inductive Repeated : List Token → Prop
  | mark {op : Token} {ts : List Token} (hop : op.kind.isRepetitionMark = true) :
      Repeated (op :: ts)
  | separated {separator op : Token} {ts : List Token} (hdollar : separator.kind ≠ .dollar)
      (hopen : separator.kind.isOpen = false) (hclose : separator.kind.isClose = false)
      (hop : op.kind.isRepetitionMark = true) : Repeated (separator :: op :: ts)

/-- A word that says which fragment is bound comes next. -/
inductive NamesFragment (source : String) : List Token → Prop
  | word {t : Token} {ts : List Token} (hword : (t.kind == .identifier || t.kind.isWord) = true)
      (hspecifier : Fragment.isSpecifier (t.text source) = true) : NamesFragment source (t :: ts)

/-- What may stand between the delimiters of a token tree. -/
structure Accepted (form : TreeForm) (source : String) (ts : List Token) : Prop where
  balanced : Balanced ts
  /-- Every `$( … )` is repeated. -/
  repeated : ∀ front dollar o inner c back, ts = front ++ dollar :: o :: (inner ++ c :: back) →
    dollar.kind = .dollar → o.kind = .openParen → Balanced inner → c.kind = .closeParen →
    Repeated back
  /-- In a pattern every metavariable before a colon binds a fragment. -/
  bound : form.hasBindings = true → ∀ front name colon back, ts = front ++ name :: colon :: back →
    name.kind = .metavariable → colon.kind = .colon → NamesFragment source back

/-- The kind of the token that comes next. -/
def headKind : List Token → Kind
  | [] => .endOfFile
  | t :: _ => t.kind

/-- What may stand there, along the brackets. -/
inductive Derives (form : TreeForm) (source : String) : Bool → List Token → List Bracket → Prop
  | nil {dollar : Bool} : Derives form source dollar [] []
  | token {dollar : Bool} {t : Token} {ts : List Token} {bs : List Bracket}
      (hopen : t.kind.isOpen = false) (hclose : t.kind.isClose = false)
      (hbound : form.hasBindings = true → t.kind = .metavariable →
        ∀ colon back, ts = colon :: back → colon.kind = .colon → NamesFragment source back)
      (rest : Derives form source (t.kind == .dollar) ts bs) :
      Derives form source dollar (t :: ts) bs
  | group {dollar : Bool} {o c : Token} {ts us : List Token} {inside bs : List Bracket}
      (hoc : o.kind.closer? = some c.kind) (inner : Derives form source false ts inside)
      (hrepeated : dollar = true → o.kind = .openParen → Repeated us)
      (rest : Derives form source false us bs) :
      Derives form source dollar (o :: (ts ++ c :: us))
        (⟨dollar && o.kind == .openParen, [o.range, c.range], inside⟩ :: bs)

/-! ### Delimiters -/

theorem isOpen_of_closer? {o c : Kind} (h : o.closer? = some c) : o.isOpen = true := by
  cases o <;> first | rfl | exact nomatch h

theorem isClose_of_closer? {o c : Kind} (h : o.closer? = some c) : c.isClose = true := by
  unfold Kind.closer? at h
  split at h
  case h_4 => exact nomatch h
  all_goals exact Option.some.inj h ▸ rfl

theorem isOpen_of_isClose {k : Kind} (h : k.isClose = true) : k.isOpen = false := by
  cases k <;> first | rfl | exact nomatch h

/-- How many delimiters a sequence opens more than it closes. -/
def rise : List Token → Int
  | [] => 0
  | t :: ts => (if t.kind.isOpen then 1 else if t.kind.isClose then -1 else 0) + rise ts

theorem rise_append (ts us : List Token) : rise (ts ++ us) = rise ts + rise us := by
  induction ts with
  | nil => simp [rise]
  | cons t ts ih => simp only [List.cons_append, rise, ih]; omega

theorem rise_cons_open {o : Token} (ho : o.kind.isOpen = true) (ts : List Token) :
    rise (o :: ts) = 1 + rise ts := by
  simp [rise, ho]

theorem rise_cons_close {c : Token} (hc : c.kind.isClose = true) (ts : List Token) :
    rise (c :: ts) = -1 + rise ts := by
  simp [rise, hc, isOpen_of_isClose hc]

/-- A balanced sequence closes what it opens, and no front of it closes more. -/
theorem Nests.rise_front {dollar : Bool} {ts : List Token} {bs : List Bracket}
    (h : Nests dollar ts bs) : rise ts = 0 ∧ ∀ front back, ts = front ++ back → 0 ≤ rise front := by
  induction h with
  | nil =>
    refine ⟨rfl, fun front back he => ?_⟩
    obtain ⟨rfl, -⟩ := List.append_eq_nil_iff.1 he.symm
    exact Int.le_refl 0
  | @token _ t ts _ hopen hclose _ ih =>
    obtain ⟨hzero, hfront⟩ := ih
    have hrise (us : List Token) : rise (t :: us) = rise us := by simp [rise, hopen, hclose]
    refine ⟨(hrise ts).trans hzero, fun front back he => ?_⟩
    cases front with
    | nil => exact Int.le_refl 0
    | cons _ front =>
      obtain ⟨rfl, hts⟩ := List.cons.inj he
      rw [hrise]
      exact hfront front back hts
  | @group _ o c ts us _ _ hoc _ _ ih ih' =>
    obtain ⟨hzero, hfront⟩ := ih
    obtain ⟨hzero', hfront'⟩ := ih'
    have ho := rise_cons_open (isOpen_of_closer? hoc)
    have hc := rise_cons_close (isClose_of_closer? hoc)
    refine ⟨by rw [ho, rise_append, hc]; omega, fun front back he => ?_⟩
    cases front with
    | nil => exact Int.le_refl 0
    | cons _ front =>
      obtain ⟨rfl, hrow⟩ := List.cons.inj he
      rw [ho]
      rcases List.append_eq_append_iff.1 hrow with ⟨more, rfl, hback⟩ | ⟨more, hts, -⟩
      · -- the front reaches to the closer or behind it
        cases more with
        | nil => rw [List.append_nil, hzero]; omega
        | cons _ more =>
          obtain ⟨rfl, hus⟩ := List.cons.inj hback
          have := hfront' more back hus
          rw [rise_append, hc]
          omega
      · have := hfront front more hts
        omega

/-- A balanced sequence in front of a closer ends at that closer only. -/
theorem Balanced.unique {ts ts' us us' : List Token} {c c' : Token} (h : Balanced ts)
    (h' : Balanced ts') (hc : c.kind.isClose = true) (hc' : c'.kind.isClose = true)
    (he : ts ++ c :: us = ts' ++ c' :: us') : ts = ts' ∧ c = c' ∧ us = us' := by
  -- the longer one would close too much at the closer of the other
  have hno {as bs : List Token} {d : Token} (hd : d.kind.isClose = true) (ha : Balanced as)
      (hb : Balanced bs) (more : List Token) : bs ≠ as ++ d :: more := by
    rintro rfl
    obtain ⟨_, ha⟩ := ha
    obtain ⟨_, hb⟩ := hb
    have hfront := hb.rise_front.2 (as ++ [d]) more (by simp)
    rw [rise_append, rise_cons_close hd, ha.rise_front.1] at hfront
    simp [rise] at hfront
  rcases List.append_eq_append_iff.1 he with ⟨more, hts, he⟩ | ⟨more, hts, he⟩
  · cases more with
    | nil =>
      obtain ⟨rfl, rfl⟩ := List.cons.inj he
      exact ⟨(List.append_nil ts ▸ hts).symm, rfl, rfl⟩
    | cons _ more =>
      obtain ⟨rfl, -⟩ := List.cons.inj he
      exact absurd hts (hno hc h h' more)
  · cases more with
    | nil =>
      obtain ⟨rfl, rfl⟩ := List.cons.inj he
      exact ⟨hts.trans (List.append_nil ts'), rfl, rfl⟩
    | cons _ more =>
      obtain ⟨rfl, -⟩ := List.cons.inj he
      exact absurd hts (hno hc' h' h more)

/-- So the brackets of a sequence are determined by it. -/
theorem Nests.unique {dollar : Bool} {ts : List Token} {bs bs' : List Bracket}
    (h : Nests dollar ts bs) (h' : Nests dollar ts bs') : bs = bs' := by
  induction h generalizing bs' with
  | nil =>
    cases h'
    rfl
  | @token _ t ts _ hopen hclose rest ih =>
    generalize hus : t :: ts = us at h'
    cases h' with
    | nil => exact nomatch hus
    | token _ _ rest' =>
      obtain ⟨rfl, rfl⟩ := List.cons.inj hus
      exact ih rest'
    | group hoc =>
      obtain ⟨rfl, -⟩ := List.cons.inj hus
      exact absurd hopen (by simp [isOpen_of_closer? hoc])
  | @group _ o c ts us _ _ hoc inner rest ih ih' =>
    generalize hvs : o :: (ts ++ c :: us) = vs at h'
    cases h' with
    | nil => exact nomatch hvs
    | token hopen =>
      obtain ⟨rfl, -⟩ := List.cons.inj hvs
      exact absurd hopen (by simp [isOpen_of_closer? hoc])
    | @group _ o' c' ts' us' _ _ hoc' inner' rest' =>
      obtain ⟨rfl, he⟩ := List.cons.inj hvs
      obtain ⟨rfl, rfl, rfl⟩ := Balanced.unique ⟨_, inner⟩ ⟨_, inner'⟩ (isClose_of_closer? hoc)
        (isClose_of_closer? hoc') he
      rw [ih inner', ih' rest']

/-- What a delimiter opens inside a balanced sequence is closed there. -/
theorem Balanced.inner {front ts us us' inner : List Token} {o c c' : Token}
    (h : Balanced (front ++ o :: ts)) (ho : o.kind.isOpen = true) (hinner : Balanced inner)
    (he : ts ++ c :: us = inner ++ c' :: us') :
    ∃ more, ts = inner ++ c' :: more ∧ us' = more ++ c :: us := by
  -- or else the opener would not be closed
  have hno (more : List Token) : inner ≠ ts ++ more := by
    rintro rfl
    obtain ⟨_, h⟩ := h
    obtain ⟨_, hinner⟩ := hinner
    obtain ⟨hzero, hfront⟩ := h.rise_front
    have hstart := hfront front (o :: ts) rfl
    have hrest := hinner.rise_front.2 ts more rfl
    rw [rise_append, rise_cons_open ho] at hzero
    omega
  rcases List.append_eq_append_iff.1 he with ⟨more, hinner, -⟩ | ⟨more, hts, he⟩
  · exact absurd hinner (hno more)
  · cases more with
    | nil => exact absurd (by simpa using hts.symm) (hno [])
    | cons _ more =>
      obtain ⟨rfl, rfl⟩ := List.cons.inj he
      exact ⟨more, hts, rfl⟩

/-! ### What comes next -/

theorem Repeated.append {ts : List Token} (h : Repeated ts) (us : List Token) :
    Repeated (ts ++ us) := by
  cases h with
  | mark hop => exact .mark hop
  | separated hdollar hopen hclose hop => exact .separated hdollar hopen hclose hop

theorem isRepetitionMark_of_isClose {k : Kind} (h : k.isClose = true) :
    k.isRepetitionMark = false := by
  cases k <;> first | rfl | exact nomatch h

/-- A closer is neither a separator nor a mark. -/
theorem Repeated.of_append {ts us : List Token} {c : Token} (hc : c.kind.isClose = true)
    (h : Repeated (ts ++ c :: us)) : Repeated ts := by
  rcases ts with _ | ⟨t, _ | ⟨u, ts⟩⟩
  · cases h with
    | mark hop => exact absurd hop (by simp [isRepetitionMark_of_isClose hc])
    | separated _ _ hclose => exact absurd hc (by simp [hclose])
  · cases h with
    | mark hop => exact .mark hop
    | separated _ _ _ hop => exact absurd hop (by simp [isRepetitionMark_of_isClose hc])
  · cases h with
    | mark hop => exact .mark hop
    | separated hdollar hopen hclose hop => exact .separated hdollar hopen hclose hop

/-- What a repetition takes behind its `)`: a mark, or a separator that is none and a mark. -/
inductive Marks : List Token → Prop
  | mark {op : Token} (hop : op.kind.isRepetitionMark = true) : Marks [op]
  | separated {separator op : Token} (hmark : separator.kind.isRepetitionMark = false)
      (hdollar : separator.kind ≠ .dollar) (hopen : separator.kind.isOpen = false)
      (hclose : separator.kind.isClose = false) (hop : op.kind.isRepetitionMark = true) :
      Marks [separator, op]

theorem repeated_iff {ts : List Token} :
    Repeated ts ↔ ∃ mark more, ts = mark ++ more ∧ Marks mark := by
  constructor
  · intro h
    cases h with
    | mark hop => exact ⟨_, _, rfl, .mark hop⟩
    | @separated separator op _ hdollar hopen hclose hop =>
      by_cases hmark : separator.kind.isRepetitionMark = true
      · exact ⟨[separator], _, rfl, .mark hmark⟩
      · exact ⟨[separator, op], _, rfl,
          .separated (Bool.eq_false_iff.2 hmark) hdollar hopen hclose hop⟩
  · rintro ⟨_, _, rfl, h⟩
    cases h with
    | mark hop => exact .mark hop
    | separated _ hdollar hopen hclose hop => exact .separated hdollar hopen hclose hop

theorem NamesFragment.append {source : String} {ts : List Token} (h : NamesFragment source ts)
    (us : List Token) : NamesFragment source (ts ++ us) := by
  obtain ⟨hword, hspecifier⟩ := h
  exact .word hword hspecifier

theorem not_word_of_isClose {k : Kind} (h : k.isClose = true) :
    (k == .identifier || k.isWord) = false := by
  cases k <;> first | rfl | exact nomatch h

/-- A closer is no word. -/
theorem NamesFragment.of_append {source : String} {ts us : List Token} {c : Token}
    (hc : c.kind.isClose = true) (h : NamesFragment source (ts ++ c :: us)) :
    NamesFragment source ts := by
  cases ts with
  | nil =>
    obtain ⟨hword, -⟩ := h
    exact absurd hword (by simp [not_word_of_isClose hc])
  | cons t ts =>
    obtain ⟨hword, hspecifier⟩ := h
    exact .word hword hspecifier

/-! ### Along the brackets -/

section Derives

variable {form : TreeForm} {source : String} {dollar : Bool} {ts : List Token} {bs : List Bracket}

theorem Derives.nests (h : Derives form source dollar ts bs) : Nests dollar ts bs := by
  induction h with
  | nil => exact .nil
  | token hopen hclose _ _ ih => exact .token hopen hclose ih
  | group hoc _ _ _ ih ih' => exact .group hoc ih ih'

/-- A token that is no delimiter comes first. -/
theorem derives_cons {t : Token} (hopen : t.kind.isOpen = false) :
    Derives form source dollar (t :: ts) bs ↔ t.kind.isClose = false ∧
      (form.hasBindings = true → t.kind = .metavariable →
        ∀ colon back, ts = colon :: back → colon.kind = .colon → NamesFragment source back) ∧
      Derives form source (t.kind == .dollar) ts bs := by
  constructor
  · intro h
    cases h with
    | token _ hclose hbound rest => exact ⟨hclose, hbound, rest⟩
    | group hoc => exact absurd hopen (by simp [isOpen_of_closer? hoc])
  · rintro ⟨hclose, hbound, rest⟩
    exact .token hopen hclose hbound rest

/-- A delimiter comes first. -/
theorem Derives.of_open {o : Token} (h : Derives form source dollar (o :: ts) bs)
    (ho : o.kind.isOpen = true) : ∃ us c vs inside cs, ts = us ++ c :: vs ∧
      o.kind.closer? = some c.kind ∧ Derives form source false us inside ∧
      (dollar = true → o.kind = .openParen → Repeated vs) ∧ Derives form source false vs cs := by
  cases h with
  | token hopen => exact absurd ho (by simp [hopen])
  | group hoc inner hrepeated rest => exact ⟨_, _, _, _, _, rfl, hoc, inner, hrepeated, rest⟩

/-- Whether a `$` stands before counts only where a parenthesis comes next. -/
theorem Derives.reflag (h : Derives form source dollar ts bs) (hk : headKind ts ≠ .openParen)
    (dollar' : Bool) : Derives form source dollar' ts bs := by
  cases h with
  | nil => exact .nil
  | token hopen hclose hbound rest => exact .token hopen hclose hbound rest
  | @group _ o _ _ _ _ _ hoc inner _ rest =>
    have hno : (o.kind == .openParen) = false := beq_eq_false_iff_ne.2 hk
    have hgroup : Derives form source dollar' _ _ :=
      .group hoc inner (fun _ ho => absurd ho hk) rest
    rw [hno, Bool.and_false] at hgroup ⊢
    exact hgroup

/-- Tokens of which nothing is asked come first. -/
theorem derives_inert {us : List Token} (h : ∀ t ∈ us, t.kind.isInert = true) :
    Derives form source false (us ++ ts) bs ↔ Derives form source false ts bs := by
  induction us with
  | nil => rfl
  | cons t us ih =>
    obtain ⟨ht, hus⟩ := List.forall_mem_cons.1 h
    simp only [Kind.isInert, Bool.not_eq_true', Bool.or_eq_false_iff, beq_eq_false_iff_ne] at ht
    obtain ⟨⟨⟨hopen, hclose⟩, hdollar⟩, hname⟩ := ht
    rw [List.cons_append, derives_cons hopen, beq_eq_false_iff_ne.2 hdollar, ih hus]
    exact ⟨fun h => h.2.2, fun h => ⟨hclose, fun _ hk => absurd hk hname, h⟩⟩

theorem isInert_of_word {k : Kind} (h : (k == .identifier || k.isWord) = true) :
    k.isInert = true := by
  cases k <;> first | rfl | exact nomatch h

theorem isInert_of_isRepetitionMark {k : Kind} (h : k.isRepetitionMark = true) :
    k.isInert = true ∧ k ≠ .colon := by
  unfold Kind.isRepetitionMark at h
  split at h
  case h_4 => exact nomatch h
  all_goals exact ⟨rfl, by decide⟩

/-- Of the mark of a repetition nothing else is asked. -/
theorem Marks.derives_append {mark : List Token} (h : Marks mark) :
    Derives form source false (mark ++ ts) bs ↔ Derives form source false ts bs := by
  cases h with
  | mark hop => exact derives_inert (by simpa using (isInert_of_isRepetitionMark hop).1)
  | @separated _ op _ hdollar hopen hclose hop =>
    obtain ⟨hinert, hcolon⟩ := isInert_of_isRepetitionMark hop
    have hop : Derives form source false ([op] ++ ts) bs ↔ Derives form source false ts bs :=
      derives_inert (by simpa using hinert)
    rw [List.cons_append, derives_cons hopen, beq_eq_false_iff_ne.2 hdollar, hop]
    refine ⟨fun h => h.2.2, fun h => ⟨hclose, fun _ _ colon back he hk => ?_, h⟩⟩
    obtain ⟨rfl, -⟩ := List.cons.inj he
    exact absurd hk hcolon

/-- What is asked of a balanced sequence besides, where a `$` may stand before it. -/
structure Heeds (form : TreeForm) (source : String) (dollar : Bool) (ts : List Token) : Prop where
  first : dollar = true → ∀ o inner c back, ts = o :: (inner ++ c :: back) →
    o.kind = .openParen → Balanced inner → c.kind = .closeParen → Repeated back
  repeated : ∀ front dollar o inner c back, ts = front ++ dollar :: o :: (inner ++ c :: back) →
    dollar.kind = .dollar → o.kind = .openParen → Balanced inner → c.kind = .closeParen →
    Repeated back
  bound : form.hasBindings = true → ∀ front name colon back, ts = front ++ name :: colon :: back →
    name.kind = .metavariable → colon.kind = .colon → NamesFragment source back

theorem heeds_nil : Heeds form source dollar [] where
  first := fun _ _ _ _ _ he => nomatch he
  repeated := fun _ _ _ _ _ _ he => by simp at he
  bound := fun _ _ _ _ _ he => by simp at he

/-- A token that is no delimiter, and what follows it. -/
theorem heeds_cons {t : Token} (hopen : t.kind.isOpen = false) :
    Heeds form source dollar (t :: ts) ↔
      (form.hasBindings = true → t.kind = .metavariable →
        ∀ colon back, ts = colon :: back → colon.kind = .colon → NamesFragment source back) ∧
      Heeds form source (t.kind == .dollar) ts := by
  constructor
  · intro h
    refine ⟨fun hb ht colon back he => h.bound hb [] t colon back (by rw [he]; rfl) ht, ?_, ?_, ?_⟩
    · intro hd o inner c back he
      exact h.repeated [] t o inner c back (by rw [he]; rfl) (by simpa using hd)
    · intro front dollar o inner c back he
      exact h.repeated (t :: front) dollar o inner c back (by rw [he]; rfl)
    · intro hb front name colon back he
      exact h.bound hb (t :: front) name colon back (by rw [he]; rfl)
  · rintro ⟨hbound, h⟩
    refine ⟨fun _ o inner c back he ho => ?_, fun front d o inner c back he hd => ?_,
      fun hb front name colon back he hn => ?_⟩
    · obtain ⟨rfl, -⟩ := List.cons.inj he
      exact absurd hopen (by rw [ho]; nofun)
    · cases front with
      | nil =>
        obtain ⟨rfl, he'⟩ := List.cons.inj he
        exact h.first (by rw [hd]; rfl) o inner c back he'
      | cons _ front => exact h.repeated front d o inner c back (List.cons.inj he).2 hd
    · cases front with
      | nil =>
        obtain ⟨rfl, he'⟩ := List.cons.inj he
        exact hbound hb hn colon back he'
      | cons _ front => exact h.bound hb front name colon back (List.cons.inj he).2 hn

/-- Two tokens side by side that are no closers stand on one side of a closer. -/
theorem split_at_closer {ts us front back : List Token} {c a b : Token}
    (hc : c.kind.isClose = true) (ha : a.kind.isClose = false) (hb : b.kind.isClose = false)
    (he : ts ++ c :: us = front ++ a :: b :: back) :
    (∃ more, ts = front ++ a :: b :: more ∧ back = more ++ c :: us) ∨
      ∃ more, us = more ++ a :: b :: back := by
  have hne (d : Token) (hd : d.kind.isClose = false) : c ≠ d := by
    rintro rfl
    exact absurd (hd.symm.trans hc) nofun
  rcases List.append_eq_append_iff.1 he with ⟨more, -, hus⟩ | ⟨more, hts, hback⟩
  · cases more with
    | nil => exact absurd (List.cons.inj hus).1 (hne a ha)
    | cons _ more => exact .inr ⟨more, (List.cons.inj hus).2⟩
  · rcases more with _ | ⟨a', _ | ⟨b', more⟩⟩
    · exact absurd (List.cons.inj hback).1.symm (hne a ha)
    · exact absurd (List.cons.inj (List.cons.inj hback).2).1.symm (hne b hb)
    · simp only [List.cons_append, List.cons.injEq] at hback
      obtain ⟨rfl, rfl, rfl⟩ := hback
      exact .inl ⟨more, hts, rfl⟩

/-- A group, what it holds, and what follows it. -/
theorem heeds_group {o c : Token} {us : List Token} (hoc : o.kind.closer? = some c.kind)
    (hts : Balanced ts) :
    Heeds form source dollar (o :: (ts ++ c :: us)) ↔ Heeds form source false ts ∧
      (dollar = true → o.kind = .openParen → Repeated us) ∧ Heeds form source false us := by
  have ho := isOpen_of_closer? hoc
  have hc := isClose_of_closer? hoc
  constructor
  · intro h
    refine ⟨⟨nofun, fun front d o' inner c' back he hd ho' hin hc' => ?_,
      fun hb front name colon back he hn hcolon => ?_⟩, fun hd ho' => ?_, nofun,
      fun front d o' inner c' back he => ?_, fun hb front name colon back he => ?_⟩
    · refine .of_append hc
        (h.repeated (o :: front) d o' inner c' (back ++ c :: us) ?_ hd ho' hin hc')
      simp [he]
    · refine .of_append hc (h.bound hb (o :: front) name colon (back ++ c :: us) ?_ hn hcolon)
      simp [he]
    · refine h.first hd o ts c us rfl ho' hts ?_
      rw [ho'] at hoc
      exact (Option.some.inj hoc).symm
    · exact h.repeated (o :: (ts ++ c :: front)) d o' inner c' back (by simp [he])
    · exact h.bound hb (o :: (ts ++ c :: front)) name colon back (by simp [he])
  · rintro ⟨hin, hrepeated, hus⟩
    refine ⟨fun hd o' inner c' back he ho' hinner hc' => ?_,
      fun front d o' inner c' back he hd ho' hinner hc' => ?_,
      fun hb front name colon back he hn hcolon => ?_⟩
    · obtain ⟨rfl, he'⟩ := List.cons.inj he
      obtain ⟨-, -, rfl⟩ := hts.unique hinner hc (by rw [hc']; rfl) he'
      exact hrepeated hd ho'
    · cases front with
      | nil => exact absurd ho (by rw [(List.cons.inj he).1, hd]; nofun)
      | cons _ front =>
        obtain ⟨rfl, he'⟩ := List.cons.inj he
        rcases split_at_closer hc (by rw [hd]; rfl) (by rw [ho']; rfl) he' with
          ⟨more, hts', hback⟩ | ⟨more, hus'⟩
        · have hbalanced : Balanced ((front ++ [d]) ++ o' :: more) := by simpa [← hts'] using hts
          obtain ⟨more', rfl, rfl⟩ := hbalanced.inner (by rw [ho']; rfl) hinner hback.symm
          exact (hin.repeated front d o' inner c' more' hts' hd ho' hinner hc').append _
        · exact hus.repeated more d o' inner c' back hus' hd ho' hinner hc'
    · cases front with
      | nil => exact absurd ho (by rw [(List.cons.inj he).1, hn]; nofun)
      | cons _ front =>
        obtain ⟨rfl, he'⟩ := List.cons.inj he
        rcases split_at_closer hc (by rw [hn]; rfl) (by rw [hcolon]; rfl) he' with
          ⟨more, hts', rfl⟩ | ⟨more, hus'⟩
        · exact (hin.bound hb front name colon more hts' hn hcolon).append _
        · exact hus.bound hb more name colon back hus' hn hcolon

theorem Derives.heeds (h : Derives form source dollar ts bs) : Heeds form source dollar ts := by
  induction h with
  | nil => exact heeds_nil
  | token hopen _ hbound _ ih => exact (heeds_cons hopen).2 ⟨hbound, ih⟩
  | group hoc inner hrepeated _ ih ih' =>
    exact (heeds_group hoc ⟨_, inner.nests⟩).2 ⟨ih, hrepeated, ih'⟩

theorem Nests.derives (h : Nests dollar ts bs) (hh : Heeds form source dollar ts) :
    Derives form source dollar ts bs := by
  induction h with
  | nil => exact .nil
  | token hopen hclose _ ih =>
    obtain ⟨hbound, hh⟩ := (heeds_cons hopen).1 hh
    exact .token hopen hclose hbound (ih hh)
  | group hoc inner _ ih ih' =>
    obtain ⟨hin, hrepeated, hus⟩ := (heeds_group hoc ⟨_, inner⟩).1 hh
    exact .group hoc (ih hin) hrepeated (ih' hus)

/-- **What is accepted is what the brackets derive.** -/
theorem accepted_iff : Accepted form source ts ↔ ∃ bs, Derives form source false ts bs := by
  constructor
  · rintro ⟨⟨bs, h⟩, hrepeated, hbound⟩
    exact ⟨bs, h.derives ⟨nofun, hrepeated, hbound⟩⟩
  · rintro ⟨bs, h⟩
    exact ⟨⟨bs, h.nests⟩, h.heeds.repeated, h.heeds.bound⟩

end Derives

end TokenTree

end ConcreteSyntax
