import ConcreteSyntax.Grammar.Intake
import ConcreteSyntax.Proofs.Token.Scanner

/-! # Sessions that go on

A session is sound when its scanner is, and when only comments and white space stand between what
entered the tree last and the current token (`Session.Sound`). Reading takes a session onward
(`Session.Onward`): the offset never falls, the current token changes only by moving on or by being
reshaped in place, reports are only added, and an error that is owed stays owed. An error is owed
when it was reported, or when the current token has a fault, which is reported as soon as the token
is taken (`Session.Owed`). -/

namespace ConcreteSyntax

open Text (Place Blank byteLength)

/-! ### Reports -/

/-- Whether a diagnostic is about a single token. -/
def Diagnostic.isLexical (d : Diagnostic) : Bool := 1001 ≤ d.code && d.code ≤ 1007

namespace Report

/-- What was reported of single tokens. -/
def lexical (r : Report) : List Diagnostic := r.toList.filter Diagnostic.isLexical

theorem lexical_add (r : Report) (d : Diagnostic) :
    (r.add d).lexical = r.lexical ++ if d.isLexical then [d] else [] := by
  cases h : d.isLexical <;> simp [lexical, add, toList, h]

/-- Everything reported before is still reported, and whatever came behind it has a place. -/
structure Grows (r r' : Report) : Prop where
  front : r.toList <+: r'.toList
  located : ∀ d ∈ r'.toList, d ∈ r.toList ∨ d.range.isSome = true

theorem Grows.refl (r : Report) : r.Grows r := ⟨List.prefix_rfl, fun _ => .inl⟩

theorem Grows.trans {r r' r'' : Report} (h : r.Grows r') (h' : r'.Grows r'') : r.Grows r'' :=
  ⟨h.front.trans h'.front, fun d hd => (h'.located d hd).elim (h.located d) .inr⟩

theorem grows_add (r : Report) {d : Diagnostic} (hd : d.range.isSome = true) : r.Grows (r.add d) := by
  refine ⟨⟨[d], by simp [add, toList]⟩, fun d' hd' => ?_⟩
  have hd' : d' ∈ r.toList ∨ d' = d := by simpa [add, toList] using hd'
  exact hd'.imp_right fun (h : d' = d) => h ▸ hd

theorem hasErrors_eq (r : Report) : r.hasErrors = r.toList.any Diagnostic.isError := by
  simp [hasErrors, toList]

theorem Grows.hasErrors {r r' : Report} (h : r.Grows r') (he : r.hasErrors = true) :
    r'.hasErrors = true := by
  rw [hasErrors_eq] at he ⊢
  obtain ⟨d, hd, he⟩ := List.any_eq_true.1 he
  exact List.any_eq_true.2 ⟨d, h.front.subset hd, he⟩

theorem hasErrors_add {r : Report} {d : Diagnostic} (h : d.isError = true) :
    (r.add d).hasErrors = true := by
  simp [hasErrors, add, h]

/-- A report that grew without getting longer is the same. -/
theorem Grows.eq_of_size {r r' : Report} (h : r.Grows r') (hs : r'.size = r.size) : r' = r := by
  have := h.front.eq_of_length (by simpa [toList, size] using hs.symm)
  obtain ⟨items⟩ := r
  obtain ⟨items'⟩ := r'
  simp only [toList, Array.toList_inj] at this
  rw [this]

end Report

/-! ### Sorted diagnostics -/

namespace Diagnostic

theorem sortKey_trans (a b c : Diagnostic) (hab : decide (a.sortKey ≤ b.sortKey) = true)
    (hbc : decide (b.sortKey ≤ c.sortKey) = true) : decide (a.sortKey ≤ c.sortKey) = true :=
  decide_eq_true (Nat.le_trans (of_decide_eq_true hab) (of_decide_eq_true hbc))

theorem sortKey_total (a b : Diagnostic) :
    (decide (a.sortKey ≤ b.sortKey) || decide (b.sortKey ≤ a.sortKey)) = true := by
  simpa using Nat.le_total a.sortKey b.sortKey

/-- Diagnostics that all stand before a place. -/
theorem filter_before {ds : List Diagnostic} {place : Nat} (h : ∀ d ∈ ds, d.sortKey < place) :
    ds.filter (·.sortKey < place) = ds ∧ ds.filter (place ≤ ·.sortKey) = [] :=
  ⟨List.filter_eq_self.2 (by simpa using h), List.filter_eq_nil_iff.2 (by simpa using h)⟩

/-- Diagnostics of which none stands before a place. -/
theorem filter_behind {ds : List Diagnostic} {place : Nat} (h : ∀ d ∈ ds, place ≤ d.sortKey) :
    ds.filter (·.sortKey < place) = [] ∧ ds.filter (place ≤ ·.sortKey) = ds :=
  ⟨List.filter_eq_nil_iff.2 (by simpa using h), List.filter_eq_self.2 (by simpa using h)⟩

/-- Diagnostics in order are those before a place and then the others. -/
theorem filter_append_filter (place : Nat) {ds : List Diagnostic}
    (h : ds.Pairwise fun d e => decide (d.sortKey ≤ e.sortKey) = true) :
    ds.filter (·.sortKey < place) ++ ds.filter (place ≤ ·.sortKey) = ds := by
  induction ds with
  | nil => rfl
  | cons d ds ih =>
    obtain ⟨hd, hds⟩ := List.pairwise_cons.1 h
    by_cases hlt : d.sortKey < place
    · simp [hlt, ih hds]
    · have hle : place ≤ d.sortKey := Nat.le_of_not_lt hlt
      have hbehind : ∀ e ∈ d :: ds, place ≤ e.sortKey :=
        List.forall_mem_cons.2 ⟨hle, fun e he => Nat.le_trans hle (of_decide_eq_true (hd e he))⟩
      rw [(filter_behind hbehind).1, (filter_behind hbehind).2, List.nil_append]

/-- The first one of many goes between those that stand before it and the others. -/
theorem mergeSort_cons (d : Diagnostic) (ds : List Diagnostic) :
    (d :: ds).mergeSort (fun d e => d.sortKey ≤ e.sortKey) =
      (ds.mergeSort fun d e => d.sortKey ≤ e.sortKey).filter (·.sortKey < d.sortKey) ++ d ::
        (ds.mergeSort fun d e => d.sortKey ≤ e.sortKey).filter (d.sortKey ≤ ·.sortKey) := by
  obtain ⟨less, more, hsorted, hrest, hless⟩ := List.mergeSort_cons sortKey_trans sortKey_total d ds
  have hpairs := List.pairwise_mergeSort sortKey_trans sortKey_total (d :: ds)
  rw [hsorted] at hpairs
  have hmore := (List.pairwise_cons.1 (List.pairwise_append.1 hpairs).2.1).1
  have hless : ∀ e ∈ less, e.sortKey < d.sortKey := by simpa using hless
  have hmore : ∀ e ∈ more, d.sortKey ≤ e.sortKey := by simpa using hmore
  simp only [hsorted, hrest, List.filter_append, filter_before hless, filter_behind hmore,
    List.append_nil, List.nil_append]

/-- Diagnostics of which the first ones stand before the others are sorted apart. -/
theorem mergeSort_append {front behind : List Diagnostic}
    (h : ∀ d ∈ front, ∀ e ∈ behind, d.sortKey ≤ e.sortKey) :
    (front ++ behind).mergeSort (fun d e => d.sortKey ≤ e.sortKey) =
      front.mergeSort (fun d e => d.sortKey ≤ e.sortKey) ++
        behind.mergeSort fun d e => d.sortKey ≤ e.sortKey := by
  induction front with
  | nil => simp
  | cons d front ih =>
    obtain ⟨hd, hfront⟩ := List.forall_mem_cons.1 h
    have hbehind : ∀ e ∈ behind.mergeSort (fun d e => d.sortKey ≤ e.sortKey), d.sortKey ≤ e.sortKey :=
      fun e he => hd e (List.mem_mergeSort.1 he)
    simp only [List.cons_append, mergeSort_cons, ih hfront, List.filter_append, filter_behind hbehind,
      List.append_nil, List.append_assoc]

/-- Some of many diagnostics are sorted as they are among all. -/
theorem mergeSort_filter (p : Diagnostic → Bool) (ds : List Diagnostic) :
    (ds.filter p).mergeSort (fun d e => d.sortKey ≤ e.sortKey) =
      (ds.mergeSort fun d e => d.sortKey ≤ e.sortKey).filter p := by
  have hcomm (q : Diagnostic → Bool) (es : List Diagnostic) :
      (es.filter p).filter q = (es.filter q).filter p := by
    simp only [List.filter_filter, Bool.and_comm]
  induction ds with
  | nil => simp
  | cons d ds ih =>
    rw [mergeSort_cons, List.filter_append, ← hcomm]
    by_cases hp : p d = true
    · rw [List.filter_cons_of_pos hp, List.filter_cons_of_pos hp, mergeSort_cons, ih, ← hcomm]
    · rw [List.filter_cons_of_neg hp, List.filter_cons_of_neg hp, ih, ← hcomm]
      exact (filter_append_filter _ <|
        (List.pairwise_mergeSort sortKey_trans sortKey_total ds).filter p).symm

end Diagnostic

/-- A sorted report is in the order of the first bytes. -/
theorem Report.sortByPosition_increasing (r : Report) :
    r.sortByPosition.toList.Pairwise fun d e => d.sortKey ≤ e.sortKey :=
  (List.pairwise_mergeSort Diagnostic.sortKey_trans Diagnostic.sortKey_total r.items.toList).imp
    of_decide_eq_true

/-- Every fault in a token is an error. -/
theorem Fault.isError_diagnostic (f : Fault) (file source : String) :
    (f.diagnostic file source).isError = true := by
  obtain ⟨kind, range⟩ := f
  cases kind <;> rfl

theorem Fault.range_diagnostic (f : Fault) (file source : String) :
    (f.diagnostic file source).range = some f.range := by
  obtain ⟨kind, range⟩ := f
  cases kind <;> rfl

/-- What was reshaped stays as it is. -/
theorem Kind.reshapes_trans {a b c : Kind} (hb : b = a ∨ b ∈ a.reshapes)
    (hc : c = b ∨ c ∈ b.reshapes) : c = a ∨ c ∈ a.reshapes := by
  rcases hb with rfl | hb
  · exact hc
  · have hnil : b.reshapes = [] := by
      unfold Kind.reshapes at hb
      split at hb
      · exact List.mem_singleton.1 hb ▸ rfl
      · exact List.mem_singleton.1 hb ▸ rfl
      · exact List.mem_singleton.1 hb ▸ rfl
      · simp only [List.mem_cons, List.not_mem_nil, or_false] at hb
        rcases hb with rfl | rfl | rfl <;> rfl
      · simp at hb
    rw [hnil] at hc
    exact hc.elim (fun h => .inr (h ▸ hb)) nofun

/-! ### Sound sessions -/

namespace Session

/-- What is promised of a session: it stands at a token of the text, with comments and white space
behind it up to what entered the tree last. -/
structure Sound (text : List Char) (s : Session) : Prop where
  scanner : s.scanner.Sound text
  leading : Leading text s.consumedEnd s.scanner.leading s.scanner.start.offset

theorem Sound.offset_eq {text : List Char} {s : Session} (h : s.Sound text) :
    s.offset = s.scanner.start.offset := by
  simp [offset, h.scanner.range]

/-- The session with another draft open. -/
def withDraft (s : Session) (draft : Draft) : Session := { s with draft }

theorem Sound.withDraft {text : List Char} {s : Session} (h : s.Sound text) (draft : Draft) :
    (s.withDraft draft).Sound text :=
  ⟨h.scanner, h.leading⟩

theorem Sound.stop_eq {text : List Char} {s : Session} (h : s.Sound text) :
    s.scanner.token.range.stop = s.scanner.here.offset := by
  simp [h.scanner.range]

theorem Sound.offset_le {text : List Char} {s : Session} (h : s.Sound text) :
    s.offset ≤ byteLength text := by
  rw [h.offset_eq]
  exact h.scanner.start.2.offset_le

theorem Sound.consumedEnd_le {text : List Char} {s : Session} (h : s.Sound text) :
    s.consumedEnd ≤ s.offset := by
  rw [h.offset_eq]
  exact h.leading.le

/-- An error was reported, or the current token has a fault and will be. -/
def Owed (s : Session) : Prop := s.report.hasErrors = true ∨ s.scanner.token.faults ≠ []

/-! ### Going on -/

/-- How reading takes a session onward. -/
structure Onward (text : List Char) (s s' : Session) : Prop where
  sound : s'.Sound text
  le : s.offset ≤ s'.offset
  steady : s'.offset = s.offset → s'.kind = s.kind ∨ s'.kind ∈ s.kind.reshapes
  report : s.report.Grows s'.report
  owed : s.Owed → s'.Owed

theorem Onward.refl {text : List Char} {s : Session} (h : s.Sound text) : s.Onward text s :=
  ⟨h, Nat.le_refl _, fun _ => .inl rfl, .refl _, id⟩

theorem Onward.trans {text : List Char} {s s' s'' : Session} (h : s.Onward text s')
    (h' : s'.Onward text s'') : s.Onward text s'' where
  sound := h'.sound
  le := Nat.le_trans h.le h'.le
  steady := fun he => by
    have hle := h.le
    have hle' := h'.le
    exact Kind.reshapes_trans (h.steady (by omega)) (h'.steady (by omega))
  report := h.report.trans h'.report
  owed := fun ho => h'.owed (h.owed ho)

/-- A step to a later token. -/
theorem Onward.of_lt {text : List Char} {s s' : Session} (h : s'.Sound text)
    (hlt : s.offset < s'.offset) (hr : s.report.Grows s'.report) (ho : s.Owed → s'.Owed) :
    s.Onward text s' :=
  ⟨h, Nat.le_of_lt hlt, fun he => absurd he (Nat.ne_of_gt hlt), hr, ho⟩

/-- A step that leaves the scanner, the report and the end of what was taken alone. -/
theorem Onward.of_same {text : List Char} {s s' : Session} (h : s.Sound text)
    (hs : s'.scanner = s.scanner) (hc : s'.consumedEnd = s.consumedEnd)
    (hr : s'.report = s.report) : s.Onward text s' where
  sound := ⟨hs ▸ h.scanner, by rw [hs, hc]; exact h.leading⟩
  le := by simp [offset, hs]
  steady := fun _ => .inl (by simp [kind, hs])
  report := hr ▸ .refl _
  owed := fun ho => by rwa [Owed, hs, hr]

/-- A step beside the reading: it may report, though nothing of single tokens, remark and count
braces. One that is *severe* leaves an error owed. -/
structure Beside (severe : Bool) (s s' : Session) : Prop where
  scanner : s'.scanner = s.scanner
  draft : s'.draft = s.draft
  consumedEnd : s'.consumedEnd = s.consumedEnd
  report : s.report.Grows s'.report
  lexical : s'.report.lexical = s.report.lexical
  owed : severe = true → s'.Owed

theorem Beside.refl (s : Session) : s.Beside false s := ⟨rfl, rfl, rfl, .refl _, rfl, nofun⟩

theorem Beside.owed_mono {severe : Bool} {s s' : Session} (h : s.Beside severe s') (ho : s.Owed) :
    s'.Owed := by
  rcases ho with ho | ho
  · exact .inl (h.report.hasErrors ho)
  · exact .inr (h.scanner ▸ ho)

theorem Beside.trans {a b : Bool} {s s' s'' : Session} (h : s.Beside a s') (h' : s'.Beside b s'') :
    s.Beside (a || b) s'' where
  scanner := h'.scanner.trans h.scanner
  draft := h'.draft.trans h.draft
  consumedEnd := h'.consumedEnd.trans h.consumedEnd
  report := h.report.trans h'.report
  lexical := h'.lexical.trans h.lexical
  owed := fun hs => (Bool.or_eq_true_iff.1 hs).elim (fun ha => h'.owed_mono (h.owed ha)) h'.owed

theorem Beside.onward {text : List Char} {severe : Bool} {s s' : Session} (h : s.Sound text)
    (hb : s.Beside severe s') : s.Onward text s' where
  sound := ⟨hb.scanner ▸ h.scanner, by rw [hb.scanner, hb.consumedEnd]; exact h.leading⟩
  le := by simp [offset, hb.scanner]
  steady := fun _ => .inl (by simp [kind, hb.scanner])
  report := hb.report
  owed := hb.owed_mono

/-- A session whose current token was reshaped. -/
theorem Onward.of_reshaped {text : List Char} {s : Session} {scanner : Scanner} (h : s.Sound text)
    (hr : Scanner.Reshaped text s.scanner scanner) : s.Onward text { s with scanner } := by
  have hsound : Sound text { s with scanner } :=
    ⟨hr.sound, by rw [hr.leading, hr.start]; exact h.leading⟩
  refine ⟨hsound, ?_, fun _ => hr.kind, .refl _, fun ho => ?_⟩
  · rw [h.offset_eq, hsound.offset_eq]
    exact Nat.le_of_eq (congrArg Cursor.offset hr.start.symm)
  · rwa [Owed, hr.faults]

end Session

/-! ### Reading -/

namespace Parse

theorem bind_eq_some {α β : Type} {m : Parse α} {K : α → Parse β} {σ : Setting} {s s' : Session}
    {r : β} :
    (m >>= K) σ s = some (r, s') ↔ ∃ a t, m σ s = some (a, t) ∧ K a σ t = some (r, s') := by
  constructor
  · intro h
    obtain ⟨⟨a, t⟩, hm, hk⟩ := Option.bind_eq_some_iff.1 h
    exact ⟨a, t, hm, hk⟩
  · rintro ⟨a, t, hm, hk⟩
    exact Option.bind_eq_some_iff.2 ⟨(a, t), hm, hk⟩

/-- A first step whose run is known. -/
theorem bind_of_run {α β : Type} {m : Parse α} {K : α → Parse β} {σ : Setting} {s t : Session}
    {a : α} (h : m σ s = some (a, t)) : (m >>= K) σ s = K a σ t := by
  show (m σ s >>= fun p => K p.1 σ p.2) = K a σ t
  rw [h]
  rfl

theorem pure_eq_some {α : Type} {r r' : α} {σ : Setting} {s s' : Session} :
    (pure r : Parse α) σ s = some (r', s') ↔ r = r' ∧ s = s' := by
  constructor
  · intro h
    obtain ⟨rfl, rfl⟩ := Prod.mk.inj (Option.some.inj h)
    exact ⟨rfl, rfl⟩
  · rintro ⟨rfl, rfl⟩
    rfl

end Parse

/-! ### Grammars that read onward -/

namespace Nonterminal

/-- Whether a nonterminal is sure to take the token that it is called at. -/
def takes (c : Kind) : Nonterminal → Bool
  | .tokenTree _ => c.isOpen
  | .repetition _ => c != .endOfFile
  | _ => false

end Nonterminal

/-- A grammar that reads onward, whatever nonterminal is asked for. -/
def Grammar.Leads (text : List Char) (g : Grammar) : Prop :=
  ∀ {nonterminal : Nonterminal} {σ : Setting} {s s' : Session} {n : Node}, s.Sound text →
    g.parse nonterminal σ s = some (n, s') →
      s.Onward text s' ∧ (nonterminal.takes s.kind = true → s.offset < s'.offset)

end ConcreteSyntax
