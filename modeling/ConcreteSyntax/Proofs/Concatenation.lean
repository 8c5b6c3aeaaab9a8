import ConcreteSyntax.Proofs.Excerpt.Row
import ConcreteSyntax.Proofs.Termination

/-! # Texts one after another

A text in which nothing is wrong and whose last member is sealed does not reach into what follows on
the next line: the tree of both has the members of the one and then those of the other
(`Tree.parse_append`), whatever stands in the second one. Where the last member is a statement that a
block ends, the first token of the second text has a say (`Tree.parse_append_block`). -/

namespace ConcreteSyntax

open Parse
open Text (byteLength)
open Lexeme (contextual?)

/-- A text that begins with `#!` only if it begins with `#![` names no interpreter. -/
theorem Scanner.shebang_eq_none {cs : List Char} (h : "#!".toList <+: cs → "#![".toList <+: cs) :
    shebang? { offset := 0, rest := cs } = none := by
  unfold shebang?
  rw [if_pos rfl]
  dsimp only
  split
  · rfl
  · next rest hno =>
    obtain ⟨more, hmore⟩ := h ⟨rest, rfl⟩
    have hrest : rest = '[' :: more := by
      have := List.cons.inj (List.cons.inj hmore).2
      exact this.2.symm
    exact absurd (by rw [hrest]) (hno more)
  · rfl

/-- What was read before the first member of a text is no sealed member. -/
theorem Session.not_endsSealed_shebang {σ : Setting} {source : String} {s : Session} {r : Unit}
    (h : consumeIf .shebang σ (.start source) = some (r, s)) {E : Excerpt} : ¬ s.draft.EndsSealed E := by
  obtain ⟨b, _, h₁, h⟩ := bind_eq_some.1 h
  obtain ⟨rfl, rfl⟩ := Prod.mk.inj (Option.some.inj h₁)
  by_cases hshebang : (Session.start source).isAt .shebang = true
  · rw [hshebang] at h
    exact KindStays.consumed (.inr rfl) (eq_of_beq hshebang) h
  · rw [Bool.eq_false_iff.2 hshebang] at h
    obtain ⟨-, rfl⟩ := pure_eq_some.1 h
    exact fun ⟨_, hmember, _⟩ => nomatch hmember

variable {E E₂ : Excerpt} {σ σ' : Setting} {s s' : Session}

/-- Where the text begins the whole, both begin with the same token. -/
theorem Session.Fair.start (hσ : σ.Within E σ') (hfront : E.front = []) (hreported : E.reported = [])
    (hfair : (Session.start σ.source).Fair E) :
    (Session.start σ.source).Alike E [] (Session.start σ'.source) := by
  have hshift : E.shift = 0 := by rw [Excerpt.shift, hfront]; rfl
  have hsound : (Session.start σ.source).Sound E.text := hσ.source ▸ Session.sound_start σ.source
  have hhere : (Scanner.ofText σ.source).here.In E.text := hσ.source ▸ ⟨rfl, Text.Place.start _⟩
  have hmove : (Scanner.ofText σ'.source).here = E.move (Scanner.ofText σ.source).here := by
    simp [Scanner.ofText, Cursor.ofText, Excerpt.move, hshift, hσ.source, hσ.source', Excerpt.whole, hfront]
  refine ⟨⟨by rw [hreported]; rfl, List.forall_mem_nil _, rfl, .inr rfl, by rw [hshift]; rfl,
    fun _ _ => iff_of_false List.not_mem_nil List.not_mem_nil, List.forall_mem_nil _,
    ⟨rfl, fun _ => ⟨rfl, rfl⟩⟩, hsound⟩, ?_, ?_⟩
  · exact Scanner.scan_placed readsLiterals_usual hhere hmove
      (hfair.imp_right fun h => h.2.firm hsound.scanner)
  · exact Scanner.name_of_quote readsLiterals_usual rfl rfl hhere

/-- **Behind a text whose last member is sealed** the whole is read on as if nothing stood before. -/
theorem Setting.run_behind (htail : E.tail = '\n' :: E₂.text)
    (hfront : E.front = []) (hreported : E.reported = []) (hfront₂ : E₂.front = E.text ++ ['\n'])
    (hlast : E₂.tail = []) (hreported₂ : E₂.reported = []) (hσ : σ.Within E σ')
    (hrun : σ.run? = some s) (hclean : s.report.toList = []) (hsealed : s.draft.EndsSealed E)
    (hrun' : σ'.run? = some s') {second : String} (hsecond : second.toList = E₂.text) :
    ∃ v', (Session.start second).Alike E₂ s.draft.children.toList (v'.endedAt E₂.shift) ∧
      Members (Grammar.upTo σ'.nesting) σ' v' s' := by
  obtain ⟨u, hfirst, hrow⟩ := Grammar.sourceFile_eq_some (run_eq_some hrun)
  obtain ⟨u', hfirst', hrow'⟩ := Grammar.sourceFile_eq_some (run_eq_some hrun')
  have hread : Orderly E.text (Grammar.upTo σ.nesting) 0 true ⟨.empty, none, false, false, .proper⟩
      (consumeIf .shebang) fun _ => ⟨.empty, none, false, false, .proper⟩ := .consumeIf
  have hleads : (Grammar.upTo σ.nesting).Leads E.text := Grammar.leads_upTo _ _
  have hstart : (Session.start σ.source).Sound E.text := hσ.source ▸ Session.sound_start σ.source
  have hu : u.Sound E.text := (hread.arrives hleads hstart ⟨nofun, nofun⟩ hfirst).onward.sound
  have hrow := row_of_repeatWhile hrow
  have hopen : u.kind ≠ .endOfFile := by
    intro hend
    rw [hrow.of_atEnd hend] at hsealed
    exact Session.not_endsSealed_shebang hfirst (endsSealed_of_flushed hu hsealed)
  have hcloses : (Grammar.upTo σ.nesting).Closes true E (Grammar.upTo σ'.nesting) :=
    Grammar.upTo_closes hσ.nesting_le
  obtain ⟨hfair, hgo⟩ := hrow.landed [] hleads hcloses hσ hu hopen hclean hsealed
  obtain ⟨hfair, hstep⟩ := (Follows.consumeIf (a := none)).follow hσ nofun hfirst hfair
  obtain ⟨v', hfirst'', hv⟩ := hstep (hfair.start hσ hfront hreported)
  obtain rfl := (Prod.mk.inj (Option.some.inj (hfirst'.symm.trans hfirst''))).2
  obtain ⟨w, w', before, hend, rfl, hlanded, hbehind⟩ := hgo (hv _ le_rfl).2
  have hchildren : [] ++ (w.flushed σ).draft.children.toList.map (Child.shift E.shift) =
      (w.flushed σ).draft.children.toList := by
    rw [Excerpt.shift, hfront]
    simp
  have hne : [] ++ (w.flushed σ).draft.children.toList.map (Child.shift E.shift) ≠ [] := by
    intro hnil
    rw [hchildren] at hnil
    obtain ⟨n, hmember, -⟩ := hsealed
    rw [hnil] at hmember
    cases hmember
  obtain ⟨v', hv, hmembers⟩ := Row.across htail (by rw [hfront, hfront₂]; rfl) hlast hsecond
    (by rw [hreported₂, hreported, show w.report.toList = [] from hclean]; rfl) hσ hend hlanded hne
  rw [hchildren] at hv
  exact ⟨v', hv, hmembers (hbehind (row_of_repeatWhile hrow'))⟩

namespace Tree

variable {file : String} {options : Options}

/-- A text that ends for certain does not reach into what follows it. -/
theorem append_of_ends {first second : String} {last : Node}
    (hclean : (parse file first options).diagnostics = [])
    (hlast : Node.lastMember? (parse file first options).root.children = some last)
    (hends : last.isSealed = true ∨
      last.isBlockStatement = true ∧ (Session.start second).kind.continuesBlock = false)
    (hplain : "#!".toList <+: second.toList → "#![".toList <+: second.toList) :
    (parse file (first ++ "\n" ++ second) options).root.children =
        (parse file first options).root.children ++
          (parse file second options).root.children.map (Child.shift (first.utf8ByteSize + 1)) ∧
      (parse file (first ++ "\n" ++ second) options).diagnostics =
        (parse file second options).diagnostics.map (Diagnostic.shift (first.utf8ByteSize + 1)) := by
  obtain ⟨s, hrun, hs⟩ := parse_ends file first options
  obtain ⟨t, hrun₂, ht⟩ := parse_ends file second options
  obtain ⟨w, hrun', hw⟩ := parse_ends file (first ++ "\n" ++ second) options
  have hshebang := Scanner.shebang_eq_none hplain
  -- the first text in the whole, and the second one in it
  let E : Excerpt :=
    { text := first.toList, tail := '\n' :: second.toList, broken := .inr ⟨_, rfl⟩, plain := .inl rfl }
  let E₂ : Excerpt :=
    { text := second.toList, front := first.toList ++ ['\n'], broken := .inl rfl, plain := .inr hshebang }
  have hσ : Setting.Within E { file, source := first, options }
      { file, source := first ++ "\n" ++ second, options } :=
    ⟨rfl, rfl, rfl, rfl, rfl, ⟨rfl, rfl⟩, rfl, by simp [Excerpt.whole, E]⟩
  have hσ₂ : Setting.Within E₂ { file, source := second, options }
      { file, source := first ++ "\n" ++ second, options } :=
    ⟨rfl, rfl, rfl, rfl, rfl, ⟨rfl, rfl⟩, rfl, by simp [Excerpt.whole, E₂]⟩
  have hshift : E₂.shift = first.utf8ByteSize + 1 := by
    simp only [Excerpt.shift, E₂, Text.byteLength_append, Text.byteLength_toList]
    rfl
  rw [hs] at hclean hlast ⊢
  rw [ht, hw, ← hshift]
  have hreport : s.report.toList = [] := by
    have hperm := List.mergeSort_perm s.report.toList fun d e => d.sortKey ≤ e.sortKey
    rw [show s.report.toList.mergeSort _ = [] from hclean] at hperm
    exact hperm.symm.eq_nil
  have hsealed : s.draft.EndsSealed E := by
    refine ⟨last, hlast, hends.imp_right fun h => ⟨h.1, ?_⟩⟩
    exact Excerpt.endsBlocks (show E.tail = '\n' :: E₂.text from rfl) rfl rfl rfl h.2
  obtain ⟨v', hv, hrow⟩ := Setting.run_behind (show E.tail = '\n' :: E₂.text from rfl) rfl rfl rfl rfl rfl
    hσ (hrun false) hreport hsealed (hrun' false) (show second.toList = E₂.text from rfl)
  obtain ⟨hchildren, hdiagnostics⟩ :=
    of_continued rfl hσ₂ hshebang (hrun₂ false) hv hrow (List.forall_mem_nil _)
  rw [show E₂.reported = [] from rfl, List.mergeSort_nil, List.nil_append] at hdiagnostics
  exact ⟨hchildren, hdiagnostics⟩

/-- **A text whose last member is sealed** does not reach into what follows it: the members and the
diagnostics of what follows are those of a text of its own, some bytes later. -/
theorem parse_append {first second : String}
    (hclean : (parse file first options).diagnostics = [])
    (hsealed : (Node.lastMember? (parse file first options).root.children).any Node.isSealed = true)
    (hplain : "#!".toList <+: second.toList → "#![".toList <+: second.toList) :
    (parse file (first ++ "\n" ++ second) options).root.children =
        (parse file first options).root.children ++
          (parse file second options).root.children.map (Child.shift (first.utf8ByteSize + 1)) ∧
      (parse file (first ++ "\n" ++ second) options).diagnostics =
        (parse file second options).diagnostics.map (Diagnostic.shift (first.utf8ByteSize + 1)) := by
  obtain ⟨last, hlast, hsealed⟩ := (Option.any_eq_true _ _).1 hsealed
  exact append_of_ends hclean hlast (.inl hsealed) hplain

/-- A declaration and what is no text at all. -/
theorem parse_append_declaration :
    (parse "f.rs" "fn f() \x7b\x7d" {}).diagnostics = [] ∧
    (Node.lastMember? (parse "f.rs" "fn f() \x7b\x7d" {}).root.children).any Node.isSealed = true ∧
    ("#!".toList <+: "\x7d let".toList → "#![".toList <+: "\x7d let".toList) ∧
    (parse "f.rs" ("fn f() \x7b\x7d" ++ "\n" ++ "\x7d let") {}).diagnostics =
        (parse "f.rs" "\x7d let" {}).diagnostics.map
          (Diagnostic.shift ("fn f() \x7b\x7d".utf8ByteSize + 1)) := by
  have hclean : (parse "f.rs" "fn f() \x7b\x7d" {}).diagnostics = [] := by decide +kernel
  have hsealed : (Node.lastMember?
      (parse "f.rs" "fn f() \x7b\x7d" {}).root.children).any Node.isSealed = true := by
    decide +kernel
  have hplain : "#!".toList <+: "\x7d let".toList → "#![".toList <+: "\x7d let".toList := by decide
  exact ⟨hclean, hsealed, hplain, (parse_append hclean hsealed hplain).2⟩

/-- **A block ends its statement**: a text whose last member is a statement without a semicolon, the
expression of which ends with a block, does not reach into what follows on the next line, unless that
begins with `.`, `?`, `;` or `else`. -/
theorem parse_append_block {first second : String}
    (hclean : (parse file first options).diagnostics = [])
    (hblock : (Node.lastMember? (parse file first options).root.children).any Node.isBlockStatement = true)
    (hsecond : (Session.start second).kind.continuesBlock = false)
    (hplain : "#!".toList <+: second.toList → "#![".toList <+: second.toList) :
    (parse file (first ++ "\n" ++ second) options).root.children =
        (parse file first options).root.children ++
          (parse file second options).root.children.map (Child.shift (first.utf8ByteSize + 1)) ∧
      (parse file (first ++ "\n" ++ second) options).diagnostics =
        (parse file second options).diagnostics.map (Diagnostic.shift (first.utf8ByteSize + 1)) := by
  obtain ⟨last, hlast, hblock⟩ := (Option.any_eq_true _ _).1 hblock
  exact append_of_ends hclean hlast (.inr ⟨hblock, hsecond⟩) hplain

/-- A loop ends its statement. The call of a macro between braces does not, though it needs no semicolon
either. -/
example : (parse "f.rs" "loop \x7b\x7d\n*x;" {}).root.children.length = 2 ∧
    (parse "f.rs" "m!\x7b\x7d\n*x;" {}).root.children.length = 1 := by decide +kernel

end Tree

end ConcreteSyntax
