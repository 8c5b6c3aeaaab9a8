import ConcreteSyntax.Proofs.Shelters.Expression

/-! # Readings that are tried

A reading that is tried and declined leaves no trace but the memory of the failure. `Parse.speculate`
keeps the whole session for that. It would do to note the scanner, two counters and how much was
reported (`Session.snapshot`), and to put them back and cut the report (`Session.rewind`): what was
reported before stays at the front of the report while the reading goes on, and the draft that was open
is open again when it ends. -/

namespace ConcreteSyntax

open Parse

/-- A report that grew and is cut to its old length is what it was. -/
theorem Report.Grows.truncate_size {r r' : Report} (h : r.Grows r') : r'.truncate r.size = r := by
  obtain ⟨items⟩ := r
  obtain ⟨items'⟩ := r'
  obtain ⟨more, hmore⟩ := h.front
  have hmore : items.toList ++ more = items'.toList := hmore
  have htake : (items'.take items.size).toList = items.toList := by
    rw [Array.take_eq_extract, Array.toList_extract, List.extract_eq_take_drop, ← hmore]
    simp
  simpa only [truncate, size, Report.mk.injEq, ← Array.toList_inj] using htake

/-! ### Snapshots -/

/-- What is noted of a session before a reading is tried. -/
structure Snapshot where
  scanner : Scanner
  /-- How many diagnostics there were. -/
  reported : Nat
  openBraces : Nat
  consumedEnd : Nat

namespace Session

def snapshot (s : Session) : Snapshot where
  scanner := s.scanner
  reported := s.report.size
  openBraces := s.openBraces
  consumedEnd := s.consumedEnd

/-- What was noted is put back, and what was reported since then is forgotten. -/
def rewind (s : Session) (before : Snapshot) : Session :=
  { s with
    scanner := before.scanner
    report := s.report.truncate before.reported
    openBraces := before.openBraces
    consumedEnd := before.consumedEnd }

/-- A session that is back where it was: the scanner with the current token and the comments before it,
every diagnostic, the counters and the draft are the same. It may remember more failures, and what was
remarked on the way stays. -/
structure IsBack (s s' : Session) : Prop where
  scanner : s'.scanner = s.scanner
  report : s'.report = s.report
  openBraces : s'.openBraces = s.openBraces
  consumedEnd : s'.consumedEnd = s.consumedEnd
  draft : s'.draft = s.draft
  declined : s.declined <:+ s'.declined

/-- Rewinding undoes whatever only adds to a session and gives the draft back. -/
theorem Adds.rewind_snapshot {s t : Session} (h : s.Adds t) (hd : t.draft = s.draft) :
    s.IsBack (t.rewind s.snapshot) where
  scanner := rfl
  report := h.report.truncate_size
  openBraces := rfl
  consumedEnd := rfl
  draft := hd
  declined := h.declined

end Session

/-! ### The pattern of a parameter -/

namespace Grammar

variable {g : Grammar} {text : List Char} {σ : Setting} {s s' t : Session}

/-- While the pattern of a parameter is read, the draft that was open waits. -/
theorem parameterPattern_draft {o : Option Draft} (h : g.parameterPattern? σ s = some (o, t)) :
    t.draft = s.draft := by
  obtain ⟨_, u, hcollect, h⟩ := bind_eq_some.1 h
  obtain ⟨_, -, -, rfl⟩ := collect_eq_some.1 hcollect
  obtain ⟨_, _, h₁, h⟩ := bind_eq_some.1 h
  obtain ⟨-, rfl⟩ := Prod.mk.inj (Option.some.inj h₁)
  split at h <;> obtain ⟨-, rfl⟩ := pure_eq_some.1 h <;> rfl

/-- Whatever the pattern of a parameter holds, it only adds to the session. -/
theorem parameterPattern_adds (hg : g.Shelters text) (hs : s.Stands text none) {o : Option Draft}
    (h : g.parameterPattern? σ s = some (o, t)) : s.Adds t :=
  have hread : Parse.Shelters text none .anywhere .headless (IfAny (Draft.Fine .anywhere))
    g.parameterPattern? := .parameterPattern hg
  (hread.follow nofun hs h).adds

/-- **A pattern that is declined leaves no trace.** If a parameter turns out to have no pattern, the
session is back where it was before one was tried, and the parameter is read there as a type, at the
same depth of nesting and under the same restrictions. Rewinding to a snapshot would have done the same,
however the pattern ended. The session may be any that stands at a lexeme of a text, as every session
does that a reading comes to (`Parse.Sheltered.stands`). -/
theorem parameterPattern_declined {depth : Nat} (hs : s.Sound text) (hk : s.kind ∈ Scanner.kinds)
    (h : speculate .typeVsPattern (upTo depth).parameterPattern? σ s = some (none, s')) :
    s.IsBack s' ∧
      (∀ o t, (upTo depth).parameterPattern? σ s = some (o, t) → s.IsBack (t.rewind s.snapshot)) ∧
      (upTo depth).namedParameter σ s = (do
        let parameter ← node .parameter (field .type ((upTo depth).parse .type))
        reportAnonymous parameter.range
        push parameter : Parse Unit) σ s' := by
  have hadds {o : Option Draft} {t : Session} :
      (upTo depth).parameterPattern? σ s = some (o, t) → s.Adds t :=
    parameterPattern_adds (shelters_upTo _ _) ⟨hs, hk, nofun⟩
  refine ⟨?_, fun o t ht => (hadds ht).rewind_snapshot (parameterPattern_draft ht), ?_⟩
  · rcases speculate_outcome h with ⟨-, rfl⟩ | ⟨o, t, ht, ⟨_, -, hsome, -⟩ | ⟨-, hend⟩⟩
    · exact ⟨rfl, rfl, rfl, rfl, rfl, List.suffix_rfl⟩
    · exact nomatch hsome
    · rw [hend]
      exact ⟨rfl, rfl, rfl, rfl, rfl, (hadds ht).declined.trans (List.suffix_cons _ _)⟩
  · show ((speculate _ _ >>= _ : Parse Unit) σ s) = _
    exact congrArg (Option.bind · _) h

/-- The parameter of `fn f(u8);`, where no colon follows the pattern. -/
theorem parameterPattern_declined_bareType :
    ∃ s s' : Session,
      (do consume; consume; consume : Parse Unit) { file := "f.rs", source := "fn f(u8);", options := {} }
        (.start "fn f(u8);") = some ((), s) ∧
      s.Sound "fn f(u8);".toList ∧ s.kind ∈ Scanner.kinds ∧
      speculate .typeVsPattern (upTo 4).parameterPattern?
        { file := "f.rs", source := "fn f(u8);", options := {} } s = some (none, s') ∧ s.IsBack s' := by
  have hrun : ((do consume; consume; consume; speculate .typeVsPattern (upTo 4).parameterPattern? :
      Parse (Option Draft)) { file := "f.rs", source := "fn f(u8);", options := {} }
        (.start "fn f(u8);")).map (·.1.isNone) = some true := by decide +kernel
  obtain ⟨⟨o, s'⟩, hrun, ho⟩ := Option.map_eq_some_iff.1 hrun
  obtain rfl := Option.isNone_iff_eq_none.1 ho
  have hconsume : Parse.Shelters "fn f(u8);".toList none .anywhere .headless Anything
      (do consume; consume; consume : Parse Unit) := .bind .consume fun _ => .bind .consume fun _ => .consume
  obtain ⟨_, u, hfirst, hrun⟩ := bind_eq_some.1 hrun
  obtain ⟨_, v, hsecond, hrun⟩ := bind_eq_some.1 hrun
  obtain ⟨_, s, hthird, hrun⟩ := bind_eq_some.1 hrun
  have hreached : (do consume; consume; consume : Parse Unit) _ _ = some ((), s) :=
    bind_eq_some.2 ⟨_, u, hfirst, bind_eq_some.2 ⟨_, v, hsecond, hthird⟩⟩
  obtain ⟨hsound, hkind, -⟩ := (hconsume.follow nofun (Session.stands_start _) hreached).stands
  exact ⟨s, s', hreached, hsound, hkind, hrun, (parameterPattern_declined hsound hkind hrun).1⟩

end Grammar

end ConcreteSyntax
