import ConcreteSyntax.Proofs.Termination
import ConcreteSyntax.Proofs.Text.LineTable

/-! # Where diagnostics are shown

Whatever is reported while a text is read has a place (`Setting.run_located`), and a tree keeps its
diagnostics by their first byte. Later bytes are at later places, so the places are shown in order,
each on a line of the text (`Tree.shown_parse`). -/

namespace ConcreteSyntax

/-- Everything that a whole reading reports has a place. -/
theorem Setting.run_located {σ : Setting} {s : Session} (h : σ.run? = some s) :
    ∀ d ∈ s.report.toList, d.range.isSome = true :=
  fun d hd => ((σ.run_onward h).report.located d hd).resolve_left nofun

namespace Diagnostic

variable {d : Diagnostic} {lines : Lines}

/-- The line and the column at which a diagnostic is shown, if its place is known. -/
def place? (lines : Lines) (d : Diagnostic) : Option LineColumn :=
  d.range.map fun r => lines.lineColumn r.start

/-- The file, the place and the text of a diagnostic, in one line. -/
def shownAt (d : Diagnostic) (p : LineColumn) : String :=
  let file := d.file.getD "<input>"
  let place := p.render
  s!"{file}:{place}: {d.body}"

theorem place?_of_isSome (h : d.range.isSome = true) :
    d.place? lines = some (lines.lineColumn d.sortKey) := by
  obtain ⟨r, hr⟩ := Option.isSome_iff_exists.1 h
  simp [place?, sortKey, hr]

theorem render_of_isSome (h : d.range.isSome = true) :
    d.render lines = d.shownAt (lines.lineColumn d.sortKey) := by
  obtain ⟨r, hr⟩ := Option.isSome_iff_exists.1 h
  simp [render, shownAt, sortKey, hr]

end Diagnostic

/-! ### Whole trees -/

namespace Tree

/-- The places at which the diagnostics of a tree are shown. -/
def places (t : Tree) : List LineColumn := t.diagnostics.filterMap (·.place? t.lines)

/-- The diagnostics of a tree are shown in order, and the lines are those of its text. -/
structure Shown (t : Tree) : Prop where
  /-- The table of lines counts the bytes of the text. -/
  counts : t.lines.Counts (Text.bytes t.source)
  /-- Every diagnostic has its place. -/
  complete : t.places.length = t.diagnostics.length
  /-- What is shown of a diagnostic is its place and its text. -/
  rendered : t.renderDiagnostics = List.zipWith Diagnostic.shownAt t.diagnostics t.places
  /-- No place comes before an earlier one. -/
  ordered : t.places.Pairwise fun p q => ¬ q.Before p
  /-- Every place is on a line of the text. -/
  within : ∀ p ∈ t.places, 1 ≤ p.line ∧ p.line ≤ t.lines.count

/-- The places of diagnostics that all have one. -/
theorem places_eq {t : Tree} (h : ∀ d ∈ t.diagnostics, d.range.isSome = true) :
    t.places = t.diagnostics.map fun d => t.lines.lineColumn d.sortKey := by
  rw [places, ← List.filterMap_eq_map]
  exact List.filterMap_congr fun d hd => Diagnostic.place?_of_isSome (h d hd)

theorem shown_of_sorted {t : Tree} (hlocated : ∀ d ∈ t.diagnostics, d.range.isSome = true)
    (hsorted : t.diagnostics.Pairwise fun d e => d.sortKey ≤ e.sortKey) : t.Shown where
  counts := Lines.counts_ofText t.source
  complete := by rw [places_eq hlocated, List.length_map]
  rendered := by
    rw [places_eq hlocated, List.zipWith_map_right, List.zipWith_self]
    exact List.map_congr_left fun d hd => Diagnostic.render_of_isSome (hlocated d hd)
  ordered := by
    rw [places_eq hlocated, List.pairwise_map]
    exact hsorted.imp fun h => Lines.not_before_ofText t.source h
  within p hp := by
    rw [places_eq hlocated] at hp
    obtain ⟨d, -, rfl⟩ := List.mem_map.1 hp
    obtain ⟨i, hi, -, hat⟩ := Lines.found_ofText t.source d.sortKey
    have hline : (t.lines.lineColumn d.sortKey).line = i + 1 := congrArg LineColumn.line hat
    rw [hline]
    exact ⟨Nat.succ_le_succ (Nat.zero_le i), hi⟩

end Tree

end ConcreteSyntax
