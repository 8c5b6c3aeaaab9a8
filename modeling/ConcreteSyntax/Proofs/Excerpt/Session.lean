import ConcreteSyntax.Proofs.Excerpt.Reach
import ConcreteSyntax.Proofs.Reading.Take
import ConcreteSyntax.Proofs.Text.Blank

/-! # Sessions over a part of a text

A session over the whole keeps step with one over the text (`Session.Alike`): it stands at the same
token, has reported the same, and has collected the same into its draft, everything as many bytes
later as the text begins. What a look ahead finds is the same in both as long as the session over the
text is fair (`Session.Fair`): nothing stands behind the text, or nothing was reported and the end of
an item is still to come. -/

namespace ConcreteSyntax

open Text (Place byteLength)
open Lexeme (contextual?)

/-! ### Slices of the whole -/

/-- The shorter of two beginnings of a text begins the other. -/
theorem Text.exists_append_of_le {as bs cs ds : List Char} (h : as ++ bs = cs ++ ds)
    (hle : byteLength as ≤ byteLength cs) : ∃ more, cs = as ++ more ∧ bs = more ++ ds := by
  rcases List.append_eq_append_iff.1 h with ⟨more, hcs, hbs⟩ | ⟨more, has, hds⟩
  · exact ⟨more, hcs, hbs⟩
  · have hnil : more = [] := by
      by_contra hne
      have := byteLength_pos hne
      rw [has, byteLength_append] at hle
      omega
    subst hnil
    exact ⟨[], by simpa using has.symm, by simpa using hds.symm⟩

theorem Range.exists_place {source : String} {offset : Nat}
    (h : (⟨offset⟩ : String.Pos.Raw).isValid source = true) :
    ∃ rest, Place source.toList offset rest := by
  rw [String.Pos.Raw.isValid_eq_true_iff, String.Pos.Raw.isValid_iff_exists_append] at h
  obtain ⟨before, rest, hs, hoffset⟩ := h
  refine ⟨rest.toList, before.toList, by rw [hs, String.toList_append], ?_⟩
  rw [Text.byteLength_toList]
  exact (congrArg String.Pos.Raw.byteIdx hoffset).symm

namespace Excerpt

variable {E : Excerpt}

theorem place_whole {offset : Nat} {rest : List Char} (h : Place E.text offset rest) :
    Place E.whole (offset + E.shift) (rest ++ E.tail) := by
  obtain ⟨before, htext, hbefore⟩ := h
  refine ⟨E.front ++ before, by simp [whole, htext], ?_⟩
  rw [Text.byteLength_append, hbefore, Nat.add_comm]
  rfl

/-- A place of the whole that lies in the text is a place of the text. -/
theorem place_text {offset : Nat} {rest : List Char} (h : Place E.whole (offset + E.shift) rest)
    (hle : E.tail = [] ∨ offset ≤ byteLength E.text) : ∃ rest, Place E.text offset rest := by
  obtain ⟨before, hwhole, hbefore⟩ := h
  have hfront : byteLength E.front ≤ byteLength before := by
    rw [hbefore]
    exact Nat.le_add_left _ _
  obtain ⟨more, hmore, hrest⟩ := Text.exists_append_of_le hwhole hfront
  have hoffset : byteLength more = offset := by
    rw [hmore, Text.byteLength_append] at hbefore
    have : E.shift = byteLength E.front := rfl
    omega
  rcases hle with htail | hle
  · refine ⟨rest, more, ?_, hoffset⟩
    rw [← hrest, htail, List.append_nil]
  · rw [← hoffset] at hle
    obtain ⟨behind, hbehind, -⟩ := Text.exists_append_of_le hrest.symm hle
    exact ⟨behind, more, hbehind, hoffset⟩

end Excerpt

/-- A slice of the text is the slice of the whole that stands as many bytes later. -/
theorem Range.slice_shift {E : Excerpt} {source source' : String} (hsource : source.toList = E.text)
    (hsource' : source'.toList = E.whole) {r : Range}
    (hr : E.tail = [] ∨ r.stop ≤ byteLength E.text) :
    (r.shift E.shift).slice source' = r.slice source := by
  by_cases hle : r.start ≤ r.stop
  · have hvalid {offset : Nat} (ho : E.tail = [] ∨ offset ≤ byteLength E.text) :
        (⟨offset + E.shift⟩ : String.Pos.Raw).isValid source' =
          (⟨offset⟩ : String.Pos.Raw).isValid source := by
      rw [Bool.eq_iff_iff]
      constructor
      · intro h
        obtain ⟨rest, hrest⟩ := exists_place h
        rw [hsource'] at hrest
        obtain ⟨rest, hrest⟩ := E.place_text hrest ho
        rw [← hsource] at hrest
        exact hrest.isValid
      · intro h
        obtain ⟨rest, hrest⟩ := exists_place h
        rw [hsource] at hrest
        have hwhole := E.place_whole hrest
        rw [← hsource'] at hwhole
        exact hwhole.isValid
    by_cases hstart : (⟨r.start⟩ : String.Pos.Raw).isValid source = true
    · by_cases hstop : (⟨r.stop⟩ : String.Pos.Raw).isValid source = true
      · obtain ⟨rest, hrest⟩ := exists_place hstart
        obtain ⟨behind, hbehind⟩ := exists_place hstop
        -- the same characters stand between the two places
        obtain ⟨before, htext, hbefore⟩ := hrest
        obtain ⟨before', htext', hbefore'⟩ := hbehind
        obtain ⟨text, hbetween, rfl⟩ := Text.exists_append_of_le (htext.symm.trans htext') (by omega)
        have hlength : r.stop = r.start + byteLength text := by
          rw [← hbefore', hbetween, Text.byteLength_append, hbefore]
        have hplace : Place source.toList r.start (text ++ behind) := ⟨before, htext, hbefore⟩
        have hplace' : Place source'.toList (r.start + E.shift) (text ++ (behind ++ E.tail)) := by
          have hwhole := E.place_whole (hsource ▸ hplace)
          rwa [List.append_assoc, ← hsource'] at hwhole
        have hself : r = ⟨r.start, r.start + byteLength text⟩ := by rw [← hlength]
        rw [hself, Range.slice_eq hplace]
        have hshift : Range.shift E.shift ⟨r.start, r.start + byteLength text⟩ =
            ⟨r.start + E.shift, r.start + E.shift + byteLength text⟩ := by
          rw [Nat.add_right_comm]
          rfl
        rw [hshift, Range.slice_eq hplace']
      · unfold slice shift
        simp [hstop, hvalid hr]
    · have hstart' := hvalid (hr.imp_right (Nat.le_trans hle))
      unfold slice shift
      simp [hstart, hstart']
  · unfold slice shift
    simp [hle]

/-! ### Settings and sessions -/

/-- A setting for the whole that is like one for the text. -/
structure Setting.Within (E : Excerpt) (σ σ' : Setting) : Prop where
  file : σ'.file = σ.file
  options : σ'.options = σ.options
  depth : σ'.depth = σ.depth
  restriction : σ'.restriction = σ.restriction
  remembers : σ'.remembers = σ.remembers
  unwatched : σ.watches = false ∧ σ'.watches = false
  source : σ.source.toList = E.text
  source' : σ'.source.toList = E.whole

/-- Readings of the whole have more turns. -/
theorem Setting.Within.turns_le {E : Excerpt} {σ σ' : Setting} (h : σ.Within E σ') :
    σ.turns ≤ σ'.turns := by
  have hsize : σ.source.utf8ByteSize ≤ σ'.source.utf8ByteSize := by
    rw [← Text.byteLength_toList, ← Text.byteLength_toList, h.source, h.source', Excerpt.whole]
    simp only [Text.byteLength_append]
    omega
  unfold Setting.turns
  omega

theorem Fault.diagnostic_shift {E : Excerpt} {σ σ' : Setting} (hσ : σ.Within E σ')
    (f : Fault) (hf : E.tail = [] ∨ f.range.stop ≤ byteLength E.text) :
    (f.shift E.shift).diagnostic σ'.file σ'.source =
      (f.diagnostic σ.file σ.source).shift E.shift := by
  unfold Fault.diagnostic Fault.shift
  simp only [Range.slice_shift hσ.source hσ.source' hf, hσ.file]
  rfl

/-- The same token has the same text. -/
theorem Scanner.Placed.tokenText {E : Excerpt} {σ σ' : Setting} {s s' : Scanner}
    (h : s.Placed E s') (hs : s.Sound E.text) (hσ : σ.Within E σ') :
    s'.tokenText σ'.source = s.tokenText σ.source := by
  unfold Scanner.tokenText Token.text
  rw [h.token.range]
  refine Range.slice_shift hσ.source hσ.source' (.inr ?_)
  rw [hs.range]
  exact hs.here.2.offset_le

/-- No mark is reshaped into a quote. -/
theorem Kind.quote_notMem_reshapes (k : Kind) : .quote ∉ k.reshapes := by
  unfold reshapes
  split <;> decide

namespace Session

/-- The session that a declined reading leaves behind. -/
def rewound (before t : Session) (ambiguity : Ambiguity) : Session :=
  { before with
    declined := (before.offset, ambiguity) :: t.declined
    remarks := t.remarks.push (.fellBack ambiguity before.offset) }

/-- What two sessions have in common but for their scanners. The draft of the second may hold more
in front, the children `pre`. Where something stands behind the text, no `{` was skipped. -/
structure Even (E : Excerpt) (pre : List Child) (s s' : Session) : Prop where
  report : s'.report.toList = E.reported ++ s.report.toList.map (Diagnostic.shift E.shift)
  located : ∀ d ∈ s.report.toList, d.range.isSome = true
  openBraces : s'.openBraces = s.openBraces
  mended : E.tail = [] ∨ s.openBraces = 0
  consumedEnd : s'.consumedEnd = s.consumedEnd + E.shift
  declined : ∀ offset ambiguity,
    (offset + E.shift, ambiguity) ∈ s'.declined ↔ (offset, ambiguity) ∈ s.declined
  bound : ∀ place ∈ s.declined, place.1 ≤ byteLength E.text
  draft : s.draft.After E.shift pre s'.draft
  sound : s.Sound E.text

/-- A session over the whole that keeps step with one over the text. -/
structure Alike (E : Excerpt) (pre : List Child) (s s' : Session) : Prop
    extends s.Even E pre s' where
  placed : s.scanner.Placed E s'.scanner
  named : s.kind = .quote → Text.identifierPrefix s.scanner.here.rest ≠ []

/-- What a look ahead finds is the same in the text and in the whole: nothing stands behind the text,
or nothing was reported and the end of an item is still to come. -/
def Fair (E : Excerpt) (s : Session) : Prop :=
  E.tail = [] ∨ s.report.toList = [] ∧ s.scanner.Reaches

variable {E : Excerpt} {pre : List Child} {s s' : Session}

theorem Fair.of_reaches {t : Session} (h : t.Fair E) (hreport : t.report.toList = [] → s.report.toList = [])
    (hr : t.scanner.Reaches → s.scanner.Reaches) : s.Fair E :=
  h.imp_right fun ⟨hempty, hreach⟩ => ⟨hreport hempty, hr hreach⟩

/-- A change of the drafts. -/
theorem Even.withDraft {pre' : List Child} {d d' : Draft} (h : s.Even E pre s')
    (hd : d.After E.shift pre' d') : (s.withDraft d).Even E pre' (s'.withDraft d') where
  report := h.report
  located := h.located
  openBraces := h.openBraces
  mended := h.mended
  consumedEnd := h.consumedEnd
  declined := h.declined
  bound := h.bound
  draft := hd
  sound := h.sound.withDraft d

namespace Alike

theorem abreast (h : s.Alike E pre s') (hf : s.Fair E) : s.scanner.Abreast E s'.scanner :=
  ⟨h.sound.scanner, h.placed, h.named, hf.imp_right (·.2)⟩

theorem kind (h : s.Alike E pre s') : s'.kind = s.kind := h.placed.kind

theorem isAt (h : s.Alike E pre s') (c : Kind) : s'.isAt c = s.isAt c := by
  unfold Session.isAt
  rw [h.kind]

theorem isAtAny (h : s.Alike E pre s') (cs : List Kind) : s'.isAtAny cs = s.isAtAny cs := by
  unfold Session.isAtAny
  rw [h.kind]

theorem offset (h : s.Alike E pre s') : s'.offset = s.offset + E.shift :=
  congrArg Range.start h.placed.token.range

theorem tokenText {σ σ' : Setting} (h : s.Alike E pre s') (hσ : σ.Within E σ') :
    s'.scanner.tokenText σ'.source = s.scanner.tokenText σ.source :=
  h.placed.tokenText h.sound.scanner hσ

/-- A step that changes neither the scanner nor the draft. -/
theorem beside {t t' : Session} (h : s.Alike E pre s') (hscanner : t.scanner = s.scanner)
    (hscanner' : t'.scanner = s'.scanner) (hdraft : t.draft = s.draft) (hdraft' : t'.draft = s'.draft)
    (hend : t.consumedEnd = s.consumedEnd) (hend' : t'.consumedEnd = s'.consumedEnd)
    (hreport : t'.report.toList = E.reported ++ t.report.toList.map (Diagnostic.shift E.shift))
    (hlocated : ∀ d ∈ t.report.toList, d.range.isSome = true)
    (hbraces : t'.openBraces = t.openBraces) (hmended : E.tail = [] ∨ t.openBraces = 0)
    (hdeclined : ∀ offset ambiguity,
      (offset + E.shift, ambiguity) ∈ t'.declined ↔ (offset, ambiguity) ∈ t.declined)
    (hbound : ∀ place ∈ t.declined, place.1 ≤ byteLength E.text) : t.Alike E pre t' where
  report := hreport
  located := hlocated
  openBraces := hbraces
  mended := hmended
  consumedEnd := by rw [hend, hend', h.consumedEnd]
  declined := hdeclined
  bound := hbound
  draft := by rw [hdraft, hdraft']; exact h.draft
  sound := ⟨hscanner ▸ h.sound.scanner, by rw [hscanner, hend]; exact h.sound.leading⟩
  placed := by rw [hscanner, hscanner']; exact h.placed
  named := by
    unfold Session.kind
    rw [hscanner]
    exact h.named

theorem withDraft {pre' : List Child} {d d' : Draft} (h : s.Alike E pre s')
    (hd : d.After E.shift pre' d') : (s.withDraft d).Alike E pre' (s'.withDraft d') where
  toEven := h.toEven.withDraft hd
  placed := h.placed
  named := h.named

/-- A current token of another shape. Only marks that are no quote are reshaped. -/
theorem reshaped {scanner scanner' : Scanner} (h : s.Alike E pre s')
    (hr : Scanner.Reshaped E.text s.scanner scanner) (hp : scanner.Placed E scanner')
    (hquote : s.kind = .quote → scanner = s.scanner) :
    ({ s with scanner } : Session).Alike E pre { s' with scanner := scanner' } where
  report := h.report
  located := h.located
  openBraces := h.openBraces
  mended := h.mended
  consumedEnd := h.consumedEnd
  declined := h.declined
  bound := h.bound
  draft := h.draft
  sound := (Session.Onward.of_reshaped h.sound hr).sound
  placed := hp
  named := by
    intro (hk : scanner.kind = .quote)
    rcases hr.kind with hsame | hmem
    · have hself : s.kind = .quote := hsame.symm.trans hk
      show Text.identifierPrefix scanner.here.rest ≠ []
      rw [hquote hself]
      exact h.named hself
    · rw [hk] at hmem
      exact absurd hmem (Kind.quote_notMem_reshapes _)

theorem size (h : s.Alike E pre s') : s'.report.size = E.reported.length + s.report.size := by
  have hlength := congrArg List.length h.report
  rwa [List.length_append, List.length_map] at hlength

/-- Going back to where a reading began that was declined. -/
theorem rewound {t t' : Session} {pre' : List Child} {ambiguity : Ambiguity} (h : s.Alike E pre s')
    (ht : t.Alike E pre' t') : (s.rewound t ambiguity).Alike E pre (s'.rewound t' ambiguity) := by
  refine h.beside rfl rfl rfl rfl rfl rfl h.report h.located h.openBraces h.mended
    (fun offset other => ?_) fun place hp => ?_
  · simp only [Session.rewound, List.mem_cons, Prod.mk.injEq, h.offset, Nat.add_right_cancel_iff,
      ht.declined]
  · rcases List.mem_cons.1 hp with rfl | hp
    · exact h.sound.offset_le
    · exact ht.bound place hp

/-- Moving the comments before the token into the drafts. -/
theorem flushed {σ σ' : Setting} (h : s.Alike E pre s') (hσ : σ.Within E σ') :
    (s.flushed σ).Alike E pre (s'.flushed σ') where
  report := h.report
  located := h.located
  openBraces := h.openBraces
  mended := h.mended
  consumedEnd := by
    simp only [Session.flushed, h.placed.leading, List.getLast?_map, Option.map_map]
    cases s.scanner.leading.getLast? with
    | none => exact h.consumedEnd
    | some last => rfl
  declined := h.declined
  bound := h.bound
  draft := by
    have hcomments : s'.comments = s.comments.map (Child.shift E.shift) := by
      simp only [Session.comments, h.placed.leading, List.map_map]
      refine List.map_congr_left fun c _ => ?_
      simp [Child.shift, Node.ofComment_shift]
    simp only [Session.flushed, hσ.options, hcomments]
    split
    · exact h.draft.extend s.comments
    · exact h.draft
  sound := h.sound.flushed σ
  placed := ⟨h.placed.start, h.placed.here, h.placed.token, rfl⟩
  named := h.named

end Alike

theorem Fair.of_flushed {σ : Setting} (h : (s.flushed σ).Fair E) : s.Fair E :=
  h.of_reaches id .flush

/-- Where nothing is reported, a token was taken that has no fault. -/
theorem faultless_of_taken {σ : Setting} {next : Admitted} (h : (s.taken σ next).report.toList = []) :
    s.report.toList = [] ∧ s.scanner.token.faults = [] := by
  have hlist : s.report.toList ++ s.scanner.token.faults.map (·.diagnostic σ.file σ.source) = [] := by
    rw [← h]
    simp [Session.taken, Report.addAll, Report.toList]
  obtain ⟨hreport, hfaults⟩ := List.append_eq_nil_iff.1 hlist
  exact ⟨hreport, List.map_eq_nil_iff.1 hfaults⟩

/-- A token that is taken on the way to the end of an item has no fault. -/
theorem Fair.faultless {σ : Setting} {next : Admitted} (h : (s.taken σ next).Fair E) :
    E.tail = [] ∨ s.report.toList = [] ∧ s.scanner.token.faults = [] :=
  h.imp_right fun ⟨hempty, _⟩ => faultless_of_taken hempty

theorem Fair.of_taken {σ : Setting} {next : Admitted} (h : (s.taken σ next).Fair E)
    (hask : s.kind.Asks next) (hk : s.kind ≠ .endOfFile) : s.Fair E := by
  rcases h.faultless with htail | ⟨hreport, hfaults⟩
  · exact .inl htail
  · exact h.imp_right fun ⟨_, hr⟩ => ⟨hreport, .take hask hfaults hk hr⟩

/-- Taking a token from the text and from the whole. -/
theorem Alike.taken_even {σ σ' : Setting} {next : Admitted} (h : s.Alike E pre s')
    (hσ : σ.Within E σ') (hreads : next.ReadsLiterals)
    (hfirm : E.tail = [] ∨ s.scanner.token.faults = []) :
    (s.taken σ next).Even E pre (s'.taken σ' next) where
  report := by
    have hfaults : s'.scanner.token.faults.map (·.diagnostic σ'.file σ'.source) =
        (s.scanner.token.faults.map (·.diagnostic σ.file σ.source)).map
          (Diagnostic.shift E.shift) := by
      rw [h.placed.token.faults, List.map_map, List.map_map]
      refine List.map_congr_left fun f hmem => Fault.diagnostic_shift hσ f ?_
      refine hfirm.imp_right fun hnil => ?_
      rw [hnil] at hmem
      exact nomatch hmem
    have hreport := h.report
    simp only [Session.taken, Report.addAll, Report.toList, Array.toList_append, hfaults] at hreport ⊢
    rw [hreport, List.map_append, List.append_assoc]
  located := by
    simp only [Session.taken, Report.addAll, Report.toList, Array.toList_append, List.mem_append,
      List.mem_map]
    rintro d (hd | ⟨f, -, rfl⟩)
    exacts [h.located d hd, rfl]
  openBraces := h.openBraces
  mended := h.mended
  consumedEnd := congrArg Range.stop h.placed.token.range
  declined := h.declined
  bound := h.bound
  draft := (h.flushed hσ).draft
  sound := h.sound.taken σ hreads

theorem Alike.taken {σ σ' : Setting} {next : Admitted} (h : s.Alike E pre s') (hσ : σ.Within E σ')
    (hask : s.kind.Asks next) (hf : (s.taken σ next).Fair E) :
    (s.taken σ next).Alike E pre (s'.taken σ' next) where
  toEven := h.taken_even hσ hask.reads.1 (hf.faultless.imp_right (·.2))
  placed := by
    obtain ⟨hsound, -⟩ := Scanner.scan_sound hask.reads.1 h.sound.scanner.here
    exact Scanner.scan_placed hask.reads.1 h.sound.scanner.here h.placed.here
      (hf.imp_right fun ⟨_, hr⟩ => hr.firm hsound)
  named := Scanner.name_of_quote hask.reads.1 hask.reads.2.1 hask.reads.2.2 h.sound.scanner.here

end Session

end ConcreteSyntax
