import ConcreteSyntax.Proofs.Token.Lexeme

/-! # What literals promise

Characters, strings, raw strings and numbers fit the text they are read from. An escape takes a
character at least and runs at most one past the end of the text, so the quote that has to close the
literal is what keeps it inside. -/

namespace ConcreteSyntax.Lexeme

/-! ### Escapes -/

theorem scan_length_bounds (inString : Bool) (cs : List Char) :
    0 < (Escape.scan inString cs).length ∧ (Escape.scan inString cs).length ≤ cs.length + 1 := by
  unfold Escape.scan
  split
  · simp
  · next rest =>
    have h := length_takeWhile_le Text.isHexDigit (rest.take 2)
    have h' : (rest.take 2).length ≤ rest.length := List.length_take_le' 2 rest
    simp only [List.length_cons]
    omega
  · next rest =>
    have h := length_takeWhile_le (fun c => Text.isHexDigit c || c == '_') rest
    simp only
    split
    · next hclose =>
      -- the brace that closes the escape stands behind the digits
      obtain ⟨hlt, -⟩ := List.getElem?_eq_some_iff.1 hclose
      simp only [List.length_cons]
      omega
    · simp only [List.length_cons]
      omega
  · next c rest _ _ =>
    split
    · simp
    · split
      · have h := length_takeWhile_le Text.isWhiteSpace (c :: rest)
        simp only [List.length_cons] at h ⊢
        omega
      · simp

theorem escape_piece (e : Escape) (h : 0 < e.length) : 0 < e.piece.2 ∧ e.piece.1.isPiece = true := by
  refine ⟨h, ?_⟩
  unfold Escape.piece
  dsimp only
  split <;> rfl

/-! ### Characters -/

theorem contentPiece_sound {cs : List Char} {p : Kind × Nat}
    (h : QuoteMark.contentPiece? cs = some p) :
    (0 < p.2 ∧ p.1.isPiece = true) ∧ p.2 ≤ cs.length := by
  unfold QuoteMark.contentPiece? at h
  split at h
  · simp at h
  · next rest =>
    obtain rfl := Option.some.inj h
    obtain ⟨hpos, hle⟩ := scan_length_bounds false rest
    exact ⟨escape_piece _ hpos, hle⟩
  · split at h
    · simp at h
    · obtain rfl := Option.some.inj h
      exact ⟨⟨Nat.one_pos, rfl⟩, by simp⟩

theorem character_fits {lead : Nat} {flags : TokenFlags} (before : List Char) {cs : List Char}
    {l : Lexeme} (hb : before.length = lead + 1) (h : QuoteMark.character? lead flags cs = some l) :
    l.Fits (before ++ cs) := by
  unfold QuoteMark.character? at h
  split at h
  · simp at h
  · next kind n hc =>
    split at h
    · next hq =>
      obtain rfl := Option.some.inj h
      obtain ⟨⟨hpos, hk⟩, -⟩ := contentPiece_sound hc
      obtain ⟨hlt, -⟩ := List.getElem?_eq_some_iff.1 hq
      have hlen : lead + n + 2 =
          piecesLength [(.charStart, lead + 1), (kind, n), (.charEnd, 1)] := by
        simp
        omega
      have hle : lead + n + 2 ≤ (before ++ cs).length := by
        rw [List.length_append]
        omega
      rw [hlen] at hle ⊢
      refine fits_pieces (by decide) rfl (by simp) hle (fun p hp => ?_) (fun h => nomatch h) nofun
      simp only [List.mem_cons, List.not_mem_nil, or_false] at hp
      rcases hp with rfl | rfl | rfl
      · exact ⟨Nat.succ_pos _, rfl⟩
      · exact ⟨hpos, hk⟩
      · exact ⟨Nat.one_pos, rfl⟩
    · simp at h

theorem unclosed_fits {lead : Nat} {flags : TokenFlags} (before : List Char) {cs : List Char}
    (hb : before.length = lead + 1) : (QuoteMark.unclosed lead flags cs).Fits (before ++ cs) := by
  unfold QuoteMark.unclosed
  refine fits_unreadable (by omega) ?_ nofun
  rw [List.length_append]
  split
  · next hc =>
    have := (contentPiece_sound hc).2
    simp only at this ⊢
    omega
  · omega

theorem prefixed_fits {flags : TokenFlags} (before : List Char) {cs : List Char}
    (hb : before.length = 2) :
    (QuoteMark.prefixed flags cs).Fits (before ++ cs) := by
  unfold QuoteMark.prefixed
  cases h : QuoteMark.character? 1 flags cs with
  | none => exact unclosed_fits before hb
  | some l => exact character_fits before hb h

theorem alone_fits (cs : List Char) : QuoteMark.alone.Fits ('\'' :: cs) :=
  fits_plain (by decide) Nat.one_pos (by simp) fun text h => by
    obtain rfl := Option.some.inj h
    rfl

theorem quote_fits [Text.Xid] {admitted : Admitted} {cs : List Char} {l : Lexeme}
    (h : QuoteMark.scan? admitted cs = some l) : l.Fits ('\'' :: cs) := by
  unfold QuoteMark.scan? at h
  simp only at h
  split at h
  · obtain rfl := Option.some.inj h
    exact alone_fits cs
  · split at h
    · split at h
      · obtain rfl := Option.some.inj h
        exact alone_fits cs
      · simp at h
    · split at h
      · next hc =>
        obtain rfl := Option.some.inj h
        exact character_fits ['\''] rfl hc
      · split at h
        · obtain rfl := Option.some.inj h
          exact alone_fits cs
        · obtain rfl := Option.some.inj h
          exact unclosed_fits ['\''] rfl

/-! ### Strings -/

theorem stringContent_sound {n : Nat} :
    piecesLength (StringLiteral.contentPiece n) = n ∧
      ∀ p ∈ StringLiteral.contentPiece n, 0 < p.2 ∧ p.1 = .stringContent := by
  unfold StringLiteral.contentPiece
  split
  · next h => exact ⟨by simp [h], nofun⟩
  · refine ⟨by simp, fun p hp => ?_⟩
    obtain rfl := List.mem_singleton.1 hp
    exact ⟨by simp only; omega, rfl⟩

theorem pieces_sound {cs : List Char} {pieces : List (Kind × Nat)}
    (h : StringLiteral.pieces? cs = some pieces) :
    piecesLength pieces ≤ cs.length ∧ ∀ p ∈ pieces, 0 < p.2 ∧ p.1.isPiece = true := by
  fun_induction StringLiteral.pieces? cs generalizing pieces with
  | case1 => simp at h
  | case2 cs plain rest =>
    rename_i hdrop
    obtain rfl := Option.some.inj h
    obtain ⟨hlen, hmem⟩ := stringContent_sound (n := plain)
    have := congrArg List.length hdrop
    simp only [List.length_drop, List.length_cons] at this
    refine ⟨by simp only [piecesLength_append, hlen, piecesLength_cons, piecesLength_nil]; omega,
      fun p hp => ?_⟩
    rcases List.mem_append.1 hp with hp | hp
    · exact ⟨(hmem p hp).1, (hmem p hp).2 ▸ rfl⟩
    · obtain rfl := List.mem_singleton.1 hp
      exact ⟨Nat.one_pos, rfl⟩
  | case3 cs plain c rest hdrop _ escape =>
    rename_i ih
    obtain ⟨more, hmore, rfl⟩ := Option.map_eq_some_iff.1 h
    obtain ⟨hrest, hmem'⟩ := ih hmore
    obtain ⟨hlen, hmem⟩ := stringContent_sound (n := plain)
    obtain ⟨hpos, hle⟩ : 0 < escape.length ∧ escape.length ≤ rest.length + 1 :=
      scan_length_bounds true rest
    have := congrArg List.length hdrop
    simp only [List.length_drop, List.length_cons] at this hrest
    refine ⟨?_, fun p hp => ?_⟩
    · simp only [piecesLength_append, hlen, piecesLength_cons, Escape.piece]
      omega
    · rcases List.mem_append.1 hp with hp | hp
      · exact ⟨(hmem p hp).1, (hmem p hp).2 ▸ rfl⟩
      · rcases List.mem_cons.1 hp with rfl | hp
        · exact escape_piece _ hpos
        · exact hmem' p hp

theorem string_fits {lead : Nat} {flags : TokenFlags} (before : List Char) {cs : List Char}
    (hb : before.length = lead + 1) :
    (StringLiteral.scan lead flags cs).Fits (before ++ cs) := by
  unfold StringLiteral.scan
  split
  · exact fits_unreadable (by omega) (by rw [List.length_append]; omega) nofun
  · next more hmore =>
    obtain ⟨hle, hmem⟩ := pieces_sound hmore
    refine fits_pieces (by decide) rfl (by simp) ?_ (fun p hp => ?_) (fun h => nomatch h) nofun
    · rw [piecesLength_cons, List.length_append]
      omega
    · rcases List.mem_cons.1 hp with rfl | hp
      · exact ⟨Nat.succ_pos _, rfl⟩
      · exact hmem p hp

theorem rawLength_le {hashes : Nat} {cs : List Char} {n : Nat}
    (h : StringLiteral.rawLength? hashes cs = some n) : n + hashes + 1 ≤ cs.length := by
  induction cs generalizing n with
  | nil => simp [StringLiteral.rawLength?] at h
  | cons c cs ih =>
    unfold StringLiteral.rawLength? at h
    split at h
    · next hq =>
      obtain rfl := Option.some.inj h
      have := (List.isPrefixOf_iff_prefix.1 (Bool.and_eq_true_iff.1 hq).2).length_le
      simp only [List.length_replicate, List.length_cons] at this ⊢
      omega
    · obtain ⟨m, hm, rfl⟩ := Option.map_eq_some_iff.1 h
      have := ih hm
      simp only [List.length_cons]
      omega

theorem rawString_fits {lead : Nat} {flags : TokenFlags} (before : List Char) {cs : List Char}
    {l : Lexeme} (hb : before.length = lead + 1) (h : StringLiteral.scanRaw? lead flags cs = some l) :
    l.Fits (before ++ cs) := by
  unfold StringLiteral.scanRaw? at h
  simp only at h
  split at h
  · next rest hdrop =>
    have hlen := congrArg List.length hdrop
    simp only [List.length_drop, List.length_cons] at hlen
    split at h
    · obtain rfl := Option.some.inj h
      exact fits_unreadable (by omega) (by rw [List.length_append]; omega) nofun
    · next n hn =>
      obtain rfl := Option.some.inj h
      have := rawLength_le hn
      obtain ⟨hc, hmem⟩ := stringContent_sound (n := n)
      refine fits_pieces (by decide) rfl (by simp) ?_ (fun p hp => ?_) (fun _ p hp => ?_) nofun
      · simp only [piecesLength_cons, piecesLength_append, hc, piecesLength_nil,
          List.length_append]
        omega
      all_goals
        simp only [List.mem_cons, List.mem_append, List.not_mem_nil, or_false] at hp
        rcases hp with rfl | hp | rfl
      · exact ⟨Nat.succ_pos _, rfl⟩
      · exact ⟨(hmem p hp).1, (hmem p hp).2 ▸ rfl⟩
      · exact ⟨Nat.succ_pos _, rfl⟩
      · nofun
      · rw [(hmem p hp).2]
        nofun
      · nofun
  · simp at h

/-! ### Numbers -/

theorem based_fits {base : Nat} {flags : TokenFlags} (before : List Char) {cs : List Char}
    (hb : before.length = 2) : (Number.based base flags cs).Fits (before ++ cs) := by
  have hle : (Number.digitRun base cs).length ≤ cs.length := length_takeWhile_le _ cs
  unfold Number.based
  refine ⟨Nat.succ_pos _, ?_, ⟨nofun, nofun⟩, nofun, .inr ?_, fun p hp => ?_, nofun, nofun, ?_, nofun, nofun⟩
  · simp only [List.length_append]
    omega
  · simp only [piecesLength_cons]
    split
    · next h => simp [List.isEmpty_iff.1 h]
    · simp
      omega
  · rcases List.mem_cons.1 hp with rfl | hp
    · exact ⟨Nat.two_pos, rfl⟩
    · split at hp
      · simp at hp
      · next h =>
        obtain rfl := List.mem_singleton.1 hp
        exact ⟨List.length_pos_iff.2 (by simpa using h), rfl⟩
  · dsimp only
    split <;> nofun

theorem isDigitOrSeparator_of_isDigit {c : Char} (h : c.isDigit = true) :
    Number.isDigitOrSeparator 10 c = true := by
  have hlt : c.toNat - 48 < 10 := by
    simp only [Char.isDigit, Bool.and_eq_true, decide_eq_true_eq] at h
    have := UInt32.le_iff_toNat_le.1 h.2
    have hval : c.val.toNat ≤ 57 := this
    change c.val.toNat - 48 < 10
    omega
  simp [Number.isDigitOrSeparator, Number.isDigitOrSeparator.digitValue, Text.isHexDigit, h]
  omega

theorem digitRun_pos {c : Char} (cs : List Char) (h : c.isDigit = true) :
    0 < (Number.digitRun 10 (c :: cs)).length := by
  simp [Number.digitRun, isDigitOrSeparator_of_isDigit h]

/-- What a row of pieces in a number promises. -/
structure Part (cs : List Char) (pieces : List (Kind × Nat)) : Prop where
  le : Number.lengthOf pieces ≤ cs.length
  piece : ∀ p ∈ pieces, 0 < p.2 ∧ p.1.isPiece = true ∧ p.1 ≠ .errorSentinel

theorem part_nil (cs : List Char) : Part cs [] := ⟨Nat.zero_le _, nofun⟩

theorem fraction_part [Text.Xid] (cs : List Char) : Part cs (Number.fractionPieces cs) := by
  unfold Number.fractionPieces
  split
  · next cs =>
    -- whether the point belongs to the number plays no part
    suffices h : ∀ belongs : Bool, Part ('.' :: cs)
        (if !belongs then []
        else if cs.head?.any Char.isDigit then
          [(.decimalPoint, 1), (.digits, (Number.digitRun 10 cs).length)]
        else [(.decimalPoint, 1)]) from h _
    intro belongs
    split
    · exact part_nil _
    · split
      · next hd =>
        have hpos : 0 < (Number.digitRun 10 cs).length := by
          cases cs with
          | nil => simp at hd
          | cons d ds => exact digitRun_pos ds (by simpa using hd)
        have hle : (Number.digitRun 10 cs).length ≤ cs.length := length_takeWhile_le _ _
        refine ⟨by simp [Number.lengthOf]; omega, fun p hp => ?_⟩
        simp only [List.mem_cons, List.not_mem_nil, or_false] at hp
        rcases hp with rfl | rfl
        · exact ⟨Nat.one_pos, rfl, nofun⟩
        · exact ⟨hpos, rfl, nofun⟩
      · exact ⟨by simp [Number.lengthOf], fun p hp => List.mem_singleton.1 hp ▸ ⟨Nat.one_pos, rfl, nofun⟩⟩
  · exact part_nil _

theorem exponent_part (cs : List Char) : Part cs (Number.exponentPieces cs) := by
  unfold Number.exponentPieces
  split
  · next c cs =>
    split
    · -- the number of characters of the sign plays no part
      suffices h : ∀ sign : Nat, Part (c :: cs)
          (if (Number.digitRun 10 (cs.drop sign)).any Char.isDigit then
            [(.exponent, sign + (Number.digitRun 10 (cs.drop sign)).length + 1)]
          else []) from h _
      intro sign
      split
      · next hd =>
        have hpos : 0 < (Number.digitRun 10 (cs.drop sign)).length := by
          obtain ⟨d, hd, -⟩ := List.any_eq_true.1 hd
          exact List.length_pos_of_mem hd
        have hle : (Number.digitRun 10 (cs.drop sign)).length ≤ (cs.drop sign).length :=
          length_takeWhile_le _ _
        rw [List.length_drop] at hle
        refine ⟨by simp [Number.lengthOf]; omega, fun p hp => ?_⟩
        obtain rfl := List.mem_singleton.1 hp
        exact ⟨Nat.succ_pos _, rfl, nofun⟩
      · exact part_nil _
    · exact part_nil _
  · exact part_nil _

theorem decimal_fits [Text.Xid] {float : Bool} {c : Char} {cs : List Char} (hc : c.isDigit = true) :
    (Number.decimal float (c :: cs)).Fits (c :: cs) := by
  have hpos := digitRun_pos cs hc
  have hle : (Number.digitRun 10 (c :: cs)).length ≤ (c :: cs).length := length_takeWhile_le _ _
  -- both rows are parts of what is left, whether floats are admitted or not
  have hpart (b : Bool) {ds : List Char} {ps : List (Kind × Nat)} (h : Part ds ps) :
      Part ds (if b then ps else []) := by
    cases b
    · exact part_nil ds
    · exact h
  unfold Number.decimal
  simp only
  generalize Number.digitRun 10 (c :: cs) = digits at hpos hle
  have hf := hpart float (fraction_part ((c :: cs).drop digits.length))
  generalize (if float then Number.fractionPieces ((c :: cs).drop digits.length) else []) =
    fraction at hf
  have he := hpart float
    (exponent_part ((c :: cs).drop (digits.length + Number.lengthOf fraction)))
  generalize (if float then
    Number.exponentPieces ((c :: cs).drop (digits.length + Number.lengthOf fraction)) else []) =
    exponent at he
  split
  · exact fits_plain (by decide) hpos hle nofun
  · have hle' : piecesLength ((.digits, digits.length) :: (fraction ++ exponent)) ≤
        (c :: cs).length := by
      have h1 : piecesLength fraction ≤ ((c :: cs).drop digits.length).length := hf.le
      have h2 : piecesLength exponent ≤
          ((c :: cs).drop (digits.length + piecesLength fraction)).length := he.le
      simp only [List.length_drop, piecesLength_cons, piecesLength_append] at h1 h2 ⊢
      omega
    have hp : ∀ p ∈ (Kind.digits, digits.length) :: (fraction ++ exponent),
        0 < p.2 ∧ p.1.isPiece = true ∧ p.1 ≠ .errorSentinel := by
      intro p hp
      rcases List.mem_cons.1 hp with rfl | hp
      · exact ⟨hpos, rfl, nofun⟩
      · exact (List.mem_append.1 hp).elim (hf.piece p) (he.piece p)
    exact fits_pieces (by decide) rfl nofun hle' (fun p h => ⟨(hp p h).1, (hp p h).2.1⟩)
      (fun _ p h => (hp p h).2.2) nofun

theorem number_fits [Text.Xid] {float : Bool} {c : Char} {cs : List Char} (hc : c.isDigit = true) :
    (Number.scan float (c :: cs)).Fits (c :: cs) := by
  unfold Number.scan
  split
  · next heq =>
    rw [heq]
    exact based_fits ['0', 'x'] rfl
  · next heq =>
    rw [heq]
    exact based_fits ['0', 'o'] rfl
  · next heq =>
    rw [heq]
    exact based_fits ['0', 'b'] rfl
  · exact decimal_fits hc

end ConcreteSyntax.Lexeme
