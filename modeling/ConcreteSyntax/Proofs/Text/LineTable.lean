import ConcreteSyntax.Proofs.Text.Blank
import ConcreteSyntax.Text.Lines
import Mathlib.Data.List.DropRight

/-! # The table of lines

A text is a run of bytes, in which the byte of a newline stands only for a newline. So the table of
lines begins at zero and goes on behind every such byte (`newlineEnds`), in increasing order, and the
entries up to an offset are those that the bytes before the offset give (`Lines.upTo_ofText`). From
that the line and the column of an offset are read off the bytes before it (`Lines.counts_ofText`). -/

namespace ConcreteSyntax

/-! ### Bytes -/

namespace Text

/-- The bytes of a text. -/
def bytes (text : String) : List UInt8 := text.toByteArray.data.toList

/-- The byte of a newline. -/
def newline : UInt8 := 10

/-- The bytes behind the last newline. -/
def lastLine (bs : List UInt8) : List UInt8 := bs.rtakeWhile (· ≠ newline)

theorem bytes_eq (text : String) : bytes text = text.toList.flatMap String.utf8EncodeChar := by
  have h : (String.ofList text.toList).toByteArray = text.toList.utf8Encode :=
    String.toByteArray_ofList
  rw [String.ofList_toList] at h
  simp [bytes, h, List.utf8Encode, List.data_toByteArray]

/-- The byte of a newline stands in no other character. -/
theorem newline_notMem {c : Char} (h : c ≠ '\n') : newline ∉ String.utf8EncodeChar c := by
  have hc : c.val.toNat ≠ 10 := fun hn => h (Char.ext (UInt32.toNat_inj.1 hn))
  have hbyte {n : Nat} (hn : n % 256 ≠ 10) : newline ≠ UInt8.ofNat n := fun he => by
    have := congrArg UInt8.toNat he
    simp only [newline, UInt8.toNat_ofNat', UInt8.reduceToNat] at this
    omega
  simp only [String.utf8EncodeChar]
  split
  · exact List.not_mem_cons_of_ne_of_not_mem (hbyte (by omega)) List.not_mem_nil
  -- every byte of a longer character is at least 128
  · split
    · simp only [List.mem_cons, List.not_mem_nil, or_false, not_or]
      exact ⟨hbyte (by omega), hbyte (by omega)⟩
    · split
      · simp only [List.mem_cons, List.not_mem_nil, or_false, not_or]
        exact ⟨hbyte (by omega), hbyte (by omega), hbyte (by omega)⟩
      · simp only [List.mem_cons, List.not_mem_nil, or_false, not_or]
        exact ⟨hbyte (by omega), hbyte (by omega), hbyte (by omega), hbyte (by omega)⟩

/-! ### The ends of newlines -/

/-- The offsets just after each newline of a run of bytes that begins at `offset`. -/
def newlineEnds (offset : Nat) : List UInt8 → List Nat
  | [] => []
  | b :: bs =>
    if b = newline then (offset + 1) :: newlineEnds (offset + 1) bs else newlineEnds (offset + 1) bs

variable {offset : Nat} {bs : List UInt8}

theorem newlineEnds_append (offset : Nat) (bs more : List UInt8) :
    newlineEnds offset (bs ++ more) =
      newlineEnds offset bs ++ newlineEnds (offset + bs.length) more := by
  induction bs generalizing offset with
  | nil => rfl
  | cons b bs ih =>
    simp only [List.cons_append, newlineEnds, ih, List.length_cons, Nat.add_assoc, Nat.add_comm 1]
    split <;> rfl

theorem newlineEnds_eq_nil (h : newline ∉ bs) : newlineEnds offset bs = [] := by
  induction bs generalizing offset with
  | nil => rfl
  | cons b bs ih =>
    have hb : b ≠ newline := fun hb => h (hb ▸ List.mem_cons_self)
    rw [newlineEnds, if_neg hb, ih (List.not_mem_of_not_mem_cons h)]

/-- There is one entry for each newline. -/
theorem length_newlineEnds (offset : Nat) (bs : List UInt8) :
    (newlineEnds offset bs).length = bs.count newline := by
  induction bs generalizing offset with
  | nil => rfl
  | cons b bs ih =>
    rw [newlineEnds, List.count_cons]
    split
    · next hb => simp [hb, ih]
    · next hb => simp [hb, ih]

theorem lt_of_mem_newlineEnds {e : Nat} (h : e ∈ newlineEnds offset bs) : offset < e := by
  induction bs generalizing offset with
  | nil => exact nomatch h
  | cons b bs ih =>
    rw [newlineEnds] at h
    split at h
    · rcases List.mem_cons.1 h with rfl | h
      · exact Nat.lt_succ_self _
      · exact Nat.lt_of_succ_lt (ih h)
    · exact Nat.lt_of_succ_lt (ih h)

theorem newlineEnds_increasing (offset : Nat) (bs : List UInt8) :
    (newlineEnds offset bs).Pairwise (· < ·) := by
  induction bs generalizing offset with
  | nil => exact .nil
  | cons b bs ih =>
    rw [newlineEnds]
    split
    · exact .cons (fun _ he => lt_of_mem_newlineEnds he) (ih _)
    · exact ih _

/-- The entries up to a limit are those of the bytes before it. -/
theorem takeWhile_newlineEnds {limit : Nat} (h : offset ≤ limit) :
    (newlineEnds offset bs).takeWhile (· ≤ limit) = newlineEnds offset (bs.take (limit - offset)) := by
  induction bs generalizing offset with
  | nil => simp [newlineEnds]
  | cons b bs ih =>
    rcases Nat.eq_or_lt_of_le h with rfl | hlt
    · rw [Nat.sub_self, List.take_zero, newlineEnds, List.takeWhile_eq_nil_iff]
      intro hpos
      have := lt_of_mem_newlineEnds (List.getElem_mem hpos)
      simpa using this
    · have hstep : limit - offset = limit - (offset + 1) + 1 := by omega
      rw [hstep, List.take_succ_cons, newlineEnds, newlineEnds]
      split
      · have hle : decide (offset + 1 ≤ limit) = true := decide_eq_true hlt
        simp only [List.takeWhile_cons, hle, if_true, ih hlt]
      · exact ih hlt

/-- The last line begins where the bytes behind the last newline do. -/
theorem last_add_lastLine (offset : Nat) (bs : List UInt8) :
    (offset :: newlineEnds offset bs).getLastD 0 + (lastLine bs).length = offset + bs.length := by
  induction bs using List.reverseRecOn with
  | nil => rfl
  | append_singleton bs b ih =>
    rw [newlineEnds_append, newlineEnds, newlineEnds]
    by_cases hb : b = newline
    · rw [if_pos hb, lastLine, List.rtakeWhile_concat_neg _ _ _ (by simp [hb]), ← List.cons_append,
        List.getLastD_concat]
      simp [Nat.add_assoc]
    · have hlast : lastLine (bs ++ [b]) = lastLine bs ++ [b] :=
        List.rtakeWhile_concat_pos _ _ _ (by simp [hb])
      rw [if_neg hb, List.append_nil, hlast, List.length_append, List.length_append]
      simp only [List.length_singleton]
      omega

end Text

/-! ### Lines and columns -/

/-- A place that comes before another: on an earlier line, or on the same line in an earlier column. -/
def LineColumn.Before (p q : LineColumn) : Prop :=
  p.line < q.line ∨ p.line = q.line ∧ p.column < q.column

/-- A table of lines counts the positions of a run of bytes. -/
structure Lines.Counts (lines : Lines) (bytes : List UInt8) : Prop where
  /-- Every offset has its line in the table, the last one that begins at or before it. -/
  found : ∀ offset, ∃ (i : Nat) (hi : i < lines.starts.length),
    (∀ (j : Nat) (hj : j < lines.starts.length), lines.starts[j] ≤ offset ↔ j ≤ i) ∧
      lines.lineColumn offset = ⟨i + 1, offset - lines.starts[i] + 1⟩
  /-- The line is one more than there are newlines before. -/
  line : ∀ offset ≤ bytes.length,
    (lines.lineColumn offset).line = (bytes.take offset).count Text.newline + 1
  /-- The column is one more than there are bytes since the last newline. -/
  column : ∀ offset ≤ bytes.length,
    (lines.lineColumn offset).column = (Text.lastLine (bytes.take offset)).length + 1
  /-- An offset is known by its line and its column. -/
  known : ∀ offset ≤ bytes.length, ∃ start,
    lines.starts[(lines.lineColumn offset).line - 1]? = some start ∧
      offset = start + ((lines.lineColumn offset).column - 1)
  /-- Later offsets are at later places. -/
  increasing : ∀ a b, a < b → b ≤ bytes.length →
    (lines.lineColumn a).Before (lines.lineColumn b)
  /-- No line and no column is larger than the text allows. -/
  small : ∀ offset ≤ bytes.length,
    (lines.lineColumn offset).line + (lines.lineColumn offset).column ≤ bytes.length + 2

namespace LineColumn.Before

variable {p q : LineColumn}

theorem irrefl (p : LineColumn) : ¬ p.Before p := by
  rintro (h | ⟨-, h⟩) <;> exact Nat.lt_irrefl _ h

theorem asymm (h : p.Before q) : ¬ q.Before p := by
  unfold Before at *
  omega

end LineColumn.Before

namespace Lines

open Text (bytes newline newlineEnds lastLine)

/-- The table of a text, read off its bytes. -/
theorem afterNewlines_eq (offset : Nat) (cs : List Char) :
    afterNewlines offset cs = newlineEnds offset (cs.flatMap String.utf8EncodeChar) := by
  induction cs generalizing offset with
  | nil => rfl
  | cons c cs ih =>
    rw [List.flatMap_cons, Text.newlineEnds_append, String.length_utf8EncodeChar, ← ih, afterNewlines]
    split
    · next hc =>
      subst hc
      rfl
    · next hc => rw [Text.newlineEnds_eq_nil (Text.newline_notMem hc), List.nil_append]

theorem starts_ofText (text : String) :
    (ofText text).starts = 0 :: newlineEnds 0 (bytes text) := by
  rw [ofText, afterNewlines_eq, Text.bytes_eq]

theorem starts_increasing (text : String) : (ofText text).starts.Pairwise (· < ·) := by
  rw [starts_ofText]
  exact .cons (fun _ he => Text.lt_of_mem_newlineEnds he) (Text.newlineEnds_increasing _ _)

/-- The entries of the table up to an offset. -/
theorem upTo_ofText (text : String) (offset : Nat) :
    (ofText text).starts.takeWhile (· ≤ offset) = 0 :: newlineEnds 0 ((bytes text).take offset) := by
  have hends : (newlineEnds 0 (bytes text)).takeWhile (· ≤ offset) =
      newlineEnds 0 ((bytes text).take (offset - 0)) := Text.takeWhile_newlineEnds (Nat.zero_le offset)
  simp only [starts_ofText, List.takeWhile_cons, Nat.zero_le, decide_true, if_true, hends, Nat.sub_zero]

/-- The entries of a table that are at most a limit are the first ones. -/
theorem getElem_le_iff {starts : List Nat} (h : starts.Pairwise (· < ·)) {limit j : Nat}
    (hj : j < starts.length) :
    starts[j] ≤ limit ↔ j < (starts.takeWhile (· ≤ limit)).length := by
  induction starts generalizing j with
  | nil => exact absurd hj (Nat.not_lt_zero _)
  | cons start starts ih =>
    obtain ⟨hstart, hstarts⟩ := List.pairwise_cons.1 h
    by_cases hle : start ≤ limit
    · simp only [List.takeWhile_cons, hle, decide_true, if_true]
      cases j with
      | zero => simpa using hle
      | succ j => simpa using ih hstarts (Nat.lt_of_succ_lt_succ hj)
    · simp only [List.takeWhile_cons, hle, decide_false, Bool.false_eq_true, if_false]
      cases j with
      | zero => simpa using hle
      | succ j =>
        have := hstart _ (List.getElem_mem (Nat.lt_of_succ_lt_succ hj))
        simp only [List.getElem_cons_succ, List.length_nil, Nat.not_lt_zero, iff_false]
        omega

/-- Every offset has its line in the table. -/
theorem found_ofText (text : String) (offset : Nat) :
    ∃ (i : Nat) (hi : i < (ofText text).starts.length),
      (∀ (j : Nat) (hj : j < (ofText text).starts.length),
        (ofText text).starts[j] ≤ offset ↔ j ≤ i) ∧
      (ofText text).lineColumn offset = ⟨i + 1, offset - (ofText text).starts[i] + 1⟩ := by
  have hupTo := upTo_ofText text offset
  let i := (newlineEnds 0 ((bytes text).take offset)).length
  have hlength : ((ofText text).starts.takeWhile (· ≤ offset)).length = i + 1 := by
    rw [hupTo]
    rfl
  have hfront : (ofText text).starts.takeWhile (· ≤ offset) <+: (ofText text).starts :=
    List.takeWhile_prefix _
  have hi : i < (ofText text).starts.length := by
    have := hfront.length_le
    omega
  refine ⟨i, hi, fun j hj => ?_, ?_⟩
  · rw [getElem_le_iff (starts_increasing text) hj, hlength, Nat.lt_succ_iff]
  · have hlast : ((ofText text).starts.takeWhile (· ≤ offset)).getLastD 0 =
        (ofText text).starts[i] := by
      have hlt : i < ((ofText text).starts.takeWhile (· ≤ offset)).length := by omega
      rw [List.getLastD_eq_getLast?, List.getLast?_eq_getElem?, hlength, Nat.add_sub_cancel,
        List.getElem?_eq_getElem hlt, hfront.getElem hlt]
      rfl
    show LineColumn.mk _ _ = _
    rw [hlength, hlast]

theorem line_ofText (text : String) (offset : Nat) :
    ((ofText text).lineColumn offset).line = ((bytes text).take offset).count newline + 1 := by
  show ((ofText text).starts.takeWhile (· ≤ offset)).length = _
  rw [upTo_ofText, List.length_cons, Text.length_newlineEnds]

theorem column_ofText {text : String} {offset : Nat} (h : offset ≤ (bytes text).length) :
    ((ofText text).lineColumn offset).column =
      (lastLine ((bytes text).take offset)).length + 1 := by
  have hlast := Text.last_add_lastLine 0 ((bytes text).take offset)
  rw [List.length_take, Nat.min_eq_left h] at hlast
  show offset - ((ofText text).starts.takeWhile (· ≤ offset)).getLastD 0 + 1 = _
  rw [upTo_ofText]
  omega

/-- Later offsets are at later places, also behind the end of a text. -/
theorem before_ofText (text : String) {a b : Nat} (h : a < b) :
    ((ofText text).lineColumn a).Before ((ofText text).lineColumn b) := by
  obtain ⟨i, hi, hfirst, ha⟩ := found_ofText text a
  obtain ⟨j, hj, hsecond, hb⟩ := found_ofText text b
  rw [ha, hb]
  have hstart : (ofText text).starts[i] ≤ a := (hfirst i hi).2 (Nat.le_refl i)
  have hij : i ≤ j := (hsecond i hi).1 (by omega)
  rcases Nat.eq_or_lt_of_le hij with rfl | hlt
  · exact .inr ⟨rfl, by show a - _ + 1 < b - _ + 1; omega⟩
  · exact .inl (Nat.succ_lt_succ hlt)

/-- A later offset is not at an earlier place. -/
theorem not_before_ofText (text : String) {a b : Nat} (h : a ≤ b) :
    ¬ ((ofText text).lineColumn b).Before ((ofText text).lineColumn a) := by
  rcases Nat.eq_or_lt_of_le h with rfl | hlt
  · exact LineColumn.Before.irrefl _
  · exact (before_ofText text hlt).asymm

/-- **Lines and columns are in order**: the table of a text counts its bytes. -/
theorem counts_ofText (text : String) : (ofText text).Counts (bytes text) where
  found := found_ofText text
  line offset _ := line_ofText text offset
  column _ := column_ofText
  known offset _ := by
    obtain ⟨i, hi, hle, hat⟩ := found_ofText text offset
    have hstart := (hle i hi).2 (Nat.le_refl i)
    rw [hat]
    refine ⟨(ofText text).starts[i], List.getElem?_eq_getElem hi, ?_⟩
    show offset = _ + (offset - _ + 1 - 1)
    omega
  increasing _ _ h _ := before_ofText text h
  small offset h := by
    rw [line_ofText, column_ofText h]
    have hfront : ((bytes text).take offset).length ≤ (bytes text).length := List.length_take_le' _ _
    -- the bytes behind the last newline hold no newline
    obtain ⟨front, hsplit⟩ : lastLine ((bytes text).take offset) <:+ (bytes text).take offset :=
      List.rtakeWhile_suffix _ _
    have hcount : (lastLine ((bytes text).take offset)).count newline = 0 :=
      List.count_eq_zero.2 fun hmem => by simpa using List.mem_rtakeWhile_imp hmem
    have hle : front.count newline ≤ front.length := List.count_le_length
    rw [← hsplit, List.length_append] at hfront
    rw [← hsplit, List.count_append, hsplit, hcount]
    omega

example : (ofText "a\nbc").lineColumn 3 = ⟨2, 2⟩ := by decide

end Lines

end ConcreteSyntax
