import ConcreteSyntax.Text.Character
import ConcreteSyntax.Text.Range
import Mathlib.Tactic.ByContra
import Mathlib.Data.String.Basic

/-! # Places in a run of characters

An offset is a *place* of a text when it lies between two characters, with so many characters still
to come (`Place`). A stretch between two places is *blank* when only white space stands in it
(`Blank`). Blank stretches join, and a byte inside one belongs to white space, never to another
character (`Blank.isWhiteSpace_of_byte`). The slice between two places is what stands between them
(`Range.slice_eq`). -/

namespace ConcreteSyntax.Text

/-! ### Bytes -/

@[simp] theorem byteLength_nil : byteLength [] = 0 := rfl

@[simp] theorem byteLength_cons (c : Char) (cs : List Char) :
    byteLength (c :: cs) = c.utf8Size + byteLength cs := rfl

@[simp] theorem byteLength_append (cs ds : List Char) :
    byteLength (cs ++ ds) = byteLength cs + byteLength ds := by
  induction cs with
  | nil => simp
  | cons c cs ih => simp [ih, Nat.add_assoc]

/-- Every character takes a byte. -/
theorem length_le_byteLength (cs : List Char) : cs.length ≤ byteLength cs := by
  induction cs with
  | nil => simp
  | cons c cs ih =>
    have := c.utf8Size_pos
    simp only [List.length_cons, byteLength_cons]
    omega

theorem byteLength_pos {cs : List Char} (h : cs ≠ []) : 0 < byteLength cs := by
  have := length_le_byteLength cs
  have := List.length_pos_iff.mpr h
  omega

theorem byteLength_take_add_drop (n : Nat) (cs : List Char) :
    byteLength (cs.take n) + byteLength (cs.drop n) = byteLength cs := by
  rw [← byteLength_append, List.take_append_drop]

theorem byteLength_take_le (n : Nat) (cs : List Char) : byteLength (cs.take n) ≤ byteLength cs := by
  have := byteLength_take_add_drop n cs
  omega

/-- The size of a text is that of its characters. -/
theorem byteLength_toList (s : String) : byteLength s.toList = s.utf8ByteSize := by
  have h (cs : List Char) : (String.ofList cs).utf8ByteSize = byteLength cs := by
    induction cs with
    | nil => rfl
    | cons c cs ih =>
      rw [String.ofList_cons, String.utf8ByteSize_append, String.utf8ByteSize_singleton, ih]
      rfl
  rw [← h, String.ofList_toList]

/-! ### Places -/

/-- So many bytes of `text` stand before `rest`, the characters still to come. -/
def Place (text : List Char) (offset : Nat) (rest : List Char) : Prop :=
  ∃ before, text = before ++ rest ∧ byteLength before = offset

theorem Place.start (text : List Char) : Place text 0 text := ⟨[], rfl, rfl⟩

theorem Place.advance {text rest : List Char} {offset : Nat} (h : Place text offset rest)
    (n : Nat) : Place text (offset + byteLength (rest.take n)) (rest.drop n) := by
  obtain ⟨before, rfl, rfl⟩ := h
  exact ⟨before ++ rest.take n, by simp, by simp⟩

theorem Place.offset_add {text rest : List Char} {offset : Nat} (h : Place text offset rest) :
    offset + byteLength rest = byteLength text := by
  obtain ⟨before, rfl, rfl⟩ := h
  simp

theorem Place.offset_le {text rest : List Char} {offset : Nat} (h : Place text offset rest) :
    offset ≤ byteLength text := by
  have := h.offset_add
  omega

/-- A prefix of a text is known by its number of bytes. -/
theorem append_inj_of_byteLength {as bs cs ds : List Char} (h : as ++ bs = cs ++ ds)
    (hb : byteLength as = byteLength cs) : as = cs ∧ bs = ds := by
  induction as generalizing cs with
  | nil =>
    cases cs with
    | nil => exact ⟨rfl, h⟩
    | cons c cs =>
      have := c.utf8Size_pos
      simp only [byteLength_nil, byteLength_cons] at hb
      omega
  | cons a as ih =>
    cases cs with
    | nil =>
      have := a.utf8Size_pos
      simp only [byteLength_nil, byteLength_cons] at hb
      omega
    | cons c cs =>
      simp only [List.cons_append, List.cons.injEq] at h
      obtain ⟨rfl, h⟩ := h
      simp only [byteLength_cons, Nat.add_left_cancel_iff] at hb
      obtain ⟨rfl, rfl⟩ := ih h hb
      exact ⟨rfl, rfl⟩

/-- What is still to come is known by the place. -/
theorem Place.rest_unique {text rest rest' : List Char} {offset : Nat}
    (h : Place text offset rest) (h' : Place text offset rest') : rest = rest' := by
  obtain ⟨before, rfl, hb⟩ := h
  obtain ⟨before', he, hb'⟩ := h'
  exact (append_inj_of_byteLength he (by omega)).2

/-! ### Blank stretches -/

/-- Only white space stands between two places of a text. -/
def Blank (text : List Char) (a b : Nat) : Prop :=
  ∃ rest n, Place text a rest ∧ b = a + byteLength (rest.take n) ∧
    ∀ c ∈ rest.take n, isWhiteSpace c = true

theorem Place.blank_self {text rest : List Char} {a : Nat} (h : Place text a rest) :
    Blank text a a :=
  ⟨rest, 0, h, by simp, by simp⟩

theorem Blank.le {text : List Char} {a b : Nat} (h : Blank text a b) : a ≤ b := by
  obtain ⟨rest, n, -, rfl, -⟩ := h
  omega

/-- One character of white space is a blank stretch. -/
theorem Place.blank_cons {text rest : List Char} {a : Nat} {c : Char}
    (h : Place text a (c :: rest)) (hc : isWhiteSpace c = true) :
    Blank text a (a + c.utf8Size) :=
  ⟨c :: rest, 1, h, by simp, by simpa using hc⟩

theorem Blank.trans {text : List Char} {a b c : Nat} (h : Blank text a b) (h' : Blank text b c) :
    Blank text a c := by
  obtain ⟨rest, n, hp, rfl, hw⟩ := h
  obtain ⟨rest', n', hp', rfl, hw'⟩ := h'
  obtain rfl := hp'.rest_unique (hp.advance n)
  have hsplit : rest.take (n + n') = rest.take n ++ (rest.drop n).take n' := List.take_add
  refine ⟨rest, n + n', hp, by rw [hsplit, byteLength_append]; omega, fun c hc => ?_⟩
  rw [hsplit, List.mem_append] at hc
  exact hc.elim (hw c) (hw' c)

/-- Nothing stands between two offsets, or only white space. -/
def Spaced (text : List Char) (a b : Nat) : Prop := a = b ∨ Blank text a b

theorem Spaced.trans {text : List Char} {a b c : Nat} (h : Spaced text a b)
    (h' : Spaced text b c) : Spaced text a c := by
  rcases h with rfl | h
  · exact h'
  · rcases h' with rfl | h'
    · exact .inr h
    · exact .inr (h.trans h')

/-- A character that shares a byte with a blank stretch is white space. -/
theorem Blank.isWhiteSpace_of_byte {text rest : List Char} {a b offset : Nat} {c : Char}
    (h : Blank text a b) (hc : Place text offset (c :: rest)) {byte : Nat}
    (hl : offset ≤ byte ∧ byte < offset + c.utf8Size) (hb : a ≤ byte ∧ byte < b) :
    isWhiteSpace c = true := by
  obtain ⟨tail, n, ⟨before, rfl, rfl⟩, rfl, hw⟩ := h
  obtain ⟨before', he, rfl⟩ := hc
  -- the characters before `c` are those before the stretch and some of the stretch
  rcases Nat.lt_or_ge (byteLength before') (byteLength before) with hlt | hge
  · rw [List.append_eq_append_iff] at he
    rcases he with ⟨more, hm, -⟩ | ⟨more, rfl, hm⟩
    · rw [hm, byteLength_append] at hlt
      omega
    · cases more with
      | nil => simp at hlt
      | cons d more =>
        simp only [List.cons_append, List.cons.injEq] at hm
        obtain ⟨rfl, -⟩ := hm
        simp only [byteLength_append, byteLength_cons] at hb
        omega
  · have hin : ∃ more, before' = before ++ more ∧ tail = more ++ c :: rest := by
      rw [List.append_eq_append_iff] at he
      rcases he with ⟨more, hm, ht⟩ | ⟨more, rfl, hm⟩
      · exact ⟨more, hm, ht⟩
      · have : more = [] := by
          by_contra hne
          have := byteLength_pos hne
          simp only [byteLength_append] at hge
          omega
        subst this
        exact ⟨[], by simp, by simpa using hm.symm⟩
    obtain ⟨more, rfl, rfl⟩ := hin
    have hlen : more.length < n := by
      by_contra hn
      rw [List.take_append_of_le_length (by omega)] at hb
      have := byteLength_take_le n more
      simp only [byteLength_append] at hl
      omega
    refine hw c ?_
    rw [List.take_append, List.mem_append]
    right
    have : 0 < n - more.length := by omega
    obtain ⟨m, hm⟩ : ∃ m, n - more.length = m + 1 := ⟨n - more.length - 1, by omega⟩
    rw [hm, List.take_succ_cons]
    exact List.mem_cons_self

end ConcreteSyntax.Text

namespace ConcreteSyntax

/-! ### Slices -/

open Text (Place Blank byteLength)

theorem Text.utf8Len_eq (cs : List Char) : String.utf8Len cs = byteLength cs := by
  induction cs with
  | nil => rfl
  | cons c cs ih => simp [ih, Nat.add_comm]

/-- An offset between two characters is a valid position. -/
theorem Text.Place.isValid {source : String} {offset : Nat} {rest : List Char}
    (h : Place source.toList offset rest) : (⟨offset⟩ : String.Pos.Raw).isValid source = true := by
  obtain ⟨before, hs, rfl⟩ := h
  rw [String.Pos.Raw.isValid_eq_true_iff, String.Pos.Raw.isValid_iff_exists_append]
  refine ⟨String.ofList before, String.ofList rest, ?_, ?_⟩
  · rw [← String.ofList_append, ← hs, String.ofList_toList]
  · rw [String.Pos.Raw.ext_iff]
    show byteLength before = (String.ofList before).utf8ByteSize
    rw [← Text.byteLength_toList, String.toList_ofList]

/-- A valid position is an offset between two characters. -/
theorem Text.place_of_isValid {source : String} {offset : Nat}
    (h : (⟨offset⟩ : String.Pos.Raw).isValid source = true) :
    ∃ rest, Place source.toList offset rest := by
  rw [String.Pos.Raw.isValid_eq_true_iff, String.Pos.Raw.isValid_iff_exists_append] at h
  obtain ⟨before, rest, rfl, hoffset⟩ := h
  refine ⟨rest.toList, before.toList, String.toList_append, ?_⟩
  rw [Text.byteLength_toList]
  exact (congrArg String.Pos.Raw.byteIdx hoffset).symm

/-- The slice between two places is what stands between them. -/
theorem Range.slice_eq {source : String} {offset : Nat} {text rest : List Char}
    (h : Place source.toList offset (text ++ rest)) :
    Range.slice ⟨offset, offset + byteLength text⟩ source = String.ofList text := by
  have hstop : Place source.toList (offset + byteLength text) rest := by
    simpa using h.advance text.length
  unfold slice
  simp only [h.isValid, hstop.isValid, Nat.le_add_right, decide_true, Bool.and_self, if_true]
  obtain ⟨before, hs, rfl⟩ := h
  have hsource : source = String.ofList (before ++ text ++ rest) := by
    rw [List.append_assoc, ← hs, String.ofList_toList]
  rw [hsource, ← Text.utf8Len_eq, ← Text.utf8Len_eq]
  exact String.extract_of_valid before text rest

/-- Between a place and itself stands nothing. -/
theorem Range.toList_slice_self {source : String} {offset : Nat} {rest : List Char}
    (h : Place source.toList offset rest) : (slice ⟨offset, offset⟩ source).toList = [] := by
  have hslice := @slice_eq source offset [] rest h
  rw [Text.byteLength_nil, Nat.add_zero] at hslice
  rw [hslice, String.toList_ofList]

/-- A slice begins with the character that stands there. -/
theorem Range.toList_slice_cons {source : String} {offset stop : Nat} {c : Char} {rest : List Char}
    (h : Place source.toList offset (c :: rest))
    (hblank : Blank source.toList (offset + c.utf8Size) stop) :
    (slice ⟨offset, stop⟩ source).toList =
      c :: (slice ⟨offset + c.utf8Size, stop⟩ source).toList := by
  have hnext : Place source.toList (offset + c.utf8Size) rest := by simpa using h.advance 1
  obtain ⟨rest', n, hplace, rfl, -⟩ := hblank
  obtain rfl := hplace.rest_unique hnext
  have hword := List.take_append_drop n rest'
  rw [← hword] at h hnext
  have hslice := @slice_eq source offset (c :: rest'.take n) _ h
  rw [Text.byteLength_cons, ← Nat.add_assoc] at hslice
  rw [hslice, slice_eq hnext, String.toList_ofList, String.toList_ofList]

end ConcreteSyntax
