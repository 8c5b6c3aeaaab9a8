import ConcreteSyntax.Node.SExpression
import Mathlib.Data.List.Basic
import ConcreteSyntax.Proofs.Marks

/-! # S-expressions

An S-expression shows the skeleton of a node: the name of its kind and the skeletons of those children
that are named or missing, with their labels (`Node.toList_toSExpression`). The names of named kinds
have neither spaces nor brackets, and a name in quotes has no closing bracket unless it is one; so
where a skeleton ends is seen from the text alone, whatever comes after it, and the text of a skeleton
is that of no other (`Skeleton.Legible.chars_inj`).

The root of a tree is named, since the draft that it is finished from never fails. So the S-expression
of a tree tells its skeleton and nothing else: two trees, of whatever texts and options, have the same
one just if their skeletons are equal (`Tree.toSExpression_eq_iff_parse`). -/

namespace ConcreteSyntax

/-- What an S-expression shows of a node: the name of a missing token and whether it is named, or the
name of a node and its children, with their labels. -/
inductive Skeleton where
  | missing (name : String) (named : Bool)
  | node (name : String) (children : List (Option Field × Skeleton))

/-! ### The skeleton of a node -/

/-- Whether an S-expression shows a child. -/
def Node.isShown (n : Node) : Bool := n.isNamed || n.isMissing

mutual

/-- The skeleton of a node. -/
def Node.skeleton : Node → Skeleton
  | ⟨kind, range, flags, children⟩ =>
    let node : Node := ⟨kind, range, flags, children⟩
    if node.isMissing then .missing node.name node.isNamed
    else .node node.name (Node.skeletons children)

/-- The skeletons of the children that are named or missing, with their labels. -/
def Node.skeletons : List (Option Field × Node) → List (Option Field × Skeleton)
  | [] => []
  | (label, child) :: more =>
    if child.isShown then (label, child.skeleton) :: Node.skeletons more else Node.skeletons more

end

namespace Skeleton

/-! ### The text of a skeleton -/

/-- A name, in quotes if it is that of a mark or a word. -/
def nameChars (name : String) (named : Bool) : List Char :=
  if named then name.toList else '"' :: (name.toList ++ ['"'])

/-- A label before its child. -/
def labelChars : Option Field → List Char
  | none => []
  | some f => f.word.toList ++ [':', ' ']

mutual

/-- The text of a skeleton. -/
def chars : Skeleton → List Char
  | .missing name named => '(' :: ("MISSING ".toList ++ (nameChars name named ++ [')']))
  | .node name children => '(' :: (name.toList ++ (charsAll children ++ [')']))

/-- The text of skeletons in a row, each after a space and its label. -/
def charsAll : List (Option Field × Skeleton) → List Char
  | [] => []
  | (label, s) :: more => ' ' :: (labelChars label ++ (s.chars ++ charsAll more))

end

theorem exists_chars (s : Skeleton) : ∃ cs, s.chars = '(' :: cs := by
  cases s with
  | missing => exact ⟨_, by rw [chars]⟩
  | node => exact ⟨_, by rw [chars]⟩

end Skeleton

namespace Node

open Skeleton (nameChars labelChars)

theorem toList_missingForm (n : Node) :
    n.missingForm.toList = '(' :: ("MISSING ".toList ++ (nameChars n.name n.isNamed ++ [')'])) := by
  unfold missingForm nameChars
  cases n.isNamed <;> simp [toString, String.toList_append]

theorem toList_lead (out : String) (label : Option Field) :
    (lead out label).toList = out.toList ++ ((if out = "" then [] else [' ']) ++ labelChars label) := by
  unfold lead
  by_cases h : out = "" <;> cases label <;> simp [h, labelChars, String.toList_append]

mutual

/-- The S-expression of a node is the text of its skeleton. -/
theorem toList_formOnto (out : String) (label : Option Field) :
    (n : Node) → (n.formOnto out label).toList = (lead out label).toList ++ n.skeleton.chars
  | ⟨kind, range, flags, children⟩ => by
    rw [formOnto, skeleton]
    split
    · rw [String.toList_append, toList_missingForm, Skeleton.chars]
    · rw [String.toList_append, toList_formAllOnto (by simp) children, Skeleton.chars]
      simp [String.toList_append]

/-- Children are not written where nothing was: a bracket stands before them. -/
theorem toList_formAllOnto {out : String} (h : out ≠ "") :
    (children : List Child) →
      (formAllOnto out children).toList = out.toList ++ Skeleton.charsAll (skeletons children)
  | [] => by rw [formAllOnto, skeletons, Skeleton.charsAll, List.append_nil]
  | (label, child) :: more => by
    rw [formAllOnto, skeletons, isShown]
    split
    · have hform : (child.formOnto out label).toList =
          out.toList ++ (' ' :: (labelChars label ++ child.skeleton.chars)) := by
        rw [toList_formOnto, toList_lead, if_neg h]
        simp
      have hne : child.formOnto out label ≠ "" := fun he => by simp [he] at hform
      rw [toList_formAllOnto hne more, hform, Skeleton.charsAll]
      simp
    · exact toList_formAllOnto h more

end

theorem toList_toSExpression (n : Node) : n.toSExpression.toList = n.skeleton.chars := by
  rw [toSExpression, toList_formOnto, toList_lead]
  rfl

example : (leaf .closeParen (.emptyAt 3) { missing := true }).toSExpression = "(MISSING \")\")" := by
  rfl

end Node

/-! ### Names and labels -/

namespace Kind

/-- The characters of a named kind's name, as it is written down. -/
theorem exists_plain {k : Kind} (h : k.isNamed = true) : ∃ cs, k.name = String.ofList cs ∧
    cs.all (fun c => c != ' ' && c != ')' && c != '"' && c != 'M') = true := by
  cases k <;> first | exact ⟨_, rfl, rfl⟩ | exact nomatch h

/-- What a named kind is called has no space, no bracket, no quote, and nothing of the word for what is
missing. -/
theorem plain_name {k : Kind} (h : k.isNamed = true) :
    k.name.toList.all (fun c => c != ' ' && c != ')' && c != '"' && c != 'M') = true := by
  obtain ⟨cs, hname, hplain⟩ := exists_plain h
  rwa [hname, String.toList_ofList]

/-- What any kind is called has no closing bracket, unless it is one. -/
theorem name_closeParen (k : Kind) : k.name.toList = [')'] ∨ ')' ∉ k.name.toList := by
  have hname : ∃ cs, k.name = String.ofList cs ∧ (cs = [')'] ∨ ')' ∉ cs) := by
    cases k <;> exact ⟨_, rfl, by decide⟩
  obtain ⟨cs, hname, h⟩ := hname
  rwa [hname, String.toList_ofList]

end Kind

namespace Field

theorem ofWord?_word (f : Field) : ofWord? f.word = some f := by
  cases f <;> decide

/-- Labels are known by their words. -/
theorem word_inj {f g : Field} (h : f.word = g.word) : f = g :=
  Option.some.inj (by rw [← ofWord?_word f, ← ofWord?_word g, h])

theorem plain_word (f : Field) : f.word.toList.all (fun c => c != ':' && c != '(') = true := by
  cases f <;> decide

end Field

/-- Two runs of characters that both end where the first character of another sort stands. -/
theorem Text.append_inj_of_head {p : Char → Bool} {as bs xs ys : List Char}
    (ha : as.all p = true) (hb : bs.all p = true) (hx : ∀ c ∈ xs.head?, p c = false)
    (hy : ∀ c ∈ ys.head?, p c = false) (h : as ++ xs = bs ++ ys) : as = bs ∧ xs = ys := by
  induction as generalizing bs with
  | nil =>
    cases bs with
    | nil => exact ⟨rfl, h⟩
    | cons b bs =>
      have hhead := hx b (by rw [show xs = b :: bs ++ ys from h]; rfl)
      simp only [List.all_cons, hhead, Bool.false_and, Bool.false_eq_true] at hb
  | cons a as ih =>
    cases bs with
    | nil =>
      have hhead := hy a (by rw [← show a :: as ++ xs = ys from h]; rfl)
      simp only [List.all_cons, hhead, Bool.false_and, Bool.false_eq_true] at ha
    | cons b bs =>
      simp only [List.cons_append, List.cons.injEq] at h
      obtain ⟨rfl, h⟩ := h
      simp only [List.all_cons, Bool.and_eq_true] at ha hb
      obtain ⟨rfl, rfl⟩ := ih ha.2 hb.2 h
      exact ⟨rfl, rfl⟩

/-! ### Reading back -/

namespace Skeleton

/-- A skeleton whose names are those of kinds, named ones wherever nothing is missing. -/
inductive Legible : Skeleton → Prop
  | missing (kind : Kind) : Legible (.missing kind.name kind.isNamed)
  | node {kind : Kind} (named : kind.isNamed = true) {children : List (Option Field × Skeleton)}
      (legible : ∀ c ∈ children, c.2.Legible) : Legible (.node kind.name children)

/-- A label is known from the text, if a bracket comes after it. -/
theorem labelChars_inj {label label' : Option Field} {cs cs' : List Char}
    (h : labelChars label ++ '(' :: cs = labelChars label' ++ '(' :: cs') :
    label = label' ∧ cs = cs' := by
  -- a word is no bracket
  have hword {f : Field} {cs cs' : List Char} : '(' :: cs ≠ labelChars (some f) ++ cs' := by
    intro h
    rw [labelChars, List.append_assoc, ← List.nil_append ('(' :: cs)] at h
    obtain ⟨-, h⟩ := Text.append_inj_of_head rfl f.plain_word (by simp) (by simp) h
    exact nomatch h
  cases label with
  | none =>
    cases label' with
    | none => exact ⟨rfl, List.tail_eq_of_cons_eq h⟩
    | some f => exact absurd h hword
  | some f =>
    cases label' with
    | none => exact absurd h.symm hword
    | some g =>
      rw [labelChars, labelChars, List.append_assoc, List.append_assoc] at h
      obtain ⟨hfg, h⟩ := Text.append_inj_of_head f.plain_word g.plain_word (by simp) (by simp) h
      obtain rfl := Field.word_inj (String.toList_inj.1 hfg)
      exact ⟨rfl, by simpa using h⟩

/-- A name in quotes is known from the text, if a closing bracket comes after it. -/
theorem quoted_inj {as bs cs cs' : List Char} (ha : as = [')'] ∨ ')' ∉ as)
    (hb : bs = [')'] ∨ ')' ∉ bs) (h : as ++ '"' :: ')' :: cs = bs ++ '"' :: ')' :: cs') :
    as = bs ∧ cs = cs' := by
  -- the closing bracket itself is no other name
  have hclose {as cs cs' : List Char} (ha : ')' ∉ as) : ')' :: cs ≠ as ++ '"' :: cs' := by
    intro h
    cases as with
    | nil => exact absurd (List.head_eq_of_cons_eq h) (by decide)
    | cons a as => exact ha (List.mem_cons.2 (.inl (List.head_eq_of_cons_eq h)))
  have hall {as : List Char} (ha : ')' ∉ as) : (as ++ ['"']).all (· != ')') = true := by
    rw [List.all_append, Bool.and_eq_true, List.all_eq_true]
    exact ⟨fun c hc => bne_iff_ne.2 fun he => ha (he ▸ hc), rfl⟩
  rcases ha with rfl | ha
  · rcases hb with rfl | hb
    · exact ⟨rfl, by simpa using h⟩
    · exact absurd h (hclose hb)
  · rcases hb with rfl | hb
    · exact absurd h.symm (hclose ha)
    · rw [List.append_cons, List.append_cons bs] at h
      obtain ⟨hab, h⟩ := Text.append_inj_of_head (hall ha) (hall hb) (by simp) (by simp) h
      exact ⟨List.append_cancel_right hab, List.tail_eq_of_cons_eq h⟩

/-- The name of a named kind is known from the text, if a space or a closing bracket comes after it. -/
theorem plain_inj {k k' : Kind} (hk : k.isNamed = true) (hk' : k'.isNamed = true)
    {cs cs' : List Char} (hc : ∀ c ∈ cs.head?, c = ' ' ∨ c = ')')
    (hc' : ∀ c ∈ cs'.head?, c = ' ' ∨ c = ')')
    (h : k.name.toList ++ cs = k'.name.toList ++ cs') : k.name = k'.name ∧ cs = cs' := by
  have hends {c : Char} (hc : c = ' ' ∨ c = ')') :
      (c != ' ' && c != ')' && c != '"' && c != 'M') = false := by
    rcases hc with rfl | rfl <;> decide
  obtain ⟨hname, h⟩ := Text.append_inj_of_head (k.plain_name hk) (k'.plain_name hk')
    (fun c h => hends (hc c h)) (fun c h => hends (hc' c h)) h
  exact ⟨String.toList_inj.1 hname, h⟩

/-- The name of a named kind begins neither with a quote nor as the word for what is missing. -/
theorem cons_ne_plain {k : Kind} (hk : k.isNamed = true) {c : Char} (hc : c = '"' ∨ c = 'M')
    {cs cs' : List Char} (hcs' : ∀ c ∈ cs'.head?, c = ' ' ∨ c = ')') :
    c :: cs ≠ k.name.toList ++ cs' := by
  intro h
  have hall := k.plain_name hk
  cases hname : k.name.toList with
  | nil =>
    rw [hname] at h
    rcases hcs' c (by rw [← show c :: cs = cs' from h]; rfl) with rfl | rfl <;> simp at hc
  | cons d name =>
    rw [hname] at h hall
    obtain rfl : c = d := List.head_eq_of_cons_eq h
    rcases hc with rfl | rfl <;> simp at hall

/-- The name of a missing token is known from the text. -/
theorem nameChars_inj {k k' : Kind} {cs cs' : List Char}
    (h : nameChars k.name k.isNamed ++ ')' :: cs = nameChars k'.name k'.isNamed ++ ')' :: cs') :
    k.name = k'.name ∧ k.isNamed = k'.isNamed ∧ cs = cs' := by
  unfold nameChars at h
  cases hk : k.isNamed with
  | false =>
    cases hk' : k'.isNamed with
    | false =>
      simp only [hk, hk', Bool.false_eq_true, if_false, List.cons_append, List.append_assoc,
        List.cons.injEq, true_and, List.nil_append] at h
      obtain ⟨hname, hcs⟩ := quoted_inj k.name_closeParen k'.name_closeParen h
      exact ⟨String.toList_inj.1 hname, rfl, hcs⟩
    | true =>
      simp only [hk, hk', Bool.false_eq_true, if_false, if_true, List.cons_append] at h
      exact absurd h (cons_ne_plain hk' (.inl rfl) (by simp))
  | true =>
    cases hk' : k'.isNamed with
    | false =>
      simp only [hk, hk', Bool.false_eq_true, if_false, if_true, List.cons_append] at h
      exact absurd h.symm (cons_ne_plain hk (.inl rfl) (by simp))
    | true =>
      simp only [hk, hk', if_true] at h
      obtain ⟨hname, h⟩ := plain_inj hk hk' (by simp) (by simp) h
      exact ⟨hname, rfl, List.tail_eq_of_cons_eq h⟩

/-- Skeletons in a row begin with a space; a closing bracket comes after them. -/
theorem head_charsAll (children : List (Option Field × Skeleton)) (cs : List Char) :
    ∀ c ∈ (charsAll children ++ ')' :: cs).head?, c = ' ' ∨ c = ')' := by
  cases children with
  | nil => simp [charsAll]
  | cons c more => simp [charsAll]

/-- Skeletons in a row are known from the text, if each of them is. -/
theorem charsAll_inj {children : List (Option Field × Skeleton)}
    (hc : ∀ c ∈ children, ∀ {t : Skeleton} {cs cs' : List Char}, t.Legible →
      c.2.chars ++ cs = t.chars ++ cs' → c.2 = t ∧ cs = cs')
    {others : List (Option Field × Skeleton)} (ho : ∀ d ∈ others, d.2.Legible) {cs cs' : List Char}
    (h : charsAll children ++ ')' :: cs = charsAll others ++ ')' :: cs') :
    children = others ∧ cs = cs' := by
  induction children generalizing others with
  | nil =>
    cases others with
    | nil => exact ⟨rfl, List.tail_eq_of_cons_eq h⟩
    | cons d others =>
      rw [charsAll, charsAll] at h
      exact absurd (List.head_eq_of_cons_eq h) (by decide)
  | cons c children ih =>
    cases others with
    | nil =>
      rw [charsAll, charsAll] at h
      exact absurd (List.head_eq_of_cons_eq h) (by decide)
    | cons d others =>
      obtain ⟨label, s⟩ := c
      obtain ⟨label', t⟩ := d
      obtain ⟨hs, hchildren⟩ := List.forall_mem_cons.1 hc
      obtain ⟨ht, hothers⟩ := List.forall_mem_cons.1 ho
      simp only [charsAll, List.cons_append, List.append_assoc, List.cons.injEq, true_and] at h
      -- a label ends at the bracket that opens the skeleton behind it
      obtain ⟨as, has⟩ := s.exists_chars
      obtain ⟨bs, hbs⟩ := t.exists_chars
      rw [has, hbs] at h
      obtain ⟨rfl, hrest⟩ := labelChars_inj h
      have hboth : s.chars ++ (charsAll children ++ ')' :: cs) =
          t.chars ++ (charsAll others ++ ')' :: cs') := by
        rw [has, hbs]
        exact congrArg ('(' :: ·) hrest
      obtain ⟨rfl, hmore⟩ := hs ht hboth
      obtain ⟨rfl, rfl⟩ := ih hchildren hothers hmore
      exact ⟨rfl, rfl⟩

/-- **A skeleton is known from its text**, whatever comes after it. -/
theorem Legible.chars_inj {s : Skeleton} (hs : s.Legible) : ∀ {t : Skeleton} {cs cs' : List Char},
    t.Legible → s.chars ++ cs = t.chars ++ cs' → s = t ∧ cs = cs' := by
  induction hs with
  | missing k =>
    intro t cs cs' ht h
    cases ht with
    | missing k' =>
      simp only [chars, List.cons_append, List.append_assoc, List.nil_append, List.cons.injEq,
        true_and, List.append_cancel_left_eq] at h
      obtain ⟨hname, hnamed, hcs⟩ := nameChars_inj h
      exact ⟨by rw [hname, hnamed], hcs⟩
    | node hk' =>
      simp only [chars, List.cons_append, List.append_assoc, List.cons.injEq, true_and] at h
      exact absurd h (cons_ne_plain hk' (.inr rfl) (head_charsAll _ _))
  | node hk _ ih =>
    intro t cs cs' ht h
    cases ht with
    | missing k' =>
      simp only [chars, List.cons_append, List.append_assoc, List.cons.injEq, true_and] at h
      exact absurd h.symm (cons_ne_plain hk (.inr rfl) (head_charsAll _ _))
    | node hk' hlegible =>
      simp only [chars, List.cons_append, List.append_assoc, List.nil_append, List.cons.injEq,
        true_and] at h
      obtain ⟨hname, hchildren⟩ := plain_inj hk hk' (head_charsAll _ _) (head_charsAll _ _) h
      obtain ⟨rfl, rfl⟩ := charsAll_inj (fun c hc => ih c hc) hlegible hchildren
      exact ⟨by rw [hname], rfl⟩

end Skeleton

/-! ### Nodes -/

namespace Node

mutual

/-- The skeleton of a node that is shown is legible. -/
theorem legible_skeleton : (n : Node) → n.isShown = true → n.skeleton.Legible
  | ⟨kind, range, flags, children⟩, h => by
    rw [skeleton]
    split
    · exact .missing kind
    · next hm =>
      have hnamed : kind.isNamed = true := by
        rw [isShown, Bool.or_eq_true] at h
        exact h.resolve_right hm
      exact .node hnamed (legible_skeletons children)

theorem legible_skeletons : (children : List Child) → ∀ c ∈ skeletons children, c.2.Legible
  | [] => by rw [skeletons]; nofun
  | (label, child) :: more => by
    rw [skeletons]
    split
    · next h => exact List.forall_mem_cons.2 ⟨legible_skeleton child h, legible_skeletons more⟩
    · exact legible_skeletons more

end

/-- Nodes that are shown have the same S-expression just if they have the same skeleton. -/
theorem toSExpression_eq_iff {n m : Node} (hn : n.isShown = true) (hm : m.isShown = true) :
    n.toSExpression = m.toSExpression ↔ n.skeleton = m.skeleton := by
  rw [← String.toList_inj, toList_toSExpression, toList_toSExpression]
  constructor
  · intro h
    have h : n.skeleton.chars ++ [] = m.skeleton.chars ++ [] := by rw [h]
    exact ((legible_skeleton n hn).chars_inj (legible_skeleton m hm) h).1
  · exact congrArg Skeleton.chars

end Node

/-! ### Trees -/

theorem Tree.isNamed_root_parse (file source : String) (options : Options) :
    (parse file source options).root.isNamed = true := by
  obtain ⟨s, hrun, htree⟩ := parse_ends file source options
  rw [htree]
  exact (Setting.run_marked (hrun false)).kind.isNamed

/-- **S-expressions are faithful.** Two trees have the same S-expression just if they have the same
skeleton: the name of a missing token and whether it is named; of any other node its name and the
skeletons of those children that are named or missing, in order and with their labels. -/
theorem Tree.toSExpression_eq_iff_parse (file source file' source' : String)
    (options options' : Options) :
    (parse file source options).root.toSExpression =
        (parse file' source' options').root.toSExpression ↔
      (parse file source options).root.skeleton = (parse file' source' options').root.skeleton := by
  have hshown (file source : String) (options : Options) :
      (parse file source options).root.isShown = true := by
    rw [Node.isShown, isNamed_root_parse, Bool.true_or]
  exact Node.toSExpression_eq_iff (hshown file source options) (hshown file' source' options')

end ConcreteSyntax
