import QuadStore.Algebra.Sexp
import QuadStore.Proofs.Quoting

/-!
# Legible S-expressions

An S-expression is legible if every atom tells from its own characters where it ends: a word ends
before the first delimiter, an IRI with the first `>`, a literal after its quoted text and suffix.
The text of a legible S-expression determines the S-expression, whatever follows
(`Sexp.Legible.text_append_inj`).
-/

namespace QuadStore
namespace Sexp

/-! ## Atoms -/

/-- The characters that part the items of a list. -/
def isDelimiter (c : Char) : Bool := c == ' ' || c == '(' || c == ')'

/-- A class of characters has no delimiter if it has none of the three. -/
theorem isDelimiter_eq_false {kind : Char → Bool} (hspace : kind ' ' = false)
    (hopen : kind '(' = false) (hclose : kind ')' = false) {c : Char} (hc : kind c = true) :
    isDelimiter c = false := by
  by_contra hdelimiter
  simp only [isDelimiter, Bool.not_eq_false, Bool.or_eq_true, beq_iff_eq] at hdelimiter
  rcases hdelimiter with (rfl | rfl) | rfl <;> simp_all

/-- A text without delimiters. -/
def Unbroken (cs : List Char) : Prop := ∀ c ∈ cs, isDelimiter c = false

/-- A word that may stand at the head of a list. -/
def IsWord (word : String) : Prop := word ≠ "" ∧ Unbroken word.toList

/-- What may follow an atom: nothing, or a text that begins with a delimiter. -/
def Parted (rest : List Char) : Prop := ∀ c ∈ rest.head?, isDelimiter c = true

/-- What may follow the quoted text of a literal. -/
inductive IsSuffix : List Char → Prop
  | plain : IsSuffix []
  | tagged {tag : List Char} : Unbroken tag → IsSuffix ('@' :: tag)
  | typed {iri : List Char} : '>' ∉ iri → IsSuffix ('^' :: '^' :: '<' :: (iri ++ ['>']))

/-- The texts that tell where they end. -/
inductive IsAtom : List Char → Prop
  | word {c : Char} {cs : List Char} : Unbroken (c :: cs) → c ≠ '<' → c ≠ '"' → IsAtom (c :: cs)
  | iri {cs : List Char} : '>' ∉ cs → IsAtom ('<' :: (cs ++ ['>']))
  | literal {value : String} {suffix : List Char} : IsSuffix suffix →
      IsAtom ((Text.quote value).toList ++ suffix)

theorem parted_nil : Parted [] := nofun

theorem parted_cons {c : Char} {cs : List Char} : Parted (c :: cs) ↔ isDelimiter c = true := by
  simp [Parted]

/-- Two texts of characters of one kind are the same if they are followed by the same other ones. -/
theorem append_inj_of_kind (kind : Char → Bool) {cs cs' rest rest' : List Char}
    (hcs : ∀ c ∈ cs, kind c = true) (hcs' : ∀ c ∈ cs', kind c = true)
    (hrest : ∀ c ∈ rest.head?, kind c = false) (hrest' : ∀ c ∈ rest'.head?, kind c = false)
    (h : cs ++ rest = cs' ++ rest') : cs = cs' ∧ rest = rest' := by
  have hstop : ∀ t : List Char, (∀ c ∈ t.head?, kind c = false) → t.takeWhile kind = [] := by
    intro t ht
    cases t with
    | nil => rfl
    | cons c t => rw [List.takeWhile_cons_of_neg (by simp [ht c rfl])]
  have htaken := congrArg (List.takeWhile kind) h
  rw [List.takeWhile_append_of_pos hcs, List.takeWhile_append_of_pos hcs', hstop rest hrest,
    hstop rest' hrest', List.append_nil, List.append_nil] at htaken
  subst htaken
  exact ⟨rfl, List.append_cancel_left h⟩

variable {cs cs' rest rest' : List Char}

theorem Unbroken.append_inj (hcs : Unbroken cs) (hcs' : Unbroken cs') (hrest : Parted rest)
    (hrest' : Parted rest') (h : cs ++ rest = cs' ++ rest') : cs = cs' ∧ rest = rest' :=
  append_inj_of_kind (fun c => !isDelimiter c) (by simpa [Unbroken] using hcs)
    (by simpa [Unbroken] using hcs') (by simpa [Parted] using hrest)
    (by simpa [Parted] using hrest') h

/-- What stands before the first `>`, and what follows it. -/
theorem append_inj_of_bracket (hcs : '>' ∉ cs) (hcs' : '>' ∉ cs')
    (h : cs ++ '>' :: rest = cs' ++ '>' :: rest') : cs = cs' ∧ rest = rest' := by
  have hkind : ∀ {ds : List Char}, '>' ∉ ds → ∀ c ∈ ds, (c != '>') = true := by
    intro ds hds c hc
    simp only [bne_iff_ne]
    rintro rfl
    exact hds hc
  obtain ⟨heq, hrest⟩ := append_inj_of_kind (fun c => c != '>') (hkind hcs) (hkind hcs') (by simp)
    (by simp) h
  exact ⟨heq, (List.cons.inj hrest).2⟩

theorem IsSuffix.append_inj (hcs : IsSuffix cs) (hcs' : IsSuffix cs') (hrest : Parted rest)
    (hrest' : Parted rest') (h : cs ++ rest = cs' ++ rest') : cs = cs' ∧ rest = rest' := by
  cases hcs with
  | plain =>
    cases hcs' with
    | plain => exact ⟨rfl, h⟩
    | _ =>
      obtain rfl : rest = _ := h
      exact absurd (parted_cons.1 hrest) (by decide)
  | tagged htag =>
    cases hcs' with
    | plain =>
      obtain rfl : _ = rest' := h
      exact absurd (parted_cons.1 hrest') (by decide)
    | tagged htag' =>
      obtain ⟨rfl, hafter⟩ := htag.append_inj htag' hrest hrest' (List.cons.inj h).2
      exact ⟨rfl, hafter⟩
    | typed _ => simp at h
  | typed hiri =>
    cases hcs' with
    | plain =>
      obtain rfl : _ = rest' := h
      exact absurd (parted_cons.1 hrest') (by decide)
    | tagged _ => simp at h
    | typed hiri' =>
      simp only [List.cons_append, List.append_assoc, List.nil_append, List.cons.injEq,
        true_and] at h
      obtain ⟨rfl, hafter⟩ := append_inj_of_bracket hiri hiri' h
      exact ⟨rfl, hafter⟩

/-- The first character of an atom tells its kind, and the kind tells its end. -/
theorem IsAtom.append_inj (hcs : IsAtom cs) (hcs' : IsAtom cs') (hrest : Parted rest)
    (hrest' : Parted rest') (h : cs ++ rest = cs' ++ rest') : cs = cs' ∧ rest = rest' := by
  cases hcs with
  | word hword hiri hliteral =>
    cases hcs' with
    | word hword' _ _ => exact hword.append_inj hword' hrest hrest' h
    | iri _ => exact absurd (List.cons.inj h).1 hiri
    | @literal value _ _ =>
      obtain ⟨quoted, hquoted⟩ := Text.exists_toList_quote value
      rw [hquoted] at h
      exact absurd (List.cons.inj h).1 hliteral
  | iri hcs =>
    cases hcs' with
    | word _ hiri _ => exact absurd (List.cons.inj h).1.symm hiri
    | iri hcs' =>
      simp only [List.cons_append, List.append_assoc, List.nil_append, List.cons.injEq,
        true_and] at h
      obtain ⟨rfl, hafter⟩ := append_inj_of_bracket hcs hcs' h
      exact ⟨rfl, hafter⟩
    | @literal value _ _ =>
      obtain ⟨quoted, hquoted⟩ := Text.exists_toList_quote value
      rw [hquoted] at h
      exact absurd (List.cons.inj h).1 (by decide)
  | @literal value _ hsuffix =>
    obtain ⟨quoted, hquoted⟩ := Text.exists_toList_quote value
    cases hcs' with
    | word _ _ hliteral =>
      rw [hquoted] at h
      exact absurd (List.cons.inj h).1.symm hliteral
    | iri _ =>
      rw [hquoted] at h
      exact absurd (List.cons.inj h).1 (by decide)
    | literal hsuffix' =>
      rw [List.append_assoc, List.append_assoc] at h
      obtain ⟨rfl, hafter⟩ := Text.quote_append_inj h
      obtain ⟨rfl, hend⟩ := hsuffix.append_inj hsuffix' hrest hrest' hafter
      exact ⟨rfl, hend⟩

/-! ## Lists -/

/-- An S-expression that can be read: its lists are empty, or begin with a word or a list, and
their other atoms tell where they end. A word at the head of a list may be an operator such as
`<`, which elsewhere would be taken for the begin of an IRI. -/
inductive Legible : Sexp → Prop
  | atom {t : String} : IsAtom t.toList → Legible (.atom t)
  | empty : Legible (.list [])
  | form {head : String} {items : List Sexp} : IsWord head → (∀ item ∈ items, Legible item) →
      Legible (.form head items)
  | nested {first items : List Sexp} : Legible (.list first) → (∀ item ∈ items, Legible item) →
      Legible (.list (.list first :: items))

/-- The texts of the items after the first one, each after a space. -/
def tailText (items : List Sexp) : List Char := items.flatMap fun item => ' ' :: item.text.toList

theorem toList_itemsText_cons (first : Sexp) (items : List Sexp) :
    (itemsText (first :: items)).toList = first.text.toList ++ tailText items := by
  induction items generalizing first with
  | nil => simp [itemsText, tailText]
  | cons second items ih =>
    rw [itemsText, String.toList_append, String.toList_append, ih]
    · simp [tailText]
    · exact List.cons_ne_nil _ _

theorem toList_text_nil : (list []).text.toList = ['(', ')'] := by
  simp [text, itemsText]

theorem toList_text_cons_append (first : Sexp) (items : List Sexp) (rest : List Char) :
    (list (first :: items)).text.toList ++ rest =
      '(' :: (first.text.toList ++ (tailText items ++ ')' :: rest)) := by
  rw [text, String.toList_append, String.toList_append, toList_itemsText_cons]
  simp

/-- The end of a list follows its items. -/
theorem parted_tailText (items : List Sexp) (rest : List Char) :
    Parted (tailText items ++ ')' :: rest) := by
  cases items with
  | nil => exact parted_cons.2 rfl
  | cons item items => exact parted_cons.2 rfl

/-- An S-expression that no other legible one is taken for, whatever follows. -/
def Determined (s : Sexp) : Prop :=
  ∀ {s' : Sexp} {rest rest' : List Char}, s'.Legible → Parted rest → Parted rest' →
    s.text.toList ++ rest = s'.text.toList ++ rest' → s = s' ∧ rest = rest'

theorem tailText_append_inj {items items' : List Sexp} (hitems : ∀ item ∈ items, Determined item)
    (hitems' : ∀ item ∈ items', Legible item)
    (h : tailText items ++ ')' :: rest = tailText items' ++ ')' :: rest') :
    items = items' ∧ rest = rest' := by
  induction items generalizing items' with
  | nil =>
    cases items' with
    | nil => exact ⟨rfl, (List.cons.inj h).2⟩
    | cons item' items' => exact absurd (List.cons.inj h).1 (by decide)
  | cons item items ih =>
    cases items' with
    | nil => exact absurd (List.cons.inj h).1 (by decide)
    | cons item' items' =>
      simp only [tailText, List.flatMap_cons, List.cons_append, List.append_assoc,
        List.cons.injEq, true_and] at h
      obtain ⟨rfl, hafter⟩ := hitems item List.mem_cons_self (hitems' item' List.mem_cons_self)
        (parted_tailText items rest) (parted_tailText items' rest') h
      obtain ⟨rfl, hrest⟩ := ih (fun i hi => hitems i (List.mem_cons_of_mem _ hi))
        (fun i hi => hitems' i (List.mem_cons_of_mem _ hi)) hafter
      exact ⟨rfl, hrest⟩

/-! ## Shapes -/

/-- The shapes of S-expressions. -/
inductive Shape where
  | atom
  | empty
  | form
  | nested

/-- The shape of an S-expression. -/
def shape : Sexp → Shape
  | atom _ => .atom
  | list [] => .empty
  | list (atom _ :: _) => .form
  | list (list _ :: _) => .nested

/-- The shape of the S-expression with which a text begins. -/
def shapeOf : List Char → Shape
  | '(' :: ')' :: _ => .empty
  | '(' :: '(' :: _ => .nested
  | '(' :: _ => .form
  | _ => .atom

theorem IsAtom.shapeOf_append (h : IsAtom cs) (rest : List Char) :
    shapeOf (cs ++ rest) = .atom := by
  cases h with
  | @word c cs hword _ _ =>
    have hc : c ≠ '(' := by
      rintro rfl
      exact absurd (hword '(' List.mem_cons_self) (by decide)
    simp [shapeOf, hc]
  | iri _ => rfl
  | @literal value suffix _ =>
    obtain ⟨quoted, hquoted⟩ := Text.exists_toList_quote value
    rw [hquoted]
    rfl

/-- The first two characters of a text tell the shape. -/
theorem Legible.shapeOf_append {s : Sexp} (h : s.Legible) (rest : List Char) :
    shapeOf (s.text.toList ++ rest) = s.shape := by
  cases h with
  | atom ht => exact ht.shapeOf_append rest
  | empty => rw [toList_text_nil]; rfl
  | @form head items hhead _ =>
    obtain ⟨c, tail, hcs⟩ := List.exists_cons_of_ne_nil (mt String.toList_eq_nil_iff.1 hhead.1)
    have hc : isDelimiter c = false := hhead.2 c (by rw [hcs]; exact List.mem_cons_self)
    have hclose : c ≠ ')' := by rintro rfl; exact absurd hc (by decide)
    have hopen : c ≠ '(' := by rintro rfl; exact absurd hc (by decide)
    rw [Sexp.form, toList_text_cons_append, text, hcs]
    simp [shapeOf, hclose, hopen, shape]
  | @nested first items _ _ =>
    rw [toList_text_cons_append]
    cases first with
    | nil => rw [toList_text_nil]; rfl
    | cons inner first => rw [toList_text_cons_append]; rfl

theorem Legible.shape_eq {s s' : Sexp} (h : s.Legible) (h' : s'.Legible)
    (heq : s.text.toList ++ rest = s'.text.toList ++ rest') : s.shape = s'.shape := by
  rw [← h.shapeOf_append rest, heq, h'.shapeOf_append]

theorem Legible.determined {s : Sexp} (h : s.Legible) : s.Determined := by
  -- the shape of the other one is the same, so that its head is compared with the head only: a
  -- word such as `<` never meets an IRI
  induction h with
  | atom ht =>
    intro s' rest rest' hs' hrest hrest' heq
    have hshape := (Legible.atom ht).shape_eq hs' heq
    cases hs' with
    | atom ht' =>
      obtain ⟨htext, hafter⟩ := ht.append_inj ht' hrest hrest' heq
      exact ⟨congrArg Sexp.atom (String.toList_inj.1 htext), hafter⟩
    | _ => cases hshape
  | empty =>
    intro s' rest rest' hs' _ _ heq
    have hshape := Legible.empty.shape_eq hs' heq
    cases hs' with
    | empty => exact ⟨rfl, List.append_cancel_left heq⟩
    | _ => cases hshape
  | @form head items hhead hitems ih =>
    intro s' rest rest' hs' _ _ heq
    have hshape := (Legible.form hhead hitems).shape_eq hs' heq
    cases hs' with
    | @form head' items' hhead' hitems' =>
      rw [Sexp.form, Sexp.form, toList_text_cons_append, toList_text_cons_append] at heq
      obtain ⟨hword, hafter⟩ := hhead.2.append_inj hhead'.2 (parted_tailText items rest)
        (parted_tailText items' rest') (List.cons.inj heq).2
      obtain ⟨rfl, hend⟩ := tailText_append_inj ih hitems' hafter
      exact ⟨by rw [String.toList_inj.1 hword], hend⟩
    | _ => cases hshape
  | @nested first items hfirst hitems ihfirst ih =>
    intro s' rest rest' hs' _ _ heq
    have hshape := (Legible.nested hfirst hitems).shape_eq hs' heq
    cases hs' with
    | @nested first' items' hfirst' hitems' =>
      rw [toList_text_cons_append, toList_text_cons_append] at heq
      obtain ⟨hlist, hafter⟩ := ihfirst hfirst' (parted_tailText items rest)
        (parted_tailText items' rest') (List.cons.inj heq).2
      obtain ⟨rfl, hend⟩ := tailText_append_inj ih hitems' hafter
      exact ⟨by rw [hlist], hend⟩
    | _ => cases hshape

/-- The text of a legible S-expression determines it. -/
theorem Legible.text_inj {s s' : Sexp} (h : s.Legible) (h' : s'.Legible)
    (heq : s.text = s'.text) : s = s' :=
  (h.determined h' parted_nil parted_nil (by rw [heq])).1

end Sexp
end QuadStore
