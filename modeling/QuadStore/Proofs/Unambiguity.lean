import QuadStore.Proofs.Rendering

/-!
# Unambiguous texts

A tree is legible if its names are as they would be read: valid names of variables and labels of
blank nodes, IRIs without a `>`, language tags of letters, digits and hyphens. Literals may have any
text. Legible trees with the same text are the same: `Part.eq_of_text_eq`.
-/

namespace QuadStore

open Sexp (IsAtom IsSuffix IsWord Unbroken isDelimiter)

/-! ## Legible names -/

/-- The characters of language tags: letters, digits and the hyphen. Every character beyond ASCII
counts as a letter. -/
def LanguageTag.isTagCharacter (c : Char) : Bool :=
  isLetter c || Name.isDigit c || c == '-' || 0x80 ≤ c.toNat

def Iri.Legible (i : Iri) : Prop := '>' ∉ i.text.toList

def BlankNode.Legible (b : BlankNode) : Prop := Name.isBlankNodeLabel b.label.toList = true

def Variable.Legible (v : Variable) : Prop := Name.isVariableName v.name.toList = true

def Literal.Legible : Literal → Prop
  | simple _ => True
  | tagged _ language => ∀ c ∈ language.toList, LanguageTag.isTagCharacter c = true
  | typed _ datatype _ => datatype.Legible

def Term.Legible : Term → Prop
  | iri i => i.Legible
  | blank b => b.Legible
  | literal l => l.Legible

/-- A position that holds a legible variable, or what is legible by itself. -/
def Position.Legible {α : Type} (legible : α → Prop) : Position α → Prop
  | given a => legible a
  | var v => v.Legible

def GraphPosition.Legible : GraphPosition → Prop
  | any | default => True
  | given name => name.toTerm.Legible
  | var v => v.Legible

structure QuadPattern.Legible (q : QuadPattern) : Prop where
  subject : q.subject.Legible Term.Legible
  predicate : q.predicate.Legible Iri.Legible
  object : q.object.Legible Term.Legible
  graph : q.graph.Legible

namespace Part

/-- The names that a part itself holds are legible. -/
def Named : Part → Prop
  | pattern (.quad q) => q.Legible
  | pattern (.extend _ v _) => v.Legible
  | pattern (.project _ vs) => ∀ v ∈ vs, v.Legible
  | expression (.iri i) => i.Legible
  | expression (.literal l) => l.Legible
  | expression (.var v) => v.Legible
  | expression (.bound v) => v.Legible
  | _ => True

/-- All names anywhere in a part are legible. -/
def Legible (part : Part) : Prop := ∀ below : Part, below.Within part → below.Named

theorem legible_iff {part : Part} :
    part.Legible ↔ part.Named ∧ ∀ child ∈ part.children, child.Legible := by
  constructor
  · intro h
    exact ⟨h part .refl, fun child hchild below hbelow => h below (.head hchild hbelow)⟩
  · rintro ⟨hnamed, hchildren⟩ below hbelow
    rcases Relation.ReflTransGen.cases_head hbelow with rfl | ⟨child, hchild, hbelow⟩
    · exact hnamed
    · exact hchildren child hchild below hbelow

end Part

/-! ## Their texts -/

namespace Name

theorem isDelimiter_of_isLabelPart {c : Char} (h : isLabelPart c = true) : isDelimiter c = false :=
  Sexp.isDelimiter_eq_false (by decide) (by decide) (by decide) h

theorem isLabelPart_of_isDigit {c : Char} (h : isDigit c = true) : isLabelPart c = true := by
  simp [isLabelPart, isPart, h]

theorem unbroken_of_isVariableName {cs : List Char} (h : isVariableName cs = true) :
    Unbroken cs := by
  cases cs with
  | nil => exact absurd h (by decide)
  | cons first rest =>
    simp only [isVariableName, Bool.and_eq_true, Bool.or_eq_true, List.all_eq_true] at h
    obtain ⟨hfirst, hrest⟩ := h
    intro c hc
    apply isDelimiter_of_isLabelPart
    rcases List.mem_cons.1 hc with rfl | hc
    · rcases hfirst with hfirst | hfirst <;> simp [isLabelPart, isPart, hfirst]
    · simp [isLabelPart, (hrest c hc).2]

theorem unbroken_of_isBlankNodeLabel {cs : List Char} (h : isBlankNodeLabel cs = true) :
    Unbroken cs := by
  cases cs with
  | nil => exact absurd h (by decide)
  | cons first rest =>
    simp only [isBlankNodeLabel, isLabelStart, Bool.and_eq_true, Bool.or_eq_true,
      List.all_eq_true] at h
    obtain ⟨⟨hfirst, hrest⟩, -⟩ := h
    intro c hc
    apply isDelimiter_of_isLabelPart
    rcases List.mem_cons.1 hc with rfl | hc
    · rcases hfirst with (hfirst | hfirst) | hfirst <;> simp_all [isLabelPart, isPart]
    · exact hrest c hc

end Name

theorem LanguageTag.isDelimiter_of_isTagCharacter {c : Char} (h : isTagCharacter c = true) :
    isDelimiter c = false :=
  Sexp.isDelimiter_eq_false (by decide) (by decide) (by decide) h

theorem Iri.Legible.isAtom {i : Iri} (h : i.Legible) : IsAtom i.ntriples.toList := by
  rw [i.toList_ntriples]
  exact .iri h

theorem BlankNode.Legible.isAtom {b : BlankNode} (h : b.Legible) : IsAtom b.ntriples.toList := by
  rw [b.toList_ntriples]
  refine .word ?_ (by decide) (by decide)
  simpa [Unbroken] using ⟨by decide, by decide, Name.unbroken_of_isBlankNodeLabel h⟩

theorem Variable.Legible.unbroken {v : Variable} (h : v.Legible) : Unbroken v.text.toList := by
  rw [v.toList_text]
  simpa [Unbroken] using ⟨by decide, Name.unbroken_of_isVariableName h⟩

theorem Variable.Legible.isAtom {v : Variable} (h : v.Legible) : IsAtom v.text.toList := by
  have hunbroken := h.unbroken
  rw [v.toList_text] at hunbroken ⊢
  exact .word hunbroken (by decide) (by decide)

theorem Variable.Legible.isWord {v : Variable} (h : v.Legible) : IsWord v.text := by
  refine ⟨?_, h.unbroken⟩
  rw [ne_eq, ← String.toList_eq_nil_iff, v.toList_text]
  exact List.cons_ne_nil _ _

theorem Literal.Legible.isSuffix {l : Literal} (h : l.Legible) : IsSuffix l.suffix := by
  cases l with
  | simple _ => exact .plain
  | tagged _ language =>
    exact .tagged fun c hc => LanguageTag.isDelimiter_of_isTagCharacter (h c hc)
  | typed _ datatype _ =>
    rw [suffix, datatype.toList_ntriples]
    exact .typed h

theorem Literal.Legible.isAtom {l : Literal} (h : l.Legible) : IsAtom l.ntriples.toList := by
  rw [l.toList_ntriples]
  exact .literal h.isSuffix

theorem Term.Legible.isAtom {t : Term} (h : t.Legible) : IsAtom t.ntriples.toList := by
  cases t with
  | iri i => exact Iri.Legible.isAtom h
  | blank b => exact BlankNode.Legible.isAtom h
  | literal l => exact Literal.Legible.isAtom h

theorem Position.Legible.isAtom {α : Type} {legible : α → Prop} {write : α → String}
    (hwrite : ∀ a, legible a → IsAtom (write a).toList) {p : Position α} (h : p.Legible legible) :
    IsAtom (p.text write).toList := by
  cases p with
  | given a => exact hwrite a h
  | var v => exact Variable.Legible.isAtom h

theorem GraphPosition.Legible.isAtom {g : GraphPosition} (h : g.Legible) :
    IsAtom g.text.toList := by
  cases g with
  | any =>
    have hunbroken : Unbroken "ANY".toList := by simp [Unbroken, isDelimiter]
    exact .word hunbroken (by decide) (by decide)
  | default =>
    have hunbroken : Unbroken "DEFAULT".toList := by simp [Unbroken, isDelimiter]
    exact .word hunbroken (by decide) (by decide)
  | given name =>
    rw [GraphPosition.text, ← name.ntriples_toTerm]
    exact Term.Legible.isAtom h
  | var v => exact Variable.Legible.isAtom h

/-- A number is written in digits. -/
theorem Sexp.isAtom_toString (n : Nat) : IsAtom (toString n).toList := by
  show IsAtom n.repr.toList
  rw [Nat.toList_repr]
  obtain ⟨c, cs, hdigits, hc⟩ := Text.exists_digits_eq_cons n
  have hunbroken : Unbroken (Text.digits n) := fun c hc =>
    Name.isDelimiter_of_isLabelPart (Name.isLabelPart_of_isDigit (Text.isDigit_of_mem_digits hc))
  rw [← Text.digits]
  rw [hdigits] at hunbroken ⊢
  refine .word hunbroken ?_ ?_ <;> (rintro rfl; exact absurd hc (by decide))

theorem BinaryOp.isWord_word (op : BinaryOp) : IsWord op.word := by
  cases op <;> simp [IsWord, Unbroken, isDelimiter, word]

theorem UnaryOp.isWord_word (op : UnaryOp) : IsWord op.word := by
  cases op <;> simp [IsWord, Unbroken, isDelimiter, word]

theorem Function.isWord_name (f : Function) : IsWord f.name := by
  cases f <;> simp [IsWord, Unbroken, isDelimiter, name]

theorem Direction.isWord_word (d : Direction) : IsWord d.word := by
  cases d <;> simp [IsWord, Unbroken, isDelimiter, word]

theorem Part.isWord_of_lookup {word : String} {kind : Kind} (h : words.lookup word = some kind) :
    IsWord word := by
  have hwords : ∀ entry ∈ words, IsWord entry.1 := by simp [words, IsWord, Unbroken, isDelimiter]
  obtain ⟨before, after, hsplit, -⟩ := List.lookup_eq_some_iff.1 h
  exact hwords (word, kind) (by rw [hsplit]; exact List.mem_append_cons_self)

theorem QuadPattern.isWord_word (q : QuadPattern) : IsWord q.word := by
  unfold word
  split
  · exact Part.isWord_of_lookup rfl
  · exact Part.isWord_of_lookup rfl

/-! ## Legible trees -/

theorem Sexp.legible_atoms {ts : List String} (h : ∀ t ∈ ts, IsAtom t.toList) :
    ∀ item ∈ ts.map Sexp.atom, item.Legible := by
  intro item hitem
  obtain ⟨t, ht, rfl⟩ := List.mem_map.1 hitem
  exact .atom (h t ht)

theorem QuadPattern.Legible.toSexp {q : QuadPattern} (h : q.Legible) : q.toSexp.Legible := by
  rw [q.toSexp_eq]
  refine .form q.isWord_word (Sexp.legible_atoms fun t ht => ?_)
  rcases List.mem_append.1 ht with ht | ht
  · split_ifs at ht
    · exact absurd ht List.not_mem_nil
    · rw [List.mem_singleton.1 ht]
      exact h.graph.isAtom
  · simp only [List.mem_cons, List.not_mem_nil, or_false] at ht
    rcases ht with rfl | rfl | rfl
    · exact h.subject.isAtom fun _ => Term.Legible.isAtom
    · exact h.predicate.isAtom fun _ => Iri.Legible.isAtom
    · exact h.object.isAtom fun _ => Term.Legible.isAtom

theorem Expression.listToSexps_eq (es : List Expression) :
    Expression.listToSexps es = es.map Expression.toSexp := by
  induction es with
  | nil => rw [listToSexps, List.map_nil]
  | cons e rest ih => rw [listToSexps, ih, List.map_cons]

theorem Expression.optionToSexps_eq (e? : Option Expression) :
    Expression.optionToSexps e? = e?.toList.map Expression.toSexp := by
  cases e? with
  | none => rw [optionToSexps]; rfl
  | some e => rw [optionToSexps]; rfl

theorem Expression.keysToSexps_eq (keys : List (Direction × Expression)) :
    Expression.keysToSexps keys = keys.map Expression.keyToSexp := by
  induction keys with
  | nil => rw [keysToSexps, List.map_nil]
  | cons key rest ih => rw [keysToSexps, ih, List.map_cons, keyToSexp]

/-- The keys of an order, which are forms. -/
theorem Expression.legible_keys {keys : List (Direction × Expression)}
    (h : ∀ key ∈ keys, key.2.toSexp.Legible) :
    (Sexp.list (keys.map Expression.keyToSexp)).Legible := by
  have hkey : ∀ key ∈ keys, (Expression.keyToSexp key).Legible := fun key hmem =>
    .form key.1.isWord_word (by simpa using h key hmem)
  cases keys with
  | nil => exact .empty
  | cons key keys =>
    refine .nested (hkey key List.mem_cons_self) ?_
    intro item hitem
    obtain ⟨other, hother, rfl⟩ := List.mem_map.1 hitem
    exact hkey other (List.mem_cons_of_mem _ hother)

/-- A list of names of variables is legible. -/
theorem Variable.legible_list {vs : List Variable} (h : ∀ v ∈ vs, v.Legible) :
    (Sexp.list (vs.map fun v => .atom v.text)).Legible := by
  cases vs with
  | nil => exact .empty
  | cons v vs =>
    refine .form (h v List.mem_cons_self).isWord ?_
    intro item hitem
    obtain ⟨w, hw, rfl⟩ := List.mem_map.1 hitem
    exact .atom (h w (List.mem_cons_of_mem _ hw)).isAtom

theorem Expression.legible_toSexp {e : Expression} (hnamed : (Part.expression e).Named)
    (hchildren : ∀ child ∈ (Part.expression e).children, child.toSexp.Legible) :
    e.toSexp.Legible := by
  cases e with
  | iri i => rw [toSexp]; exact .atom (Iri.Legible.isAtom hnamed)
  | literal l => rw [toSexp]; exact .atom (Literal.Legible.isAtom hnamed)
  | var v => rw [toSexp]; exact .atom (Variable.Legible.isAtom hnamed)
  | bound v =>
    rw [toSexp]
    refine .form (Part.isWord_of_lookup rfl) ?_
    simpa using Sexp.Legible.atom (Variable.Legible.isAtom hnamed)
  | binary op a b =>
    rw [toSexp]
    refine .form op.isWord_word ?_
    simpa [Part.children] using hchildren
  | unary op operand =>
    rw [toSexp]
    refine .form op.isWord_word ?_
    simpa [Part.children] using hchildren
  | call f arguments =>
    rw [toSexp, listToSexps_eq]
    refine .form f.isWord_name ?_
    simpa [Part.children] using hchildren
  | oneOf needle candidates | coalesce choices =>
    rw [toSexp, listToSexps_eq]
    refine .form (Part.isWord_of_lookup rfl) ?_
    simpa [Part.children] using hchildren
  | «exists» p | ifThenElse condition yes no =>
    rw [toSexp]
    refine .form (Part.isWord_of_lookup rfl) ?_
    simpa [Part.children] using hchildren

theorem GraphPattern.legible_toSexp {p : GraphPattern} (hnamed : (Part.pattern p).Named)
    (hchildren : ∀ child ∈ (Part.pattern p).children, child.toSexp.Legible) :
    p.toSexp.Legible := by
  cases p with
  | quad q => rw [toSexp]; exact QuadPattern.Legible.toSexp hnamed
  | join l r | union l r | distinct inner =>
    rw [toSexp]
    refine .form (Part.isWord_of_lookup rfl) ?_
    simpa [Part.children] using hchildren
  | leftJoin l r condition? =>
    rw [toSexp, Expression.optionToSexps_eq]
    refine .form (Part.isWord_of_lookup rfl) ?_
    simpa [Part.children] using hchildren
  | filter condition inner =>
    rw [toSexp]
    refine .form (Part.isWord_of_lookup rfl) ?_
    simpa [Part.children, and_comm] using hchildren
  | extend inner v value =>
    simp only [Part.children, Part.toSexp_pattern, Part.toSexp_expression,
      List.forall_mem_cons] at hchildren
    obtain ⟨hinner, hvalue, -⟩ := hchildren
    have hbinding : (Sexp.form v.text [value.toSexp]).Legible :=
      .form (Variable.Legible.isWord hnamed) (by simpa using hvalue)
    have hbindings : (Sexp.list [.form v.text [value.toSexp]]).Legible :=
      .nested hbinding (List.forall_mem_nil _)
    rw [toSexp]
    refine .form (Part.isWord_of_lookup rfl) ?_
    simpa using ⟨hbindings, hinner⟩
  | orderBy inner keys =>
    simp only [Part.children, Part.toSexp_pattern, Part.toSexp_expression, List.forall_mem_cons,
      List.forall_mem_map] at hchildren
    obtain ⟨hinner, hkeys⟩ := hchildren
    rw [toSexp, Expression.keysToSexps_eq]
    refine .form (Part.isWord_of_lookup rfl) ?_
    simpa using ⟨Expression.legible_keys hkeys, hinner⟩
  | slice inner start length? =>
    have hlength : IsAtom (length?.elim "_" toString).toList := by
      cases length? with
      | none =>
        have hunbroken : Unbroken "_".toList := by simp [Unbroken, isDelimiter]
        exact .word hunbroken (by decide) (by decide)
      | some n => exact Sexp.isAtom_toString n
    rw [toSexp]
    refine .form (Part.isWord_of_lookup rfl) ?_
    simp only [Part.children, Part.toSexp_pattern, List.forall_mem_cons] at hchildren ⊢
    exact ⟨.atom (Sexp.isAtom_toString start), .atom hlength, hchildren.1, List.forall_mem_nil _⟩
  | project inner vs =>
    rw [toSexp]
    refine .form (Part.isWord_of_lookup rfl) ?_
    simp only [Part.children, Part.toSexp_pattern, List.forall_mem_cons] at hchildren ⊢
    exact ⟨Variable.legible_list hnamed, hchildren.1, List.forall_mem_nil _⟩

theorem Part.Legible.toSexp {part : Part} (h : part.Legible) : part.toSexp.Legible := by
  obtain ⟨hnamed, hlegible⟩ := Part.legible_iff.1 h
  have hchildren : ∀ child ∈ part.children, child.toSexp.Legible := by
    intro child hchild
    have hsmaller := sizeOf_lt_of_mem_children hchild
    exact Part.Legible.toSexp (hlegible child hchild)
  cases part with
  | pattern p => exact GraphPattern.legible_toSexp hnamed hchildren
  | expression e => exact Expression.legible_toSexp hnamed hchildren
termination_by sizeOf part

/-- Legible trees with the same text are the same, whatever their literals are. The text of a
pattern is not the text of an expression either. -/
theorem Part.eq_of_text_eq {part part' : Part} (h : part.Legible) (h' : part'.Legible)
    (heq : part.toSexp.text = part'.toSexp.text) : part = part' :=
  Part.toSexp_inj (h.toSexp.text_inj h'.toSexp heq)

/-- A quad pattern under a condition that compares the object with a literal. -/
def Part.compared (l : Literal) : Part :=
  .pattern (.filter (.binary .equal (.var ⟨"name"⟩) (.literal l)) (.quad
    { subject := .given (.blank ⟨"b0"⟩)
      predicate := .given ⟨"http://example.com/name"⟩
      object := .var ⟨"name"⟩
      graph := .any }))

theorem Part.legible_compared {l : Literal} (h : l.Legible) : (Part.compared l).Legible := by
  have hname : Variable.Legible ⟨"name"⟩ := by simp [Variable.Legible]; decide
  have hlabel : BlankNode.Legible ⟨"b0"⟩ := by simp [BlankNode.Legible]; decide
  have hiri : Iri.Legible ⟨"http://example.com/name"⟩ := by simp [Iri.Legible]
  have hvar : (Part.expression (.var ⟨"name"⟩)).Legible := Part.legible_iff.2 ⟨hname, nofun⟩
  have hliteral : (Part.expression (.literal l)).Legible := Part.legible_iff.2 ⟨h, nofun⟩
  have hcondition : (Part.expression (.binary .equal (.var ⟨"name"⟩) (.literal l))).Legible :=
    Part.legible_iff.2
      ⟨trivial, List.forall_mem_cons.2 ⟨hvar, List.forall_mem_singleton.2 hliteral⟩⟩
  refine Part.legible_iff.2 ⟨trivial, List.forall_mem_cons.2 ⟨?_, ?_⟩⟩
  · exact Part.legible_iff.2 ⟨⟨hlabel, hiri, hname, trivial⟩, nofun⟩
  · exact List.forall_mem_singleton.2 hcondition

/-- A literal of the datatype of strings is the text alone, here with quotes and parentheses. -/
theorem Part.eq_of_text_eq_ofTyped :
    (Part.compared (.simple ") (\"")).Legible ∧
      (Part.compared (.ofTyped ") (\"" ⟨Xsd.string⟩)).Legible ∧
      (Part.compared (.simple ") (\"")).toSexp.text =
        (Part.compared (.ofTyped ") (\"" ⟨Xsd.string⟩)).toSexp.text ∧
      Part.compared (.simple ") (\"") = Part.compared (.ofTyped ") (\"" ⟨Xsd.string⟩) := by
  have hliteral : Literal.ofTyped ") (\"" ⟨Xsd.string⟩ = .simple ") (\"" := rfl
  have hlegible := Part.legible_compared (l := .simple ") (\"") trivial
  rw [hliteral]
  exact ⟨hlegible, hlegible, rfl, Part.eq_of_text_eq hlegible hlegible rfl⟩

end QuadStore
