import Mathlib
import QuadStore.Algebra.QuadPattern

/-!
# Quoted text that is read back

`Text.unquote?` reads a quoted text by the rules of N-Triples and gives what follows it. A text is
read back from its quoted form whatever follows (`Text.unquote?_quote`), so that the texts of terms,
of variables and of the positions of a quad tell these apart.
-/

namespace QuadStore
namespace Text

/-! ## Reading -/

/-- The character that a letter after a backslash stands for. -/
def unescapeLetter? (letter : Char) : Option Char :=
  if letter = 'b' then some '\x08'
  else if letter = 't' then some '\t'
  else if letter = 'n' then some '\n'
  else if letter = 'f' then some '\x0c'
  else if letter = 'r' then some '\r'
  else if letter = '"' then some '"'
  else if letter = '\\' then some '\\'
  else none

/-- The number that some hexadecimal digits stand for. -/
def ofHexDigits? (digits : List Char) : Option Nat :=
  digits.foldlM (fun n digit => (hexValue? digit).map (n * 16 + ·)) 0

/-- Reads up to the first quote that is not escaped, and gives what follows it. -/
def readQuoted? : List Char → Option (List Char × List Char)
  | [] => none
  | '\\' :: 'u' :: a :: b :: c :: d :: rest =>
    match ofHexDigits? [a, b, c, d], readQuoted? rest with
    | some code, some (cs, after) => some (Char.ofNat code :: cs, after)
    | _, _ => none
  | '\\' :: letter :: rest =>
    match unescapeLetter? letter, readQuoted? rest with
    | some c, some (cs, after) => some (c :: cs, after)
    | _, _ => none
  | c :: rest =>
    if c = '"' then some ([], rest) else (readQuoted? rest).map fun (cs, after) => (c :: cs, after)

/-- Reads a text between quotes, and gives what follows it. -/
def unquote? : List Char → Option (String × List Char)
  | '"' :: cs => (readQuoted? cs).map fun (text, after) => (String.ofList text, after)
  | _ => none

/-! ## Reading back -/

theorem unescapeLetter?_of_escapeLetter? {c letter : Char} (h : escapeLetter? c = some letter) :
    unescapeLetter? letter = some c ∧ letter ≠ 'u' := by
  unfold escapeLetter? at h
  split_ifs at h with hb ht hn hf hr hquote hbackslash <;>
    (obtain rfl := Option.some.inj h; subst_vars; decide)

theorem ofHexDigits?_hexDigits {n : Nat} (h : n < 16 ^ 4) :
    ofHexDigits? (hexDigits 4 n) = some n := by
  have hvalue : ∀ m, hexValue? (hexDigit (m % 16)) = some (m % 16) := fun m =>
    hexValue?_hexDigit _ (Nat.mod_lt _ (by decide))
  simp only [hexDigits, ofHexDigits?, List.nil_append, List.cons_append, List.foldlM_cons,
    List.foldlM_nil, hvalue, Option.map_some, Option.bind_eq_bind, Option.bind_some]
  refine congrArg some ?_
  omega

/-- The escape of a character is read as the character. -/
theorem readQuoted?_escape (c : Char) (cs : List Char) :
    readQuoted? (escape c ++ cs) =
      (readQuoted? cs).map fun (text, after) => (c :: text, after) := by
  -- a character is written by a letter, by four digits or as it is
  unfold escape
  cases hletter : escapeLetter? c with
  | some letter =>
    obtain ⟨hread, hcode⟩ := unescapeLetter?_of_escapeLetter? hletter
    show readQuoted? ('\\' :: letter :: cs) = _
    rw [readQuoted?, hread]
    · cases readQuoted? cs <;> rfl
    · simp [hcode]
  | none =>
    dsimp only
    split
    · rename_i hcode
      have hsmall : c.toNat < 16 ^ 4 := by
        simp only [isCodeEscaped, Bool.or_eq_true, decide_eq_true_eq, beq_iff_eq] at hcode
        omega
      have hdigits := ofHexDigits?_hexDigits hsmall
      simp only [hexDigits, List.nil_append, List.cons_append] at hdigits ⊢
      rw [readQuoted?, hdigits]
      cases readQuoted? cs with
      | none => rfl
      | some read => simp
    · have hplain : c ≠ '"' ∧ c ≠ '\\' := by
        constructor <;> (rintro rfl; exact absurd hletter (by decide))
      show readQuoted? (c :: cs) = _
      rw [readQuoted?, if_neg hplain.1]
      · simp [hplain.2]
      · simp [hplain.2]

/-- A quoted text is read back, whatever follows it. -/
theorem unquote?_quote (text : String) (after : List Char) :
    unquote? ((quote text).toList ++ after) = some (text, after) := by
  have hread : ∀ cs : List Char,
      readQuoted? (cs.flatMap escape ++ '"' :: after) = some (cs, after) := by
    intro cs
    induction cs with
    | nil => rfl
    | cons c rest ih => rw [List.flatMap_cons, List.append_assoc, readQuoted?_escape, ih]; rfl
  unfold quote
  rw [String.toList_ofList, List.cons_append, List.cons_append, List.append_assoc]
  show (readQuoted? (_ ++ '"' :: after)).map _ = _
  rw [hread]
  simp

/-- A quoted text ends by itself: what follows it is not taken for a part of it. -/
theorem quote_append_inj {text text' : String} {after after' : List Char}
    (h : (quote text).toList ++ after = (quote text').toList ++ after') :
    text = text' ∧ after = after' := by
  have hread := congrArg unquote? h
  rw [unquote?_quote, unquote?_quote] at hread
  exact Prod.mk.inj (Option.some.inj hread)

theorem exists_toList_quote (text : String) : ∃ cs, (quote text).toList = '"' :: cs := by
  unfold quote
  rw [String.toList_ofList]
  exact ⟨_, rfl⟩

end Text

/-! ## The texts of terms -/

theorem Iri.toList_ntriples (i : Iri) : i.ntriples.toList = '<' :: (i.text.toList ++ ['>']) := by
  simp [ntriples]

theorem Iri.ntriples_inj {i j : Iri} (h : i.ntriples = j.ntriples) : i = j := by
  have hlist := congrArg String.toList h
  rw [toList_ntriples, toList_ntriples] at hlist
  have htext := List.append_cancel_right (List.cons.inj hlist).2
  rw [Iri.mk.injEq, ← String.toList_inj, htext]

theorem BlankNode.toList_ntriples (b : BlankNode) :
    b.ntriples.toList = '_' :: ':' :: b.label.toList := by
  simp [ntriples]

theorem BlankNode.ntriples_inj {a b : BlankNode} (h : a.ntriples = b.ntriples) : a = b := by
  have hlist := congrArg String.toList h
  rw [toList_ntriples, toList_ntriples] at hlist
  rw [BlankNode.mk.injEq, ← String.toList_inj, (List.cons.inj (List.cons.inj hlist).2).2]

theorem Variable.toList_text (v : Variable) : v.text.toList = '?' :: v.name.toList := by
  simp [text]

theorem Variable.text_inj {v w : Variable} (h : v.text = w.text) : v = w := by
  have hlist := congrArg String.toList h
  rw [toList_text, toList_text] at hlist
  rw [Variable.mk.injEq, ← String.toList_inj, (List.cons.inj hlist).2]

namespace Literal

/-- What follows the quoted text of a literal. -/
def suffix : Literal → List Char
  | simple _ => []
  | tagged _ language => '@' :: language.toList
  | typed _ datatype _ => '^' :: '^' :: datatype.ntriples.toList

theorem toList_ntriples (l : Literal) :
    l.ntriples.toList = (Text.quote l.value).toList ++ l.suffix := by
  cases l <;> simp [ntriples, value, suffix]

theorem ntriples_inj {l m : Literal} (h : l.ntriples = m.ntriples) : l = m := by
  have hlist := congrArg String.toList h
  rw [toList_ntriples, toList_ntriples] at hlist
  obtain ⟨hvalue, hsuffix⟩ := Text.quote_append_inj hlist
  cases l <;> cases m <;> simp only [suffix, reduceCtorEq, List.cons.injEq, Char.reduceEq,
    true_and, false_and, String.toList_inj] at hsuffix <;> simp only [value] at hvalue
  · rw [hvalue]
  · rw [hvalue, hsuffix]
  · obtain rfl := Iri.ntriples_inj hsuffix
    rw [typed.injEq]
    exact ⟨hvalue, rfl⟩

end Literal

namespace Term

/-- The character with which the text of a term begins; it tells the kind of the term. -/
def mark : Term → Char
  | iri _ => '<'
  | blank _ => '_'
  | literal _ => '"'

theorem head?_ntriples (t : Term) : t.ntriples.toList.head? = some t.mark := by
  cases t with
  | iri i => rw [ntriples, Iri.toList_ntriples]; rfl
  | blank b => rw [ntriples, BlankNode.toList_ntriples]; rfl
  | literal l =>
    obtain ⟨cs, hcs⟩ := Text.exists_toList_quote l.value
    rw [ntriples, Literal.toList_ntriples, hcs]
    rfl

theorem ntriples_inj {s t : Term} (h : s.ntriples = t.ntriples) : s = t := by
  have hmark : some s.mark = some t.mark := by rw [← head?_ntriples, h, head?_ntriples]
  cases s <;> cases t <;> simp only [mark, Option.some.injEq, Char.reduceEq] at hmark
  · exact congrArg iri (Iri.ntriples_inj h)
  · exact congrArg blank (BlankNode.ntriples_inj h)
  · exact congrArg literal (Literal.ntriples_inj h)

end Term

theorem Resource.ntriples_toTerm (r : Resource) : r.toTerm.ntriples = r.ntriples := by
  cases r <;> rfl

theorem Resource.toTerm_inj {r r' : Resource} (h : r.toTerm = r'.toTerm) : r = r' := by
  cases r <;> cases r' <;> simp_all [toTerm]

theorem Resource.ntriples_inj {r r' : Resource} (h : r.ntriples = r'.ntriples) : r = r' := by
  rw [← ntriples_toTerm, ← ntriples_toTerm] at h
  exact toTerm_inj (Term.ntriples_inj h)

/-! ## The texts of positions -/

theorem Variable.head?_text (v : Variable) : v.text.toList.head? = some '?' := by
  rw [toList_text]
  rfl

/-- A variable is not taken for a given term whose text never begins with a question mark. -/
theorem Position.text_inj {α : Type} {write : α → String}
    (hwrite : ∀ {a b}, write a = write b → a = b)
    (hmark : ∀ a, (write a).toList.head? ≠ some '?') {p q : Position α}
    (h : p.text write = q.text write) : p = q := by
  cases p with
  | given a =>
    cases q with
    | given b => exact congrArg given (hwrite h)
    | var w => exact absurd (by rw [show write a = w.text from h, w.head?_text]) (hmark a)
  | var v =>
    cases q with
    | given b => exact absurd (by rw [← show v.text = write b from h, v.head?_text]) (hmark b)
    | var w => exact congrArg var (Variable.text_inj h)

theorem Position.text_term_inj {p q : Position Term}
    (h : p.text Term.ntriples = q.text Term.ntriples) : p = q := by
  refine Position.text_inj Term.ntriples_inj (fun t => ?_) h
  rw [t.head?_ntriples]
  cases t <;> simp [Term.mark]

theorem Position.text_iri_inj {p q : Position Iri}
    (h : p.text Iri.ntriples = q.text Iri.ntriples) : p = q := by
  refine Position.text_inj Iri.ntriples_inj (fun i => ?_) h
  rw [i.toList_ntriples]
  simp

namespace GraphPosition

/-- The character with which the text of a graph position begins. -/
def mark : GraphPosition → Char
  | any => 'A'
  | default => 'D'
  | given name => name.toTerm.mark
  | var _ => '?'

theorem head?_text (g : GraphPosition) : g.text.toList.head? = some g.mark := by
  cases g with
  | any => rfl
  | default => rfl
  | given name => rw [text, ← name.ntriples_toTerm, Term.head?_ntriples]; rfl
  | var v => exact v.head?_text

theorem text_inj {g g' : GraphPosition} (h : g.text = g'.text) : g = g' := by
  have hmark : some g.mark = some g'.mark := by rw [← head?_text, h, head?_text]
  have hname : ∀ name : Resource, name.toTerm.mark = '<' ∨ name.toTerm.mark = '_' := by
    intro name
    cases name <;> simp [Resource.toTerm, Term.mark]
  cases g with
  | given name =>
    cases g' with
    | given name' => exact congrArg given (Resource.ntriples_inj h)
    | _ => rcases hname name with hname | hname <;> simp [mark, hname] at hmark
  | var v =>
    cases g' with
    | var w => exact congrArg var (Variable.text_inj h)
    | given name' => rcases hname name' with hname | hname <;> simp [mark, hname] at hmark
    | _ => simp [mark] at hmark
  | _ =>
    cases g' with
    | given name' => rcases hname name' with hname | hname <;> simp [mark, hname] at hmark
    | _ => simp [mark] at hmark ⊢

end GraphPosition
end QuadStore
