import QuadStore.Proofs.Quoting

/-!
# Spellings of a string

By the string rules of N-Triples a character between quotes may be written in several ways: as it
is, by a letter after a backslash, or by four hexadecimal digits. Whichever of them are used, a text
is read in one way only, up to the first quote that belongs to no escape. So the text of a term
determines the term, and what is read off the text of a literal is its value, with its language or
datatype left over: `Term.ntriples_determines`.
-/

namespace QuadStore
namespace Text

/-! ## Characters -/

/-- The ways to write a character between quotes. -/
inductive Spells : List Char → Char → Prop
  | plain {c : Char} : c ≠ '"' → c ≠ '\\' → c ≠ '\n' → c ≠ '\r' → Spells [c] c
  | letter {letter c : Char} : unescapeLetter? letter = some c → Spells ['\\', letter] c
  | apostrophe : Spells ['\\', '\x27'] '\x27'
  /-- The digits are those of a character, so that no surrogate is read. -/
  | code {a b c d x : Char} : ofHexDigits? [a, b, c, d] = some x.toNat →
      Spells ['\\', 'u', a, b, c, d] x

/-- Reads one character, and gives what follows it. -/
def readChar? : List Char → Option (Char × List Char)
  | '\\' :: 'u' :: a :: b :: c :: d :: rest =>
    (ofHexDigits? [a, b, c, d]).map fun code => (Char.ofNat code, rest)
  | '\\' :: '\x27' :: rest => some ('\x27', rest)
  | '\\' :: letter :: rest => (unescapeLetter? letter).map fun c => (c, rest)
  | c :: rest => some (c, rest)
  | [] => none

section

variable {s s' : List Char} {c c' : Char} {rest rest' : List Char}

/-- A spelling is not empty, and a quote by itself is none. -/
theorem Spells.head (h : Spells s c) : ∃ x xs, s = x :: xs ∧ x ≠ '"' := by
  cases h with
  | plain hquote _ _ _ => exact ⟨c, [], rfl, hquote⟩
  | letter _ => exact ⟨'\\', _, rfl, by decide⟩
  | apostrophe => exact ⟨'\\', _, rfl, by decide⟩
  | code _ => exact ⟨'\\', _, rfl, by decide⟩

/-- Whichever way a character is written, it is read back. -/
theorem Spells.readChar?_append (h : Spells s c) (rest : List Char) :
    readChar? (s ++ rest) = some (c, rest) := by
  cases h with
  | plain _ hbackslash _ _ =>
    show readChar? (c :: rest) = _
    rw [readChar?]
    · simp [hbackslash]
    · simp [hbackslash]
    · simp [hbackslash]
  | @letter letter _ hletter =>
    -- the two other escapes begin with characters that are no letters
    have hcode : letter ≠ 'u' := by
      intro hu
      rw [hu, show unescapeLetter? 'u' = none from rfl] at hletter
      cases hletter
    have happostrophe : letter ≠ '\x27' := by
      intro hmark
      rw [hmark, show unescapeLetter? '\x27' = none from rfl] at hletter
      cases hletter
    show readChar? ('\\' :: letter :: rest) = _
    rw [readChar?, hletter]
    · rfl
    · simp [hcode]
    · exact happostrophe
  | apostrophe => rfl
  | code hcode =>
    show (ofHexDigits? _).map _ = _
    rw [hcode, Option.map_some, Char.ofNat_toNat]
    rfl

/-- A character is told from its spelling, and so is the place where the spelling ends. -/
theorem Spells.append_inj (h : Spells s c) (h' : Spells s' c') (heq : s ++ rest = s' ++ rest') :
    c = c' ∧ rest = rest' := by
  have hread : some (c, rest) = some (c', rest') := by
    rw [← h.readChar?_append rest, ← h'.readChar?_append rest', heq]
  exact Prod.mk.inj (Option.some.inj hread)

/-- A character is escaped by one of its spellings. -/
theorem spells_escape (c : Char) : Spells (escape c) c := by
  unfold escape
  cases hletter : escapeLetter? c with
  | some letter => exact .letter (unescapeLetter?_of_escapeLetter? hletter).1
  | none =>
    dsimp only
    -- a character without a letter is neither of the two that may not stand by themselves
    have hplain : c ≠ '"' ∧ c ≠ '\\' ∧ c ≠ '\n' ∧ c ≠ '\r' := by
      refine ⟨?_, ?_, ?_, ?_⟩ <;> (rintro rfl; exact absurd hletter (by decide))
    by_cases hcode : isCodeEscaped c = true
    · rw [if_pos hcode]
      have hsmall : c.toNat < 16 ^ 4 := by
        simp only [isCodeEscaped, Bool.or_eq_true, decide_eq_true_eq, beq_iff_eq] at hcode
        omega
      exact .code (ofHexDigits?_hexDigits hsmall)
    · rw [if_neg hcode]
      exact .plain hplain.1 hplain.2.1 hplain.2.2.1 hplain.2.2.2

end

/-! ## Strings -/

/-- The ways to write some characters, one after the other. -/
inductive SpellsAll : List Char → List Char → Prop
  | nil : SpellsAll [] []
  | cons {s ss : List Char} {c : Char} {cs : List Char} : Spells s c → SpellsAll ss cs →
      SpellsAll (s ++ ss) (c :: cs)

theorem spellsAll_escape (cs : List Char) : SpellsAll (cs.flatMap escape) cs := by
  induction cs with
  | nil => exact .nil
  | cons c cs ih => exact .cons (spells_escape c) ih

/-- What is written up to the first quote that belongs to no escape is told from the text, and so
is what follows the quote. -/
theorem SpellsAll.unique {ss cs ss' cs' rest rest' : List Char} (h : SpellsAll ss cs)
    (h' : SpellsAll ss' cs') (heq : ss ++ '"' :: rest = ss' ++ '"' :: rest') :
    cs = cs' ∧ rest = rest' := by
  induction h generalizing ss' cs' with
  | nil =>
    cases h' with
    | nil => exact ⟨rfl, (List.cons.inj heq).2⟩
    | cons hs _ =>
      obtain ⟨x, xs, rfl, hx⟩ := hs.head
      exact absurd (List.cons.inj heq).1.symm hx
  | cons hs _ ih =>
    cases h' with
    | nil =>
      obtain ⟨x, xs, rfl, hx⟩ := hs.head
      exact absurd (List.cons.inj heq).1 hx
    | cons hs' hss' =>
      rw [List.append_assoc, List.append_assoc] at heq
      obtain ⟨rfl, hrest⟩ := hs.append_inj hs' heq
      obtain ⟨rfl, hafter⟩ := ih hss' hrest
      exact ⟨rfl, hafter⟩

/-- A text begins with a string between quotes, which some rest follows. -/
def Reads (text : List Char) (value : String) (rest : List Char) : Prop :=
  ∃ body, text = '"' :: (body ++ '"' :: rest) ∧ SpellsAll body value.toList

theorem Reads.unique {text : List Char} {value value' : String} {rest rest' : List Char}
    (h : Reads text value rest) (h' : Reads text value' rest') :
    value = value' ∧ rest = rest' := by
  obtain ⟨body, htext, hbody⟩ := h
  obtain ⟨body', htext', hbody'⟩ := h'
  have heq := (List.cons.inj (htext.symm.trans htext')).2
  obtain ⟨hvalue, hrest⟩ := hbody.unique hbody' heq
  exact ⟨String.toList_inj.1 hvalue, hrest⟩

theorem reads_quote (value : String) (rest : List Char) :
    Reads ((quote value).toList ++ rest) value rest := by
  refine ⟨value.toList.flatMap escape, ?_, spellsAll_escape _⟩
  unfold quote
  rw [String.toList_ofList]
  simp

end Text

/-- Terms with the same text are the same. By the rules of quoted strings the text of a literal is
read as its value, and no other, and what is left is the language or the datatype of the literal. -/
theorem Term.ntriples_determines :
    (∀ s t : Term, s.ntriples = t.ntriples ↔ s = t) ∧
    ∀ (l : Literal) (value : String) (rest : List Char),
      Text.Reads (literal l).ntriples.toList value rest ↔ value = l.value ∧ rest = l.suffix := by
  refine ⟨?_, ?_⟩
  · intro s t
    exact ⟨ntriples_inj, congrArg ntriples⟩
  · intro l value rest
    have hread : Text.Reads (literal l).ntriples.toList l.value l.suffix := by
      show Text.Reads l.ntriples.toList l.value l.suffix
      rw [l.toList_ntriples]
      exact Text.reads_quote l.value l.suffix
    constructor
    · intro h
      exact h.unique hread
    · intro h
      obtain ⟨rfl, rfl⟩ := h
      exact hread

end QuadStore
