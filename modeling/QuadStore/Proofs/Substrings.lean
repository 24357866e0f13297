import Mathlib
import QuadStore.Eval.FunctionCall

/-!
# Substrings

The functions `CONTAINS`, `STRSTARTS`, `STRENDS`, `STRBEFORE` and `STRAFTER` look for one string in
another. They agree on where its first occurrence is, and they fail on the same arguments:
`Function.splits`.
-/

namespace QuadStore

/-! ## Occurrences -/

namespace Text

theorem dropHead?_eq_some_iff {head text rest : List Char} :
    dropHead? head text = some rest ↔ text = head ++ rest := by
  induction head generalizing text with
  | nil => exact Option.some_inj
  | cons c head ih =>
    cases text with
    | nil => exact iff_of_false nofun nofun
    | cons d text =>
      show (if c = d then dropHead? head text else none) = some rest ↔ _
      by_cases hcd : c = d
      · rw [if_pos hcd, ih, hcd, List.cons_append, List.cons_inj_right]
      · rw [if_neg hcd]
        apply iff_of_false nofun
        intro h
        exact hcd (List.cons.inj h).1.symm

theorem isSome_dropHead?_iff {head text : List Char} :
    (dropHead? head text).isSome = true ↔ ∃ rest, text = head ++ rest := by
  rw [Option.isSome_iff_exists]
  exact exists_congr fun rest => dropHead?_eq_some_iff

/-- A part at the end of a text is a part at the front of the text read backwards. -/
theorem isSome_dropHead?_reverse_iff {tail text : List Char} :
    (dropHead? tail.reverse text.reverse).isSome = true ↔ ∃ front, text = front ++ tail := by
  rw [isSome_dropHead?_iff]
  constructor
  · intro h
    obtain ⟨rest, hrest⟩ := h
    refine ⟨rest.reverse, ?_⟩
    rw [← List.reverse_reverse text, hrest, List.reverse_append, List.reverse_reverse]
  · intro h
    obtain ⟨front, rfl⟩ := h
    exact ⟨front.reverse, List.reverse_append⟩

variable {needle text before after : List Char}

/-- The first occurrence is an occurrence, and none has less in front of it. -/
theorem cutFirst?_eq_some (h : cutFirst? needle text = some (before, after)) :
    text = before ++ needle ++ after ∧
      ∀ u w, text = u ++ needle ++ w → before.length ≤ u.length := by
  induction text generalizing before with
  | nil =>
    unfold cutFirst? at h
    split at h
    · rename_i hempty
      obtain ⟨rfl, rfl⟩ := Prod.mk.inj (Option.some.inj h)
      rw [List.isEmpty_iff.1 hempty]
      exact ⟨rfl, fun u w _ => Nat.zero_le u.length⟩
    · cases h
  | cons x xs ih =>
    unfold cutFirst? at h
    split at h
    · rename_i rest hhead
      obtain ⟨rfl, rfl⟩ := Prod.mk.inj (Option.some.inj h)
      exact ⟨dropHead?_eq_some_iff.1 hhead, fun u w _ => Nat.zero_le u.length⟩
    · rename_i hhead
      obtain ⟨⟨front, rest⟩, hcut, hparts⟩ := Option.map_eq_some_iff.1 h
      obtain ⟨rfl, rfl⟩ := Prod.mk.inj hparts
      obtain ⟨hxs, hfirst⟩ := ih hcut
      refine ⟨by rw [hxs]; rfl, ?_⟩
      intro u w huw
      cases u with
      | nil =>
        -- an occurrence in front would have been found
        have hfound := dropHead?_eq_some_iff.2 (show x :: xs = needle ++ w from huw)
        exact absurd (hhead.symm.trans hfound) nofun
      | cons y u =>
        have hu := hfirst u w (List.cons.inj huw).2
        simp only [List.length_cons]
        omega

theorem isSome_cutFirst?_iff :
    (cutFirst? needle text).isSome = true ↔ ∃ u w, text = u ++ needle ++ w := by
  constructor
  · intro h
    obtain ⟨⟨u, w⟩, hcut⟩ := Option.isSome_iff_exists.1 h
    exact ⟨u, w, (cutFirst?_eq_some hcut).1⟩
  · intro h
    obtain ⟨u, w, htext⟩ := h
    induction text generalizing u with
    | nil =>
      have hneedle : needle = [] := by
        have hlength := congrArg List.length htext
        simp only [List.length_append, List.length_nil] at hlength
        exact List.length_eq_zero_iff.1 (by omega)
      rw [hneedle]
      rfl
    | cons x xs ih =>
      unfold cutFirst?
      split
      · rfl
      · rename_i hhead
        cases u with
        | nil =>
          have hfound := dropHead?_eq_some_iff.2 (show x :: xs = needle ++ w from htext)
          exact absurd (hhead.symm.trans hfound) nofun
        | cons y u =>
          rw [Option.isSome_map]
          exact ih u (List.cons.inj htext).2

/-! ### In strings -/

variable {s t : String}

theorem isSome_cutFirst?_toList_iff :
    (cutFirst? t.toList s.toList).isSome = true ↔ ∃ u w, s = u ++ t ++ w := by
  rw [isSome_cutFirst?_iff]
  constructor
  · intro h
    obtain ⟨u, w, huw⟩ := h
    refine ⟨String.ofList u, String.ofList w, ?_⟩
    rw [← String.toList_inj, String.toList_append, String.toList_append, String.toList_ofList,
      String.toList_ofList, huw]
  · intro h
    obtain ⟨u, w, rfl⟩ := h
    exact ⟨u.toList, w.toList, by rw [String.toList_append, String.toList_append]⟩

theorem isSome_dropHead?_toList_reverse_iff :
    (dropHead? t.toList.reverse s.toList.reverse).isSome = true ↔ ∃ u, s = u ++ t := by
  rw [isSome_dropHead?_reverse_iff]
  constructor
  · intro h
    obtain ⟨front, hfront⟩ := h
    refine ⟨String.ofList front, ?_⟩
    rw [← String.toList_inj, String.toList_append, String.toList_ofList, hfront]
  · intro h
    obtain ⟨u, rfl⟩ := h
    exact ⟨u.toList, String.toList_append⟩

variable {before after : List Char}

theorem eq_append_of_cutFirst?_toList (h : cutFirst? t.toList s.toList = some (before, after)) :
    s = String.ofList before ++ t ++ String.ofList after := by
  rw [← String.toList_inj, String.toList_append, String.toList_append, String.toList_ofList,
    String.toList_ofList]
  exact (cutFirst?_eq_some h).1

theorem length_le_of_cutFirst?_toList (h : cutFirst? t.toList s.toList = some (before, after))
    (u w : String) (huw : s = u ++ t ++ w) : (String.ofList before).length ≤ u.length := by
  rw [← String.length_toList, ← String.length_toList, String.toList_ofList]
  apply (cutFirst?_eq_some h).2 u.toList w.toList
  rw [huw, String.toList_append, String.toList_append]

/-- A text starts with another one if nothing stands before the first occurrence. -/
theorem isSome_dropHead?_toList_iff (h : cutFirst? t.toList s.toList = some (before, after)) :
    (dropHead? t.toList s.toList).isSome = true ↔ String.ofList before = "" := by
  rw [isSome_dropHead?_iff, ← String.toList_inj, String.toList_ofList]
  obtain ⟨hparts, hfirst⟩ := cutFirst?_eq_some h
  constructor
  · intro hstart
    obtain ⟨rest, hrest⟩ := hstart
    exact List.length_eq_zero_iff.1 (Nat.le_zero.1 (hfirst [] rest hrest))
  · intro hbefore
    exact ⟨after, by rw [hparts, show before = [] from hbefore, List.nil_append]⟩

end Text

/-! ## Arguments -/

namespace Literal

/-- A text in the language, if one is given. -/
def ofText (value : String) : (language? : Option String) → Literal
  | some language => tagged value language
  | none => simple value

theorem ofText_value (value : String) (language? : Option String) :
    (ofText value language?).value = value := by
  cases language? <;> rfl

theorem ofText_language? (value : String) (language? : Option String) :
    (ofText value language?).language? = language? := by
  cases language? <;> rfl

theorem ofText_isPlain (value : String) (language? : Option String) :
    (ofText value language?).isPlain = true := by
  cases language? <;> rfl

/-- Two texts, of which the second one has no language or that of the first. -/
def Compatible (s n : Literal) : Prop :=
  s.isPlain = true ∧ n.isPlain = true ∧ (n.language? = none ∨ n.language? = s.language?)

end Literal

namespace Datum

variable {a : Datum}

theorem ofText_eq (value : String) (language? : Option String) :
    ofText value language? = ofTerm (.literal (.ofText value language?)) := by
  cases language? <;> rfl

theorem text?_of_isPlain {l : Literal} (h : a.literal? = some l) (hplain : l.isPlain = true) :
    a.text? = some (l.value, l.language?) := by
  unfold text?
  rw [h, Option.bind_some]
  cases l with
  | simple value => rfl
  | tagged value language =>
    rw [if_neg (show (Literal.tagged value language).datatype ≠ Xsd.string from
      (by decide : Rdf.langString ≠ Xsd.string))]
    rfl
  | typed value datatype own => cases hplain

/-- What has a text is a literal without a datatype of its own. -/
theorem literal?_of_text? {text : String × Option String} (h : a.text? = some text) :
    ∃ l, a.literal? = some l ∧ l.isPlain = true := by
  obtain ⟨l, hl, htext⟩ := Option.bind_eq_some_iff.1 h
  refine ⟨l, hl, ?_⟩
  cases l with
  | simple value => rfl
  | tagged value language => rfl
  | typed value datatype own =>
    rw [if_neg (show (Literal.typed value datatype own).datatype ≠ Xsd.string from own)] at htext
    cases htext

end Datum

namespace Function

variable {a b : Datum} {s n : Literal}

theorem compatible?_of_literals (hs : a.literal? = some s) (hn : b.literal? = some n)
    (h : s.Compatible n) : compatible? a b = some (s.value, n.value, s.language?) := by
  obtain ⟨hsplain, hnplain, hlanguage⟩ := h
  show (a.text?.bind fun s => b.text?.bind fun t => _) = _
  rw [Datum.text?_of_isPlain hs hsplain, Datum.text?_of_isPlain hn hnplain]
  apply if_pos
  rw [Bool.or_eq_true, Option.isNone_iff_eq_none, beq_iff_eq]
  exact hlanguage.imp id Eq.symm

/-- Only compatible literals are taken for compatible. -/
theorem literals_of_compatible? {texts : String × String × Option String}
    (h : compatible? a b = some texts) :
    ∃ s n, a.literal? = some s ∧ b.literal? = some n ∧ s.Compatible n := by
  obtain ⟨⟨value, language?⟩, ha, h⟩ := Option.bind_eq_some_iff.1 h
  obtain ⟨⟨other, other?⟩, hb, h⟩ := Option.bind_eq_some_iff.1 h
  obtain ⟨s, hs, hsplain⟩ := Datum.literal?_of_text? ha
  obtain ⟨n, hn, hnplain⟩ := Datum.literal?_of_text? hb
  refine ⟨s, n, hs, hn, hsplain, hnplain, ?_⟩
  rw [Datum.text?_of_isPlain hs hsplain] at ha
  rw [Datum.text?_of_isPlain hn hnplain] at hb
  obtain ⟨rfl, rfl⟩ := Prod.mk.inj (Option.some.inj ha)
  obtain ⟨rfl, rfl⟩ := Prod.mk.inj (Option.some.inj hb)
  have hcondition := (Option.ite_none_right_eq_some.1 h).1
  rw [Bool.or_eq_true, Option.isNone_iff_eq_none, beq_iff_eq] at hcondition
  exact hcondition.imp id Eq.symm

/-- The functions that look for one string in another. -/
def splitting : List Function := [contains, strStarts, strEnds, strBefore, strAfter]

/-- What they give for a text and one to look for in it, the parts as literals. -/
structure Splits (s n : Literal) (found starts ends : Bool) (before after : Literal) : Prop where
  found_iff : found = true ↔ ∃ u w, s.value = u ++ n.value ++ w
  parts : found = true → s.value = before.value ++ n.value ++ after.value
  shortest : ∀ u w, s.value = u ++ n.value ++ w → before.value.length ≤ u.length
  plain : found = true → before.isPlain = true ∧ after.isPlain = true
  languages : found = true → before.language? = s.language? ∧ after.language? = s.language?
  starts_iff : starts = true ↔ found = true ∧ before.value = ""
  ends_iff : ends = true ↔ ∃ u, s.value = u ++ n.value
  found_of_ends : ends = true → found = true
  absent : found = false → before = .simple "" ∧ after = .simple ""

/-- A text with an occurrence is split at the first one. -/
theorem splits_of_cut {before after : List Char}
    (h : Text.cutFirst? n.value.toList s.value.toList = some (before, after)) :
    Splits s n true (Text.dropHead? n.value.toList s.value.toList).isSome
      (Text.dropHead? n.value.toList.reverse s.value.toList.reverse).isSome
      (.ofText (String.ofList before) s.language?) (.ofText (String.ofList after) s.language?) := by
  have hfound : (Text.cutFirst? n.value.toList s.value.toList).isSome = true := by rw [h]; rfl
  exact {
    found_iff := iff_of_true rfl (Text.isSome_cutFirst?_toList_iff.1 hfound)
    parts := fun _ => by
      rw [Literal.ofText_value, Literal.ofText_value]
      exact Text.eq_append_of_cutFirst?_toList h
    shortest := fun u w huw => by
      rw [Literal.ofText_value]
      exact Text.length_le_of_cutFirst?_toList h u w huw
    plain := fun _ => ⟨Literal.ofText_isPlain _ _, Literal.ofText_isPlain _ _⟩
    languages := fun _ => ⟨Literal.ofText_language? _ _, Literal.ofText_language? _ _⟩
    starts_iff := by
      rw [Literal.ofText_value, Text.isSome_dropHead?_toList_iff h]
      exact (and_iff_right rfl).symm
    ends_iff := Text.isSome_dropHead?_toList_reverse_iff
    found_of_ends := fun _ => rfl
    absent := nofun }

theorem splits_of_cut_none (h : Text.cutFirst? n.value.toList s.value.toList = none) :
    Splits s n false (Text.dropHead? n.value.toList s.value.toList).isSome
      (Text.dropHead? n.value.toList.reverse s.value.toList.reverse).isSome
      (.simple "") (.simple "") := by
  have habsent : ¬ ∃ u w, s.value = u ++ n.value ++ w := by
    rw [← Text.isSome_cutFirst?_toList_iff, h]
    exact nofun
  exact {
    found_iff := iff_of_false nofun habsent
    parts := nofun
    shortest := fun u w huw => absurd ⟨u, w, huw⟩ habsent
    plain := nofun
    languages := nofun
    starts_iff := by
      apply iff_of_false _ fun h => absurd h.1 nofun
      intro hstarts
      obtain ⟨rest, hrest⟩ := Text.isSome_dropHead?_iff.1 hstarts
      apply habsent
      rw [← Text.isSome_cutFirst?_toList_iff, Text.isSome_cutFirst?_iff]
      exact ⟨[], rest, hrest⟩
    ends_iff := Text.isSome_dropHead?_toList_reverse_iff
    found_of_ends := fun hends => by
      obtain ⟨u, hu⟩ := Text.isSome_dropHead?_toList_reverse_iff.1 hends
      exact absurd ⟨u, "", by rw [hu, String.append_empty]⟩ habsent
    absent := fun _ => ⟨rfl, rfl⟩ }

theorem cut?_of_literals (hs : a.literal? = some s) (hn : b.literal? = some n)
    (h : s.Compatible n) :
    cut? a b = some ((Text.cutFirst? n.value.toList s.value.toList).map fun (before, after) =>
      (String.ofList before, String.ofList after), s.language?) := by
  unfold cut?
  rw [compatible?_of_literals hs hn h]
  rfl

theorem evaluate?_of_incompatible (h : compatible? a b = none) {f : Function}
    (hf : f ∈ splitting) : f.evaluate? [a, b] = none := by
  have hcut : cut? a b = none := by
    unfold cut?
    rw [h]
    rfl
  simp only [splitting, List.mem_cons, List.not_mem_nil, or_false] at hf
  obtain rfl | rfl | rfl | rfl | rfl := hf
  all_goals simp only [evaluate?, applyTwo?, h, hcut, Option.map_none]

/-- The functions of two strings split the first of two compatible literals at the first occurrence
of the second one, and have no value for other arguments. -/
theorem splits (a b : Datum) :
    (∀ s n, a.literal? = some s → b.literal? = some n → s.Compatible n →
      ∃ found starts ends before after,
        contains.evaluate? [a, b] = some (.ofBool found) ∧
        strStarts.evaluate? [a, b] = some (.ofBool starts) ∧
        strEnds.evaluate? [a, b] = some (.ofBool ends) ∧
        strBefore.evaluate? [a, b] = some (.ofTerm (.literal before)) ∧
        strAfter.evaluate? [a, b] = some (.ofTerm (.literal after)) ∧
        Splits s n found starts ends before after) ∧
    ((¬ ∃ s n, a.literal? = some s ∧ b.literal? = some n ∧ s.Compatible n) →
      ∀ f ∈ splitting, f.evaluate? [a, b] = none) := by
  constructor
  · intro s n hs hn hcompatible
    have hstrings := compatible?_of_literals hs hn hcompatible
    have hcut := cut?_of_literals hs hn hcompatible
    have hstarts : strStarts.evaluate? [a, b] =
        some (.ofBool (Text.dropHead? n.value.toList s.value.toList).isSome) := by
      simp only [evaluate?, applyTwo?, hstrings, Option.map_some]
    have hends : strEnds.evaluate? [a, b] =
        some (.ofBool (Text.dropHead? n.value.toList.reverse s.value.toList.reverse).isSome) := by
      simp only [evaluate?, applyTwo?, hstrings, Option.map_some]
    -- the parts are empty and without a language where there is no occurrence
    cases h : Text.cutFirst? n.value.toList s.value.toList with
    | none =>
      rw [h, Option.map_none] at hcut
      refine ⟨_, _, _, _, _, ?_, hstarts, hends, ?_, ?_, splits_of_cut_none h⟩
      all_goals
        simp only [evaluate?, applyTwo?, hcut, Option.map_some]
        rfl
    | some parts =>
      rw [h, Option.map_some] at hcut
      refine ⟨_, _, _, _, _, ?_, hstarts, hends, ?_, ?_, splits_of_cut h⟩
      all_goals simp only [evaluate?, applyTwo?, hcut, Option.map_some, Datum.ofText_eq,
        Option.isSome_some]
  · intro hnone f hf
    apply evaluate?_of_incompatible _ hf
    rw [← Option.not_isSome_iff_eq_none, Option.isSome_iff_exists]
    intro h
    obtain ⟨texts, htexts⟩ := h
    exact hnone (literals_of_compatible? htexts)

/-- An occurrence that overlaps with a later one, and arguments in the wrong languages. -/
theorem splits_french :
    let text := Datum.ofTerm (.literal (.tagged "aéaéaé" "fr"))
    let part := Datum.ofTerm (.literal (.simple "éaé"))
    (∃ found starts ends before after,
      contains.evaluate? [text, part] = some (.ofBool found) ∧
      strStarts.evaluate? [text, part] = some (.ofBool starts) ∧
      strEnds.evaluate? [text, part] = some (.ofBool ends) ∧
      strBefore.evaluate? [text, part] = some (.ofTerm (.literal before)) ∧
      strAfter.evaluate? [text, part] = some (.ofTerm (.literal after)) ∧
      Splits (.tagged "aéaéaé" "fr") (.simple "éaé") found starts ends before after) ∧
    strStarts.evaluate? [text, part] = some (.ofBool false) ∧
    strEnds.evaluate? [text, part] = some (.ofBool true) ∧
    strBefore.evaluate? [text, part] = some (.ofTerm (.literal (.tagged "a" "fr"))) ∧
    strAfter.evaluate? [text, part] = some (.ofTerm (.literal (.tagged "aé" "fr"))) ∧
    ∀ f ∈ splitting, f.evaluate? [part, text] = none := by
  intro text part
  refine ⟨?_, rfl, rfl, rfl, rfl, ?_⟩
  · exact (splits text part).1 (.tagged "aéaéaé" "fr") (.simple "éaé") rfl rfl
      ⟨rfl, rfl, .inl rfl⟩
  · apply (splits part text).2
    intro h
    obtain ⟨s, n, hs, hn, -, -, hlanguage⟩ := h
    obtain rfl := Option.some.inj hs
    obtain rfl := Option.some.inj hn
    exact hlanguage.elim nofun nofun

end Function

end QuadStore
