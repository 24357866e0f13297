import QuadStore.Proofs.Answering
import QuadStore.Proofs.Learning

/-!
# The numbers of a store

What the dictionary of a store says at any time of its life follows from what has been inserted into
it so far: `Session.Received.registered`. Its numbers are those that the terms got when they were
first mentioned, they stay, and they are enough to read every entry.
-/

namespace QuadStore
namespace Session

variable {session : Session} {history : List Quad}

/-- The quads that some steps insert, one after the other. -/
def insertedBy (session : Session) : List Step → List Quad
  | [] => []
  | step :: rest => session.insertions step ++ (session.step step).2.insertedBy rest

theorem Received.after (h : session.Received history) {steps : List Step}
    (hopen : ∀ step ∈ steps, step.keepsOpen = true) :
    (session.after steps).Received (history ++ session.insertedBy steps) := by
  induction steps generalizing session history with
  | nil =>
    rw [insertedBy, List.append_nil]
    exact h
  | cons step rest ih =>
    have hstep := Received.step h (hopen step List.mem_cons_self)
    rw [insertedBy, ← List.append_assoc]
    exact ih hstep fun x hx => hopen x (List.mem_cons_of_mem _ hx)

theorem insertedBy_of_quads {steps : List Step} (h : ∀ step ∈ steps, step.quads = []) :
    session.insertedBy steps = [] := by
  induction steps generalizing session with
  | nil => rfl
  | cons step rest ih =>
    rw [insertedBy, insertions_of_quads (h step List.mem_cons_self), List.nil_append]
    exact ih fun x hx => h x (List.mem_cons_of_mem _ hx)

/-- What the dictionary of a store has to do with what was inserted since the store was opened. -/
structure Registers (session : Session) (history : List Quad) (s : Store) : Prop where
  /-- The numbers from one on are those of the terms in the order of first mention: the subject of a
  quad, its predicate, its object and its graph. -/
  numbered : ∀ id t, s.dictionary.resolve id = .ok t ↔
    ∃ n, id = ⟨n + 1⟩ ∧ (Quad.mentioned history)[n]? = some t
  /-- A term has a number exactly if the number stands for it. -/
  inverse : ∀ t id, s.dictionary.lookup? t = some id ↔ s.dictionary.resolve id = .ok t
  /-- Two terms have one number exactly if they are the same. -/
  same : ∀ t u id, s.dictionary.lookup? t = some id → (s.dictionary.lookup? u = some id ↔ u = t)
  /-- The number of the default graph is no term's. -/
  reserved : ∀ t, s.dictionary.lookup? t ≠ some .defaultGraph
  /-- This is what the two tables and the counter say, where each term has the value that is read
  off it beside it. -/
  tables : (Interner.empty.learn history).Represents s.dictionary
  /-- So does whatever is read in them: terms, graphs and quads, either way. -/
  readers : (Interner.empty.learn history).ReadsAs s.dictionary
  /-- The numbers by which a quad was encoded when it was inserted stand for it, and another
  insertion would find them. -/
  decoded : ∀ before q later, history = before ++ q :: later →
    s.dictionary.resolveQuad ((Interner.empty.learn before).internQuad q).1 = .ok q ∧
      s.dictionary.internQuad q = (((Interner.empty.learn before).internQuad q).1, s.dictionary)
  /-- Every entry is of a quad that was inserted. -/
  entries : ∀ e ∈ s.index.entries, ∃ q ∈ history, s.dictionary.resolveQuad e.quad = .ok q
  /-- So is every entry that a look-up comes to, whenever it began and whatever it looks for. -/
  scanned : ∀ scan e after, s.index.next? scan = some (e, after) →
    ∃ q ∈ history, s.dictionary.resolveQuad e.quad = .ok q
  /-- Whatever is asked, the answer tells of no corruption of terms, and of none at all unless the
  store is validated. -/
  answered : ∀ step : Step, step.keepsOpen = true →
    ∀ c ∈ (session.step step).1.corruptions, step = .validate ∧ c.isOfTerm = false
  /-- Whatever is done later on, the numbers stay as they are, and no more of them are given if
  nothing is inserted. -/
  kept : ∀ steps : List Step, (∀ step ∈ steps, step.keepsOpen = true) →
    ∃ s', (session.after steps).store? = some s' ∧
      (Interner.empty.learn (history ++ session.insertedBy steps)).Represents s'.dictionary ∧
      (∀ id t, s.dictionary.resolve id = .ok t → s'.dictionary.resolve id = .ok t) ∧
      ((∀ step ∈ steps, step.quads = []) → s'.dictionary = s.dictionary)

/-- At any time, the dictionary of a store is the one that has learnt what was inserted so far. -/
theorem Received.exists_recalls (h : session.Received history) :
    ∃ s, session.store? = some s ∧ s.Recalls history := by
  obtain ⟨s, hs, hrecalls⟩ := h.recalls
  exact ⟨s, (store?_eq session).trans hs, hrecalls⟩

theorem Received.registered (h : session.Received history) {s : Store}
    (hs : session.store? = some s) : session.Registers history s := by
  obtain ⟨s', hs', hrecalls⟩ := h.exists_recalls
  obtain rfl := Option.some.inj (hs.symm.trans hs')
  have hdictionary := hrecalls.dictionary
  have htables : (Interner.empty.learn history).Represents s.dictionary := by
    rw [hdictionary]
    exact Interner.represents_learn history
  refine
    { numbered := ?numbered
      inverse := fun t id => Dictionary.lookup?_eq_some_iff
      same := ?same
      reserved := fun t ht =>
        Dictionary.resolve_defaultGraph _ t (Dictionary.lookup?_eq_some_iff.1 ht)
      tables := htables
      readers := htables.readsAs
      decoded := ?decoded
      entries := hrecalls.entries
      scanned := fun scan e after hnext => hrecalls.entries e (Index.length_of_next? hnext).1
      answered := fun step hopen => h.arises.corruptions_step hopen
      kept := ?kept }
  case numbered =>
    intro id t
    rw [hdictionary]
    exact Dictionary.resolve_learn_iff
  case same =>
    intro t u id ht
    refine ⟨fun hu => ?_, fun hu => by rw [hu, ht]⟩
    rw [Dictionary.lookup?_eq_some_iff] at ht hu
    exact Except.ok.inj (hu.symm.trans ht)
  case decoded =>
    intro before q later hhistory
    have hencoded := (Interner.represents_learn before).internQuad q
    have hdecoded := Dictionary.resolveQuad_learn .empty before q later
    -- the tables then had the numbers of the dictionary then
    rw [← hhistory, ← hdictionary, ← hencoded.1] at hdecoded
    exact ⟨hdecoded,
      Dictionary.internQuad_of_lookupQuad? (Dictionary.lookupQuad?_eq_some_iff.2 hdecoded)⟩
  case kept =>
    intro steps hopen
    obtain ⟨s', hs', hlater⟩ := (h.after hopen).exists_recalls
    have hlearnt := hlater.dictionary
    refine ⟨s', hs', ?_, ?_, ?_⟩
    · rw [hlearnt]
      exact Interner.represents_learn _
    · intro id t
      rw [hlearnt, Dictionary.learn_append, ← hdictionary]
      exact (Dictionary.within_learn s.dictionary _).resolve
    · intro hquiet
      rw [hlearnt, insertedBy_of_quads hquiet, List.append_nil, hdictionary]

/-- Whatever the steps are, the numbers of terms grow with what is inserted, one for each new term,
and never change; nothing that is looked up, evaluated or validated meets a number without a term
of the right kind. -/
theorem Arises.registers (h : session.Arises) {s : Store} (hs : session.store? = some s) :
    (∃ history, session.Received history) ∧
      ∀ history, session.Received history → session.Registers history s :=
  ⟨h.exists_received (by rw [← store?_eq, hs]), fun _ hreceived => hreceived.registered hs⟩

/-- A quad with a named graph, and two that mention its terms. -/
def numberedQuads : List Quad :=
  [⟨.iri ⟨"s"⟩, ⟨"p"⟩, .literal (.ofTyped "1" ⟨Xsd.integer⟩), .iri ⟨"g"⟩⟩,
    ⟨.iri ⟨"g"⟩, ⟨"p"⟩, .iri ⟨"s"⟩, .default⟩, ⟨.iri ⟨"s"⟩, ⟨"q"⟩, .iri ⟨"o"⟩, .iri ⟨"g"⟩⟩]

/-- The first of these quads is inserted and taken back; then the others are inserted, and one of
them is removed. -/
def numbering : Session :=
  (start none {}).2.after [
    .begin .transaction,
    .write .transaction (.insert numberedQuads[0] true),
    .rollback .transaction,
    .insert numberedQuads[1],
    .insert numberedQuads[2],
    .remove numberedQuads[1]]

/-- Each of the six terms has the number of its first mention, and the value of the literal stands
beside its number. -/
theorem registers_numbering : numbering.Arises ∧ numbering.Received numberedQuads ∧
    (∃ s, numbering.store? = some s ∧ numbering.Registers numberedQuads s) ∧
    Quad.mentioned numberedQuads = [.iri ⟨"s"⟩, .iri ⟨"p"⟩,
      .literal (.ofTyped "1" ⟨Xsd.integer⟩), .iri ⟨"g"⟩, .iri ⟨"q"⟩, .iri ⟨"o"⟩] ∧
    ((Interner.empty.learn numberedQuads).resolve ⟨3⟩).map (·.datum.value?) =
      .ok (some (.integer ⟨1, by decide⟩)) := by
  have hreceived : numbering.Received numberedQuads :=
    Received.after (.start rfl) (by simp [Step.keepsOpen])
  obtain ⟨s, hs, -⟩ := hreceived.exists_recalls
  have hregisters := (hreceived.arises.registers hs).2 _ hreceived
  exact ⟨hreceived.arises, hreceived, ⟨s, hs, hregisters⟩, by decide, by rfl⟩

end Session
end QuadStore
