import QuadStore.Proofs.Drafts
import QuadStore.Proofs.Replay

/-!
# Ledgers

A ledger is what a session amounts to for those who write: the committed content, the number of the
latest snapshot, and the draft of the open transaction. It knows neither entries nor stamps nor
terms, and tells by the draft alone whether a commit fails. `Session.run_follows` says that every
session that stays open answers as its ledger does, whatever transactions are begun, committed,
rolled back or dropped in it, and whatever else is done meanwhile.
-/

namespace QuadStore

/-- The committed content and the draft of the open transaction. -/
structure Ledger where
  committed : Content
  /-- The number of the latest snapshot. -/
  number : Nat
  open? : Option (Writer × Draft)
  connections : List String
  /-- The deadline of an evaluation. -/
  deadline : Deadline
  /-- Whether commits are written to a journal. -/
  persistent : Bool

namespace Ledger

/-- Whether a writer is known. -/
def knows (l : Ledger) : Writer → Bool
  | .transaction => true
  | .connection name => l.connections.contains name

/-- The draft that a writer works on, if it holds the open transaction. -/
def working? (l : Ledger) (w : Writer) : Option Draft :=
  l.open?.bind fun (holder, d) => if holder = w then some d else none

/-- The failure of a writer that holds no transaction. -/
def idleFailure (l : Ledger) : Writer → Failure
  | .transaction => .unknown
  | .connection name => if l.connections.contains name then .notActive else .unknown

/-- Begins a transaction, which works on the committed content. -/
def begin (l : Ledger) (w : Writer) : Answer × Ledger :=
  match l.open? with
  | none =>
    if l.knows w then (.done, { l with open? := some (w, .ofContent l.committed) })
    else (.failed .unknown, l)
  | some (holder, _) =>
    if !l.knows w then (.failed .unknown, l)
    else if holder = w ∧ w ≠ .transaction then (.failed .alreadyActive, l)
    else (.failed .busy, l)

/-- Whether a draft can not be committed: it has to be written, and some length does not fit into
its record. -/
def Overflows (l : Ledger) (d : Draft) : Prop :=
  l.persistent = true ∧ d.operations ≠ [] ∧ Record.Overflows ⟨l.number + 1, d.operations⟩

instance (l : Ledger) (d : Draft) : Decidable (l.Overflows d) :=
  inferInstanceAs (Decidable (_ ∧ _ ∧ _))

/-- Ends the open transaction. The content of its draft becomes the committed one, or stays what it
is if the record of the draft can not be written. -/
def finish (l : Ledger) (d : Draft) (answer : Answer) : Answer × Ledger :=
  if l.Overflows d then (.failed (.store .tooLong), { l with open? := none })
  else (answer, { l with committed := d.content, number := l.number + 1, open? := none })

/-- Commits the transaction of a writer. -/
def commit (l : Ledger) (w : Writer) : Answer × Ledger :=
  match l.working? w with
  | none => (.failed (l.idleFailure w), l)
  | some d => l.finish d (.number (l.number + 1))

/-- Rolls back the transaction of a writer. -/
def rollback (l : Ledger) (w : Writer) : Answer × Ledger :=
  match l.working? w with
  | none => (.failed (l.idleFailure w), l)
  | some _ => (.done, { l with open? := none })

/-- Changes the draft that a writer works on. -/
def write (l : Ledger) (w : Writer) (change : Write) : Answer × Ledger :=
  match l.working? w with
  | none => (.failed (l.idleFailure w), l)
  | some d => ((d.write change).1, { l with open? := some (w, (d.write change).2) })

/-- Begins, makes and commits one change. -/
def atOnce (l : Ledger) (f : Draft → Answer × Draft) : Answer × Ledger :=
  if l.open?.isSome then (.failed .busy, l)
  else l.finish (f (.ofContent l.committed)).2 (f (.ofContent l.committed)).1

/-- Drops a connection, whose transaction is rolled back. -/
def disconnect (l : Ledger) (name : String) : Ledger :=
  let l := (l.rollback (.connection name)).2
  { l with connections := l.connections.filter (· != name) }

/-- Opens a connection, in the place of the one that had its name. -/
def connect (l : Ledger) (name : String) : Ledger :=
  let l := l.disconnect name
  { l with connections := l.connections ++ [name] }

/-- The answer to a read, if it is not one of an older snapshot. -/
def read (l : Ledger) : Reader → Read → Option Answer
  | .snapshot _, _ => none
  | .writer .transaction, read =>
    match l.working? .transaction with
    | some d => some (d.content.read Stamp.pending l.deadline read)
    | none => some (.failed .unknown)
  | .writer (.connection name), read =>
    if !l.knows (.connection name) then some (.failed .unknown)
    else
      match l.working? (.connection name) with
      | some d => some (d.content.read Stamp.pending l.deadline (Session.connectionRead read))
      | none => some (l.committed.read l.number l.deadline (Session.connectionRead read))

/-- The answer to a step and the ledger after it. There is no answer where it depends on more than
the ledger: on what waits to be deleted, on the journal, on snapshots or on cursors. -/
def step (l : Ledger) : Step → Option Answer × Ledger
  | .takeSnapshot _ none => (some (.number l.number), l)
  | .connect name => (some .done, l.connect name)
  | .disconnect name => (some (.flag (l.connections.contains name)), l.disconnect name)
  | .insert q => (l.atOnce (·.write (.insert q true))).map some id
  | .remove q => (l.atOnce (·.write (.remove q))).map some id
  | .extend quads => (l.atOnce fun d => (.done, d.assertAll quads)).map some id
  | .latest read => (some (l.committed.read l.number l.deadline read), l)
  | .read reader read => (l.read reader read, l)
  | .begin w => (l.begin w).map some id
  | .commit w => (l.commit w).map some id
  | .rollback w => (l.rollback w).map some id
  | .write w change => (l.write w change).map some id
  | .isActive name =>
    (some (if l.knows (.connection name) then .flag (l.working? (.connection name)).isSome
      else .failed .unknown), l)
  | _ => (none, l)

/-- The ledger of a store. -/
def ofStore (s : Store) (open? : Option (Writer × Draft)) (connections : List String) : Ledger :=
  ⟨s.latest.content s.namespaces, s.current, open?, connections, s.options.deadline,
    s.journal?.isSome⟩

end Ledger

/-- No quad stands twice. -/
def Content.Distinct (c : Content) : Prop := (c.statements.map (·.quad)).Nodup

/-- No quad stands twice in the committed content nor in the one that is worked on. -/
def Ledger.Distinct (l : Ledger) : Prop :=
  l.committed.Distinct ∧ ∀ w d, l.open? = some (w, d) → d.content.Distinct

/-- Every answer that the ledger gives is the one that was given. -/
def Ledger.Follows (l : Ledger) : List (Step × Answer) → Prop
  | [] => l.Distinct
  | (step, answer) :: rest =>
    l.Distinct ∧
      (∀ expected, (l.step step).1 = some expected → answer = expected) ∧
        (l.step step).2.Follows rest

/-! ## Sessions and their ledgers -/

/-- A session whose store, and the transaction open in it, amount to a ledger. -/
inductive Session.Shows (session : Session) (l : Ledger) : Prop
  | idle {s : Store} : session.state = .idle s → s.Sound →
      l = .ofStore s none session.connections → Shows session l
  | writing {w : Writer} {t : Transaction} {s : Store} : session.state = .writing w t →
      t.Since s → t.Records → l = .ofStore s (some (w, t.draft)) session.connections →
        Shows session l

/-- Two stores amount to the same if the latest snapshot shows the same in both. -/
theorem Ledger.ofStore_eq {s s' : Store} (hk : s.Keeps s.current s') (hr : s.Readable)
    (hframe : s'.current = s.current ∧ s'.namespaces = s.namespaces ∧
      s'.options = s.options ∧ s'.journal?.isSome = s.journal?.isSome)
    (open? : Option (Writer × Draft)) (connections : List String) :
    ofStore s' open? connections = ofStore s open? connections := by
  obtain ⟨hcurrent, hnamespaces, hoptions, hjournal⟩ := hframe
  have hstatements : s'.latest.statements = s.latest.statements := by
    unfold Store.latest
    rw [hcurrent]
    exact hk.statements hr
  unfold ofStore View.content
  rw [hstatements, hcurrent, hnamespaces, hoptions, hjournal]

namespace Session.Shows

variable {session session' : Session} {l : Ledger}

theorem sound (h : session.Shows l) : session.state.Sound := by
  cases h with
  | idle hstate hs _ =>
    rw [hstate]
    exact hs
  | writing hstate ht _ _ =>
    rw [hstate]
    exact ⟨_, ht⟩

/-- No quad is shown twice. -/
theorem distinct (h : session.Shows l) : l.Distinct := by
  cases h with
  | @idle s hstate hs hl =>
    rw [hl]
    refine ⟨?_, fun w d hd => by simp [Ledger.ofStore] at hd⟩
    show (s.latest.statements.map (·.quad)).Nodup
    rw [← hs.statements_begin]
    exact Transaction.Sound.nodup_statements hs
  | @writing w t s hstate ht _ hl =>
    rw [hl]
    refine ⟨?_, fun w' d hd => ?_⟩
    · show (s.latest.statements.map (·.quad)).Nodup
      rw [← ht.base.statements_begin]
      exact Transaction.Sound.nodup_statements ht.base
    · rw [← (Prod.mk.inj (Option.some.inj hd)).2]
      exact ht.sound.nodup_statements

/-- Readers that come and go do not concern the ledger. -/
theorem repins (h : session.Shows l) (hr : session.state.Repins session'.state)
    (hc : session'.connections = session.connections) : session'.Shows l := by
  cases h with
  | @idle s hstate hs hl =>
    rw [hstate] at hr
    cases hstate' : session'.state with
    | closed file =>
      rw [hstate'] at hr
      cases hr
    | writing w t =>
      rw [hstate'] at hr
      cases hr
    | idle s' =>
      rw [hstate'] at hr
      cases hr with
      | idle hr =>
        obtain ⟨pins, rfl, -⟩ := hr.frame hs.pinned
        refine .idle hstate' (hs.repins hr) ?_
        rw [hl, hc]
        rfl
  | @writing w t s hstate ht hrecords hl =>
    rw [hstate] at hr
    cases hstate' : session'.state with
    | closed file =>
      rw [hstate'] at hr
      cases hr
    | idle s' =>
      rw [hstate'] at hr
      cases hr
    | writing w' t' =>
      rw [hstate'] at hr
      cases hr with
      | writing hr =>
        obtain ⟨pins, rfl, hpins⟩ := hr.frame ht.sound.pinned
        refine .writing hstate' (ht.pin (by rw [← ht.frame.1]; exact hpins))
          (hrecords.congr rfl rfl rfl) ?_
        rw [hl, hc]
        rfl

end Session.Shows

/-! ## The end of a transaction -/

namespace Transaction

variable {t : Transaction} {s : Store}

/-- A rollback leads back to what the transaction began with. -/
theorem Since.ofStore_rollback (h : t.Since s) (open? : Option (Writer × Draft))
    (connections : List String) :
    Ledger.ofStore t.rollback open? connections = Ledger.ofStore s open? connections := by
  obtain ⟨hcurrent, hnamespaces, hjournal, hoptions⟩ := h.frame
  obtain ⟨index, live, garbage, hframe⟩ := Since.frame_rollback t
  have hkeeps := (h.keeps s.current (Nat.le_refl _)).trans
    (h.keeps_rollback (.inl hcurrent.symm))
  refine Ledger.ofStore_eq hkeeps h.base.readable ?_ open? connections
  rw [hframe]
  exact ⟨hcurrent, hnamespaces, hoptions, by rw [← hjournal]⟩

/-- A commit makes the content of the transaction the committed one and counts one up, or it fails
as the record is too long and everything is as before. -/
theorem Since.commit_cases (h : t.Since s) (hbelow : t.commit.2.current < Stamp.pending)
    (connections : List String) :
    (t.commit.1 = .ok (s.current + 1) ∧ t.commit.2.Sound ∧
      Ledger.ofStore t.commit.2 none connections =
        { Ledger.ofStore s none connections with
          committed := t.content, number := s.current + 1 }) ∨
      (t.commit.1 = .error .tooLong ∧ t.commit.2.Sound ∧
        Ledger.ofStore t.commit.2 none connections = Ledger.ofStore s none connections) := by
  obtain ⟨hcurrent, hnamespaces, hjournal, hoptions⟩ := h.frame
  have hnext := Stamp.next_eq h.sound.below
  rcases journalAfter_cases h.sound.readable (Stamp.next t.store.current) with
    ⟨journal?, hok, hsome⟩ | ⟨herror, -, -⟩
  · left
    have ht := h.sound.withJournal journal?
    have hnew := h.sound.current_lt_next
    obtain ⟨index, garbage, hpublish⟩ := Transaction.frame_publish
      { t with store := { t.store with journal? := journal? } } (Stamp.next t.store.current)
    rw [commit_of_ok hok] at hbelow ⊢
    have hstamp : Stamp.next t.store.current < Stamp.pending := by
      rw [current_publish] at hbelow
      exact hbelow
    have hstatements := ht.statements_publish hnew hstamp
    refine ⟨by rw [hnext, hcurrent], ht.publish hnew hstamp, ?_⟩
    unfold Ledger.ofStore Store.latest View.content
    rw [Ledger.mk.injEq, Content.mk.injEq]
    refine ⟨⟨?_, ?_⟩, ?_, rfl, rfl, ?_, ?_⟩ <;> dsimp only
    · rw [show (publish _ _).current = Stamp.next t.store.current by rw [hpublish], hstatements]
      rfl
    · rw [hpublish]
      rfl
    · rw [hpublish, hnext, hcurrent]
    · rw [hpublish]
      exact congrArg StoreOptions.deadline hoptions
    · rw [hpublish, ← hjournal]
      exact hsome
  · right
    rw [commit_of_error herror]
    exact ⟨rfl, h.rollback, h.ofStore_rollback none connections⟩

/-- The ledger tells by the draft whether a commit fails. -/
theorem Since.overflows_iff (h : t.Since s) (open? : Option (Writer × Draft))
    (connections : List String) :
    (Ledger.ofStore s open? connections).Overflows t.draft ↔ t.commit.1 = .error .tooLong := by
  obtain ⟨hcurrent, -, hjournal, -⟩ := h.frame
  rw [h.sound.commit_eq_error_iff, Stamp.next_eq h.sound.below, hcurrent, hjournal,
    ← t.operations_draft]
  exact (and_iff_right rfl).symm

/-- The end of a transaction is the same for the session and for the ledger, whatever is answered
to its success. -/
theorem Since.finish {α : Type} {l : Ledger} (ht : t.Since s) {connections : List String}
    {open? : Option (Writer × Draft)} (hl : l = .ofStore s open? connections)
    (hbelow : t.commit.2.current < Stamp.pending) (f : α → Answer) {a : α}
    {result : Except StoreError α} (hok : t.commit.1 = .ok (s.current + 1) → result = .ok a)
    (herror : t.commit.1 = .error .tooLong → result = .error .tooLong) :
    Session.answer .store f result = (l.finish t.draft (f a)).1 ∧
      t.commit.2.Sound ∧
        Ledger.ofStore t.commit.2 none connections = (l.finish t.draft (f a)).2 := by
  -- the ledger refuses the draft exactly if the store could not write the record
  have hoverflows := ht.overflows_iff open? connections
  rw [hl]
  unfold Ledger.finish
  rcases ht.commit_cases hbelow connections with
    ⟨hcommit, hsound, hledger⟩ | ⟨hcommit, hsound, hledger⟩
  · have hfits : ¬ (Ledger.ofStore s open? connections).Overflows t.draft := by
      rw [hoverflows, hcommit]
      exact nofun
    rw [hok hcommit, hledger, if_neg hfits]
    exact ⟨rfl, hsound, rfl⟩
  · rw [herror hcommit, hledger, if_pos (hoverflows.2 hcommit)]
    exact ⟨rfl, hsound, rfl⟩

end Transaction

/-! ## Steps -/

namespace Session.Shows

variable {session : Session} {l : Ledger}

theorem connections_eq (h : session.Shows l) : l.connections = session.connections := by
  cases h with
  | idle _ _ hl => rw [hl]; rfl
  | writing _ _ _ hl => rw [hl]; rfl

theorem knows_eq (h : session.Shows l) (w : Writer) : l.knows w = session.knows w := by
  cases w with
  | transaction => rfl
  | connection name => exact congrArg (·.contains name) h.connections_eq

/-- The open transaction amounts to the draft that the ledger has for it. -/
theorem working?_eq (h : session.Shows l) (w : Writer) :
    l.working? w = (session.transactionOf? w).map Transaction.draft := by
  unfold Ledger.working? transactionOf?
  cases h with
  | idle hstate _ hl => rw [hstate, hl]; rfl
  | @writing holder t _ hstate _ _ hl =>
    rw [hstate, hl]
    show (if holder = w then some t.draft else none) = Option.map _ (if holder = w then _ else _)
    split <;> rfl

theorem idleFailure_eq (h : session.Shows l) (w : Writer) :
    session.idleFailure w = l.idleFailure w := by
  have hopen : session.store?.isNone = false := by
    unfold Session.store?
    cases h with
    | idle hstate _ _ => rw [hstate]; rfl
    | writing hstate _ _ _ => rw [hstate]; rfl
  unfold idleFailure Ledger.idleFailure
  rw [hopen, h.connections_eq]
  cases w <;> rfl

/-- An open transaction can go back to the committed content of the ledger. -/
theorem exists_since (h : session.Shows l) {w : Writer} {t : Transaction}
    (ht : session.transactionOf? w = some t) :
    ∃ s, t.Since s ∧ t.Records ∧ l = .ofStore s (some (w, t.draft)) session.connections := by
  rw [transactionOf?_eq_some_iff] at ht
  cases h with
  | idle hstate _ _ =>
    rw [hstate] at ht
    simp at ht
  | writing hstate hsince hrecords hl =>
    rw [hstate] at ht
    obtain ⟨rfl, rfl⟩ := SessionState.writing.inj ht
    exact ⟨_, hsince, hrecords, hl⟩

/-- A transaction that has just begun amounts to the committed content. -/
theorem draft_begin {s : Store} (hs : s.Sound) :
    s.begin.draft = .ofContent (s.latest.content s.namespaces) := by
  unfold Transaction.draft Transaction.content View.content
  rw [hs.statements_begin]
  rfl

theorem begin (h : session.Shows l) (w : Writer) :
    (session.begin w).1 = (l.begin w).1 ∧ (session.begin w).2.Shows (l.begin w).2 := by
  unfold Session.begin Ledger.begin
  rw [h.knows_eq]
  cases h with
  | @idle s hstate hs hl =>
    rw [hstate]
    dsimp only
    rw [show l.open? = none by rw [hl]; rfl]
    dsimp only
    split
    · refine ⟨rfl, .writing rfl (.begin hs) (.begin hs) ?_⟩
      rw [hl, draft_begin hs]
      rfl
    · exact ⟨rfl, .idle hstate hs hl⟩
  | @writing holder t s hstate ht hrecords hl =>
    rw [hstate]
    dsimp only
    rw [show l.open? = some (holder, t.draft) by rw [hl]; rfl]
    dsimp only
    split
    · exact ⟨rfl, .writing hstate ht hrecords hl⟩
    · split
      · exact ⟨rfl, .writing hstate ht hrecords hl⟩
      · exact ⟨rfl, .writing hstate ht hrecords hl⟩

theorem rollback (h : session.Shows l) (w : Writer) :
    (session.rollback w).1 = (l.rollback w).1 ∧
      (session.rollback w).2.Shows (l.rollback w).2 := by
  unfold Session.rollback withTransaction Ledger.rollback
  rw [h.working?_eq]
  cases ht : session.transactionOf? w with
  | none => exact ⟨congrArg Answer.failed (h.idleFailure_eq w), h⟩
  | some t =>
    obtain ⟨s, hsince, -, hl⟩ := h.exists_since ht
    refine ⟨rfl, .idle rfl hsince.rollback ?_⟩
    rw [hsince.ofStore_rollback, hl]
    rfl

/-- The connections are kept by name alone. -/
theorem setConnections (h : session.Shows l) (connections : List String) :
    Shows { session with connections := connections } { l with connections := connections } := by
  cases h with
  | idle hstate hs hl =>
    refine .idle hstate hs ?_
    rw [hl]
    rfl
  | writing hstate ht hrecords hl =>
    refine .writing hstate ht hrecords ?_
    rw [hl]
    rfl

theorem disconnect (h : session.Shows l) (name : String) :
    (session.disconnect name).Shows (l.disconnect name) := by
  have hrollback := (h.rollback (.connection name)).2
  have hset := hrollback.setConnections
    ((session.rollback (.connection name)).2.connections.filter (· != name))
  unfold Ledger.disconnect
  dsimp only
  rw [hrollback.connections_eq]
  exact hset

theorem connect (h : session.Shows l) (name : String) :
    (session.connect name).Shows (l.connect name) := by
  have hdisconnect := h.disconnect name
  have hset := hdisconnect.setConnections ((session.disconnect name).connections ++ [name])
  unfold Ledger.connect
  dsimp only
  rw [hdisconnect.connections_eq]
  exact hset

theorem write (h : session.Shows l) (w : Writer) (change : Write) :
    (session.write w change).1 = (l.write w change).1 ∧
      (session.write w change).2.Shows (l.write w change).2 := by
  unfold Session.write withTransaction Ledger.write
  rw [h.working?_eq]
  cases ht : session.transactionOf? w with
  | none => exact ⟨congrArg Answer.failed (h.idleFailure_eq w), h⟩
  | some t =>
    obtain ⟨s, hsince, hrecords, hl⟩ := h.exists_since ht
    have hstages := (Transaction.stage_eq hsince.sound change).2.2
    obtain ⟨hanswer, hdraft⟩ := Transaction.stage_draft hsince.sound hrecords change
    refine ⟨hanswer, .writing rfl (hsince.stages hstages)
      (hstages.records hsince.sound hrecords) ?_⟩
    rw [hl, hdraft]
    rfl

theorem commit (h : session.Shows l) (w : Writer)
    (hbelow : (session.commit w).2.state.Below) :
    (session.commit w).1 = (l.commit w).1 ∧ (session.commit w).2.Shows (l.commit w).2 := by
  unfold Session.commit withTransaction at hbelow ⊢
  unfold Ledger.commit
  rw [h.working?_eq]
  cases ht : session.transactionOf? w with
  | none => exact ⟨congrArg Answer.failed (h.idleFailure_eq w), h⟩
  | some t =>
    rw [ht] at hbelow
    obtain ⟨s, hsince, -, hl⟩ := h.exists_since ht
    have hnumber : l.number = s.current := by
      rw [hl]
      rfl
    obtain ⟨hanswer, hsound, hledger⟩ := hsince.finish hl (hbelow _ rfl) Answer.number id id
    dsimp only [Option.map_some]
    rw [hnumber]
    exact ⟨hanswer, .idle rfl hsound hledger.symm⟩

/-- A step of its own is a transaction with one change. -/
theorem atOnce {α : Type} (h : session.Shows l) (stage : Transaction → α × Transaction)
    (change : Draft → Answer × Draft) {f : α → Answer}
    (hstage : ∀ t : Transaction, t.Sound → t.Records → t.Stages (stage t).2 ∧
      f (stage t).1 = (change t.draft).1 ∧ (stage t).2.draft = (change t.draft).2)
    {result : Answer × Session}
    (hresult : result = session.withIdle fun s =>
      (Session.answer .store f (Store.committing (stage s.begin)).1,
        (Store.committing (stage s.begin)).2))
    (hbelow : result.2.state.Below) :
    result.1 = (l.atOnce change).1 ∧ result.2.Shows (l.atOnce change).2 := by
  unfold withIdle at hresult
  unfold Ledger.atOnce
  cases h with
  | @writing w t s hstate ht hrecords hl =>
    rw [hstate] at hresult
    rw [show l.open?.isSome = true by rw [hl]; rfl, hresult]
    exact ⟨rfl, .writing hstate ht hrecords hl⟩
  | @idle s hstate hs hl =>
    rw [hstate] at hresult
    -- the change is made in a transaction that has recorded nothing before
    obtain ⟨hstages, hanswer, hdraft⟩ := hstage s.begin hs (.begin hs)
    have hsince := (Transaction.Since.begin hs).stages hstages
    have hcommitted : s.begin.draft = .ofContent l.committed := by
      rw [hl]
      exact draft_begin hs
    replace hresult : result = (Session.answer .store f
        ((stage s.begin).2.commit.1.map fun _ => (stage s.begin).1),
          { session with state := .idle (stage s.begin).2.commit.2 }) := by
      rw [hresult]
      dsimp only
      rw [committing_eq]
    rw [hresult] at hbelow
    have hok : (stage s.begin).2.commit.1 = .ok (s.current + 1) →
        (stage s.begin).2.commit.1.map (fun _ => (stage s.begin).1) = .ok (stage s.begin).1 := by
      intro h
      rw [h]
      rfl
    have herror : (stage s.begin).2.commit.1 = .error .tooLong →
        (stage s.begin).2.commit.1.map (fun _ => (stage s.begin).1) = .error .tooLong := by
      intro h
      rw [h]
      rfl
    obtain ⟨hend, hsound, hledger⟩ := hsince.finish hl (hbelow _ rfl) f hok herror
    rw [show l.open?.isSome = false by rw [hl]; rfl, ← hcommitted, hresult]
    dsimp only
    rw [← hanswer, ← hdraft]
    exact ⟨hend, .idle rfl hsound hledger.symm⟩

/-! ## Reads -/

/-- The latest snapshot shows the committed content, whether or not a transaction is open. -/
theorem exists_store (h : session.Shows l) : ∃ s, session.store? = some s ∧ s.Readable ∧
    s.latest.content s.namespaces = l.committed ∧ s.current = l.number ∧
      s.options.deadline = l.deadline := by
  unfold Session.store?
  cases h with
  | @idle s hstate hs hl =>
    rw [hstate, hl]
    exact ⟨s, rfl, hs.readable, rfl, rfl, rfl⟩
  | @writing w t s hstate ht _ hl =>
    obtain ⟨hcurrent, hnamespaces, -, hoptions⟩ := ht.frame
    have hstatements := (ht.keeps s.current (Nat.le_refl _)).statements ht.base.readable
    rw [hstate, hl]
    refine ⟨t.store, rfl, ht.sound.readable, ?_, hcurrent, congrArg StoreOptions.deadline hoptions⟩
    unfold Store.latest View.content Ledger.ofStore
    rw [hcurrent, hstatements, hnamespaces]
    rfl

/-- A read of the latest snapshot is answered from the committed content. -/
theorem readStore_eq (h : session.Shows l) {s : Store} (hs : session.store? = some s)
    (read : Read) : readStore s s.current read = l.committed.read l.number l.deadline read := by
  obtain ⟨s', hs', hr, hcontent, hnumber, hdeadline⟩ := h.exists_store
  rw [hs] at hs'
  rw [← Option.some.inj hs'] at hr hcontent hnumber hdeadline
  rw [← hcontent, ← hnumber, ← hdeadline]
  exact View.readAt_eq (v := s.latest) _ hr (View.size_eq hr) read

/-- A read within the open transaction is answered from its content. -/
theorem readTransaction_eq (h : session.Shows l) {w : Writer} {t : Transaction}
    (ht : session.transactionOf? w = some t) (read : Read) :
    readTransaction t read = t.content.read Stamp.pending l.deadline read := by
  obtain ⟨s, hsince, -, hl⟩ := h.exists_since ht
  rw [Transaction.readTransaction_eq hsince.sound, hsince.frame.2.2.2, hl]
  rfl

theorem read_eq (h : session.Shows l) (reader : Reader) (read : Read) {expected : Answer}
    (hexpected : l.read reader read = some expected) : session.read reader read = expected := by
  obtain ⟨s, hs, -⟩ := h.exists_store
  unfold Session.read
  rw [hs]
  cases reader with
  | snapshot name => simp [Ledger.read] at hexpected
  | writer w =>
    cases w with
    | transaction =>
      simp only [Ledger.read, h.working?_eq] at hexpected
      dsimp only
      cases ht : session.transactionOf? .transaction with
      | none =>
        rw [ht] at hexpected
        exact Option.some.inj hexpected
      | some t =>
        rw [ht] at hexpected
        rw [← Option.some.inj hexpected]
        exact h.readTransaction_eq ht read
    | connection name =>
      simp only [Ledger.read, h.working?_eq, h.knows_eq] at hexpected
      dsimp only
      split at hexpected
      · rename_i hunknown
        rw [if_pos hunknown]
        exact Option.some.inj hexpected
      · rename_i hknown
        rw [if_neg hknown]
        cases ht : session.transactionOf? (.connection name) with
        | none =>
          rw [ht] at hexpected
          rw [← Option.some.inj hexpected]
          exact h.readStore_eq hs _
        | some t =>
          rw [ht] at hexpected
          rw [← Option.some.inj hexpected]
          exact h.readTransaction_eq ht _

end Session.Shows

/-! ## Runs -/

namespace Session

variable {session : Session} {l : Ledger}

/-- A session and a ledger agree about a step: the answer is the one that the ledger gives, if it
gives one, and the session amounts to the ledger afterwards. -/
def Agrees (l : Ledger) (step : Step) (result : Answer × Session) : Prop :=
  (∀ expected, (l.step step).1 = some expected → result.1 = expected) ∧
    result.2.Shows (l.step step).2

/-- Where the ledger gives an answer, it has to be the one that is given. -/
theorem agrees_of_eq {step : Step} {result : Answer × Session} {r : Answer × Ledger}
    (hstep : l.step step = r.map some id) (h : result.1 = r.1 ∧ result.2.Shows r.2) :
    Agrees l step result := by
  unfold Agrees
  rw [hstep]
  exact ⟨fun _ hexpected => h.1.trans (Option.some.inj hexpected), h.2⟩

/-- Readers that come and go leave the ledger as it is. -/
theorem agrees_of_repins {step : Step} {result : Answer × Session} (h : session.Shows l)
    (hstep : (l.step step).2 = l)
    (hanswer : ∀ expected, (l.step step).1 = some expected → result.1 = expected)
    (hr : session.state.Repins result.2.state)
    (hc : result.2.connections = session.connections) : Agrees l step result := by
  unfold Agrees
  rw [hstep]
  exact ⟨hanswer, h.repins hr hc⟩

theorem connections_mapStore (f : Store → Store) :
    (session.mapStore f).connections = session.connections := by
  unfold mapStore
  split <;> rfl

theorem connections_dropSnapshot (name : String) :
    (session.dropSnapshot name).connections = session.connections := by
  unfold dropSnapshot
  split
  · rfl
  · exact connections_mapStore _

theorem connections_takeSnapshot (name : String) (source? : Option String) :
    (session.takeSnapshot name source?).2.connections = session.connections := by
  unfold takeSnapshot
  split
  · rfl
  · split
    · exact (connections_dropSnapshot name).trans (connections_mapStore _)
    · split
      · rfl
      · exact (connections_dropSnapshot name).trans (connections_mapStore _)

theorem connections_dropCursor (name : String) :
    (session.dropCursor name).connections = session.connections := by
  unfold dropCursor
  split
  · rfl
  · exact connections_mapStore _

theorem connections_openQuads (name : String) (q : QuadQuery) (inferred : Bool)
    (snapshot? : Option String) :
    (session.openQuads name q inferred snapshot?).2.connections = session.connections := by
  unfold openQuads
  split
  · rfl
  · split
    · exact (connections_dropCursor name).trans (connections_mapStore _)
    · split
      · rfl
      · exact (connections_dropCursor name).trans (connections_mapStore _)

theorem connections_openRows (name : String) (pattern : GraphPattern) (bindings : BindingSet)
    (inferred : Bool) (source : String) :
    (session.openRows name pattern bindings inferred source).2.connections =
      session.connections := by
  unfold openRows
  split
  · rfl
  · split
    · rfl
    · split
      · rfl
      · exact (connections_dropCursor name).trans (connections_mapStore _)

theorem connections_withCursor (name : String)
    (f : Store → OpenCursor → Answer × OpenCursor × Store) :
    (session.withCursor name f).2.connections = session.connections := by
  unfold withCursor
  split
  · rfl
  · split
    · rfl
    · exact connections_mapStore _

/-- A new snapshot has the number of the latest one. -/
theorem takeSnapshot_answer (h : session.Shows l) (name : String) :
    (session.takeSnapshot name none).1 = .number l.number := by
  obtain ⟨s, hs, -, -, hnumber, -⟩ := h.exists_store
  unfold takeSnapshot
  rw [hs, ← hnumber]
  rfl

/-- What is done to the idle store without changing its content does not concern the ledger. -/
theorem Shows.withIdle (h : session.Shows l) {f : Store → Answer × Store}
    (hf : ∀ s : Store, s.Sound → (f s).2.Sound ∧ ∀ connections,
      Ledger.ofStore (f s).2 none connections = Ledger.ofStore s none connections) :
    (session.withIdle f).2.Shows l := by
  unfold Session.withIdle
  cases h with
  | @writing w t s hstate ht hrecords hl =>
    rw [hstate]
    exact .writing hstate ht hrecords hl
  | @idle s hstate hs hl =>
    rw [hstate]
    obtain ⟨hsound, hledger⟩ := hf s hs
    exact .idle rfl hsound (hl.trans (hledger session.connections).symm)

theorem ofStore_collect {s : Store} (h : s.Sound) (connections : List String) :
    Ledger.ofStore s.collect.2 none connections = Ledger.ofStore s none connections :=
  Ledger.ofStore_eq (h.keeps_collect s.protects_current) h.readable ⟨rfl, rfl, rfl, rfl⟩ none
    connections

theorem ofStore_compact {s : Store} (h : s.Sound) (connections : List String) :
    Ledger.ofStore s.compact.2 none connections = Ledger.ofStore s none connections := by
  obtain ⟨journal?, hcompact, hsome⟩ := s.frame_compact
  have hkeeps := h.keeps_collect s.protects_current
  have hsame : s.Keeps s.current { s.collect.2 with journal? := journal? } :=
    ⟨hkeeps.dictionary, hkeeps.visible⟩
  rw [hcompact]
  exact Ledger.ofStore_eq hsame h.readable ⟨rfl, rfl, rfl, hsome⟩ none connections

/-- Inserting quads one after the other is asserting them in the draft. -/
theorem draft_insertAll {t : Transaction} (h : t.Sound) (hr : t.Records) (quads : List Quad) :
    (quads.foldl (fun t q => (t.insert q true).2) t).draft = t.draft.assertAll quads := by
  induction quads generalizing t with
  | nil => rfl
  | cons q rest ih =>
    have hstages := Transaction.stages_insert h q true
    rw [List.foldl_cons, ih (hstages.sound h) (hstages.records h hr),
      Transaction.draft_insert h hr q true]
    rfl

/-- A session that stays open and its ledger agree about every step. -/
theorem step_agrees (h : session.Shows l) {step : Step} (hopen : step.keepsOpen = true)
    (hbelow : (session.step step).2.state.Below) : Agrees l step (session.step step) := by
  obtain ⟨s, hs, -⟩ := h.exists_store
  have hsome : session.store?.isNone = false := by
    rw [hs]
    rfl
  -- a step that the ledger does not know of moves readers, or deletes what nobody reads
  cases step with
  | reopen edit options => exact absurd hopen Bool.false_ne_true
  | takeSnapshot name source? =>
    refine agrees_of_repins h ?_ ?_ (repins_takeSnapshot name source?)
      (connections_takeSnapshot name source?)
    · cases source? <;> rfl
    · intro expected hexpected
      cases source? with
      | none =>
        rw [← Option.some.inj hexpected]
        exact takeSnapshot_answer h name
      | some source => simp [Ledger.step] at hexpected
  | dropSnapshot name =>
    unfold Session.step
    dsimp only
    rw [hsome]
    exact agrees_of_repins h rfl (by simp [Ledger.step]) (repins_dropSnapshot name)
      (connections_dropSnapshot name)
  | connect name =>
    unfold Session.step
    dsimp only
    rw [hsome]
    exact ⟨fun expected hexpected => Option.some.inj hexpected, h.connect name⟩
  | disconnect name =>
    unfold Session.step
    dsimp only
    rw [hsome]
    refine ⟨fun expected hexpected => ?_, h.disconnect name⟩
    rw [← Option.some.inj hexpected, h.connections_eq]
    rfl
  | stats | options | file | files | openAgain => exact ⟨by simp [Ledger.step], h⟩
  | insert q =>
    exact agrees_of_eq rfl (h.atOnce (·.insert q true) (·.write (.insert q true)) (fun t ht hr =>
      ⟨Transaction.stages_insert ht q true, Transaction.stage_draft ht hr (.insert q true)⟩) rfl
      hbelow)
  | remove q =>
    exact agrees_of_eq rfl (h.atOnce (·.remove q true) (·.write (.remove q)) (fun t ht hr =>
      ⟨Transaction.stages_remove ht q true, Transaction.stage_draft ht hr (.remove q)⟩) rfl hbelow)
  | extend quads =>
    exact agrees_of_eq rfl (h.atOnce (f := fun _ => Answer.done)
      (fun t => ((), quads.foldl (fun t q => (t.insert q true).2) t))
      (fun d => (.done, d.assertAll quads))
      (fun t ht hr => ⟨stages_insertAll ht quads, rfl, draft_insertAll ht hr quads⟩) rfl hbelow)
  | collect =>
    exact ⟨by simp [Ledger.step], h.withIdle fun s hs => ⟨hs.collect, ofStore_collect hs⟩⟩
  | compact =>
    exact ⟨by simp [Ledger.step], h.withIdle fun s hs => ⟨hs.compact, ofStore_compact hs⟩⟩
  | validate => exact ⟨by simp [Ledger.step], h.withIdle fun s hs => ⟨hs, fun _ => rfl⟩⟩
  | latest read =>
    refine ⟨fun expected hexpected => ?_, h⟩
    rw [← Option.some.inj hexpected]
    show ((session.store?.map fun s => readStore s s.current read).getD (.failed .closed)) = _
    rw [hs]
    exact h.readStore_eq hs read
  | read reader read => exact ⟨fun expected hexpected => h.read_eq reader read hexpected, h⟩
  | begin w => exact agrees_of_eq rfl (h.begin w)
  | commit w => exact agrees_of_eq rfl (h.commit w hbelow)
  | rollback w => exact agrees_of_eq rfl (h.rollback w)
  | write w change => exact agrees_of_eq rfl (h.write w change)
  | isActive name =>
    refine ⟨fun expected hexpected => ?_, h⟩
    rw [← Option.some.inj hexpected]
    show ((session.store?.map fun _ => _).getD (Answer.failed .closed)) = _
    rw [hs, h.knows_eq, h.working?_eq, Option.isSome_map]
    rfl
  | openQuads name q inferred snapshot? =>
    exact agrees_of_repins h rfl (by simp [Ledger.step])
      (repins_openQuads name q inferred snapshot?) (connections_openQuads name q inferred snapshot?)
  | openRows name pattern bindings inferred snapshot =>
    exact agrees_of_repins h rfl (by simp [Ledger.step])
      (repins_openRows name pattern bindings inferred snapshot)
      (connections_openRows name pattern bindings inferred snapshot)
  | next name count =>
    exact agrees_of_repins h rfl (by simp [Ledger.step]) (repins_next name count)
      (connections_withCursor name _)
  | close name =>
    exact agrees_of_repins h rfl (by simp [Ledger.step]) (repins_close name)
      (connections_withCursor name _)
  | dropCursor name =>
    unfold Session.step
    dsimp only
    rw [hsome]
    exact agrees_of_repins h rfl (by simp [Ledger.step]) (repins_dropCursor name)
      (connections_dropCursor name)

/-- Every answer of a session that stays open is the one that its ledger gives. -/
theorem Shows.follows (h : session.Shows l) {steps : List Step} (hruns : session.Runs steps) :
    l.Follows (steps.zip (session.run steps)) := by
  induction steps generalizing session l with
  | nil => exact h.distinct
  | cons step rest ih =>
    obtain ⟨hanswer, hshows⟩ := step_agrees h hruns.2.1 hruns.below_step
    exact ⟨h.distinct, hanswer, ih hshows hruns.2.2⟩

/-- Whatever store a session begins with, every answer about transactions, their changes and what
they and the latest snapshot show is the one that a list of distinct quads would give, and a commit
fails exactly if a length does not fit into the record of what was done to the list. -/
theorem run_follows {file? : Option Bytes} {options : StoreOptions} {s : Store}
    (hstart : (start file? options).2.state = .idle s) {steps : List Step}
    (hruns : (start file? options).2.Runs steps) :
    (Ledger.ofStore s none []).Follows (steps.zip ((start file? options).2.run steps)) := by
  have hbelow := hruns.below
  rw [hstart] at hbelow
  have hconnections : (start file? options).2.connections = [] := by
    unfold start
    split
    · rfl
    · dsimp only
      split <;> rfl
  refine Shows.follows (.idle hstart (sound_start hstart hbelow.idle).1 ?_) hruns
  rw [hconnections]

/-- A quad that is inferred, then asserted, and counted once. -/
theorem run_follows_asserted :
    (start none {}).2.state = .idle (.empty {}) ∧
      (start none {}).2.Runs [.begin .transaction,
        .write .transaction (.insert ⟨.iri ⟨"s"⟩, ⟨"p"⟩, .iri ⟨"o"⟩, .default⟩ false),
        .write .transaction (.insert ⟨.iri ⟨"s"⟩, ⟨"p"⟩, .iri ⟨"o"⟩, .default⟩ true),
        .commit .transaction, .latest .size] ∧
      (Ledger.ofStore (.empty {}) none []).Follows ([.begin .transaction,
        .write .transaction (.insert ⟨.iri ⟨"s"⟩, ⟨"p"⟩, .iri ⟨"o"⟩, .default⟩ false),
        .write .transaction (.insert ⟨.iri ⟨"s"⟩, ⟨"p"⟩, .iri ⟨"o"⟩, .default⟩ true),
        .commit .transaction, .latest .size].zip ((start none {}).2.run [.begin .transaction,
          .write .transaction (.insert ⟨.iri ⟨"s"⟩, ⟨"p"⟩, .iri ⟨"o"⟩, .default⟩ false),
          .write .transaction (.insert ⟨.iri ⟨"s"⟩, ⟨"p"⟩, .iri ⟨"o"⟩, .default⟩ true),
          .commit .transaction, .latest .size])) := by
  have hruns : (start none {}).2.Runs [.begin .transaction,
      .write .transaction (.insert ⟨.iri ⟨"s"⟩, ⟨"p"⟩, .iri ⟨"o"⟩, .default⟩ false),
      .write .transaction (.insert ⟨.iri ⟨"s"⟩, ⟨"p"⟩, .iri ⟨"o"⟩, .default⟩ true),
      .commit .transaction, .latest .size] := by
    have hempty : (start none {}).2.state.Sound := Store.sound_empty {}
    exact runs_of_length hempty (n := 0) rfl (by simp [Step.keepsOpen]) (by decide)
  exact ⟨rfl, hruns, run_follows rfl hruns⟩

end Session
end QuadStore
