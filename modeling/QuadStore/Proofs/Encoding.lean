import QuadStore.Journal.Frames
import QuadStore.Proofs.Lists

/-!
# Records and their bytes

A record that can be written is read back from its bytes. `ByteReader.Reads` says that a reader
reads a value from exactly some bytes, whatever follows them; readers that are put together read
what is written one after the other. A journal is read back as the records of its frames.
-/

namespace QuadStore

/-! ## Numbers -/

namespace Bytes

theorem length_ofNat (width n : Nat) : (ofNat width n).length = width := by
  induction width generalizing n with
  | zero => rfl
  | succ width ih =>
    rw [ofNat, List.length_append, ih]
    rfl

/-- A number is read back from its bytes if these are enough. -/
theorem toNat_ofNat (width : Nat) {n : Nat} (h : n < 256 ^ width) : toNat (ofNat width n) = n := by
  induction width generalizing n with
  | zero =>
    rw [Nat.pow_zero] at h
    show 0 = n
    omega
  | succ width ih =>
    have hdiv : n / 256 < 256 ^ width := by
      rw [Nat.pow_succ] at h
      exact Nat.div_lt_of_lt_mul (by omega)
    have hfirst := ih hdiv
    unfold toNat at hfirst ⊢
    rw [ofNat, List.foldl_append, hfirst]
    show 256 * (n / 256) + (UInt8.ofNat n).toNat = n
    have hlast : (UInt8.ofNat n).toNat = n % 256 := UInt8.toNat_ofNat'
    omega

theorem ofLength?_eq_some_iff {n : Nat} {bytes : Bytes} :
    ofLength? n = some bytes ↔ n < 2 ^ 32 ∧ bytes = ofNat 4 n := by
  unfold ofLength?
  rw [Option.ite_none_right_eq_some, Option.some.injEq, eq_comm (b := bytes)]
  exact Iff.rfl

end Bytes

/-! ## Readers -/

namespace ByteReader

variable {α β : Type}

/-- A reader reads a value from exactly some bytes, whatever follows them. -/
def Reads (p : ByteReader α) (bytes : Bytes) (a : α) : Prop :=
  ∀ rest, p (bytes ++ rest) = .ok (a, rest)

theorem reads_pure (a : α) : Reads (pure a) [] a := fun _ => rfl

theorem Reads.bind {p : ByteReader α} {f : α → ByteReader β} {xs ys : Bytes} {a : α} {b : β}
    (hp : Reads p xs a) (hf : Reads (f a) ys b) : Reads (p >>= f) (xs ++ ys) b := by
  intro rest
  have hfirst := hp (ys ++ rest)
  rw [List.append_assoc]
  show (p (xs ++ (ys ++ rest)) >>= fun (a, rest) => f a rest) = _
  rw [hfirst]
  exact hf rest

/-- What is made of a value afterwards needs no bytes. -/
theorem Reads.map {p : ByteReader α} {f : α → ByteReader β} {xs : Bytes} {a : α} {b : β}
    (hp : Reads p xs a) (hf : Reads (f a) [] b) : Reads (p >>= f) xs b := by
  have hbind := hp.bind hf
  rw [List.append_nil] at hbind
  exact hbind

theorem reads_bytes (xs : Bytes) : Reads (bytes xs.length) xs xs := by
  intro rest
  have hle : xs.length ≤ (xs ++ rest).length := by
    rw [List.length_append]
    exact Nat.le_add_right _ _
  unfold bytes
  rw [if_pos hle, List.splitAt_eq, List.take_left, List.drop_left]

theorem reads_nat (width : Nat) {n : Nat} (h : n < 256 ^ width) :
    Reads (nat width) (Bytes.ofNat width n) n := by
  have hbytes := reads_bytes (Bytes.ofNat width n)
  rw [Bytes.length_ofNat] at hbytes
  refine hbytes.map ?_
  rw [Bytes.toNat_ofNat width h]
  exact reads_pure n

/-- A code is one byte. -/
theorem reads_code (b : UInt8) : Reads (nat 1) [b] b.toNat := by
  refine (reads_bytes [b]).map ?_
  have hvalue : Bytes.toNat [b] = b.toNat := by
    show 256 * 0 + b.toNat = b.toNat
    omega
  rw [hvalue]
  exact reads_pure _

theorem reads_bool (b : Bool) : Reads bool [Bytes.ofBool b] b := by
  refine (reads_code (Bytes.ofBool b)).map ?_
  cases b
  · exact reads_pure false
  · exact reads_pure true

theorem reads_text {s : String} {xs : Bytes} (h : Bytes.ofText? s = some xs) : Reads text xs s := by
  unfold Bytes.ofText? at h
  simp only [Option.bind_eq_bind, Option.pure_def, Option.bind_eq_some_iff, Option.some.injEq] at h
  obtain ⟨size, hsize, rfl⟩ := h
  obtain ⟨hlength, rfl⟩ := Bytes.ofLength?_eq_some_iff.1 hsize
  have hsize := reads_nat 4 (n := (Utf8.encode s).length) hlength
  refine hsize.bind ((reads_bytes (Utf8.encode s)).map ?_)
  rw [Utf8.decode_encode]
  exact reads_pure s

/-! ## Terms and quads -/

theorem reads_term? {t : Term} {xs : Bytes} (h : t.encode? = some xs) :
    Reads term? xs (some t) := by
  cases t with
  | iri i =>
    obtain ⟨ys, hys, h⟩ := Option.bind_eq_some_iff.1 h
    obtain rfl := Option.some.inj h
    exact (reads_code 1).bind ((reads_text hys).map (reads_pure _))
  | blank b =>
    obtain ⟨ys, hys, h⟩ := Option.bind_eq_some_iff.1 h
    obtain rfl := Option.some.inj h
    exact (reads_code 8).bind ((reads_text hys).map (reads_pure _))
  | literal l =>
    cases l with
    | simple v =>
      obtain ⟨ys, hys, h⟩ := Option.bind_eq_some_iff.1 h
      obtain rfl := Option.some.inj h
      exact (reads_code 16).bind ((reads_text hys).map (reads_pure _))
    | tagged v l =>
      obtain ⟨ys, hys, h⟩ := Option.bind_eq_some_iff.1 h
      obtain ⟨zs, hzs, h⟩ := Option.bind_eq_some_iff.1 h
      obtain rfl := Option.some.inj h
      exact (reads_code 20).bind ((reads_text hys).bind ((reads_text hzs).map (reads_pure _)))
    | typed v d own =>
      obtain ⟨ys, hys, h⟩ := Option.bind_eq_some_iff.1 h
      obtain ⟨zs, hzs, h⟩ := Option.bind_eq_some_iff.1 h
      obtain rfl := Option.some.inj h
      have htyped : Literal.ofTyped v d = .typed v d own := dif_pos own
      rw [← htyped]
      exact (reads_code 24).bind ((reads_text hys).bind ((reads_text hzs).map (reads_pure _)))

theorem reads_term {t : Term} {xs : Bytes} (h : t.encode? = some xs) : Reads term xs t :=
  (reads_term? h).map (reads_pure t)

theorem reads_quad {q : Quad} {xs : Bytes} (h : q.encode? = some xs) : Reads quad xs q := by
  obtain ⟨subject, predicate, object, graph⟩ := q
  simp only [Quad.encode?, Option.bind_eq_bind, Option.pure_def, Option.bind_eq_some_iff,
    Option.some.injEq] at h
  obtain ⟨ss, hs, ps, hp, os, ho, gs, hg, rfl⟩ := h
  have hsubject : Reads (asResource subject.toTerm) [] subject := by
    cases subject <;> exact reads_pure _
  have hpredicate : Reads (asIri (.iri predicate)) [] predicate := reads_pure predicate
  rw [List.append_assoc, List.append_assoc]
  refine (reads_term hs).bind ?_
  rw [← List.nil_append (ps ++ (os ++ gs))]
  refine hsubject.bind ((reads_term hp).bind ?_)
  rw [← List.nil_append (os ++ gs)]
  refine hpredicate.bind ((reads_term ho).bind ?_)
  cases graph with
  | iri i =>
    have hterm : (Term.iri i).encode? = some gs := hg
    exact (reads_term? hterm).map (reads_pure _)
  | blank b =>
    have hterm : (Term.blank b).encode? = some gs := hg
    exact (reads_term? hterm).map (reads_pure _)
  | default =>
    obtain rfl : [defaultGraphCode] = gs := Option.some.inj hg
    exact ((reads_code 0).map (reads_pure none)).map (reads_pure _)

/-! ## Records -/

theorem reads_operation {op : Operation} {xs : Bytes} (h : op.encode? = some xs) :
    Reads operation xs op := by
  cases op with
  | insert q explicit =>
    obtain ⟨ys, hys, h⟩ := Option.bind_eq_some_iff.1 h
    obtain rfl := Option.some.inj h
    exact (reads_code 1).bind ((reads_bool explicit).bind ((reads_quad hys).map (reads_pure _)))
  | remove q explicit =>
    obtain ⟨ys, hys, h⟩ := Option.bind_eq_some_iff.1 h
    obtain rfl := Option.some.inj h
    exact (reads_code 2).bind ((reads_bool explicit).bind ((reads_quad hys).map (reads_pure _)))
  | changeNamespaces change =>
    cases change with
    | set label space =>
      obtain ⟨ys, hys, h⟩ := Option.bind_eq_some_iff.1 h
      obtain ⟨zs, hzs, h⟩ := Option.bind_eq_some_iff.1 h
      obtain rfl := Option.some.inj h
      exact (reads_code 3).bind ((reads_text hys).bind ((reads_text hzs).map (reads_pure _)))
    | remove label =>
      obtain ⟨ys, hys, h⟩ := Option.bind_eq_some_iff.1 h
      obtain rfl := Option.some.inj h
      exact (reads_code 4).bind ((reads_text hys).map (reads_pure _))
    | clear =>
      obtain rfl : [5] = xs := Option.some.inj h
      exact (reads_code 5).map (reads_pure _)

theorem reads_operations {ops : List Operation} {xss : List Bytes}
    (h : ops.mapM Operation.encode? = some xss) :
    Reads (operations ops.length) xss.flatten ops := by
  induction ops generalizing xss with
  | nil =>
    obtain rfl : [] = xss := Option.some.inj h
    exact reads_pure []
  | cons op rest ih =>
    simp only [List.mapM_cons, Option.bind_eq_bind, Option.pure_def, Option.bind_eq_some_iff,
      Option.some.injEq] at h
    obtain ⟨xs, hxs, rests, hrests, rfl⟩ := h
    exact (reads_operation hxs).bind ((ih hrests).map (reads_pure _))

theorem reads_record {r : Record} (hsnapshot : r.snapshot < 2 ^ 64) {xs : Bytes}
    (h : r.encode? = some xs) : Reads record xs r := by
  simp only [Record.encode?, Option.bind_eq_bind, Option.pure_def, Option.bind_eq_some_iff,
    Option.some.injEq] at h
  obtain ⟨count, hcount, xss, hxss, rfl⟩ := h
  obtain ⟨hlength, rfl⟩ := Bytes.ofLength?_eq_some_iff.1 hcount
  have hfirst := reads_nat 8 (n := r.snapshot) hsnapshot
  have hcount := reads_nat 4 (n := r.operations.length) hlength
  rw [List.append_assoc]
  exact hfirst.bind (hcount.bind ((reads_operations hxss).map (reads_pure _)))

end ByteReader

/-- A record is read back from its bytes. -/
theorem Record.decode_encode? {r : Record} (hsnapshot : r.snapshot < 2 ^ 64) {bytes : Bytes}
    (h : r.encode? = some bytes) : decode bytes = .ok r := by
  have hreads := ByteReader.reads_record hsnapshot h []
  rw [List.append_nil] at hreads
  unfold decode
  show (ByteReader.record bytes >>= _) = _
  rw [hreads]
  rfl

/-! ## Frames -/

namespace Journal

/-- Some bytes are the frames of some records, one after the other. -/
inductive Frames : Bytes → List Record → Prop
  | nil : Frames [] []
  | cons {size payload rest : Bytes} {r : Record} {records : List Record} :
      size.length = 4 → Bytes.toNat size = payload.length → Record.decode payload = .ok r →
        Frames rest records → Frames (size ++ (payload ++ rest)) (r :: records)

theorem splitFrame?_eq_some_iff {bytes payload rest : Bytes} :
    splitFrame? bytes = some (payload, rest) ↔ ∃ size, size.length = 4 ∧
      Bytes.toNat size = payload.length ∧ bytes = size ++ (payload ++ rest) := by
  unfold splitFrame?
  constructor
  · intro h
    split at h
    · rename_i hlong
      dsimp only at h
      split at h
      · rename_i hfits
        rw [List.splitAt_eq, Option.some.injEq, Prod.mk.injEq] at h
        obtain ⟨rfl, rfl⟩ := h
        refine ⟨bytes.take 4, ?_, ?_, ?_⟩
        · rw [List.length_take]
          omega
        · rw [List.length_take]
          omega
        · rw [List.take_append_drop, List.take_append_drop]
      · exact absurd h (Option.some_ne_none _).symm
    · exact absurd h (Option.some_ne_none _).symm
  · rintro ⟨size, hsize, hlength, rfl⟩
    have htake : (size ++ (payload ++ rest)).take 4 = size := by
      rw [← hsize, List.take_left]
    have hdrop : (size ++ (payload ++ rest)).drop 4 = payload ++ rest := by
      rw [← hsize, List.drop_left]
    have hlong : 4 ≤ (size ++ (payload ++ rest)).length := by
      rw [List.length_append]
      omega
    have hfits : payload.length ≤ (payload ++ rest).length := by
      rw [List.length_append]
      omega
    rw [if_pos hlong, htake, hdrop, hlength]
    dsimp only
    rw [if_pos hfits, List.splitAt_eq, List.take_left, List.drop_left]

theorem Frames.append {xs ys : Bytes} {records others : List Record} (h : Frames xs records)
    (h' : Frames ys others) : Frames (xs ++ ys) (records ++ others) := by
  induction h with
  | nil => exact h'
  | cons hsize hlength hdecode _ ih =>
    rw [List.append_assoc, List.append_assoc]
    exact .cons hsize hlength hdecode ih

/-- A frame is the frame of its record. -/
theorem frames_frame? {r : Record} (hsnapshot : r.snapshot < 2 ^ 64) {frame : Bytes}
    (h : frame? r = some frame) : Frames frame [r] := by
  obtain ⟨payload, hpayload, h⟩ := Option.bind_eq_some_iff.1 h
  obtain ⟨size, hsize, h⟩ := Option.bind_eq_some_iff.1 h
  obtain ⟨hlength, rfl⟩ := Bytes.ofLength?_eq_some_iff.1 hsize
  obtain rfl := Option.some.inj h
  have hframes := Frames.cons (Bytes.length_ofNat 4 payload.length)
    (Bytes.toNat_ofNat 4 (n := payload.length) hlength)
    (Record.decode_encode? hsnapshot hpayload) .nil
  rw [List.append_nil] at hframes
  exact hframes

/-- Frames are read up to a tail that has no complete frame, if there is fuel for each of them. -/
theorem Frames.readFrames {bytes tail : Bytes} {records : List Record} (h : Frames bytes records)
    (htail : splitFrame? tail = none) {fuel : Nat} (hfuel : bytes.length ≤ fuel) :
    readFrames fuel (bytes ++ tail) = .ok (records, bytes.length) := by
  induction h generalizing fuel with
  | nil =>
    cases fuel with
    | zero => rfl
    | succ fuel =>
      rw [List.nil_append, Journal.readFrames, htail]
      rfl
  | @cons size payload rest r records hsize hlength hdecode _ ih =>
    rw [List.length_append, List.length_append] at hfuel
    obtain ⟨fuel, rfl⟩ : ∃ n, fuel = n + 1 := ⟨fuel - 1, by omega⟩
    rw [List.append_assoc, List.append_assoc]
    have hsplit : splitFrame? (size ++ (payload ++ (rest ++ tail))) =
        some (payload, rest ++ tail) :=
      splitFrame?_eq_some_iff.2 ⟨size, hsize, hlength, rfl⟩
    have hrest : rest.length ≤ fuel := by omega
    rw [Journal.readFrames, hsplit]
    dsimp only
    rw [hdecode, ih hrest]
    show Except.ok (r :: records, 4 + payload.length + rest.length) = _
    rw [List.length_append, List.length_append, hsize, Nat.add_assoc]

/-- What is read are the frames of the records, and nothing else is kept. -/
theorem frames_of_readFrames {fuel size : Nat} {bytes : Bytes} {records : List Record}
    (h : readFrames fuel bytes = .ok (records, size)) :
    size ≤ bytes.length ∧ Frames (bytes.take size) records := by
  induction fuel generalizing bytes records size with
  | zero =>
    obtain ⟨rfl, rfl⟩ := Prod.mk.inj (Except.ok.inj h)
    exact ⟨Nat.zero_le _, .nil⟩
  | succ fuel ih =>
    rw [readFrames] at h
    cases hsplit : splitFrame? bytes with
    | none =>
      rw [hsplit] at h
      obtain ⟨rfl, rfl⟩ := Prod.mk.inj (Except.ok.inj h)
      exact ⟨Nat.zero_le _, .nil⟩
    | some found =>
      obtain ⟨payload, rest⟩ := found
      obtain ⟨head, hhead, hlength, rfl⟩ := splitFrame?_eq_some_iff.1 hsplit
      rw [hsplit] at h
      obtain ⟨r, hdecode, h⟩ := Except.exists_of_bind_eq_ok h
      obtain ⟨⟨others, size'⟩, hrest, h⟩ := Except.exists_of_bind_eq_ok h
      obtain ⟨rfl, rfl⟩ := Prod.mk.inj (Except.ok.inj h)
      obtain ⟨hle, hframes⟩ := ih hrest
      have htake : (head ++ (payload ++ rest)).take (4 + payload.length + size') =
          head ++ (payload ++ rest.take size') := by
        rw [← hhead, Nat.add_assoc, List.take_length_add_append, List.take_length_add_append]
      rw [htake, List.length_append, List.length_append]
      exact ⟨by omega, .cons hhead hlength hdecode hframes⟩

theorem take_of_checkHeader {bytes : Bytes} (h : checkHeader bytes = .ok ()) :
    bytes.take 4 = header := by
  unfold checkHeader at h
  split at h
  · exact nomatch h
  · rename_i hmagic
    split at h
    · exact nomatch h
    · rename_i v hv
      split at h
      · rename_i hversion
        rw [bne_iff_ne, ne_eq, not_not] at hmagic
        rw [List.take_add_one, hv, hversion, hmagic]
        rfl
      · split at h <;> exact nomatch h

/-- A journal is read up to a tail that has no complete frame, which is cut off. -/
theorem Frames.recover_append {bytes tail : Bytes} {records : List Record}
    (h : Frames bytes records) (htail : splitFrame? tail = none) :
    recover (header ++ bytes ++ tail) = .ok (records, header ++ bytes) := by
  rw [List.append_assoc]
  have hlength : bytes.length ≤ (header ++ (bytes ++ tail)).length := by
    rw [List.length_append, List.length_append]
    omega
  have hread : Journal.readFrames (header ++ (bytes ++ tail)).length
      ((header ++ (bytes ++ tail)).drop 4) = .ok (records, bytes.length) :=
    h.readFrames htail hlength
  have htake : (header ++ (bytes ++ tail)).take (4 + bytes.length) = header ++ bytes := by
    have hfour : 4 = header.length := rfl
    rw [hfour, List.take_length_add_append, List.take_left]
  have hheader : checkHeader (header ++ (bytes ++ tail)) = .ok () := rfl
  have hsome : (header ++ (bytes ++ tail)).isEmpty = false := rfl
  unfold Journal.recover
  rw [hsome, hheader, hread]
  show Except.ok (records, (header ++ (bytes ++ tail)).take (4 + bytes.length)) = _
  rw [htake]

/-- A journal of frames is read to its end. -/
theorem Frames.recover {bytes : Bytes} {records : List Record} (h : Frames bytes records) :
    recover (header ++ bytes) = .ok (records, header ++ bytes) := by
  have hnone : splitFrame? [] = none := rfl
  have hrecover := h.recover_append hnone
  rw [List.append_nil] at hrecover
  exact hrecover

/-- A journal that can be read is kept as the header and the frames of its records. -/
theorem frames_of_recover {bytes kept : Bytes} {records : List Record}
    (h : recover bytes = .ok (records, kept)) :
    ∃ frames, kept = header ++ frames ∧ Frames frames records := by
  unfold Journal.recover at h
  split at h
  · obtain ⟨rfl, rfl⟩ := Prod.mk.inj (Except.ok.inj h)
    exact ⟨[], rfl, .nil⟩
  · obtain ⟨u, hheader, h⟩ := Except.exists_of_bind_eq_ok h
    obtain ⟨⟨others, size⟩, hread, h⟩ := Except.exists_of_bind_eq_ok h
    obtain ⟨rfl, rfl⟩ := Prod.mk.inj (Except.ok.inj h)
    obtain ⟨-, hframes⟩ := frames_of_readFrames hread
    refine ⟨(bytes.drop 4).take size, ?_, hframes⟩
    rw [← take_of_checkHeader hheader, List.take_add]

/-! ## Journals that are read back -/

/-- The frames of some records, each of which can be written. -/
abbrev AreFrames (records : List Record) (frames : List Bytes) : Prop :=
  List.Forall₂ (fun r frame => frame? r = some frame) records frames

theorem AreFrames.flatten {frames : List Bytes} {records : List Record}
    (h : AreFrames records frames) (hsnapshots : ∀ r ∈ records, r.snapshot < 2 ^ 64) :
    Frames frames.flatten records := by
  induction h with
  | nil => exact .nil
  | @cons r frame records frames hframe _ ih =>
    have hrest := ih fun x hx => hsnapshots x (List.mem_cons_of_mem _ hx)
    exact (frames_frame? (hsnapshots r List.mem_cons_self) hframe).append hrest

/-- The frame of a record is its payload behind the length of the payload. -/
theorem frame?_of_encode? {r : Record} {payload : Bytes} (h : r.encode? = some payload)
    (hlength : payload.length < 2 ^ 32) :
    frame? r = some (Bytes.ofNat 4 payload.length ++ payload) := by
  have hsize : Bytes.ofLength? payload.length = some (Bytes.ofNat 4 payload.length) :=
    Bytes.ofLength?_eq_some_iff.2 ⟨hlength, rfl⟩
  unfold frame?
  rw [h]
  show (Bytes.ofLength? payload.length >>= _) = _
  rw [hsize]
  rfl

/-- Whatever is written is read back: from the payload of a record, whatever follows it, this record
and nothing of what follows, and from the frames of some records, behind a header, these records. -/
theorem recover_written :
    (∀ (r : Record) (payload : Bytes), r.snapshot < 2 ^ 64 → r.encode? = some payload →
      (∀ rest, ByteReader.record (payload ++ rest) = .ok (r, rest)) ∧
        Record.decode payload = .ok r ∧
          (payload.length < 2 ^ 32 →
            frame? r = some (Bytes.ofNat 4 payload.length ++ payload))) ∧
      ∀ (records : List Record) (frames : List Bytes), (∀ r ∈ records, r.snapshot < 2 ^ 64) →
        AreFrames records frames →
          recover (header ++ frames.flatten) = .ok (records, header ++ frames.flatten) := by
  refine ⟨fun r payload hsnapshot hpayload => ⟨?_, ?_, ?_⟩,
    fun records frames hsnapshots hframes => ?_⟩
  · exact ByteReader.reads_record hsnapshot hpayload
  · exact Record.decode_encode? hsnapshot hpayload
  · exact frame?_of_encode? hpayload
  · exact (hframes.flatten hsnapshots).recover

/-- Two records with literals of each kind, empty texts, and the greatest number of a snapshot. -/
def varied : List Record :=
  [⟨7, [
    .insert ⟨.blank ⟨""⟩, ⟨""⟩, .literal (.tagged "" "FR-é"), .iri ⟨"not an IRI>"⟩⟩ true,
    .remove ⟨.iri ⟨"s"⟩, ⟨"p"⟩, .literal (.ofTyped "" ⟨Xsd.string⟩), .default⟩ false,
    .remove ⟨.iri ⟨"s"⟩, ⟨"p"⟩, .literal (.ofTyped "1" ⟨"d"⟩), .blank ⟨"g"⟩⟩ true]⟩,
  ⟨2 ^ 64 - 1, [.changeNamespaces (.set "" "ns"), .changeNamespaces (.remove ""),
    .changeNamespaces .clear]⟩]

/-- The records are read back from their payloads and from their journal. -/
theorem recover_written_varied :
    (∀ r ∈ varied, r.snapshot < 2 ^ 64) ∧
      (∀ r ∈ varied, ∃ payload, r.encode? = some payload ∧ Record.decode payload = .ok r) ∧
        ∃ frames, AreFrames varied frames ∧
          recover (header ++ frames.flatten) = .ok (varied, header ++ frames.flatten) := by
  have hsnapshots : ∀ r ∈ varied, r.snapshot < 2 ^ 64 := by decide
  have hencoded : varied.all (·.encode?.isSome) = true := rfl
  obtain ⟨frames, hframes⟩ : ∃ frames, AreFrames varied frames :=
    ⟨_, .cons rfl (.cons rfl .nil)⟩
  refine ⟨hsnapshots, fun r hr => ?_, frames, hframes, recover_written.2 _ _ hsnapshots hframes⟩
  obtain ⟨payload, hpayload⟩ := Option.isSome_iff_exists.1 (List.all_eq_true.1 hencoded r hr)
  exact ⟨payload, hpayload, (recover_written.1 r payload (hsnapshots r hr) hpayload).2.1⟩

end Journal

/-! ## What can not be written -/

/-- Whether a text has more bytes than four bytes can count. -/
def IsOverlong (s : String) : Prop := 2 ^ 32 ≤ (Utf8.encode s).length

namespace Bytes

theorem ofLength?_eq_none_iff {n : Nat} : ofLength? n = none ↔ 2 ^ 32 ≤ n := by
  unfold ofLength?
  rw [ite_eq_right_iff]
  constructor
  · intro h
    by_contra hn
    exact Option.some_ne_none _ (h (by omega))
  · intro h hn
    omega

theorem ofText?_eq_none_iff {s : String} : ofText? s = none ↔ IsOverlong s := by
  unfold IsOverlong ofText?
  rw [← ofLength?_eq_none_iff]
  cases h : ofLength? (Utf8.encode s).length <;> simp [h]

end Bytes

/-- The texts that a term is written with. -/
def Term.texts : Term → List String
  | .iri i => [i.text]
  | .blank b => [b.label]
  | .literal (.simple v) => [v]
  | .literal (.tagged v l) => [v, l]
  | .literal (.typed v d _) => [v, d.text]

/-- The texts that a quad is written with. -/
def Quad.texts (q : Quad) : List String :=
  q.subject.toTerm.texts ++ q.predicate.text :: q.object.texts ++
    (q.graph.toTerm?.map Term.texts).getD []

/-- The texts that an operation is written with. -/
def Operation.texts : Operation → List String
  | .insert q _ => q.texts
  | .remove q _ => q.texts
  | .changeNamespaces (.set label space) => [label, space]
  | .changeNamespaces (.remove label) => [label]
  | .changeNamespaces .clear => []

theorem Term.encode?_eq_none_iff (t : Term) : t.encode? = none ↔ ∃ s ∈ t.texts, IsOverlong s := by
  simp only [← Bytes.ofText?_eq_none_iff]
  cases t with
  | iri i => cases h : Bytes.ofText? i.text <;> simp [encode?, texts, h]
  | blank b => cases h : Bytes.ofText? b.label <;> simp [encode?, texts, h]
  | literal l =>
    cases l with
    | simple v => cases h : Bytes.ofText? v <;> simp [encode?, texts, h]
    | tagged v l =>
      cases h : Bytes.ofText? v <;> cases h' : Bytes.ofText? l <;> simp [encode?, texts, h, h']
    | typed v d own =>
      cases h : Bytes.ofText? v <;> cases h' : Bytes.ofText? d.text <;>
        simp [encode?, texts, h, h']

theorem Quad.encode?_eq_none_iff (q : Quad) : q.encode? = none ↔ ∃ s ∈ q.texts, IsOverlong s := by
  have hsubject := q.subject.toTerm.encode?_eq_none_iff
  have hpredicate := (Term.iri q.predicate).encode?_eq_none_iff
  have hobject := q.object.encode?_eq_none_iff
  have hgraph : q.graph.encode? = none ↔
      ∃ s ∈ (q.graph.toTerm?.map Term.texts).getD [], IsOverlong s := by
    unfold GraphName.encode?
    cases q.graph.toTerm? with
    | none => simp
    | some t => exact t.encode?_eq_none_iff
  have hnone : q.encode? = none ↔ q.subject.toTerm.encode? = none ∨
      (Term.iri q.predicate).encode? = none ∨ q.object.encode? = none ∨ q.graph.encode? = none := by
    unfold encode?
    cases q.subject.toTerm.encode? <;> cases (Term.iri q.predicate).encode? <;>
      cases q.object.encode? <;> cases q.graph.encode? <;> simp
  rw [hnone, hsubject, hpredicate, hobject, hgraph]
  simp only [texts, Term.texts, List.mem_append, List.mem_cons, List.not_mem_nil, or_false,
    or_and_right, exists_or, or_assoc]

theorem Operation.encode?_eq_none_iff (op : Operation) :
    op.encode? = none ↔ ∃ s ∈ op.texts, IsOverlong s := by
  cases op with
  | insert q explicit =>
    rw [texts, ← q.encode?_eq_none_iff]
    cases h : q.encode? <;> simp [encode?, h]
  | remove q explicit =>
    rw [texts, ← q.encode?_eq_none_iff]
    cases h : q.encode? <;> simp [encode?, h]
  | changeNamespaces change =>
    simp only [← Bytes.ofText?_eq_none_iff]
    cases change with
    | set label space =>
      cases h : Bytes.ofText? label <;> cases h' : Bytes.ofText? space <;>
        simp [encode?, texts, h, h']
    | remove label => cases h : Bytes.ofText? label <;> simp [encode?, texts, h]
    | clear => simp [encode?, texts]

theorem Operation.mapM_encode?_eq_none_iff (ops : List Operation) :
    ops.mapM encode? = none ↔ ∃ op ∈ ops, op.encode? = none := by
  induction ops with
  | nil => simp
  | cons op rest ih =>
    rw [List.mapM_cons, List.exists_mem_cons_iff, ← ih]
    cases op.encode? <;> cases rest.mapM encode? <;> simp

/-- A record in which some length needs more than four bytes: the number of its operations, a text
of one of them, or the record as a whole. -/
inductive Record.Overflows (r : Record) : Prop
  | count : 2 ^ 32 ≤ r.operations.length → r.Overflows
  | text {op : Operation} {s : String} : op ∈ r.operations → s ∈ op.texts → IsOverlong s →
      r.Overflows
  | whole {payload : Bytes} : r.encode? = some payload → 2 ^ 32 ≤ payload.length → r.Overflows

theorem Record.encode?_eq_none_iff (r : Record) : r.encode? = none ↔
    2 ^ 32 ≤ r.operations.length ∨ ∃ op ∈ r.operations, ∃ s ∈ op.texts, IsOverlong s := by
  have htexts := Operation.mapM_encode?_eq_none_iff r.operations
  simp only [Operation.encode?_eq_none_iff] at htexts
  rw [← htexts, ← Bytes.ofLength?_eq_none_iff]
  unfold encode?
  cases Bytes.ofLength? r.operations.length <;> cases r.operations.mapM Operation.encode? <;> simp

/-- A record has no frame exactly if one of its lengths needs more than four bytes. -/
theorem Journal.frame?_eq_none_iff (r : Record) : frame? r = none ↔ r.Overflows := by
  constructor
  · intro h
    cases hpayload : r.encode? with
    | none =>
      rcases r.encode?_eq_none_iff.1 hpayload with hcount | ⟨op, hop, s, hs, hlong⟩
      · exact .count hcount
      · exact .text hop hs hlong
    | some payload =>
      refine .whole hpayload (Bytes.ofLength?_eq_none_iff.1 ?_)
      unfold frame? at h
      rw [hpayload] at h
      cases hsize : Bytes.ofLength? payload.length with
      | none => rfl
      | some size => simp [hsize] at h
  · intro h
    unfold frame?
    cases h with
    | count hcount => rw [r.encode?_eq_none_iff.2 (.inl hcount)]; rfl
    | text hop hs hlong => rw [r.encode?_eq_none_iff.2 (.inr ⟨_, hop, _, hs, hlong⟩)]; rfl
    | whole hpayload hlong =>
      rw [hpayload]
      show (Bytes.ofLength? _ >>= _) = none
      rw [Bytes.ofLength?_eq_none_iff.2 hlong]
      rfl

instance (r : Record) : Decidable r.Overflows :=
  decidable_of_iff _ (Journal.frame?_eq_none_iff r)

end QuadStore
