import GreenTunnel.NetAddr

/-! # The format of DNS messages

A name is a list of labels, each behind its length, ended by a zero byte or by a
pointer to a place where the name goes on.  The two top bits of a length byte
tell the two apart: they are clear for a label, which has at most 63 bytes, and
set for a pointer.  `decodeLabels` reads the labels of a name that has no pointer,
and `decodeLabels_eq_some` says that it reads just the names that are well formed.

A message is a header with the counts of its sections, the questions, and the
answers.  What stands behind the answers is left open.
-/
namespace GreenTunnel.Dns

/-! ## Names -/

/-- A string of bytes that a label may have. -/
def ValidLabel (bytes : Bytes) : Prop := bytes ≠ [] ∧ bytes.length ≤ 63

instance (bytes : Bytes) : Decidable (ValidLabel bytes) := inferInstanceAs (Decidable (_ ∧ _))

/-- A label of a name. -/
structure Label where
  bytes : Bytes
  valid : ValidLabel bytes

/-- Labels on the wire, each behind its length. -/
def wireLabels (labels : List Bytes) : Bytes :=
  labels.flatMap fun l => UInt8.ofNat l.length :: l

/-- A name: its labels, and the offset it goes on at if a pointer ends it. -/
structure Name where
  labels : List Label
  pointer : Option (Fin 16384)

def Name.encode (name : Name) : Bytes :=
  wireLabels (name.labels.map Label.bytes) ++
    match name.pointer with
    | none => [0]
    | some offset => be16Bytes (0xC000 + offset)

theorem wireLabels_cons (l : Bytes) (labels : List Bytes) :
    wireLabels (l :: labels) = UInt8.ofNat l.length :: (l ++ wireLabels labels) := rfl

/-- **Labels are a prefix code**: what ends with a zero byte comes apart in one
way only, also where the labels are too long for a name. -/
theorem wireLabels_inj {labels labels' : List Bytes} {rest rest' : Bytes}
    (h : ∀ l ∈ labels, l ≠ [] ∧ l.length < 256) (h' : ∀ l ∈ labels', l ≠ [] ∧ l.length < 256)
    (heq : wireLabels labels ++ 0 :: rest = wireLabels labels' ++ 0 :: rest') :
    labels = labels' ∧ rest = rest' := by
  have hzero : ∀ l : Bytes, l ≠ [] ∧ l.length < 256 → UInt8.ofNat l.length ≠ 0 := by
    intro l hl hz
    have hlen := UInt8.toNat_ofNat_of_lt' hl.2
    rw [hz] at hlen
    exact hl.1 (List.eq_nil_of_length_eq_zero hlen.symm)
  induction labels generalizing labels' with
  | nil =>
    rcases labels' with _ | ⟨l', labels'⟩
    · exact ⟨rfl, (List.cons.inj heq).2⟩
    · exact absurd (List.cons.inj heq).1.symm (hzero l' (h' l' List.mem_cons_self))
  | cons l labels ih =>
    rcases labels' with _ | ⟨l', labels'⟩
    · exact absurd (List.cons.inj heq).1 (hzero l (h l List.mem_cons_self))
    · simp only [wireLabels_cons, List.cons_append, List.append_assoc] at heq
      obtain ⟨hhead, htail⟩ := List.cons.inj heq
      have hl := UInt8.toNat_ofNat_of_lt' (h l List.mem_cons_self).2
      have hl' := UInt8.toNat_ofNat_of_lt' (h' l' List.mem_cons_self).2
      have hlen : l.length = l'.length := by
        rw [← hl, ← hl', hhead]
      obtain ⟨rfl, hmore⟩ := List.append_inj htail hlen
      have hsub : ∀ k ∈ labels, k ≠ [] ∧ k.length < 256 :=
        fun k hk => h k (List.mem_cons_of_mem _ hk)
      have hsub' : ∀ k ∈ labels', k ≠ [] ∧ k.length < 256 :=
        fun k hk => h' k (List.mem_cons_of_mem _ hk)
      obtain ⟨rfl, rfl⟩ := ih hsub hsub' hmore
      exact ⟨rfl, rfl⟩

/-! ### Reading labels -/

/-- The labels up to a zero byte, and what follows it; `fuel` bounds the labels
read. -/
def decodeLabelsUpTo : Nat → Bytes → Option (List Bytes × Bytes)
  | 0, _ => none
  | _, [] => none
  | fuel + 1, b :: bs =>
    if b = 0 then some ([], bs)
    else if b.toNat ≤ 63 ∧ b.toNat ≤ bs.length then
      (decodeLabelsUpTo fuel (bs.drop b.toNat)).map fun (labels, rest) =>
        (bs.take b.toNat :: labels, rest)
    else none

/-- The labels of the name at the front of `bs`, which no pointer ends, and what
follows it. -/
def decodeLabels (bs : Bytes) : Option (List Bytes × Bytes) := decodeLabelsUpTo bs.length bs

theorem decodeLabelsUpTo_cons {fuel : Nat} {l rest : Bytes} (h : ValidLabel l) :
    decodeLabelsUpTo (fuel + 1) (UInt8.ofNat l.length :: (l ++ rest)) =
      (decodeLabelsUpTo fuel rest).map fun (labels, rest) => (l :: labels, rest) := by
  obtain ⟨hne, hle⟩ := h
  have hpos : 0 < l.length := List.length_pos_of_ne_nil hne
  have hlen := UInt8.toNat_ofNat_of_lt' (show l.length < 256 by omega)
  have h0 : UInt8.ofNat l.length ≠ 0 := by
    intro hz
    rw [hz] at hlen
    exact Nat.ne_of_lt hpos hlen
  rw [decodeLabelsUpTo, if_neg h0, hlen, if_pos ⟨hle, by simp⟩, List.drop_left, List.take_left]

/-- **Well-formed labels are read back.** -/
theorem decodeLabelsUpTo_wireLabels {fuel : Nat} {labels : List Bytes}
    (h : ∀ l ∈ labels, ValidLabel l) (hfuel : labels.length < fuel) (rest : Bytes) :
    decodeLabelsUpTo fuel (wireLabels labels ++ 0 :: rest) = some (labels, rest) := by
  induction labels generalizing fuel with
  | nil =>
    obtain ⟨fuel, rfl⟩ := Nat.exists_eq_succ_of_ne_zero (Nat.ne_zero_of_lt hfuel)
    rfl
  | cons l labels ih =>
    obtain ⟨fuel, rfl⟩ := Nat.exists_eq_succ_of_ne_zero (Nat.ne_zero_of_lt hfuel)
    rw [wireLabels_cons, List.cons_append, List.append_assoc,
      decodeLabelsUpTo_cons (h l List.mem_cons_self)]
    have hlabels : ∀ l ∈ labels, ValidLabel l := fun l hl => h l (List.mem_cons_of_mem _ hl)
    rw [ih hlabels (Nat.lt_of_succ_lt_succ hfuel)]
    rfl

/-- What is read is well formed, and nothing is lost. -/
theorem decodeLabelsUpTo_sound {fuel : Nat} {bs rest : Bytes} {labels : List Bytes}
    (h : decodeLabelsUpTo fuel bs = some (labels, rest)) :
    (∀ l ∈ labels, ValidLabel l) ∧ bs = wireLabels labels ++ 0 :: rest := by
  induction fuel generalizing bs labels with
  | zero => cases h
  | succ fuel ih =>
    rcases bs with _ | ⟨b, bs⟩
    · cases h
    rw [decodeLabelsUpTo] at h
    by_cases h0 : b = 0
    · rw [if_pos h0] at h
      cases h
      refine ⟨fun l hl => absurd hl List.not_mem_nil, ?_⟩
      rw [h0]
      rfl
    rw [if_neg h0] at h
    by_cases hlen : b.toNat ≤ 63 ∧ b.toNat ≤ bs.length
    · rw [if_pos hlen, Option.map_eq_some_iff] at h
      obtain ⟨⟨labels', rest'⟩, hrec, heq⟩ := h
      cases heq
      obtain ⟨hvalid, hrest⟩ := ih hrec
      have htake : (bs.take b.toNat).length = b.toNat := List.length_take_of_le hlen.2
      have hpos : b.toNat ≠ 0 := fun hz => h0 (UInt8.toNat_inj.mp hz)
      constructor
      · intro l hl
        rcases List.mem_cons.mp hl with rfl | hl
        · refine ⟨?_, by omega⟩
          intro hnil
          rw [hnil] at htake
          exact hpos htake.symm
        · exact hvalid l hl
      · rw [wireLabels_cons, List.cons_append, List.append_assoc, ← hrest,
          List.take_append_drop, htake, UInt8.ofNat_toNat]
    · rw [if_neg hlen] at h
      cases h

theorem length_le_wireLabels (labels : List Bytes) : labels.length ≤ (wireLabels labels).length := by
  induction labels with
  | nil => exact Nat.le_refl 0
  | cons l labels ih =>
    rw [wireLabels_cons, List.length_cons, List.length_cons, List.length_append]
    omega

/-- **The reader accepts the well-formed names**, and reads each back. -/
theorem decodeLabels_eq_some {bs rest : Bytes} {labels : List Bytes} :
    decodeLabels bs = some (labels, rest) ↔
      (∀ l ∈ labels, ValidLabel l) ∧ bs = wireLabels labels ++ 0 :: rest := by
  constructor
  · exact decodeLabelsUpTo_sound
  · rintro ⟨hvalid, rfl⟩
    apply decodeLabelsUpTo_wireLabels hvalid
    have := length_le_wireLabels labels
    rw [List.length_append, List.length_cons]
    omega

/-! ## Messages -/

/-- The type of a record that holds the address of a host. -/
def typeA : UInt16 := 1

structure Question where
  name : Name
  qtype : UInt16
  qclass : UInt16

def Question.encode (q : Question) : Bytes :=
  q.name.encode ++ (be16Bytes q.qtype.toNat ++ be16Bytes q.qclass.toNat)

structure ResourceRecord where
  name : Name
  rtype : UInt16
  rclass : UInt16
  ttl : UInt32
  rdata : Bytes
  rdata_fits : rdata.length < 65536

def ResourceRecord.encode (r : ResourceRecord) : Bytes :=
  r.name.encode ++ (be16Bytes r.rtype.toNat ++ (be16Bytes r.rclass.toNat ++
    (be16Bytes (r.ttl.toNat / 65536) ++ (be16Bytes r.ttl.toNat ++
      (be16Bytes r.rdata.length ++ r.rdata)))))

/-- The address in a record of type A with four bytes of data. -/
def ResourceRecord.address (r : ResourceRecord) : Option Ipv4Addr :=
  match r.rdata with
  | [a, b, c, d] => if r.rtype = typeA then some ⟨a, b, c, d⟩ else none
  | _ => none

/-- A message, and what stands behind its answers. -/
structure Message where
  id : UInt16
  flags : UInt16
  questions : List Question
  answers : List ResourceRecord
  nscount : UInt16
  arcount : UInt16
  rest : Bytes
  questions_fit : questions.length < 65536
  answers_fit : answers.length < 65536

/-- The response code: zero when no error is reported. -/
def Message.rcode (m : Message) : Nat := m.flags.toNat % 16

def Message.encode (m : Message) : Bytes :=
  be16Bytes m.id.toNat ++ (be16Bytes m.flags.toNat ++ (be16Bytes m.questions.length ++
    (be16Bytes m.answers.length ++ (be16Bytes m.nscount.toNat ++ (be16Bytes m.arcount.toNat ++
      (m.questions.flatMap Question.encode ++ (m.answers.flatMap ResourceRecord.encode ++
        m.rest)))))))

/-- A record of type A holds an address exactly when it has four bytes of data. -/
theorem ResourceRecord.address_eq_some {r : ResourceRecord} {ip : Ipv4Addr} :
    r.address = some ip ↔ r.rtype = typeA ∧ r.rdata = [ip.a, ip.b, ip.c, ip.d] := by
  obtain ⟨a, b, c, d⟩ := ip
  unfold address
  split
  · rename_i hdata
    by_cases ht : r.rtype = typeA
    · simp [ht, hdata]
    · simp [ht]
  · rename_i hdata
    constructor
    · intro h
      cases h
    · rintro ⟨-, h⟩
      exact absurd h (hdata _ _ _ _)

end GreenTunnel.Dns
