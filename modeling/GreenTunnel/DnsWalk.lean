import GreenTunnel.DnsFormat
import GreenTunnel.DnsMessage

/-! # What the walk through a DNS response reads

Over a name that is well formed the walk goes to the end of the name
(`nameEnds_encode`).  An address that the parser reports is the data of a record
it has walked to (`parseDnsResponse_reads_record`), whatever the datagram claims
about its own counts and lengths.  And the walk over the front of a datagram is
the walk over the whole as far as it goes, so a datagram that was cut off leads to
the same address or to none (`parseDnsResponse_cut_off`).
-/
namespace GreenTunnel
open Dns

/-! ## Names on the wire -/

theorem pointer_of_and {n : Nat} (h : n &&& 0xC0 = 0xC0) : 192 ≤ n := by
  rw [← h]
  exact Nat.and_le_left

/-- The walk steps over a label whose length is not taken for the root or for a
pointer. -/
theorem nameEnds_label {data l : Bytes} {pos stop : Nat} (hne : l ≠ []) (hlen : l.length < 192)
    (h : BytesAt data pos (UInt8.ofNat l.length :: l))
    (hrest : NameEnds data (pos + (1 + l.length)) stop) : NameEnds data pos stop := by
  have hb := UInt8.toNat_ofNat_of_lt' (show l.length < 256 by omega)
  apply NameEnds.label h.head
  · intro hz
    rw [hz] at hb
    exact hne (List.eq_nil_of_length_eq_zero hb.symm)
  · intro hp
    have := pointer_of_and hp
    omega
  · rw [hb]
    exact hrest

/-- The walk steps over a list of such labels. -/
theorem nameEnds_wireLabels {data : Bytes} {labels : List Bytes} {pos stop : Nat}
    (hlabels : ∀ l ∈ labels, l ≠ [] ∧ l.length < 192) (h : BytesAt data pos (wireLabels labels))
    (hrest : NameEnds data (pos + (wireLabels labels).length) stop) : NameEnds data pos stop := by
  induction labels generalizing pos with
  | nil => exact hrest
  | cons l labels ih =>
    obtain ⟨hne, hlen⟩ := hlabels l List.mem_cons_self
    rw [wireLabels_cons, ← List.cons_append] at h hrest
    apply nameEnds_label hne hlen h.left
    apply ih
    · intro l' hl'
      exact hlabels l' (List.mem_cons_of_mem _ hl')
    · rw [Nat.add_comm 1]
      exact h.right
    · rw [List.length_append, List.length_cons] at hrest
      rw [show pos + (1 + l.length) + (wireLabels labels).length =
        pos + (l.length + 1 + (wireLabels labels).length) by omega]
      exact hrest

/-- **The walk over a well-formed name** goes to its end. -/
theorem nameEnds_encode {data : Bytes} {name : Name} {pos : Nat}
    (h : BytesAt data pos name.encode) : NameEnds data pos (pos + name.encode.length) := by
  obtain ⟨labels, pointer⟩ := name
  rw [Name.encode] at h ⊢
  rw [List.length_append, ← Nat.add_assoc]
  apply nameEnds_wireLabels _ h.left
  · rcases pointer with _ | offset
    · exact NameEnds.root h.right.head
    · apply NameEnds.pointer h.right.head
      have hoffset := offset.isLt
      have hhigh : (UInt8.ofNat ((0xC000 + offset.val) / 256)).toNat = 192 + offset.val / 256 := by
        rw [UInt8.toNat_ofNat']
        omega
      rw [hhigh]
      have hbits : ∀ k : Fin 64, (192 + k.val) &&& 0xC0 = 0xC0 := by decide
      exact hbits ⟨offset.val / 256, by omega⟩
  · intro l hl
    obtain ⟨label, -, rfl⟩ := List.mem_map.mp hl
    obtain ⟨hne, hle⟩ := label.valid
    exact ⟨hne, by omega⟩

/-! ## Where an address comes from -/

theorem NameEnds.lt {data : Bytes} {pos stop : Nat} (h : NameEnds data pos stop) : pos < stop := by
  induction h with
  | root => exact Nat.lt_succ_self _
  | pointer => omega
  | label _ _ _ _ ih => omega

theorem QuestionsEnd.le {data : Bytes} {n pos stop : Nat} (h : QuestionsEnd data n pos stop) :
    pos ≤ stop := by
  induction h with
  | zero => exact Nat.le_refl _
  | succ hname _ ih =>
    have := hname.lt
    omega

/-- The walk through the answers leads to a record behind the position it
started at. -/
theorem FirstA.record {data : Bytes} {n pos : Nat} {ip : Ipv4Addr} (h : FirstA data n pos ip) :
    ∃ start rdata, pos ≤ start ∧ RecordAt data start dnsTypeA rdata 4 ∧ FourBytes data rdata ip := by
  induction h with
  | @found _ pos rdata _ hrec hip => exact ⟨pos, rdata, Nat.le_refl pos, hrec, hip⟩
  | skip hrec _ _ ih =>
    obtain ⟨start, rdata', hle, hrec', hip⟩ := ih
    refine ⟨start, rdata', ?_, hrec', hip⟩
    obtain ⟨hname, -, -, -⟩ := hrec
    have := hname.lt
    omega

/-- **A reported address stands in the datagram**: its four bytes are the data of
a record of type A, behind the header and behind the name of the record.  The
parser never panics, whatever the bytes are. -/
theorem parseDnsResponse_reads_record (data : Bytes) :
    ∃ r, parseDnsResponse data = .ok r ∧
      ∀ ip, r = some ip → ∃ v4 name pos, ip = .v4 v4 ∧
        dnsHeaderSize ≤ name ∧ NameEnds data name pos ∧
        be16At data pos = some dnsTypeA ∧ be16At data (pos + 8) = some 4 ∧
        data[pos + 10]? = some v4.a ∧ data[pos + 11]? = some v4.b ∧
        data[pos + 12]? = some v4.c ∧ data[pos + 13]? = some v4.d := by
  obtain ⟨r, hr, hiff⟩ := parseDnsResponse_spec data
  refine ⟨r, hr, ?_⟩
  intro ip hip
  obtain ⟨v4, rfl, hans⟩ := (hiff ip).mp hip
  obtain ⟨-, -, -, -, -, hquestions, hfirst⟩ := hans
  obtain ⟨start, rdata, hle, hrec, hbytes⟩ := hfirst.record
  obtain ⟨hname, htype, hlen, -⟩ := hrec
  exact ⟨v4, start, _, rfl, Nat.le_trans hquestions.le hle, hname, htype, hlen, hbytes⟩

/-! ## A datagram that was cut off -/

section
variable {data : Bytes} {k : Nat}

theorem NameEnds.of_take {pos stop : Nat} (h : NameEnds (data.take k) pos stop) :
    NameEnds data pos stop := by
  induction h with
  | root h => exact NameEnds.root (getElem?_take_eq_some.mp h).1
  | pointer h hp => exact NameEnds.pointer (getElem?_take_eq_some.mp h).1 hp
  | label h h0 hp _ ih => exact NameEnds.label (getElem?_take_eq_some.mp h).1 h0 hp ih

theorem QuestionsEnd.of_take {n pos stop : Nat} (h : QuestionsEnd (data.take k) n pos stop) :
    QuestionsEnd data n pos stop := by
  induction h with
  | zero => exact QuestionsEnd.zero
  | succ hname _ ih => exact QuestionsEnd.succ hname.of_take ih

theorem RecordAt.of_take {pos rtype rdata rdlen : Nat}
    (h : RecordAt (data.take k) pos rtype rdata rdlen) : RecordAt data pos rtype rdata rdlen := by
  obtain ⟨hname, htype, hlen, hfit⟩ := h
  apply RecordAt.intro hname.of_take
  · exact (be16At_take.mp htype).1
  · exact (be16At_take.mp hlen).1
  · exact Nat.le_trans hfit (List.length_take_le' k data)

theorem FourBytes.of_take {i : Nat} {ip : Ipv4Addr} (h : FourBytes (data.take k) i ip) :
    FourBytes data i ip := by
  obtain ⟨ha, hb, hc, hd⟩ := h
  exact ⟨(getElem?_take_eq_some.mp ha).1, (getElem?_take_eq_some.mp hb).1,
    (getElem?_take_eq_some.mp hc).1, (getElem?_take_eq_some.mp hd).1⟩

theorem FirstA.of_take {n pos : Nat} {ip : Ipv4Addr} (h : FirstA (data.take k) n pos ip) :
    FirstA data n pos ip := by
  induction h with
  | found hrec hip => exact FirstA.found hrec.of_take hip.of_take
  | skip hrec hne _ ih => exact FirstA.skip hrec.of_take hne ih

theorem Answers.of_take {ip : Ipv4Addr} (h : Answers (data.take k) ip) : Answers data ip := by
  obtain ⟨hlen, hflags, hrcode, hqd, han, hquestions, hfirst⟩ := h
  apply Answers.intro _ _ hrcode _ _ hquestions.of_take hfirst.of_take
  · exact Nat.le_trans hlen (List.length_take_le' k data)
  · exact (getElem?_take_eq_some.mp hflags).1
  · exact (be16At_take.mp hqd).1
  · exact (be16At_take.mp han).1

end

/-- **A datagram that was cut off** leads to the address that the whole leads to,
or to none. -/
theorem parseDnsResponse_cut_off (data : Bytes) (n : Nat) :
    parseDnsResponse (data.take n) = .ok none ∨
      parseDnsResponse (data.take n) = parseDnsResponse data := by
  obtain ⟨r, hr, hiff⟩ := parseDnsResponse_spec (data.take n)
  obtain ⟨r', hr', hiff'⟩ := parseDnsResponse_spec data
  rcases r with _ | ip
  · left
    exact hr
  · right
    obtain ⟨v4, hip, hans⟩ := (hiff ip).mp rfl
    have hwhole : r' = some ip := (hiff' ip).mpr ⟨v4, hip, hans.of_take⟩
    rw [hr, hr', hwhole]

end GreenTunnel
