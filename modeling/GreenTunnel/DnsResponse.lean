import GreenTunnel.DnsWalk

/-! # Well-formed DNS responses

On a message of the DNS format the parser finds the address of the first record
of type A with four bytes of data, whatever questions and other records the
message has and whatever form their names take (`parseDnsResponse_correct`).  The
walk through a section keeps in step with the list the section was built from:
`questionsEnd_encode`, `recordAt_encode` and `firstA_encode` take it over one
section, and `BytesAt` carries the position from one to the next.
-/
namespace GreenTunnel
open Dns

/-! ## The sections -/

theorem questionsEnd_encode {data : Bytes} {questions : List Question} {pos : Nat}
    (h : BytesAt data pos (questions.flatMap Question.encode)) :
    QuestionsEnd data questions.length pos
      (pos + (questions.flatMap Question.encode).length) := by
  induction questions generalizing pos with
  | nil => exact QuestionsEnd.zero
  | cons q questions ih =>
    rw [List.flatMap_cons] at h ⊢
    have hname : BytesAt data pos q.name.encode := h.left.left
    apply QuestionsEnd.succ (nameEnds_encode hname)
    -- behind the name stand the type and the class
    have hlen : q.encode.length = q.name.encode.length + 4 := by
      rw [Question.encode, List.length_append]
      rfl
    have hrest := ih h.right
    rw [hlen, ← Nat.add_assoc] at hrest
    rw [List.length_append, hlen, ← Nat.add_assoc, ← Nat.add_assoc]
    exact hrest

/-- Where the data of a record stand. -/
theorem recordAt_encode {data : Bytes} {r : ResourceRecord} {pos : Nat}
    (h : BytesAt data pos r.encode) :
    ∃ rdata, RecordAt data pos r.rtype.toNat rdata r.rdata.length ∧
      BytesAt data rdata r.rdata ∧ rdata + r.rdata.length = pos + r.encode.length := by
  rw [ResourceRecord.encode] at h
  have hname := nameEnds_encode h.left
  -- behind the name: type, class, the two halves of the time to live, length, data
  have htype := h.right.left.be16At r.rtype.toNat_lt
  have hfields := h.right.right.right.right.right
  simp only [be16Bytes_length, Nat.add_assoc, Nat.reduceAdd] at hfields
  have hlen := hfields.left.be16At r.rdata_fits
  have hdata := hfields.right
  simp only [be16Bytes_length, Nat.add_assoc, Nat.reduceAdd] at hdata
  refine ⟨pos + r.name.encode.length + dnsRrHeaderMinSize, ?_, ?_, ?_⟩
  · apply RecordAt.intro hname htype
    · rw [Nat.add_assoc]
      exact hlen
    · rw [dnsRrHeaderMinSize, Nat.add_assoc pos]
      exact hdata.le
  · rw [dnsRrHeaderMinSize, Nat.add_assoc]
    exact hdata
  · rw [ResourceRecord.encode, dnsRrHeaderMinSize]
    simp only [List.length_append, be16Bytes_length]
    omega

theorem fourBytes_of_bytesAt {data : Bytes} {pos : Nat} {ip : Ipv4Addr}
    (h : BytesAt data pos [ip.a, ip.b, ip.c, ip.d]) : FourBytes data pos ip :=
  ⟨h.head, h.tail.head, h.tail.tail.head, h.tail.tail.tail.head⟩

/-- A record holds the address that the walk reads from it. -/
theorem address_of_bytesAt {data : Bytes} {r : ResourceRecord} {rdata : Nat} {ip : Ipv4Addr}
    (h : BytesAt data rdata r.rdata) :
    r.address = some ip ↔
      (r.rtype.toNat = dnsTypeA ∧ r.rdata.length = 4) ∧ FourBytes data rdata ip := by
  rw [ResourceRecord.address_eq_some]
  constructor
  · rintro ⟨htype, hbytes⟩
    rw [hbytes] at h ⊢
    refine ⟨⟨?_, rfl⟩, fourBytes_of_bytesAt h⟩
    rw [htype]
    rfl
  · rintro ⟨⟨htype, hlen⟩, hip⟩
    refine ⟨UInt16.toNat_inj.mp htype, ?_⟩
    obtain ⟨a, b, c, d, hbytes⟩ := List.length_eq_four.mp hlen
    rw [hbytes] at h ⊢
    have hread : FourBytes data rdata ⟨a, b, c, d⟩ := fourBytes_of_bytesAt h
    rw [hip.unique hread]

/-- **The walk through the answers** keeps in step with the list of records. -/
theorem firstA_encode {data : Bytes} {answers : List ResourceRecord} {pos : Nat} {ip : Ipv4Addr}
    (h : BytesAt data pos (answers.flatMap ResourceRecord.encode)) :
    FirstA data answers.length pos ip ↔ answers.findSome? ResourceRecord.address = some ip := by
  induction answers generalizing pos with
  | nil =>
    constructor
    · intro hf
      cases hf
    · intro hf
      cases hf
  | cons r answers ih =>
    rw [List.flatMap_cons] at h
    obtain ⟨rdata, hrec, hdata, hend⟩ := recordAt_encode h.left
    have hrest := ih h.right
    rw [← hend] at hrest
    have haddress : ∀ ip, r.address = some ip ↔ _ := fun _ => address_of_bytesAt hdata
    rw [List.findSome?_cons, List.length_cons, firstA_iff hrec]
    by_cases hA : r.rtype.toNat = dnsTypeA ∧ r.rdata.length = 4
    · -- the record holds the address of its four bytes
      obtain ⟨ip', hip'⟩ := fourBytes_of_le (hA.2 ▸ hrec.fits)
      rw [if_pos hA, (haddress ip').mpr ⟨hA, hip'⟩]
      constructor
      · intro hf
        rw [hf.unique hip']
      · intro hf
        cases hf
        exact hip'
    · have hnone : r.address = none := by
        apply Option.eq_none_iff_forall_ne_some.mpr
        intro ip' hip'
        exact hA ((haddress ip').mp hip').1
      rw [if_neg hA, hnone]
      exact hrest

/-! ## The message -/

/-- The low four bits of the flags are those of their low byte. -/
theorem rcode_eq_zero (n : Nat) : UInt8.ofNat n &&& 0x0F = 0 ↔ n % 16 = 0 := by
  have hmod : n % 256 &&& 15 = n % 16 := by
    rw [Nat.and_two_pow_sub_one_eq_mod (n % 256) 4]
    omega
  rw [← UInt8.toNat_inj, UInt8.toNat_and, UInt8.toNat_ofNat']
  show n % 256 &&& 15 = 0 ↔ n % 16 = 0
  rw [hmod]

/-- The walk sees the message as it was built. -/
theorem answers_encode (m : Message) (ip : Ipv4Addr) :
    Answers m.encode ip ↔
      m.rcode = 0 ∧ m.answers.findSome? ResourceRecord.address = some ip := by
  generalize hdata : m.encode = data
  have hmsg := bytesAt_of_eq hdata.symm
  rw [Message.encode] at hmsg
  -- identifier, flags, the four counts, and the sections
  have hflags : data[3]? = some (UInt8.ofNat m.flags.toNat) := hmsg.right.left.tail.head
  have hqd : be16At data 4 = some m.questions.length :=
    hmsg.right.right.left.be16At m.questions_fit
  have han : be16At data 6 = some m.answers.length :=
    hmsg.right.right.right.left.be16At m.answers_fit
  have hsections := hmsg.right.right.right.right.right.right
  have hlen : dnsHeaderSize ≤ data.length := Nat.le_trans (Nat.le_add_right _ _) hsections.le
  have hquestions := questionsEnd_encode hsections.left
  have hfirst := @firstA_encode data m.answers _ ip hsections.right.left
  rw [answers_iff hlen hflags hqd han, rcode_eq_zero]
  constructor
  · rintro ⟨hrcode, answers, hq, hf⟩
    refine ⟨hrcode, hfirst.mp ?_⟩
    obtain rfl := hq.unique hquestions
    exact hf
  · rintro ⟨hrcode, hf⟩
    exact ⟨hrcode, _, hquestions, hfirst.mpr hf⟩

/-- **The parser on a well-formed response.**  It reports the first address among
the answers, or nothing when the response reports an error. -/
theorem parseDnsResponse_message (m : Message) :
    parseDnsResponse m.encode =
      .ok (if m.rcode = 0 then (m.answers.findSome? ResourceRecord.address).map .v4 else none) := by
  obtain ⟨r, hr, hiff⟩ := parseDnsResponse_spec m.encode
  rw [hr]
  congr 1
  apply Option.ext
  intro ip
  rw [hiff ip]
  by_cases hrcode : m.rcode = 0
  · rw [if_pos hrcode, Option.map_eq_some_iff]
    constructor
    · rintro ⟨v4, rfl, h⟩
      exact ⟨v4, ((answers_encode m v4).mp h).2, rfl⟩
    · rintro ⟨v4, h, rfl⟩
      exact ⟨v4, rfl, (answers_encode m v4).mpr ⟨hrcode, h⟩⟩
  · rw [if_neg hrcode]
    constructor
    · rintro ⟨v4, -, h⟩
      exact absurd ((answers_encode m v4).mp h).1 hrcode
    · intro h
      cases h

/-! ### Service binding records -/

/-- The record is neither of type SVCB nor of type HTTPS. -/
def NotServiceBinding (r : ResourceRecord) : Prop :=
  r.rtype.toNat ≠ dnsTypeSvcb ∧ r.rtype.toNat ≠ dnsTypeHttps

instance (r : ResourceRecord) : Decidable (NotServiceBinding r) :=
  inferInstanceAs (Decidable (_ ∧ _))

/-- Service binding records hold no address. -/
theorem address_of_serviceBinding {r : ResourceRecord} (h : ¬ NotServiceBinding r) :
    r.address = none := by
  apply Option.eq_none_iff_forall_ne_some.mpr
  intro ip hip
  obtain ⟨hA, -⟩ := ResourceRecord.address_eq_some.mp hip
  apply h
  rw [NotServiceBinding, hA]
  decide

theorem findSome_filter_notServiceBinding (answers : List ResourceRecord) :
    (answers.filter (NotServiceBinding ·)).findSome? ResourceRecord.address =
      answers.findSome? ResourceRecord.address := by
  induction answers with
  | nil => rfl
  | cons r answers ih =>
    by_cases h : NotServiceBinding r
    · rw [List.filter_cons_of_pos (by simpa using h), List.findSome?_cons, List.findSome?_cons, ih]
    · rw [List.filter_cons_of_neg (by simpa using h), List.findSome?_cons,
        address_of_serviceBinding h]
      exact ih

/-- **The parser on well-formed responses.**  On a message without an error the
result is the address in the first record of type A with four bytes of data; and
two such messages that differ in service binding records only, wherever they
stand among the answers, lead to the same result. -/
theorem parseDnsResponse_correct (m : Message) (hrcode : m.rcode = 0) :
    parseDnsResponse m.encode =
        .ok ((m.answers.findSome? ResourceRecord.address).map .v4) ∧
      ∀ m' : Message, m'.rcode = 0 →
        m'.answers.filter (NotServiceBinding ·) = m.answers.filter (NotServiceBinding ·) →
          parseDnsResponse m'.encode = parseDnsResponse m.encode := by
  have hm := parseDnsResponse_message m
  rw [if_pos hrcode] at hm
  refine ⟨hm, ?_⟩
  intro m' hrcode' hfilter
  rw [hm, parseDnsResponse_message, if_pos hrcode', ← findSome_filter_notServiceBinding m'.answers,
    hfilter, findSome_filter_notServiceBinding]

/-- A response for `example.com` with an HTTPS record before the A record, both
with a pointer to the name in the question. -/
def filteredResponse : Message where
  id := 1
  flags := 0x8180
  questions :=
    [⟨⟨[⟨[101, 120, 97, 109, 112, 108, 101], by decide⟩, ⟨[99, 111, 109], by decide⟩], none⟩, 1, 1⟩]
  answers :=
    [⟨⟨[], some 12⟩, 65, 1, 60, [1, 2, 3, 4, 5], by decide⟩,
      ⟨⟨[], some 12⟩, 1, 1, 60, [1, 1, 1, 1], by decide⟩]
  nscount := 0
  arcount := 0
  rest := []
  questions_fit := by decide
  answers_fit := by decide

theorem parseDnsResponse_correct_example :
    parseDnsResponse filteredResponse.encode = .ok (some (.v4 ⟨1, 1, 1, 1⟩)) ∧
      parseDnsResponse { filteredResponse with
          answers := [⟨⟨[], some 12⟩, 1, 1, 60, [1, 1, 1, 1], by decide⟩]
          answers_fit := by decide }.encode = parseDnsResponse filteredResponse.encode := by
  obtain ⟨haddress, hsame⟩ := parseDnsResponse_correct filteredResponse rfl
  refine ⟨haddress, ?_⟩
  apply hsame
  · rfl
  · rfl

end GreenTunnel
