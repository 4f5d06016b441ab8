import GreenTunnel.Checked
import GreenTunnel.NetAddr

/-! # DNS messages (`dns/resolver.rs`)

`buildDnsQuery` writes a query for an A record into a buffer of 128 bytes.
`parseDnsResponse` walks a response to the first A record of its answer section.

What the walk accepts is said by relations on the bytes: `NameEnds` for a name,
`QuestionsEnd` for the question section, `RecordAt` for a record, `FirstA` for
the walk through the answers, and `Answers` for the whole message.  The parser
computes exactly these and never panics (`parseDnsResponse_spec`).
-/
namespace GreenTunnel
open Checked

/-- Length of the header. -/
def dnsHeaderSize : Nat := 12
/-- Length of type, class, time to live and data length of a record. -/
def dnsRrHeaderMinSize : Nat := 10
def dnsTypeA : Nat := 1
def dnsTypeSvcb : Nat := 64
def dnsTypeHttps : Nat := 65
def dnsClassIn : Nat := 1
/-- A standard query that asks for recursion. -/
def dnsFlagsStandardQuery : Nat := 0x0100

/-! ## Building a query -/

/-- The labels of the name, written from `pos` on; a label that would not fit is
left out. -/
def writeLabels : List Bytes → Bytes → Nat → Checked (Bytes × Nat)
  | [], query, pos => .ok (query, pos)
  | bytes :: parts, query, pos => do
    if bytes ≠ [] ∧ pos + 1 + bytes.length < 120 then
      let query ← put query pos [UInt8.ofNat bytes.length]
      let pos := pos + 1
      let query ← put query pos bytes
      writeLabels parts query (pos + bytes.length)
    else writeLabels parts query pos

def buildDnsQuery (domain : Str) : Checked (Bytes × Nat) := do
  let query := List.replicate 128 0
  if (utf8Bytes domain).length > 100 then return (query, 0)
  let txId := 1
  let query ← put query 0 (be16Bytes txId)
  let query ← put query 2 (be16Bytes dnsFlagsStandardQuery)
  let query ← put query 4 (be16Bytes 1)
  let query ← put query 6 (be16Bytes 0)
  let query ← put query 8 (be16Bytes 0)
  let query ← put query 10 (be16Bytes 0)
  let (query, pos) ← writeLabels ((domain.splitOn '.').map utf8Bytes) query dnsHeaderSize
  let query ← put query pos [0x00]
  let pos := pos + 1
  let query ← put query pos (be16Bytes dnsTypeA)
  let pos := pos + 2
  let query ← put query pos (be16Bytes dnsClassIn)
  let pos := pos + 2
  return (query, pos)

/-! ### What is written -/

/-- The buffer after `msg` has been written to its front. -/
def queryBuffer (msg : Bytes) : Bytes := msg ++ List.replicate (128 - msg.length) 0

/-- The header of a query: identifier, flags, and one question. -/
def queryHeader : Bytes :=
  be16Bytes 1 ++ be16Bytes dnsFlagsStandardQuery ++ be16Bytes 1 ++ be16Bytes 0 ++ be16Bytes 0 ++
    be16Bytes 0

/-- The labels on the wire, each after its length; empty ones are left out. -/
def encodeLabels (parts : List Bytes) : Bytes :=
  (parts.filter (· ≠ [])).flatMap fun p => UInt8.ofNat p.length :: p

/-- The query for a name. -/
def queryMessage (domain : Str) : Bytes :=
  queryHeader ++ encodeLabels ((domain.splitOn '.').map utf8Bytes) ++ [0x00] ++
    be16Bytes dnsTypeA ++ be16Bytes dnsClassIn

theorem queryBuffer_length {msg : Bytes} (h : msg.length ≤ 128) :
    (queryBuffer msg).length = 128 := by
  rw [queryBuffer, List.length_append, List.length_replicate]
  omega

/-- Writing behind what has been written. -/
theorem put_queryBuffer {msg bs : Bytes} (h : msg.length + bs.length ≤ 128) :
    put (queryBuffer msg) msg.length bs = .ok (queryBuffer (msg ++ bs)) := by
  rw [put, if_pos (by rw [queryBuffer_length (by omega)]; exact h), queryBuffer,
    List.take_left, ← List.drop_drop, List.drop_left, List.drop_replicate, queryBuffer,
    List.length_append, Nat.sub_sub]

theorem encodeLabels_cons_of_ne_nil {p : Bytes} (h : p ≠ []) (parts : List Bytes) :
    encodeLabels (p :: parts) = UInt8.ofNat p.length :: p ++ encodeLabels parts := by
  simp [encodeLabels, h]

/-- Labels that fit are all written. -/
theorem writeLabels_queryBuffer {parts : List Bytes} {msg : Bytes}
    (h : msg.length + (encodeLabels parts).length < 120) :
    writeLabels parts (queryBuffer msg) msg.length =
      .ok (queryBuffer (msg ++ encodeLabels parts), (msg ++ encodeLabels parts).length) := by
  induction parts generalizing msg with
  | nil => simp [writeLabels, encodeLabels]
  | cons p parts ih =>
    rw [writeLabels]
    by_cases hp : p = []
    · subst hp
      exact ih h
    · rw [encodeLabels_cons_of_ne_nil hp, List.length_append, List.length_cons] at h
      rw [if_pos ⟨hp, by omega⟩, put_queryBuffer (by rw [List.length_singleton]; omega)]
      have hpos : msg.length + 1 = (msg ++ [UInt8.ofNat p.length]).length := by simp
      simp only [bind, Except.bind]
      rw [hpos, put_queryBuffer (by rw [← hpos]; omega)]
      have hmsg : msg ++ [UInt8.ofNat p.length] ++ p = msg ++ UInt8.ofNat p.length :: p := by simp
      simp only [← List.length_append, hmsg]
      rw [ih (by rw [List.length_append, List.length_cons]; omega),
        encodeLabels_cons_of_ne_nil hp, List.append_assoc]

/-- The parts of a name between dots, each behind a byte of its own, take one byte
more than the name. -/
theorem splitOn_bytes (domain : Str) :
    ((domain.splitOn '.').flatMap fun p => 0 :: utf8Bytes p).length =
      (utf8Bytes domain).length + 1 := by
  have hcons : ∀ (c : Char) (s : Str),
      (utf8Bytes (c :: s)).length = (String.utf8EncodeChar c).length + (utf8Bytes s).length :=
    fun c s => by rw [utf8Bytes, List.flatMap_cons, List.length_append, utf8Bytes]
  induction domain with
  | nil => rfl
  | cons c s ih =>
    rw [List.splitOn_cons_eq_if_modifyHead, hcons]
    by_cases hc : c = '.'
    · rw [if_pos (beq_iff_eq.mpr hc), List.flatMap_cons, List.length_append, ih, hc]
      show 1 + ((utf8Bytes s).length + 1) = 1 + (utf8Bytes s).length + 1
      omega
    · rw [if_neg (fun h => hc (beq_iff_eq.mp h))]
      cases hs : s.splitOn '.' with
      | nil => exact absurd hs (List.splitOn_ne_nil _ _)
      | cons w ws =>
        rw [hs, List.flatMap_cons, List.length_append, List.length_cons] at ih
        rw [List.modifyHead_cons, List.flatMap_cons, List.length_append, List.length_cons, hcons]
        omega

theorem encodeLabels_length_le (parts : List Bytes) :
    (encodeLabels parts).length ≤ (parts.flatMap fun p => 0 :: p).length := by
  induction parts with
  | nil => exact Nat.le_refl 0
  | cons p parts ih =>
    rw [List.flatMap_cons, List.length_append, List.length_cons]
    by_cases hp : p = []
    · subst hp
      exact Nat.le_trans ih (Nat.le_add_left _ _)
    · rw [encodeLabels_cons_of_ne_nil hp, List.length_append, List.length_cons]
      omega

/-- The labels of a name that fits. -/
theorem encodeLabels_nameParts_le {domain : Str} (h : (utf8Bytes domain).length ≤ 100) :
    (encodeLabels ((domain.splitOn '.').map utf8Bytes)).length ≤ 101 := by
  have hle := encodeLabels_length_le ((domain.splitOn '.').map utf8Bytes)
  rw [List.flatMap_map] at hle
  exact Nat.le_trans hle (Nat.le_trans (Nat.le_of_eq (splitOn_bytes domain)) (by omega))

/-- The six fields of the header are written one behind the other. -/
theorem put_queryHeader {α : Type} (k : Bytes → Checked α) :
    (do
      let query ← put (List.replicate 128 0) 0 (be16Bytes 1)
      let query ← put query 2 (be16Bytes dnsFlagsStandardQuery)
      let query ← put query 4 (be16Bytes 1)
      let query ← put query 6 (be16Bytes 0)
      let query ← put query 8 (be16Bytes 0)
      let query ← put query 10 (be16Bytes 0)
      k query) = k (queryBuffer queryHeader) := by
  have hput : ∀ {msg bs : Bytes} {pos : Nat}, pos = msg.length → pos + bs.length ≤ 128 →
      put (queryBuffer msg) pos bs = .ok (queryBuffer (msg ++ bs)) := by
    rintro msg bs pos rfl hle
    exact put_queryBuffer hle
  rw [show List.replicate 128 0 = queryBuffer [] from rfl]
  simp (disch := decide) only [hput, bind, Except.bind]
  rfl

/-- **The query for a name of at most 100 bytes** is written whole. -/
theorem buildDnsQuery_of_le {domain : Str} (h : (utf8Bytes domain).length ≤ 100) :
    buildDnsQuery domain =
      .ok (queryBuffer (queryMessage domain), (queryMessage domain).length) := by
  have hlabels := encodeLabels_nameParts_le h
  have hheader : queryHeader.length = 12 := rfl
  have hwrite :=
    @writeLabels_queryBuffer ((domain.splitOn '.').map utf8Bytes) queryHeader (by omega)
  unfold buildDnsQuery queryMessage
  rw [if_neg (Nat.not_lt_of_le h)]
  refine (put_queryHeader _).trans ?_
  rw [show dnsHeaderSize = queryHeader.length from rfl, hwrite]
  generalize hmsg : queryHeader ++ encodeLabels ((domain.splitOn '.').map utf8Bytes) = msg
  have hlen : msg.length ≤ 113 := by
    rw [← hmsg, List.length_append]
    omega
  have h0 := @put_queryBuffer msg [0x00] (by rw [List.length_singleton]; omega)
  have h1 := @put_queryBuffer (msg ++ [0x00]) (be16Bytes dnsTypeA) (by
    rw [List.length_append, List.length_singleton, be16Bytes_length]; omega)
  have h2 := @put_queryBuffer (msg ++ [0x00] ++ be16Bytes dnsTypeA) (be16Bytes dnsClassIn) (by
    simp only [List.length_append, List.length_singleton, be16Bytes_length]; omega)
  simp only [List.length_append, List.length_singleton, be16Bytes_length] at h1 h2 ⊢
  simp only [h0, h1, h2, bind, Except.bind]
  rfl

/-- The written part of the buffer is the message. -/
theorem slice_queryBuffer (msg : Bytes) : slice (queryBuffer msg) 0 msg.length = .ok msg := by
  have hle : msg.length ≤ (queryBuffer msg).length := by
    rw [queryBuffer, List.length_append]
    exact Nat.le_add_right _ _
  rw [slice_of_le (Nat.zero_le _) hle, List.drop_zero, queryBuffer, List.take_left]

theorem queryMessage_length_pos (domain : Str) : (queryMessage domain).length ≠ 0 := by
  simp [queryMessage]

theorem buildDnsQuery_of_gt {domain : Str} (h : 100 < (utf8Bytes domain).length) :
    buildDnsQuery domain = .ok (List.replicate 128 0, 0) := by
  rw [buildDnsQuery, if_pos h]
  rfl

/-! ## Parsing a response -/

/-- The loop over the labels of a name; `fuel` bounds its iterations. -/
def skipDnsNameUpTo (data : Bytes) : Nat → Nat → Checked (Option Nat)
  | 0, _ => .error .stuck
  | fuel + 1, pos => do
    if pos < data.length then
      let len := (← index data pos).toNat
      if len = 0 then return some (pos + 1)
      if len &&& 0xC0 = 0xC0 then return some (pos + 2)
      skipDnsNameUpTo data fuel (pos + (1 + len))
    else return none

def skipDnsName (data : Bytes) (pos : Nat) : Checked (Option Nat) :=
  skipDnsNameUpTo data (data.length + 1) pos

/-- The loop over the questions. -/
def skipQuestions (data : Bytes) : Nat → Nat → Checked (Option Nat)
  | 0, pos => .ok (some pos)
  | n + 1, pos => do
    let some nextPos ← skipDnsName data pos | return none
    skipQuestions data n (nextPos + 4)

/-- The loop over the answers. -/
def scanAnswers (data : Bytes) : Nat → Nat → Checked (Option IpAddr)
  | 0, _ => .ok none
  | n + 1, pos => do
    let some nextPos ← skipDnsName data pos | return none
    let pos := nextPos
    if pos + dnsRrHeaderMinSize > data.length then return none
    let rtype := be16 (← index data pos) (← index data (pos + 1))
    let rdlen := be16 (← index data (pos + 8)) (← index data (pos + 9))
    let pos := pos + dnsRrHeaderMinSize
    if pos + rdlen > data.length then return none
    if rtype = dnsTypeHttps ∨ rtype = dnsTypeSvcb then scanAnswers data n (pos + rdlen)
    else if rtype = dnsTypeA ∧ rdlen = 4 then
      return some (.v4 ⟨← index data pos, ← index data (pos + 1), ← index data (pos + 2),
        ← index data (pos + 3)⟩)
    else scanAnswers data n (pos + rdlen)

def parseDnsResponse (data : Bytes) : Checked (Option IpAddr) := do
  if data.length < dnsHeaderSize then return none
  let rcode := (← index data 3) &&& 0x0F
  if rcode ≠ 0 then return none
  let qdcount := be16 (← index data 4) (← index data 5)
  let ancount := be16 (← index data 6) (← index data 7)
  if ancount = 0 then return none
  let some pos ← skipQuestions data qdcount dnsHeaderSize | return none
  scanAnswers data ancount pos

/-! ## What the walk accepts -/

/-- The name at `pos` ends before `stop`, as the walk reads names: a pointer ends
it, and any other byte that is not zero is the length of a label. -/
inductive NameEnds (data : Bytes) : Nat → Nat → Prop
  | root {pos : Nat} (h : data[pos]? = some 0) : NameEnds data pos (pos + 1)
  | pointer {pos : Nat} {b : UInt8} (h : data[pos]? = some b) (hp : b.toNat &&& 0xC0 = 0xC0) :
      NameEnds data pos (pos + 2)
  | label {pos stop : Nat} {b : UInt8} (h : data[pos]? = some b) (h0 : b ≠ 0)
      (hp : b.toNat &&& 0xC0 ≠ 0xC0) (hrest : NameEnds data (pos + (1 + b.toNat)) stop) :
      NameEnds data pos stop

/-- `n` questions stand between `pos` and `stop`. -/
inductive QuestionsEnd (data : Bytes) : Nat → Nat → Nat → Prop
  | zero {pos : Nat} : QuestionsEnd data 0 pos pos
  | succ {n pos nameEnd stop : Nat} (h : NameEnds data pos nameEnd)
      (hrest : QuestionsEnd data n (nameEnd + 4) stop) : QuestionsEnd data (n + 1) pos stop

/-- A record stands at `pos`: its type is `rtype`, and its data are the `rdlen`
bytes from `rdata` on. -/
inductive RecordAt (data : Bytes) : Nat → Nat → Nat → Nat → Prop
  | intro {pos nameEnd rtype rdlen : Nat} (hname : NameEnds data pos nameEnd)
      (htype : be16At data nameEnd = some rtype) (hlen : be16At data (nameEnd + 8) = some rdlen)
      (hfit : nameEnd + dnsRrHeaderMinSize + rdlen ≤ data.length) :
      RecordAt data pos rtype (nameEnd + dnsRrHeaderMinSize) rdlen

/-- The four bytes from `i` on. -/
def FourBytes (data : Bytes) (i : Nat) (ip : Ipv4Addr) : Prop :=
  data[i]? = some ip.a ∧ data[i + 1]? = some ip.b ∧ data[i + 2]? = some ip.c ∧
    data[i + 3]? = some ip.d

/-- Of `n` records from `pos` on, the first of type A with four bytes of data has
the data `ip`. -/
inductive FirstA (data : Bytes) : Nat → Nat → Ipv4Addr → Prop
  | found {n pos rdata : Nat} {ip : Ipv4Addr} (h : RecordAt data pos dnsTypeA rdata 4)
      (hip : FourBytes data rdata ip) : FirstA data (n + 1) pos ip
  | skip {n pos rtype rdata rdlen : Nat} {ip : Ipv4Addr} (h : RecordAt data pos rtype rdata rdlen)
      (hne : ¬(rtype = dnsTypeA ∧ rdlen = 4)) (hrest : FirstA data n (rdata + rdlen) ip) :
      FirstA data (n + 1) pos ip

/-- The message reports no error, and the first record of type A with four bytes
of data in its answer section has the data `ip`. -/
inductive Answers (data : Bytes) (ip : Ipv4Addr) : Prop
  | intro {flags : UInt8} {qdcount ancount answers : Nat} (hlen : dnsHeaderSize ≤ data.length)
      (hflags : data[3]? = some flags) (hrcode : flags &&& 0x0F = 0)
      (hqd : be16At data 4 = some qdcount) (han : be16At data 6 = some ancount)
      (hquestions : QuestionsEnd data qdcount dnsHeaderSize answers)
      (hfirst : FirstA data ancount answers ip)

/-! ### Names -/

theorem NameEnds.inside {data : Bytes} {pos stop : Nat} (h : NameEnds data pos stop) :
    pos < data.length := by
  cases h with
  | root h => exact (List.getElem?_eq_some_iff.mp h).1
  | pointer h => exact (List.getElem?_eq_some_iff.mp h).1
  | label h => exact (List.getElem?_eq_some_iff.mp h).1

/-- One step of the walk over a name, by the byte it stands at. -/
theorem nameEnds_iff {data : Bytes} {pos stop : Nat} {b : UInt8} (hb : data[pos]? = some b) :
    NameEnds data pos stop ↔
      if b = 0 then pos + 1 = stop
      else if b.toNat &&& 0xC0 = 0xC0 then pos + 2 = stop
      else NameEnds data (pos + (1 + b.toNat)) stop := by
  constructor
  · intro h
    cases h with
    | root hb' =>
      obtain rfl := Option.some.inj (hb.symm.trans hb')
      rw [if_pos rfl]
    | pointer hb' hp =>
      obtain rfl := Option.some.inj (hb.symm.trans hb')
      have h0 : b ≠ 0 := by
        rintro rfl
        exact absurd hp (by decide)
      rw [if_neg h0, if_pos hp]
    | label hb' h0 hp hrest =>
      obtain rfl := Option.some.inj (hb.symm.trans hb')
      rw [if_neg h0, if_neg hp]
      exact hrest
  · intro h
    by_cases h0 : b = 0
    · rw [if_pos h0] at h
      rw [← h]
      exact NameEnds.root (h0 ▸ hb)
    · rw [if_neg h0] at h
      by_cases hp : b.toNat &&& 0xC0 = 0xC0
      · rw [if_pos hp] at h
        rw [← h]
        exact NameEnds.pointer hb hp
      · rw [if_neg hp] at h
        exact NameEnds.label hb h0 hp h

/-- **The walk over a name ends**, and says where the name ends. -/
theorem skipDnsNameUpTo_spec {data : Bytes} {fuel pos : Nat} (hfuel : 0 < fuel)
    (h : data.length < pos + fuel) :
    ∃ r, skipDnsNameUpTo data fuel pos = .ok r ∧
      ∀ stop, r = some stop ↔ NameEnds data pos stop := by
  induction fuel generalizing pos with
  | zero => exact absurd hfuel (Nat.lt_irrefl 0)
  | succ fuel ih =>
    rw [skipDnsNameUpTo]
    by_cases hpos : pos < data.length
    · have hb := List.getElem?_eq_getElem hpos
      generalize data[pos] = b at hb
      have hstep : ∀ stop, NameEnds data pos stop ↔ _ := fun _ => nameEnds_iff hb
      have hzero : b.toNat = 0 ↔ b = 0 := @UInt8.toNat_inj b 0
      rw [if_pos hpos, index_of_getElem? hb]
      simp only [bind, Except.bind, hzero]
      by_cases h0 : b = 0
      · -- the root ends the name
        simp only [if_pos h0] at hstep ⊢
        refine ⟨some (pos + 1), rfl, ?_⟩
        intro stop
        rw [hstep, Option.some.injEq]
      · by_cases hp : b.toNat &&& 0xC0 = 0xC0
        · -- so does a pointer
          simp only [if_neg h0, if_pos hp] at hstep ⊢
          refine ⟨some (pos + 2), rfl, ?_⟩
          intro stop
          rw [hstep, Option.some.injEq]
        · -- a label moves the walk on by a byte at least
          simp only [if_neg h0, if_neg hp] at hstep ⊢
          obtain ⟨r, hr, hiff⟩ := @ih (pos + (1 + b.toNat)) (by omega) (by omega)
          refine ⟨r, hr, ?_⟩
          intro stop
          rw [hstep, hiff]
    · rw [if_neg hpos]
      refine ⟨none, rfl, fun stop => ⟨fun hs => ?_, fun hs => absurd hs.inside hpos⟩⟩
      cases hs

theorem skipDnsName_spec (data : Bytes) (pos : Nat) :
    ∃ r, skipDnsName data pos = .ok r ∧ ∀ stop, r = some stop ↔ NameEnds data pos stop :=
  skipDnsNameUpTo_spec (Nat.succ_pos _) (by omega)

theorem NameEnds.unique {data : Bytes} {pos stop stop' : Nat} (h : NameEnds data pos stop)
    (h' : NameEnds data pos stop') : stop = stop' := by
  obtain ⟨r, -, hiff⟩ := skipDnsName_spec data pos
  exact Option.some.inj (((hiff stop).mpr h).symm.trans ((hiff stop').mpr h'))

/-! ### The question section -/

theorem skipQuestions_spec (data : Bytes) (n pos : Nat) :
    ∃ r, skipQuestions data n pos = .ok r ∧
      ∀ stop, r = some stop ↔ QuestionsEnd data n pos stop := by
  induction n generalizing pos with
  | zero =>
    refine ⟨some pos, rfl, fun stop => ⟨fun hs => ?_, fun hs => ?_⟩⟩
    · cases hs
      exact QuestionsEnd.zero
    · cases hs
      rfl
  | succ n ih =>
    obtain ⟨r, hr, hname⟩ := skipDnsName_spec data pos
    unfold skipQuestions
    simp only [hr, bind, Except.bind]
    cases r with
    | none =>
      refine ⟨none, rfl, fun stop => ⟨fun hs => ?_, fun hs => ?_⟩⟩
      · cases hs
      · cases hs with
        | succ h _ => cases (hname _).mpr h
    | some nameEnd =>
      obtain ⟨r', hr', hiff⟩ := ih (nameEnd + 4)
      refine ⟨r', hr', fun stop => (hiff stop).trans ⟨?_, fun hs => ?_⟩⟩
      · exact QuestionsEnd.succ ((hname _).mp rfl)
      · cases hs with
        | succ h hrest =>
          obtain rfl := Option.some.inj ((hname _).mpr h)
          exact hrest

theorem QuestionsEnd.unique {data : Bytes} {n pos stop stop' : Nat}
    (h : QuestionsEnd data n pos stop) (h' : QuestionsEnd data n pos stop') : stop = stop' := by
  obtain ⟨r, -, hiff⟩ := skipQuestions_spec data n pos
  exact Option.some.inj (((hiff stop).mpr h).symm.trans ((hiff stop').mpr h'))

/-! ### The answer section -/

theorem RecordAt.fits {data : Bytes} {pos rtype rdata rdlen : Nat}
    (h : RecordAt data pos rtype rdata rdlen) : rdata + rdlen ≤ data.length := by
  cases h with
  | intro _ _ _ hfit => exact hfit

/-- At most one record stands at a position. -/
theorem RecordAt.unique {data : Bytes} {pos rtype rdata rdlen rtype' rdata' rdlen' : Nat}
    (h : RecordAt data pos rtype rdata rdlen) (h' : RecordAt data pos rtype' rdata' rdlen') :
    rtype = rtype' ∧ rdata = rdata' ∧ rdlen = rdlen' := by
  obtain ⟨hn, ht, hl, -⟩ := h
  obtain ⟨hn', ht', hl', -⟩ := h'
  obtain rfl := hn.unique hn'
  obtain rfl := Option.some.inj (ht.symm.trans ht')
  obtain rfl := Option.some.inj (hl.symm.trans hl')
  exact ⟨rfl, rfl, rfl⟩

/-- Four bytes inside the data are an address. -/
theorem fourBytes_of_le {data : Bytes} {i : Nat} (h : i + 4 ≤ data.length) :
    ∃ ip : Ipv4Addr, FourBytes data i ip :=
  ⟨⟨data[i], data[i + 1], data[i + 2], data[i + 3]⟩, List.getElem?_eq_getElem (by omega),
    List.getElem?_eq_getElem (by omega), List.getElem?_eq_getElem (by omega),
    List.getElem?_eq_getElem (by omega)⟩

theorem FourBytes.unique {data : Bytes} {i : Nat} {ip ip' : Ipv4Addr} (h : FourBytes data i ip)
    (h' : FourBytes data i ip') : ip = ip' := by
  obtain ⟨a, b, c, d⟩ := ip
  obtain ⟨a', b', c', d'⟩ := ip'
  obtain ⟨ha, hb, hc, hd⟩ := h
  obtain ⟨ha', hb', hc', hd'⟩ := h'
  obtain rfl := Option.some.inj (ha.symm.trans ha')
  obtain rfl := Option.some.inj (hb.symm.trans hb')
  obtain rfl := Option.some.inj (hc.symm.trans hc')
  obtain rfl := Option.some.inj (hd.symm.trans hd')
  rfl

/-- One step of the walk through the answers: the record at `pos` holds the address,
or the walk goes on behind it. -/
theorem firstA_iff {data : Bytes} {n pos rtype rdata rdlen : Nat} {ip : Ipv4Addr}
    (h : RecordAt data pos rtype rdata rdlen) :
    FirstA data (n + 1) pos ip ↔
      if rtype = dnsTypeA ∧ rdlen = 4 then FourBytes data rdata ip
      else FirstA data n (rdata + rdlen) ip := by
  constructor
  · intro hf
    cases hf with
    | found hrec hip =>
      obtain ⟨rfl, rfl, rfl⟩ := h.unique hrec
      rw [if_pos ⟨rfl, rfl⟩]
      exact hip
    | skip hrec hne hrest =>
      obtain ⟨rfl, rfl, rfl⟩ := h.unique hrec
      rw [if_neg hne]
      exact hrest
  · intro hf
    by_cases hA : rtype = dnsTypeA ∧ rdlen = 4
    · rw [if_pos hA] at hf
      obtain ⟨rfl, rfl⟩ := hA
      exact FirstA.found h hf
    · rw [if_neg hA] at hf
      exact FirstA.skip h hA hf

/-- One iteration of the scan at a record. -/
theorem scanAnswers_succ {data : Bytes} {n pos rtype rdata rdlen : Nat}
    (h : RecordAt data pos rtype rdata rdlen) :
    (¬(rtype = dnsTypeA ∧ rdlen = 4) →
      scanAnswers data (n + 1) pos = scanAnswers data n (rdata + rdlen)) ∧
    (∀ ip, rtype = dnsTypeA → rdlen = 4 → FourBytes data rdata ip →
      scanAnswers data (n + 1) pos = .ok (some (.v4 ip))) := by
  obtain ⟨hname, htype, hlen, hfit⟩ := h
  rename_i nameEnd
  obtain ⟨r, hr, hiff⟩ := skipDnsName_spec data pos
  obtain rfl := (hiff nameEnd).mpr hname
  obtain ⟨t0, t1, ht0, ht1, rfl⟩ := index_of_be16At htype
  obtain ⟨l0, l1, hl0, hl1, rfl⟩ := index_of_be16At hlen
  have hhead : ¬ nameEnd + dnsRrHeaderMinSize > data.length :=
    Nat.not_lt_of_le (Nat.le_trans (Nat.le_add_right _ _) hfit)
  rw [scanAnswers]
  simp only [hr, ht0, ht1, hl0, hl1, bind, Except.bind, if_neg hhead,
    if_neg (Nat.not_lt_of_le hfit)]
  refine ⟨fun hne => ?_, fun ip hA h4 hip => ?_⟩
  · rw [if_neg hne, ite_self]
  · obtain ⟨ha, hb, hc, hd⟩ := hip
    rw [if_neg (by rw [hA]; decide), if_pos ⟨hA, h4⟩]
    simp only [index_of_getElem? ha, index_of_getElem? hb, index_of_getElem? hc,
      index_of_getElem? hd]
    rfl

/-- Where no record stands the scan ends. -/
theorem scanAnswers_of_no_record {data : Bytes} {n pos : Nat}
    (h : ∀ rtype rdata rdlen, ¬ RecordAt data pos rtype rdata rdlen) :
    scanAnswers data (n + 1) pos = .ok none := by
  obtain ⟨r, hr, hiff⟩ := skipDnsName_spec data pos
  unfold scanAnswers
  simp only [hr, bind, Except.bind]
  cases r with
  | none => rfl
  | some nameEnd =>
    have hname := (hiff nameEnd).mp rfl
    by_cases hhead : nameEnd + dnsRrHeaderMinSize > data.length
    · simp only [if_pos hhead]
      rfl
    · have hten : nameEnd + 10 ≤ data.length := Nat.le_of_not_lt hhead
      obtain ⟨rtype, htype⟩ := be16At_of_le (show nameEnd + 2 ≤ data.length by omega)
      obtain ⟨rdlen, hlen⟩ := be16At_of_le (show nameEnd + 8 + 2 ≤ data.length by omega)
      -- the fields of the record fit, so its data do not
      have hover : nameEnd + dnsRrHeaderMinSize + rdlen > data.length :=
        Nat.lt_of_not_le fun hfit => h rtype _ rdlen ⟨hname, htype, hlen, hfit⟩
      obtain ⟨t0, t1, ht0, ht1, rfl⟩ := index_of_be16At htype
      obtain ⟨l0, l1, hl0, hl1, rfl⟩ := index_of_be16At hlen
      simp only [ht0, ht1, hl0, hl1, if_neg hhead, if_pos hover]
      rfl

/-- **The scan of the answers** finds the address of the first A record. -/
theorem scanAnswers_spec (data : Bytes) (n pos : Nat) :
    ∃ r, scanAnswers data n pos = .ok r ∧
      ∀ ip, r = some ip ↔ ∃ v4, ip = .v4 v4 ∧ FirstA data n pos v4 := by
  induction n generalizing pos with
  | zero =>
    refine ⟨none, rfl, fun ip => ⟨fun h => ?_, ?_⟩⟩
    · cases h
    · rintro ⟨v4, -, h⟩
      cases h
  | succ n ih =>
    by_cases hrec : ∃ rtype rdata rdlen, RecordAt data pos rtype rdata rdlen
    · obtain ⟨rtype, rdata, rdlen, hrec⟩ := hrec
      have hstep : ∀ v4, FirstA data (n + 1) pos v4 ↔ _ := fun _ => firstA_iff hrec
      by_cases hA : rtype = dnsTypeA ∧ rdlen = 4
      · -- the first A record ends the scan
        simp only [if_pos hA] at hstep
        obtain ⟨rfl, rfl⟩ := hA
        obtain ⟨v4, hv4⟩ := fourBytes_of_le hrec.fits
        refine ⟨_, (scanAnswers_succ hrec).2 v4 rfl rfl hv4, fun ip => ⟨fun h => ?_, ?_⟩⟩
        · cases h
          exact ⟨v4, rfl, (hstep v4).mpr hv4⟩
        · rintro ⟨v4', rfl, h⟩
          rw [hv4.unique ((hstep v4').mp h)]
      · -- the scan goes on behind any other record
        simp only [if_neg hA] at hstep
        obtain ⟨r, hr, hiff⟩ := ih (rdata + rdlen)
        refine ⟨r, ((scanAnswers_succ hrec).1 hA).trans hr, ?_⟩
        intro ip
        simp only [hstep]
        exact hiff ip
    · refine ⟨none, scanAnswers_of_no_record fun t d l h => hrec ⟨t, d, l, h⟩, fun ip => ⟨?_, ?_⟩⟩
      · intro h
        cases h
      · rintro ⟨v4, -, h⟩
        cases h with
        | found h => exact absurd ⟨_, _, _, h⟩ hrec
        | skip h => exact absurd ⟨_, _, _, h⟩ hrec

/-! ### The message -/

/-- The header fixes where the walk starts and how many records it sees. -/
theorem answers_iff {data : Bytes} {flags : UInt8} {qdcount ancount : Nat} {ip : Ipv4Addr}
    (hlen : dnsHeaderSize ≤ data.length) (hflags : data[3]? = some flags)
    (hqd : be16At data 4 = some qdcount) (han : be16At data 6 = some ancount) :
    Answers data ip ↔ flags &&& 0x0F = 0 ∧
      ∃ answers, QuestionsEnd data qdcount dnsHeaderSize answers ∧
        FirstA data ancount answers ip := by
  constructor
  · rintro ⟨-, hflags', hrcode, hqd', han', hquestions, hfirst⟩
    obtain rfl := Option.some.inj (hflags.symm.trans hflags')
    obtain rfl := Option.some.inj (hqd.symm.trans hqd')
    obtain rfl := Option.some.inj (han.symm.trans han')
    exact ⟨hrcode, _, hquestions, hfirst⟩
  · rintro ⟨hrcode, answers, hquestions, hfirst⟩
    exact Answers.intro hlen hflags hrcode hqd han hquestions hfirst

/-- **The parser computes what the walk accepts**, and never panics. -/
theorem parseDnsResponse_spec (data : Bytes) :
    ∃ r, parseDnsResponse data = .ok r ∧
      ∀ ip, r = some ip ↔ ∃ v4, ip = .v4 v4 ∧ Answers data v4 := by
  have hnone : ∀ {r : Checked (Option IpAddr)}, r = .ok none → (∀ v4, ¬ Answers data v4) →
      ∃ v, r = .ok v ∧ ∀ ip, v = some ip ↔ ∃ v4, ip = .v4 v4 ∧ Answers data v4 := by
    rintro r rfl h
    refine ⟨none, rfl, fun ip => ⟨fun hc => ?_, ?_⟩⟩
    · cases hc
    · rintro ⟨v4, -, hv4⟩
      exact absurd hv4 (h v4)
  unfold parseDnsResponse
  by_cases hshort : data.length < dnsHeaderSize
  · rw [if_pos hshort]
    refine hnone rfl fun v4 h => ?_
    cases h with
    | intro hlen => exact Nat.not_lt_of_le hlen hshort
  have hlen : 12 ≤ data.length := Nat.le_of_not_lt hshort
  have h3 := List.getElem?_eq_getElem (show 3 < data.length by omega)
  obtain ⟨qd, hqd⟩ := be16At_of_le (show 4 + 2 ≤ data.length by omega)
  obtain ⟨an, han⟩ := be16At_of_le (show 6 + 2 ≤ data.length by omega)
  -- with its header read, the message is its two counts and the sections
  have hiff : ∀ v4, Answers data v4 ↔ _ := fun v4 => answers_iff hlen h3 hqd han
  obtain ⟨q0, q1, hq0, hq1, hq⟩ := index_of_be16At hqd
  obtain ⟨a0, a1, ha0, ha1, ha⟩ := index_of_be16At han
  obtain ⟨r, hr, hquestions⟩ := skipQuestions_spec data qd dnsHeaderSize
  rw [if_neg hshort, index_of_getElem? h3]
  simp only [hq0, hq1, ha0, ha1, hq, ha, bind, Except.bind, ne_eq]
  by_cases hrcode : data[3] &&& 0x0F = 0
  · rw [if_neg (not_not_intro hrcode)]
    by_cases h0 : an = 0
    · rw [if_pos h0]
      refine hnone rfl fun v4 h => ?_
      obtain ⟨-, answers, -, hfirst⟩ := (hiff v4).mp h
      rw [h0] at hfirst
      cases hfirst
    · rw [if_neg h0, hr]
      cases r with
      | none =>
        refine hnone rfl fun v4 h => ?_
        obtain ⟨-, answers, hq, -⟩ := (hiff v4).mp h
        cases (hquestions answers).mpr hq
      | some answers =>
        have hstart := (hquestions answers).mp rfl
        obtain ⟨r', hr', hfirst⟩ := scanAnswers_spec data an answers
        refine ⟨r', hr', fun ip => (hfirst ip).trans ⟨?_, ?_⟩⟩
        · rintro ⟨v4, rfl, h⟩
          exact ⟨v4, rfl, (hiff v4).mpr ⟨hrcode, answers, hstart, h⟩⟩
        · rintro ⟨v4, rfl, h⟩
          obtain ⟨-, answers', hq, h⟩ := (hiff v4).mp h
          obtain rfl := Option.some.inj ((hquestions answers').mpr hq)
          exact ⟨v4, rfl, h⟩
  · rw [if_pos hrcode]
    exact hnone rfl fun v4 h => hrcode ((hiff v4).mp h).1

end GreenTunnel
