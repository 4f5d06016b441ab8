import GreenTunnel.DnsWalk
import GreenTunnel.HttpText

/-! # The query for a name

A name of at most 100 bytes is written into the query whole: every part between
its dots that is not empty, in order (`buildDnsQuery_bytes`).  When these parts are
labels the query is a message of the DNS format (`queryMessage_eq_encode`).  Empty
parts are left out, so `a..b` asks for `a.b`; a part of more than 63 bytes is
written with a length byte that no label may have.  `asksFor_iff` says when the
query asks for a given list of labels.
-/
namespace GreenTunnel
open Dns

/-- The parts of a name between its dots, as bytes. -/
def nameParts (domain : Str) : List Bytes := (domain.splitOn '.').map utf8Bytes

/-! ## The parts of a name -/

theorem queryMessage_eq (domain : Str) :
    queryMessage domain = queryHeader ++ (wireLabels ((nameParts domain).filter (· ≠ [])) ++
      0 :: (be16Bytes dnsTypeA ++ be16Bytes dnsClassIn)) := by
  simp only [queryMessage, encodeLabels, wireLabels, nameParts, List.append_assoc]
  rfl

/-- A part is no longer than the name. -/
theorem length_le_of_mem_nameParts {domain : Str} {part : Bytes} (h : part ∈ nameParts domain) :
    part.length ≤ (utf8Bytes domain).length := by
  have hbytes := splitOn_bytes domain
  obtain ⟨p, hp, rfl⟩ := List.mem_map.mp h
  have hsub : List.Sublist (0 :: utf8Bytes p)
      ((domain.splitOn '.').flatMap fun p => 0 :: utf8Bytes p) := by
    rw [List.flatMap_def]
    exact List.sublist_flatten_of_mem (List.mem_map_of_mem hp)
  have hle := hsub.length_le
  rw [hbytes, List.length_cons] at hle
  exact Nat.le_of_succ_le_succ hle

/-- The parts that are written, of a name that fits. -/
theorem mem_written {domain : Str} (h : (utf8Bytes domain).length ≤ 100) :
    ∀ part ∈ (nameParts domain).filter (· ≠ []), part ≠ [] ∧ part.length ≤ 100 := by
  intro part hpart
  obtain ⟨hmem, hne⟩ := List.mem_filter.mp hpart
  exact ⟨of_decide_eq_true hne, Nat.le_trans (length_le_of_mem_nameParts hmem) h⟩

/-! ## What is sent -/

/-- The walk over the name of a query ends before the type. -/
theorem skipDnsName_queryMessage {domain : Str} (h : (utf8Bytes domain).length ≤ 100) :
    skipDnsName (queryMessage domain) dnsHeaderSize =
      .ok (some ((queryMessage domain).length - 4)) := by
  obtain ⟨r, hr, hiff⟩ := skipDnsName_spec (queryMessage domain) dnsHeaderSize
  have hat := bytesAt_of_eq (queryMessage_eq domain)
  have hlabels := hat.right.left
  have hroot := hat.right.right.head
  have hends : NameEnds (queryMessage domain) dnsHeaderSize
      (dnsHeaderSize + (wireLabels ((nameParts domain).filter (· ≠ []))).length + 1) := by
    apply nameEnds_wireLabels _ hlabels (NameEnds.root hroot)
    intro part hpart
    obtain ⟨hne, hle⟩ := mem_written h part hpart
    exact ⟨hne, by omega⟩
  have hlen : (queryMessage domain).length =
      12 + (wireLabels ((nameParts domain).filter (· ≠ []))).length + 5 := by
    rw [queryMessage_eq, List.length_append, List.length_append, ← Nat.add_assoc]
    rfl
  rw [hr, (hiff _).mpr hends, hlen]
  rfl

/-- **What `buildDnsQuery` writes.**  It never leaves its buffer.  A name of more
than 100 bytes yields the length zero.  For any other the message is the header,
every part of the name that is not empty behind its length, a zero byte, and the
type and the class; and the walk over the name ends where the type stands. -/
theorem buildDnsQuery_bytes (domain : Str) :
    (100 < (utf8Bytes domain).length → ∃ query, buildDnsQuery domain = .ok (query, 0)) ∧
    ((utf8Bytes domain).length ≤ 100 → ∃ query msg,
      buildDnsQuery domain = .ok (query, msg.length) ∧
      query.length = 128 ∧ query.take msg.length = msg ∧
      msg = [0, 1] ++ [1, 0] ++ [0, 1] ++ [0, 0] ++ [0, 0] ++ [0, 0] ++
        ((nameParts domain).filter (· ≠ [])).flatMap (fun part => UInt8.ofNat part.length :: part) ++
        [0] ++ [0, 1] ++ [0, 1] ∧
      skipDnsName msg dnsHeaderSize = .ok (some (msg.length - 4))) := by
  constructor
  · intro h
    exact ⟨_, buildDnsQuery_of_gt h⟩
  · intro h
    have hlen : (queryMessage domain).length ≤ 128 := by
      have hlabels := encodeLabels_nameParts_le h
      have hheader : queryHeader.length = 12 := rfl
      simp only [queryMessage, List.length_append, List.length_singleton, be16Bytes_length]
      omega
    refine ⟨_, queryMessage domain, buildDnsQuery_of_le h, queryBuffer_length hlen, ?_, ?_, ?_⟩
    · exact List.take_left
    · rfl
    · exact skipDnsName_queryMessage h

/-- A query with one question, for the address of the host with these labels. -/
def queryFor (labels : List Label) : Message where
  id := 1
  flags := UInt16.ofNat dnsFlagsStandardQuery
  questions := [⟨⟨labels, none⟩, typeA, UInt16.ofNat dnsClassIn⟩]
  answers := []
  nscount := 0
  arcount := 0
  rest := []
  questions_fit := (by decide : 1 < 65536)
  answers_fit := by decide

/-- **The query is a message of the DNS format** when the parts of the name are
labels. -/
theorem queryMessage_eq_encode {domain : Str} {labels : List Label}
    (h : labels.map Label.bytes = (nameParts domain).filter (· ≠ [])) :
    queryMessage domain = (queryFor labels).encode := by
  rw [queryMessage_eq, ← h]
  simp only [queryFor, Message.encode, Question.encode, Name.encode, List.flatMap_cons,
    List.flatMap_nil, List.append_assoc, List.append_nil]
  rfl

/-! ## What is asked for -/

/-- The query for `domain` asks for the name with the given labels, or there is no
query: its name reads as these labels, and the type and the class follow. -/
def AsksFor (domain : Str) (labels : List Bytes) : Prop :=
  ∃ query len, buildDnsQuery domain = .ok (query, len) ∧
    (len = 0 ∨
      decodeLabels ((query.take len).drop dnsHeaderSize) =
        some (labels, be16Bytes dnsTypeA ++ be16Bytes dnsClassIn))

/-- **What a query asks for**: the parts of the name that are not empty, as long as
none of them is too long for a label. -/
theorem asksFor_iff {domain : Str} {labels : List Bytes} :
    AsksFor domain labels ↔ 100 < (utf8Bytes domain).length ∨
      labels = (nameParts domain).filter (· ≠ []) ∧ ∀ l ∈ labels, ValidLabel l := by
  by_cases h : 100 < (utf8Bytes domain).length
  · constructor
    · intro _
      exact Or.inl h
    · intro _
      exact ⟨_, _, buildDnsQuery_of_gt h, Or.inl rfl⟩
  · have hle := Nat.le_of_not_lt h
    have hname : ((queryBuffer (queryMessage domain)).take (queryMessage domain).length).drop
        dnsHeaderSize = wireLabels ((nameParts domain).filter (· ≠ [])) ++
          0 :: (be16Bytes dnsTypeA ++ be16Bytes dnsClassIn) := by
      rw [queryBuffer, List.take_left, queryMessage_eq]
      rfl
    constructor
    · rintro ⟨query, len, hbuild, hlabels⟩
      rw [buildDnsQuery_of_le hle] at hbuild
      cases hbuild
      rcases hlabels with hzero | hdecode
      · exact absurd hzero (queryMessage_length_pos domain)
      · right
        rw [hname] at hdecode
        obtain ⟨hvalid, heq⟩ := decodeLabels_eq_some.mp hdecode
        refine ⟨?_, hvalid⟩
        have hlong : ∀ l ∈ labels, l ≠ [] ∧ l.length < 256 := by
          intro l hl
          obtain ⟨hne, hlen⟩ := hvalid l hl
          exact ⟨hne, by omega⟩
        have hlong' : ∀ l ∈ (nameParts domain).filter (· ≠ []), l ≠ [] ∧ l.length < 256 := by
          intro l hl
          obtain ⟨hne, hlen⟩ := mem_written hle l hl
          exact ⟨hne, by omega⟩
        exact (wireLabels_inj hlong' hlong heq).1.symm
    · rintro (hlong | ⟨rfl, hvalid⟩)
      · exact absurd hlong h
      · refine ⟨_, _, buildDnsQuery_of_le hle, Or.inr ?_⟩
        rw [hname]
        exact decodeLabels_eq_some.mpr ⟨hvalid, rfl⟩

/-- **A query asks for the name it was built for**, its empty parts left out: when
no part is too long for a label, there is no query or its name is well formed and
has the other parts as its labels. -/
theorem query_asks_for_parts (domain : Str)
    (h : ∀ part ∈ domain.splitOn '.', (utf8Bytes part).length ≤ 63) :
    (∀ l ∈ (nameParts domain).filter (· ≠ []), ValidLabel l) ∧
      AsksFor domain ((nameParts domain).filter (· ≠ [])) := by
  have hvalid : ∀ l ∈ (nameParts domain).filter (· ≠ []), ValidLabel l := by
    intro l hl
    obtain ⟨hmem, hne⟩ := List.mem_filter.mp hl
    obtain ⟨part, hpart, rfl⟩ := List.mem_map.mp hmem
    exact ⟨of_decide_eq_true hne, h part hpart⟩
  refine ⟨hvalid, ?_⟩
  apply asksFor_iff.mpr
  right
  exact ⟨rfl, hvalid⟩

theorem query_asks_for_parts_example :
    AsksFor "a..b".toList [[97], [98]] :=
  (query_asks_for_parts "a..b".toList (by decide)).2

/-- The name is the host of some CONNECT without its trailing dots, and not an
address. -/
def IsQueried (domain : Str) : Prop :=
  ∃ request host port, parseConnectTarget request = some (host, port) ∧
    domain = trimEndMatches '.' host ∧ parseIpAddr domain = none

/-- Some names are not asked for: with an empty part, and with a part that is too
long for a label. -/
theorem query_asks_for_name_fails :
    (IsQueried "a..b".toList ∧ ¬ AsksFor "a..b".toList (nameParts "a..b".toList)) ∧
      IsQueried (List.replicate 64 'a') ∧
        ¬ AsksFor (List.replicate 64 'a') (nameParts (List.replicate 64 'a')) := by
  refine ⟨⟨⟨"CONNECT a..b:443 HTTP/1.1".toList, "a..b".toList, 443, ?_, ?_, ?_⟩, ?_⟩,
    ⟨"CONNECT ".toList ++ List.replicate 64 'a', List.replicate 64 'a', 443, ?_, ?_, ?_⟩, ?_⟩
  · decide
  · decide
  · decide
  · rw [asksFor_iff]
    decide
  · decide
  · decide
  · decide
  · rw [asksFor_iff]
    decide

end GreenTunnel
