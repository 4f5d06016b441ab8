import GreenTunnel.Uplink

/-! # What a censor sees

A censor looks for the server name with the parser's own eyes: in a record by itself, or in
the stream, of which it may have got any number of bytes.  What the parser finds is decided
by the bytes in front of the name (`findSniInfo_of_front`), and these are sent as they are;
so it is led to the same place in the stream, and there it reads a record header in the
middle of the name.

On every connection a censor finds the name in neither of the two records, nor in the stream;
and the server, which joins the payloads of the records, has the record that the client
sent, and the name (`handleClient_evades`).
-/
namespace GreenTunnel
open Trace

/-- The parser reads the name in the bytes. -/
def SeesName (bs name : Bytes) : Prop :=
  ∃ info, findSniInfo bs = .ok (some info) ∧
    (bs.drop info.hostnameOffset).take info.hostnameLength = name

/-- A name without the two bytes by which a ClientHello is known. -/
structure Unmarked (name : Bytes) : Prop where
  contentType : tlsContentTypeHandshake ∉ name
  handshakeType : handshakeTypeClientHello ∉ name

/-- The name that is read is as long as the parser says. -/
theorem nameBytes_length {bs : Bytes} {info : SniInfo} (h : findSniInfo bs = .ok (some info)) :
    ((bs.drop info.hostnameOffset).take info.hostnameLength).length = info.hostnameLength := by
  have hb := (findSniInfo_bounds h).2
  rw [List.length_take, List.length_drop]
  omega

/-! ## The bytes in front of the name -/

/-- Up to `m`, what stands in `data'` stands in `data` too, but for the length of the
record. -/
def AgreesUpTo (m : Nat) (data' data : Bytes) : Prop :=
  ∀ i < m, i ≠ 3 → i ≠ 4 → ∀ b, data'[i]? = some b → data[i]? = some b

namespace AgreesUpTo
variable {m : Nat} {data data' : Bytes}

theorem be16At (h : AgreesUpTo m data' data) {i v : Nat} (h5 : 5 ≤ i) (hm : i + 2 ≤ m)
    (hv : be16At data' i = some v) : GreenTunnel.be16At data i = some v := by
  obtain ⟨hi, lo, hhi, hlo, heq⟩ := be16At_eq_some.mp hv
  exact be16At_eq_some.mpr ⟨hi, lo, h i (by omega) (by omega) (by omega) hi hhi,
    h (i + 1) (by omega) (by omega) (by omega) lo hlo, heq⟩

/-- The same number is read in both. -/
theorem be16At_eq (h : AgreesUpTo m data' data) {i v v' : Nat} (h5 : 5 ≤ i) (hm : i + 2 ≤ m)
    (hv' : GreenTunnel.be16At data' i = some v') (hv : GreenTunnel.be16At data i = some v) :
    v' = v := Option.some.inj ((h.be16At h5 hm hv').symm.trans hv)

theorem byte_eq (h : AgreesUpTo m data' data) {i : Nat} {b b' : UInt8} (h5 : 5 ≤ i) (hm : i < m)
    (hb' : data'[i]? = some b') (hb : data[i]? = some b) : b' = b :=
  Option.some.inj ((h i hm (by omega) (by omega) b' hb').symm.trans hb)

/-- The extensions begin and end at the same places. -/
theorem extensionBlock (h : AgreesUpTo m data' data) {pos stop pos' stop' : Nat}
    (hb : ExtensionBlock data pos stop) (hb' : ExtensionBlock data' pos' stop') (hm : pos ≤ m) :
    pos' = pos ∧ stop' = stop := by
  obtain ⟨-, h1, h2, h3, h4⟩ := hb
  obtain ⟨-, h1', h2', h3', h4'⟩ := hb'
  obtain rfl := h.byte_eq (by omega) (by omega) h1' h1
  obtain rfl := h.be16At_eq (by omega) (by omega) h2' h2
  obtain rfl := h.byte_eq (by omega) (by omega) h3' h3
  obtain rfl := h.be16At_eq (by omega) (by omega) h4' h4
  exact ⟨rfl, rfl⟩

/-- The walks over the extensions lead to the same name. -/
theorem sniAt (h : AgreesUpTo m data' data) {stop pos : Nat} {info seen : SniInfo} (h5 : 5 ≤ pos)
    (hs : SniAt data stop pos info) (hm : info.hostnameOffset ≤ m)
    (hs' : SniAt data' stop pos seen) : seen = info := by
  induction hs with
  | @found pos _ _ _ ht _ hlen _ =>
    change pos + 9 ≤ m at hm
    cases hs' with
    | found _ _ _ hlen' _ =>
      obtain rfl := h.be16At_eq (by omega) (by omega) hlen' hlen
      rfl
    | skip _ ht' hne => exact absurd (h.be16At_eq (by omega) (by omega) ht' ht) hne
  | @skip pos _ _ _ _ ht hne hl hrest ih =>
    have hbounds := hrest.bounds
    cases hs' with
    | found _ ht' => exact absurd (h.be16At_eq (by omega) (by omega) ht' ht).symm hne
    | skip _ _ _ hl' hrest' =>
      obtain rfl := h.be16At_eq (by omega) (by omega) hl' hl
      exact ih (by omega) hm hrest'

end AgreesUpTo

/-- **The bytes in front of the name decide** what the parser finds. -/
theorem findSniInfo_of_front {m : Nat} {data data' : Bytes} {info seen : SniInfo}
    (h : AgreesUpTo m data' data) (hinfo : findSniInfo data = .ok (some info))
    (hm : info.hostnameOffset ≤ m) (hseen : findSniInfo data' = .ok (some seen)) : seen = info := by
  obtain ⟨pos, stop, hb, hs⟩ := findSniInfo_eq_some.mp hinfo
  obtain ⟨pos', stop', hb', hs'⟩ := findSniInfo_eq_some.mp hseen
  have hbounds := hs.bounds
  obtain ⟨rfl, rfl⟩ := h.extensionBlock hb hb' (by omega)
  exact h.sniAt (by have := hb.le; omega) hs hm hs'

/-! ## A record that is split -/

section
variable {rawCh : Bytes} {info : SniInfo} {cut : Nat} {rec1 rec2 : TlsRecordSlice}

/-- The first half ends where the record is cut. -/
theorem SplitAt.rec1_length {split : Nat} (h : SplitAt rawCh split rec1 rec2) :
    rec1.serialize.length = split := by
  rw [h.rec1_sameBut.1, List.length_take_of_le (Nat.le_of_lt h.hi)]

/-- Neither half shows the name. -/
theorem SplitAt.hidden (h : SplitAt rawCh (info.hostnameOffset + cut) rec1 rec2)
    (hinfo : findSniInfo rawCh = .ok (some info)) (hcut : cut < info.hostnameLength)
    (hmark : handshakeTypeClientHello ∉
      (rawCh.drop info.hostnameOffset).take info.hostnameLength) :
    findSniInfo rec1.serialize = .ok none ∧ findSniInfo rec2.serialize = .ok none := by
  constructor
  · rw [h.rec1_sameBut.findSniInfo]
    exact findSniInfo_take_eq_none hinfo (by omega)
  · refine findSniInfo_of_not_starts fun hstarts => hmark ?_
    have hbyte := hstarts.2
    rw [h.rec2_sixth, ← List.getElem?_drop] at hbyte
    exact List.mem_of_getElem? (i := cut) (getElem?_take_eq_some.mpr ⟨hbyte, hcut⟩)

/-- Nor do they in front of anything: where the name goes on, a header stands. -/
theorem SplitAt.unseen (h : SplitAt rawCh (info.hostnameOffset + cut) rec1 rec2)
    (hinfo : findSniInfo rawCh = .ok (some info)) (hcut : cut < info.hostnameLength)
    (hmark : tlsContentTypeHandshake ∉
      (rawCh.drop info.hostnameOffset).take info.hostnameLength) (behind : Bytes) (n : Nat) :
    ¬ SeesName ((rec1.serialize ++ (rec2.serialize ++ behind)).take n)
      ((rawCh.drop info.hostnameOffset).take info.hostnameLength) := by
  rintro ⟨seen, hseen, hname⟩
  have hlen := h.rec1_length
  generalize hsent : rec1.serialize ++ (rec2.serialize ++ behind) = sent at *
  have hagrees : AgreesUpTo (info.hostnameOffset + cut) (sent.take n) rawCh := by
    intro i hi h3 h4 b hb
    have hsentAt := (getElem?_take_eq_some.mp hb).1
    rw [← hsent, List.getElem?_append_left (by omega), h.rec1_sameBut.2 i h3 h4] at hsentAt
    exact (getElem?_take_eq_some.mp hsentAt).1
  obtain rfl := findSniInfo_of_front hagrees hinfo (Nat.le_add_right _ _) hseen
  -- the byte of the name at the cut is the one that begins the second record
  obtain ⟨b, hbyte⟩ : ∃ b, ((rawCh.drop seen.hostnameOffset).take seen.hostnameLength)[cut]? =
      some b := ⟨_, List.getElem?_eq_getElem (by rw [nameBytes_length hinfo]; exact hcut)⟩
  have hseenAt := hbyte
  rw [← hname, getElem?_take_eq_some, List.getElem?_drop, getElem?_take_eq_some] at hseenAt
  have hhead : sent[seen.hostnameOffset + cut]? = some tlsContentTypeHandshake := by
    obtain ⟨pos, stop, ⟨hstarts, -⟩, -⟩ := findSniInfo_eq_some.mp hinfo
    obtain ⟨⟨ct, major, minor, h0, -, -, -, rfl⟩, -, -⟩ := h
    rw [← hsent, List.getElem?_append_right (Nat.le_of_eq hlen), hlen, Nat.sub_self,
      ← hstarts.1, h0]
    rfl
  rw [hhead] at hseenAt
  refine hmark ?_
  rw [Option.some.inj hseenAt.1.1]
  exact List.mem_of_getElem? hbyte

/-- A read whose first part shows a long name is split, and its halves are records. -/
theorem split_of_seen {raw name : Bytes} {host : Str} {draw : Nat} {plan : HelloPlan}
    (hplan : planHello raw host draw = .ok plan) (hcap : raw.length ≤ clientHelloBufSize)
    (hname : SeesName (raw.take (firstPartEnd raw)) name) (hlong : 4 < name.length)
    (hmark : Unmarked name) :
    ∃ r₁ r₂ : Record, plan.bytes = r₁.encode ++ (r₂.encode ++ raw.drop (firstPartEnd raw)) ∧
      (findSniInfo r₁.encode = .ok none ∧ findSniInfo r₂.encode = .ok none) ∧
      (∀ behind n, ¬ SeesName ((r₁.encode ++ (r₂.encode ++ behind)).take n) name) ∧
      (ReadWhole raw → ∃ r, Joined r₁ r₂ r ∧ r.encode = raw.take (firstPartEnd raw)) := by
  obtain ⟨info, hinfo, rfl⟩ := hname
  rw [nameBytes_length hinfo] at hlong
  rcases planHello_cases raw host draw with
    ⟨info', cut, rec1, rec2, hinfo', -, -, -, hcut, hsplit, hp⟩ | ⟨hshort, -⟩
  · obtain rfl : info = info' := Option.some.inj (Except.ok.inj (hinfo.symm.trans hinfo'))
    cases hplan.symm.trans hp
    have hfit : (raw.take (firstPartEnd raw)).length < 65536 + 5 :=
      Nat.lt_of_le_of_lt (Nat.le_trans (List.length_take_le' _ _) hcap) (by decide)
    obtain ⟨r₁, r₂, hs₁, hs₂, ht₁, ht₂, -, -, hpay⟩ := hsplit.records hfit
    have hhidden := hsplit.hidden hinfo hcut hmark.handshakeType
    have hunseen := hsplit.unseen hinfo hcut hmark.contentType
    rw [hs₁, hs₂] at hhidden hunseen
    refine ⟨r₁, r₂, ?_, hhidden, hunseen, fun hwhole => ?_⟩
    · rw [HelloPlan.bytes, Option.map_some, Option.getD_some, hs₁, hs₂]
    · have hnamed : Named raw := ⟨info, hinfo, hlong⟩
      obtain ⟨hpos, hlen⟩ := hwhole.split hnamed
      obtain ⟨r, hr, -⟩ := record_of_complete hlen
      have hfirst : raw.take (firstPartEnd raw) = r.encode := by
        rw [firstPartEnd_of_complete hnamed.starts hpos hlen, tlsRecordHeaderSize, hr]
      rw [hfirst] at ht₁ ht₂ hpay
      exact ⟨r, ⟨(List.cons.inj ht₁).1.symm, (List.cons.inj ht₂).1.symm, hpay⟩, hfirst.symm⟩
  · exact absurd (hshort info hinfo) (Nat.not_le_of_lt hlong)

end

/-! ## The connection -/

/-- **The name is kept from a censor, and not from the server.**  On every connection with a
hello in which the parser sees a name of more than four bytes, two records are sent on, as
far as the connection comes.  The parser sees nothing in either of them, and not the name in
what a censor has got of the stream; and if the hello was read whole, their payloads are
those of the record that the client sent, in which it sees the name. -/
theorem handleClient_evades {cfg : ProxyServerConfig} {net : Network} {stream hello name : Bytes}
    (hread : .readHello hello ∈ (handleClient cfg net stream).events)
    (hname : SeesName (hello.take (firstPartEnd hello)) name) (hlong : 4 < name.length)
    (hmark : Unmarked name) :
    ∃ (r₁ r₂ : Record) (behind : Bytes),
      uplink (handleClient cfg net stream).events <+: r₁.encode ++ (r₂.encode ++ behind) ∧
      (∀ rest, .tunnel rest ∈ (handleClient cfg net stream).events →
        uplink (handleClient cfg net stream).events = r₁.encode ++ (r₂.encode ++ behind)) ∧
      (findSniInfo r₁.encode = .ok none ∧ findSniInfo r₂.encode = .ok none) ∧
      (∀ seen, seen <+: uplink (handleClient cfg net stream).events → ¬ SeesName seen name) ∧
      (ReadWhole hello → ∃ r, Joined r₁ r₂ r ∧ r.encode <+: hello ∧ SeesName r.encode name) := by
  obtain ⟨_, hlead, -, -⟩ := handleClient_follows cfg net stream
  obtain ⟨hcap, host, behind, ⟨draw, plan, hplan, hpart, hall⟩, -⟩ := uplink_plan hlead hread
  obtain ⟨r₁, r₂, hbytes, hhidden, hunseen, hjoined⟩ :=
    split_of_seen hplan hcap hname hlong hmark
  rw [hbytes, List.append_assoc, List.append_assoc] at hpart hall
  refine ⟨r₁, r₂, _, hpart, hall, hhidden, fun seen hseen => ?_, fun hwhole => ?_⟩
  · have hprefix := hunseen (hello.drop (firstPartEnd hello) ++ behind) seen.length
    rwa [← List.prefix_iff_eq_take.mp (hseen.trans hpart)] at hprefix
  · obtain ⟨r, hjoin, hr⟩ := hjoined hwhole
    exact ⟨r, hjoin, hr ▸ List.take_prefix _ _, hr ▸ hname⟩

theorem handleClient_evades_example :
    ∃ (r₁ r₂ : Record) (behind : Bytes),
      uplink (handleClient noOptions twoReads
        (shortRequest ++ (helloThenThree ++ [4]))).events <+:
          r₁.encode ++ (r₂.encode ++ behind) ∧
      (∀ rest, .tunnel rest ∈ (handleClient noOptions twoReads
          (shortRequest ++ (helloThenThree ++ [4]))).events →
        uplink (handleClient noOptions twoReads
          (shortRequest ++ (helloThenThree ++ [4]))).events =
            r₁.encode ++ (r₂.encode ++ behind)) ∧
      (findSniInfo r₁.encode = .ok none ∧ findSniInfo r₂.encode = .ok none) ∧
      (∀ seen, seen <+: uplink (handleClient noOptions twoReads
          (shortRequest ++ (helloThenThree ++ [4]))).events →
        ¬ SeesName seen (utf8Bytes "example.com".toList)) ∧
      (ReadWhole helloThenThree → ∃ r, Joined r₁ r₂ r ∧ r.encode <+: helloThenThree ∧
        SeesName r.encode (utf8Bytes "example.com".toList)) :=
  @handleClient_evades noOptions twoReads
    (shortRequest ++ (helloThenThree ++ [4])) helloThenThree (utf8Bytes "example.com".toList)
    (by decide +kernel) ⟨⟨61, 11⟩, by decide +kernel, by decide +kernel⟩ (by decide)
    ⟨by decide, by decide⟩

end GreenTunnel
