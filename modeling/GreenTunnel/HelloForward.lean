import GreenTunnel.HelloPipeline
import GreenTunnel.Network
import GreenTunnel.VectoredWrite
import Mathlib.Data.List.TakeDrop

/-! # Sending the first read on (`proxy.rs`)

`forwardHello` is what `handle_connect_tunnel` does with the first read of a
tunnel before it starts to copy in both directions: it plans what to send and
writes it to the remote.  Whatever the socket does, it delivers the bytes of the
plan (`forwardHello_delivers`).

A plan that splits a complete record sends a stream with the same content
(`split_complete_record`).  One that splits a record of which only a part has
been read labels the halves as if nothing were missing, and the rest of the
record then follows without a header (`split_partial_record`).  A plan that does
not split sends the first part of the read only (`fallback_forwards`).
-/
namespace GreenTunnel
open Checked

/-- A pause of `minMs` to `maxMs` milliseconds; the value is its length. -/
def randomDelay (minMs maxMs draw : Nat) : Checked Nat := drawIn minMs maxMs draw

def transmitTlsRecords (remote : Socket) (rec1 : TlsRecordSlice) (rec2 : Option TlsRecordSlice)
    (trailingData : Bytes) (isMeta : Bool) (delay : Nat) : Written :=
  (writeAllVectored remote [rec1.header, rec1.payload]).andThen fun remote =>
    match if !isMeta then randomDelay 1 5 delay else .ok 0 with
    | .error f => (.error (.fault f), remote)
    | .ok _ =>
      match rec2 with
      | some rec2 =>
        if trailingData ≠ [] then
          writeAllVectored remote [rec2.header, rec2.payload, trailingData]
        else writeAllVectored remote [rec2.header, rec2.payload]
      | none => if trailingData ≠ [] then remote.writeAll trailingData else (.ok (), remote)

def forwardHello (rawBytes : Bytes) (host : Str) (isMeta : Bool) (draws : HelloDraws)
    (remote : Socket) : Written :=
  match planHello rawBytes host draws.cut with
  | .error f => (.error (.fault f), remote)
  | .ok (.split rec1 rec2 trailingData) =>
    transmitTlsRecords remote rec1 rec2 trailingData isMeta draws.delay
  | .ok (.fallback rawCh) => (splitAndWrite draws.chunks rawCh remote).2

/-- The bytes of a plan, in the order they are sent. -/
def HelloPlan.bytes : HelloPlan → Bytes
  | .split rec1 rec2 trailing =>
    rec1.serialize ++ ((rec2.map TlsRecordSlice.serialize).getD [] ++ trailing)
  | .fallback rawCh => rawCh

/-! ## What is sent -/

/-- The pause has a length, if there is one. -/
theorem pause_ok (isMeta : Bool) (delay : Nat) :
    ∃ ms, (if !isMeta then randomDelay 1 5 delay else .ok 0) = .ok ms := by
  cases isMeta with
  | true => exact ⟨0, rfl⟩
  | false =>
    obtain ⟨ms, hms, -⟩ := drawIn_of_le (show 1 ≤ 5 by decide) delay
    exact ⟨ms, hms⟩

theorem transmitTlsRecords_delivers (remote : Socket) (rec1 : TlsRecordSlice)
    (rec2 : Option TlsRecordSlice) (trailing : Bytes) (isMeta : Bool) (delay : Nat) :
    Delivers remote (HelloPlan.split rec1 rec2 trailing).bytes
      (transmitTlsRecords remote rec1 rec2 trailing isMeta delay) := by
  have hfirst : Delivers remote rec1.serialize
      (writeAllVectored remote [rec1.header, rec1.payload]) := by
    have := writeAllVectored_delivers remote [rec1.header, rec1.payload]
    rwa [List.flatten_cons, List.flatten_singleton] at this
  refine hfirst.andThen fun remote => ?_
  obtain ⟨ms, hms⟩ := pause_ok isMeta delay
  simp only [hms]
  cases rec2 with
  | some rec2 =>
    by_cases ht : trailing = []
    · have := writeAllVectored_delivers remote [rec2.header, rec2.payload]
      simpa [ht, TlsRecordSlice.serialize] using this
    · have := writeAllVectored_delivers remote [rec2.header, rec2.payload, trailing]
      simpa [ht, TlsRecordSlice.serialize] using this
  | none =>
    by_cases ht : trailing = []
    · simpa [ht] using Delivers.nil remote
    · simpa [ht] using Socket.writeAll_delivers remote trailing

/-- **The bytes of the plan are delivered**, whatever the socket does. -/
theorem forwardHello_delivers {raw : Bytes} {host : Str} {draws : HelloDraws} {plan : HelloPlan}
    (hplan : planHello raw host draws.cut = .ok plan) (isMeta : Bool) (remote : Socket) :
    Delivers remote plan.bytes (forwardHello raw host isMeta draws remote) := by
  unfold forwardHello
  rw [hplan]
  cases plan with
  | split rec1 rec2 trailing =>
    exact transmitTlsRecords_delivers remote rec1 rec2 trailing isMeta draws.delay
  | fallback rawCh => exact splitAndWrite_delivers draws.chunks rawCh remote

/-- What a fresh connection has received when sending succeeded. -/
theorem forwardHello_received {raw : Bytes} {host : Str} {isMeta : Bool} {draws : HelloDraws}
    {plan : HelloPlan} {outcomes : Nat → WriteOutcome}
    (hplan : planHello raw host draws.cut = .ok plan)
    (hok : (forwardHello raw host isMeta draws (.fresh outcomes)).1 = .ok ()) :
    (forwardHello raw host isMeta draws (.fresh outcomes)).2.received = plan.bytes := by
  have := (forwardHello_delivers hplan isMeta (.fresh outcomes)).ok hok
  simpa using this

/-! ## Splitting a complete record -/

theorem firstPartEnd_of_complete {raw : Bytes} (hs : StartsClientHello raw)
    (hpos : 0 < declaredLength raw) (hlen : tlsRecordHeaderSize + declaredLength raw ≤ raw.length) :
    firstPartEnd raw = tlsRecordHeaderSize + declaredLength raw := by
  by_cases ht : TrailsFirstRecord raw
  · rw [firstPartEnd, if_pos ht]
  · have : ¬ tlsRecordHeaderSize + declaredLength raw < raw.length := fun h => ht ⟨hs, hpos, h⟩
    rw [firstPartEnd, if_neg ht]
    omega

theorem firstPartEnd_of_partial {raw : Bytes}
    (hlen : raw.length ≤ tlsRecordHeaderSize + declaredLength raw) :
    firstPartEnd raw = raw.length := by
  have ht : ¬ TrailsFirstRecord raw := fun h => Nat.not_lt_of_le hlen h.2.2
  rw [firstPartEnd, if_neg ht]

/-- A plan that splits cuts the first part of the read in two. -/
theorem splitAt_of_planHello {raw : Bytes} {host : Str} {draw : Nat} {rec1 : TlsRecordSlice}
    {rec2? : Option TlsRecordSlice} {trailing : Bytes}
    (h : planHello raw host draw = .ok (.split rec1 rec2? trailing)) :
    ∃ split rec2, SplitAt (raw.take (firstPartEnd raw)) split rec1 rec2 ∧ rec2? = some rec2 ∧
      trailing = raw.drop (firstPartEnd raw) := by
  rcases planHello_cases raw host draw with ⟨info, cut, r1, r2, -, -, -, -, -, hsplit, hp⟩ | ⟨-, hp⟩
  · rw [h] at hp
    cases hp
    exact ⟨_, _, hsplit, rfl, rfl⟩
  · rw [h] at hp
    cases hp

/-- The halves of a record are records, and their payloads are the two parts of
the record's payload. -/
theorem SplitAt.records {rawCh : Bytes} {split : Nat} {rec1 rec2 : TlsRecordSlice}
    (h : SplitAt rawCh split rec1 rec2) (hfit : rawCh.length < 65536 + 5) :
    ∃ r₁ r₂ : Record, rec1.serialize = r₁.encode ∧ rec2.serialize = r₂.encode ∧
      rawCh.take 3 = [r₁.contentType, r₁.major, r₁.minor] ∧
      rawCh.take 3 = [r₂.contentType, r₂.major, r₂.minor] ∧
      r₁.payload ≠ [] ∧ r₂.payload ≠ [] ∧ r₁.payload ++ r₂.payload = rawCh.drop 5 := by
  obtain ⟨⟨ct, major, minor, h0, h1, h2, rfl, rfl⟩, hlo, hhi⟩ := h
  rw [tlsRecordHeaderSize] at hlo
  have hl1 : ((rawCh.take split).drop 5).length = split - 5 := by
    rw [List.length_drop, List.length_take]
    omega
  have hl2 : (rawCh.drop split).length = rawCh.length - split := List.length_drop
  have hthree : rawCh.take 3 = [ct, major, minor] := by
    rw [List.take_add_one, List.take_add_one, List.take_add_one, h0, h1, h2]
    rfl
  refine ⟨⟨ct, major, minor, (rawCh.take split).drop 5, by omega⟩,
    ⟨ct, major, minor, rawCh.drop split, by omega⟩, reheaded_serialize _, reheaded_serialize _,
    hthree, hthree, ?_, ?_, ?_⟩
  · exact List.length_pos_iff.mp (Nat.lt_of_lt_of_eq (by omega) hl1.symm)
  · exact List.length_pos_iff.mp (Nat.lt_of_lt_of_eq (by omega) hl2.symm)
  · have hle : 5 ≤ (rawCh.take split).length := by
      rw [List.length_take]
      omega
    rw [← List.drop_append_of_le_length hle, List.take_append_drop]

/-- The complete record at the front of a read. -/
theorem record_of_complete {raw : Bytes}
    (hlen : tlsRecordHeaderSize + declaredLength raw ≤ raw.length) :
    ∃ r : Record, raw.take (5 + declaredLength raw) = r.encode ∧
      r.payload.length = declaredLength raw := by
  rw [tlsRecordHeaderSize] at hlen
  obtain ⟨ct, major, minor, hi, lo, rest, rfl⟩ :=
    eq_five_cons_of_le (show 5 ≤ raw.length by omega)
  have hd : declaredLength (ct :: major :: minor :: hi :: lo :: rest) = be16 hi lo := rfl
  rw [hd] at hlen ⊢
  have hle : be16 hi lo ≤ rest.length := by
    simp only [List.length_cons] at hlen
    omega
  refine ⟨⟨ct, major, minor, rest.take (be16 hi lo), ?_⟩, ?_, ?_⟩
  · exact Nat.lt_of_le_of_lt (List.length_take_le _ _) (be16_lt hi lo)
  · rw [Nat.add_comm]
    simp only [Record.encode, Record.header, List.length_take, Nat.min_eq_left hle,
      be16Bytes_be16]
    rfl
  · rw [List.length_take, Nat.min_eq_left hle]

/-- **Splitting a complete record.**  A read that starts with a complete
ClientHello record and is split reaches the remote as two records with the
payload of the first, followed by the bytes behind it, so that a receiver reads
the same content and is left with the same rest. -/
theorem split_complete_record {raw : Bytes} {host : Str} {isMeta : Bool} {draws : HelloDraws}
    {outcomes : Nat → WriteOutcome} {rec1 : TlsRecordSlice} {rec2? : Option TlsRecordSlice}
    {trailing : Bytes} (hs : StartsClientHello raw) (hpos : 0 < declaredLength raw)
    (hlen : tlsRecordHeaderSize + declaredLength raw ≤ raw.length)
    (hplan : planHello raw host draws.cut = .ok (.split rec1 rec2? trailing))
    (hok : (forwardHello raw host isMeta draws (.fresh outcomes)).1 = .ok ()) :
    ∃ h1 p1 h2 p2 t,
      (forwardHello raw host isMeta draws (.fresh outcomes)).2.received =
        h1 ++ p1 ++ h2 ++ p2 ++ t ∧
      p1 ≠ [] ∧ p2 ≠ [] ∧ p1 ++ p2 = (raw.drop 5).take (declaredLength raw) ∧
      t = raw.drop (5 + declaredLength raw) ∧
      h1.length = 5 ∧ h2.length = 5 ∧ h1.take 3 = raw.take 3 ∧ h2.take 3 = raw.take 3 ∧
      be16At h1 3 = some p1.length ∧ be16At h2 3 = some p2.length ∧
      (readRecords (h1 ++ p1 ++ h2 ++ p2 ++ t)).2 = (readRecords raw).2 ∧
      content (readRecords (h1 ++ p1 ++ h2 ++ p2 ++ t)).1 = content (readRecords raw).1 := by
  obtain ⟨split, rec2, hsplit, rfl, rfl⟩ := splitAt_of_planHello hplan
  have hrec := forwardHello_received hplan hok
  rw [firstPartEnd_of_complete hs hpos hlen, tlsRecordHeaderSize] at hsplit hrec
  -- the first part of the read is one record `r`, and its halves are records `r₁` and `r₂`
  obtain ⟨r, hr, hrlen⟩ := record_of_complete hlen
  have hraw : raw = r.encode ++ raw.drop (5 + declaredLength raw) := by
    rw [← hr, List.take_append_drop]
  rw [hr] at hsplit
  obtain ⟨r₁, r₂, hs₁, hs₂, ht₁, ht₂, hne₁, hne₂, hp⟩ :=
    hsplit.records (by have := r.fits; rw [Record.encode_length]; omega)
  have hthree : raw.take 3 = r.encode.take 3 := by
    rw [hraw]
    rfl
  have hct : ∀ r' : Record, r.encode.take 3 = [r'.contentType, r'.major, r'.minor] →
      r'.contentType = r.contentType := fun r' h => (List.cons.inj h).1.symm
  have hassoc : ∀ t, r₁.header ++ r₁.payload ++ r₂.header ++ r₂.payload ++ t =
      r₁.encode ++ (r₂.encode ++ t) := fun t => by simp [Record.encode]
  have hread : readRecords raw = (r :: (readRecords (raw.drop (5 + declaredLength raw))).1,
      (readRecords (raw.drop (5 + declaredLength raw))).2) := by
    conv_lhs => rw [hraw]
    exact readRecords_encode_append r _
  refine ⟨r₁.header, r₁.payload, r₂.header, r₂.payload, raw.drop (5 + declaredLength raw), ?_,
    hne₁, hne₂, ?_, rfl, rfl, rfl, hthree.symm ▸ ht₁.symm, hthree.symm ▸ ht₂.symm,
    r₁.be16At_header, r₂.be16At_header, ?_, ?_⟩
  · rw [hassoc, hrec, ← hs₁, ← hs₂]
    rfl
  · rw [hp, ← hr, List.drop_take, Nat.add_sub_cancel_left]
  · rw [hassoc, readRecords_encode_append, readRecords_encode_append, hread]
  · rw [hassoc, readRecords_encode_append, readRecords_encode_append, hread]
    exact content_split (hct r₁ ht₁) (hct r₂ ht₂) hp _

/-- A ClientHello with three bytes behind it. -/
def helloThenThree : Bytes :=
  buildSyntheticClientHello (some "example.com".toList) false ++ [1, 2, 3]

theorem split_complete_record_example :
    ∃ h1 p1 h2 p2 t,
      (forwardHello helloThenThree "example.com".toList false ⟨0, 0, fun _ => 0⟩
        (.fresh fun _ => .accepts 30)).2.received = h1 ++ p1 ++ h2 ++ p2 ++ t ∧
      p1 ≠ [] ∧ p2 ≠ [] ∧
      p1 ++ p2 = (helloThenThree.drop 5).take (declaredLength helloThenThree) ∧
      t = helloThenThree.drop (5 + declaredLength helloThenThree) ∧
      h1.length = 5 ∧ h2.length = 5 ∧ h1.take 3 = helloThenThree.take 3 ∧
      h2.take 3 = helloThenThree.take 3 ∧
      be16At h1 3 = some p1.length ∧ be16At h2 3 = some p2.length ∧
      (readRecords (h1 ++ p1 ++ h2 ++ p2 ++ t)).2 = (readRecords helloThenThree).2 ∧
      content (readRecords (h1 ++ p1 ++ h2 ++ p2 ++ t)).1 =
        content (readRecords helloThenThree).1 :=
  @split_complete_record helloThenThree "example.com".toList false ⟨0, 0, fun _ => 0⟩
    (fun _ => .accepts 30) (reheaded 0x16 3 1 ((helloThenThree.take 65).drop 5))
    (some (reheaded 0x16 3 1 ((helloThenThree.take 72).drop 65))) [1, 2, 3]
    (by decide) (by decide) (by decide) (by decide +kernel) (by decide +kernel)

/-! ## Splitting a record of which a part has been read -/

theorem declaredLength_take_encode {r : Record} {s : Bytes} {n : Nat} (hn : 5 ≤ n) :
    declaredLength ((r.encode ++ s).take n) = r.payload.length := by
  have h : be16At (r.encode ++ s) 3 = some r.payload.length := r.be16At_header
  rw [declaredLength, be16At_take.mpr ⟨h, hn⟩, Option.getD_some]

/-- The halves of a record of which `n` bytes have been read share out what has been
read of its content. -/
theorem split_partial_halves {r : Record} {rs : List Record} {n draw : Nat} {host : Str}
    {rec1 : TlsRecordSlice} {rec2? : Option TlsRecordSlice} {trailing : Bytes}
    (hn : n < tlsRecordHeaderSize + r.payload.length)
    (hplan : planHello ((encodeAll (r :: rs)).take n) host draw =
      .ok (.split rec1 rec2? trailing)) :
    5 ≤ n ∧ ∃ r₁ r₂ : Record,
      (HelloPlan.split rec1 rec2? trailing).bytes = r₁.encode ++ r₂.encode ∧
      content (r :: rs) = (r₁.payload.map fun b => (r₁.contentType, b)) ++
        ((r₂.payload.map fun b => (r₂.contentType, b)) ++ (content (r :: rs)).drop (n - 5)) := by
  obtain ⟨split, rec2, hsplit, rfl, rfl⟩ := splitAt_of_planHello hplan
  generalize hraw : (encodeAll (r :: rs)).take n = raw at *
  rw [tlsRecordHeaderSize] at hn
  have hlen : raw.length = n := by
    rw [← hraw, List.length_take, encodeAll_cons, List.length_append, Record.encode_length]
    omega
  have hlo := hsplit.lo
  have hhi := hsplit.hi
  rw [List.length_take, tlsRecordHeaderSize] at *
  have hdecl : declaredLength raw = r.payload.length := by
    rw [← hraw]
    exact declaredLength_take_encode (by omega)
  -- nothing is behind the first record, so the halves share out what has been read
  have hend : firstPartEnd raw = raw.length :=
    firstPartEnd_of_partial (by rw [tlsRecordHeaderSize]; omega)
  rw [hend, List.take_length] at hsplit
  rw [hend, List.drop_length]
  obtain ⟨r₁, r₂, hs₁, hs₂, ht₁, ht₂, -, -, hp⟩ := hsplit.records (by have := r.fits; omega)
  -- both headers are copies of the record's, but for the length
  have hthree : raw.take 3 = [r.contentType, r.major, r.minor] := by
    rw [← hraw, List.take_take, Nat.min_eq_left (by omega)]
    rfl
  have hct₁ : r₁.contentType = r.contentType := (List.cons.inj (hthree.symm.trans ht₁)).1.symm
  have hct₂ : r₂.contentType = r.contentType := (List.cons.inj (hthree.symm.trans ht₂)).1.symm
  have hread : r₁.payload ++ r₂.payload = r.payload.take (n - 5) := by
    have hdrop : (encodeAll (r :: rs)).drop 5 = r.payload ++ encodeAll rs := rfl
    rw [hp, ← hraw, List.drop_take, hdrop, List.take_append_of_le_length (by omega)]
  refine ⟨by omega, r₁, r₂, ?_, ?_⟩
  · rw [← hs₁, ← hs₂]
    exact congrArg (rec1.serialize ++ ·) (List.append_nil _)
  · rw [← List.append_assoc, hct₁, hct₂, ← List.map_append, hread, List.map_take, content_cons,
      ← List.take_append_of_le_length (by rw [List.length_map]; omega), List.take_append_drop]

/-- The end of a record's payload is no record stream with that payload as its
content: it has no room for a header. -/
theorem not_carries_drop {r : Record} {n : Nat} (h5 : 5 ≤ n)
    (hn : n < tlsRecordHeaderSize + r.payload.length) :
    ¬ Carries ((encodeAll [r]).drop n) ((content [r]).drop (n - 5)) := by
  intro hc
  rw [tlsRecordHeaderSize] at hn
  obtain ⟨rs', hrs', hl⟩ := hc.length
  have hlen : (encodeAll [r]).length = 5 + r.payload.length := by
    rw [encodeAll_cons, encodeAll_nil, List.append_nil, Record.encode_length]
  rw [List.length_drop, List.length_drop, content_cons, content_nil, List.append_nil,
    List.length_map] at hl
  -- the lengths leave five bytes for no record at all
  have hnil : rs' = [] := List.eq_nil_of_length_eq_zero (by omega)
  rw [hnil, encodeAll_nil] at hrs'
  have := congrArg List.length hrs'
  rw [List.length_drop, List.length_nil] at this
  omega

/-- **Splitting a record that has not been read whole.**  The halves are labelled
with what has been read, so what the remote receives is the same record stream
exactly when the bytes still to come are by themselves the records that carry the
content still to come; when the ClientHello is the last record, never. -/
theorem split_partial_record {r : Record} {rs : List Record} {n : Nat} {host : Str} {isMeta : Bool}
    {draws : HelloDraws} {outcomes : Nat → WriteOutcome} {rec1 : TlsRecordSlice}
    {rec2? : Option TlsRecordSlice} {trailing : Bytes}
    (hn : n < tlsRecordHeaderSize + r.payload.length)
    (hplan : planHello ((encodeAll (r :: rs)).take n) host draws.cut =
      .ok (.split rec1 rec2? trailing))
    (hok : (forwardHello ((encodeAll (r :: rs)).take n) host isMeta draws
      (.fresh outcomes)).1 = .ok ()) :
    (Carries ((forwardHello ((encodeAll (r :: rs)).take n) host isMeta draws
        (.fresh outcomes)).2.received ++ (encodeAll (r :: rs)).drop n) (content (r :: rs)) ↔
      Carries ((encodeAll (r :: rs)).drop n) ((content (r :: rs)).drop (n - 5))) ∧
    (rs = [] → ¬ Carries ((encodeAll (r :: rs)).drop n) ((content (r :: rs)).drop (n - 5))) := by
  obtain ⟨h5, r₁, r₂, hbytes, hcontent⟩ := split_partial_halves hn hplan
  constructor
  · conv_lhs => rw [forwardHello_received hplan hok, hbytes, List.append_assoc, hcontent]
    exact carries_encode_append.trans carries_encode_append
  · rintro rfl
    exact not_carries_drop h5 hn

/-- A ClientHello record of 86 bytes whose host name ends at byte 72. -/
def paddedHello : Record where
  contentType := 0x16
  major := 0x03
  minor := 0x01
  payload := (buildSyntheticClientHello (some "example.com".toList) true).drop 5
  fits := by decide

theorem split_partial_record_example :
    (Carries ((forwardHello ((encodeAll [paddedHello]).take 80) "example.com".toList false
        ⟨0, 0, fun _ => 0⟩ (.fresh fun _ => .accepts 100)).2.received ++
        (encodeAll [paddedHello]).drop 80) (content [paddedHello]) ↔
      Carries ((encodeAll [paddedHello]).drop 80) ((content [paddedHello]).drop (80 - 5))) ∧
    (([] : List Record) = [] →
      ¬ Carries ((encodeAll [paddedHello]).drop 80) ((content [paddedHello]).drop (80 - 5))) :=
  @split_partial_record paddedHello [] 80 "example.com".toList false ⟨0, 0, fun _ => 0⟩
    (fun _ => .accepts 100)
    (reheaded 0x16 3 1 (((encodeAll [paddedHello]).take 65).drop 5))
    (some (reheaded 0x16 3 1 (((encodeAll [paddedHello]).take 80).drop 65))) []
    (by decide) (by decide +kernel) (by decide +kernel)

/-- Of the 86 bytes of a ClientHello record 80 are read at first, the host name
among them: the record is split, all is sent, and the remote does not receive the
record. -/
theorem split_partial_record_fails :
    StartsClientHello (encodeAll [paddedHello]) ∧
    planHello ((encodeAll [paddedHello]).take 80) "example.com".toList 0 =
      .ok (.split (reheaded 0x16 3 1 (((encodeAll [paddedHello]).take 65).drop 5))
        (some (reheaded 0x16 3 1 (((encodeAll [paddedHello]).take 80).drop 65))) []) ∧
    (forwardHello ((encodeAll [paddedHello]).take 80) "example.com".toList false
      ⟨0, 0, fun _ => 0⟩ (.fresh fun _ => .accepts 100)).1 = .ok () ∧
    ¬ Carries ((forwardHello ((encodeAll [paddedHello]).take 80) "example.com".toList false
        ⟨0, 0, fun _ => 0⟩ (.fresh fun _ => .accepts 100)).2.received ++
        (encodeAll [paddedHello]).drop 80) (content [paddedHello]) := by
  decide +kernel

/-! ## Not splitting -/

/-- **Sending a read on without splitting it** sends all of it exactly when
nothing stands behind a complete first record. -/
theorem fallback_forwards {raw rawCh : Bytes} {host : Str} {isMeta : Bool} {draws : HelloDraws}
    {outcomes : Nat → WriteOutcome} (hplan : planHello raw host draws.cut = .ok (.fallback rawCh))
    (hok : (forwardHello raw host isMeta draws (.fresh outcomes)).1 = .ok ()) :
    (forwardHello raw host isMeta draws (.fresh outcomes)).2.received = raw ↔
      ¬ TrailsFirstRecord raw := by
  have hraw : rawCh = raw.take (firstPartEnd raw) := by
    rcases planHello_cases raw host draws.cut with ⟨_, _, _, _, -, -, -, -, -, -, h⟩ | ⟨-, h⟩
    · rw [hplan] at h
      cases h
    · rw [hplan] at h
      cases h
      rfl
  rw [forwardHello_received hplan hok, HelloPlan.bytes, hraw, List.take_eq_self_iff]
  constructor
  · intro hle ht
    rw [firstPartEnd, if_pos ht] at hle
    exact Nat.not_lt_of_le hle ht.2.2
  · intro ht
    rw [firstPartEnd, if_neg ht]

/-- A ClientHello for a host name of four bytes, and a record behind it. -/
def shortNameThenRecord : Bytes :=
  buildSyntheticClientHello (some "t.co".toList) false ++ [0x14, 3, 3, 0, 1, 1]

theorem fallback_forwards_example :
    (forwardHello shortNameThenRecord "t.co".toList false ⟨0, 0, fun _ => 0⟩
      (.fresh fun _ => .accepts 100)).2.received = shortNameThenRecord ↔
      ¬ TrailsFirstRecord shortNameThenRecord :=
  @fallback_forwards shortNameThenRecord (buildSyntheticClientHello (some "t.co".toList) false)
    "t.co".toList false ⟨0, 0, fun _ => 0⟩ (fun _ => .accepts 100) (by decide +kernel)
    (by decide +kernel)

/-- A ClientHello for a host name of four bytes is not split, and the record
behind it is not sent. -/
theorem fallback_forwards_fails :
    planHello shortNameThenRecord "t.co".toList 0 =
      .ok (.fallback (buildSyntheticClientHello (some "t.co".toList) false)) ∧
    (forwardHello shortNameThenRecord "t.co".toList false ⟨0, 0, fun _ => 0⟩
      (.fresh fun _ => .accepts 100)).1 = .ok () ∧
    (forwardHello shortNameThenRecord "t.co".toList false ⟨0, 0, fun _ => 0⟩
      (.fresh fun _ => .accepts 100)).2.received ≠ shortNameThenRecord := by
  decide +kernel

end GreenTunnel
