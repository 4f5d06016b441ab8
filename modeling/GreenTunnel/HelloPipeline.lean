import GreenTunnel.Fragmenter
import GreenTunnel.SniWalk

/-! # What the tunnel does with a ClientHello (`proxy.rs`)

The bytes of the first read are cut after the first record if that is a complete
ClientHello with something behind it (`extractFirstTlsRecord`), the host name is
looked for in the first part, a random cut inside the name is drawn
(`calculateSniCutOffset`), and the first part is split there.  `planHello` is the
chain of these steps as the tunnel makes it: either two records and the bytes
behind them, or the first part as it is.

`planHello_cases` says all that can happen, and everything else is derived from
it: no step panics, the split is made exactly when a name of more than four
bytes is found, and then neither half gives the name away.
-/
namespace GreenTunnel
open Checked

def extractFirstTlsRecord (rawBytes : Bytes) : Checked (Bytes × Bytes) := do
  if ← isClientHello rawBytes then
    let payloadLen := (← readU16 rawBytes 3).getD 0
    let recLen := tlsRecordHeaderSize + payloadLen
    if recLen > tlsRecordHeaderSize ∧ rawBytes.length > recLen then
      return (← slice rawBytes 0 recLen, ← slice rawBytes recLen rawBytes.length)
    else return (rawBytes, [])
  else return (rawBytes, [])

def calculateSniCutOffset (hostnameLength : Nat) (host : Str) (draw : Nat) : Checked Nat := do
  if hostnameLength > 6 then
    let startOffset := if (bytePrefix 4 host).any (eqIgnoreAsciiCase · "www.".toList) then 4 else 0
    let domainLen := hostnameLength - startOffset
    let mid := startOffset + domainLen / 2
    let minCut := max (mid - 1) (startOffset + 2)
    let maxCut := min (mid + 1) (← sub hostnameLength 2)
    if minCut ≤ maxCut then drawIn minCut maxCut draw
    else return hostnameLength / 2
  else return hostnameLength / 2

/-- What the tunnel sends of the first read. -/
inductive HelloPlan where
  /-- Two records, and the bytes behind the first record of the read. -/
  | split (rec1 : TlsRecordSlice) (rec2 : Option TlsRecordSlice) (trailing : Bytes)
  /-- The first record as it is. -/
  | fallback (rawCh : Bytes)
  deriving DecidableEq

/-- From the first read to the records to send, as `handle_connect_tunnel`
chains the steps. -/
def planHello (rawBytes : Bytes) (host : Str) (draw : Nat) : Checked HelloPlan := do
  let (rawCh, trailingData) ← extractFirstTlsRecord rawBytes
  match ← findSniInfo rawCh with
  | some sniInfo =>
    if sniInfo.hostnameLength > 4 then
      let cutInSni ← calculateSniCutOffset sniInfo.hostnameLength host draw
      let splitPoint := sniInfo.hostnameOffset + cutInSni
      if splitPoint > tlsRecordHeaderSize ∧ splitPoint < rawCh.length then
        let (rec1, rec2) ← fragmentAtOffset rawCh splitPoint
        return .split rec1 rec2 trailingData
      else return .fallback rawCh
    else return .fallback rawCh
  | none => return .fallback rawCh

/-! ## Each step -/

/-- The length field of the record at the front of `raw`. -/
def declaredLength (raw : Bytes) : Nat := (be16At raw 3).getD 0

/-- Bytes stand behind a complete ClientHello record at the front of `raw`. -/
def TrailsFirstRecord (raw : Bytes) : Prop :=
  StartsClientHello raw ∧ 0 < declaredLength raw ∧
    tlsRecordHeaderSize + declaredLength raw < raw.length

instance (raw : Bytes) : Decidable (TrailsFirstRecord raw) :=
  inferInstanceAs (Decidable (_ ∧ _ ∧ _))

/-- Where the first part of the read ends. -/
def firstPartEnd (raw : Bytes) : Nat :=
  if TrailsFirstRecord raw then tlsRecordHeaderSize + declaredLength raw else raw.length

theorem extractFirstTlsRecord_eq (raw : Bytes) :
    extractFirstTlsRecord raw = .ok (raw.take (firstPartEnd raw), raw.drop (firstPartEnd raw)) := by
  unfold extractFirstTlsRecord
  rw [isClientHello_eq]
  by_cases hs : StartsClientHello raw
  · simp only [readU16_eq, bind, Except.bind, decide_eq_true hs, ite_true]
    by_cases ht : TrailsFirstRecord raw
    · have hd := ht.2.2
      rw [if_pos (by simpa [declaredLength] using ht.2), firstPartEnd, if_pos ht]
      simp only [declaredLength] at hd
      rw [slice_of_le (Nat.zero_le _) (Nat.le_of_lt hd), slice_to_end (Nat.le_of_lt hd),
        declaredLength]
      rfl
    · rw [if_neg (fun h => ht ⟨hs, by simpa [declaredLength] using h⟩), firstPartEnd, if_neg ht,
        List.take_length, List.drop_length]
      rfl
  · have ht : ¬ TrailsFirstRecord raw := fun h => hs h.1
    simp only [bind, Except.bind, decide_eq_false hs, firstPartEnd, if_neg ht, List.take_length,
      List.drop_length]
    rfl

/-- **The cut never fails**, and falls inside a name of more than four bytes. -/
theorem calculateSniCutOffset_spec (n : Nat) (host : Str) (draw : Nat) :
    ∃ cut, calculateSniCutOffset n host draw = .ok cut ∧ (4 < n → 0 < cut ∧ cut < n) := by
  unfold calculateSniCutOffset
  by_cases hn : n > 6
  · rw [if_pos hn]
    generalize
      (if (bytePrefix 4 host).any (eqIgnoreAsciiCase · "www.".toList) then 4 else 0) = start
    simp only [sub_of_le (show 2 ≤ n by omega), bind, Except.bind]
    by_cases hle : max (start + (n - start) / 2 - 1) (start + 2) ≤
        min (start + (n - start) / 2 + 1) (n - 2)
    · rw [if_pos hle]
      obtain ⟨cut, hcut, hlo, hhi⟩ := drawIn_of_le hle draw
      exact ⟨cut, hcut, fun _ => ⟨by omega, by omega⟩⟩
    · rw [if_neg hle]
      exact ⟨n / 2, rfl, fun _ => ⟨by omega, by omega⟩⟩
  · rw [if_neg hn]
    exact ⟨n / 2, rfl, fun _ => ⟨by omega, by omega⟩⟩

/-! ## The chain -/

/-- The halves of a ClientHello record `rawCh` cut at `split`. -/
structure SplitAt (rawCh : Bytes) (split : Nat) (rec1 rec2 : TlsRecordSlice) : Prop where
  halves : ∃ ct major minor, rawCh[0]? = some ct ∧ rawCh[1]? = some major ∧ rawCh[2]? = some minor ∧
    rec1 = reheaded ct major minor ((rawCh.take split).drop tlsRecordHeaderSize) ∧
    rec2 = reheaded ct major minor (rawCh.drop split)
  lo : tlsRecordHeaderSize < split
  hi : split < rawCh.length

theorem fragmentAtOffset_splitAt {rawCh : Bytes} {split : Nat} (hlo : tlsRecordHeaderSize < split)
    (hhi : split < rawCh.length) :
    ∃ rec1 rec2, fragmentAtOffset rawCh split = .ok (rec1, some rec2) ∧
      SplitAt rawCh split rec1 rec2 := by
  have hlen : 5 < rawCh.length := Nat.lt_trans hlo hhi
  have h0 := List.getElem?_eq_getElem (show 0 < rawCh.length by omega)
  have h1 := List.getElem?_eq_getElem (show 1 < rawCh.length by omega)
  have h2 := List.getElem?_eq_getElem (show 2 < rawCh.length by omega)
  exact ⟨_, _, fragmentAtOffset_of_lt h0 h1 h2 hlo hhi, ⟨_, _, _, h0, h1, h2, rfl, rfl⟩, hlo, hhi⟩

/-- **All that the chain can do with a read.**  A name of more than four bytes in
the first part has it split inside the name; anything else is sent as it is. -/
theorem planHello_cases (raw : Bytes) (host : Str) (draw : Nat) :
    (∃ info cut rec1 rec2,
      findSniInfo (raw.take (firstPartEnd raw)) = .ok (some info) ∧ 4 < info.hostnameLength ∧
      calculateSniCutOffset info.hostnameLength host draw = .ok cut ∧
      0 < cut ∧ cut < info.hostnameLength ∧
      SplitAt (raw.take (firstPartEnd raw)) (info.hostnameOffset + cut) rec1 rec2 ∧
      planHello raw host draw = .ok (.split rec1 (some rec2) (raw.drop (firstPartEnd raw)))) ∨
    ((∀ info, findSniInfo (raw.take (firstPartEnd raw)) = .ok (some info) →
        info.hostnameLength ≤ 4) ∧
      planHello raw host draw = .ok (.fallback (raw.take (firstPartEnd raw)))) := by
  unfold planHello
  rw [extractFirstTlsRecord_eq]
  obtain ⟨r, hr, -⟩ := findSniInfo_spec (raw.take (firstPartEnd raw))
  simp only [hr, bind, Except.bind]
  cases r with
  | none =>
    refine Or.inr ⟨fun info h => ?_, rfl⟩
    cases h
  | some info =>
    by_cases hlen : 4 < info.hostnameLength
    · -- the cut falls inside the name, so the guard on the split point passes
      left
      obtain ⟨cut, hcut, hin⟩ := calculateSniCutOffset_spec info.hostnameLength host draw
      obtain ⟨hpos, hlt⟩ := hin hlen
      have hb := findSniInfo_bounds hr
      have hlo : tlsRecordHeaderSize < info.hostnameOffset + cut := by
        rw [tlsRecordHeaderSize]
        omega
      have hhi : info.hostnameOffset + cut < (raw.take (firstPartEnd raw)).length := by omega
      obtain ⟨rec1, rec2, hfrag, hsplit⟩ := fragmentAtOffset_splitAt hlo hhi
      refine ⟨info, cut, rec1, rec2, rfl, hlen, hcut, hpos, hlt, hsplit, ?_⟩
      simp only [if_pos hlen, hcut, if_pos (And.intro hlo hhi), hfrag]
      rfl
    · right
      refine ⟨fun info' h => ?_, ?_⟩
      · cases h
        omega
      · simp only [if_neg hlen]
        rfl

/-- Every read has a plan. -/
theorem planHello_total (raw : Bytes) (host : Str) (draw : Nat) :
    ∃ plan, planHello raw host draw = .ok plan := by
  rcases planHello_cases raw host draw with ⟨_, _, _, _, -, -, -, -, -, -, h⟩ | ⟨-, h⟩
  · exact ⟨_, h⟩
  · exact ⟨_, h⟩

/-! ## What the halves show -/

/-- The first half is the record up to the cut, under another length. -/
theorem SplitAt.rec1_sameBut {rawCh : Bytes} {split : Nat} {rec1 rec2 : TlsRecordSlice}
    (h : SplitAt rawCh split rec1 rec2) : SameBut (rawCh.take split) rec1.serialize := by
  obtain ⟨⟨ct, major, minor, h0, h1, h2, rfl, -⟩, hlo, hhi⟩ := h
  rw [tlsRecordHeaderSize] at hlo
  constructor
  · simp only [TlsRecordSlice.serialize, reheaded, buildTlsHeader, be16Bytes, tlsRecordHeaderSize,
      List.length_append, List.length_cons, List.length_nil, List.length_drop, List.length_take]
    omega
  · intro i h3 h4
    rcases i with _ | _ | _ | _ | _ | i
    · exact (getElem?_take_eq_some.mpr ⟨h0, by omega⟩).symm
    · exact (getElem?_take_eq_some.mpr ⟨h1, by omega⟩).symm
    · exact (getElem?_take_eq_some.mpr ⟨h2, by omega⟩).symm
    · exact absurd rfl h3
    · exact absurd rfl h4
    · show ((rawCh.take split).drop tlsRecordHeaderSize)[i]? = _
      rw [List.getElem?_drop, tlsRecordHeaderSize, Nat.add_comm]

/-- The sixth byte of the second half is the byte at the cut. -/
theorem SplitAt.rec2_sixth {rawCh : Bytes} {split : Nat} {rec1 rec2 : TlsRecordSlice}
    (h : SplitAt rawCh split rec1 rec2) : rec2.serialize[5]? = rawCh[split]? := by
  obtain ⟨⟨ct, major, minor, -, -, -, -, rfl⟩, -, -⟩ := h
  show (rawCh.drop split)[0]? = _
  rw [List.getElem?_drop, Nat.add_zero]

theorem findSniInfo_of_not_starts {data : Bytes} (h : ¬ StartsClientHello data) :
    findSniInfo data = .ok none := by
  refine findSniInfo_of_no_block fun pos stop hb => ?_
  cases hb with
  | intro hs => exact h hs

/-- **The split hides the name.**  Whatever name of more than four bytes the
parser finds, the cut falls inside it, the record is split there into two halves that
carry its bytes, each behind a header of its own, and the parser finds no name in the
first record, nor in the second unless the byte at the cut is the handshake type of a
ClientHello. -/
theorem split_hides_sni {data : Bytes} {info : SniInfo} (host : Str) (draw : Nat)
    (h : findSniInfo data = .ok (some info)) (hlen : 4 < info.hostnameLength) :
    ∃ cut rec1 rec2,
      calculateSniCutOffset info.hostnameLength host draw = .ok cut ∧
      0 < cut ∧ cut < info.hostnameLength ∧
      tlsRecordHeaderSize < info.hostnameOffset + cut ∧
      info.hostnameOffset + cut < data.length ∧
      fragmentAtOffset data (info.hostnameOffset + cut) = .ok (rec1, some rec2) ∧
      SplitAt data (info.hostnameOffset + cut) rec1 rec2 ∧
      findSniInfo rec1.serialize = .ok none ∧
      (0x01 ∉ (data.drop info.hostnameOffset).take info.hostnameLength →
        findSniInfo rec2.serialize = .ok none) := by
  obtain ⟨cut, hcut, hin⟩ := calculateSniCutOffset_spec info.hostnameLength host draw
  obtain ⟨hpos, hlt⟩ := hin hlen
  have hb := findSniInfo_bounds h
  have hlo : tlsRecordHeaderSize < info.hostnameOffset + cut := by
    rw [tlsRecordHeaderSize]
    omega
  have hhi : info.hostnameOffset + cut < data.length := by omega
  obtain ⟨rec1, rec2, hfrag, hsplit⟩ := fragmentAtOffset_splitAt hlo hhi
  refine ⟨cut, rec1, rec2, hcut, hpos, hlt, hlo, hhi, hfrag, hsplit, ?_, fun hno => ?_⟩
  · -- the first record is the data cut off inside the name
    rw [hsplit.rec1_sameBut.findSniInfo]
    exact findSniInfo_take_eq_none h (by omega)
  · -- the second record starts with a byte of the name
    refine findSniInfo_of_not_starts fun hs => hno ?_
    have hbyte := hs.2
    rw [hsplit.rec2_sixth] at hbyte
    refine List.mem_of_getElem? (i := cut) (getElem?_take_eq_some.mpr ⟨?_, hlt⟩)
    rw [List.getElem?_drop]
    exact hbyte

theorem split_hides_sni_example :
    ∃ cut rec1 rec2,
      calculateSniCutOffset 11 "example.com".toList 1 = .ok cut ∧ 0 < cut ∧ cut < 11 ∧
      tlsRecordHeaderSize < 61 + cut ∧ 61 + cut < 72 ∧
      fragmentAtOffset (buildSyntheticClientHello (some "example.com".toList) false) (61 + cut) =
        .ok (rec1, some rec2) ∧
      SplitAt (buildSyntheticClientHello (some "example.com".toList) false) (61 + cut) rec1 rec2 ∧
      findSniInfo rec1.serialize = .ok none ∧
      (0x01 ∉ (((buildSyntheticClientHello (some "example.com".toList) false).drop 61).take 11) →
        findSniInfo rec2.serialize = .ok none) :=
  @split_hides_sni (buildSyntheticClientHello (some "example.com".toList) false) ⟨61, 11⟩
    "example.com".toList 1 (by decide) (by decide)

/-- **No read aborts the proxy.**  The chain of steps ends in a plan for every
read, host and draw, and every name the parser reports stands inside its data. -/
theorem helloPipeline_safe (raw : Bytes) (host : Str) (draw : Nat) :
    (∃ starts, isClientHello raw = .ok starts) ∧
    (∃ parts, extractFirstTlsRecord raw = .ok parts) ∧
    (∃ plan, planHello raw host draw = .ok plan) ∧
    (∀ data, ∃ r, findSniInfo data = .ok r ∧
      ∀ info, r = some info → info.hostnameOffset + info.hostnameLength ≤ data.length) ∧
    (∀ n, ∃ cut, calculateSniCutOffset n host draw = .ok cut) ∧
    (∀ data off, ∃ recs, fragmentAtOffset data off = .ok recs) := by
  refine ⟨⟨_, isClientHello_eq raw⟩, ⟨_, extractFirstTlsRecord_eq raw⟩, ?_, fun data => ?_,
    fun n => ?_, fragmentAtOffset_total⟩
  · rcases planHello_cases raw host draw with ⟨_, _, _, _, _, _, _, _, _, _, h⟩ | ⟨_, h⟩
    · exact ⟨_, h⟩
    · exact ⟨_, h⟩
  · obtain ⟨r, hr, -⟩ := findSniInfo_spec data
    refine ⟨r, hr, fun info hinfo => ?_⟩
    subst hinfo
    exact (findSniInfo_bounds hr).2
  · obtain ⟨cut, hcut, -⟩ := calculateSniCutOffset_spec n host draw
    exact ⟨cut, hcut⟩

end GreenTunnel
