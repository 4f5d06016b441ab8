import GreenTunnel.ClientHello
import GreenTunnel.RecordStream

/-! # Splitting a record in two (`tls/fragmenter.rs`)

`fragmentAtOffset` cuts the payload of a record at an offset into the record and
gives each half a header of its own, copied from the record's except for the
length.  A half is a `Record` of the record layer as long as its length fits the
length field (`reheaded_serialize`).
-/
namespace GreenTunnel
open Checked

/-- A record as a header and a payload kept apart. -/
structure TlsRecordSlice where
  header : Bytes
  payload : Bytes
  header_length : header.length = tlsRecordHeaderSize
  deriving DecidableEq

/-- The record as one string of bytes. -/
def TlsRecordSlice.serialize (r : TlsRecordSlice) : Bytes := r.header ++ r.payload

def buildTlsHeader (contentType versionMajor versionMinor : UInt8) (payloadLen : Nat) : Bytes :=
  [contentType, versionMajor, versionMinor] ++ be16Bytes payloadLen

def fragmentAtOffset (data : Bytes) (absoluteSplitOffset : Nat) :
    Checked (TlsRecordSlice × Option TlsRecordSlice) := do
  if data.length ≤ tlsRecordHeaderSize ∨ absoluteSplitOffset ≤ tlsRecordHeaderSize ∨
      absoluteSplitOffset ≥ data.length then
    let contentType ← (if data ≠ [] then index data 0 else .ok 0x16)
    let versionMajor ← (if data.length > 1 then index data 1 else .ok 0x03)
    let versionMinor ← (if data.length > 2 then index data 2 else .ok 0x01)
    let payload ← (if data.length ≥ tlsRecordHeaderSize then
      slice data tlsRecordHeaderSize data.length else .ok [])
    return (⟨buildTlsHeader contentType versionMajor versionMinor payload.length, payload, rfl⟩,
      none)
  let contentType ← index data 0
  let versionMajor ← index data 1
  let versionMinor ← index data 2
  let payload1 ← slice data tlsRecordHeaderSize absoluteSplitOffset
  let payload2 ← slice data absoluteSplitOffset data.length
  return (⟨buildTlsHeader contentType versionMajor versionMinor payload1.length, payload1, rfl⟩,
    some ⟨buildTlsHeader contentType versionMajor versionMinor payload2.length, payload2, rfl⟩)

/-- A half of a split: a part of the payload under a header made for it. -/
def reheaded (contentType major minor : UInt8) (payload : Bytes) : TlsRecordSlice :=
  ⟨buildTlsHeader contentType major minor payload.length, payload, rfl⟩

/-- A slice whose length fits the length field is a record on the wire. -/
theorem reheaded_serialize {contentType major minor : UInt8} {payload : Bytes}
    (h : payload.length < 65536) :
    (reheaded contentType major minor payload).serialize =
      Record.encode ⟨contentType, major, minor, payload, h⟩ := rfl

/-- **The split.**  Inside the payload, the cut yields the two parts of the
payload, each under a copy of the header. -/
theorem fragmentAtOffset_of_lt {data : Bytes} {off : Nat} {ct major minor : UInt8}
    (h0 : data[0]? = some ct) (h1 : data[1]? = some major) (h2 : data[2]? = some minor)
    (hlo : tlsRecordHeaderSize < off) (hhi : off < data.length) :
    fragmentAtOffset data off =
      .ok (reheaded ct major minor ((data.take off).drop tlsRecordHeaderSize),
        some (reheaded ct major minor (data.drop off))) := by
  unfold fragmentAtOffset
  rw [if_neg (by omega)]
  simp only [index_of_getElem? h0, index_of_getElem? h1, index_of_getElem? h2,
    slice_of_le (Nat.le_of_lt hlo) (Nat.le_of_lt hhi), slice_to_end (Nat.le_of_lt hhi), bind,
    Except.bind]
  rfl

/-- Splitting never panics, whatever the offset. -/
theorem fragmentAtOffset_total (data : Bytes) (off : Nat) :
    ∃ r, fragmentAtOffset data off = .ok r := by
  by_cases h : data.length ≤ tlsRecordHeaderSize ∨ off ≤ tlsRecordHeaderSize ∨ off ≥ data.length
  · have hindex : ∀ i (b : UInt8) (p : Prop) [Decidable p], (p → i < data.length) →
        ∃ v, (if p then index data i else .ok b) = .ok v := by
      intro i b p _ hp
      by_cases hb : p
      · exact ⟨_, by rw [if_pos hb, index_of_lt (hp hb)]⟩
      · exact ⟨b, by rw [if_neg hb]⟩
    have hslice : ∃ v, (if data.length ≥ tlsRecordHeaderSize then
        slice data tlsRecordHeaderSize data.length else .ok []) = .ok v := by
      by_cases hb : data.length ≥ tlsRecordHeaderSize
      · exact ⟨_, by rw [if_pos hb, slice_to_end hb]⟩
      · exact ⟨[], by rw [if_neg hb]⟩
    obtain ⟨a, ha⟩ := hindex 0 0x16 (data ≠ []) (fun hne => List.length_pos_of_ne_nil hne)
    obtain ⟨b, hb⟩ := hindex 1 0x03 (data.length > 1) id
    obtain ⟨c, hc⟩ := hindex 2 0x01 (data.length > 2) id
    obtain ⟨d, hd⟩ := hslice
    unfold fragmentAtOffset
    rw [if_pos h]
    simp only [ha, hb, hc, hd, bind, Except.bind]
    exact ⟨_, rfl⟩
  · rw [not_or, not_or] at h
    have hlen : tlsRecordHeaderSize < data.length := by omega
    exact ⟨_, fragmentAtOffset_of_lt
      (List.getElem?_eq_getElem (Nat.lt_trans (by decide) hlen))
      (List.getElem?_eq_getElem (Nat.lt_trans (by decide) hlen))
      (List.getElem?_eq_getElem (Nat.lt_trans (by decide) hlen)) (by omega) (by omega)⟩

end GreenTunnel
