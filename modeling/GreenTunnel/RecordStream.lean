import GreenTunnel.Bytes

/-! # The TLS record layer

A record is a content type, two version bytes and a payload whose length fits
16 bits; on the wire the payload follows a five-byte header that carries its
length.  A byte stream is a sequence of records when it is `encodeAll` of one, and
what it says to the layer above is `content`: its payload bytes in order, each
with the content type it travels under.  How a payload is cut into records is not
part of the content, so splitting one record in two leaves it alone
(`content_split`).

`readRecords` is the receiver: it takes complete records from the front of a
stream and leaves the rest unread.
-/
namespace GreenTunnel

/-- A TLS record. -/
structure Record where
  contentType : UInt8
  major : UInt8
  minor : UInt8
  payload : Bytes
  /-- The payload's length fits the header's length field. -/
  fits : payload.length < 65536
  deriving DecidableEq

namespace Record

/-- The five header bytes. -/
def header (r : Record) : Bytes :=
  r.contentType :: r.major :: r.minor :: be16Bytes r.payload.length

/-- The record on the wire. -/
def encode (r : Record) : Bytes := r.header ++ r.payload

@[simp] theorem header_length (r : Record) : r.header.length = 5 := rfl

/-- The length field. -/
theorem be16At_header (r : Record) : be16At r.header 3 = some r.payload.length := by
  simp [be16At, header, be16Bytes, be16_ofNat r.fits]

@[simp] theorem encode_length (r : Record) : r.encode.length = 5 + r.payload.length := by
  simp [encode]

/-- The first record of a stream and what follows it; `none` when the stream
does not start with a complete record. -/
def decode : Bytes → Option (Record × Bytes)
  | contentType :: major :: minor :: hi :: lo :: rest =>
    if h : be16 hi lo ≤ rest.length then
      some (⟨contentType, major, minor, rest.take (be16 hi lo), by
        rw [List.length_take]
        exact Nat.lt_of_le_of_lt (Nat.min_le_left _ _) (be16_lt hi lo)⟩,
        rest.drop (be16 hi lo))
    else none
  | _ => none

@[simp] theorem decode_encode_append (r : Record) (s : Bytes) :
    decode (r.encode ++ s) = some (r, s) := by
  obtain ⟨ct, major, minor, p, hp⟩ := r
  simp [decode, encode, header, be16Bytes, be16_ofNat hp]

theorem encode_append_of_decode {bs s : Bytes} {r : Record} (h : decode bs = some (r, s)) :
    bs = r.encode ++ s := by
  unfold decode at h
  split at h
  · rename_i ct major minor hi lo rest
    split at h
    · rename_i hle
      simp only [Option.some.injEq, Prod.mk.injEq] at h
      obtain ⟨rfl, rfl⟩ := h
      simp [encode, header, Nat.min_eq_left hle, be16Bytes_be16]
    · cases h
  · cases h

end Record

/-- The records `rs` on the wire. -/
def encodeAll (rs : List Record) : Bytes := rs.flatMap Record.encode

/-- The payload bytes of `rs` in order, each with its content type. -/
def content (rs : List Record) : List (UInt8 × UInt8) :=
  rs.flatMap fun r => r.payload.map fun b => (r.contentType, b)

@[simp] theorem encodeAll_nil : encodeAll [] = [] := rfl

@[simp] theorem encodeAll_cons (r : Record) (rs : List Record) :
    encodeAll (r :: rs) = r.encode ++ encodeAll rs := rfl

@[simp] theorem content_nil : content [] = [] := rfl

@[simp] theorem content_cons (r : Record) (rs : List Record) :
    content (r :: rs) = (r.payload.map fun b => (r.contentType, b)) ++ content rs := rfl

theorem encodeAll_length (rs : List Record) :
    (encodeAll rs).length = 5 * rs.length + (content rs).length := by
  induction rs with
  | nil => rfl
  | cons r rs ih =>
    simp only [encodeAll_cons, content_cons, List.length_append, Record.encode_length,
      List.length_map, List.length_cons, ih]
    omega

/-- **Splitting a record changes no content.** -/
theorem content_split {r r₁ r₂ : Record} (h₁ : r₁.contentType = r.contentType)
    (h₂ : r₂.contentType = r.contentType) (hp : r₁.payload ++ r₂.payload = r.payload)
    (rs : List Record) : content (r₁ :: r₂ :: rs) = content (r :: rs) := by
  simp only [content_cons, h₁, h₂, ← hp, List.map_append, List.append_assoc]

/-! ## The receiver -/

/-- At most `fuel` complete records from the front of a stream, and the rest. -/
def readRecordsUpTo : Nat → Bytes → List Record × Bytes
  | 0, bs => ([], bs)
  | fuel + 1, bs =>
    match Record.decode bs with
    | none => ([], bs)
    | some (r, s) => (r :: (readRecordsUpTo fuel s).1, (readRecordsUpTo fuel s).2)

/-- The complete records at the front of a stream, and the rest.  Every record
takes bytes off the stream, so its length is fuel enough. -/
def readRecords (bs : Bytes) : List Record × Bytes := readRecordsUpTo bs.length bs

theorem readRecordsUpTo_of_le {fuel fuel' : Nat} {bs : Bytes} (h : bs.length ≤ fuel)
    (h' : bs.length ≤ fuel') : readRecordsUpTo fuel bs = readRecordsUpTo fuel' bs := by
  induction fuel generalizing fuel' bs with
  | zero =>
    rw [List.eq_nil_of_length_eq_zero (Nat.le_zero.mp h)]
    cases fuel' <;> rfl
  | succ fuel ih =>
    cases fuel' with
    | zero =>
      rw [List.eq_nil_of_length_eq_zero (Nat.le_zero.mp h')]
      rfl
    | succ fuel' =>
      unfold readRecordsUpTo
      cases hd : Record.decode bs with
      | none => rfl
      | some rs =>
        have hlen := congrArg List.length (Record.encode_append_of_decode hd)
        rw [List.length_append, Record.encode_length] at hlen
        simp only [ih (show rs.2.length ≤ fuel by omega) (show rs.2.length ≤ fuel' by omega)]

/-- The receiver takes the record at the front of the stream. -/
theorem readRecords_encode_append (r : Record) (s : Bytes) :
    readRecords (r.encode ++ s) = (r :: (readRecords s).1, (readRecords s).2) := by
  have hlen : (r.encode ++ s).length = (4 + r.payload.length + s.length) + 1 := by
    rw [List.length_append, Record.encode_length]
    omega
  rw [readRecords, hlen, readRecordsUpTo, Record.decode_encode_append]
  simp only [readRecords, readRecordsUpTo_of_le (show s.length ≤ 4 + r.payload.length + s.length by
    omega) (Nat.le_refl s.length)]

/-- The receiver reads a sequence of complete records whole. -/
theorem readRecords_encodeAll (rs : List Record) : readRecords (encodeAll rs) = (rs, []) := by
  induction rs with
  | nil => rfl
  | cons r rs ih => rw [encodeAll_cons, readRecords_encode_append, ih]

theorem encodeAll_readRecordsUpTo (fuel : Nat) (bs : Bytes) :
    encodeAll (readRecordsUpTo fuel bs).1 ++ (readRecordsUpTo fuel bs).2 = bs := by
  induction fuel generalizing bs with
  | zero => rfl
  | succ fuel ih =>
    unfold readRecordsUpTo
    cases hd : Record.decode bs with
    | none => rfl
    | some rs =>
      obtain ⟨r, s⟩ := rs
      simp only [encodeAll_cons, List.append_assoc, ih]
      exact (Record.encode_append_of_decode hd).symm

/-! ## What a stream carries -/

/-- The stream is a sequence of complete records with content `c`. -/
def Carries (bs : Bytes) (c : List (UInt8 × UInt8)) : Prop :=
  (readRecords bs).2 = [] ∧ content (readRecords bs).1 = c

instance (bs : Bytes) (c : List (UInt8 × UInt8)) : Decidable (Carries bs c) :=
  inferInstanceAs (Decidable (_ ∧ _))

theorem carries_iff {bs : Bytes} {c : List (UInt8 × UInt8)} :
    Carries bs c ↔ ∃ rs, encodeAll rs = bs ∧ content rs = c := by
  constructor
  · rintro ⟨hrest, hc⟩
    have h := encodeAll_readRecordsUpTo bs.length bs
    rw [readRecords] at hrest hc
    rw [hrest, List.append_nil] at h
    exact ⟨_, h, hc⟩
  · rintro ⟨rs, rfl, hc⟩
    rw [Carries, readRecords_encodeAll]
    exact ⟨rfl, hc⟩

/-- **Cancelling a record** at the front of a stream cancels its content. -/
theorem carries_encode_append {r : Record} {s : Bytes} {c : List (UInt8 × UInt8)} :
    Carries (r.encode ++ s) ((r.payload.map fun b => (r.contentType, b)) ++ c) ↔ Carries s c := by
  simp only [Carries, readRecords_encode_append, content_cons, List.append_cancel_left_eq]

/-- A record sequence has five bytes more than its content for each record. -/
theorem Carries.length {bs : Bytes} {c : List (UInt8 × UInt8)} (h : Carries bs c) :
    ∃ rs, encodeAll rs = bs ∧ bs.length = 5 * rs.length + c.length := by
  obtain ⟨rs, rfl, rfl⟩ := carries_iff.mp h
  exact ⟨rs, rfl, encodeAll_length rs⟩

end GreenTunnel
