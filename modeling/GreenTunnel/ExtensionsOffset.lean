import GreenTunnel.WellFormedHello

/-! # The length field of the extensions (`tls/parser.rs`)

`findExtensionsLengthOffset` walks over the same fields as `findSniInfo` and stops in
front of the length of the extensions.  `FieldsUpTo data offset` says that the length
fields on the way lead there, and the function computes it, without a panic
(`findExtensionsLengthOffset_spec`).

So `findSniInfo` is the check of a ClientHello, then this walk, and then the scan of the
extensions, step by step and panic by panic (`findSniInfo_eq_scan`); and on a well-formed
record the length field is found as soon as it has been received
(`findExtensionsLengthOffset_take`).
-/
namespace GreenTunnel
open Checked Tls

def findExtensionsLengthOffset (data : Bytes) : Checked (Option Nat) := do
  if data.length < 44 then return none
  -- record header, handshake header, version and random
  let pos := tlsRecordHeaderSize + 4 + 34
  if pos ≥ data.length then return none
  let sessionIdLen := (← index data pos).toNat
  let pos := pos + (1 + sessionIdLen)
  if pos + 2 > data.length then return none
  let some cipherSuitesLen ← readU16 data pos | return none
  let pos := pos + (2 + cipherSuitesLen)
  if pos ≥ data.length then return none
  let compressionLen := (← index data pos).toNat
  let pos := pos + (1 + compressionLen)
  if pos + 2 > data.length then return none
  return some pos

/-- The length fields lead over the fields in front of the extensions to their length. -/
inductive FieldsUpTo (data : Bytes) : Nat → Prop where
  | intro {sid cm : UInt8} {cs n : Nat} (session : data[43]? = some sid)
      (suites : be16At data (44 + sid.toNat) = some cs)
      (methods : data[46 + sid.toNat + cs]? = some cm)
      (block : be16At data (47 + sid.toNat + cs + cm.toNat) = some n) :
      FieldsUpTo data (47 + sid.toNat + cs + cm.toNat)

variable {data : Bytes} {offset : Nat}

theorem FieldsUpTo.unique {offset' : Nat} (h : FieldsUpTo data offset)
    (h' : FieldsUpTo data offset') : offset = offset' := by
  obtain ⟨h1, h2, h3, -⟩ := h
  obtain ⟨h1', h2', h3', -⟩ := h'
  obtain rfl := Option.some.inj (h1.symm.trans h1')
  obtain rfl := Option.some.inj (h2.symm.trans h2')
  obtain rfl := Option.some.inj (h3.symm.trans h3')
  rfl

/-- The block of extensions of a ClientHello stands behind its length. -/
theorem extensionBlock_iff {pos stop : Nat} :
    ExtensionBlock data pos stop ↔ StartsClientHello data ∧ ∃ offset n, FieldsUpTo data offset ∧
      be16At data offset = some n ∧ pos = offset + 2 ∧ stop = offset + 2 + n := by
  constructor
  · rintro ⟨hs, h1, h2, h3, h4⟩
    exact ⟨hs, _, _, .intro h1 h2 h3 h4, h4, by omega, by omega⟩
  · rintro ⟨hs, _, n, @⟨sid, cm, cs, n', h1, h2, h3, h4⟩, hn, rfl, rfl⟩
    obtain rfl := Option.some.inj (h4.symm.trans hn)
    have e : 47 + sid.toNat + cs + cm.toNat + 2 = 49 + sid.toNat + cs + cm.toNat := by omega
    rw [e]
    exact .intro hs h1 h2 h3 h4

/-- The walk where no field is cut off. -/
theorem findExtensionsLengthOffset_of_fields (h : FieldsUpTo data offset) :
    findExtensionsLengthOffset data = .ok (some offset) := by
  cases h with
  | @intro sid cm cs n hsid hcs hcm hn =>
    have h43 := (List.getElem?_eq_some_iff.mp hsid).1
    have hcs' := be16At_lt_length hcs
    have hcm' := (List.getElem?_eq_some_iff.mp hcm).1
    have hn' := be16At_lt_length hn
    have e1 : tlsRecordHeaderSize + 4 + 34 = 43 := rfl
    have e2 : 43 + (1 + sid.toNat) = 44 + sid.toNat := by omega
    have e3 : 44 + sid.toNat + (2 + cs) = 46 + sid.toNat + cs := by omega
    have e4 : 46 + sid.toNat + cs + (1 + cm.toNat) = 47 + sid.toNat + cs + cm.toNat := by omega
    unfold findExtensionsLengthOffset
    rw [if_neg (by omega)]
    simp only [bind, Except.bind, e1]
    rw [if_neg (by omega)]
    simp only [index_of_getElem? hsid, e2, readU16_eq, hcs]
    rw [if_neg (by omega)]
    simp only [e3, index_of_getElem? hcm]
    rw [if_neg (by omega)]
    simp only [e4]
    rw [if_neg (by omega)]
    rfl

/-- The walk where a field is cut off. -/
theorem findExtensionsLengthOffset_of_none (h : ∀ offset, ¬ FieldsUpTo data offset) :
    findExtensionsLengthOffset data = .ok none := by
  unfold findExtensionsLengthOffset
  by_cases h44 : data.length < 44
  · rw [if_pos h44]
    rfl
  have hsid := List.getElem?_eq_getElem (show 43 < data.length by omega)
  have e1 : tlsRecordHeaderSize + 4 + 34 = 43 := rfl
  rw [if_neg h44]
  simp only [bind, Except.bind, e1]
  rw [if_neg (by omega), index_of_getElem? hsid]
  generalize data[43] = sid at hsid
  have e2 : 43 + (1 + sid.toNat) = 44 + sid.toNat := by omega
  simp only [e2, readU16_eq]
  by_cases hc : 44 + sid.toNat + 2 > data.length
  · rw [if_pos hc]
    rfl
  obtain ⟨cs, hcs⟩ := be16At_of_le (Nat.le_of_not_lt hc)
  have e3 : 44 + sid.toNat + (2 + cs) = 46 + sid.toNat + cs := by omega
  simp only [if_neg hc, hcs, e3]
  by_cases hm : 46 + sid.toNat + cs ≥ data.length
  · rw [if_pos hm]
    rfl
  have hcm := List.getElem?_eq_getElem (Nat.lt_of_not_le hm)
  rw [if_neg hm, index_of_getElem? hcm]
  generalize data[46 + sid.toNat + cs] = cm at hcm
  have e4 : 46 + sid.toNat + cs + (1 + cm.toNat) = 47 + sid.toNat + cs + cm.toNat := by omega
  simp only [e4]
  by_cases hn : 47 + sid.toNat + cs + cm.toNat + 2 > data.length
  · rw [if_pos hn]
    rfl
  obtain ⟨n, hn'⟩ := be16At_of_le (Nat.le_of_not_lt hn)
  exact absurd (FieldsUpTo.intro hsid hcs hcm hn') (h _)

/-- **`findExtensionsLengthOffset` never panics, and finds where the fields lead.** -/
theorem findExtensionsLengthOffset_spec (data : Bytes) :
    ∃ r, findExtensionsLengthOffset data = .ok r ∧ ∀ offset, r = some offset ↔
      FieldsUpTo data offset := by
  by_cases h : ∃ offset, FieldsUpTo data offset
  · obtain ⟨offset, h⟩ := h
    refine ⟨some offset, findExtensionsLengthOffset_of_fields h, fun offset' => ?_⟩
    rw [Option.some.injEq]
    exact ⟨fun heq => heq ▸ h, h.unique⟩
  · refine ⟨none, findExtensionsLengthOffset_of_none fun offset hf => h ⟨offset, hf⟩,
      fun offset => ⟨fun hc => ?_, fun hf => absurd ⟨offset, hf⟩ h⟩⟩
    cases hc

/-- **The parser in three steps**: the check, the walk over the fields, and the scan. -/
theorem findSniInfo_eq_scan (data : Bytes) : findSniInfo data = (do
    if ¬ (← isClientHello data) = true then return none
    let some offset ← findExtensionsLengthOffset data | return none
    let some extensionsLen ← readU16 data offset | return none
    scanExtensions data (offset + 2 + extensionsLen) (data.length + 1) (offset + 2)) := by
  simp only [isClientHello_eq, readU16_eq, bind, Except.bind]
  by_cases hb : ∃ pos stop, ExtensionBlock data pos stop
  · obtain ⟨pos, stop, hb⟩ := hb
    obtain ⟨hs, offset, n, hfields, hn, rfl, rfl⟩ := extensionBlock_iff.mp hb
    rw [findSniInfo_of_block hb, if_neg (not_not_intro (decide_eq_true hs)),
      findExtensionsLengthOffset_of_fields hfields]
    simp only [hn]
  · rw [findSniInfo_of_no_block fun pos stop h => hb ⟨pos, stop, h⟩]
    by_cases hs : StartsClientHello data
    · rw [if_neg (not_not_intro (decide_eq_true hs)), findExtensionsLengthOffset_of_none]
      · rfl
      · -- the walk would have led to a block
        intro offset hfields
        obtain ⟨n, hn⟩ : ∃ n, be16At data offset = some n := by
          cases hfields with
          | intro _ _ _ block => exact ⟨_, block⟩
        exact hb ⟨_, _, extensionBlock_iff.mpr ⟨hs, offset, n, hfields, hn, rfl, rfl⟩⟩
    · rw [if_pos fun h => hs (of_decide_eq_true h)]
      rfl

theorem fieldsUpTo_take {n : Nat} :
    FieldsUpTo (data.take n) offset ↔ FieldsUpTo data offset ∧ offset + 2 ≤ n := by
  constructor
  · rintro ⟨h1, h2, h3, h4⟩
    rw [getElem?_take_eq_some] at h1 h3
    rw [be16At_take] at h2 h4
    exact ⟨.intro h1.1 h2.1 h3.1 h4.1, h4.2⟩
  · rintro ⟨⟨h1, h2, h3, h4⟩, hn⟩
    exact .intro (getElem?_take_eq_some.mpr ⟨h1, by omega⟩) (be16At_take.mpr ⟨h2, by omega⟩)
      (getElem?_take_eq_some.mpr ⟨h3, by omega⟩) (be16At_take.mpr ⟨h4, by omega⟩)

/-- **The length field of a well-formed record** is found once it has been received, and
not before, and holds the length of the extensions. -/
theorem findExtensionsLengthOffset_take (hello : ClientHello) (after : Bytes) (n : Nat) :
    findExtensionsLengthOffset ((hello.encode ++ after).take n) =
      .ok (if 9 + hello.fields.length ≤ n then some (7 + hello.fields.length) else none) ∧
    be16At (hello.encode ++ after) (7 + hello.fields.length) = some hello.block.length := by
  have hrecord : BytesAt (hello.encode ++ after) 0 (hello.encode ++ after) := bytesAt_of_eq rfl
  have hblock := extensionBlock_encode hrecord.left
  obtain ⟨-, offset, len, hfields, hlen, hpos, hstop⟩ := extensionBlock_iff.mp hblock
  obtain rfl : offset = 7 + hello.fields.length := by omega
  obtain rfl : len = hello.block.length := by omega
  refine ⟨?_, hlen⟩
  by_cases hn : 9 + hello.fields.length ≤ n
  · rw [if_pos hn]
    exact findExtensionsLengthOffset_of_fields (fieldsUpTo_take.mpr ⟨hfields, by omega⟩)
  · rw [if_neg hn]
    apply findExtensionsLengthOffset_of_none
    intro offset h
    obtain ⟨hother, hle⟩ := fieldsUpTo_take.mp h
    have := hfields.unique hother
    omega

end GreenTunnel
