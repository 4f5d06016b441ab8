import GreenTunnel.Checked
import GreenTunnel.Text

/-! # Parsing and building a ClientHello (`tls/parser.rs`)

`findSniInfo` walks a ClientHello record to the host name of its server_name
extension and reports where it stands.  It checks some of the lengths on the
way against the length of the data and ignores others.

What it accepts is said by two relations on the bytes.  `ExtensionBlock data pos
stop` says that the fixed fields and the length fields before the extensions put
the block of extensions at `pos` and its end at `stop`; `SniAt data stop pos
info` says that walking the extensions from `pos` leads to a server_name
extension whose name is `info`.  `findSniInfo_eq_some` says that the parser
computes exactly this, and `findSniInfo_spec` that it never panics and that its
loop ends.
-/
namespace GreenTunnel
open Checked

/-- Record content type of handshake messages. -/
def tlsContentTypeHandshake : UInt8 := 0x16
/-- Handshake type of a ClientHello. -/
def handshakeTypeClientHello : UInt8 := 0x01
/-- Extension type of server_name. -/
def sniExtensionType : Nat := 0x0000
/-- Size of the record header: type, version, length. -/
def tlsRecordHeaderSize : Nat := 5

/-- Where a host name stands in a record. -/
structure SniInfo where
  hostnameOffset : Nat
  hostnameLength : Nat
  deriving DecidableEq

def isClientHello (data : Bytes) : Checked Bool := do
  if data.length < 6 then return false
  return (← index data 0) == tlsContentTypeHandshake &&
    (← index data 5) == handshakeTypeClientHello

def readU16 (data : Bytes) (offset : Nat) : Checked (Option Nat) := do
  if offset + 2 > data.length then return none
  return some (be16 (← index data offset) (← index data (offset + 1)))

/-- The scan of the extensions for server_name; `fuel` bounds its iterations. -/
def scanExtensions (data : Bytes) (extensionsEnd : Nat) : Nat → Nat → Checked (Option SniInfo)
  | 0, _ => .error .stuck
  | fuel + 1, pos => do
    if ¬(pos + 4 ≤ extensionsEnd ∧ pos + 4 ≤ data.length) then return none
    let some extType ← readU16 data pos | return none
    let some extLen ← readU16 data (pos + 2) | return none
    let pos := pos + 4
    if extType = sniExtensionType then
      if pos + 5 > data.length then return none
      let some hostnameLen ← readU16 data (pos + 3) | return none
      let hostnameOffset := pos + 5
      if hostnameOffset + hostnameLen > data.length then return none
      return some ⟨hostnameOffset, hostnameLen⟩
    scanExtensions data extensionsEnd fuel (pos + extLen)

def findSniInfo (data : Bytes) : Checked (Option SniInfo) := do
  if data.length < 6 then return none
  if (← index data 0) ≠ tlsContentTypeHandshake ∨ (← index data 5) ≠ handshakeTypeClientHello then
    return none
  -- record header, handshake header, version and random
  let pos := tlsRecordHeaderSize + 4 + 34
  if pos ≥ data.length then return none
  let sessionIdLen := (← index data pos).toNat
  let pos := pos + (1 + sessionIdLen)
  if pos + 2 > data.length then return none
  let some cipherSuitesLen ← readU16 data pos | return none
  let pos := pos + (2 + cipherSuitesLen)
  if pos ≥ data.length then return none
  let compressionLen := (← index data pos).toNat
  let pos := pos + (1 + compressionLen)
  if pos + 2 > data.length then return none
  let some extensionsLen ← readU16 data pos | return none
  let pos := pos + 2
  scanExtensions data (pos + extensionsLen) (data.length + 1) pos

def buildSyntheticClientHello (hostname : Option Str) (includePadding : Bool) : Bytes :=
  let sni := match hostname with
    | some host =>
      let hostBytes := utf8Bytes host
      [0x00, 0x00] ++ be16Bytes (2 + 1 + 2 + hostBytes.length) ++
        be16Bytes (1 + 2 + hostBytes.length) ++ [0x00] ++ be16Bytes hostBytes.length ++ hostBytes
    | none => []
  let padding := if includePadding then [0x00, 0x15, 0x00, 0x0A] ++ List.replicate 10 0 else []
  let extensionsData := sni ++ padding
  let hsBody := [0x03, 0x03] ++ List.replicate 32 0 ++ [0x00, 0x00, 0x02, 0x00, 0x2F, 0x01, 0x00] ++
    be16Bytes extensionsData.length ++ extensionsData
  [tlsContentTypeHandshake, 0x03, 0x01] ++ be16Bytes (4 + hsBody.length) ++
    [handshakeTypeClientHello, 0x00] ++ be16Bytes hsBody.length ++ hsBody

/-! ## The checked reads -/

theorem readU16_eq (data : Bytes) (offset : Nat) :
    readU16 data offset = .ok (be16At data offset) := by
  unfold readU16
  by_cases h : offset + 2 > data.length
  · rw [if_pos h, be16At_eq_none.mpr (by omega)]
    rfl
  · have h0 : offset < data.length := by omega
    have h1 : offset + 1 < data.length := by omega
    rw [if_neg h, index_of_lt h0, index_of_lt h1]
    simp only [be16At, List.getElem?_eq_getElem h0, List.getElem?_eq_getElem h1]
    rfl

/-- The first byte says handshake and the sixth says ClientHello. -/
def StartsClientHello (data : Bytes) : Prop :=
  data[0]? = some tlsContentTypeHandshake ∧ data[5]? = some handshakeTypeClientHello

instance (data : Bytes) : Decidable (StartsClientHello data) :=
  inferInstanceAs (Decidable (_ ∧ _))

theorem StartsClientHello.length {data : Bytes} (h : StartsClientHello data) :
    6 ≤ data.length := (List.getElem?_eq_some_iff.mp h.2).1

theorem isClientHello_eq (data : Bytes) :
    isClientHello data = .ok (decide (StartsClientHello data)) := by
  unfold isClientHello
  by_cases h : data.length < 6
  · have hn : ¬ StartsClientHello data := by
      intro hs
      have := hs.length
      omega
    rw [if_pos h, decide_eq_false hn]
    rfl
  · have h0 : 0 < data.length := by omega
    have h5 : 5 < data.length := by omega
    rw [if_neg h, index_of_lt h0, index_of_lt h5]
    simp only [StartsClientHello, List.getElem?_eq_getElem h0, List.getElem?_eq_getElem h5,
      Option.some.injEq, Bool.decide_and, bind, Except.bind, pure, Except.pure]
    rfl

/-! ## What the parser accepts -/

/-- The fields before the extensions put the block of extensions at `pos` and its
end, by the block's length field, at `stop`. -/
inductive ExtensionBlock (data : Bytes) : Nat → Nat → Prop where
  | intro {sid cm : UInt8} {cs n : Nat} :
      StartsClientHello data →
      data[43]? = some sid →
      be16At data (44 + sid.toNat) = some cs →
      data[46 + sid.toNat + cs]? = some cm →
      be16At data (47 + sid.toNat + cs + cm.toNat) = some n →
      ExtensionBlock data (49 + sid.toNat + cs + cm.toNat) (49 + sid.toNat + cs + cm.toNat + n)

/-- Walking the extensions from `pos` leads to a server_name extension whose
name is `info`. -/
inductive SniAt (data : Bytes) (stop : Nat) : Nat → SniInfo → Prop where
  | found {pos extLen len : Nat} :
      pos + 4 ≤ stop →
      be16At data pos = some sniExtensionType →
      be16At data (pos + 2) = some extLen →
      be16At data (pos + 7) = some len →
      pos + 9 + len ≤ data.length →
      SniAt data stop pos ⟨pos + 9, len⟩
  | skip {pos extType extLen : Nat} {info : SniInfo} :
      pos + 4 ≤ stop →
      be16At data pos = some extType →
      extType ≠ sniExtensionType →
      be16At data (pos + 2) = some extLen →
      SniAt data stop (pos + 4 + extLen) info →
      SniAt data stop pos info

theorem SniAt.guard {data : Bytes} {stop pos : Nat} {info : SniInfo}
    (h : SniAt data stop pos info) :
    pos + 4 ≤ stop ∧ pos + 4 ≤ data.length := by
  cases h with
  | found hs _ hl _ _ => exact ⟨hs, be16At_lt_length hl⟩
  | skip hs _ _ hl _ => exact ⟨hs, be16At_lt_length hl⟩

/-- The name lies behind the position the walk started at, inside the data. -/
theorem SniAt.bounds {data : Bytes} {stop pos : Nat} {info : SniInfo}
    (h : SniAt data stop pos info) :
    pos + 9 ≤ info.hostnameOffset ∧ info.hostnameOffset + info.hostnameLength ≤ data.length := by
  induction h with
  | found _ _ _ _ hle => exact ⟨Nat.le_refl _, hle⟩
  | skip _ _ _ _ _ ih => exact ⟨by omega, ih.2⟩

/-- The name of a server_name extension whose body starts at `pos`. -/
def nameAt (data : Bytes) (pos : Nat) : Option SniInfo :=
  match be16At data (pos + 3) with
  | some len => if pos + 5 + len ≤ data.length then some ⟨pos + 5, len⟩ else none
  | none => none

theorem nameAt_eq_some {data : Bytes} {pos : Nat} {info : SniInfo} :
    nameAt data pos = some info ↔ ∃ len, be16At data (pos + 3) = some len ∧
      pos + 5 + len ≤ data.length ∧ info = ⟨pos + 5, len⟩ := by
  unfold nameAt
  cases be16At data (pos + 3) with
  | none => simp
  | some len =>
    by_cases hle : pos + 5 + len ≤ data.length
    · simp [hle, eq_comm]
    · simp [hle]

/-- One iteration of the scan, its checks on the data done by the reads. -/
theorem scanExtensions_succ {data : Bytes} {stop fuel pos extType extLen : Nat}
    (hs : pos + 4 ≤ stop) (ht : be16At data pos = some extType)
    (hl : be16At data (pos + 2) = some extLen) :
    scanExtensions data stop (fuel + 1) pos =
      if extType = sniExtensionType then .ok (nameAt data (pos + 4))
      else scanExtensions data stop fuel (pos + 4 + extLen) := by
  have hlen := be16At_lt_length hl
  rw [scanExtensions, if_neg (not_not_intro ⟨hs, hlen⟩)]
  simp only [readU16_eq, ht, hl, bind, Except.bind]
  by_cases hsni : extType = sniExtensionType
  · rw [if_pos hsni, if_pos hsni, nameAt]
    cases hn : be16At data (pos + 4 + 3) with
    | none =>
      rw [be16At_eq_none] at hn
      rw [if_pos (by omega)]
      rfl
    | some len =>
      have := be16At_lt_length hn
      rw [if_neg (by omega)]
      by_cases hle : pos + 4 + 5 + len ≤ data.length
      · simp only [if_pos hle, if_neg (show ¬ pos + 4 + 5 + len > data.length by omega)]
        rfl
      · simp only [if_neg hle, if_pos (show pos + 4 + 5 + len > data.length by omega)]
        rfl
  · rw [if_neg hsni, if_neg hsni]

/-- One step of the walk: the extension at `pos` names the server, or the walk goes
on behind it. -/
theorem sniAt_iff {data : Bytes} {stop pos extType extLen : Nat} {info : SniInfo}
    (hs : pos + 4 ≤ stop) (ht : be16At data pos = some extType)
    (hl : be16At data (pos + 2) = some extLen) :
    SniAt data stop pos info ↔
      if extType = sniExtensionType then nameAt data (pos + 4) = some info
      else SniAt data stop (pos + 4 + extLen) info := by
  by_cases hsni : extType = sniExtensionType
  · rw [if_pos hsni, nameAt_eq_some]
    constructor
    · intro h
      cases h with
      | found _ _ _ hlen hle => exact ⟨_, hlen, hle, rfl⟩
      | skip _ ht' hne => exact absurd (Option.some.inj (ht'.symm.trans ht) ▸ hsni) hne
    · rintro ⟨len, hlen, hle, rfl⟩
      exact SniAt.found hs (hsni ▸ ht) hl hlen hle
  · rw [if_neg hsni]
    constructor
    · intro h
      cases h with
      | found _ ht' => exact absurd (Option.some.inj (ht.symm.trans ht')) hsni
      | skip _ _ _ hl' hrest =>
        obtain rfl := Option.some.inj (hl.symm.trans hl')
        exact hrest
    · exact SniAt.skip hs ht hsni hl

/-- **The scan ends and computes the walk.**  Each iteration moves four bytes on
at least, so the budget never runs out. -/
theorem scanExtensions_spec {data : Bytes} {stop fuel pos : Nat} (hfuel : 0 < fuel)
    (h : data.length < pos + fuel) :
    ∃ r, scanExtensions data stop fuel pos = .ok r ∧
      ∀ info, r = some info ↔ SniAt data stop pos info := by
  induction fuel generalizing pos with
  | zero => exact absurd hfuel (Nat.lt_irrefl 0)
  | succ fuel ih =>
    by_cases hg : pos + 4 ≤ stop ∧ pos + 4 ≤ data.length
    · obtain ⟨extType, ht⟩ := be16At_of_le (show pos + 2 ≤ data.length by omega)
      obtain ⟨extLen, hl⟩ := be16At_of_le (show pos + 2 + 2 ≤ data.length by omega)
      have hstep : ∀ info, SniAt data stop pos info ↔ _ := fun _ => sniAt_iff hg.1 ht hl
      rw [scanExtensions_succ hg.1 ht hl]
      by_cases hsni : extType = sniExtensionType
      · simp only [if_pos hsni] at hstep ⊢
        refine ⟨_, rfl, ?_⟩
        intro info
        rw [hstep]
      · simp only [if_neg hsni] at hstep ⊢
        obtain ⟨r, hr, hiff⟩ := @ih (pos + 4 + extLen) (by omega) (by omega)
        refine ⟨r, hr, ?_⟩
        intro info
        rw [hstep, hiff]
    · -- the walk needs the four bytes that the guard asks for
      rw [scanExtensions, if_pos hg]
      refine ⟨none, rfl, fun info => ⟨fun hc => ?_, fun hs => absurd hs.guard hg⟩⟩
      cases hc

/-- The fields before the extensions fix the block: there is at most one. -/
theorem ExtensionBlock.unique {data : Bytes} {pos stop pos' stop' : Nat}
    (h : ExtensionBlock data pos stop) (h' : ExtensionBlock data pos' stop') :
    pos = pos' ∧ stop = stop' := by
  obtain ⟨-, h1, h2, h3, h4⟩ := h
  obtain ⟨-, h1', h2', h3', h4'⟩ := h'
  obtain rfl := Option.some.inj (h1.symm.trans h1')
  obtain rfl := Option.some.inj (h2.symm.trans h2')
  obtain rfl := Option.some.inj (h3.symm.trans h3')
  obtain rfl := Option.some.inj (h4.symm.trans h4')
  exact ⟨rfl, rfl⟩

/-- A ClientHello whose extensions stand at `pos` is scanned from there. -/
theorem findSniInfo_of_block {data : Bytes} {pos stop : Nat} (h : ExtensionBlock data pos stop) :
    findSniInfo data = scanExtensions data stop (data.length + 1) pos := by
  cases h with
  | @intro sid cm cs n hs hsid hcs hcm hn =>
    have h6 := hs.length
    have h43 := (List.getElem?_eq_some_iff.mp hsid).1
    have hcs' := be16At_lt_length hcs
    have hcm' := (List.getElem?_eq_some_iff.mp hcm).1
    have hn' := be16At_lt_length hn
    -- the positions as the parser adds them up, and as the block has them
    have e1 : tlsRecordHeaderSize + 4 + 34 = 43 := rfl
    have e2 : 43 + (1 + sid.toNat) = 44 + sid.toNat := by omega
    have e3 : 44 + sid.toNat + (2 + cs) = 46 + sid.toNat + cs := by omega
    have e4 : 46 + sid.toNat + cs + (1 + cm.toNat) = 47 + sid.toNat + cs + cm.toNat := by omega
    have e5 : 47 + sid.toNat + cs + cm.toNat + 2 = 49 + sid.toNat + cs + cm.toNat := by omega
    unfold findSniInfo
    rw [if_neg (by omega)]
    simp only [index_of_getElem? hs.1, index_of_getElem? hs.2, bind, Except.bind, e1,
      ne_eq, not_true_eq_false, or_false, ite_false]
    rw [if_neg (by omega)]
    simp only [index_of_getElem? hsid, e2, readU16_eq, hcs]
    rw [if_neg (by omega)]
    simp only [e3, index_of_getElem? hcm]
    rw [if_neg (by omega)]
    simp only [e4, hn, e5]
    rw [if_neg (by omega)]

/-- Without a block of extensions the parser finds nothing. -/
theorem findSniInfo_of_no_block {data : Bytes} (h : ∀ pos stop, ¬ ExtensionBlock data pos stop) :
    findSniInfo data = .ok none := by
  by_cases h6 : data.length < 6
  · rw [findSniInfo, if_pos h6]
    rfl
  · have h0 := List.getElem?_eq_getElem (show 0 < data.length by omega)
    have h5 := List.getElem?_eq_getElem (show 5 < data.length by omega)
    unfold findSniInfo
    rw [if_neg h6]
    simp only [index_of_getElem? h0, index_of_getElem? h5, bind, Except.bind, readU16_eq]
    by_cases hs : data[0] ≠ tlsContentTypeHandshake ∨ data[5] ≠ handshakeTypeClientHello
    · rw [if_pos hs]
      rfl
    rw [if_neg hs]
    have hs' : StartsClientHello data := by
      rw [not_or, not_not, not_not] at hs
      exact ⟨by rw [h0, hs.1], by rw [h5, hs.2]⟩
    -- each field that is cut off ends the parser; when none is, there is a block
    have e1 : tlsRecordHeaderSize + 4 + 34 = 43 := rfl
    rw [e1]
    by_cases h43 : 43 ≥ data.length
    · rw [if_pos h43]
      rfl
    have hsid := List.getElem?_eq_getElem (show 43 < data.length by omega)
    rw [if_neg h43, index_of_getElem? hsid]
    generalize data[43] = sid at hsid
    have e2 : 43 + (1 + sid.toNat) = 44 + sid.toNat := by omega
    simp only [e2]
    by_cases hc : 44 + sid.toNat + 2 > data.length
    · rw [if_pos hc]
      rfl
    obtain ⟨cs, hcs⟩ := be16At_of_le (Nat.le_of_not_lt hc)
    have e3 : 44 + sid.toNat + (2 + cs) = 46 + sid.toNat + cs := by omega
    simp only [if_neg hc, hcs, e3]
    by_cases hm : 46 + sid.toNat + cs ≥ data.length
    · rw [if_pos hm]
      rfl
    have hcm := List.getElem?_eq_getElem (Nat.lt_of_not_le hm)
    rw [if_neg hm, index_of_getElem? hcm]
    generalize data[46 + sid.toNat + cs] = cm at hcm
    have e4 : 46 + sid.toNat + cs + (1 + cm.toNat) = 47 + sid.toNat + cs + cm.toNat := by omega
    simp only [e4]
    by_cases hn : 47 + sid.toNat + cs + cm.toNat + 2 > data.length
    · rw [if_pos hn]
      rfl
    obtain ⟨n, hn'⟩ := be16At_of_le (Nat.le_of_not_lt hn)
    exact absurd (ExtensionBlock.intro hs' hsid hcs hcm hn') (h _ _)

/-- **`findSniInfo` never panics, and finds what the walk leads to.** -/
theorem findSniInfo_spec (data : Bytes) :
    ∃ r, findSniInfo data = .ok r ∧
      ∀ info, r = some info ↔
        ∃ pos stop, ExtensionBlock data pos stop ∧ SniAt data stop pos info := by
  by_cases hb : ∃ pos stop, ExtensionBlock data pos stop
  · obtain ⟨pos, stop, hb⟩ := hb
    obtain ⟨r, hr, hiff⟩ := @scanExtensions_spec data stop (data.length + 1) pos
      (Nat.succ_pos data.length) (by omega)
    refine ⟨r, (findSniInfo_of_block hb).trans hr, fun info => (hiff info).trans ?_⟩
    constructor
    · exact fun hs => ⟨pos, stop, hb, hs⟩
    · rintro ⟨pos', stop', hb', hs⟩
      obtain ⟨rfl, rfl⟩ := hb.unique hb'
      exact hs
  · refine ⟨none, findSniInfo_of_no_block fun pos stop h => hb ⟨pos, stop, h⟩, fun info => ?_⟩
    constructor
    · intro hc
      cases hc
    · rintro ⟨pos, stop, h, _⟩
      exact absurd ⟨pos, stop, h⟩ hb

theorem findSniInfo_eq_some {data : Bytes} {info : SniInfo} :
    findSniInfo data = .ok (some info) ↔
      ∃ pos stop, ExtensionBlock data pos stop ∧ SniAt data stop pos info := by
  obtain ⟨r, hr, hiff⟩ := findSniInfo_spec data
  rw [hr, ← hiff, Except.ok.injEq]

theorem findSniInfo_eq_none {data : Bytes} :
    findSniInfo data = .ok none ↔
      ∀ pos stop info, ExtensionBlock data pos stop → ¬ SniAt data stop pos info := by
  obtain ⟨r, hr, hiff⟩ := findSniInfo_spec data
  rw [hr, Except.ok.injEq, Option.eq_none_iff_forall_ne_some]
  constructor
  · exact fun h pos stop info hb hs => h info ((hiff info).mpr ⟨pos, stop, hb, hs⟩)
  · intro h info hinfo
    obtain ⟨pos, stop, hb, hs⟩ := (hiff info).mp hinfo
    exact h pos stop info hb hs

theorem ExtensionBlock.le {data : Bytes} {pos stop : Nat} (h : ExtensionBlock data pos stop) :
    49 ≤ pos ∧ pos ≤ data.length := by
  cases h with
  | intro _ _ _ _ hn =>
    have := be16At_lt_length hn
    omega

/-- A reported name stands inside the data, behind every fixed field. -/
theorem findSniInfo_bounds {data : Bytes} {info : SniInfo}
    (h : findSniInfo data = .ok (some info)) :
    58 ≤ info.hostnameOffset ∧ info.hostnameOffset + info.hostnameLength ≤ data.length := by
  obtain ⟨pos, stop, hb, hs⟩ := findSniInfo_eq_some.mp h
  have := hb.le
  have := hs.bounds
  omega

end GreenTunnel
