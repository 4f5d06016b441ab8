import GreenTunnel.WellFormedHello

/-! # The hello that is built (`tls/parser.rs`)

`buildSyntheticClientHello` writes a ClientHello record with a name, padding, or both.
As long as the lengths fit their fields it is a record of the format
(`build_eq_encode`), so it is nested as its lengths say, and the parser finds the name
in it (`synthetic_hello_parses`).
-/
namespace GreenTunnel
open Tls

/-- A name that leaves every length field of the record room for its length. -/
abbrev ShortName := { name : Bytes // name.length ≤ 65465 }

theorem serverNameBody_length (name : Bytes) :
    (serverNameBody name).length = 2 + 1 + 2 + name.length := by
  simp only [serverNameBody, serverNameHead, List.length_append, be16Bytes_length,
    List.length_singleton]

theorem serverNameBody_fits (name : ShortName) : (serverNameBody name.1).length < 65536 := by
  have := name.2
  rw [serverNameBody_length]
  omega

def serverNameExtension (name : ShortName) : Extension where
  extType := serverName
  body := serverNameBody name.1
  body_fits := serverNameBody_fits name

/-- The extension that pads the record. -/
def paddingExtension : Extension := ⟨0x15, List.replicate 10 0, by decide⟩

def syntheticExtensions (name : Option ShortName) (includePadding : Bool) : List Extension :=
  (name.map serverNameExtension).toList ++ if includePadding then [paddingExtension] else []

theorem serverNameExtension_length (name : ShortName) :
    (serverNameExtension name).encode.length = 9 + name.1.length := by
  rw [encode_length]
  show 4 + (serverNameBody name.1).length = _
  rw [serverNameBody_length]
  omega

theorem syntheticExtensions_length (name : Option ShortName) (includePadding : Bool) :
    ((syntheticExtensions name includePadding).flatMap Extension.encode).length ≤ 65488 := by
  have hpad : ((if includePadding then [paddingExtension] else []).flatMap
      Extension.encode).length ≤ 14 := by
    cases includePadding <;> decide
  rw [syntheticExtensions, List.flatMap_append, List.length_append]
  cases name with
  | none => exact Nat.le_trans (Nat.le_of_eq (Nat.zero_add _)) (Nat.le_trans hpad (by decide))
  | some name =>
    have hname := serverNameExtension_length name
    have hle := name.2
    rw [Option.map_some, Option.toList_some, List.flatMap_singleton, hname]
    omega

theorem syntheticExtensions_fit (name : Option ShortName) (includePadding : Bool) :
    ((syntheticExtensions name includePadding).flatMap Extension.encode).length < 65536 :=
  Nat.lt_of_le_of_lt (syntheticExtensions_length name includePadding) (by decide)

/-- The null compression method alone. -/
theorem compression_fits : ([0x00] : Bytes).length < 256 := by decide

/-- The record that is built, as a value of the format. -/
def syntheticHello (name : Option ShortName) (includePadding : Bool) : ClientHello where
  recordVersion := 0x0301
  version := 0x0303
  random := List.replicate 32 0
  sessionId := []
  cipherSuites := [0x00, 0x2F]
  compression := [0x00]
  extensions := syntheticExtensions name includePadding
  rest := []
  random_length := List.length_replicate
  sessionId_fits := by decide
  cipherSuites_fit := by decide
  compression_fits := compression_fits
  extensions_fit := syntheticExtensions_fit name includePadding

theorem syntheticHello_fields_length (name : Option ShortName) (includePadding : Bool) :
    (syntheticHello name includePadding).fields.length = 43 :=
  (syntheticHello name includePadding).fields_length

theorem syntheticHello_message_fits (name : Option ShortName) (includePadding : Bool) :
    (syntheticHello name includePadding).message.length + 4 < 65536 := by
  have hblock := syntheticExtensions_length name includePadding
  have hfields := syntheticHello_fields_length name includePadding
  rw [ClientHello.message, List.length_append, List.length_append, hfields]
  change 43 + (List.length (List.flatMap _ (syntheticExtensions name includePadding)) + 0) + 4 < _
  omega

/-- The record around its extensions. -/
def builtAround (extensionsData : Bytes) : Bytes :=
  let hsBody := [0x03, 0x03] ++ List.replicate 32 0 ++ [0x00, 0x00, 0x02, 0x00, 0x2F, 0x01, 0x00] ++
    be16Bytes extensionsData.length ++ extensionsData
  [tlsContentTypeHandshake, 0x03, 0x01] ++ be16Bytes (4 + hsBody.length) ++
    [handshakeTypeClientHello, 0x00] ++ be16Bytes hsBody.length ++ hsBody

theorem syntheticHello_fields (name : Option ShortName) (includePadding : Bool) :
    (syntheticHello name includePadding).fields =
      [0x03, 0x03] ++ List.replicate 32 0 ++ [0x00, 0x00, 0x02, 0x00, 0x2F, 0x01, 0x00] ++
        be16Bytes (syntheticHello name includePadding).block.length := by
  have hversion : be16Bytes (0x0303 : UInt16).toNat = [0x03, 0x03] := by decide
  have hsuites : be16Bytes 2 = [0x00, 0x02] := by decide
  show be16Bytes (0x0303 : UInt16).toNat ++ (List.replicate 32 0 ++ (0x00 ::
    (be16Bytes 2 ++ ([0x00, 0x2F] ++ (0x01 :: ([0x00] ++ be16Bytes _)))))) = _
  rw [hversion, hsuites]
  simp only [List.append_assoc, List.cons_append, List.nil_append]

theorem builtAround_block (name : Option ShortName) (includePadding : Bool) :
    builtAround (syntheticHello name includePadding).block =
      (syntheticHello name includePadding).encode := by
  have hfits := syntheticHello_message_fits name includePadding
  have hmessage := syntheticHello_fields name includePadding
  generalize hhello : syntheticHello name includePadding = hello at hfits hmessage
  have hbody : hello.message = hello.fields ++ hello.block := by
    rw [← hhello, ClientHello.message]
    exact congrArg (_ ++ ·) (List.append_nil _)
  have hversion : be16Bytes hello.recordVersion.toNat = [0x03, 0x01] := by
    rw [← hhello]
    show be16Bytes (0x0301 : UInt16).toNat = _
    decide
  have hhigh : UInt8.ofNat (hello.message.length / 65536) = 0 := by
    rw [Nat.div_eq_of_lt (by omega)]
    rfl
  simp only [builtAround, ← hmessage, ← hbody]
  rw [ClientHello.encode, ClientHello.header, hversion, hhigh, Nat.add_comm 4]
  simp only [List.append_assoc, List.cons_append, List.nil_append]
  rfl

/-- The extensions that are built. -/
def builtExtensions (hostname : Option Str) (includePadding : Bool) : Bytes :=
  let sni := match hostname with
    | some host =>
      let hostBytes := utf8Bytes host
      [0x00, 0x00] ++ be16Bytes (2 + 1 + 2 + hostBytes.length) ++
        be16Bytes (1 + 2 + hostBytes.length) ++ [0x00] ++ be16Bytes hostBytes.length ++ hostBytes
    | none => []
  let padding := if includePadding then [0x00, 0x15, 0x00, 0x0A] ++ List.replicate 10 0 else []
  sni ++ padding

theorem serverNameExtension_encode (name : ShortName) :
    [0x00, 0x00] ++ be16Bytes (2 + 1 + 2 + name.1.length) ++ be16Bytes (1 + 2 + name.1.length) ++
      [0x00] ++ be16Bytes name.1.length ++ name.1 = (serverNameExtension name).encode := by
  show _ = be16Bytes 0 ++ (be16Bytes (serverNameBody name.1).length ++ (be16Bytes _ ++
    ([0x00] ++ be16Bytes name.1.length) ++ name.1))
  have hlist : 1 + 2 + name.1.length = name.1.length + 3 := Nat.add_comm _ _
  rw [serverNameBody_length, hlist]
  simp only [List.append_assoc]
  rfl

theorem builtExtensions_eq {hostname : Option Str} {name : Option ShortName}
    (includePadding : Bool) (h : hostname.map utf8Bytes = name.map Subtype.val) :
    builtExtensions hostname includePadding = (syntheticHello name includePadding).block := by
  have hpad : (if includePadding then [paddingExtension] else []).flatMap Extension.encode =
      if includePadding then [0x00, 0x15, 0x00, 0x0A] ++ List.replicate 10 0 else [] := by
    cases includePadding <;> rfl
  show _ = (syntheticExtensions name includePadding).flatMap Extension.encode
  rw [syntheticExtensions, List.flatMap_append, hpad]
  cases hostname with
  | none =>
    cases name with
    | none => rfl
    | some name => cases h
  | some host =>
    cases name with
    | none => cases h
    | some name =>
      have hname : utf8Bytes host = name.1 := Option.some.inj h
      rw [Option.map_some, Option.toList_some, List.flatMap_singleton,
        ← serverNameExtension_encode, ← hname]
      rfl

/-- **What is built is a record of the format.** -/
theorem build_eq_encode {hostname : Option Str} {name : Option ShortName} (includePadding : Bool)
    (h : hostname.map utf8Bytes = name.map Subtype.val) :
    buildSyntheticClientHello hostname includePadding =
      (syntheticHello name includePadding).encode := by
  rw [← builtAround_block, ← builtExtensions_eq includePadding h]
  rfl

/-! ## What the record says -/

/-- The lengths of the record, of the handshake message and of the block of extensions
count the bytes behind them. -/
structure WellNested (r : Bytes) : Prop where
  recordLength : be16At r 3 = some (r.length - 5)
  handshakeLength : r[6]? = some 0 ∧ be16At r 7 = some (r.length - 9)
  extensionsLength : be16At r 50 = some (r.length - 52)

/-- The first extension names the server: its lengths count their contents, which end
where `rest` begins. -/
structure NamesServer (r name rest : Bytes) : Prop where
  extensionType : be16At r 52 = some sniExtensionType
  extensionLength : be16At r 54 = some (5 + name.length)
  listLength : be16At r 56 = some (3 + name.length)
  nameType : r[58]? = some 0
  nameLength : be16At r 59 = some name.length
  contents : r.drop 61 = name ++ rest

theorem wellNested_encode (name : Option ShortName) (includePadding : Bool) :
    WellNested (syntheticHello name includePadding).encode := by
  have hfits := syntheticHello_message_fits name includePadding
  have hext := (syntheticHello name includePadding).extensionsLength_encode rfl
  rw [syntheticHello_fields_length] at hext
  exact ⟨ClientHello.recordLength_encode _ hfits,
    ClientHello.handshakeLength_encode _ (Nat.lt_of_add_right_lt hfits), hext⟩

/-- The extensions of a record with a name: the one that names the server, and more. -/
theorem syntheticHello_block (name : ShortName) (includePadding : Bool) :
    (syntheticHello (some name) includePadding).block = (serverNameExtension name).encode ++
      (if includePadding then [paddingExtension] else []).flatMap Extension.encode := by
  show (syntheticExtensions (some name) includePadding).flatMap Extension.encode = _
  rw [syntheticExtensions, List.flatMap_append, Option.map_some, Option.toList_some,
    List.flatMap_singleton]

/-- An extension that names the server at offset 52, with `rest` behind it up to the end. -/
theorem namesServer_of_bytesAt {r rest : Bytes} {name : ShortName}
    (h : BytesAt r 52 ((serverNameExtension name).encode ++ rest))
    (hlen : r.length = 61 + name.1.length + rest.length) : NamesServer r name.1 rest := by
  obtain ⟨htype, hextLen, hbody⟩ := extension_reads h.left
  have hlist : BytesAt r 56 (be16Bytes (name.1.length + 3) ++ ([0] ++ be16Bytes name.1.length) ++
    name.1) := hbody
  have hsplit : (serverNameExtension name).encode ++ rest = be16Bytes 0 ++
      (be16Bytes (serverNameBody name.1).length ++ serverNameHead name.1) ++ (name.1 ++ rest) := by
    simp only [Extension.encode, serverNameExtension, serverNameBody, List.append_assoc]
    rfl
  rw [hsplit] at h
  have hcontents : BytesAt r 61 (name.1 ++ rest) := h.right
  have hfit := name.2
  constructor
  · exact htype
  · rw [hextLen]
    exact congrArg some (serverNameBody_length name.1)
  · rw [hlist.left.left.be16At (by omega), Nat.add_comm]
  · exact hlist.left.right.head
  · exact hlist.left.right.right.be16At (by omega)
  · apply hcontents.drop_eq
    rw [hlen, List.length_append, Nat.add_assoc]

theorem namesServer_encode (name : ShortName) (includePadding : Bool) :
    NamesServer (syntheticHello (some name) includePadding).encode name.1
      ((if includePadding then [paddingExtension] else []).flatMap Extension.encode) := by
  have hblock := syntheticHello_block name includePadding
  have hfields := syntheticHello_fields_length (some name) includePadding
  have hlen := (syntheticHello (some name) includePadding).encode_length
  have hat : BytesAt (syntheticHello (some name) includePadding).encode 0 _ := bytesAt_of_eq rfl
  have hext : BytesAt _ (9 + (syntheticHello (some name) includePadding).fields.length) _ :=
    hat.right.right.left
  rw [hfields, hblock] at hext
  apply namesServer_of_bytesAt hext
  rw [hlen, ClientHello.message, List.length_append, List.length_append, hfields, hblock,
    List.length_append, serverNameExtension_length]
  show 9 + (43 + (9 + name.1.length + _ + 0)) = _
  omega

/-- The name in the record is found. -/
theorem findSniInfo_named (name : ShortName) (includePadding : Bool) :
    findSniInfo (syntheticHello (some name) includePadding).encode =
      .ok (some ⟨61, name.1.length⟩) := by
  have hfound := findSniInfo_of_named (bytesAt_of_eq rfl)
    (show (syntheticHello (some name) includePadding).extensions =
      [] ++ serverNameExtension name :: if includePadding then [paddingExtension] else [] from rfl)
    (fun _ h => absurd h List.not_mem_nil) rfl rfl
  rwa [syntheticHello_fields_length] at hfound

theorem findSniInfo_unnamed (includePadding : Bool) :
    findSniInfo (syntheticHello none includePadding).encode = .ok none := by
  apply findSniInfo_of_unnamed (bytesAt_of_eq rfl)
  cases includePadding with
  | false => exact fun e he => absurd he List.not_mem_nil
  | true =>
    intro e he
    rw [List.mem_singleton.mp he]
    decide

/-- **Building and parsing.**  The record for a name that leaves the length fields room
is nested as its lengths say, and the parser finds the name; without a name it finds
nothing. -/
theorem synthetic_hello_parses (hostname : Str) (includePadding : Bool)
    (h : (utf8Bytes hostname).length ≤ 65465) :
    let r := buildSyntheticClientHello (some hostname) includePadding
    WellNested r ∧
      NamesServer r (utf8Bytes hostname)
        (if includePadding then [0x00, 0x15, 0x00, 0x0A] ++ List.replicate 10 0 else []) ∧
      isClientHello r = .ok true ∧
      (∃ info, findSniInfo r = .ok (some info) ∧
        info.hostnameOffset + info.hostnameLength ≤ r.length ∧
        (r.drop info.hostnameOffset).take info.hostnameLength = utf8Bytes hostname) ∧
      findSniInfo (buildSyntheticClientHello none includePadding) = .ok none := by
  intro r
  have hr : r = (syntheticHello (some ⟨utf8Bytes hostname, h⟩) includePadding).encode :=
    build_eq_encode includePadding rfl
  have hfound := findSniInfo_named ⟨utf8Bytes hostname, h⟩ includePadding
  have hnames := namesServer_encode ⟨utf8Bytes hostname, h⟩ includePadding
  have hnested := wellNested_encode (some ⟨utf8Bytes hostname, h⟩) includePadding
  rw [← hr] at hfound hnames hnested
  refine ⟨hnested, ?_, ?_, ⟨_, hfound, (findSniInfo_bounds hfound).2, ?_⟩, ?_⟩
  · cases includePadding <;> exact hnames
  · rw [isClientHello_eq]
    obtain ⟨pos, stop, ⟨hstarts, -⟩, -⟩ := findSniInfo_eq_some.mp hfound
    rw [decide_eq_true hstarts]
  · rw [hnames.contents]
    exact List.take_left
  · rw [@build_eq_encode none none includePadding rfl]
    exact findSniInfo_unnamed includePadding

theorem synthetic_hello_parses_example :
    NamesServer (buildSyntheticClientHello (some "a.b".toList) true) [97, 46, 98]
      ([0x00, 0x15, 0x00, 0x0A] ++ List.replicate 10 0) :=
  (synthetic_hello_parses "a.b".toList true (by decide)).2.1

/-- No longer name fits next to the padding. -/
theorem wellNested_padded_iff (hostname : Str) :
    WellNested (buildSyntheticClientHello (some hostname) true) ↔
      (utf8Bytes hostname).length ≤ 65465 := by
  constructor
  · intro h
    have hlen : (buildSyntheticClientHello (some hostname) true).length =
        75 + (utf8Bytes hostname).length := by
      simp only [buildSyntheticClientHello, List.length_append, List.length_cons, List.length_nil,
        List.length_replicate, be16Bytes_length, ite_true]
      omega
    obtain ⟨hi, lo, -, -, heq⟩ := be16At_eq_some.mp h.recordLength
    have := be16_lt hi lo
    omega
  · intro h
    rw [@build_eq_encode (some hostname) (some ⟨utf8Bytes hostname, h⟩) true rfl]
    exact wellNested_encode _ true

end GreenTunnel
