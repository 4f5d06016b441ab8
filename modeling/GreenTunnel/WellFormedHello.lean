import GreenTunnel.HelloFormat
import GreenTunnel.SniWalk

/-! # Well-formed ClientHello records

On a record of the ClientHello format the parser finds the name in the first
server_name extension, wherever it stands among the extensions, and nothing when
there is none (`findSniInfo_correct`).  `extensionBlock_encode` takes the parser
over the fields of variable length to the block of extensions; in the block the
walk keeps in step with the list of extensions.
-/
namespace GreenTunnel
open Tls

/-! ## The fields before the extensions -/

/-- The lengths of the three fields put the block of extensions behind them. -/
theorem extensionBlock_of_lengths {data : Bytes} {sid cs cm n : Nat} (hsid : sid < 256)
    (hcm : cm < 256) (hstart : StartsClientHello data)
    (hsession : data[43]? = some (UInt8.ofNat sid))
    (hsuites : be16At data (44 + sid) = some cs)
    (hmethods : data[46 + sid + cs]? = some (UInt8.ofNat cm))
    (hblock : be16At data (47 + sid + cs + cm) = some n) :
    ExtensionBlock data (49 + sid + cs + cm) (49 + sid + cs + cm + n) := by
  have hsid' : (UInt8.ofNat sid).toNat = sid := UInt8.toNat_ofNat_of_lt' hsid
  have hcm' : (UInt8.ofNat cm).toNat = cm := UInt8.toNat_ofNat_of_lt' hcm
  have hfound := @ExtensionBlock.intro data (UInt8.ofNat sid) (UInt8.ofNat cm) cs n hstart hsession
  rw [hsid', hcm'] at hfound
  exact hfound hsuites hmethods hblock

/-- The parser finds the block of extensions where it stands. -/
theorem extensionBlock_encode {data : Bytes} {hello : ClientHello}
    (h : BytesAt data 0 hello.encode) :
    ExtensionBlock data (9 + hello.fields.length)
      (9 + hello.fields.length + hello.block.length) := by
  have hstart : StartsClientHello data := ⟨h.head, h.left.tail.right.right.head⟩
  have hfields : BytesAt data 9 hello.fields := h.right.left
  rw [ClientHello.fields] at hfields
  -- version and random, and the three fields behind their lengths
  have hsession := hfields.right.right
  rw [hello.random_length, be16Bytes_length] at hsession
  have hsuites : BytesAt data (44 + hello.sessionId.length) _ := hsession.tail.right
  have hmethods := hsuites.right.right
  rw [be16Bytes_length, show 44 + hello.sessionId.length + 2 + hello.cipherSuites.length =
    46 + hello.sessionId.length + hello.cipherSuites.length by omega] at hmethods
  have hblock := hmethods.tail.right
  rw [show 46 + hello.sessionId.length + hello.cipherSuites.length + 1 +
      hello.compression.length = 47 + hello.sessionId.length + hello.cipherSuites.length +
      hello.compression.length by omega] at hblock
  rw [hello.fields_length, show 9 + (40 + hello.sessionId.length + hello.cipherSuites.length +
      hello.compression.length) = 49 + hello.sessionId.length + hello.cipherSuites.length +
      hello.compression.length by omega]
  apply extensionBlock_of_lengths hello.sessionId_fits hello.compression_fits hstart
  · exact hsession.head
  · exact hsuites.left.be16At hello.cipherSuites_fit
  · exact hmethods.head
  · exact hblock.be16At hello.extensions_fit

/-! ## The extensions -/

/-- An extension as the walk reads it. -/
theorem extension_reads {data : Bytes} {e : Extension} {pos : Nat} (h : BytesAt data pos e.encode) :
    be16At data pos = some e.extType.toNat ∧ be16At data (pos + 2) = some e.body.length ∧
      BytesAt data (pos + 4) e.body := by
  have hfields := h.right
  rw [be16Bytes_length] at hfields
  exact ⟨h.left.be16At e.extType.toNat_lt, hfields.left.be16At e.body_fits, hfields.right⟩

theorem encode_length (e : Extension) : e.encode.length = 4 + e.body.length := by
  simp only [Extension.encode, List.length_append, be16Bytes_length]
  omega

/-- Over extensions that do not name the server the walk goes to their end. -/
theorem sniAt_encode_append {data : Bytes} {before : List Extension} {pos stop : Nat}
    {info : SniInfo} (h : BytesAt data pos (before.flatMap Extension.encode))
    (hbefore : ∀ e ∈ before, e.extType ≠ serverName)
    (hstop : pos + (before.flatMap Extension.encode).length ≤ stop) :
    SniAt data stop pos info ↔
      SniAt data stop (pos + (before.flatMap Extension.encode).length) info := by
  induction before generalizing pos with
  | nil => exact Iff.rfl
  | cons e before ih =>
    rw [List.flatMap_cons] at h
    obtain ⟨htype, hlen, -⟩ := extension_reads h.left
    have hrest := h.right
    rw [List.flatMap_cons, List.length_append, encode_length] at hstop ⊢
    rw [encode_length, ← Nat.add_assoc] at hrest
    have hne : e.extType.toNat ≠ sniExtensionType := by
      intro heq
      exact hbefore e List.mem_cons_self (UInt16.toNat_inj.mp heq)
    have hskip := ih hrest (fun x hx => hbefore x (List.mem_cons_of_mem _ hx)) (by omega)
    rw [show pos + (4 + e.body.length + (before.flatMap Extension.encode).length) =
      pos + 4 + e.body.length + (before.flatMap Extension.encode).length by omega, ← hskip,
      sniAt_iff (by omega) htype hlen, if_neg hne]

/-- **The name is found** in an extension that names the server. -/
theorem sniAt_serverName {data : Bytes} {e : Extension} {name : Bytes} {pos stop : Nat}
    (h : BytesAt data pos e.encode) (htype : e.extType = serverName)
    (hbody : e.body = serverNameBody name) (hstop : pos + e.encode.length ≤ stop) :
    SniAt data stop pos ⟨pos + 9, name.length⟩ := by
  obtain ⟨ht, hl, hat⟩ := extension_reads h
  have hfits := e.body_fits
  rw [htype] at ht
  rw [hbody, serverNameBody, serverNameHead] at hat
  rw [encode_length] at hstop
  have hlen : name.length < 65536 := by
    rw [hbody, serverNameBody, List.length_append] at hfits
    omega
  have hname : BytesAt data (pos + 4 + 5) name := hat.right
  apply SniAt.found (by omega) ht hl
  · exact hat.left.right.right.be16At hlen
  · exact hname.le

/-! ## The record -/

/-- Without an extension that names the server nothing is found. -/
theorem findSniInfo_of_unnamed {data : Bytes} {hello : ClientHello}
    (h : BytesAt data 0 hello.encode) (hnone : ∀ e ∈ hello.extensions, e.extType ≠ serverName) :
    findSniInfo data = .ok none := by
  have hfound := extensionBlock_encode h
  have hat : BytesAt data (9 + hello.fields.length) hello.block := h.right.right.left
  rw [ClientHello.block] at hfound hat
  apply findSniInfo_eq_none.mpr
  intro pos stop info hblock hs
  obtain ⟨rfl, rfl⟩ := hfound.unique hblock
  -- behind the last extension there is no room for another
  have hend := (sniAt_encode_append hat hnone (Nat.le_refl _)).mp hs
  have := hend.guard
  omega

/-- The name of the first extension that names the server is found. -/
theorem findSniInfo_of_named {data : Bytes} {hello : ClientHello} {before more : List Extension}
    {e : Extension} {name : Bytes} (h : BytesAt data 0 hello.encode)
    (hext : hello.extensions = before ++ e :: more)
    (hbefore : ∀ x ∈ before, x.extType ≠ serverName) (htype : e.extType = serverName)
    (hbody : e.body = serverNameBody name) :
    findSniInfo data = .ok (some
      ⟨9 + hello.fields.length + (before.flatMap Extension.encode).length + 9, name.length⟩) := by
  have hfound := extensionBlock_encode h
  have hat : BytesAt data (9 + hello.fields.length) hello.block := h.right.right.left
  rw [ClientHello.block, hext, List.flatMap_append, List.flatMap_cons] at hat hfound
  apply findSniInfo_eq_some.mpr
  refine ⟨_, _, hfound, ?_⟩
  apply (sniAt_encode_append hat.left hbefore ?_).mpr
  · apply sniAt_serverName hat.right.left htype hbody
    rw [List.length_append, List.length_append]
    omega
  · rw [List.length_append]
    omega

/-- **The parser on a well-formed record.**  Without a server_name extension it
finds nothing.  Otherwise it reports where the name in the first such extension
stands: `lead` is what the record has before the name. -/
theorem findSniInfo_correct (hello : ClientHello) (after : Bytes) :
    ((∀ e ∈ hello.extensions, e.extType ≠ serverName) →
      findSniInfo (hello.encode ++ after) = .ok none) ∧
    ∀ before e more name, hello.extensions = before ++ e :: more →
      (∀ x ∈ before, x.extType ≠ serverName) → e.extType = serverName →
      e.body = serverNameBody name →
        ∃ lead tail, hello.encode ++ after = lead ++ name ++ tail ∧
          lead = hello.header ++ hello.fields ++ before.flatMap Extension.encode ++
            (be16Bytes serverName.toNat ++ be16Bytes e.body.length ++ serverNameHead name) ∧
          findSniInfo (hello.encode ++ after) = .ok (some ⟨lead.length, name.length⟩) := by
  generalize hdata : hello.encode ++ after = data
  have hrecord : BytesAt data 0 hello.encode := (bytesAt_of_eq hdata.symm).left
  refine ⟨findSniInfo_of_unnamed hrecord, ?_⟩
  intro before e more name hext hbefore htype hbody
  refine ⟨_, more.flatMap Extension.encode ++ hello.rest ++ after, ?_, rfl, ?_⟩
  · rw [← hdata, ClientHello.encode, ClientHello.message, ClientHello.block, hext,
      List.flatMap_append, List.flatMap_cons, Extension.encode, htype, serverNameHead]
    simp only [List.append_assoc, hbody, serverNameBody, serverNameHead]
  · have hlead : (hello.header ++ hello.fields ++ before.flatMap Extension.encode ++
        (be16Bytes serverName.toNat ++ be16Bytes e.body.length ++ serverNameHead name)).length =
          9 + hello.fields.length + (before.flatMap Extension.encode).length + 9 := by
      simp only [List.length_append, hello.header_length, be16Bytes_length]
      rfl
    rw [hlead]
    exact findSniInfo_of_named hrecord hext hbefore htype hbody

/-- A record for the name `a.b`, with another extension before and behind the one
that names the server. -/
def helloForAB : ClientHello where
  recordVersion := 0x0301
  version := 0x0303
  random := List.replicate 32 7
  sessionId := [1, 2]
  cipherSuites := [0x13, 0x01]
  compression := [0]
  extensions := [⟨0x0A0A, [], by decide⟩, ⟨serverName, serverNameBody [97, 46, 98], by decide⟩,
    ⟨0x0015, [0, 0], by decide⟩]
  rest := []
  random_length := by decide
  sessionId_fits := by decide
  cipherSuites_fit := by decide
  compression_fits := by decide
  extensions_fit := by decide

theorem findSniInfo_correct_example :
    findSniInfo (helloForAB.encode ++ [1, 2, 3]) = .ok (some ⟨67, 3⟩) := by
  obtain ⟨lead, tail, -, rfl, hfind⟩ := (findSniInfo_correct helloForAB [1, 2, 3]).2
    [⟨0x0A0A, [], by decide⟩] ⟨serverName, serverNameBody [97, 46, 98], by decide⟩
    [⟨0x0015, [0, 0], by decide⟩] [97, 46, 98] rfl (by decide) rfl rfl
  exact hfind

end GreenTunnel
