import GreenTunnel.Bytes

/-! # The format of a ClientHello

A ClientHello record is the record header, the handshake header, and the message:
a version, 32 random bytes, the session id, the cipher suites and the compression
methods, each behind its length, and the block of extensions behind its length.
An extension is a type and a body behind its length.  What stands behind the block
of extensions is left open.
-/
namespace GreenTunnel.Tls

/-- The type of an extension that names the server. -/
def serverName : UInt16 := 0

structure Extension where
  extType : UInt16
  body : Bytes
  body_fits : body.length < 65536

def Extension.encode (e : Extension) : Bytes :=
  be16Bytes e.extType.toNat ++ (be16Bytes e.body.length ++ e.body)

/-- What stands before the name in the body of a server_name extension: the length
of the list, the type of the name, and its length. -/
def serverNameHead (name : Bytes) : Bytes :=
  be16Bytes (name.length + 3) ++ ([0] ++ be16Bytes name.length)

/-- The body of a server_name extension with one host name. -/
def serverNameBody (name : Bytes) : Bytes := serverNameHead name ++ name

structure ClientHello where
  recordVersion : UInt16
  version : UInt16
  random : Bytes
  sessionId : Bytes
  cipherSuites : Bytes
  compression : Bytes
  extensions : List Extension
  /-- What stands behind the block of extensions. -/
  rest : Bytes
  random_length : random.length = 32
  sessionId_fits : sessionId.length < 256
  cipherSuites_fit : cipherSuites.length < 65536
  compression_fits : compression.length < 256
  extensions_fit : (extensions.flatMap Extension.encode).length < 65536

namespace ClientHello

/-- The block of extensions. -/
def block (h : ClientHello) : Bytes := h.extensions.flatMap Extension.encode

/-- The fields of the message before the block of extensions. -/
def fields (h : ClientHello) : Bytes :=
  be16Bytes h.version.toNat ++ (h.random ++
    (UInt8.ofNat h.sessionId.length :: (h.sessionId ++
      (be16Bytes h.cipherSuites.length ++ (h.cipherSuites ++
        (UInt8.ofNat h.compression.length :: (h.compression ++ be16Bytes h.block.length)))))))

def message (h : ClientHello) : Bytes := h.fields ++ (h.block ++ h.rest)

/-- The record header and the handshake header, with the lengths of what follows. -/
def header (h : ClientHello) : Bytes :=
  0x16 :: (be16Bytes h.recordVersion.toNat ++ (be16Bytes (h.message.length + 4) ++
    (0x01 :: UInt8.ofNat (h.message.length / 65536) :: be16Bytes h.message.length)))

def encode (h : ClientHello) : Bytes := h.header ++ h.message

theorem header_length (h : ClientHello) : h.header.length = 9 := rfl

theorem fields_length (h : ClientHello) : h.fields.length =
    40 + h.sessionId.length + h.cipherSuites.length + h.compression.length := by
  simp only [fields, List.length_append, List.length_cons, be16Bytes_length, h.random_length]
  omega

theorem encode_length (h : ClientHello) : h.encode.length = 9 + h.message.length := by
  rw [encode, List.length_append, header_length]

/-! ### The length fields -/

/-- The record length counts what stands behind it. -/
theorem recordLength_encode (h : ClientHello) (hfit : h.message.length + 4 < 65536) :
    be16At h.encode 3 = some (h.encode.length - 5) := by
  have hat : BytesAt h.encode 0 h.encode := bytesAt_of_eq rfl
  have hlen : BytesAt h.encode 3 (be16Bytes (h.message.length + 4)) := hat.left.tail.right.left
  rw [hlen.be16At hfit, encode_length]
  congr 1
  omega

/-- The handshake length, of three bytes, counts what stands behind it. -/
theorem handshakeLength_encode (h : ClientHello) (hfit : h.message.length < 65536) :
    h.encode[6]? = some 0 ∧ be16At h.encode 7 = some (h.encode.length - 9) := by
  have hat : BytesAt h.encode 0 h.encode := bytesAt_of_eq rfl
  have hlen : BytesAt h.encode 6
      (UInt8.ofNat (h.message.length / 65536) :: be16Bytes h.message.length) :=
    hat.left.tail.right.right.tail
  constructor
  · rw [hlen.head, Nat.div_eq_of_lt hfit]
    rfl
  · rw [hlen.tail.be16At hfit, encode_length, Nat.add_sub_cancel_left]

/-- The length of the block counts what stands behind it, if that is all of the record. -/
theorem extensionsLength_encode (h : ClientHello) (hrest : h.rest = []) :
    be16At h.encode (7 + h.fields.length) = some (h.encode.length - (9 + h.fields.length)) := by
  have hat : BytesAt h.encode 0 h.encode := bytesAt_of_eq rfl
  have hfields : BytesAt h.encode 9 h.fields := hat.right.left
  rw [fields] at hfields
  have hlen := hfields.right.right.tail.right.right.right.tail.right.be16At h.extensions_fit
  have hpos : 9 + (be16Bytes h.version.toNat).length + h.random.length + 1 + h.sessionId.length +
      (be16Bytes h.cipherSuites.length).length + h.cipherSuites.length + 1 + h.compression.length =
        7 + h.fields.length := by
    rw [be16Bytes_length, be16Bytes_length, fields_length, h.random_length]
    omega
  rw [← hpos, hlen, encode_length, message, hrest, List.append_nil, List.length_append]
  congr 1
  omega

end ClientHello

end GreenTunnel.Tls
