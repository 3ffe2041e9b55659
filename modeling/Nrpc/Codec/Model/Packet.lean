import Nrpc.Common.Scan
/-!
# The packet codec

The packet layer of `conn/packet` and `conn/codec`: a packet is a type
byte, a three-byte big-endian length and that many bytes of payload. The
encoder writes one packet; the decoder reads a stream of them off a
buffer, keeps back what is not complete yet and fails as a whole on a
header it does not admit.
-/

namespace Nrpc

namespace Codec

/-- `packet.Handshake`, the least packet type. -/
def handshake : UInt8 := 0x01

/-- `packet.HandshakeAck`. -/
def handshakeAck : UInt8 := 0x02

/-- `packet.Heartbeat`. -/
def heartbeat : UInt8 := 0x03

/-- `packet.Data`, the greatest packet type. -/
def data : UInt8 := 0x04

/-- `HeadLength`: the type byte and the length field. -/
def headLength : ℕ := 4

/-- `MaxPacketSize`. -/
def maxPacketSize : ℕ := 1 <<< 24

/-- The errors of the codec. -/
inductive CodecError where
  /-- `packet.ErrInvalidPomeloHeader` -/
  | invalidPomeloHeader
  /-- `packet.ErrWrongPomeloPacketType` -/
  | wrongPomeloPacketType
  /-- `ErrPacketSizeExcced` -/
  | packetSizeExcced
  deriving DecidableEq, Repr

/-- `packet.Packet`. -/
structure Packet where
  type : UInt8
  length : ℕ
  data : List UInt8
  deriving DecidableEq, Repr

/-- `BytesToInt`, big-endian. -/
def bytesToInt (b : List UInt8) : ℕ :=
  b.foldl (fun result v => result <<< 8 + v.toNat) 0

/-- `IntToBytes`: the low three bytes of `n`, big-endian. -/
def intToBytes (n : ℕ) : List UInt8 :=
  [UInt8.ofNat ((n >>> 16) &&& 0xFF), UInt8.ofNat ((n >>> 8) &&& 0xFF), UInt8.ofNat (n &&& 0xFF)]

/-- `ParseHeader`: the payload length and the type a header declares. -/
def parseHeader (header : List UInt8) : Except CodecError (ℕ × UInt8) :=
  if header.length ≠ headLength then .error .invalidPomeloHeader
  else
    let typ := header.headD 0
    if typ < handshake ∨ typ > data then .error .wrongPomeloPacketType
    else
      let size := bytesToInt header.tail
      if size > maxPacketSize then .error .packetSizeExcced
      else .ok (size, typ)

/-- `PomeloPacketEncoder.Encode`. -/
def encode (typ : UInt8) (payload : List UInt8) : Except CodecError (List UInt8) :=
  if typ < handshake ∨ typ > data then .error .wrongPomeloPacketType
  else if payload.length > maxPacketSize then .error .packetSizeExcced
  else .ok (typ :: intToBytes payload.length ++ payload)

/-- `forward`: `buf.Next(HeadLength)` parsed, and the buffer behind it. -/
def forward (buf : List UInt8) : Except CodecError (ℕ × UInt8) × List UInt8 :=
  (parseHeader (buf.take headLength), buf.drop headLength)

/-- The loop of `PomeloPacketDecoder.Decode`. `size` and `typ` are the
header last read, `buf` what is unread and `packets` what is decoded. -/
def decodeLoop (size : ℕ) (typ : UInt8) (buf : List UInt8) (packets : List Packet) :
    Except CodecError (List Packet) :=
  if size ≤ buf.length then
    let packets := packets ++ [⟨typ, size, buf.take size⟩]
    let unread := buf.drop size
    if unread.length < headLength then .ok packets
    else match (forward unread).1 with
      | .error e => .error e
      | .ok (size, typ) => decodeLoop size typ (forward unread).2 packets
  else .ok packets
termination_by buf.length
decreasing_by
  rename_i hlen
  have hfour : headLength = 4 := rfl
  simp only [forward, unread, List.length_drop] at hlen ⊢
  omega

/-- `PomeloPacketDecoder.Decode`. -/
def decode (buf : List UInt8) : Except CodecError (List Packet) :=
  if buf.length < headLength then .ok []
  else match (forward buf).1 with
    | .error e => .error e
    | .ok (size, typ) => decodeLoop size typ (forward buf).2 []

end Codec

end Nrpc
