import Nrpc.Common.Outcome
import Nrpc.Messages.Model.Dictionary
/-!
# The message codec

`conn/message`: a message is a flag byte, a base-128 id (requests and
responses), a route (requests and notifications), written out behind a
length byte or as a two-byte dictionary code, and the payload, possibly
deflated. `Encode` assigns the deflated payload through the pointer it is
given, so it is modelled with the message it leaves. `Decode` indexes its
input without a recover around it, so it is modelled with the panics of
those expressions.
-/

namespace Nrpc

namespace Messages

/-- `Request`. -/
def request : UInt8 := 0x00

/-- `Notify`. -/
def notify : UInt8 := 0x01

/-- `Response`. -/
def response : UInt8 := 0x02

def errorMask : UInt8 := 0x20

def gzipMask : UInt8 := 0x10

def msgRouteCompressMask : UInt8 := 0x01

def msgTypeMask : UInt8 := 0x07

def msgHeadLength : ℕ := 0x02

/-- The errors of the codec; `zlib` carries the text of an error of
`compress/zlib`. -/
inductive MessageError where
  /-- `ErrWrongMessageType` -/
  | wrongMessageType
  /-- `ErrInvalidMessage` -/
  | invalidMessage
  /-- `ErrRouteInfoNotFound` -/
  | routeInfoNotFound
  | zlib (text : GoString)
  deriving DecidableEq, Repr

/-- `Message`. -/
structure Message where
  /-- message type -/
  type : UInt8
  /-- unique id, zero while notify mode -/
  id : UInt64
  /-- route for locating service -/
  route : GoString
  /-- payload -/
  data : List UInt8
  /-- is message compressed -/
  compressed : Bool
  /-- is an error message -/
  err : Bool
  deriving DecidableEq, Repr

/-- `DeflateData` and `InflateData`, which wrap `compress/zlib`. -/
structure Zlib where
  deflateData : List UInt8 → Except GoString (List UInt8)
  inflateData : List UInt8 → Except GoString (List UInt8)

/-- What is assumed of `compress/zlib`: every payload deflates, and
inflating the result gives it back. -/
def Zlib.Inverse (z : Zlib) : Prop :=
  ∀ x, ∃ d, z.deflateData x = .ok d ∧ z.inflateData d = .ok x

def routable (t : UInt8) : Bool := t == request || t == notify

def invalidType (t : UInt8) : Bool := t < request || t > response

/-! ## Encode -/

/-- The id loop of `Encode`: seven bits a turn until nothing is left. -/
def encodeID (n : UInt64) : List UInt8 :=
  let b := (n % 128).toUInt8
  let rest := n >>> 7
  if rest ≠ 0 then (b + 128) :: encodeID rest else [b]
termination_by n.toNat
decreasing_by
  rename_i hne
  have hpos : rest.toNat ≠ 0 := fun h => hne (UInt64.toNat_inj.1 (by simpa using h))
  simp only [rest, UInt64.toNat_shiftRight, UInt64.reduceToNat, Nat.reduceMod,
    Nat.shiftRight_eq_div_pow] at hpos ⊢
  omega

/-- The route field of `Encode`: the dictionary code if there is one,
else the route behind its length, of which one byte is kept. -/
def encodeRoute (code : Option UInt16) (route : GoString) : List UInt8 :=
  match code with
  | some code => [((code >>> 8) &&& 0xFF).toUInt8, (code &&& 0xFF).toUInt8]
  | none => UInt8.ofNat route.length :: route

/-- The flag byte of `Encode` before the payload is looked at. -/
def encodeFlag (m : Message) (code : Option UInt16) : UInt8 :=
  let flag := m.type <<< 1
  let flag := if code.isSome then flag ||| msgRouteCompressMask else flag
  if m.err then flag ||| errorMask else flag

/-- `MessagesEncoder.Encode`, with the message it leaves behind its
pointer. -/
def encode (z : Zlib) (dict : Dictionary) (dataCompression : Bool) (m : Message) :
    Except MessageError (List UInt8) × Message :=
  if invalidType m.type then (.error .wrongMessageType, m)
  else
    let code := dict.routes.get? m.route
    let buf := [encodeFlag m code]
    let buf := if m.type = request ∨ m.type = response then buf ++ encodeID m.id else buf
    let buf := if routable m.type then buf ++ encodeRoute code m.route else buf
    if dataCompression then
      match z.deflateData m.data with
      | .error text => (.error (.zlib text), m)
      | .ok d =>
        if d.length < m.data.length then
          let m := { m with data := d }
          (.ok (buf.modifyHead (· ||| gzipMask) ++ m.data), m)
        else (.ok (buf ++ m.data), m)
    else (.ok (buf ++ m.data), m)

/-! ## Decode -/

/-- `uint(x) << k` on 64 bits; a shift by 64 or more leaves nothing. -/
def shl (x : UInt8) (k : ℕ) : UInt64 := UInt64.ofNat (x.toNat <<< k)

/-- The id loop of `Decode` over the bytes `data[offset:]`, `k` of them
read: the id, and how many bytes were read if one of them closed it. -/
def decodeIDLoop : List UInt8 → ℕ → UInt64 → UInt64 × Option ℕ
  | [], _, id => (id, none)
  | b :: bs, k, id =>
    let id := id + shl (b &&& 0x7F) (7 * k)
    if b < 128 then (id, some (k + 1)) else decodeIDLoop bs (k + 1) id

/-- The id field of `Decode`: the id and the offset behind it. The offset
moves only when the loop breaks. -/
def decodeID (data : List UInt8) (offset : ℕ) : UInt64 × ℕ :=
  let (id, read) := decodeIDLoop (data.drop offset) 0 0
  (id, offset + read.getD 0)

/-- Where `Decode` reads an id. -/
def decodeIDField (type : UInt8) (data : List UInt8) (offset : ℕ) : UInt64 × ℕ :=
  if type = request ∨ type = response then decodeID data offset else (0, offset)

/-- The route field of `Decode`: the route, whether it was compressed,
and the offset behind it. -/
def decodeRoute (dict : Dictionary) (flag : UInt8) (data : List UInt8) (offset : ℕ) :
    Outcome MessageError (GoString × Bool × ℕ) :=
  let size := data.length
  if flag &&& msgRouteCompressMask = 1 then
    if offset > size ∨ offset + 2 > size then .err .invalidMessage
    else do
      let bytes ← Outcome.slice data offset (offset + 2)
      let hi ← Outcome.index bytes 0
      let lo ← Outcome.index bytes 1
      let code := hi.toUInt16 <<< 8 ||| lo.toUInt16
      match dict.codes.get? code with
      | none => .err .routeInfoNotFound
      | some route => .ok (route, true, offset + 2)
  else do
    let rl ← Outcome.index data offset
    let offset := offset + 1
    if offset > size ∨ offset + rl.toNat > size then .err .invalidMessage
    else
      let route ← Outcome.slice data offset (offset + rl.toNat)
      return (route, false, offset + rl.toNat)

/-- Where `Decode` reads a route. -/
def decodeRouteField (dict : Dictionary) (flag type : UInt8) (data : List UInt8) (offset : ℕ) :
    Outcome MessageError (GoString × Bool × ℕ) :=
  if routable type then decodeRoute dict flag data offset else .ok ([], false, offset)

/-- The payload of `Decode`, inflated under the gzip bit. -/
def decodePayload (z : Zlib) (flag : UInt8) (payload : List UInt8) :
    Outcome MessageError (List UInt8) :=
  if flag &&& gzipMask = gzipMask then
    match z.inflateData payload with
    | .error text => .err (.zlib text)
    | .ok payload => .ok payload
  else .ok payload

/-- `Decode`. -/
def decode (z : Zlib) (dict : Dictionary) (data : List UInt8) : Outcome MessageError Message :=
  if data.length < msgHeadLength then .err .invalidMessage
  else do
    let flag ← Outcome.index data 0
    let type := (flag >>> 1) &&& msgTypeMask
    if invalidType type then .err .wrongMessageType
    else
      let (id, offset) := decodeIDField type data 1
      let err := flag &&& errorMask == errorMask
      let (route, compressed, offset) ← decodeRouteField dict flag type data offset
      if offset > data.length then .err .invalidMessage
      else
        let payload ← Outcome.sliceFrom data offset
        let payload ← decodePayload z flag payload
        return ⟨type, id, route, payload, compressed, err⟩

end Messages

end Nrpc
