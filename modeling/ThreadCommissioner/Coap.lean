import Mathlib.Data.List.Sort
import ThreadCommissioner.Computations
import ThreadCommissioner.Errors

namespace ThreadCommissioner.Coap

open ByteStrings Computations Errors Texts

inductive CoapType
  | confirmable
  | nonConfirmable
  | acknowledgement
  | reset
  deriving DecidableEq, Repr

def CoapType.toByte : CoapType → UInt8
  | .confirmable => 0
  | .nonConfirmable => 1
  | .acknowledgement => 2
  | .reset => 3

def CoapType.tryFrom (value : UInt8) : Except Error CoapType :=
  if value = 0 then .ok .confirmable
  else if value = 1 then .ok .nonConfirmable
  else if value = 2 then .ok .acknowledgement
  else if value = 3 then .ok .reset
  else .error (.dataset "invalid CoAP type")

structure CoapCode where
  byte : UInt8
  deriving DecidableEq, Repr

def CoapCode.empty : CoapCode := ⟨0x00⟩

def CoapCode.post : CoapCode := ⟨0x02⟩

def CoapCode.changed : CoapCode := ⟨0x44⟩

structure CoapOption where
  number : UInt16
  value : Bytes
  deriving DecidableEq, Repr

structure CoapMessage where
  ty : CoapType
  code : CoapCode
  messageId : UInt16
  token : Bytes
  options : List CoapOption
  payload : Bytes
  deriving DecidableEq, Repr

def coapOptionUriPath : UInt16 := 11

def CoapMessage.emptyAck (messageId : UInt16) : CoapMessage :=
  ⟨.acknowledgement, .empty, messageId, [], [], []⟩

def CoapMessage.emptyChangedResponse (request : CoapMessage) : CoapMessage :=
  ⟨.acknowledgement, .changed, request.messageId, request.token, [], []⟩

/-- A message that is left half updated by a failure is dropped by every
caller. -/
def CoapMessage.setUriPath (message : CoapMessage) (uriPath : Text) : Except Error CoapMessage :=
  let options := message.options.filter (·.number ≠ coapOptionUriPath)
  let trimmed := if uriPath.bytes.head? = some 0x2f then uriPath.bytes.tail else uriPath.bytes
  if trimmed = [] then .ok { message with options }
  else
    let segments := trimmed.splitOn 0x2f
    if [] ∈ segments then .error (.dataset "CoAP Uri-Path has an empty segment")
    else .ok { message with options := options ++ segments.map (CoapOption.mk coapOptionUriPath) }

def CoapMessage.postRequest (ty : CoapType) (messageId : UInt16) (token : Bytes) (uriPath : Text)
    (payload : Bytes) : Except Error CoapMessage :=
  CoapMessage.setUriPath ⟨ty, .post, messageId, token, [], payload⟩ uriPath

/-- The segments of the Uri-Path options, in the order of the options. -/
def uriSegments : List CoapOption → Except Error (List Text)
  | [] => .ok []
  | option :: options =>
    if option.number = coapOptionUriPath then do
      let segment ← okOr (fromUtf8 option.value) (.dataset "CoAP Uri-Path is not UTF-8")
      return segment :: (← uriSegments options)
    else uriSegments options

def CoapMessage.uriPath (message : CoapMessage) : Except Error (Option Text) := do
  match ← uriSegments message.options with
  | [] => return none
  | segments => return some (Text.path segments)

def encodeExtendedNibble (value : UInt16) : UInt8 × Bytes :=
  if value ≤ 12 then (value.toUInt8, [])
  else if value ≤ 268 then (13, [(value - 13).toUInt8])
  else (14, beBytes 2 (value - 269).toNat)

def encodeOptionHeader (delta : UInt16) (length : ℕ) : Except Error Bytes := do
  let (deltaNibble, deltaExtra) := encodeExtendedNibble delta
  ensure (length < 2 ^ 16) (Error.dataset "CoAP option too long")
  let (lengthNibble, lengthExtra) := encodeExtendedNibble (.ofNat length)
  return (deltaNibble <<< 4 ||| lengthNibble) :: (deltaExtra ++ lengthExtra)

def encodeOptions (lastNumber : UInt16) : List CoapOption → Except Error Bytes
  | [] => .ok []
  | option :: options => do
    ensure (lastNumber ≤ option.number) (Error.dataset "CoAP option numbers decreased")
    let header ← encodeOptionHeader (option.number - lastNumber) option.value.length
    return header ++ option.value ++ (← encodeOptions option.number options)

/-- The key the source sorts by: the option number, then the position. -/
def keyLe (a b : CoapOption × ℕ) : Prop :=
  a.1.number < b.1.number ∨ (a.1.number = b.1.number ∧ a.2 ≤ b.2)

instance : DecidableRel keyLe := fun a b => by
  unfold keyLe
  infer_instance

def sortedOptions (options : List CoapOption) : List CoapOption :=
  (options.zipIdx.insertionSort keyLe).map Prod.fst

def CoapMessage.encode (message : CoapMessage) : Except Error Bytes := do
  ensure (message.token.length ≤ 8) (Error.dataset "CoAP token length > 8")
  let options ← encodeOptions 0 (sortedOptions message.options)
  return ((0x01 : UInt8) <<< 6 ||| message.ty.toByte <<< 4 ||| UInt8.ofNat message.token.length)
    :: message.code.byte :: beBytes 2 message.messageId.toNat
    ++ message.token ++ options ++ (if message.payload = [] then [] else 0xff :: message.payload)

def decodeExtendedNibble (nibble : UInt8) (bytes : Bytes) : Except Error (UInt16 × ℕ) :=
  if nibble ≤ 12 then .ok (nibble.toUInt16, 0)
  else if nibble = 13 then
    match bytes with
    | byte :: _ => .ok (byte.toUInt16 + 13, 1)
    | [] => .error (.dataset "CoAP option extension is truncated")
  else if nibble = 14 then
    if bytes.length < 2 then .error (.dataset "CoAP option extension is truncated")
    else
      let value := beNat (bytes.take 2)
      if value + 269 < 2 ^ 16 then .ok (.ofNat (value + 269), 2)
      else .error (.dataset "CoAP option extension overflow")
  else .error (.dataset "reserved CoAP option nibble")

/-- One round of the loop over the option region: the option that starts at
`first`, and the bytes after its value. -/
def decodeOption (lastNumber : UInt16) (first : UInt8) (afterHeader : Bytes) :
    Except Error (CoapOption × Bytes) := do
  let (delta, usedDelta) ← decodeExtendedNibble (first >>> 4) afterHeader
  let afterDelta := afterHeader.drop usedDelta
  let (length, usedLen) ← decodeExtendedNibble (first &&& 0x0f) afterDelta
  let afterLength := afterDelta.drop usedLen
  ensure (length.toNat ≤ afterLength.length) (Error.dataset "CoAP option value is truncated")
  ensure (lastNumber.toNat + delta.toNat < 2 ^ 16) (Error.dataset "CoAP option number overflow")
  return (⟨lastNumber + delta, afterLength.take length.toNat⟩, afterLength.drop length.toNat)

theorem decodeOption_shrinks {lastNumber : UInt16} {first : UInt8} {afterHeader rest : Bytes} {option : CoapOption}
    (h : decodeOption lastNumber first afterHeader = .ok (option, rest)) : rest.length ≤ afterHeader.length := by
  obtain ⟨⟨delta, usedDelta⟩, -, h⟩ := bind_ok.mp h
  obtain ⟨⟨length, usedLen⟩, -, h⟩ := bind_ok.mp h
  obtain ⟨-, -, h⟩ := bind_ok.mp h
  obtain ⟨-, -, h⟩ := bind_ok.mp h
  cases h
  simp only [List.length_drop]
  omega

/-- The options and the payload of the region after the token. -/
def decodeOptions (lastNumber : UInt16) (rest : Bytes) : Except Error (List CoapOption × Bytes) :=
  match rest with
  | [] => .ok ([], [])
  | first :: afterHeader =>
    if first = 0xff then .ok ([], afterHeader)
    else
      match h : decodeOption lastNumber first afterHeader with
      | .error e => .error e
      | .ok (option, rest) =>
        have := decodeOption_shrinks h
        match decodeOptions option.number rest with
        | .error e => .error e
        | .ok (options, payload) => .ok (option :: options, payload)
termination_by rest.length
decreasing_by
  simp only [List.length_cons]
  omega

def CoapMessage.decode (bytes : Bytes) : Except Error CoapMessage :=
  match bytes with
  | first :: code :: high :: low :: rest => do
    ensure (first >>> 6 = 1) (Error.dataset "unsupported CoAP version")
    let tokenLen := (first &&& 0x0f).toNat
    ensure (tokenLen ≤ 8 ∧ tokenLen ≤ rest.length) (Error.dataset "invalid CoAP token length")
    let ty ← CoapType.tryFrom (first >>> 4 &&& 0x03)
    let (options, payload) ← decodeOptions 0 (rest.drop tokenLen)
    return ⟨ty, ⟨code⟩, .ofNat (beNat [high, low]), rest.take tokenLen, options, payload⟩
  | _ => .error (.dataset "CoAP header is truncated")

def CoapMessage.isEmptyAckFor (message : CoapMessage) (messageId : UInt16) : Bool :=
  message.ty = .acknowledgement && message.code = .empty && message.messageId = messageId
    && message.token = [] && message.options = [] && message.payload = []

end ThreadCommissioner.Coap
