import ThreadCommissioner.Primitives

namespace ThreadCommissioner.Steering

open ByteStrings Primitives

def maxSteeringDataLen : ℕ := 16

def localExternalAddrMask : UInt8 := (1 : UInt8) <<< 1

def computeJoinerId [Suite] (eui64 : UInt64) : ByteVector 8 :=
  let joinerId := slice (sha256 (beBytes 8 eui64.toNat)) 0 8 (by omega)
  List.Vector.cons (joinerId.head ||| localExternalAddrMask) joinerId.tail

/-- One bit of the division: the register is shifted out to the left. -/
def crcShift (poly crc : UInt16) : UInt16 := if crc &&& 0x8000 ≠ 0 then (crc <<< (1 : UInt16)) ^^^ poly else crc <<< (1 : UInt16)

def crc16 (poly : UInt16) (bytes : Bytes) : UInt16 :=
  bytes.foldl (fun crc byte => (crcShift poly)^[8] (crc ^^^ (byte.toUInt16 <<< (8 : UInt16)))) 0

def setBit (out : Bytes) (bit : ℕ) : Bytes :=
  out.modify (out.length - 1 - bit / 8) (· ||| ((1 : UInt8) <<< UInt8.ofNat (bit % 8)))

def computeBloomFilter (out input : Bytes) : Bytes :=
  let numBits := out.length * 8
  let ccitt := (crc16 0x1021 input).toNat % numBits
  let ansi := (crc16 0x8005 input).toNat % numBits
  setBit (setBit out ccitt) ansi

def addJoinerToSteeringData (steeringData joinerId : Bytes) : Bytes :=
  computeBloomFilter
    (if steeringData.length = maxSteeringDataLen then steeringData else List.replicate maxSteeringDataLen 0) joinerId

end ThreadCommissioner.Steering
