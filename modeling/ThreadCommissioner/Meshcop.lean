import ThreadCommissioner.Coap
import ThreadCommissioner.Tlvs

namespace ThreadCommissioner.Meshcop

open ByteStrings Errors Texts

def tlvPanId : UInt8 := 1

def tlvSteeringData : UInt8 := 8

def tlvBorderAgentLocator : UInt8 := 9

def tlvCommissionerSessionId : UInt8 := 11

def tlvGet : UInt8 := 13

def tlvState : UInt8 := 16

def tlvJoinerDtlsEncapsulation : UInt8 := 17

def tlvJoinerUdpPort : UInt8 := 18

def tlvJoinerIid : UInt8 := 19

def tlvJoinerRouterLocator : UInt8 := 20

def tlvJoinerRouterKek : UInt8 := 21

def tlvProvisioningUrl : UInt8 := 32

def tlvVendorName : UInt8 := 33

def tlvVendorModel : UInt8 := 34

def tlvVendorSwVersion : UInt8 := 35

def tlvVendorData : UInt8 := 36

def tlvVendorStackVersion : UInt8 := 37

def tlvUdpEncapsulation : UInt8 := 48

def tlvIpv6Address : UInt8 := 49

def tlvChannelMask : UInt8 := 53

def tlvEnergyList : UInt8 := 57

def tlvAeSteeringData : UInt8 := 61

def tlvNmkpSteeringData : UInt8 := 62

def tlvAeUdpPort : UInt8 := 65

def tlvNmkpUdpPort : UInt8 := 66

def defaultMmPort : UInt16 := 61631

def leaderAloc16 : UInt16 := 0xfc00

namespace Uri

def petitioning : Text := ⟨ascii "/c/cp", by decide⟩

def keepAlive : Text := ⟨ascii "/c/ca", by decide⟩

def mgmtCommissionerGet : Text := ⟨ascii "/c/cg", by decide⟩

def mgmtCommissionerSet : Text := ⟨ascii "/c/cs", by decide⟩

def mgmtBbrGet : Text := ⟨ascii "/c/bg", by decide⟩

def mgmtBbrSet : Text := ⟨ascii "/c/bs", by decide⟩

def mgmtActiveGet : Text := ⟨ascii "/c/ag", by decide⟩

def mgmtActiveSet : Text := ⟨ascii "/c/as", by decide⟩

def mgmtPendingGet : Text := ⟨ascii "/c/pg", by decide⟩

def mgmtPendingSet : Text := ⟨ascii "/c/ps", by decide⟩

def mgmtDatasetChanged : Text := ⟨ascii "/c/dc", by decide⟩

def mgmtAnnounceBegin : Text := ⟨ascii "/c/ab", by decide⟩

def mgmtPanidQuery : Text := ⟨ascii "/c/pq", by decide⟩

def mgmtPanidConflict : Text := ⟨ascii "/c/pc", by decide⟩

def mgmtEdScan : Text := ⟨ascii "/c/es", by decide⟩

def mgmtEdReport : Text := ⟨ascii "/c/er", by decide⟩

def mgmtReenroll : Text := ⟨ascii "/c/re", by decide⟩

def mgmtDomainReset : Text := ⟨ascii "/c/rt", by decide⟩

def mgmtNetMigrate : Text := ⟨ascii "/c/nm", by decide⟩

def mgmtSecPendingSet : Text := ⟨ascii "/c/sp", by decide⟩

def relayTx : Text := ⟨ascii "/c/tx", by decide⟩

def relayRx : Text := ⟨ascii "/c/rx", by decide⟩

def udpTx : Text := ⟨ascii "/c/ut", by decide⟩

def udpRx : Text := ⟨ascii "/c/ur", by decide⟩

def joinFin : Text := ⟨ascii "/c/jf", by decide⟩

def diagGetRequest : Text := ⟨ascii "/d/dg", by decide⟩

def diagGetQuery : Text := ⟨ascii "/d/dq", by decide⟩

def diagGetAnswer : Text := ⟨ascii "/d/da", by decide⟩

def diagReset : Text := ⟨ascii "/d/dr", by decide⟩

def mlr : Text := ⟨ascii "/n/mr", by decide⟩

end Uri

inductive CommissionerOperation
  | petition
  | keepAlive
  | getCommissionerDataset
  | setCommissionerDataset
  | getActiveDataset
  | setActiveDataset
  | getPendingDataset
  | setPendingDataset
  | setSecurePendingDataset
  | getBbrDataset
  | setBbrDataset
  | announceBegin
  | panIdQuery
  | energyScan
  | registerMulticastListener
  | reenroll
  | domainReset
  | migrate
  | diagnosticGet
  | diagnosticGetUnicast
  | diagnosticReset
  | sendToJoiner
  deriving DecidableEq, Repr

def CommissionerOperation.uriPath : CommissionerOperation → Text
  | .petition => Uri.petitioning
  | .keepAlive => Uri.keepAlive
  | .getCommissionerDataset => Uri.mgmtCommissionerGet
  | .setCommissionerDataset => Uri.mgmtCommissionerSet
  | .getActiveDataset => Uri.mgmtActiveGet
  | .setActiveDataset => Uri.mgmtActiveSet
  | .getPendingDataset => Uri.mgmtPendingGet
  | .setPendingDataset => Uri.mgmtPendingSet
  | .setSecurePendingDataset => Uri.mgmtSecPendingSet
  | .getBbrDataset => Uri.mgmtBbrGet
  | .setBbrDataset => Uri.mgmtBbrSet
  | .announceBegin => Uri.mgmtAnnounceBegin
  | .panIdQuery => Uri.mgmtPanidQuery
  | .energyScan => Uri.mgmtEdScan
  | .registerMulticastListener => Uri.mlr
  | .reenroll => Uri.mgmtReenroll
  | .domainReset => Uri.mgmtDomainReset
  | .migrate => Uri.mgmtNetMigrate
  | .diagnosticGet => Uri.diagGetQuery
  | .diagnosticGetUnicast => Uri.diagGetRequest
  | .diagnosticReset => Uri.diagReset
  | .sendToJoiner => Uri.relayTx

inductive MeshcopState
  | reject
  | pending
  | accept
  deriving DecidableEq, Repr

def MeshcopState.toWire : MeshcopState → UInt8
  | .reject => 0xff
  | .pending => 0x00
  | .accept => 0x01

def MeshcopState.fromWire (value : UInt8) : Except Error MeshcopState :=
  if value = 0xff then .ok .reject
  else if value = 0x00 then .ok .pending
  else if value = 0x01 then .ok .accept
  else .error (.dataset "invalid MeshCoP State TLV value")

end ThreadCommissioner.Meshcop
