-- The packet of `snmp_packet.hpp` and its serializer, as `snmp_packet.cpp`
-- computes it: each length is one octet, pushed as a placeholder and filled
-- in when the bytes behind it are there.
import Mathlib.Data.List.Basic

namespace simple_snmpd.snmp_packet

/-! ## The constants -/

def SNMP_VERSION_1 : UInt8 := 0
def SNMP_VERSION_2C : UInt8 := 1
def SNMP_VERSION_3 : UInt8 := 3

def SNMP_PDU_GET_REQUEST : UInt8 := 0xA0
def SNMP_PDU_GET_NEXT_REQUEST : UInt8 := 0xA1
def SNMP_PDU_GET_RESPONSE : UInt8 := 0xA2
def SNMP_PDU_SET_REQUEST : UInt8 := 0xA3
def SNMP_PDU_TRAP : UInt8 := 0xA4
def SNMP_PDU_GET_BULK_REQUEST : UInt8 := 0xA5
def SNMP_PDU_TRAP_V2 : UInt8 := 0xA7
def SNMP_PDU_REPORT : UInt8 := 0xA8

def SNMP_ERROR_NO_SUCH_NAME : UInt8 := 2
def SNMP_ERROR_READ_ONLY : UInt8 := 4
def SNMP_ERROR_NO_ACCESS : UInt8 := 6
def SNMP_ERROR_WRONG_VALUE : UInt8 := 10

/-! ## The packet -/

/-- `SNMPPacket::VariableBinding`. -/
structure VariableBinding where
  oid : List UInt8
  value_type : UInt8
  value : List UInt8
deriving DecidableEq, Repr

/-- `SNMPPacket`. The community is a `std::string` of any bytes. -/
structure SNMPPacket where
  version : UInt8
  pdu_type : UInt8
  community : List UInt8
  request_id : UInt32
  error_status : UInt8
  error_index : UInt8
  variable_bindings : List VariableBinding
deriving DecidableEq, Repr

/-- `SNMPPacket::SNMPPacket`. -/
def SNMPPacket.new : SNMPPacket where
  version := SNMP_VERSION_2C
  pdu_type := SNMP_PDU_GET_REQUEST
  community := []
  request_id := 0
  error_status := 0
  error_index := 0
  variable_bindings := []

/-! ## The serializer -/

/-- `static_cast<uint8_t>` of a size: the low eight bits. -/
def octet (n : Nat) : UInt8 := UInt8.ofNat n

/-- `buffer[pos] = static_cast<uint8_t>(buffer.size() - pos - 1)`. -/
def fill_length (buffer : List UInt8) (pos : Nat) : List UInt8 :=
  buffer.set pos (octet (buffer.length - pos - 1))

/-- One turn of the loop of `serialize_variable_bindings`. -/
def serialize_variable_binding (buffer : List UInt8) (varbind : VariableBinding) : List UInt8 :=
  let buffer := buffer ++ [0x30]
  let varbind_length_pos := buffer.length
  let buffer := buffer ++ [0x00]
  let buffer := buffer ++ [0x06]
  let buffer := buffer ++ [octet varbind.oid.length]
  let buffer := buffer ++ varbind.oid
  let buffer := buffer ++ [varbind.value_type]
  let buffer := buffer ++ [octet varbind.value.length]
  let buffer := buffer ++ varbind.value
  fill_length buffer varbind_length_pos

/-- `SNMPPacket::serialize_variable_bindings`. Here and below, `none` is a
return of false. -/
def serialize_variable_bindings (p : SNMPPacket) (buffer : List UInt8) : Option (List UInt8) :=
  some (p.variable_bindings.foldl serialize_variable_binding buffer)

/-- `SNMPPacket::serialize_pdu_fields`. -/
def serialize_pdu_fields (p : SNMPPacket) (buffer : List UInt8) : Option (List UInt8) := do
  let buffer := buffer ++ [0x02]
  let buffer := buffer ++ [0x04]
  let buffer := buffer ++ [((p.request_id >>> 24) &&& 0xFF).toUInt8]
  let buffer := buffer ++ [((p.request_id >>> 16) &&& 0xFF).toUInt8]
  let buffer := buffer ++ [((p.request_id >>> 8) &&& 0xFF).toUInt8]
  let buffer := buffer ++ [(p.request_id &&& 0xFF).toUInt8]
  let buffer := buffer ++ [0x02]
  let buffer := buffer ++ [0x01]
  let buffer := buffer ++ [p.error_status]
  let buffer := buffer ++ [0x02]
  let buffer := buffer ++ [0x01]
  let buffer := buffer ++ [p.error_index]
  let buffer := buffer ++ [0x30]
  let varbinds_length_pos := buffer.length
  let buffer := buffer ++ [0x00]
  let buffer ← serialize_variable_bindings p buffer
  return fill_length buffer varbinds_length_pos

/-- `SNMPPacket::serialize`. -/
def serialize (p : SNMPPacket) : Option (List UInt8) := do
  let buffer : List UInt8 := [0x30]
  let length_pos := buffer.length
  let buffer := buffer ++ [0x00]
  let buffer := buffer ++ [0x02]
  let buffer := buffer ++ [0x01]
  let buffer := buffer ++ [p.version]
  let buffer := buffer ++ [0x04]
  let buffer := buffer ++ [octet p.community.length]
  let buffer := buffer ++ p.community
  let buffer := buffer ++ [p.pdu_type]
  let pdu_length_pos := buffer.length
  let buffer := buffer ++ [0x00]
  let buffer ← serialize_pdu_fields p buffer
  let buffer := fill_length buffer pdu_length_pos
  return fill_length buffer length_pos

end simple_snmpd.snmp_packet
