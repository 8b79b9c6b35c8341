-- The agent of `snmp_server.cpp`: its handlers, the checks before them, and
-- the loop that receives datagrams. The MIB manager, the security manager
-- and the OID texts are not in the tree, so they are parameters here.
import SimpleSnmpd.PacketParser

open simple_snmpd.snmp_packet

namespace simple_snmpd.snmp_server

/-! ## Values of the MIB -/

/-- `enum class SNMPDataType`. Its values are those of an `int`, and a cast
from an octet keeps the octet. -/
structure SNMPDataType where
  code : BitVec 32
deriving DecidableEq, Repr

/-- `static_cast<SNMPDataType>` of an octet. -/
def SNMPDataType.ofOctet (b : UInt8) : SNMPDataType := ⟨b.toBitVec.setWidth 32⟩

/-- `static_cast<uint8_t>` of a type. -/
def SNMPDataType.toOctet (t : SNMPDataType) : UInt8 := ⟨t.code.setWidth 8⟩

/-- `MIBValue`. -/
structure MIBValue where
  type : SNMPDataType
  data : List UInt8
deriving DecidableEq, Repr

/-! ## The managers -/

/-- An object identifier, as its content octets. -/
abbrev OID := List UInt8

/-- `MIBManager`, on a state of any type. A call with a result to fill in
gives an option. -/
structure MIBManager (M : Type) where
  get_value : M → OID → Option MIBValue
  set_value : M → OID → MIBValue → Bool × M
  get_next_oid : M → OID → Option OID
  is_scalar : M → OID → Bool

/-- `SecurityManager`, on a state of any type. The rate limit reads the
clock. -/
structure SecurityManager (S : Type) where
  check_rate_limit : S → Nat → List UInt8 → Bool × S
  is_ip_allowed : S → List UInt8 → Bool
  is_access_allowed : S → List UInt8 → List UInt8 → Bool
  is_oid_allowed : S → List UInt8 → List UInt8 → Bool
  is_write_allowed : S → List UInt8 → Bool

/-- The code that the agent calls. -/
structure Managers (M S : Type) where
  mib : MIBManager M
  security : SecurityManager S
  oid_to_string : OID → List UInt8

/-- What the agent keeps from datagram to datagram. -/
structure Agent (M S : Type) where
  mib : M
  security : S
deriving DecidableEq, Repr

variable {M S : Type} (k : Managers M S)

/-! ## The handlers -/

/-- `response.add_variable_binding(..)` -/
def add_variable_binding (response : SNMPPacket) (varbind : VariableBinding) : SNMPPacket :=
  { response with variable_bindings := response.variable_bindings ++ [varbind] }

/-- The error status of a binding that fails. The index is the number of
bindings of the request. -/
def set_error (request : SNMPPacket) (status : UInt8) (response : SNMPPacket) : SNMPPacket :=
  { response with
    error_status := status
    error_index := octet request.variable_bindings.length }

/-- A binding with the NULL value. -/
def null_binding (oid : OID) : VariableBinding := { oid, value_type := 0x05, value := [] }

/-- A binding with a value of the MIB. -/
def value_binding (oid : OID) (v : MIBValue) : VariableBinding :=
  { oid, value_type := v.type.toOctet, value := v.data }

/-- One turn of the loop of `process_get_request`. -/
def get_turn (mib : M) (request response : SNMPPacket) (varbind : VariableBinding) : SNMPPacket :=
  match k.mib.get_value mib varbind.oid with
  | some mib_value => add_variable_binding response (value_binding varbind.oid mib_value)
  | none =>
    add_variable_binding (set_error request SNMP_ERROR_NO_SUCH_NAME response)
      (null_binding varbind.oid)

/-- `SNMPServer::process_get_request`. -/
def process_get_request (mib : M) (request response : SNMPPacket) : SNMPPacket :=
  request.variable_bindings.foldl (get_turn k mib request)
    { response with pdu_type := SNMP_PDU_GET_RESPONSE }

/-- The answer to one OID of a GET-NEXT or a GET-BULK. -/
def next_binding (mib : M) (oid : OID) : VariableBinding :=
  match k.mib.get_next_oid mib oid with
  | some next_oid =>
    match k.mib.get_value mib next_oid with
    | some mib_value => value_binding next_oid mib_value
    | none => null_binding next_oid
  | none => null_binding oid

/-- One turn of the loops of `process_get_next_request` and
`process_get_bulk_request`. -/
def next_turn (mib : M) (response : SNMPPacket) (varbind : VariableBinding) : SNMPPacket :=
  add_variable_binding response (next_binding k mib varbind.oid)

/-- `SNMPServer::process_get_next_request`. -/
def process_get_next_request (mib : M) (request response : SNMPPacket) : SNMPPacket :=
  request.variable_bindings.foldl (next_turn k mib)
    { response with pdu_type := SNMP_PDU_GET_RESPONSE }

/-- `SNMPServer::process_get_bulk_request`. -/
def process_get_bulk_request (mib : M) (request response : SNMPPacket) : SNMPPacket :=
  request.variable_bindings.foldl (next_turn k mib)
    { response with pdu_type := SNMP_PDU_GET_RESPONSE }

/-- A binding of a SET that is refused. -/
def refuse (request : SNMPPacket) (status : UInt8) (varbind : VariableBinding)
    (response : SNMPPacket) : SNMPPacket :=
  add_variable_binding (set_error request status response) (null_binding varbind.oid)

/-- The value that a binding of a SET stores. -/
def new_value (varbind : VariableBinding) : MIBValue :=
  { type := .ofOctet varbind.value_type, data := varbind.value }

/-- One turn of the loop of `process_set_request`, on the MIB and the
response. -/
def set_turn (security : S) (request : SNMPPacket) (s : M × SNMPPacket)
    (varbind : VariableBinding) : M × SNMPPacket :=
  let (mib, response) := s
  let oid_str := k.oid_to_string varbind.oid
  if !k.security.is_oid_allowed security request.community oid_str then
    (mib, refuse request SNMP_ERROR_NO_ACCESS varbind response)
  else
    match k.mib.get_value mib varbind.oid with
    | some _ =>
      if k.mib.is_scalar mib varbind.oid then
        (mib, refuse request SNMP_ERROR_READ_ONLY varbind response)
      else
        match k.mib.set_value mib varbind.oid (new_value varbind) with
        | (true, mib) => (mib, add_variable_binding response varbind)
        | (false, mib) => (mib, refuse request SNMP_ERROR_WRONG_VALUE varbind response)
    | none => (mib, refuse request SNMP_ERROR_NO_SUCH_NAME varbind response)

/-- `SNMPServer::process_set_request`. -/
def process_set_request (security : S) (mib : M) (request response : SNMPPacket) :
    M × SNMPPacket :=
  let response := { response with pdu_type := SNMP_PDU_GET_RESPONSE }
  if !k.security.is_write_allowed security request.community then
    (mib, { response with error_status := SNMP_ERROR_NO_ACCESS })
  else
    request.variable_bindings.foldl (set_turn k security request) (mib, response)

/-- `SNMPServer::process_trap_v1`. It only logs. -/
def process_trap_v1 (_request response : SNMPPacket) : SNMPPacket := response

/-- `SNMPServer::process_trap_v2`. It only logs. -/
def process_trap_v2 (_request response : SNMPPacket) : SNMPPacket := response

/-! ## A request -/

/-- `response.set_error_status(SNMP_ERROR_NO_SUCH_NAME)` -/
def no_such_name (response : SNMPPacket) : SNMPPacket :=
  { response with error_status := SNMP_ERROR_NO_SUCH_NAME }

/-- The switch of `process_snmp_request` on the PDU type. -/
def dispatch (security : S) (mib : M) (request response : SNMPPacket) : M × SNMPPacket :=
  if request.pdu_type = SNMP_PDU_GET_REQUEST then
    (mib, process_get_request k mib request response)
  else if request.pdu_type = SNMP_PDU_GET_NEXT_REQUEST then
    (mib, process_get_next_request k mib request response)
  else if request.pdu_type = SNMP_PDU_GET_BULK_REQUEST then
    if request.version = SNMP_VERSION_2C ∨ request.version = SNMP_VERSION_3 then
      (mib, process_get_bulk_request k mib request response)
    else (mib, no_such_name response)
  else if request.pdu_type = SNMP_PDU_SET_REQUEST then
    process_set_request k security mib request response
  else if request.pdu_type = SNMP_PDU_TRAP then
    if request.version = SNMP_VERSION_1 then (mib, process_trap_v1 request response)
    else (mib, no_such_name response)
  else if request.pdu_type = SNMP_PDU_TRAP_V2 then
    if request.version = SNMP_VERSION_2C then (mib, process_trap_v2 request response)
    else (mib, no_such_name response)
  else (mib, no_such_name response)

/-- The response packet that `process_snmp_request` starts from. -/
def new_response (request : SNMPPacket) : SNMPPacket :=
  { SNMPPacket.new with
    version := request.version
    community := request.community
    request_id := request.request_id }

/-- `SNMPServer::process_snmp_request`, at a reading of the clock. The
result is the packet that is handed to `send_response`, if there is one. -/
def process_snmp_request (now : Nat) (client_address : List UInt8) (request : SNMPPacket)
    (s : Agent M S) : Agent M S × Option SNMPPacket :=
  let (in_rate, security) := k.security.check_rate_limit s.security now client_address
  let s := { s with security }
  if !in_rate then (s, none)
  else if !k.security.is_ip_allowed security client_address then (s, none)
  else if !k.security.is_access_allowed security request.community client_address then (s, none)
  else
    let (mib, response) := dispatch k security s.mib request (new_response request)
    ({ s with mib }, some response)

/-- `SNMPServer::send_response`: the bytes that are handed to `sendto`. -/
def send_response (response : SNMPPacket) : Option (List UInt8) := serialize response

/-! ## The loop -/

/-- `struct sockaddr_in`, with the octets of the address in network order. -/
structure SockaddrIn where
  sin_addr : UInt8 × UInt8 × UInt8 × UInt8
  sin_port : UInt16
deriving DecidableEq, Repr

/-- The decimal numeral of an octet. -/
def decimal (b : UInt8) : List UInt8 := (Nat.toDigits 10 b.toNat).map fun c => UInt8.ofNat c.toNat

/-- `inet_ntoa`: four numerals with dots between them. -/
def inet_ntoa (a : UInt8 × UInt8 × UInt8 × UInt8) : List UInt8 :=
  decimal a.1 ++ 0x2E :: decimal a.2.1 ++ 0x2E :: decimal a.2.2.1 ++ 0x2E :: decimal a.2.2.2

/-- What one call of `recvfrom` brings: an error, or a datagram with its
source, at a reading of the clock. -/
inductive Received where
  | error
  | datagram (now : Nat) (client_addr : SockaddrIn) (payload : List UInt8)
deriving DecidableEq, Repr

/-- A datagram that is handed to `sendto`. -/
structure Sent where
  client_addr : SockaddrIn
  bytes : List UInt8
deriving DecidableEq, Repr

/-- `recvfrom` into `uint8_t buffer[4096]` cuts what does not fit. -/
def into_buffer (payload : List UInt8) : List UInt8 := payload.take 4096

/-- One turn of `SNMPServer::server_loop`. -/
def server_turn (s : Agent M S) : Received → Agent M S × Option Sent
  | .error => (s, none)
  | .datagram now client_addr payload =>
    let buffer := into_buffer payload
    if buffer.length = 0 then (s, none)
    else
      match parse (.bits 64) SNMPPacket.new buffer with
      | .ok () packet =>
        let (s, response) := process_snmp_request k now (inet_ntoa client_addr.sin_addr) packet s
        (s, (response.bind send_response).map fun bytes => { client_addr, bytes })
      | _ => (s, none)

/-- `SNMPServer::server_loop`, over what it receives while it runs. -/
def server_loop (s : Agent M S) (received : List Received) : Agent M S :=
  received.foldl (fun s r => (server_turn k s r).1) s

end simple_snmpd.snmp_server
