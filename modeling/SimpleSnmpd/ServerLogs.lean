-- What the agent logs: for each datagram, what the parser, the checks, the
-- handlers and `send_response` say of it.
import SimpleSnmpd.AgentSpecs
import SimpleSnmpd.ParseReports

open texts simple_snmpd.snmp_packet simple_snmpd.snmp_config simple_snmpd.logger write_logs

namespace simple_snmpd.snmp_server

variable {M S : Type} (k : Managers M S)

/-! ## The handlers -/

/-- What `process_trap_v1` and `process_trap_v2` log, for a version. -/
def trap_log (version : List UInt8) (request : SNMPPacket) : List Entry :=
  (.INFO, text "Received SNMP " ++ version ++ text " trap from " ++ request.community ++
      text " with " ++ numeral request.variable_bindings.length ++ text " variables") ::
    request.variable_bindings.map fun varbind =>
      (.DEBUG, text "Trap variable: " ++ k.oid_to_string varbind.oid ++ text " (type: " ++
        numeral varbind.value_type.toNat ++ text ", length: " ++ numeral varbind.value.length ++
        text ")")

/-- What `process_trap_v1` logs. -/
def process_trap_v1_log (request : SNMPPacket) : List Entry := trap_log k (text "v1") request

/-- What `process_trap_v2` logs. -/
def process_trap_v2_log (request : SNMPPacket) : List Entry := trap_log k (text "v2c") request

/-- What `process_set_request` logs. -/
def process_set_request_log (security : S) (request : SNMPPacket) : List Entry :=
  if !k.security.is_write_allowed security request.community then
    [(.WARNING, text "Write access denied for community: " ++ request.community)]
  else []

/-- What the switch of `process_snmp_request` logs. -/
def dispatch_log (security : S) (request : SNMPPacket) : List Entry :=
  if request.pdu_type = SNMP_PDU_GET_REQUEST then []
  else if request.pdu_type = SNMP_PDU_GET_NEXT_REQUEST then []
  else if request.pdu_type = SNMP_PDU_GET_BULK_REQUEST then
    if request.version = SNMP_VERSION_2C ∨ request.version = SNMP_VERSION_3 then []
    else [(.WARNING, text "GET-BULK not supported in SNMP v1")]
  else if request.pdu_type = SNMP_PDU_SET_REQUEST then process_set_request_log k security request
  else if request.pdu_type = SNMP_PDU_TRAP then
    if request.version = SNMP_VERSION_1 then process_trap_v1_log k request
    else [(.WARNING, text "SNMP v1 trap received with wrong version")]
  else if request.pdu_type = SNMP_PDU_TRAP_V2 then
    if request.version = SNMP_VERSION_2C then process_trap_v2_log k request
    else [(.WARNING, text "SNMP v2c trap received with wrong version")]
  else [(.WARNING, text "Unsupported PDU type: " ++ numeral request.pdu_type.toNat)]

/-! ## A request -/

/-- What `send_response` logs, with what `sendto` returns. -/
def send_response_log (bytes_sent : Int) (response : SNMPPacket) : List Entry :=
  match serialize response with
  | none => [(.ERROR, text "Failed to serialize response")]
  | some buffer =>
    if bytes_sent < 0 then [(.ERROR, text "Failed to send response")]
    else if bytes_sent ≠ buffer.length then [(.WARNING, text "Partial send of response")]
    else []

/-- What `process_snmp_request` logs up to `send_response`. -/
def process_snmp_request_log (now : Nat) (client_address : List UInt8) (request : SNMPPacket)
    (s : Agent M S) : List Entry :=
  let (in_rate, security) := k.security.check_rate_limit s.security now client_address
  (.DEBUG, text "Processing SNMP request from " ++ client_address) ::
    if !in_rate then [(.WARNING, text "Rate limit exceeded for " ++ client_address)]
    else if !k.security.is_ip_allowed security client_address then
      [(.WARNING, text "Access denied for IP " ++ client_address)]
    else if !k.security.is_access_allowed security request.community client_address then
      [(.WARNING, text "Access denied for community " ++ request.community ++ text " from " ++
        client_address)]
    else dispatch_log k security request

/-! ## The loop -/

/-- A turn of the loop: what `recvfrom` brings, what `running_` is then, and
what `sendto` returns for an answer. -/
structure Turn where
  received : Received
  running : Bool
  bytes_sent : Int
deriving DecidableEq, Repr

/-- What one turn of `SNMPServer::server_loop` hands to the logger. -/
def server_turn_log (s : Agent M S) (t : Turn) : List Entry :=
  match t.received with
  | .error => if t.running then [(.ERROR, text "Failed to receive data")] else []
  | .datagram now client_addr payload =>
    let client_address := inet_ntoa client_addr.sin_addr
    let buffer := into_buffer payload
    if buffer.length = 0 then []
    else
      parse_log (.bits 64) SNMPPacket.new buffer ++
        match parse (.bits 64) SNMPPacket.new buffer with
        | .ok () packet =>
          process_snmp_request_log k now client_address packet s ++
            match (process_snmp_request k now client_address packet s).2 with
            | some response => send_response_log t.bytes_sent response
            | none => []
        | _ => [(.ERROR, text "Failed to parse SNMP packet from " ++ client_address)]

/-- The agent after a turn. -/
def server_step (s : Agent M S) (t : Turn) : Agent M S := (server_turn k s t.received).1

/-- What `SNMPServer::server_loop` hands to the logger, over its turns. -/
def server_log (s : Agent M S) (turns : List Turn) : List Entry :=
  runLog (server_step k) (server_turn_log k) s turns

end simple_snmpd.snmp_server
