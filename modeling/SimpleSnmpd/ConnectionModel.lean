-- The connection of `snmp_connection.cpp`: a descriptor, whether the peer is
-- there, and the time of the last packet. What the system does with the
-- descriptor comes from outside; what is done with it is logged.
import SimpleSnmpd.AgentModel
import SimpleSnmpd.LoggerModel

open routines simple_snmpd.snmp_packet simple_snmpd.snmp_config simple_snmpd.logger write_logs

namespace simple_snmpd.snmp_connection

/-- `SNMPConnection`. The time is that of the steady clock, in nanoseconds. -/
structure SNMPConnection where
  socket_fd : Int
  client_address : List UInt8
  client_port : UInt16
  connected : Bool
  last_activity : Int
deriving DecidableEq, Repr

/-- `SNMPConnection::SNMPConnection`. -/
def SNMPConnection.new (socket_fd : Int) (client_address : List UInt8) (client_port : UInt16)
    (now : Int) : SNMPConnection where
  socket_fd := socket_fd
  client_address := client_address
  client_port := client_port
  connected := true
  last_activity := now

/-- What is done with a descriptor. -/
inductive Use where
  | sent (bytes : List UInt8)
  | received
  | flags_read
  | flags_set (flags : UInt32)
  | receive_timeout_set (seconds : UInt32)
  | send_timeout_set (seconds : UInt32)
  | closed
deriving DecidableEq, Repr

/-- What a call returns, does with descriptors, and logs. -/
structure Outcome where
  result : Bool
  connection : SNMPConnection
  uses : List (Int × Use)
  entries : List Entry
deriving DecidableEq, Repr

/-- `SNMPConnection::send_response`, with what `send` returns. -/
def send_response (bytes_sent : Int) (now : Int) (packet : SNMPPacket) (c : SNMPConnection) :
    Outcome :=
  if !c.connected then { result := false, connection := c, uses := [], entries := [] }
  else
    match serialize packet with
    | none =>
      { result := false, connection := c, uses := []
        entries := [(.ERROR, text "Failed to serialize SNMP packet")] }
    | some buffer =>
      let uses := [(c.socket_fd, Use.sent buffer)]
      if bytes_sent < 0 then
        { result := false, connection := c, uses
          entries := [(.ERROR, text "Failed to send SNMP response")] }
      else
        { result := true, connection := { c with last_activity := now }, uses
          entries :=
            if bytes_sent ≠ buffer.length then [(.WARNING, text "Partial send of SNMP response")]
            else [] }

/-- `SNMPConnection::receive_request`, with what `recv` brings: an error, or
bytes, of which the buffer takes as many as it holds. The packet is filled in. -/
def receive_request (brought : Option (List UInt8)) (now : Int) (packet : SNMPPacket)
    (c : SNMPConnection) : Outcome × SNMPPacket :=
  if !c.connected then ({ result := false, connection := c, uses := [], entries := [] }, packet)
  else
    let uses := [(c.socket_fd, Use.received)]
    match brought with
    | none =>
      ({ result := false, connection := c, uses
         entries := [(.ERROR, text "Failed to receive SNMP request")] }, packet)
    | some bytes =>
      let buffer := snmp_server.into_buffer bytes
      if buffer.length = 0 then
        ({ result := false, connection := { c with connected := false }, uses
           entries := [(.INFO, text "Client disconnected")] }, packet)
      else
        let failed := [(LogLevel.ERROR, text "Failed to parse SNMP packet")]
        match parse (.bits 64) packet buffer with
        | .ok () packet =>
          ({ result := true, connection := { c with last_activity := now }, uses
             entries := [] }, packet)
        | .fail packet => ({ result := false, connection := c, uses, entries := failed }, packet)
        | _ => ({ result := false, connection := c, uses, entries := failed }, packet)

/-- `SNMPConnection::is_timeout`: the seconds that have passed, rounded to
zero. -/
def is_timeout (now : Int) (timeout_seconds : UInt32) (c : SNMPConnection) : Bool :=
  (now - c.last_activity).tdiv 1000000000 ≥ timeout_seconds.toNat

/-- `SNMPConnection::close`, and the destructor, which calls it. -/
def close (c : SNMPConnection) : SNMPConnection × List (Int × Use) :=
  if c.socket_fd ≠ -1 then
    ({ c with socket_fd := -1, connected := false }, [(c.socket_fd, .closed)])
  else ({ c with connected := false }, [])

/-- `O_NONBLOCK`, as Linux has it. -/
def O_NONBLOCK : UInt32 := 0x800

/-- `SNMPConnection::set_non_blocking`, with the flags that `fcntl` gives. -/
def set_non_blocking (flags : Option UInt32) (non_blocking : Bool) (c : SNMPConnection) :
    List (Int × Use) :=
  if c.socket_fd = -1 then []
  else
    (c.socket_fd, .flags_read) :: match flags with
      | none => []
      | some flags =>
        [(c.socket_fd,
          .flags_set (if non_blocking then flags ||| O_NONBLOCK else flags &&& ~~~O_NONBLOCK))]

/-- `SNMPConnection::set_timeout`, with what the two calls of `setsockopt`
return. -/
def set_timeout (receives sends : Int) (timeout_seconds : UInt32) (c : SNMPConnection) :
    Bool × List (Int × Use) :=
  if c.socket_fd = -1 then (false, [])
  else if receives < 0 then (false, [(c.socket_fd, .receive_timeout_set timeout_seconds)])
  else
    (!decide (sends < 0),
      [(c.socket_fd, .receive_timeout_set timeout_seconds),
        (c.socket_fd, .send_timeout_set timeout_seconds)])

/-! ## Calls -/

/-- A call on a connection, with what the system brings to it. -/
inductive Call where
  | sends (bytes_sent : Int) (now : Int) (packet : SNMPPacket)
  | receives (brought : Option (List UInt8)) (now : Int) (packet : SNMPPacket)
  | closes
  | sets_non_blocking (flags : Option UInt32) (non_blocking : Bool)
  | sets_timeout (receives sends : Int) (timeout_seconds : UInt32)
deriving DecidableEq, Repr

def called (c : SNMPConnection) : Call → SNMPConnection × List (Int × Use)
  | .sends bytes_sent now packet =>
    let done := send_response bytes_sent now packet c
    (done.connection, done.uses)
  | .receives brought now packet =>
    let done := (receive_request brought now packet c).1
    (done.connection, done.uses)
  | .closes => close c
  | .sets_non_blocking flags non_blocking => (c, set_non_blocking flags non_blocking c)
  | .sets_timeout receives sends timeout_seconds =>
    (c, (set_timeout receives sends timeout_seconds c).2)

def after (c : SNMPConnection) (calls : List Call) : SNMPConnection :=
  calls.foldl (fun c call => (called c call).1) c

/-- What a run does with descriptors. -/
def uses_of (c : SNMPConnection) (calls : List Call) : List (Int × Use) :=
  runLog (fun c call => (called c call).1) (fun c call => (called c call).2) c calls

/-- What a connection does with descriptors up to its destructor. -/
def life (c : SNMPConnection) (calls : List Call) : List (Int × Use) :=
  uses_of c calls ++ (close (after c calls)).2

end simple_snmpd.snmp_connection
