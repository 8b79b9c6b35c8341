-- The parser of `snmp_packet.cpp`, routine by routine. Each routine reads
-- the datagram at an offset that it shares with its caller, up to a bound
-- that the caller computed. The `size_t` of the build is a parameter.
import SimpleSnmpd.Routines
import SimpleSnmpd.PacketModel
import Mathlib.Algebra.Group.Nat.Defs

open routines routines.Routine

namespace simple_snmpd.snmp_packet

/-- How the build computes in `size_t`: modulo a power of two, or in exact
integers. -/
inductive SizeT where
  | bits (w : Nat)
  | exact
deriving DecidableEq, Repr

/-- The value that a sum or a shift has as a `size_t`. -/
def SizeT.wrap : SizeT → Nat → Nat
  | .bits w, n => n % 2 ^ w
  | .exact, n => n

/-- What the routines share: the offset, and the packet they fill in. -/
structure Cursor where
  offset : Nat
  packet : SNMPPacket
deriving DecidableEq, Repr

variable (z : SizeT) (data : List UInt8)

/-! ## Reads -/

/-- `data[offset]` -/
def byte_at (offset : Nat) : Routine Cursor UInt8 := fun s =>
  match data[offset]? with
  | some b => .ok b s
  | none => .outside

/-- A copy of the range of `n` bytes at `offset`. -/
def bytes_at (offset n : Nat) : Routine Cursor (List UInt8) := fun s =>
  if offset + n ≤ data.length then .ok ((data.drop offset).take n) s else .outside

/-- `offset += n` -/
def advance (n : Nat) : Routine Cursor Unit :=
  modify fun s => { s with offset := z.wrap (s.offset + n) }

/-- `data[offset++]` -/
def next_byte : Routine Cursor UInt8 := do
  let s ← get
  let b ← byte_at data s.offset
  advance z 1
  return b

/-- `if (offset >= bound || data[offset] != tag) return false; offset++;` -/
def expect (bound : Nat) (tag : UInt8) : Routine Cursor Unit := do
  let s ← get
  rejectIf (s.offset ≥ bound)
  let b ← byte_at data s.offset
  rejectIf (b ≠ tag)
  advance z 1

/-- An assignment to a field of the packet. -/
def assign (f : SNMPPacket → SNMPPacket) : Routine Cursor Unit :=
  modify fun s => { s with packet := f s.packet }

/-! ## Lengths -/

/-- The loop of `parse_length` over the octets of a long form. -/
def length_octets (length : Nat) : Nat → Nat → Routine Cursor Nat
  | 0, len => return len
  | n + 1, len => do
    let s ← get
    rejectIf (s.offset ≥ length)
    let b ← next_byte z data
    length_octets length n (z.wrap (len <<< 8) ||| b.toNat)

/-- `SNMPPacket::parse_length`. The length is the result. -/
def parse_length (length : Nat) : Routine Cursor Nat := do
  let s ← get
  rejectIf (s.offset ≥ length)
  let first_byte ← next_byte z data
  if first_byte &&& 0x80 = 0 then
    return first_byte.toNat
  else
    let length_bytes := (first_byte &&& 0x7F).toNat
    rejectIf (length_bytes = 0 ∨ length_bytes > 4)
    length_octets z data length length_bytes 0

/-- `if (!parse_length(data, bound, offset, len)) return false;` and then
`if (offset + len > bound) return false;` -/
def parse_length_within (bound : Nat) : Routine Cursor Nat := do
  let len ← parse_length z data bound
  let s ← get
  rejectIf (z.wrap (s.offset + len) > bound)
  return len

/-! ## The binding list -/

/-- `SNMPPacket::parse_variable_binding`. The binding is the result. -/
def parse_variable_binding (length : Nat) : Routine Cursor VariableBinding := do
  let s ← get
  let bound := z.wrap (s.offset + length)
  expect z data bound 0x06
  let oid_length ← parse_length_within z data bound
  let s ← get
  let oid ← bytes_at data s.offset oid_length
  advance z oid_length
  let s ← get
  rejectIf (s.offset ≥ bound)
  let value_type ← next_byte z data
  let value_length ← parse_length_within z data bound
  let s ← get
  let value ← bytes_at data s.offset value_length
  advance z value_length
  return { oid, value_type, value }

/-- One turn of the loop of `parse_variable_bindings`. -/
def parse_next_binding (bound : Nat) : Routine Cursor Unit := do
  expect z data bound 0x30
  let varbind_length ← parse_length_within z data bound
  let varbind ← parse_variable_binding z data varbind_length
  assign fun p => { p with variable_bindings := p.variable_bindings ++ [varbind] }

/-- `SNMPPacket::parse_variable_bindings`. A turn reads a byte of the data
that no turn before it read, so the data bounds the turns. -/
def parse_variable_bindings (length : Nat) : Routine Cursor Unit := do
  let s ← get
  let bound := z.wrap (s.offset + length)
  assign fun p => { p with variable_bindings := [] }
  loop (fun s => s.offset < bound) (parse_next_binding z data bound) data.length

/-! ## The PDU and the message -/

/-- `request_id_ = (request_id_ << 8) | b` -/
def shift_request_id (b : UInt8) (p : SNMPPacket) : SNMPPacket :=
  { p with request_id := (p.request_id <<< 8) ||| b.toUInt32 }

/-- `error_status_ = (error_status_ << 8) | b`: the shift is in `int`, and
the field keeps eight bits of it. -/
def shift_error_status (b : UInt8) (p : SNMPPacket) : SNMPPacket :=
  { p with error_status := octet ((p.error_status.toNat <<< 8) ||| b.toNat) }

/-- `error_index_ = (error_index_ << 8) | b` -/
def shift_error_index (b : UInt8) (p : SNMPPacket) : SNMPPacket :=
  { p with error_index := octet ((p.error_index.toNat <<< 8) ||| b.toNat) }

/-- One INTEGER of the PDU: the field is cleared, and each octet is shifted
into it. -/
def parse_integer (bound : Nat) (clear : SNMPPacket → SNMPPacket)
    (shift : UInt8 → SNMPPacket → SNMPPacket) : Routine Cursor Unit := do
  expect z data bound 0x02
  let integer_length ← parse_length_within z data bound
  assign clear
  times integer_length do
    let b ← next_byte z data
    assign (shift b)

/-- `SNMPPacket::parse_pdu_fields`. -/
def parse_pdu_fields (length : Nat) : Routine Cursor Unit := do
  let s ← get
  let bound := z.wrap (s.offset + length)
  parse_integer z data bound (fun p => { p with request_id := 0 }) shift_request_id
  parse_integer z data bound (fun p => { p with error_status := 0 }) shift_error_status
  parse_integer z data bound (fun p => { p with error_index := 0 }) shift_error_index
  expect z data bound 0x30
  let varbinds_length ← parse_length_within z data bound
  parse_variable_bindings z data varbinds_length

/-- The sequence header of `SNMPPacket::parse`, with the exact length. -/
def parse_header : Routine Cursor Unit := do
  rejectIf (data.length = 0)
  expect z data data.length 0x30
  let packet_length ← parse_length z data data.length
  let s ← get
  rejectIf (packet_length ≠ data.length - s.offset)

/-- The version of `SNMPPacket::parse`. -/
def parse_version : Routine Cursor Unit := do
  expect z data data.length 0x02
  let version_length ← parse_length_within z data data.length
  rejectIf (version_length ≠ 1)
  let s ← get
  let version ← byte_at data s.offset
  assign fun p => { p with version }
  advance z version_length

/-- The community of `SNMPPacket::parse`. -/
def parse_community : Routine Cursor Unit := do
  expect z data data.length 0x04
  let community_length ← parse_length_within z data data.length
  let s ← get
  let community ← bytes_at data s.offset community_length
  assign fun p => { p with community }
  advance z community_length

/-- The PDU of `SNMPPacket::parse`. -/
def parse_pdu : Routine Cursor Unit := do
  let s ← get
  rejectIf (s.offset ≥ data.length)
  let pdu_type ← byte_at data s.offset
  assign fun p => { p with pdu_type }
  advance z 1
  let pdu_length ← parse_length_within z data data.length
  parse_pdu_fields z data pdu_length

/-- The body of `SNMPPacket::parse`. -/
def parse_message : Routine Cursor Unit := do
  parse_header z data
  parse_version z data
  parse_community z data
  parse_pdu z data

/-- `SNMPPacket::parse` on a packet object, for a datagram that is not null. -/
def parse (this : SNMPPacket) (data : List UInt8) : Exit SNMPPacket Unit :=
  match parse_message z data { offset := 0, packet := this } with
  | .ok () s => .ok () s.packet
  | .fail s => .fail s.packet
  | .outside => .outside
  | .running => .running

end simple_snmpd.snmp_packet
