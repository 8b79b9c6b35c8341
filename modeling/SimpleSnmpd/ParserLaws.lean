-- The laws of the parser with a `size_t` of 64 bits: it never leaves the
-- datagram, it takes every message, and it takes more than messages only
-- where a level of the datagram has room left over.
import SimpleSnmpd.MessageSpecs

open routines ber

namespace simple_snmpd.snmp_packet

variable {data : List UInt8}

/-! ## No length wraps in 64 bits -/

/-- A field stands only in a datagram that its first header measured. -/
theorem Stands.data_lt {site : Site} {o e : Nat} (h : Stands data site o e) :
    data.length < 2 ^ 33 := by
  induction h with
  | version hx _ hn => rw [← hn]; exact header_sum_lt hx
  | community _ _ _ ih => exact ih
  | pdu _ _ _ ih => exact ih
  | first_integer _ _ _ _ ih => exact ih
  | next_integer _ _ _ ih => exact ih
  | first_binding _ _ _ _ ih => exact ih
  | oid _ _ _ _ ih => exact ih
  | value _ _ _ ih => exact ih
  | next_binding _ _ _ ih => exact ih

theorem no_wraps_64 (data : List UInt8) : ¬ Wraps (.bits 64) data := by
  rintro ⟨site, -, o, e, t, n, x, hs, -, hx, hr, hw⟩
  have h1 := hs.data_lt
  have h2 := declared_end_lt hx hr
  exact hw (Nat.mod_eq_of_lt (by omega))

/-- What `parse` does in 64 bits. -/
theorem parse_64_cases (this : SNMPPacket) (data : List UInt8) :
    (∃ l, HasLayout 4 l data ∧ parse (.bits 64) this data = .ok () l.packet) ∨
      ((¬ ∃ l, HasLayout 4 l data) ∧ ∃ p, parse (.bits 64) this data = .fail p) :=
  parse_cases (suits_64 data) (no_wraps_64 data) this

/-! ## The laws -/

/-- `parse` never asks for a byte outside the datagram, and its loops end,
for every datagram and every packet object that it fills in. -/
theorem parse_never_reads_outside_the_datagram (this : SNMPPacket) (data : List UInt8) :
    parse (.bits 64) this data ≠ .outside ∧ parse (.bits 64) this data ≠ .running := by
  rcases parse_64_cases this data with ⟨l, -, h⟩ | ⟨-, p, h⟩
  · rw [h]; exact ⟨nofun, nofun⟩
  · rw [h]; exact ⟨nofun, nofun⟩

/-- Every message is taken, with any definite length of up to four octets
at each level, and the packet holds what the message says. -/
theorem every_message_is_parsed (this : SNMPPacket) (f : Fields) (bs : List VariableBinding)
    (h : IsMessage 4 f bs data) : parse (.bits 64) this data = .ok () (f.packet bs) := by
  have hok := parse_ok (suits_64 data) this (hasLayout_of_message h)
  rwa [tightLayout_packet] at hok

/-- A GetRequest with long forms that are not minimal, for the PDU and for
the binding list. -/
theorem a_message_with_long_forms_is_parsed :
    parse (.bits 64) SNMPPacket.new [0x30, 0x1d, 0x02, 0x01, 0x01, 0x04, 0x01, 0x70,
      0xA0, 0x82, 0x00, 0x13, 0x02, 0x01, 0x05, 0x02, 0x01, 0x00, 0x02, 0x01, 0x00,
      0x30, 0x81, 0x07, 0x30, 0x05, 0x06, 0x01, 0x2b, 0x05, 0x00] = .ok ()
      { SNMPPacket.new with
        community := [0x70], request_id := 5, variable_bindings := [⟨[0x2b], 0x05, []⟩] } :=
  every_message_is_parsed SNMPPacket.new ⟨0x01, [0x70], 0xA0, [0x05], [0x00], [0x00]⟩
    [⟨[0x2b], 0x05, []⟩] (decodeMessage_iff.mp (by decide))

/-- What is taken is a message exactly when every level of the datagram
holds what it declares: no INTEGER is empty, no binding declares more than
its pair, and no byte follows the binding list. -/
theorem what_is_parsed_is_a_message_iff_no_room_is_left (this : SNMPPacket) (data : List UInt8) :
    ((∃ p, parse (.bits 64) this data = .ok () p) → ∃ f bs, IsMessage 4 f bs data) ↔
      ∀ l, HasLayout 4 l data → l.Tight := by
  constructor
  · intro h l hl
    obtain ⟨f, bs, hm⟩ := h ⟨l.packet, parse_ok (suits_64 data) this hl⟩
    exact layout_tight_of_message hm hl
  · rintro h ⟨p, hp⟩
    rcases parse_64_cases this data with ⟨l, hl, -⟩ | ⟨-, q, hq⟩
    · exact ⟨l.fields, l.bindings, message_of_tight hl (h l hl)⟩
    · rw [hp] at hq
      cases hq

/-- The first binding declares the bytes of the second one as its own. Both
are taken. -/
theorem a_binding_inside_a_binding_is_parsed :
    ¬ ∀ (this : SNMPPacket) (data : List UInt8),
      (∃ p, parse (.bits 64) this data = .ok () p) → ∃ f bs, IsMessage 4 f bs data := by
  intro h
  obtain ⟨f, bs, hm⟩ := h SNMPPacket.new [0x30, 0x21, 0x02, 0x01, 0x01, 0x04, 0x01, 0x70,
    0xA0, 0x19, 0x02, 0x01, 0x05, 0x02, 0x01, 0x00, 0x02, 0x01, 0x00,
    0x30, 0x0e, 0x30, 0x0c, 0x06, 0x01, 0x2b, 0x05, 0x00, 0x30, 0x05, 0x06, 0x01, 0x2c, 0x05, 0x00]
    ⟨{ SNMPPacket.new with
        community := [0x70], request_id := 5,
        variable_bindings := [⟨[0x2b], 0x05, []⟩, ⟨[0x2c], 0x05, []⟩] }, by decide⟩
  have hnone := decodeMessage_iff.mpr hm
  have : decodeMessage 4 [0x30, 0x21, 0x02, 0x01, 0x01, 0x04, 0x01, 0x70,
    0xA0, 0x19, 0x02, 0x01, 0x05, 0x02, 0x01, 0x00, 0x02, 0x01, 0x00,
    0x30, 0x0e, 0x30, 0x0c, 0x06, 0x01, 0x2b, 0x05, 0x00, 0x30, 0x05, 0x06, 0x01, 0x2c, 0x05,
    0x00] = none := by decide
  rw [this] at hnone
  cases hnone

end simple_snmpd.snmp_packet
