-- A packet object that is parsed into again. Two runs of the parser on one
-- datagram go in lockstep, whatever packets they start from, and where they
-- return true each field has been written.
import SimpleSnmpd.PacketParser

open routines routines.Routine

namespace simple_snmpd.snmp_packet

/-- The runs stand at the same offset, and `P` relates their packets. -/
def SameOffset (P : SNMPPacket → SNMPPacket → Prop) (s s' : Cursor) : Prop :=
  s.offset = s'.offset ∧ P s.packet s'.packet

variable {z : SizeT} {data : List UInt8} {P Q : SNMPPacket → SNMPPacket → Prop}

/-- A routine that reads the offset alone goes on in one way. -/
theorem lockstep_offset {α : Type} {f : Cursor → Routine Cursor α}
    {R : Cursor → Cursor → Prop} (h : ∀ o p q, f ⟨o, p⟩ = f ⟨o, q⟩)
    (hf : ∀ s, Lockstep (SameOffset P) R (f s)) : Lockstep (SameOffset P) R (get >>= f) := by
  refine lockstep_get ?_ hf
  rintro ⟨o, p⟩ ⟨o', q⟩ ⟨ho, -⟩
  cases ho
  exact h o p q

/-! ## Routines that leave the packet alone -/

theorem lockstep_byte_at (o : Nat) :
    Lockstep (SameOffset P) (SameOffset P) (byte_at data o) := by
  intro s s' h
  unfold byte_at
  cases data[o]? with
  | some b => exact .ok b h
  | none => exact .outside

theorem lockstep_bytes_at (o n : Nat) :
    Lockstep (SameOffset P) (SameOffset P) (bytes_at data o n) := by
  intro s s' h
  unfold bytes_at
  split
  · exact .ok _ h
  · exact .outside

theorem lockstep_advance (n : Nat) : Lockstep (SameOffset P) (SameOffset P) (advance z n) := by
  refine lockstep_modify fun s s' h => ⟨?_, h.2⟩
  simp only [h.1]

theorem lockstep_next_byte : Lockstep (SameOffset P) (SameOffset P) (next_byte z data) := by
  refine lockstep_offset (fun _ _ _ => rfl) fun s => ?_
  refine lockstep_bind (lockstep_byte_at s.offset) fun b => ?_
  exact lockstep_bind (lockstep_advance 1) fun _ => lockstep_pure b

theorem lockstep_expect (bound : Nat) (tag : UInt8) :
    Lockstep (SameOffset P) (SameOffset P) (expect z data bound tag) := by
  refine lockstep_offset (fun _ _ _ => rfl) fun s => ?_
  refine lockstep_bind (lockstep_rejectIf _) fun _ => ?_
  refine lockstep_bind (lockstep_byte_at s.offset) fun b => ?_
  exact lockstep_bind (lockstep_rejectIf _) fun _ => lockstep_advance 1

theorem lockstep_length_octets (length n len : Nat) :
    Lockstep (SameOffset P) (SameOffset P) (length_octets z data length n len) := by
  induction n generalizing len with
  | zero => exact lockstep_pure len
  | succ n ih =>
    refine lockstep_offset (fun _ _ _ => rfl) fun s => ?_
    refine lockstep_bind (lockstep_rejectIf _) fun _ => ?_
    exact lockstep_bind lockstep_next_byte fun b => ih _

theorem lockstep_parse_length (length : Nat) :
    Lockstep (SameOffset P) (SameOffset P) (parse_length z data length) := by
  refine lockstep_offset (fun _ _ _ => rfl) fun s => ?_
  refine lockstep_bind (lockstep_rejectIf _) fun _ => ?_
  refine lockstep_bind lockstep_next_byte fun first_byte => ?_
  split
  · exact lockstep_pure _
  · exact lockstep_bind (lockstep_rejectIf _) fun _ => lockstep_length_octets _ _ _

theorem lockstep_parse_length_within (bound : Nat) :
    Lockstep (SameOffset P) (SameOffset P) (parse_length_within z data bound) := by
  refine lockstep_bind (lockstep_parse_length bound) fun len => ?_
  refine lockstep_offset (fun _ _ _ => rfl) fun s => ?_
  exact lockstep_bind (lockstep_rejectIf _) fun _ => lockstep_pure len

theorem lockstep_parse_variable_binding (length : Nat) :
    Lockstep (SameOffset P) (SameOffset P) (parse_variable_binding z data length) := by
  refine lockstep_offset (fun _ _ _ => rfl) fun s => ?_
  refine lockstep_bind (lockstep_expect _ 0x06) fun _ => ?_
  refine lockstep_bind (lockstep_parse_length_within _) fun oid_length => ?_
  refine lockstep_offset (fun _ _ _ => rfl) fun s => ?_
  refine lockstep_bind (lockstep_bytes_at _ _) fun oid => ?_
  refine lockstep_bind (lockstep_advance _) fun _ => ?_
  refine lockstep_offset (fun _ _ _ => rfl) fun s => ?_
  refine lockstep_bind (lockstep_rejectIf _) fun _ => ?_
  refine lockstep_bind lockstep_next_byte fun value_type => ?_
  refine lockstep_bind (lockstep_parse_length_within _) fun value_length => ?_
  refine lockstep_offset (fun _ _ _ => rfl) fun s => ?_
  refine lockstep_bind (lockstep_bytes_at _ _) fun value => ?_
  exact lockstep_bind (lockstep_advance _) fun _ => lockstep_pure _

theorem lockstep_parse_header : Lockstep (SameOffset P) (SameOffset P) (parse_header z data) := by
  refine lockstep_bind (lockstep_rejectIf _) fun _ => ?_
  refine lockstep_bind (lockstep_expect _ 0x30) fun _ => ?_
  refine lockstep_bind (lockstep_parse_length _) fun packet_length => ?_
  exact lockstep_offset (fun _ _ _ => rfl) fun s => lockstep_rejectIf _

/-! ## Fields that are written -/

theorem lockstep_assign {f : SNMPPacket → SNMPPacket} (h : ∀ p q, P p q → Q (f p) (f q)) :
    Lockstep (SameOffset P) (SameOffset Q) (assign f) :=
  lockstep_modify fun _ _ hs => ⟨hs.1, h _ _ hs.2⟩

/-- An INTEGER is cleared before its octets are shifted in. -/
theorem lockstep_parse_integer {bound : Nat} {clear : SNMPPacket → SNMPPacket}
    {shift : UInt8 → SNMPPacket → SNMPPacket} (hclear : ∀ p q, P p q → Q (clear p) (clear q))
    (hshift : ∀ b p q, Q p q → Q (shift b p) (shift b q)) :
    Lockstep (SameOffset P) (SameOffset Q) (parse_integer z data bound clear shift) := by
  refine lockstep_bind (lockstep_expect _ 0x02) fun _ => ?_
  refine lockstep_bind (lockstep_parse_length_within _) fun integer_length => ?_
  refine lockstep_bind (lockstep_assign hclear) fun _ => ?_
  refine lockstep_times ?_ integer_length
  exact lockstep_bind lockstep_next_byte fun b => lockstep_assign (hshift b)

/-- The packets have the same fields, from the version up to a field. -/
def SameVersion (p q : SNMPPacket) : Prop := p.version = q.version

def SameCommunity (p q : SNMPPacket) : Prop := SameVersion p q ∧ p.community = q.community

def SameType (p q : SNMPPacket) : Prop := SameCommunity p q ∧ p.pdu_type = q.pdu_type

def SameId (p q : SNMPPacket) : Prop := SameType p q ∧ p.request_id = q.request_id

def SameStatus (p q : SNMPPacket) : Prop := SameId p q ∧ p.error_status = q.error_status

def SameIndex (p q : SNMPPacket) : Prop := SameStatus p q ∧ p.error_index = q.error_index

def SameBindings (p q : SNMPPacket) : Prop :=
  SameIndex p q ∧ p.variable_bindings = q.variable_bindings

/-- These are all the fields of a packet. -/
theorem SameBindings.eq {p q : SNMPPacket} (h : SameBindings p q) : p = q := by
  obtain ⟨⟨⟨⟨⟨⟨h1, h2⟩, h3⟩, h4⟩, h5⟩, h6⟩, h7⟩ := h
  cases p
  cases q
  simp only [SNMPPacket.mk.injEq]
  exact ⟨h1, h3, h2, h4, h5, h6, h7⟩

theorem lockstep_parse_version :
    Lockstep (SameOffset P) (SameOffset SameVersion) (parse_version z data) := by
  refine lockstep_bind (lockstep_expect _ 0x02) fun _ => ?_
  refine lockstep_bind (lockstep_parse_length_within _) fun version_length => ?_
  refine lockstep_bind (lockstep_rejectIf _) fun _ => ?_
  refine lockstep_offset (fun _ _ _ => rfl) fun s => ?_
  refine lockstep_bind (lockstep_byte_at _) fun version => ?_
  refine lockstep_bind (lockstep_assign ?_) fun _ => lockstep_advance version_length
  intro p q _
  rfl

theorem lockstep_parse_community :
    Lockstep (SameOffset SameVersion) (SameOffset SameCommunity) (parse_community z data) := by
  refine lockstep_bind (lockstep_expect _ 0x04) fun _ => ?_
  refine lockstep_bind (lockstep_parse_length_within _) fun community_length => ?_
  refine lockstep_offset (fun _ _ _ => rfl) fun s => ?_
  refine lockstep_bind (lockstep_bytes_at _ _) fun community => ?_
  refine lockstep_bind (lockstep_assign ?_) fun _ => lockstep_advance community_length
  intro p q h
  exact ⟨h, rfl⟩

theorem lockstep_parse_next_binding (bound : Nat) :
    Lockstep (SameOffset SameBindings) (SameOffset SameBindings)
      (parse_next_binding z data bound) := by
  refine lockstep_bind (lockstep_expect _ 0x30) fun _ => ?_
  refine lockstep_bind (lockstep_parse_length_within _) fun varbind_length => ?_
  refine lockstep_bind (lockstep_parse_variable_binding _) fun varbind => ?_
  refine lockstep_assign fun p q h => ⟨h.1, ?_⟩
  simp only [h.2]

/-- The binding list is cleared before its loop, so an empty list is written
too. -/
theorem lockstep_parse_variable_bindings (length : Nat) :
    Lockstep (SameOffset SameIndex) (SameOffset SameBindings)
      (parse_variable_bindings z data length) := by
  refine lockstep_offset (fun _ _ _ => rfl) fun s => ?_
  refine lockstep_bind (lockstep_assign (Q := SameBindings) fun p q h => ⟨h, rfl⟩) fun _ => ?_
  exact lockstep_loop (fun s s' h => by simp only [h.1]) (lockstep_parse_next_binding _) _

theorem lockstep_parse_pdu_fields (length : Nat) :
    Lockstep (SameOffset SameType) (SameOffset SameBindings)
      (parse_pdu_fields z data length) := by
  refine lockstep_offset (fun _ _ _ => rfl) fun s => ?_
  have hid : Lockstep (SameOffset SameType) (SameOffset SameId)
      (parse_integer z data (z.wrap (s.offset + length)) (fun p => { p with request_id := 0 })
        shift_request_id) :=
    lockstep_parse_integer (fun p q h => ⟨h, rfl⟩)
      fun b p q h => ⟨h.1, by simp only [shift_request_id, h.2]⟩
  have hstatus : Lockstep (SameOffset SameId) (SameOffset SameStatus)
      (parse_integer z data (z.wrap (s.offset + length)) (fun p => { p with error_status := 0 })
        shift_error_status) :=
    lockstep_parse_integer (fun p q h => ⟨h, rfl⟩)
      fun b p q h => ⟨h.1, by simp only [shift_error_status, h.2]⟩
  have hindex : Lockstep (SameOffset SameStatus) (SameOffset SameIndex)
      (parse_integer z data (z.wrap (s.offset + length)) (fun p => { p with error_index := 0 })
        shift_error_index) :=
    lockstep_parse_integer (fun p q h => ⟨h, rfl⟩)
      fun b p q h => ⟨h.1, by simp only [shift_error_index, h.2]⟩
  refine lockstep_bind hid fun _ => ?_
  refine lockstep_bind hstatus fun _ => ?_
  refine lockstep_bind hindex fun _ => ?_
  refine lockstep_bind (lockstep_expect _ 0x30) fun _ => ?_
  refine lockstep_bind (lockstep_parse_length_within _) fun varbinds_length => ?_
  exact lockstep_parse_variable_bindings varbinds_length

theorem lockstep_parse_pdu :
    Lockstep (SameOffset SameCommunity) (SameOffset SameBindings) (parse_pdu z data) := by
  refine lockstep_offset (fun _ _ _ => rfl) fun s => ?_
  refine lockstep_bind (lockstep_rejectIf _) fun _ => ?_
  refine lockstep_bind (lockstep_byte_at _) fun pdu_type => ?_
  refine lockstep_bind (lockstep_assign (Q := SameType) fun p q h => ⟨h, rfl⟩) fun _ => ?_
  refine lockstep_bind (lockstep_advance 1) fun _ => ?_
  refine lockstep_bind (lockstep_parse_length_within _) fun pdu_length => ?_
  exact lockstep_parse_pdu_fields pdu_length

/-- Whatever the packets hold before, the message writes all of them. -/
theorem lockstep_parse_message :
    Lockstep (SameOffset fun _ _ => True) (SameOffset SameBindings) (parse_message z data) := by
  refine lockstep_bind lockstep_parse_header fun _ => ?_
  refine lockstep_bind lockstep_parse_version fun _ => ?_
  exact lockstep_bind lockstep_parse_community fun _ => lockstep_parse_pdu

/-! ## The law -/

/-- A packet object can be used again: `parse` ends in the same way on any
two objects, and leaves the same packet where it returns true. -/
theorem a_packet_object_can_be_reused (z : SizeT) (p q : SNMPPacket) (data : List UInt8) :
    Exit.Alike (· = ·) (parse z p data) (parse z q data) := by
  have hend := @lockstep_parse_message z data ⟨0, p⟩ ⟨0, q⟩ ⟨rfl, trivial⟩
  unfold parse
  cases hx : parse_message z data ⟨0, p⟩ <;> cases hy : parse_message z data ⟨0, q⟩ <;>
    rw [hx, hy] at hend <;> cases hend
  case ok.ok s s' h => exact .ok () h.2.eq
  case fail.fail => exact .fail _ _
  case outside.outside => exact .outside
  case running.running => exact .running

end simple_snmpd.snmp_packet
