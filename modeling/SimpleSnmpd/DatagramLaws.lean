-- Laws of whole datagrams. What is taken is never the start of another
-- datagram that is taken, so a cut or a padded one is rejected. A trap of the
-- first version has fields of its own, and is never taken.
import SimpleSnmpd.AgentSpecs

open simple_snmpd.snmp_packet ber

namespace simple_snmpd.snmp_packet

/-! ## Cut and padded datagrams -/

/-- A layout fixes where its datagram ends. -/
theorem HasLayout.end_unique {l l' : Layout} {d d' : List UInt8} (h : HasLayout 4 l d)
    (h' : HasLayout 4 l' d') (hd : d' <+: d ∨ d <+: d') : d' = d := by
  obtain ⟨-, _, _, _, -, -, -, hel⟩ := h
  obtain ⟨-, _, _, _, -, -, -, hel'⟩ := h'
  obtain ⟨rest, hrest⟩ | ⟨rest, hrest⟩ := hd <;>
    exact (hel'.unique hel (by rw [hrest, List.append_nil])).2.2.1

/-- No start and no extension of a datagram that is taken has a layout. -/
theorem no_layout_beside {this packet : SNMPPacket} {d d' : List UInt8}
    (h : parse (.bits 64) this d = .ok () packet) (hne : d' ≠ d) (hd : d' <+: d ∨ d <+: d') :
    ¬ ∃ l, HasLayout 4 l d' := by
  rintro ⟨l', hl'⟩
  rcases parse_64_cases this d with ⟨l, hl, -⟩ | ⟨-, p, hfail⟩
  · exact hne (hl.end_unique hl' hd)
  · rw [hfail] at h
    cases h

end simple_snmpd.snmp_packet

namespace simple_snmpd.snmp_server

variable {M S : Type} {k : Managers M S} {now : Nat} {s : Agent M S} {client_addr : SockaddrIn}

/-- A datagram that would be taken whole, and is cut by the buffer, does
nothing. -/
theorem server_turn_cut {this packet : SNMPPacket} {payload : List UInt8}
    (h : parse (.bits 64) this payload = .ok () packet) (hlong : 4096 < payload.length) :
    server_turn k s (.datagram now client_addr payload) = (s, none) := by
  have hlen : (into_buffer payload).length = 4096 := by
    rw [into_buffer, List.length_take]
    omega
  have hne : into_buffer payload ≠ payload := by
    intro heq
    rw [heq] at hlen
    omega
  apply server_turn_rejected
  rintro ⟨cut, hcut⟩
  obtain ⟨l, hl, -⟩ := takes_iff.mp hcut
  exact no_layout_beside h hne (Or.inl (List.take_prefix _ _)) ⟨l, hl⟩

/-- No strict start and no strict extension of a datagram that is taken is
taken, with any packet object. So one that is longer than the buffer does
nothing when it arrives cut. -/
theorem a_cut_or_padded_datagram_is_rejected (this packet : SNMPPacket) (d : List UInt8)
    (h : parse (.bits 64) this d = .ok () packet) :
    (∀ (that : SNMPPacket) (d' : List UInt8), d' ≠ d → d' <+: d ∨ d <+: d' →
      ∃ p, parse (.bits 64) that d' = .fail p) ∧
    (4096 < d.length → ∀ (M S : Type) (k : Managers M S) (s : Agent M S) (now : Nat)
      (client_addr : SockaddrIn),
      server_turn k s (.datagram now client_addr d) = (s, none)) := by
  constructor
  · intro that d' hne hd
    rcases parse_64_cases that d' with ⟨l, hl, -⟩ | ⟨-, hfail⟩
    · exact absurd ⟨l, hl⟩ (no_layout_beside h hne hd)
    · exact hfail
  · intro hlong M S k s now client_addr
    exact server_turn_cut h hlong

/-- A request without bindings, with its last byte cut off. -/
theorem a_request_without_its_last_byte_is_rejected :
    ∃ p, parse (.bits 64) SNMPPacket.new [0x30, 0x13, 0x02, 0x01, 0x01, 0x04, 0x01, 0x70, 0xA0,
      0x0B, 0x02, 0x01, 0x05, 0x02, 0x01, 0x00, 0x02, 0x01, 0x00, 0x30] = .fail p :=
  (a_cut_or_padded_datagram_is_rejected SNMPPacket.new
    { SNMPPacket.new with community := [0x70], request_id := 5 }
    [0x30, 0x13, 0x02, 0x01, 0x01, 0x04, 0x01, 0x70, 0xA0, 0x0B, 0x02, 0x01, 0x05, 0x02, 0x01,
      0x00, 0x02, 0x01, 0x00, 0x30, 0x00] (by decide)).1 SNMPPacket.new _ (by decide)
    (Or.inl ⟨[0x00], rfl⟩)

end simple_snmpd.snmp_server

namespace simple_snmpd.snmp_packet

/-! ## Traps of the first version -/

/-- The contents of the fields of an SNMPv1 trap, as they stand on the wire. -/
structure TrapFields where
  community : List UInt8
  enterprise : List UInt8
  agent_addr : List UInt8
  generic_trap : List UInt8
  specific_trap : List UInt8
  time_stamp : List UInt8
deriving DecidableEq, Repr

/-- The address has four octets, and no other field of the PDU is empty. -/
structure TrapFields.WellFormed (f : TrapFields) : Prop where
  enterprise : f.enterprise ≠ []
  agent_addr : f.agent_addr.length = 4
  generic_trap : f.generic_trap ≠ []
  specific_trap : f.specific_trap ≠ []
  time_stamp : f.time_stamp ≠ []

/-- The content of the PDU of a trap: enterprise, agent address, generic and
specific trap, time stamp, and the list of bindings. -/
def IsTrapContent (most : Nat) (f : TrapFields) (bs : List VariableBinding)
    (bytes : List UInt8) : Prop :=
  ∃ e a g s t vb l, IsElement most 0x06 f.enterprise e ∧ IsElement most 0x40 f.agent_addr a ∧
    IsElement most 0x02 f.generic_trap g ∧ IsElement most 0x02 f.specific_trap s ∧
    IsElement most 0x43 f.time_stamp t ∧ Each (IsBinding most) bs vb ∧
    IsElement most 0x30 vb l ∧ bytes = e ++ (a ++ (g ++ (s ++ (t ++ l))))

/-- A trap message of version 0, with the exact length at each level. -/
def IsTrap (most : Nat) (f : TrapFields) (bs : List VariableBinding) (d : List UInt8) : Prop :=
  f.WellFormed ∧ ∃ v c pc p, IsElement most 0x02 [SNMP_VERSION_1] v ∧
    IsElement most 0x04 f.community c ∧ IsTrapContent most f bs pc ∧
    IsElement most SNMP_PDU_TRAP pc p ∧ IsElement most 0x30 (v ++ c ++ p) d

/-- The content of the PDU of a layout starts with the request id, and that
of a trap with the enterprise. -/
theorem IsTrap.no_layout {most : Nat} {f : TrapFields} {bs : List VariableBinding}
    {d : List UInt8} (h : IsTrap most f bs d) : ¬ ∃ l, HasLayout 4 l d := by
  rintro ⟨l, -, o, pc', x, ⟨v', c', hv', hc', rfl⟩, ⟨_, _, _, ⟨i, j, n, hi, -, -, rfl⟩, -, -, rfl⟩,
    hx, hd'⟩
  obtain ⟨-, v, c, _, _, hv, hc, ⟨e, _, _, _, _, _, _, he, -, -, -, -, -, -, rfl⟩, ⟨y, hy, rfl⟩,
    hd⟩ := h
  obtain ⟨-, hbody, -, -⟩ := hd.unique hd' (rfl : d ++ [] = d ++ [])
  simp only [List.append_assoc] at hbody
  obtain ⟨-, -, -, hbody⟩ := hv.unique hv' hbody
  obtain ⟨-, -, -, hbody⟩ := hc.unique hc' hbody
  obtain ⟨-, -, -, hbody⟩ := hy.unique hx hbody
  obtain ⟨htag, -⟩ := he.unique hi hbody
  revert htag
  decide

/-- No trap of the first version is taken: the parser wants the request id
of the other PDUs where a trap has its enterprise. -/
theorem no_v1_trap_is_parsed (most : Nat) (f : TrapFields) (bs : List VariableBinding)
    (d : List UInt8) (h : IsTrap most f bs d) (this : SNMPPacket) :
    (∃ p, parse (.bits 64) this d = .fail p) ∧
      ¬ ∃ packet, parse (.bits 64) this d = .ok () packet ∧ packet.variable_bindings = bs := by
  rcases parse_64_cases this d with ⟨l, hl, -⟩ | ⟨-, p, hfail⟩
  · exact absurd ⟨l, hl⟩ h.no_layout
  · refine ⟨⟨p, hfail⟩, ?_⟩
    rintro ⟨packet, hok, -⟩
    rw [hfail] at hok
    cases hok

/-- A cold start, without bindings. -/
def coldStart : List UInt8 :=
  [0x30, 0x1d, 0x02, 0x01, 0x00, 0x04, 0x01, 0x70, 0xA4, 0x15, 0x06, 0x02, 0x2b, 0x06, 0x40, 0x04,
    0x7f, 0x00, 0x00, 0x01, 0x02, 0x01, 0x00, 0x02, 0x01, 0x00, 0x43, 0x01, 0x05, 0x30, 0x00]

def coldStartFields : TrapFields where
  community := [0x70]
  enterprise := [0x2b, 0x06]
  agent_addr := [0x7f, 0x00, 0x00, 0x01]
  generic_trap := [0x00]
  specific_trap := [0x00]
  time_stamp := [0x05]

theorem coldStart_is_a_trap : IsTrap 4 coldStartFields [] coldStart := by
  have hcontent : IsTrapContent 4 coldStartFields [] (coldStart.drop 10) :=
    ⟨_, _, _, _, _, _, _, .of_lt _ (by decide), .of_lt _ (by decide), .of_lt _ (by decide),
      .of_lt _ (by decide), .of_lt _ (by decide), .nil, .of_lt _ (by decide), rfl⟩
  exact ⟨⟨by decide, by decide, by decide, by decide, by decide⟩, _, _, _, _,
    .of_lt _ (by decide), .of_lt _ (by decide), hcontent, .of_lt _ (by decide),
    .of_lt _ (by decide)⟩

theorem a_cold_start_is_rejected :
    (∃ p, parse (.bits 64) SNMPPacket.new coldStart = .fail p) ∧
      ¬ ∃ packet, parse (.bits 64) SNMPPacket.new coldStart = .ok () packet ∧
        packet.variable_bindings = [] :=
  no_v1_trap_is_parsed 4 coldStartFields [] coldStart coldStart_is_a_trap SNMPPacket.new

theorem a_cold_start_does_not_reach_its_handler :
    ¬ ∀ (most : Nat) (f : TrapFields) (bs : List VariableBinding) (d : List UInt8),
      IsTrap most f bs d → ∀ this : SNMPPacket,
      ∃ packet, parse (.bits 64) this d = .ok () packet ∧ packet.variable_bindings = bs := by
  intro h
  obtain ⟨packet, hok, -⟩ := h 4 coldStartFields [] coldStart coldStart_is_a_trap SNMPPacket.new
  have hfail : parse (.bits 64) SNMPPacket.new coldStart =
      .fail { SNMPPacket.new with version := 0x00, community := [0x70], pdu_type := 0xA4 } := by
    decide
  rw [hfail] at hok
  cases hok

end simple_snmpd.snmp_packet
