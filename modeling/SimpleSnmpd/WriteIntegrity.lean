-- Write integrity over whole runs: the MIB changes only by bindings of SET
-- datagrams that pass every check, and the last of these for an OID is what
-- is stored there.
import SimpleSnmpd.AgentSpecs
import SimpleSnmpd.SetLaws

open simple_snmpd.snmp_packet write_logs

namespace simple_snmpd.snmp_server

section

variable {M S : Type} (k : Managers M S)

/-! ## What the loop writes -/

/-- What a parsed packet writes. -/
def packetLog (s : Agent M S) (now : Nat) (client_address : List UInt8) (packet : SNMPPacket) :
    List (OID × MIBValue) :=
  if Admits k.security now client_address packet.community s.security ∧
      packet.pdu_type = SNMP_PDU_SET_REQUEST then
    setLog k (security_after k.security now client_address s.security) packet s.mib
  else []

/-- What one turn of the loop writes. -/
def receivedLog (s : Agent M S) : Received → List (OID × MIBValue)
  | .error => []
  | .datagram now client_addr payload =>
    match parse (.bits 64) SNMPPacket.new (into_buffer payload) with
    | .ok () packet => packetLog k s now (inet_ntoa client_addr.sin_addr) packet
    | _ => []

/-- The state after one turn of the loop. -/
def turn (s : Agent M S) (r : Received) : Agent M S := (server_turn k s r).1

/-- What the loop writes, datagram by datagram. -/
def loopLog (s : Agent M S) (received : List Received) : List (OID × MIBValue) :=
  runLog (turn k) (receivedLog k) s received

/-- What is stored in the MIB of the agent. -/
def value_at (s : Agent M S) : Store OID MIBValue := k.mib.get_value s.mib

/-! ## The write that a change comes from -/

/-- The security state that a datagram of a source is handled in. -/
abbrev security_for (s : Agent M S) (now : Nat) (client_addr : SockaddrIn) : S :=
  security_after k.security now (inet_ntoa client_addr.sin_addr) s.security

/-- The loop of `process_set_request` when it comes to the binding after
`before`. -/
def set_state (s : Agent M S) (now : Nat) (client_addr : SockaddrIn) (packet : SNMPPacket)
    (before : List VariableBinding) : M × SNMPPacket :=
  before.foldl (set_turn k (security_for k s now client_addr) packet) (s.mib, set_response packet)

/-- The agent in state `s` receives the datagram, and its binding `b`, after
the bindings `before`, passes every check and is stored. -/
structure Stores (s : Agent M S) (now : Nat) (client_addr : SockaddrIn) (payload : List UInt8)
    (packet : SNMPPacket) (before : List VariableBinding) (b : VariableBinding) : Prop where
  parsed : parse (.bits 64) SNMPPacket.new (into_buffer payload) = .ok () packet
  admitted : Admits k.security now (inet_ntoa client_addr.sin_addr) packet.community s.security
  is_set : packet.pdu_type = SNMP_PDU_SET_REQUEST
  write_allowed :
    k.security.is_write_allowed (security_for k s now client_addr) packet.community = true
  accepted : Accepts k (security_for k s now client_addr) packet
    (set_state k s now client_addr packet before).1 b

/-- The bindings after `b` in its datagram, and the datagrams after it,
store nothing at the OID. -/
def LastStore (s : Agent M S) (now : Nat) (client_addr : SockaddrIn) (payload : List UInt8)
    (packet : SNMPPacket) (before : List VariableBinding) (b : VariableBinding)
    (after : List VariableBinding) (post : List Received) : Prop :=
  (∀ w ∈ runLog (set_turn k (security_for k s now client_addr) packet)
      (turnLog k (security_for k s now client_addr) packet)
      (set_turn k (security_for k s now client_addr) packet
        (set_state k s now client_addr packet before) b) after, w.1 ≠ b.oid) ∧
    ∀ w ∈ loopLog k (turn k s (.datagram now client_addr payload)) post, w.1 ≠ b.oid

/-- What is stored at the OID after the run is the value of a binding that
passed every check when it was received, the last one stored there. -/
def HoldsLastStore (s : Agent M S) (received : List Received) (o : OID) : Prop :=
  ∃ pre now client_addr payload post packet before b after,
    received = pre ++ .datagram now client_addr payload :: post ∧
    packet.variable_bindings = before ++ b :: after ∧ b.oid = o ∧
    Stores k (server_loop k s pre) now client_addr payload packet before b ∧
    LastStore k (server_loop k s pre) now client_addr payload packet before b after post ∧
    value_at k (server_loop k s received) o = some (new_value b)

end

variable {M S : Type} {k : Managers M S}

/-! ## One turn of the loop -/

theorem packetLog_set {s : Agent M S} {now : Nat} {client_address : List UInt8}
    {packet : SNMPPacket} (h : Admits k.security now client_address packet.community s.security)
    (hset : packet.pdu_type = SNMP_PDU_SET_REQUEST) :
    packetLog k s now client_address packet =
      setLog k (security_after k.security now client_address s.security) packet s.mib :=
  if_pos ⟨h, hset⟩

/-- A request does to the MIB what its log does. -/
theorem value_at_request (hk : k.mib.Lawful) (s : Agent M S) (now : Nat)
    (client_address : List UInt8) (packet : SNMPPacket) :
    value_at k (process_snmp_request k now client_address packet s).1 =
      replay (value_at k s) (packetLog k s now client_address packet) := by
  by_cases h : Admits k.security now client_address packet.community s.security
  · rw [process_snmp_request_admitted h]
    by_cases hset : packet.pdu_type = SNMP_PDU_SET_REQUEST
    · rw [packetLog_set h hset, dispatch_set hset]
      exact get_value_set_request hk s.mib
    · have hlog : packetLog k s now client_address packet = [] := if_neg fun hc => hset hc.2
      rw [hlog, replay_nil]
      simp only [value_at, dispatch_mib hset]
  · have hlog : packetLog k s now client_address packet = [] := if_neg fun hc => h hc.1
    rw [hlog, process_snmp_request_refused h]
    rfl

theorem receivedLog_parsed {s : Agent M S} {now : Nat} {client_addr : SockaddrIn}
    {payload : List UInt8} {packet : SNMPPacket} (h : Takes payload packet) :
    receivedLog k s (.datagram now client_addr payload) =
      packetLog k s now (inet_ntoa client_addr.sin_addr) packet := by
  unfold Takes at h
  simp only [receivedLog, h]

theorem receivedLog_rejected {s : Agent M S} {now : Nat} {client_addr : SockaddrIn}
    {payload : List UInt8} (h : ¬ ∃ packet, Takes payload packet) :
    receivedLog k s (.datagram now client_addr payload) = [] := by
  simp only [receivedLog]
  split
  · rename_i packet hp
    exact absurd ⟨packet, hp⟩ h
  · rfl

/-- A turn of the loop does to the MIB what its log does. -/
theorem value_at_turn (hk : k.mib.Lawful) (s : Agent M S) (r : Received) :
    value_at k (turn k s r) = replay (value_at k s) (receivedLog k s r) := by
  cases r with
  | error => rfl
  | datagram now client_addr payload =>
    by_cases h : ∃ packet, Takes payload packet
    · obtain ⟨packet, hp⟩ := h
      rw [turn, server_turn_parsed hp, receivedLog_parsed hp]
      exact value_at_request hk s now _ packet
    · rw [turn, server_turn_rejected h, receivedLog_rejected h, replay_nil]

/-! ## Runs of the loop -/

/-- A write of a turn is the write of a binding that passed every check. -/
theorem stores_of_log {s : Agent M S} {r : Received} {w : OID × MIBValue}
    {l l' : List (OID × MIBValue)} (h : receivedLog k s r = l ++ w :: l') :
    ∃ now client_addr payload packet before b after,
      r = .datagram now client_addr payload ∧ packet.variable_bindings = before ++ b :: after ∧
      Stores k s now client_addr payload packet before b ∧ w = writeOf b ∧
      l' = runLog (set_turn k (security_for k s now client_addr) packet)
        (turnLog k (security_for k s now client_addr) packet)
        (set_turn k (security_for k s now client_addr) packet
          (set_state k s now client_addr packet before) b) after := by
  cases r with
  | error => cases l <;> cases h
  | datagram now client_addr payload =>
    by_cases hparse : ∃ packet, Takes payload packet
    swap
    · rw [receivedLog_rejected hparse] at h
      cases l <;> cases h
    obtain ⟨packet, hp⟩ := hparse
    rw [receivedLog_parsed hp] at h
    by_cases hset : Admits k.security now (inet_ntoa client_addr.sin_addr) packet.community
        s.security ∧ packet.pdu_type = SNMP_PDU_SET_REQUEST
    swap
    · rw [packetLog, if_neg hset] at h
      cases l <;> cases h
    rw [packetLog_set hset.1 hset.2] at h
    obtain ⟨hw, before, b, after, hbs, hwrite, ha, hl'⟩ := accepted_of_setLog h
    exact ⟨now, client_addr, payload, packet, before, b, after, rfl, hbs,
      ⟨hp, hset.1, hset.2, hw, ha⟩, hwrite, hl'⟩

/-- Where a run of the loop changes what is stored at an OID, it stores
there a binding of a SET that passed every check, and what the last such
binding says is what the run leaves there. -/
theorem every_change_is_the_last_store (hk : k.mib.Lawful) (s : Agent M S)
    (received : List Received) (o : OID)
    (h : value_at k (server_loop k s received) o ≠ value_at k s o) :
    HoldsLastStore k s received o := by
  have hrun : value_at k (server_loop k s received) =
      replay (value_at k s) (loopLog k s received) := view_run (value_at_turn hk) s received
  rw [hrun] at h
  obtain ⟨l, v, l', hlog, hlast⟩ := exists_last_write_of_ne h
  obtain ⟨pre, r, post, m, m', rfl, hr, rfl⟩ := runLog_split hlog
  obtain ⟨now, client_addr, payload, packet, before, b, after, rfl, hbs, hstores, hw, rfl⟩ :=
    stores_of_log hr
  rw [writeOf, Prod.mk.injEq] at hw
  obtain ⟨rfl, rfl⟩ := hw
  refine ⟨pre, now, client_addr, payload, post, packet, before, b, after, rfl, hbs, rfl, hstores,
    ⟨?_, ?_⟩, ?_⟩
  · intro w hw
    exact hlast w (List.mem_append_left _ hw)
  · intro w hw
    exact hlast w (List.mem_append_right _ hw)
  · rw [hrun, hlog]
    exact replay_last _ _ _ _ hlast

/-- A SET that stores the octet 1 in the object 43. -/
def setOne : Received :=
  .datagram 0 ⟨(127, 0, 0, 1), 40000⟩
    [0x30, 0x1b, 0x02, 0x01, 0x01, 0x04, 0x01, 0x70, 0xA3, 0x13, 0x02, 0x01, 0x05,
      0x02, 0x01, 0x00, 0x02, 0x01, 0x00, 0x30, 0x08, 0x30, 0x06, 0x06, 0x01, 0x2b,
      0x04, 0x01, 0x01]

/-- An open agent that receives an error and then the SET holds its value. -/
theorem a_received_set_is_the_last_store :
    HoldsLastStore (one_object_managers [0x2b]) ⟨⟨⟨0x04⟩, [0x00]⟩, ()⟩ [.error, setOne] [0x2b] :=
  every_change_is_the_last_store (k := one_object_managers [0x2b]) (one_object_lawful _) _
    [.error, setOne] [0x2b] (by decide)

end simple_snmpd.snmp_server
