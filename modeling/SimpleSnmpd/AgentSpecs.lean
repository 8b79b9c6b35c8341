-- What the agent does with one request and with one datagram: nothing where
-- a check refuses it, and one answer where every check lets it pass.
import SimpleSnmpd.AgentModel
import SimpleSnmpd.SerializerLaws

open simple_snmpd.snmp_packet

namespace simple_snmpd.snmp_server

section

variable {S : Type} (sm : SecurityManager S) (now : Nat) (client_address : List UInt8)

/-! ## The checks -/

/-- The security state after the rate limit was checked. -/
def security_after (security : S) : S := (sm.check_rate_limit security now client_address).2

/-- The rate limit, the IP filter and the community check let a request
with the community pass. -/
structure Admits (community : List UInt8) (security : S) : Prop where
  in_rate : (sm.check_rate_limit security now client_address).1 = true
  ip_allowed :
    sm.is_ip_allowed (security_after sm now client_address security) client_address = true
  access_allowed : sm.is_access_allowed (security_after sm now client_address security) community
    client_address = true

instance (community : List UInt8) (security : S) :
    Decidable (Admits sm now client_address community security) :=
  decidable_of_iff
    ((sm.check_rate_limit security now client_address).1 = true ∧
      sm.is_ip_allowed (security_after sm now client_address security) client_address = true ∧
      sm.is_access_allowed (security_after sm now client_address security) community
        client_address = true)
    ⟨fun ⟨h1, h2, h3⟩ => ⟨h1, h2, h3⟩, fun ⟨h1, h2, h3⟩ => ⟨h1, h2, h3⟩⟩

end

/-- Checks that decide alike admit alike. -/
theorem admits_congr {S : Type} {sm : SecurityManager S} {now now' : Nat}
    {client_address community : List UInt8} {σ τ : S}
    (hrate : (sm.check_rate_limit σ now client_address).1 =
      (sm.check_rate_limit τ now' client_address).1)
    (hip : sm.is_ip_allowed (security_after sm now client_address σ) client_address =
      sm.is_ip_allowed (security_after sm now' client_address τ) client_address)
    (haccess : sm.is_access_allowed (security_after sm now client_address σ) community
        client_address =
      sm.is_access_allowed (security_after sm now' client_address τ) community client_address) :
    Admits sm now client_address community σ ↔ Admits sm now' client_address community τ := by
  constructor
  · rintro ⟨h1, h2, h3⟩
    exact ⟨by rwa [← hrate], by rwa [← hip], by rwa [← haccess]⟩
  · rintro ⟨h1, h2, h3⟩
    exact ⟨by rwa [hrate], by rwa [hip], by rwa [haccess]⟩

variable {M S : Type} {k : Managers M S} {now : Nat} {client_address : List UInt8}

/-! ## A request -/

theorem process_snmp_request_admitted {request : SNMPPacket} {s : Agent M S}
    (h : Admits k.security now client_address request.community s.security) :
    process_snmp_request k now client_address request s =
      (⟨(dispatch k (security_after k.security now client_address s.security) s.mib request
          (new_response request)).1, security_after k.security now client_address s.security⟩,
        some (dispatch k (security_after k.security now client_address s.security) s.mib request
          (new_response request)).2) := by
  have h1 := h.in_rate
  have h2 := h.ip_allowed
  have h3 := h.access_allowed
  unfold security_after at *
  simp [process_snmp_request, h1, h2, h3]

theorem process_snmp_request_refused {request : SNMPPacket} {s : Agent M S}
    (h : ¬ Admits k.security now client_address request.community s.security) :
    process_snmp_request k now client_address request s =
      ({ s with security := security_after k.security now client_address s.security }, none) := by
  unfold process_snmp_request
  by_cases h1 : (k.security.check_rate_limit s.security now client_address).1 = true
  swap
  · simp [h1, security_after]
  by_cases h2 : k.security.is_ip_allowed (security_after k.security now client_address s.security)
      client_address = true
  swap
  · unfold security_after at *
    simp [h1, h2]
  by_cases h3 : k.security.is_access_allowed
      (security_after k.security now client_address s.security) request.community
      client_address = true
  swap
  · unfold security_after at *
    simp [h1, h2, h3]
  exact absurd ⟨h1, h2, h3⟩ h

/-- Only a SET may change the MIB. -/
theorem dispatch_mib {security : S} {mib : M} {request response : SNMPPacket}
    (h : request.pdu_type ≠ SNMP_PDU_SET_REQUEST) :
    (dispatch k security mib request response).1 = mib := by
  unfold dispatch
  split_ifs <;> rfl

theorem dispatch_set {security : S} {mib : M} {request response : SNMPPacket}
    (h : request.pdu_type = SNMP_PDU_SET_REQUEST) :
    dispatch k security mib request response =
      process_set_request k security mib request response := by
  unfold dispatch
  rw [h]
  rfl

theorem dispatch_get {security : S} {mib : M} {request response : SNMPPacket}
    (h : request.pdu_type = SNMP_PDU_GET_REQUEST) :
    dispatch k security mib request response =
      (mib, process_get_request k mib request response) := by
  unfold dispatch
  rw [h]
  rfl

/-- GET-NEXT, and GET-BULK in the versions that have it. -/
def AsksNext (request : SNMPPacket) : Prop :=
  request.pdu_type = SNMP_PDU_GET_NEXT_REQUEST ∨
    request.pdu_type = SNMP_PDU_GET_BULK_REQUEST ∧
      (request.version = SNMP_VERSION_2C ∨ request.version = SNMP_VERSION_3)

instance (request : SNMPPacket) : Decidable (AsksNext request) :=
  inferInstanceAs (Decidable (_ ∨ _ ∧ (_ ∨ _)))

/-- A GET-BULK is handled as a GET-NEXT. -/
theorem dispatch_next {security : S} {mib : M} {request response : SNMPPacket}
    (h : AsksNext request) :
    dispatch k security mib request response =
      (mib, process_get_next_request k mib request response) := by
  unfold dispatch
  rcases h with h | ⟨h, hv⟩
  · rw [h]
    rfl
  · rw [h, if_neg (by decide), if_neg (by decide), if_pos rfl, if_pos hv]
    rfl

/-- Every other request but a SET is answered without the MIB. -/
theorem dispatch_other {security : S} {mib mib' : M} {request response : SNMPPacket}
    (hget : request.pdu_type ≠ SNMP_PDU_GET_REQUEST) (hnext : ¬ AsksNext request)
    (hset : request.pdu_type ≠ SNMP_PDU_SET_REQUEST) :
    (dispatch k security mib request response).2 =
      (dispatch k security mib' request response).2 := by
  unfold dispatch
  split_ifs with h1 h2 h3 h4 <;> first | rfl | skip
  · exact absurd h1 hget
  · exact absurd (Or.inl h2) hnext
  · exact absurd (Or.inr ⟨h3, h4⟩) hnext

/-! ## The bindings of an answer -/

/-- The answer to one OID of a GET. -/
def get_binding (k : Managers M S) (mib : M) (oid : OID) : VariableBinding :=
  match k.mib.get_value mib oid with
  | some mib_value => value_binding oid mib_value
  | none => null_binding oid

/-- A loop whose turns add one binding each adds a binding for each turn. -/
theorem bindings_of_turns {turn : SNMPPacket → VariableBinding → SNMPPacket}
    {answer : VariableBinding → VariableBinding}
    (h : ∀ response b, (turn response b).variable_bindings =
      response.variable_bindings ++ [answer b]) (response : SNMPPacket)
    (bs : List VariableBinding) :
    (bs.foldl turn response).variable_bindings =
      response.variable_bindings ++ bs.map answer := by
  induction bs generalizing response with
  | nil => simp
  | cons b bs ih => rw [List.foldl_cons, ih, h, List.map_cons, List.append_assoc]; rfl

theorem get_bindings (mib : M) (request response : SNMPPacket) :
    (process_get_request k mib request response).variable_bindings =
      response.variable_bindings ++
        request.variable_bindings.map fun b => get_binding k mib b.oid := by
  refine bindings_of_turns (fun response b => ?_) _ _
  unfold get_turn get_binding
  cases k.mib.get_value mib b.oid <;> rfl

theorem next_bindings (mib : M) (request response : SNMPPacket) :
    (process_get_next_request k mib request response).variable_bindings =
      response.variable_bindings ++
        request.variable_bindings.map fun b => next_binding k mib b.oid :=
  bindings_of_turns (fun _ _ => rfl) _ _

/-! ## A datagram -/

/-- The agent takes the datagram for the packet. -/
def Takes (payload : List UInt8) (packet : SNMPPacket) : Prop :=
  parse (.bits 64) SNMPPacket.new (into_buffer payload) = .ok () packet

instance (payload : List UInt8) (packet : SNMPPacket) : Decidable (Takes payload packet) :=
  inferInstanceAs (Decidable (_ = _))

theorem Takes.unique {payload : List UInt8} {packet packet' : SNMPPacket}
    (h : Takes payload packet) (h' : Takes payload packet') : packet = packet' := by
  have hok := h.symm.trans h'
  cases hok
  rfl

variable {s : Agent M S} {client_addr : SockaddrIn} {payload : List UInt8}

/-- The agent takes what has a layout, for the packet of the layout. -/
theorem takes_iff {packet : SNMPPacket} :
    Takes payload packet ↔ ∃ l, HasLayout 4 l (into_buffer payload) ∧ l.packet = packet := by
  unfold Takes
  constructor
  · intro h
    rcases parse_64_cases SNMPPacket.new (into_buffer payload) with ⟨l, hl, hok⟩ | ⟨-, p, hfail⟩
    · rw [hok] at h
      cases h
      exact ⟨l, hl, rfl⟩
    · rw [hfail] at h
      cases h
  · rintro ⟨l, hl, rfl⟩
    exact parse_ok (suits_64 _) _ hl

/-- A datagram that the parser takes is processed. -/
theorem server_turn_parsed {packet : SNMPPacket} (h : Takes payload packet) :
    server_turn k s (.datagram now client_addr payload) =
      ((process_snmp_request k now (inet_ntoa client_addr.sin_addr) packet s).1,
        ((process_snmp_request k now (inet_ntoa client_addr.sin_addr) packet s).2.bind
          send_response).map fun bytes => { client_addr, bytes }) := by
  unfold Takes at h
  have hpos : (into_buffer payload).length ≠ 0 := by
    intro hzero
    rw [List.length_eq_zero_iff.mp hzero] at h
    cases h
  simp only [server_turn, if_neg hpos, h]

/-- A datagram whose packet every check lets pass is answered with the bytes
of one packet. -/
theorem server_turn_admitted {packet : SNMPPacket} (h : Takes payload packet)
    (hpass : Admits k.security now (inet_ntoa client_addr.sin_addr) packet.community s.security) :
    server_turn k s (.datagram now client_addr payload) =
      (let security := security_after k.security now (inet_ntoa client_addr.sin_addr) s.security
      let (mib, response) := dispatch k security s.mib packet (new_response packet)
      (⟨mib, security⟩, some ⟨client_addr, octetElement 0x30 (contentBytes response)⟩)) := by
  rw [server_turn_parsed h, process_snmp_request_admitted hpass]
  simp only [Option.bind_some, send_response, serialize_eq, Option.map_some]

/-- A datagram whose packet a check refuses has no answer. -/
theorem server_turn_refused {packet : SNMPPacket} (h : Takes payload packet)
    (hno : ¬ Admits k.security now (inet_ntoa client_addr.sin_addr) packet.community s.security) :
    server_turn k s (.datagram now client_addr payload) =
      ({ s with
        security := security_after k.security now (inet_ntoa client_addr.sin_addr) s.security },
        none) := by
  rw [server_turn_parsed h, process_snmp_request_refused hno]
  rfl

/-- A datagram that the parser does not take does nothing. -/
theorem server_turn_rejected (h : ¬ ∃ packet, Takes payload packet) :
    server_turn k s (.datagram now client_addr payload) = (s, none) := by
  simp only [server_turn]
  split_ifs with hpos
  · rfl
  · cases hp : parse (.bits 64) SNMPPacket.new (into_buffer payload) with
    | ok u packet => exact absurd ⟨packet, hp⟩ h
    | fail _ => rfl
    | outside => rfl
    | running => rfl

/-- All that a datagram can do: it is not taken, or its packet is refused, or
it is answered. -/
theorem server_turn_cases (k : Managers M S) (s : Agent M S) (now : Nat) (client_addr : SockaddrIn)
    (payload : List UInt8) :
    server_turn k s (.datagram now client_addr payload) = (s, none) ∨
    ∃ packet, Takes payload packet ∧
      (server_turn k s (.datagram now client_addr payload) =
          ({ s with
            security := security_after k.security now (inet_ntoa client_addr.sin_addr) s.security },
            none) ∨
        server_turn k s (.datagram now client_addr payload) =
          (let security := security_after k.security now (inet_ntoa client_addr.sin_addr) s.security
          let (mib, response) := dispatch k security s.mib packet (new_response packet)
          (⟨mib, security⟩, some ⟨client_addr, octetElement 0x30 (contentBytes response)⟩))) := by
  by_cases hp : ∃ packet, Takes payload packet
  · obtain ⟨packet, hp⟩ := hp
    refine Or.inr ⟨packet, hp, ?_⟩
    by_cases hpass : Admits k.security now (inet_ntoa client_addr.sin_addr) packet.community
        s.security
    · exact Or.inr (server_turn_admitted hp hpass)
    · exact Or.inl (server_turn_refused hp hpass)
  · exact Or.inl (server_turn_rejected hp)

end simple_snmpd.snmp_server
