-- Which packets are answered, and what every answer says of its request. A
-- handler makes a response of the answer. Where no handler is called, the
-- answer keeps the type of a new packet, and is sent all the same.
import SimpleSnmpd.AnswerSizes
import SimpleSnmpd.ManagerLaws

open simple_snmpd.snmp_packet

namespace simple_snmpd.snmp_server

/-! ## What is sent -/

/-- A PDU that no agent answers: a trap of either version, a response, a
report. -/
def NeedsNoReply (request : SNMPPacket) : Prop :=
  request.pdu_type = SNMP_PDU_TRAP ∨ request.pdu_type = SNMP_PDU_TRAP_V2 ∨
    request.pdu_type = SNMP_PDU_GET_RESPONSE ∨ request.pdu_type = SNMP_PDU_REPORT

/-- A request that one of the loops handles. -/
def IsHandled (request : SNMPPacket) : Prop :=
  request.pdu_type = SNMP_PDU_GET_REQUEST ∨ AsksNext request ∨
    request.pdu_type = SNMP_PDU_SET_REQUEST

section

variable {M S : Type} (k : Managers M S) (now : Nat) (client_address : List UInt8)
  (request : SNMPPacket) (s : Agent M S)

/-- The packets that are handed to `send_response` for a packet. -/
def replies : List SNMPPacket := (process_snmp_request k now client_address request s).2.toList

/-- The reply discipline: one reply at most, none where none is due, and a
response to this very request otherwise. -/
structure KeepsDiscipline : Prop where
  at_most_one : (replies k now client_address request s).length ≤ 1
  silent : NeedsNoReply request ∨
      ¬ Admits k.security now client_address request.community s.security →
    replies k now client_address request s = []
  responds : ∀ r ∈ replies k now client_address request s,
    r.pdu_type = SNMP_PDU_GET_RESPONSE ∧ r.version = request.version ∧
      r.community = request.community ∧ r.request_id = request.request_id

end

variable {M S : Type} {k : Managers M S} {now : Nat} {client_address : List UInt8}
  {request : SNMPPacket} {s : Agent M S}

/-! ## The type of an answer -/

/-- A handler makes a response of the answer. -/
theorem dispatch_handled (k : Managers M S) (security : S) (mib : M) (response : SNMPPacket)
    (h : IsHandled request) :
    SameHead (get_response response) (dispatch k security mib request response).2 := by
  rcases h with h | h | h
  · rw [dispatch_get h]
    exact get_request_head
  · rw [dispatch_next h]
    exact next_request_head
  · rw [dispatch_set h]
    exact set_request_head

/-- Without a handler the answer keeps the type that it started with. -/
theorem dispatch_unhandled_head (k : Managers M S) (security : S) (mib : M)
    (response : SNMPPacket) (h : ¬ IsHandled request) :
    SameHead response (dispatch k security mib request response).2 := by
  unfold dispatch
  split_ifs with h1 h2 h3 h4 h5
  · exact absurd (Or.inl h1) h
  · exact absurd (Or.inr (Or.inl (Or.inl h2))) h
  · exact absurd (Or.inr (Or.inl (Or.inr ⟨h3, h4⟩))) h
  · exact ⟨rfl, rfl, rfl, rfl⟩
  · exact absurd (Or.inr (Or.inr h5)) h
  all_goals exact ⟨rfl, rfl, rfl, rfl⟩

theorem not_needsNoReply_of_isHandled (h : IsHandled request) : ¬ NeedsNoReply request := by
  intro hno
  have htype : request.pdu_type = SNMP_PDU_GET_REQUEST ∨
      request.pdu_type = SNMP_PDU_GET_NEXT_REQUEST ∨
      request.pdu_type = SNMP_PDU_GET_BULK_REQUEST ∨ request.pdu_type = SNMP_PDU_SET_REQUEST := by
    rcases h with h | (h | h) | h
    · exact Or.inl h
    · exact Or.inr (Or.inl h)
    · exact Or.inr (Or.inr (Or.inl h.1))
    · exact Or.inr (Or.inr (Or.inr h))
  rcases hno with hno | hno | hno | hno <;> rw [hno] at htype <;> revert htype <;> decide

/-! ## The replies -/

theorem replies_admitted (h : Admits k.security now client_address request.community s.security) :
    replies k now client_address request s =
      [(dispatch k (security_after k.security now client_address s.security) s.mib request
        (new_response request)).2] := by
  unfold replies
  rw [process_snmp_request_admitted h]
  rfl

theorem replies_refused (h : ¬ Admits k.security now client_address request.community s.security) :
    replies k now client_address request s = [] := by
  unfold replies
  rw [process_snmp_request_refused h]
  rfl

/-- The discipline is kept exactly where a check refuses the packet or a
handler answers it. -/
theorem the_reply_discipline_is_kept_iff_a_check_refuses_or_a_handler_answers (k : Managers M S)
    (now : Nat) (client_address : List UInt8) (request : SNMPPacket) (s : Agent M S) :
    KeepsDiscipline k now client_address request s ↔
      (Admits k.security now client_address request.community s.security → IsHandled request) := by
  constructor
  · intro h hpass
    by_contra hno
    have hhead := dispatch_unhandled_head k
      (security_after k.security now client_address s.security)
      s.mib (new_response request) hno
    have hresponse := (h.responds _ (by rw [replies_admitted hpass]; exact List.mem_cons_self)).1
    -- the answer has the type of a new packet
    rw [hhead.pdu_type] at hresponse
    cases hresponse
  · intro h
    by_cases hpass : Admits k.security now client_address request.community s.security
    · have hone := replies_admitted hpass
      refine ⟨by rw [hone]; exact Nat.le_refl 1, ?_, ?_⟩
      · rintro (hno | hno)
        · exact absurd hno (not_needsNoReply_of_isHandled (h hpass))
        · exact absurd hpass hno
      · intro r hr
        rw [hone, List.mem_singleton] at hr
        subst hr
        have hhead := dispatch_handled k (security_after k.security now client_address s.security)
          s.mib (new_response request) (h hpass)
        exact ⟨hhead.pdu_type, hhead.version, hhead.community, hhead.request_id⟩
    · have hnone := replies_refused hpass
      refine ⟨by rw [hnone]; exact Nat.zero_le 1, fun _ => hnone, ?_⟩
      intro r hr
      rw [hnone] at hr
      cases hr

/-- A trap of version 2c is answered, and not with a response. -/
theorem a_trap_is_answered :
    ¬ ∀ (M S : Type) (k : Managers M S) (now : Nat) (client_address : List UInt8)
      (request : SNMPPacket) (s : Agent M S), KeepsDiscipline k now client_address request s := by
  intro h
  have hsilent := (h MIBValue Unit (one_object_managers [0x2b]) 0 []
    { SNMPPacket.new with pdu_type := SNMP_PDU_TRAP_V2 } ⟨⟨⟨0x02⟩, []⟩, ()⟩).silent
    (Or.inl (Or.inr (Or.inl rfl)))
  revert hsilent
  decide

end simple_snmpd.snmp_server
