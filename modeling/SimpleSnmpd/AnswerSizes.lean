-- What an answer keeps of its request, and how many bytes it takes: those of
-- the OIDs and of the values that it shows.
import SimpleSnmpd.AgentSpecs
import SimpleSnmpd.SerializerLaws
import SimpleSnmpd.SetLaws

open simple_snmpd.snmp_packet write_logs

namespace simple_snmpd.snmp_server

variable {M S : Type} {k : Managers M S} {security : S} {mib : M} {request response : SNMPPacket}

/-! ## The head of an answer -/

/-- The packets differ in their errors and their bindings at most. -/
structure SameHead (p q : SNMPPacket) : Prop where
  version : q.version = p.version
  community : q.community = p.community
  pdu_type : q.pdu_type = p.pdu_type
  request_id : q.request_id = p.request_id

theorem SameHead.rfl {p : SNMPPacket} : SameHead p p :=
  ⟨Eq.refl _, Eq.refl _, Eq.refl _, Eq.refl _⟩

/-- The response of a handler, before its loop. -/
def get_response (response : SNMPPacket) : SNMPPacket :=
  { response with pdu_type := SNMP_PDU_GET_RESPONSE }

theorem get_request_head :
    SameHead (get_response response) (process_get_request k mib request response) := by
  unfold process_get_request
  refine List.foldlRecOn _ _ SameHead.rfl fun response h b _ => ?_
  unfold get_turn
  cases k.mib.get_value mib b.oid <;> exact ⟨h.version, h.community, h.pdu_type, h.request_id⟩

theorem next_request_head :
    SameHead (get_response response) (process_get_next_request k mib request response) := by
  unfold process_get_next_request
  exact List.foldlRecOn _ _ SameHead.rfl fun _ h _ _ =>
    ⟨h.version, h.community, h.pdu_type, h.request_id⟩

theorem set_turn_head {p : SNMPPacket} {s : M × SNMPPacket} (h : SameHead p s.2)
    (b : VariableBinding) : SameHead p (set_turn k security request s b).2 := by
  rw [set_turn_response]
  cases refusal k security request s.1 b <;>
    exact ⟨h.version, h.community, h.pdu_type, h.request_id⟩

theorem set_request_head :
    SameHead (get_response response) (process_set_request k security mib request response).2 := by
  unfold process_set_request
  split_ifs
  · exact ⟨rfl, rfl, rfl, rfl⟩
  · exact List.foldlRecOn (motive := fun s : M × SNMPPacket => SameHead (get_response response) s.2)
      _ _ SameHead.rfl fun _ h b _ => set_turn_head h b

/-- An answer is a response, or it has the type and the bindings that the
response packet started with. -/
theorem dispatch_head :
    SameHead (get_response response) (dispatch k security mib request response).2 ∨
      SameHead response (dispatch k security mib request response).2 ∧
        (dispatch k security mib request response).2.variable_bindings =
          response.variable_bindings := by
  unfold dispatch
  split_ifs
  · exact Or.inl get_request_head
  · exact Or.inl next_request_head
  · exact Or.inl next_request_head
  · exact Or.inr ⟨⟨rfl, rfl, rfl, rfl⟩, rfl⟩
  · exact Or.inl set_request_head
  all_goals exact Or.inr ⟨⟨rfl, rfl, rfl, rfl⟩, rfl⟩

/-- A request that no loop handles is answered without bindings. -/
theorem dispatch_unhandled (hget : request.pdu_type ≠ SNMP_PDU_GET_REQUEST)
    (hnext : ¬ AsksNext request) (hset : request.pdu_type ≠ SNMP_PDU_SET_REQUEST) :
    (dispatch k security mib request response).2.variable_bindings =
      response.variable_bindings := by
  unfold dispatch
  split_ifs with h1 h2 h3 h4 <;> first | rfl | skip
  · exact absurd h1 hget
  · exact absurd (Or.inl h2) hnext
  · exact absurd (Or.inr ⟨h3, h4⟩) hnext

/-- Every answer repeats the community of its request. -/
theorem dispatch_community :
    (dispatch k security mib request (new_response request)).2.community = request.community := by
  rcases @dispatch_head _ _ k security mib request (new_response request) with h | ⟨h, -⟩
  · exact h.community
  · exact h.community

/-! ## The size of an answer -/

/-- How many bytes the binding of an OID takes, with the value that is
stored there. -/
def shown_size (k : Managers M S) (mib : M) (oid : OID) : Nat :=
  match k.mib.get_value mib oid with
  | some v => 6 + oid.length + v.data.length
  | none => 6 + oid.length

/-- How many bytes the binding of the OID after this one takes. -/
def next_size (k : Managers M S) (mib : M) (oid : OID) : Nat :=
  match k.mib.get_next_oid mib oid with
  | some next_oid => shown_size k mib next_oid
  | none => 6 + oid.length

/-- How many bytes the OIDs of a SET take in its answer, each with an empty
value. -/
def empty_size (bs : List VariableBinding) : Nat := (bs.map fun b => 6 + b.oid.length).sum

/-- How many bytes the values that are written take. -/
def written_size (log : List (OID × MIBValue)) : Nat := (log.map fun w => w.2.data.length).sum

theorem written_size_append (l l' : List (OID × MIBValue)) :
    written_size (l ++ l') = written_size l + written_size l' := by
  simp [written_size]

/-- How many bytes the bindings of the answer to a request take. -/
def answer_bindings_size (k : Managers M S) (security : S) (mib : M) (request : SNMPPacket) : Nat :=
  if request.pdu_type = SNMP_PDU_GET_REQUEST then
    (request.variable_bindings.map fun b => shown_size k mib b.oid).sum
  else if AsksNext request then
    (request.variable_bindings.map fun b => next_size k mib b.oid).sum
  else if request.pdu_type = SNMP_PDU_SET_REQUEST ∧
      k.security.is_write_allowed security request.community = true then
    empty_size request.variable_bindings + written_size (setLog k security request mib)
  else 0

/-- How many bytes the answer to a request takes after its outer header. -/
def answer_size (k : Managers M S) (security : S) (mib : M) (request : SNMPPacket) : Nat :=
  21 + request.community.length + answer_bindings_size k security mib request

theorem get_binding_size (b : VariableBinding) :
    bindings_size [get_binding k mib b.oid] = shown_size k mib b.oid := by
  unfold get_binding shown_size
  cases k.mib.get_value mib b.oid <;> rfl

theorem next_binding_size (b : VariableBinding) :
    bindings_size [next_binding k mib b.oid] = next_size k mib b.oid := by
  unfold next_binding next_size shown_size
  cases k.mib.get_next_oid mib b.oid with
  | none => rfl
  | some n => dsimp only; cases k.mib.get_value mib n <;> rfl

theorem bindings_size_map {answer : VariableBinding → VariableBinding}
    {size : VariableBinding → Nat} (h : ∀ b, bindings_size [answer b] = size b)
    (bs : List VariableBinding) :
    bindings_size (bs.map answer) = (bs.map size).sum := by
  induction bs with
  | nil => rfl
  | cons b bs ih =>
    rw [List.map_cons, List.map_cons, List.sum_cons, ← ih, ← h b, ← bindings_size_append]
    rfl

/-- A turn of a SET adds the OID, and the value if it is written. -/
theorem set_turn_size (s : M × SNMPPacket) (b : VariableBinding) :
    bindings_size (set_turn k security request s b).2.variable_bindings =
      bindings_size s.2.variable_bindings +
        (6 + b.oid.length + written_size (turnLog k security request s b)) := by
  rcases @set_turn_cases _ _ k security request s b with ⟨ha, h⟩ | ⟨mib, status, hr, h, -⟩
  · rw [h, turnLog_accepted ha]
    exact bindings_size_append _ [b]
  · rw [h, turnLog_refused (not_accepts_of_refusal hr)]
    exact bindings_size_append _ [null_binding b.oid]

/-- The bindings of a SET answer show the values that were written, and the
OIDs of the others. -/
theorem set_loop_size (s : M × SNMPPacket) (bs : List VariableBinding) :
    bindings_size (bs.foldl (set_turn k security request) s).2.variable_bindings =
      bindings_size s.2.variable_bindings + (empty_size bs +
        written_size (runLog (set_turn k security request) (turnLog k security request) s bs)) := by
  induction bs generalizing s with
  | nil => rfl
  | cons b bs ih =>
    have hcons : empty_size (b :: bs) = 6 + b.oid.length + empty_size bs := rfl
    rw [List.foldl_cons, ih, set_turn_size, runLog, written_size_append, hcons]
    omega

theorem set_request_size :
    bindings_size
        (process_set_request k security mib request (new_response request)).2.variable_bindings =
      if k.security.is_write_allowed security request.community = true then
        empty_size request.variable_bindings + written_size (setLog k security request mib)
      else 0 := by
  by_cases hw : k.security.is_write_allowed security request.community = true
  · have hstart : bindings_size (set_response request).variable_bindings = 0 := rfl
    rw [if_pos hw, process_set_request_allowed hw, setLog_allowed hw, set_loop_size, hstart,
      Nat.zero_add]
  · rw [if_neg hw]
    simp [process_set_request, hw, new_response, SNMPPacket.new, bindings_size]

theorem dispatch_bindings_size :
    bindings_size (dispatch k security mib request (new_response request)).2.variable_bindings =
      answer_bindings_size k security mib request := by
  have hstart : (new_response request).variable_bindings = [] := rfl
  unfold answer_bindings_size
  by_cases hget : request.pdu_type = SNMP_PDU_GET_REQUEST
  · rw [if_pos hget, dispatch_get hget, get_bindings, hstart, List.nil_append,
      bindings_size_map get_binding_size]
  rw [if_neg hget]
  by_cases hnext : AsksNext request
  · rw [if_pos hnext, dispatch_next hnext, next_bindings, hstart, List.nil_append,
      bindings_size_map next_binding_size]
  rw [if_neg hnext]
  by_cases hset : request.pdu_type = SNMP_PDU_SET_REQUEST
  · rw [dispatch_set hset, set_request_size]
    simp only [hset, true_and]
  · rw [if_neg fun h => hset h.1, dispatch_unhandled hget hnext hset, hstart]
    rfl

/-- The size of the packet that is sent in answer to a request. -/
theorem content_size_dispatch :
    content_size (dispatch k security mib request (new_response request)).2 =
      answer_size k security mib request := by
  rw [content_size, answer_size, dispatch_community, dispatch_bindings_size]

end simple_snmpd.snmp_server
