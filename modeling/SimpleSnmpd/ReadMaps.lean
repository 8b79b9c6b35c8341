-- The read handlers as maps: each answers every binding of its request by
-- itself, in order. So a request may be split anywhere, and a GET-BULK of
-- version 2c is a GET-NEXT of the same bindings.
import SimpleSnmpd.ErrorReports
import Mathlib.Data.List.Forall2

open simple_snmpd.snmp_packet registers

namespace simple_snmpd.snmp_server

/-! ## What the answers say -/

/-- The binding shows what was found for the OID: its type and its bytes, or
NULL where nothing was found. -/
structure ShowsFound (found : Option MIBValue) (oid : OID) (r : VariableBinding) : Prop where
  same_oid : r.oid = oid
  stored : ∀ v, found = some v → r.value_type = v.type.toOctet ∧ r.value = v.data
  missing : found = none → r.value_type = 0x05 ∧ r.value = []

/-- The bindings that a handler answers a request of the bindings `bs` with. -/
def answers_to (handler : SNMPPacket → SNMPPacket → SNMPPacket) (request : SNMPPacket)
    (bs : List VariableBinding) : List VariableBinding :=
  (handler { request with variable_bindings := bs } (new_response request)).variable_bindings

/-- The answer to a request of two parts is the answer to the first part,
and then the answer to the second. -/
def Splits (handler : SNMPPacket → SNMPPacket → SNMPPacket) : Prop :=
  ∀ request xs ys, answers_to handler request (xs ++ ys) =
    answers_to handler request xs ++ answers_to handler request ys

/-- The same packet of version 2c, with another PDU type. -/
def as_2c (request : SNMPPacket) (pdu_type : UInt8) : SNMPPacket :=
  { request with version := SNMP_VERSION_2C, pdu_type }

/-- Each binding of a read is answered by itself. -/
structure ReadsAreMaps {M S : Type} (k : Managers M S) (mib : M) : Prop where
  get : ∀ request, List.Forall₂ (fun b r => ShowsFound (k.mib.get_value mib b.oid) b.oid r)
    request.variable_bindings
    (process_get_request k mib request (new_response request)).variable_bindings
  get_status : ∀ request,
    (process_get_request k mib request (new_response request)).error_status =
        SNMP_ERROR_NO_SUCH_NAME ↔
      ∃ b ∈ request.variable_bindings, k.mib.get_value mib b.oid = none
  next : ∀ request,
    (process_get_next_request k mib request (new_response request)).variable_bindings =
      request.variable_bindings.map fun b => next_binding k mib b.oid
  successor : ∀ oid next_oid v, k.mib.get_next_oid mib oid = some next_oid →
    k.mib.get_value mib next_oid = some v →
    next_binding k mib oid = ⟨next_oid, v.type.toOctet, v.data⟩
  get_splits : Splits (process_get_request k mib)
  next_splits : Splits (process_get_next_request k mib)
  bulk_splits : Splits (process_get_bulk_request k mib)
  bulk_as_next : ∀ now client_address request (security : S),
    process_snmp_request k now client_address (as_2c request SNMP_PDU_GET_BULK_REQUEST)
        ⟨mib, security⟩ =
      process_snmp_request k now client_address (as_2c request SNMP_PDU_GET_NEXT_REQUEST)
        ⟨mib, security⟩

/-! ## The maps -/

variable {M S : Type} {k : Managers M S} {mib : M}

theorem get_binding_shows (oid : OID) :
    ShowsFound (k.mib.get_value mib oid) oid (get_binding k mib oid) := by
  unfold get_binding
  cases k.mib.get_value mib oid with
  | none => exact ⟨rfl, nofun, fun _ => ⟨rfl, rfl⟩⟩
  | some v =>
    refine ⟨rfl, ?_, nofun⟩
    rintro _ ⟨⟩
    exact ⟨rfl, rfl⟩

theorem get_fault_eq_none {b : VariableBinding} :
    get_fault k mib b = none ↔ k.mib.get_value mib b.oid ≠ none := by
  unfold get_fault
  cases k.mib.get_value mib b.oid <;> simp

/-- The status of a GET says whether one of its lookups fails. -/
theorem get_status_iff (request : SNMPPacket) :
    (process_get_request k mib request (new_response request)).error_status =
        SNMP_ERROR_NO_SUCH_NAME ↔
      ∃ b ∈ request.variable_bindings, k.mib.get_value mib b.oid = none := by
  have herrors := @get_errors _ _ k mib request (new_response request)
  cases hlast : lastWrite (request.variable_bindings.map (get_fault k mib)) with
  | none =>
    have hnone := lastWrite_eq_none.mp hlast
    have hstatus : (process_get_request k mib request (new_response request)).error_status = 0 := by
      rw [hlast] at herrors
      exact congrArg Prod.fst herrors
    rw [hstatus]
    constructor
    · intro h
      cases h
    · rintro ⟨b, hb, hmissing⟩
      exact absurd hmissing (get_fault_eq_none.mp (hnone _ (List.mem_map_of_mem hb)))
  | some status =>
    obtain ⟨b, hb, hfault⟩ := List.mem_map.mp (mem_of_lastWrite hlast)
    have hstatus :
        (process_get_request k mib request (new_response request)).error_status = status := by
      rw [hlast] at herrors
      exact congrArg Prod.fst herrors
    unfold get_fault at hfault
    split_ifs at hfault with hmissing
    rw [hstatus, ← Option.some.inj hfault]
    exact iff_of_true rfl ⟨b, hb, Option.isNone_iff_eq_none.mp hmissing⟩

theorem splits_of_map {handler : SNMPPacket → SNMPPacket → SNMPPacket}
    {answer : VariableBinding → VariableBinding}
    (h : ∀ request response, (handler request response).variable_bindings =
      response.variable_bindings ++ request.variable_bindings.map answer) : Splits handler := by
  intro request xs ys
  unfold answers_to
  rw [h, h, h, List.map_append]
  rfl

/-- The loop of a GET-BULK is that of a GET-NEXT. -/
theorem bulk_eq_next : process_get_bulk_request k mib = process_get_next_request k mib := rfl

/-- A GET-BULK of version 2c is handled as a GET-NEXT of the same bindings. -/
theorem dispatch_bulk (security : S) (request response : SNMPPacket) :
    dispatch k security mib (as_2c request SNMP_PDU_GET_BULK_REQUEST) response =
      dispatch k security mib (as_2c request SNMP_PDU_GET_NEXT_REQUEST) response := by
  rw [dispatch_next (Or.inr ⟨rfl, Or.inl rfl⟩), dispatch_next (Or.inl rfl)]
  rfl

/-- Each read answers every binding of a request by itself, and a GET-BULK
of version 2c is a GET-NEXT. -/
theorem the_reads_answer_each_binding_by_itself (k : Managers M S) (mib : M) :
    ReadsAreMaps k mib where
  get request := by
    rw [get_bindings]
    exact List.forall₂_map_right_iff.mpr (List.forall₂_same.mpr fun b _ => get_binding_shows b.oid)
  get_status := get_status_iff
  next request := next_bindings mib request _
  successor oid next_oid v hnext hvalue := by
    unfold next_binding
    rw [hnext]
    simp only [hvalue]
    rfl
  get_splits := splits_of_map (get_bindings mib)
  next_splits := splits_of_map (next_bindings mib)
  bulk_splits := by
    rw [bulk_eq_next]
    exact splits_of_map (next_bindings mib)
  bulk_as_next now client_address request security := by
    have hnew : new_response (as_2c request SNMP_PDU_GET_BULK_REQUEST) =
        new_response (as_2c request SNMP_PDU_GET_NEXT_REQUEST) := rfl
    by_cases hpass : Admits k.security now client_address request.community security
    · rw [process_snmp_request_admitted (show Admits _ _ _ _ _ from hpass),
        process_snmp_request_admitted (show Admits _ _ _ _ _ from hpass), hnew, dispatch_bulk]
    · rw [process_snmp_request_refused (show ¬ Admits _ _ _ _ _ from hpass),
        process_snmp_request_refused (show ¬ Admits _ _ _ _ _ from hpass)]

end simple_snmpd.snmp_server
