-- The error fields of a response. Each binding that fails writes both: its
-- error to the status, and the number of bindings of the request to the
-- index. So they point at the first failure only where that number does.
import SimpleSnmpd.AgentSpecs
import SimpleSnmpd.Registers
import SimpleSnmpd.SetLaws

open simple_snmpd.snmp_packet registers

namespace simple_snmpd.snmp_server

section

variable {M S : Type} (k : Managers M S) (security : S) (mib : M) (request : SNMPPacket)

/-! ## How bindings fail -/

/-- The error of a binding of a GET, if its lookup fails. -/
def get_fault (b : VariableBinding) : Option UInt8 :=
  if (k.mib.get_value mib b.oid).isNone then some SNMP_ERROR_NO_SUCH_NAME else none

/-- The error of each binding of a SET, if it is refused when the loop comes
to it. -/
def set_faults : List (Option UInt8) :=
  writes (set_turn k security request) (fun s b => refusal k security request s.1 b)
    (mib, set_response request) request.variable_bindings

/-- The error of each binding of a GET or a SET, if it fails. -/
def faults : List (Option UInt8) :=
  if request.pdu_type = SNMP_PDU_GET_REQUEST then
    request.variable_bindings.map (get_fault k mib)
  else set_faults k security mib request

/-- A GET, or a SET of a community that may write. -/
def ReachesLoop : Prop :=
  request.pdu_type = SNMP_PDU_GET_REQUEST ∨ request.pdu_type = SNMP_PDU_SET_REQUEST ∧
    k.security.is_write_allowed security request.community = true

end

/-! ## The error fields -/

/-- The error status and the error index. -/
def errors (r : SNMPPacket) : UInt8 × UInt8 := (r.error_status, r.error_index)

/-- What a failure of the status writes to the error fields. -/
def error_of (request : SNMPPacket) (status : UInt8) : UInt8 × UInt8 :=
  (status, octet request.variable_bindings.length)

/-- The error fields are those of the first failure, at its position from
one. Without a failure they are zero. -/
structure PointsAtFirst (faults : List (Option UInt8)) (r : SNMPPacket) : Prop where
  quiet : (∀ f ∈ faults, f = none) → r.error_status = 0 ∧ r.error_index = 0
  points : ∀ i status, FirstWrite faults i status →
    r.error_index.toNat = i + 1 ∧ r.error_status = status

/-- The number of bindings, as an octet, is the position of the first
failure, and the last failure is one of the same kind. -/
def CountPoints (faults : List (Option UInt8)) (n : Nat) : Prop :=
  ∀ i status, FirstWrite faults i status → i + 1 = n % 256 ∧ lastWrite faults = some status

variable {M S : Type} {k : Managers M S} {security : S} {mib : M} {request : SNMPPacket}

theorem errors_get_turn (response : SNMPPacket) (b : VariableBinding) :
    errors (get_turn k mib request response b) =
      ((get_fault k mib b).map (error_of request)).getD (errors response) := by
  unfold get_turn get_fault
  cases k.mib.get_value mib b.oid <;> rfl

theorem errors_set_turn (s : M × SNMPPacket) (b : VariableBinding) :
    errors (set_turn k security request s b).2 =
      ((refusal k security request s.1 b).map (error_of request)).getD (errors s.2) := by
  rw [set_turn_response]
  cases refusal k security request s.1 b <;> rfl

/-- The error fields of a GET are those of its last failure. -/
theorem get_errors (response : SNMPPacket) :
    errors (process_get_request k mib request response) =
      ((lastWrite (request.variable_bindings.map (get_fault k mib))).map (error_of request)).getD
        (errors response) := by
  unfold process_get_request
  rw [view_run errors errors_get_turn, writes_of_inputs, ← lastWrite_map, List.map_map]
  rfl

/-- The error fields of a SET that reaches its loop are those of its last
failure. -/
theorem set_errors (hw : k.security.is_write_allowed security request.community = true) :
    errors (process_set_request k security mib request (new_response request)).2 =
      ((lastWrite (set_faults k security mib request)).map (error_of request)).getD (0, 0) := by
  rw [process_set_request_allowed hw]
  have hrun := view_run (fun s : M × SNMPPacket => errors s.2)
    (@errors_set_turn _ _ k security request) (mib, set_response request) request.variable_bindings
  rw [hrun, map_writes, lastWrite_map]
  rfl

/-- Whatever loop a request reaches, its error fields are those of the last
failure. -/
theorem dispatch_errors (h : ReachesLoop k security request) :
    errors (dispatch k security mib request (new_response request)).2 =
      ((lastWrite (faults k security mib request)).map (error_of request)).getD (0, 0) := by
  unfold faults
  rcases h with hget | ⟨hset, hw⟩
  · rw [dispatch_get hget, if_pos hget]
    exact get_errors _
  · rw [dispatch_set hset, if_neg (by rw [hset]; decide)]
    exact set_errors hw

/-! ## The law -/

/-- The error fields point at the first failure exactly where the number of
bindings does. -/
theorem errors_point_at_the_first_failure_iff_the_count_does (k : Managers M S) (security : S)
    (mib : M) (request : SNMPPacket) (h : ReachesLoop k security request) :
    PointsAtFirst (faults k security mib request)
        (dispatch k security mib request (new_response request)).2 ↔
      CountPoints (faults k security mib request) request.variable_bindings.length := by
  have herrors := @dispatch_errors _ _ k security mib request h
  generalize (dispatch k security mib request (new_response request)).2 = r at *
  generalize faults k security mib request = fs at *
  cases hlast : lastWrite fs with
  | none =>
    have hquiet := lastWrite_eq_none.mp hlast
    rw [hlast] at herrors
    obtain ⟨hstatus, hindex⟩ := Prod.mk.inj herrors
    constructor
    · intro _ i status hfirst
      cases hquiet _ hfirst.mem
    · intro _
      refine ⟨fun _ => ⟨hstatus, hindex⟩, fun i status hfirst => ?_⟩
      cases hquiet _ hfirst.mem
  | some last =>
    rw [hlast] at herrors
    obtain ⟨hstatus, hindex⟩ := Prod.mk.inj herrors
    have hcount : r.error_index.toNat = request.variable_bindings.length % 256 := by
      rw [hindex]
      exact UInt8.toNat_ofNat'
    constructor
    · intro hpoints i status hfirst
      obtain ⟨hi, hs⟩ := hpoints.points i status hfirst
      refine ⟨by rw [← hi, hcount], ?_⟩
      rw [hlast, ← hs, hstatus]
    · intro hpoints
      refine ⟨fun hquiet => ?_, fun i status hfirst => ?_⟩
      · rw [lastWrite_eq_none.mpr hquiet] at hlast
        cases hlast
      · obtain ⟨hi, hs⟩ := hpoints i status hfirst
        rw [hlast, Option.some.injEq] at hs
        exact ⟨by rw [hcount, hi], by rw [hstatus, hs]⟩

/-- A GET of two objects of which the first is missing. -/
def halfGet : SNMPPacket :=
  { SNMPPacket.new with
    variable_bindings := [null_binding [0x2c], null_binding [0x2b]] }

theorem a_half_get_points_iff_its_count_does :
    PointsAtFirst (faults (one_object_managers [0x2b]) () ⟨⟨0x02⟩, []⟩ halfGet)
        (dispatch (one_object_managers [0x2b]) () ⟨⟨0x02⟩, []⟩ halfGet
          (new_response halfGet)).2 ↔
      CountPoints (faults (one_object_managers [0x2b]) () ⟨⟨0x02⟩, []⟩ halfGet) 2 :=
  errors_point_at_the_first_failure_iff_the_count_does _ () _ halfGet (Or.inl rfl)

/-- Where the first of two bindings fails, the index is that of the second. -/
theorem an_error_points_at_the_wrong_binding :
    ¬ ∀ (M S : Type) (k : Managers M S) (security : S) (mib : M) (request : SNMPPacket),
      ReachesLoop k security request →
      PointsAtFirst (faults k security mib request)
        (dispatch k security mib request (new_response request)).2 := by
  intro h
  have hpoints := (h MIBValue Unit (one_object_managers [0x2b]) () ⟨⟨0x02⟩, []⟩ halfGet
    (Or.inl rfl)).points 0 SNMP_ERROR_NO_SUCH_NAME ⟨rfl, fun j hj => absurd hj (Nat.not_lt_zero j)⟩
  revert hpoints
  decide

end simple_snmpd.snmp_server
