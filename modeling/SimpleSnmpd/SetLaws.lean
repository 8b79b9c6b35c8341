-- The laws of a SET: it writes each binding that it accepts, in order, and
-- nothing else. A binding that fails does not take back the ones before it.
import SimpleSnmpd.ManagerLaws

open simple_snmpd.snmp_packet write_logs

namespace simple_snmpd.snmp_server

section

variable {M S : Type} (k : Managers M S) (security : S) (request : SNMPPacket)

/-! ## What a SET writes -/

/-- Every check of the loop lets the binding pass, and `set_value` takes it. -/
structure Accepts (mib : M) (b : VariableBinding) : Prop where
  oid_allowed :
    k.security.is_oid_allowed security request.community (k.oid_to_string b.oid) = true
  present : (k.mib.get_value mib b.oid).isSome = true
  not_scalar : k.mib.is_scalar mib b.oid = false
  taken : (k.mib.set_value mib b.oid (new_value b)).1 = true

instance (mib : M) (b : VariableBinding) : Decidable (Accepts k security request mib b) :=
  decidable_of_iff
    (k.security.is_oid_allowed security request.community (k.oid_to_string b.oid) = true ∧
      (k.mib.get_value mib b.oid).isSome = true ∧ k.mib.is_scalar mib b.oid = false ∧
      (k.mib.set_value mib b.oid (new_value b)).1 = true)
    ⟨fun ⟨h1, h2, h3, h4⟩ => ⟨h1, h2, h3, h4⟩, fun ⟨h1, h2, h3, h4⟩ => ⟨h1, h2, h3, h4⟩⟩

/-- The error that a turn of the loop refuses its binding with, if it does. -/
def refusal (mib : M) (b : VariableBinding) : Option UInt8 :=
  if !k.security.is_oid_allowed security request.community (k.oid_to_string b.oid) then
    some SNMP_ERROR_NO_ACCESS
  else if (k.mib.get_value mib b.oid).isNone then some SNMP_ERROR_NO_SUCH_NAME
  else if k.mib.is_scalar mib b.oid then some SNMP_ERROR_READ_ONLY
  else if !(k.mib.set_value mib b.oid (new_value b)).1 then some SNMP_ERROR_WRONG_VALUE
  else none

/-- The write of a binding. -/
def writeOf (b : VariableBinding) : OID × MIBValue := (b.oid, new_value b)

/-- What one turn of the loop writes. -/
def turnLog (s : M × SNMPPacket) (b : VariableBinding) : List (OID × MIBValue) :=
  if Accepts k security request s.1 b then [writeOf b] else []

/-- The response that the loop starts from. -/
def set_response : SNMPPacket := { new_response request with pdu_type := SNMP_PDU_GET_RESPONSE }

/-- What a SET writes. -/
def setLog (mib : M) : List (OID × MIBValue) :=
  if k.security.is_write_allowed security request.community then
    runLog (set_turn k security request) (turnLog k security request)
      (mib, set_response request) request.variable_bindings
  else []

/-- What is stored in the MIB of the loop. -/
def stored (s : M × SNMPPacket) : Store OID MIBValue := k.mib.get_value s.1

end

variable {M S : Type} {k : Managers M S} {security : S} {request : SNMPPacket}

/-! ## One turn -/

theorem accepts_iff {mib : M} {b : VariableBinding} :
    Accepts k security request mib b ↔ refusal k security request mib b = none := by
  unfold refusal
  constructor
  · rintro ⟨h1, h2, h3, h4⟩
    have h2' := Option.isSome_iff_ne_none.mp h2
    simp [h1, h2', h3, h4]
  · intro h
    split_ifs at h with h1 h2 h3 h4
    have h2' : (k.mib.get_value mib b.oid).isSome = true := by
      rw [Option.isSome_iff_ne_none]
      simpa using h2
    exact ⟨by simpa using h1, h2', by simpa using h3, by simpa using h4⟩

theorem refusal_ne_zero {mib : M} {b : VariableBinding} {status : UInt8}
    (h : refusal k security request mib b = some status) : status ≠ 0 := by
  unfold refusal at h
  split_ifs at h <;> cases h <;> decide

/-- A turn accepts its binding and stores it, or it refuses the binding. -/
theorem set_turn_cases (s : M × SNMPPacket) (b : VariableBinding) :
    (Accepts k security request s.1 b ∧ set_turn k security request s b =
      ((k.mib.set_value s.1 b.oid (new_value b)).2, add_variable_binding s.2 b)) ∨
    (∃ mib status, refusal k security request s.1 b = some status ∧
      set_turn k security request s b = (mib, refuse request status b s.2) ∧
      (mib = s.1 ∨ (k.mib.set_value s.1 b.oid (new_value b)).1 = false ∧
        mib = (k.mib.set_value s.1 b.oid (new_value b)).2)) := by
  obtain ⟨mib, response⟩ := s
  by_cases ho : k.security.is_oid_allowed security request.community (k.oid_to_string b.oid) = true
  swap
  · refine Or.inr ⟨mib, SNMP_ERROR_NO_ACCESS, ?_, ?_, Or.inl rfl⟩
    · simp [refusal, ho]
    · simp [set_turn, ho]
  cases hv : k.mib.get_value mib b.oid with
  | none =>
    refine Or.inr ⟨mib, SNMP_ERROR_NO_SUCH_NAME, ?_, ?_, Or.inl rfl⟩
    · simp [refusal, ho, hv]
    · simp [set_turn, ho, hv]
  | some v =>
    cases hs : k.mib.is_scalar mib b.oid with
    | true =>
      refine Or.inr ⟨mib, SNMP_ERROR_READ_ONLY, ?_, ?_, Or.inl rfl⟩
      · simp [refusal, ho, hv, hs]
      · simp [set_turn, ho, hv, hs]
    | false =>
      rcases hset : k.mib.set_value mib b.oid (new_value b) with ⟨taken, mib'⟩
      cases taken with
      | true =>
        refine Or.inl ⟨⟨ho, by simp [hv], hs, by simp [hset]⟩, ?_⟩
        simp [set_turn, ho, hv, hs, hset]
      | false =>
        refine Or.inr ⟨mib', SNMP_ERROR_WRONG_VALUE, ?_, ?_, Or.inr ⟨rfl, rfl⟩⟩
        · simp [refusal, ho, hv, hs, hset]
        · simp [set_turn, ho, hv, hs, hset]

theorem not_accepts_of_refusal {mib : M} {b : VariableBinding} {status : UInt8}
    (h : refusal k security request mib b = some status) : ¬ Accepts k security request mib b := by
  rw [accepts_iff, h]
  exact nofun

theorem turnLog_accepted {s : M × SNMPPacket} {b : VariableBinding}
    (h : Accepts k security request s.1 b) : turnLog k security request s b = [writeOf b] :=
  if_pos h

theorem turnLog_refused {s : M × SNMPPacket} {b : VariableBinding}
    (h : ¬ Accepts k security request s.1 b) : turnLog k security request s b = [] :=
  if_neg h

/-- A turn does to the store what its log does. -/
theorem stored_set_turn (hk : k.mib.Lawful) (s : M × SNMPPacket) (b : VariableBinding) :
    stored k (set_turn k security request s b) =
      replay (stored k s) (turnLog k security request s b) := by
  rcases @set_turn_cases _ _ k security request s b with ⟨ha, h⟩ | ⟨mib, status, hr, h, hmib⟩
  · rw [h, turnLog_accepted ha]
    exact hk.takes.get_value_accepted ha.taken
  · rw [h, turnLog_refused (not_accepts_of_refusal hr), replay_nil]
    rcases hmib with rfl | ⟨hset, rfl⟩
    · rfl
    · exact hk.get_value_refused hset

/-- The response of a turn follows from why the turn refuses its binding. -/
theorem set_turn_response (s : M × SNMPPacket) (b : VariableBinding) :
    (set_turn k security request s b).2 = match refusal k security request s.1 b with
      | none => add_variable_binding s.2 b
      | some status => refuse request status b s.2 := by
  rcases @set_turn_cases _ _ k security request s b with ⟨ha, h⟩ | ⟨mib, status, hr, h, -⟩
  · rw [h, accepts_iff.mp ha]
  · rw [h, hr]

/-! ## The loop -/

/-- The loop writes bindings of the request, in their order. -/
theorem loop_log_sublist (s : M × SNMPPacket) (bs : List VariableBinding) :
    (runLog (set_turn k security request) (turnLog k security request) s bs).Sublist
      (bs.map writeOf) := by
  induction bs generalizing s with
  | nil => exact List.Sublist.refl _
  | cons b bs ih =>
    rw [runLog, List.map_cons]
    by_cases ha : Accepts k security request s.1 b
    · rw [turnLog_accepted ha]
      exact (ih _).cons_cons _
    · rw [turnLog_refused ha]
      exact (ih _).cons _

/-- The error status stays zero exactly as long as each binding is written. -/
theorem loop_status (s : M × SNMPPacket) (bs : List VariableBinding) :
    (bs.foldl (set_turn k security request) s).2.error_status = 0 ↔ s.2.error_status = 0 ∧
      runLog (set_turn k security request) (turnLog k security request) s bs = bs.map writeOf := by
  induction bs generalizing s with
  | nil => simp [runLog]
  | cons b bs ih =>
    rw [List.foldl_cons, ih, runLog, List.map_cons]
    rcases @set_turn_cases _ _ k security request s b with ⟨ha, h⟩ | ⟨mib, status, hr, h, -⟩
    · rw [h, turnLog_accepted ha]
      simp [add_variable_binding]
    · rw [turnLog_refused (not_accepts_of_refusal hr)]
      constructor
      · rintro ⟨hzero, -⟩
        rw [h] at hzero
        exact absurd hzero (refusal_ne_zero hr)
      · rintro ⟨-, hall⟩
        -- a turn that writes nothing leaves too few writes
        have hle := (@loop_log_sublist _ _ k security request
          (set_turn k security request s b) bs).length_le
        have hlen := congrArg List.length hall
        simp only [List.nil_append, List.length_cons, List.length_map] at hle hlen
        omega

/-! ## A SET -/

theorem process_set_request_allowed {mib : M}
    (hw : k.security.is_write_allowed security request.community = true) :
    process_set_request k security mib request (new_response request) =
      request.variable_bindings.foldl (set_turn k security request)
        (mib, set_response request) := by
  simp [process_set_request, hw, set_response]

theorem setLog_allowed {mib : M}
    (hw : k.security.is_write_allowed security request.community = true) :
    setLog k security request mib =
      runLog (set_turn k security request) (turnLog k security request)
        (mib, set_response request) request.variable_bindings :=
  if_pos hw

theorem setLog_denied {mib : M}
    (hw : ¬ k.security.is_write_allowed security request.community = true) :
    setLog k security request mib = [] :=
  if_neg hw

/-- A SET does to the store what its log does. -/
theorem get_value_set_request (hk : k.mib.Lawful) (mib : M) :
    k.mib.get_value (process_set_request k security mib request (new_response request)).1 =
      replay (k.mib.get_value mib) (setLog k security request mib) := by
  by_cases hw : k.security.is_write_allowed security request.community = true
  · rw [process_set_request_allowed hw, setLog_allowed hw]
    exact view_run (stored_set_turn hk) _ _
  · rw [setLog_denied hw, replay_nil]
    simp [process_set_request, hw]

theorem setLog_sublist (mib : M) :
    (setLog k security request mib).Sublist (request.variable_bindings.map writeOf) := by
  by_cases hw : k.security.is_write_allowed security request.community = true
  · rw [setLog_allowed hw]
    exact loop_log_sublist _ _
  · rw [setLog_denied hw]
    exact List.nil_sublist _

theorem set_status (mib : M) :
    (process_set_request k security mib request (new_response request)).2.error_status = 0 ↔
      k.security.is_write_allowed security request.community = true ∧
        setLog k security request mib = request.variable_bindings.map writeOf := by
  by_cases hw : k.security.is_write_allowed security request.community = true
  · rw [process_set_request_allowed hw, setLog_allowed hw, loop_status]
    simp [hw, set_response, new_response, SNMPPacket.new]
  · simp [process_set_request, hw, SNMP_ERROR_NO_ACCESS]

/-- A write of a SET is the write of a binding that it accepts when it comes
to it. What it writes after that is what it writes for the bindings after. -/
theorem accepted_of_setLog {mib : M} {l l' : List (OID × MIBValue)} {w : OID × MIBValue}
    (h : setLog k security request mib = l ++ w :: l') :
    k.security.is_write_allowed security request.community = true ∧
    ∃ before b after, request.variable_bindings = before ++ b :: after ∧ w = writeOf b ∧
      Accepts k security request
        (before.foldl (set_turn k security request) (mib, set_response request)).1 b ∧
      l' = runLog (set_turn k security request) (turnLog k security request)
        (set_turn k security request
          (before.foldl (set_turn k security request) (mib, set_response request)) b) after := by
  by_cases hw : k.security.is_write_allowed security request.community = true
  swap
  · rw [setLog_denied hw] at h
    cases l <;> cases h
  rw [setLog_allowed hw] at h
  obtain ⟨before, b, after, m, m', hbs, hlog, hl'⟩ := runLog_split h
  refine ⟨hw, before, b, after, hbs, ?_⟩
  by_cases ha : Accepts k security request
      (before.foldl (set_turn k security request) (mib, set_response request)).1 b
  · rw [turnLog_accepted ha] at hlog
    -- a turn writes one binding at most
    cases m with
    | nil =>
      rw [List.nil_append, List.cons.injEq] at hlog
      obtain ⟨rfl, rfl⟩ := hlog
      exact ⟨rfl, ha, hl'⟩
    | cons x m => cases m <;> cases hlog
  · rw [turnLog_refused ha] at hlog
    cases m <;> cases hlog

/-- Whatever the status of its response, a SET writes exactly what it
accepts: the store is the one before with these bindings written in order.
The status is zero exactly when it accepts all of them. -/
theorem a_set_writes_what_it_accepts (hk : k.mib.Lawful) (security : S) (mib : M)
    (request : SNMPPacket) :
    let after := process_set_request k security mib request (new_response request)
    let log := setLog k security request mib
    k.mib.get_value after.1 = replay (k.mib.get_value mib) log ∧
      log.Sublist (request.variable_bindings.map writeOf) ∧
      (after.2.error_status = 0 ↔
        k.security.is_write_allowed security request.community = true ∧
          log = request.variable_bindings.map writeOf) :=
  ⟨get_value_set_request hk mib, setLog_sublist mib, set_status mib⟩

/-- A SET of the one object and of an object that is not there. -/
def halfSet : SNMPPacket :=
  { SNMPPacket.new with
    pdu_type := SNMP_PDU_SET_REQUEST
    variable_bindings := [⟨[0x2b], 0x04, [0x01]⟩, ⟨[0x2c], 0x04, [0x02]⟩] }

/-- The first binding is written, the second one is not. -/
theorem a_set_writes_one_of_two :
    let k := one_object_managers [0x2b]
    let after := process_set_request k () ⟨⟨0x04⟩, [0x00]⟩ halfSet (new_response halfSet)
    let log := setLog k () halfSet ⟨⟨0x04⟩, [0x00]⟩
    k.mib.get_value after.1 = replay (k.mib.get_value ⟨⟨0x04⟩, [0x00]⟩) log ∧
      log.Sublist (halfSet.variable_bindings.map writeOf) ∧
      (after.2.error_status = 0 ↔
        k.security.is_write_allowed () halfSet.community = true ∧
          log = halfSet.variable_bindings.map writeOf) :=
  a_set_writes_what_it_accepts (k := one_object_managers [0x2b]) (one_object_lawful _) () _ halfSet

/-- A SET whose response has an error may change the store. -/
theorem a_failed_set_is_not_undone :
    ¬ ∀ (M S : Type) (k : Managers M S), k.mib.Lawful → ∀ (security : S) (mib : M)
      (request : SNMPPacket),
      (process_set_request k security mib request (new_response request)).2.error_status ≠ 0 →
      ∀ o, k.mib.get_value (process_set_request k security mib request (new_response request)).1 o =
        k.mib.get_value mib o := by
  intro h
  have heq := h MIBValue Unit (one_object_managers [0x2b]) (one_object_lawful _) ()
    ⟨⟨0x04⟩, [0x00]⟩ halfSet (by decide) [0x2b]
  revert heq
  decide

end simple_snmpd.snmp_server
