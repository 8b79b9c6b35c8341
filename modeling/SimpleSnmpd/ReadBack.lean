-- What a SET without an error leaves behind: it answers with its own
-- bindings, a GET of what it names reads the last of them, and what it does
-- not name is as before.
import SimpleSnmpd.ReadMaps

open simple_snmpd.snmp_packet write_logs registers

namespace simple_snmpd.snmp_server

/-! ## What is read back -/

/-- The last binding of the list that names the OID. -/
def IsLastOf (bs : List VariableBinding) (oid : OID) (b : VariableBinding) : Prop :=
  ∃ pre post, bs = pre ++ b :: post ∧ b.oid = oid ∧ ∀ c ∈ post, c.oid ≠ oid

/-- The state after a SET keeps what the SET said: its answer repeats its
bindings, and the store has them and is otherwise the one before. -/
structure IsReadBack {M S : Type} (k : Managers M S) (request : SNMPPacket) (mib after : M)
    (answer : SNMPPacket) : Prop where
  answered : answer.variable_bindings = request.variable_bindings
  read_back : ∀ get : SNMPPacket,
    (∀ g ∈ get.variable_bindings, ∃ b ∈ request.variable_bindings, b.oid = g.oid) →
    (process_get_request k after get (new_response get)).error_status = 0 ∧
      List.Forall₂ (fun g r => IsLastOf request.variable_bindings g.oid r)
        get.variable_bindings
        (process_get_request k after get (new_response get)).variable_bindings
  untouched : ∀ o, (∀ b ∈ request.variable_bindings, b.oid ≠ o) →
    k.mib.get_value after o = k.mib.get_value mib o

variable {M S : Type} {k : Managers M S} {security : S} {request : SNMPPacket}

/-! ## A SET without an error -/

/-- The octet of a type survives its way through the MIB. -/
theorem toOctet_ofOctet (b : UInt8) : (SNMPDataType.ofOctet b).toOctet = b := by
  unfold SNMPDataType.ofOctet SNMPDataType.toOctet
  rw [BitVec.setWidth_setWidth_of_le _ (by omega), BitVec.setWidth_eq]

/-- The answer to a GET of an OID where a binding is stored is that binding. -/
theorem get_binding_of_stored {mib : M} {b : VariableBinding}
    (h : k.mib.get_value mib b.oid = some (new_value b)) : get_binding k mib b.oid = b := by
  unfold get_binding
  rw [h]
  simp only [value_binding, new_value, toOctet_ofOctet]

/-- A loop that ends without an error took the success path at every
binding. -/
theorem loop_accepted (hk : k.mib.Takes) (s : M × SNMPPacket) (bs : List VariableBinding)
    (h : (bs.foldl (set_turn k security request) s).2.error_status = 0) :
    (bs.foldl (set_turn k security request) s).2.variable_bindings = s.2.variable_bindings ++ bs ∧
      k.mib.get_value (bs.foldl (set_turn k security request) s).1 =
        replay (k.mib.get_value s.1) (bs.map writeOf) := by
  induction bs generalizing s with
  | nil => exact ⟨(List.append_nil _).symm, rfl⟩
  | cons b bs ih =>
    rw [List.foldl_cons] at h ⊢
    obtain ⟨hbindings, hstore⟩ := ih _ h
    have hzero := ((loop_status _ _).mp h).1
    rw [hbindings, hstore, List.map_cons, replay_cons]
    rcases @set_turn_cases _ _ k security request s b with ⟨ha, hturn⟩ | ⟨mib, status, hr, hturn, -⟩
    · rw [hturn]
      refine ⟨by simp [add_variable_binding], ?_⟩
      rw [hk.get_value_accepted ha.taken]
      rfl
    · -- a turn that refuses its binding leaves an error
      rw [hturn] at hzero
      exact absurd hzero (refusal_ne_zero hr)

/-- After all bindings are stored, each OID that they name has the last of
them. -/
theorem stored_last (store : Store OID MIBValue) {bs : List VariableBinding} {o : OID}
    {b : VariableBinding} (h : IsLastOf bs o b) :
    replay store (bs.map writeOf) o = some (new_value b) := by
  obtain ⟨pre, post, rfl, rfl, hpost⟩ := h
  rw [List.map_append, List.map_cons]
  refine replay_last _ _ _ _ ?_
  intro w hw
  obtain ⟨c, hc, rfl⟩ := List.mem_map.mp hw
  exact hpost c hc

/-- A GET of OIDs that are all stored has no error. -/
theorem get_status_zero {mib : M} {get : SNMPPacket}
    (h : ∀ g ∈ get.variable_bindings, k.mib.get_value mib g.oid ≠ none) :
    (process_get_request k mib get (new_response get)).error_status = 0 := by
  have hnone : lastWrite (get.variable_bindings.map (get_fault k mib)) = none := by
    refine lastWrite_eq_none.mpr ?_
    intro w hw
    obtain ⟨g, hg, rfl⟩ := List.mem_map.mp hw
    exact get_fault_eq_none.mpr (h g hg)
  have herrors := @get_errors _ _ k mib get (new_response get)
  rw [hnone] at herrors
  exact congrArg Prod.fst herrors

/-! ## The law -/

/-- A SET that leaves no error is read back, and touches nothing else. -/
theorem a_set_without_an_error_is_read_back (hk : k.mib.Takes) (security : S) (mib : M)
    (request : SNMPPacket)
    (h : (process_set_request k security mib request (new_response request)).2.error_status = 0) :
    IsReadBack k request mib
      (process_set_request k security mib request (new_response request)).1
      (process_set_request k security mib request (new_response request)).2 := by
  have hw := (set_status mib).mp h |>.1
  rw [process_set_request_allowed hw] at h ⊢
  obtain ⟨hbindings, hstore⟩ := loop_accepted hk _ _ h
  generalize request.variable_bindings.foldl (set_turn k security request)
    (mib, set_response request) = after at *
  have hlast : ∀ o b, IsLastOf request.variable_bindings o b →
      k.mib.get_value after.1 o = some (new_value b) := by
    intro o b hb
    rw [hstore]
    exact stored_last _ hb
  refine ⟨hbindings, fun get hnamed => ⟨get_status_zero ?_, ?_⟩, fun o ho => ?_⟩
  · intro g hg
    obtain ⟨pre, b, post, hbs, hb, hpost⟩ := exists_last (hnamed g hg)
    rw [hlast g.oid b ⟨pre, post, hbs, hb, hpost⟩]
    exact Option.some_ne_none _
  · rw [get_bindings]
    refine List.forall₂_map_right_iff.mpr (List.forall₂_same.mpr ?_)
    intro g hg
    obtain ⟨pre, b, post, hbs, hb, hpost⟩ := exists_last (hnamed g hg)
    have hval := hlast g.oid b ⟨pre, post, hbs, hb, hpost⟩
    rw [← hb] at hval ⊢
    rw [get_binding_of_stored hval]
    exact ⟨pre, post, hbs, rfl, fun c hc => hb ▸ hpost c hc⟩
  · rw [hstore, replay_of_no_write]
    intro w hw
    obtain ⟨b, hb, rfl⟩ := List.mem_map.mp hw
    exact ho b hb

/-- A SET of the one object twice. -/
def twiceSet : SNMPPacket :=
  { SNMPPacket.new with
    pdu_type := SNMP_PDU_SET_REQUEST
    variable_bindings := [⟨[0x2b], 0x04, [0x01]⟩, ⟨[0x2b], 0x02, [0x02]⟩] }

theorem a_set_of_one_object_twice_is_read_back :
    IsReadBack (one_object_managers [0x2b]) twiceSet ⟨⟨0x04⟩, [0x00]⟩
      (process_set_request (one_object_managers [0x2b]) () ⟨⟨0x04⟩, [0x00]⟩ twiceSet
        (new_response twiceSet)).1
      (process_set_request (one_object_managers [0x2b]) () ⟨⟨0x04⟩, [0x00]⟩ twiceSet
        (new_response twiceSet)).2 :=
  a_set_without_an_error_is_read_back (k := one_object_managers [0x2b])
    (one_object_lawful _).takes () ⟨⟨0x04⟩, [0x00]⟩ twiceSet (by decide)

end simple_snmpd.snmp_server
