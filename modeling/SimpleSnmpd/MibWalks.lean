-- Walks over the MIB. A manager that repeats GET-NEXT is shown every stored
-- object, in order, and after the last one the OID that it asks for, with
-- NULL: nothing tells it that the MIB ends there.
import SimpleSnmpd.AgentSpecs
import SimpleSnmpd.ManagerLaws
import SimpleSnmpd.OrderedStores
import Mathlib.Order.RelClasses

open simple_snmpd.snmp_packet write_logs ordered_stores

namespace simple_snmpd.snmp_server

/-! ## The manager -/

/-- The value type that ends a walk of version 2c. -/
def endOfMibView : UInt8 := 0x82

/-- A GET-NEXT of one OID. -/
def next_request (version : UInt8) (oid : OID) : SNMPPacket :=
  { SNMPPacket.new with
    version
    pdu_type := SNMP_PDU_GET_NEXT_REQUEST
    variable_bindings := [null_binding oid] }

/-- The reply tells the manager that the MIB ends: by its status in version
1, by a value type in the others. -/
def SignalsEnd (reply : SNMPPacket) : Prop :=
  reply.version = SNMP_VERSION_1 ∧ reply.error_status ≠ 0 ∨
    reply.version ≠ SNMP_VERSION_1 ∧ ∃ b ∈ reply.variable_bindings, b.value_type = endOfMibView

instance (reply : SNMPPacket) : Decidable (SignalsEnd reply) :=
  inferInstanceAs (Decidable (_ ∧ _ ∨ _ ∧ ∃ b ∈ reply.variable_bindings, _))

section

variable {M S : Type} (k : Managers M S) (mib : M) (version : UInt8)

/-- The reply of the agent to a GET-NEXT of one OID. -/
def next_reply (oid : OID) : SNMPPacket :=
  process_get_next_request k mib (next_request version oid)
    (new_response (next_request version oid))

/-- What a manager is shown by at most `n` requests from the OID on, and
whether a reply signals the end then. -/
def walk : Nat → OID → List VariableBinding × Bool
  | 0, _ => ([], false)
  | n + 1, oid =>
    let reply := next_reply k mib version oid
    if SignalsEnd reply then ([], true)
    else
      let b := reply.variable_bindings.headD (null_binding oid)
      let (shown, ended) := walk n b.oid
      (b :: shown, ended)

/-- The walk has ended, and has shown what is stored above the start: each
OID once, in ascending order, with its type and its bytes. -/
structure IsComplete (start : OID) (w : List VariableBinding × Bool) : Prop where
  ended : w.2 = true
  all_above : IsAbove (k.mib.get_value mib) start (w.1.map (·.oid))
  as_stored : ∀ b ∈ w.1, ∃ v, k.mib.get_value mib b.oid = some v ∧
    b.value_type = v.type.toOctet ∧ b.value = v.data

/-- A manager that walks on is done after finitely many requests. -/
def WalkCompletes (start : OID) : Prop := ∃ n, IsComplete k mib start (walk k mib version n start)

end

variable {M S : Type} {k : Managers M S} {mib : M} {version : UInt8}

/-! ## One reply -/

theorem next_reply_eq (oid : OID) :
    next_reply k mib version oid =
      { SNMPPacket.new with
        version
        pdu_type := SNMP_PDU_GET_RESPONSE
        variable_bindings := [next_binding k mib oid] } :=
  rfl

/-- No reply signals the end in version 1, and in the others the type of a
stored value has to. -/
theorem signalsEnd_next_reply (oid : OID) :
    SignalsEnd (next_reply k mib version oid) ↔
      version ≠ SNMP_VERSION_1 ∧ (next_binding k mib oid).value_type = endOfMibView := by
  rw [next_reply_eq]
  simp [SignalsEnd, SNMPPacket.new]

/-- A binding that ends the walk is that of a stored object above. -/
theorem stored_of_endOfMibView (h : FindsNext (k.mib.get_next_oid mib) (k.mib.get_value mib))
    {oid : OID} (hend : (next_binding k mib oid).value_type = endOfMibView) :
    ∃ n, k.mib.get_value mib n ≠ none ∧ oid < n := by
  have hnext := h oid
  unfold next_binding at hend
  cases hn : k.mib.get_next_oid mib oid with
  | none =>
    rw [hn] at hend
    cases hend
  | some n =>
    rw [hn] at hnext
    exact ⟨n, hnext.stored, hnext.above⟩

/-! ## The walk -/

theorem walk_signalled {oid : OID} {n : Nat} (h : SignalsEnd (next_reply k mib version oid)) :
    walk k mib version (n + 1) oid = ([], true) := by
  rw [walk, if_pos h]

theorem walk_shown {oid : OID} {n : Nat} (h : ¬ SignalsEnd (next_reply k mib version oid)) :
    walk k mib version (n + 1) oid =
      (next_binding k mib oid :: (walk k mib version n (next_binding k mib oid).oid).1,
        (walk k mib version n (next_binding k mib oid).oid).2) := by
  rw [walk, if_neg h]
  rfl

/-- No walk is complete: version 1 has no signal, and in the others it would
hide the object that gives it. -/
theorem no_walk_is_complete (k : Managers M S) (mib : M)
    (h : FindsNext (k.mib.get_next_oid mib) (k.mib.get_value mib)) (version : UInt8)
    (start : OID) : ¬ WalkCompletes k mib version start := by
  rintro ⟨n, hw⟩
  induction n generalizing start with
  | zero => cases hw.ended
  | succ n ih =>
    by_cases hend : SignalsEnd (next_reply k mib version start)
    · rw [walk_signalled hend] at hw
      obtain ⟨x, hx⟩ := stored_of_endOfMibView h (signalsEnd_next_reply start |>.mp hend).2
      cases (hw.all_above.mem_iff x).mpr hx
    · rw [walk_shown hend] at hw
      refine ih (next_binding k mib start).oid ⟨hw.ended, hw.all_above.tail, ?_⟩
      intro b hb
      exact hw.as_stored b (List.mem_cons_of_mem _ hb)

/-- Where nothing is stored above, a walk repeats the OID that it asks for. -/
theorem walk_past_the_end {oid : OID} (hnext : k.mib.get_next_oid mib oid = none) (j : Nat) :
    walk k mib version j oid = (List.replicate j (null_binding oid), false) := by
  have hnull : next_binding k mib oid = null_binding oid := by
    unfold next_binding
    rw [hnext]
  have hend : ¬ SignalsEnd (next_reply k mib version oid) := by
    rw [signalsEnd_next_reply, hnull]
    rintro ⟨-, htype⟩
    cases htype
  induction j with
  | zero => rfl
  | succ j ih =>
    have hrest : walk k mib version j (null_binding oid).oid =
        (List.replicate j (null_binding oid), false) := ih
    rw [walk_shown hend, hnull, hrest]
    rfl

/-- What a walk shows: the stored objects above the start, in order, and
then the last OID with NULL, as often as it is asked. -/
theorem a_walk_shows_the_store_and_then_repeats_itself
    (h : FindsNext (k.mib.get_next_oid mib) (k.mib.get_value mib))
    (hno : version = SNMP_VERSION_1 ∨
      ∀ o v, k.mib.get_value mib o = some v → v.type.toOctet ≠ endOfMibView)
    {start : OID} {oids : List OID} (hoids : IsAbove (k.mib.get_value mib) start oids) (j : Nat) :
    walk k mib version (oids.length + j) start =
      (oids.map (get_binding k mib) ++ List.replicate j (null_binding (oids.getLastD start)),
        false) := by
  induction oids generalizing start with
  | nil =>
    rw [List.length_nil, Nat.zero_add, walk_past_the_end (h.eq_head hoids)]
    rfl
  | cons n oids ih =>
    have hnext := h.eq_head hoids
    obtain ⟨v, hv⟩ := Option.ne_none_iff_exists'.mp ((hoids.mem_iff n).mp List.mem_cons_self).1
    have hshown : next_binding k mib start = value_binding n v := by
      unfold next_binding
      rw [hnext]
      simp only [List.head?_cons, hv]
    have hget : get_binding k mib n = value_binding n v := by
      unfold get_binding
      rw [hv]
    have hend : ¬ SignalsEnd (next_reply k mib version start) := by
      rw [signalsEnd_next_reply, hshown]
      rintro ⟨hversion, htype⟩
      exact hno.elim hversion fun hno => hno n v hv htype
    have hrest := ih hoids.tail
    rw [List.length_cons, Nat.add_right_comm, walk_shown hend, hshown]
    rw [show (value_binding n v).oid = n from rfl, hrest, List.map_cons, hget, List.getLastD_cons]
    rfl

theorem no_walk_of_one_object_is_complete :
    ¬ WalkCompletes (one_object_managers [0x2b]) ⟨⟨0x02⟩, [0x01]⟩ SNMP_VERSION_2C [] :=
  no_walk_is_complete _ _ (one_object_next _ _) _ _

/-- A walk over one object does not end. -/
theorem a_walk_does_not_end :
    ¬ ∀ (M S : Type) (k : Managers M S) (mib : M),
      FindsNext (k.mib.get_next_oid mib) (k.mib.get_value mib) →
      (∃ oids : List OID, ∀ o, k.mib.get_value mib o ≠ none → o ∈ oids) →
      ∀ version, version = SNMP_VERSION_1 ∨ version = SNMP_VERSION_2C →
      ∀ start, WalkCompletes k mib version start := by
  intro h
  obtain ⟨n, hw⟩ := h MIBValue Unit (one_object_managers [0x2b]) ⟨⟨0x02⟩, [0x01]⟩
    (one_object_next _ _) ⟨[[0x2b]], by simp [one_object_managers, one_object]⟩ SNMP_VERSION_1
    (Or.inl rfl) []
  have habove : IsAbove ((one_object_managers [0x2b]).mib.get_value ⟨⟨0x02⟩, [0x01]⟩) []
      [[0x2b]] := by
    refine ⟨List.pairwise_singleton _ _, fun x => ?_⟩
    rw [List.mem_singleton]
    constructor
    · rintro rfl
      decide
    · rintro ⟨hstored, -⟩
      by_contra hx
      exact hstored (if_neg hx)
  cases n with
  | zero => cases hw.ended
  | succ n =>
    have hrun : (walk (one_object_managers [0x2b]) ⟨⟨0x02⟩, [0x01]⟩ SNMP_VERSION_1 (1 + n)
        []).2 = false :=
      congrArg Prod.snd (a_walk_shows_the_store_and_then_repeats_itself (one_object_next _ _)
        (Or.inl rfl) habove n)
    rw [Nat.add_comm, hw.ended] at hrun
    cases hrun

end simple_snmpd.snmp_server
