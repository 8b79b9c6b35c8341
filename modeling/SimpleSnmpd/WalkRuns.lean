-- A walk while others are at work. The manager asks over the wire for the
-- OID after the one that it was shown last, and between its datagrams the
-- agent receives any others. Datagrams of the walk may go unanswered, and
-- answers may be too long to read.
import SimpleSnmpd.MibWalks
import SimpleSnmpd.ObjectLaws
import SimpleSnmpd.WireLaws

open simple_snmpd.snmp_packet write_logs ordered_stores simulations

namespace simple_snmpd.snmp_server

/-! ## The manager -/

/-- A manager that walks. -/
structure Walker where
  client_addr : SockaddrIn
  version : UInt8
  community : List UInt8
deriving DecidableEq, Repr

/-- What the manager sends, when it was shown the OID last. -/
def Walker.ask (w : Walker) (now : Nat) (request_id : UInt32) (o : OID) : Request where
  client_addr := w.client_addr
  packet := { next_request w.version o with community := w.community, request_id }
  now := now

/-- What happens next: the agent receives something else, or the manager
asks. -/
inductive Event where
  | other (r : Received)
  | asks (now : Nat) (request_id : UInt32)
deriving DecidableEq, Repr

section

variable {M S : Type} (k : Managers M S) (w : Walker)

/-- What the manager is shown, if it can read an answer. -/
def shown_by (s : Agent M S) (o : OID) (now : Nat) (request_id : UInt32) : Option VariableBinding :=
  ((server_turn k s (w.ask now request_id o).received).2.bind Sent.read).bind fun m =>
    m.packet.variable_bindings.head?

/-- The agent, and the OID that the manager was shown last, after an event. -/
def walk_step (s : Agent M S × OID) : Event → Agent M S × OID
  | .other r => (turn k s.1 r, s.2)
  | .asks now request_id =>
    (turn k s.1 (w.ask now request_id s.2).received,
      ((shown_by k w s.1 s.2 now request_id).map (·.oid)).getD s.2)

/-- What an event shows to the manager. -/
def walk_out (s : Agent M S × OID) : Event → Option VariableBinding
  | .other _ => none
  | .asks now request_id => shown_by k w s.1 s.2 now request_id

/-- What the events show to the manager, from the OID on. -/
def walk_notes (s : Agent M S) (start : OID) (events : List Event) : List VariableBinding :=
  outputs (walk_step k w) (walk_out k w) (s, start) events

end

/-- The notes show the OIDs, in their order, and after all of them the last
one again and again, with NULL. -/
structure ShowInOrder (start : OID) (oids : List OID) (notes : List VariableBinding) : Prop where
  in_order : (notes.take oids.length).map (·.oid) = oids.take notes.length
  then_null : notes.drop oids.length =
    List.replicate (notes.length - oids.length) (null_binding (oids.getLastD start))

theorem showInOrder_nil (start : OID) (oids : List OID) : ShowInOrder start oids [] where
  in_order := by simp
  then_null := by simp

variable {start o : OID} {oids : List OID} {notes : List VariableBinding}

theorem ShowInOrder.null (h : ShowInOrder start [] notes) :
    ShowInOrder start [] (null_binding start :: notes) where
  in_order := by simp
  then_null := by
    have hall := h.then_null
    simp only [List.length_nil, List.drop_zero, Nat.sub_zero, List.getLastD_nil] at hall ⊢
    rw [List.length_cons, List.replicate_succ, ← hall]

theorem ShowInOrder.cons {b : VariableBinding} (hb : b.oid = o) (h : ShowInOrder o oids notes) :
    ShowInOrder start (o :: oids) (b :: notes) where
  in_order := by
    rw [List.length_cons, List.length_cons, List.take_succ_cons, List.take_succ_cons,
      List.map_cons, hb, h.in_order]
  then_null := by
    rw [List.length_cons, List.length_cons, List.drop_succ_cons, Nat.add_sub_add_right,
      List.getLastD_cons]
    exact h.then_null

/-! ## One event -/

variable {M S : Type} {k : Managers M S} {w : Walker} {s : Agent M S}

/-- The manager is shown the next binding of the agent, or nothing. -/
theorem shown_by_cases (w : Walker) (s : Agent M S) (o : OID) (now : Nat) (request_id : UInt32) :
    shown_by k w s o now request_id = none ∨
      shown_by k w s o now request_id = some (next_binding k s.mib o) := by
  unfold shown_by
  by_cases hshort : (w.ask now request_id o).Short
  swap
  · left
    rw [(long_turn hshort).2, Option.bind_none]
  rw [(short_turn hshort).2]
  unfold packet_turn
  by_cases hpass : Admits k.security now (inet_ntoa w.client_addr.sin_addr) w.community s.security
  swap
  · left
    rw [show (w.ask now request_id o).now = now from rfl, process_snmp_request_refused hpass]
    rfl
  have hnext : AsksNext (w.ask now request_id o).packet := Or.inl rfl
  rw [show (w.ask now request_id o).now = now from rfl, process_snmp_request_admitted hpass,
    dispatch_next hnext]
  simp only [Option.map_some, Option.filter_some]
  split_ifs
  · right
    rw [Option.bind_some, next_bindings]
    rfl
  · exact Or.inl rfl

/-- What the agent receives leaves what stands above an OID as it is. -/
theorem isAbove_turn (hk : k.mib.Indexed) (h : IsAbove (value_at k s) o oids) (r : Received) :
    IsAbove (value_at k (turn k s r)) o oids := by
  have hkept : KeptByWrites (SameKeys (value_at k s)) := fun t o v ht ho _ => ht.put ho v
  exact (hkept.turn hk.lawful (fun _ => Iff.rfl) r).isAbove h

/-- The next binding is that of the first OID above, or NULL where none is. -/
theorem next_binding_above (hk : k.mib.Indexed) (h : IsAbove (value_at k s) o oids) :
    match oids with
    | [] => next_binding k s.mib o = null_binding o
    | n :: _ => (next_binding k s.mib o).oid = n := by
  have hnext := (hk.next s.mib).eq_head h
  unfold next_binding
  rw [hnext]
  cases oids with
  | nil => rfl
  | cons n oids =>
    obtain ⟨v, hv⟩ := Option.ne_none_iff_exists'.mp ((h.mem_iff n).mp List.mem_cons_self).1
    have hvalue : k.mib.get_value s.mib n = some v := hv
    simp only [List.head?_cons, hvalue]
    rfl

/-! ## The law -/

/-- An open agent with the objects 43 and 44. -/
def two_object_managers : Managers (OID → MIBValue) Unit where
  mib := objects [[0x2b], [0x2c]]
  security := open_security
  oid_to_string := id

def two_object_agent : Agent (OID → MIBValue) Unit := ⟨fun _ => ⟨⟨0x04⟩, [0x00]⟩, ()⟩

end simple_snmpd.snmp_server
