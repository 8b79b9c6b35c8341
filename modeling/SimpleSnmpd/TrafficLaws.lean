-- How much the agent sends. A datagram is answered with one binding for each
-- of its own, GET-BULK or not, so it pays for its answer, up to the sizes of
-- the OIDs and the values that the MIB has to show.
import SimpleSnmpd.ObjectLaws
import SimpleSnmpd.WireLaws
import Mathlib.Algebra.Order.BigOperators.Group.List

open simple_snmpd.snmp_packet write_logs ordered_stores simulations

namespace simple_snmpd.snmp_server

/-! ## Sizes in the MIB -/

/-- The OIDs and the values that are stored have at most these sizes. -/
def Within (oid_size value_size : Nat) (t : Store OID MIBValue) : Prop :=
  ∀ o v, t o = some v → o.length ≤ oid_size ∧ v.data.length ≤ value_size

/-- A value that a run stores fits the buffer. -/
theorem within_kept (oid_size value_size : Nat) :
    KeptByWrites (Within oid_size (max value_size 4096)) := by
  intro t o v ht ho hv o' v' h
  by_cases he : o' = o
  · subst he
    obtain ⟨w, hw⟩ := Option.ne_none_iff_exists'.mp ho
    rw [put_same, Option.some.injEq] at h
    subst h
    exact ⟨(ht o' w hw).1, by omega⟩
  · rw [put_other _ _ he] at h
    exact ht o' v' h

theorem Within.mono {oid_size value_size : Nat} {t : Store OID MIBValue}
    (h : Within oid_size value_size t) : Within oid_size (max value_size 4096) t :=
  fun o v hv => ⟨(h o v hv).1, Nat.le_trans (h o v hv).2 (Nat.le_max_left _ _)⟩

/-! ## The size of an answer -/

variable {M S : Type} {k : Managers M S} {security : S} {mib : M} {request : SNMPPacket}
  {oid_size value_size : Nat}

theorem shown_size_le (h : Within oid_size value_size (k.mib.get_value mib)) (o : OID) :
    shown_size k mib o ≤ 6 + o.length + value_size := by
  unfold shown_size
  cases hv : k.mib.get_value mib o with
  | none => exact Nat.le_add_right _ _
  | some v => exact Nat.add_le_add_left (h o v hv).2 _

theorem next_size_le (hk : k.mib.Indexed)
    (h : Within oid_size value_size (k.mib.get_value mib)) (o : OID) :
    next_size k mib o ≤ 6 + o.length + (oid_size + value_size) := by
  have hnext := hk.next mib o
  unfold next_size
  cases hn : k.mib.get_next_oid mib o with
  | none => exact Nat.le_add_right _ _
  | some n =>
    rw [hn] at hnext
    obtain ⟨v, hv⟩ := Option.ne_none_iff_exists'.mp hnext.stored
    have hsize := (h n v hv).1
    have hshown := shown_size_le h n
    dsimp only
    omega

theorem sum_sizes_le {size : VariableBinding → Nat} {more : Nat}
    (h : ∀ b : VariableBinding, size b ≤ 6 + b.oid.length + more) (bs : List VariableBinding) :
    (bs.map size).sum ≤ bindings_size bs + bs.length * more := by
  induction bs with
  | nil => exact Nat.zero_le _
  | cons b bs ih =>
    have hb := h b
    rw [List.map_cons, List.sum_cons, bindings_size_cons, List.length_cons, Nat.succ_mul]
    omega

/-- What a SET shows of its values is in its bindings. -/
theorem set_size_le :
    empty_size request.variable_bindings + written_size (setLog k security request mib) ≤
      bindings_size request.variable_bindings := by
  have hlog : written_size (setLog k security request mib) ≤
      written_size (request.variable_bindings.map writeOf) :=
    ((setLog_sublist mib).map _).sum_le_sum fun _ _ => Nat.zero_le _
  refine Nat.le_trans (Nat.add_le_add_left hlog _) (Nat.le_of_eq ?_)
  induction request.variable_bindings with
  | nil => rfl
  | cons b bs ih =>
    have hempty : empty_size (b :: bs) = 6 + b.oid.length + empty_size bs := rfl
    have hwritten : written_size ((b :: bs).map writeOf) =
        b.value.length + written_size (bs.map writeOf) := rfl
    rw [hempty, hwritten, bindings_size_cons, ← ih]
    omega

/-- An answer is larger than its request by what the MIB shows for each
binding, at most. -/
theorem answer_size_le (hk : k.mib.Indexed)
    (h : Within oid_size value_size (k.mib.get_value mib)) :
    answer_size k security mib request ≤
      content_size request + request.variable_bindings.length * (oid_size + value_size) := by
  have hbindings : answer_bindings_size k security mib request ≤
      bindings_size request.variable_bindings +
        request.variable_bindings.length * (oid_size + value_size) := by
    unfold answer_bindings_size
    split_ifs
    · refine sum_sizes_le (fun b => Nat.le_trans (shown_size_le h b.oid) ?_) _
      omega
    · exact sum_sizes_le (fun b => next_size_le hk h b.oid) _
    · exact Nat.le_trans set_size_le (Nat.le_add_right _ _)
    · exact Nat.zero_le _
  unfold answer_size content_size
  omega

/-! ## The law -/

/-- How many bytes a datagram may be answered with. -/
def pays_for (oid_size value_size : Nat) : Received → Nat
  | .error => 0
  | .datagram _ _ payload =>
    payload.length + 6 + payload.length / 6 * (oid_size + value_size)

theorem answered_size_le (hk : k.mib.Indexed) {s : Agent M S} {r : Received} {d : Sent}
    (h : Within oid_size value_size (value_at k s)) (hd : (server_turn k s r).2 = some d) :
    d.bytes.length ≤ pays_for oid_size value_size r := by
  cases r with
  | error => cases hd
  | datagram now client_addr payload =>
    rcases server_turn_cases k s now client_addr payload with hno | ⟨p, hp, hrefused | hanswered⟩
    · rw [hno] at hd
      cases hd
    · rw [hrefused] at hd
      cases hd
    simp only [hanswered, Option.some.injEq] at hd
    subst hd
    have hanswer := @answer_size_le _ _ k
      (security_after k.security now (inet_ntoa client_addr.sin_addr) s.security) s.mib p _ _ hk h
    have htaken := taken_size hp
    have hbuffer : (into_buffer payload).length ≤ payload.length := List.length_take_le' _ _
    have hcount : p.variable_bindings.length ≤ payload.length / 6 := by
      rw [content_size, bindings_size_eq] at htaken
      omega
    have hgrowth := Nat.mul_le_mul_right (oid_size + value_size) hcount
    have hpays : pays_for oid_size value_size (.datagram now client_addr payload) =
      payload.length + 6 + payload.length / 6 * (oid_size + value_size) := rfl
    rw [octetElement_length, contentBytes_length, content_size_dispatch, hpays]
    omega

/-- Whatever is received, all that the agent sends is paid for by what it
receives: a byte for a byte, six for each datagram, and what the MIB shows
for each six bytes. A value that is shown was there before, or it fits the
buffer. -/
theorem what_is_received_pays_for_what_is_sent (k : Managers M S) (hk : k.mib.Indexed)
    (oid_size value_size : Nat) (s : Agent M S) (received : List Received)
    (h : Within oid_size value_size (value_at k s)) :
    ((wire_answers k s received).map fun d => d.bytes.length).sum ≤
      (received.map (pays_for oid_size (max value_size 4096))).sum := by
  have hkeep : ∀ s r, Within oid_size (max value_size 4096) (value_at k s) →
      Within oid_size (max value_size 4096) (value_at k (turn k s r)) :=
    fun s r hs => (within_kept oid_size value_size).turn hk.lawful hs r
  exact sum_outputs_le hkeep (fun s r d hs hd => answered_size_le hk hs hd) h.mono received

/-- The open agent on an error and a SET. -/
theorem a_set_pays_for_its_answer :
    ((wire_answers (one_object_managers [0x2b]) ⟨⟨⟨0x04⟩, [0x00]⟩, ()⟩ [.error, setOne]).map
        fun d => d.bytes.length).sum ≤
      ([.error, setOne].map (pays_for 1 (max 1 4096))).sum := by
  refine what_is_received_pays_for_what_is_sent (one_object_managers [0x2b])
    (one_object_indexed _) 1 1 _ [.error, setOne] fun o v hv => ?_
  simp only [value_at, one_object_managers, one_object, Option.ite_none_right_eq_some] at hv
  obtain ⟨rfl, hv⟩ := hv
  cases hv
  exact ⟨Nat.le_refl _, Nat.le_refl _⟩

end simple_snmpd.snmp_server
