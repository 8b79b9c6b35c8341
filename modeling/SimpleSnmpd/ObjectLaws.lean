-- What no run of the agent can do to the MIB. A SET stores only what is
-- stored already, and only values that fit a datagram: so whatever holds of
-- a store and is kept by such writes holds for good.
import SimpleSnmpd.AnswerSizes
import SimpleSnmpd.ReadAccess
import SimpleSnmpd.SectionLaws
import SimpleSnmpd.WriteIntegrity

open simple_snmpd.snmp_packet write_logs ordered_stores

namespace simple_snmpd.snmp_server

/-! ## What a datagram pays for -/

theorem bindings_size_eq (bs : List VariableBinding) :
    bindings_size bs = 6 * bs.length + storedBytes bs := by
  induction bs with
  | nil => rfl
  | cons b bs ih =>
    have hcons : storedBytes (b :: bs) = b.oid.length + b.value.length + storedBytes bs := rfl
    rw [bindings_size_cons, ih, hcons, List.length_cons]
    omega

/-- A packet takes at most four bytes more, after its header, than a datagram
with its layout: the INTEGERs of the datagram may be empty. -/
theorem content_size_le_datagram {l : Layout} {d : List UInt8} (h : HasLayout 4 l d) :
    content_size l.packet ≤ d.length + 4 := by
  rcases h with ⟨-, o, pc, hd, ⟨v, c, hv, hc, rfl⟩, ⟨_, vb, e, ⟨i, j, k, hi, hj, hk, rfl⟩, ht, he,
    rfl⟩, hh, hall⟩
  have h1 := hv.length_ge
  have h2 := hc.length_ge
  have h3 := hi.length_ge
  have h4 := hj.length_ge
  have h5 := hk.length_ge
  have h6 := he.length_ge
  have h7 := hh.length_ge
  have h8 := hall.length_ge
  have h9 := stored_le ht.chunks
  simp only [List.length_append, List.length_singleton] at h1 h8
  rw [content_size, show l.packet.variable_bindings = l.tiles.map Prod.fst from rfl,
    bindings_size_eq]
  have hcommunity : l.packet.community = l.fields.community := rfl
  rw [hcommunity]
  omega

theorem taken_size {payload : List UInt8} {p : SNMPPacket} (h : Takes payload p) :
    content_size p ≤ (into_buffer payload).length + 4 := by
  obtain ⟨l, hl, rfl⟩ := takes_iff.mp h
  exact content_size_le_datagram hl

theorem into_buffer_length_le (payload : List UInt8) : (into_buffer payload).length ≤ 4096 :=
  List.length_take_le _ _

theorem value_size_le {bs : List VariableBinding} {b : VariableBinding} (h : b ∈ bs) :
    b.value.length ≤ bindings_size bs := by
  obtain ⟨pre, post, rfl⟩ := List.append_of_mem h
  rw [bindings_size_append, bindings_size_cons]
  omega

/-- The values of a datagram fit the buffer. -/
theorem taken_value_size {payload : List UInt8} {p : SNMPPacket} (h : Takes payload p) :
    ∀ b ∈ p.variable_bindings, b.value.length ≤ 4096 := by
  intro b hb
  have hsize := taken_size h
  have hbuffer := into_buffer_length_le payload
  have hvalue := value_size_le hb
  unfold content_size at hsize
  omega

/-! ## The rule of stores -/

/-- Writes of what is stored already, with values that fit the buffer, keep
the property. -/
def KeptByWrites (P : Store OID MIBValue → Prop) : Prop :=
  ∀ t o v, P t → t o ≠ none → v.data.length ≤ 4096 → P (put t o v)

variable {M S : Type} {k : Managers M S} {P : Store OID MIBValue → Prop}

theorem KeptByWrites.set_turn (hP : KeptByWrites P) (hk : k.mib.Lawful) {security : S}
    {request : SNMPPacket} {s : M × SNMPPacket} (hs : P (stored k s)) {b : VariableBinding}
    (hb : b.value.length ≤ 4096) : P (stored k (set_turn k security request s b)) := by
  rw [stored_set_turn hk]
  by_cases ha : Accepts k security request s.1 b
  · rw [turnLog_accepted ha, replay_cons, replay_nil]
    exact hP _ _ _ hs (Option.isSome_iff_ne_none.mp ha.present) hb
  · rwa [turnLog_refused ha, replay_nil]

theorem KeptByWrites.set_loop (hP : KeptByWrites P) (hk : k.mib.Lawful) {security : S}
    {request : SNMPPacket} {bs : List VariableBinding} (hbs : ∀ b ∈ bs, b.value.length ≤ 4096)
    {s : M × SNMPPacket} (hs : P (stored k s)) :
    P (stored k (bs.foldl (snmp_server.set_turn k security request) s)) := by
  induction bs generalizing s with
  | nil => exact hs
  | cons b bs ih =>
    exact ih (fun b' hb' => hbs b' (List.mem_cons_of_mem _ hb'))
      (hP.set_turn hk hs (hbs b List.mem_cons_self))

theorem KeptByWrites.dispatch (hP : KeptByWrites P) (hk : k.mib.Lawful) {security : S}
    {request response : SNMPPacket} (hbs : ∀ b ∈ request.variable_bindings, b.value.length ≤ 4096)
    {mib : M} (hs : P (k.mib.get_value mib)) :
    P (k.mib.get_value (dispatch k security mib request response).1) := by
  by_cases hset : request.pdu_type = SNMP_PDU_SET_REQUEST
  · rw [dispatch_set hset]
    unfold process_set_request
    split_ifs
    · exact hs
    · exact hP.set_loop hk hbs hs
  · rwa [dispatch_mib hset]

theorem KeptByWrites.turn (hP : KeptByWrites P) (hk : k.mib.Lawful) {s : Agent M S}
    (hs : P (value_at k s)) (r : Received) : P (value_at k (turn k s r)) := by
  cases r with
  | error => exact hs
  | datagram now client_addr payload =>
    unfold snmp_server.turn
    rcases server_turn_cases k s now client_addr payload with hno | ⟨p, hp, hrefused | hanswered⟩
    · rwa [hno]
    · rwa [hrefused]
    · rw [hanswered]
      exact hP.dispatch hk (taken_value_size hp) hs

/-- What such writes keep is kept by every run. -/
theorem KeptByWrites.run (hP : KeptByWrites P) (hk : k.mib.Lawful) {s : Agent M S}
    (hs : P (value_at k s)) (received : List Received) :
    P (value_at k (server_loop k s received)) := by
  induction received generalizing s with
  | nil => exact hs
  | cons r received ih => exact ih (hP.turn hk hs r)

/-! ## The law -/

/-- No run makes an object, or does away with one, and the one that a
GET-NEXT finds after an OID is the same before and after it. -/
theorem no_run_changes_which_objects_there_are (k : Managers M S) (hk : k.mib.Indexed)
    (s : Agent M S) (received : List Received) (o : OID) :
    ((value_at k (server_loop k s received) o).isSome = (value_at k s o).isSome) ∧
      k.mib.get_next_oid (server_loop k s received).mib o = k.mib.get_next_oid s.mib o := by
  have hkept : KeptByWrites (SameKeys (value_at k s)) := fun t o v ht ho _ => ht.put ho v
  have hsame := hkept.run hk.lawful (fun _ => Iff.rfl) received
  constructor
  · rw [Bool.eq_iff_iff, Option.isSome_iff_ne_none, Option.isSome_iff_ne_none]
    exact (hsame o).symm
  · exact ((hk.next s.mib).of_sameKeys (hk.next (server_loop k s received).mib) hsame o).symm

/-- The open agent has its object after a SET, and no other. -/
theorem a_set_makes_no_object :
    ((value_at (one_object_managers [0x2b])
        (server_loop (one_object_managers [0x2b]) ⟨⟨⟨0x04⟩, [0x00]⟩, ()⟩ [.error, setOne])
          [0x2a]).isSome =
      (value_at (one_object_managers [0x2b]) (⟨⟨⟨0x04⟩, [0x00]⟩, ()⟩ : Agent MIBValue Unit)
        [0x2a]).isSome) ∧
      (one_object [0x2b]).get_next_oid
          (server_loop (one_object_managers [0x2b]) ⟨⟨⟨0x04⟩, [0x00]⟩, ()⟩ [.error, setOne]).mib
          [0x2a] =
        (one_object [0x2b]).get_next_oid ⟨⟨0x04⟩, [0x00]⟩ [0x2a] :=
  no_run_changes_which_objects_there_are (one_object_managers [0x2b]) (one_object_indexed _) _
    [.error, setOne] [0x2a]

/-! ## Managers of several objects -/

/-- A MIB of these objects, in ascending order. None is scalar, and each
takes any value. -/
def objects (ds : List OID) : MIBManager (OID → MIBValue) where
  get_value m o := if o ∈ ds then some (m o) else none
  set_value m o v := if o ∈ ds then (true, fun o' => if o' = o then v else m o') else (false, m)
  get_next_oid _ o := ds.find? (o < ·)
  is_scalar _ _ := false

variable {ds : List OID}

theorem objects_stored (ds : List OID) (m : OID → MIBValue) (o : OID) :
    (objects ds).get_value m o ≠ none ↔ o ∈ ds := by
  simp [objects]

theorem objects_indexed (h : ds.Pairwise (· < ·)) : (objects ds).Indexed where
  lawful :=
    { stores := by
        intro m o v hset
        by_cases ho : o ∈ ds <;> simp [objects, ho] at hset ⊢
      refuses := by
        intro m o v hset
        by_cases ho : o ∈ ds <;> simp [objects, ho] at hset ⊢
      keeps := by
        intro m o v o' hne
        by_cases ho : o ∈ ds <;> simp [objects, ho, hne] }
  scalar_local _ _ _ _ := rfl
  set_local m₁ m₂ o v _ := by
    by_cases ho : o ∈ ds <;> simp [objects, ho]
  next m := findsNext_find? h (objects_stored ds m)

end simple_snmpd.snmp_server
