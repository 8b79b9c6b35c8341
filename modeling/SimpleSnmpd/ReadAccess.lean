-- What a community learns of the objects that it may not access. A SET
-- checks each OID; a GET, a GET-NEXT and a GET-BULK check none, so their
-- answers show denied objects, and nothing else does.
import SimpleSnmpd.AgentSpecs
import SimpleSnmpd.ManagerLaws
import SimpleSnmpd.OrderedStores
import SimpleSnmpd.SerializerLaws
import SimpleSnmpd.SetLaws
import Mathlib.Data.List.Forall2

open simple_snmpd.snmp_packet write_logs ordered_stores

namespace simple_snmpd.snmp_server

/-! ## Two stores -/

/-- What the manager says of an OID depends on what is stored there alone,
and its successor of an OID is the least stored one above it. -/
structure MIBManager.Indexed {M : Type} (mib : MIBManager M) : Prop where
  lawful : mib.Lawful
  scalar_local : ∀ m₁ m₂ o, mib.get_value m₁ o = mib.get_value m₂ o →
    mib.is_scalar m₁ o = mib.is_scalar m₂ o
  set_local : ∀ m₁ m₂ o v, mib.get_value m₁ o = mib.get_value m₂ o →
    (mib.set_value m₁ o v).1 = (mib.set_value m₂ o v).1
  next : ∀ m, FindsNext (mib.get_next_oid m) (mib.get_value m)

theorem one_object_indexed (d : OID) : (one_object d).Indexed where
  lawful := one_object_lawful d
  scalar_local _ _ _ _ := rfl
  set_local m₁ m₂ o v _ := by
    by_cases h : o = d <;> simp [one_object, h]
  next := one_object_next d

section

variable {S : Type} (sm : SecurityManager S) (oid_to_string : OID → List UInt8)

/-- The OIDs that the community may access. -/
def MayAccess (security : S) (community : List UInt8) (o : OID) : Prop :=
  sm.is_oid_allowed security community (oid_to_string o) = true

variable (now : Nat) (client_address : List UInt8) (security : S) (request : SNMPPacket)

/-- The OIDs that the community of the request may access when the request
is handled. -/
def Allowed : OID → Prop :=
  MayAccess sm oid_to_string (security_after sm now client_address security) request.community

/-- The bytes that are sent in answer to the request. -/
def reply {M : Type} (mib : MIBManager M) (m : M) : Option (List UInt8) :=
  (process_snmp_request ⟨mib, sm, oid_to_string⟩ now client_address request ⟨m, security⟩).2.bind
    send_response

/-- Two stores that agree on the allowed OIDs are answered with the same
bytes, whatever the manager. -/
def Confidential : Prop :=
  ∀ (M : Type) (mib : MIBManager M), mib.Indexed → ∀ m₁ m₂,
    AgreeOn (Allowed sm oid_to_string now client_address security request)
      (mib.get_value m₁) (mib.get_value m₂) →
    reply sm oid_to_string now client_address security request mib m₁ =
      reply sm oid_to_string now client_address security request mib m₂

/-- The request asks for nothing that is denied: a GET names allowed OIDs,
and all OIDs above those of a GET-NEXT or a GET-BULK are allowed. -/
def AsksAllowed : Prop :=
  (request.pdu_type = SNMP_PDU_GET_REQUEST → ∀ b ∈ request.variable_bindings,
    Allowed sm oid_to_string now client_address security request b.oid) ∧
  (AsksNext request → ∀ b ∈ request.variable_bindings, ∀ o, b.oid < o →
    Allowed sm oid_to_string now client_address security request o)

end

/-! ## Agreeing stores are answered alike -/

section

variable {M S : Type} {k : Managers M S} {security : S} {request : SNMPPacket} {m₁ m₂ : M}

theorem get_request_congr (response : SNMPPacket)
    (h : ∀ b ∈ request.variable_bindings, k.mib.get_value m₁ b.oid = k.mib.get_value m₂ b.oid) :
    process_get_request k m₁ request response = process_get_request k m₂ request response := by
  apply List.foldl_ext
  intro response b hb
  simp only [get_turn, h b hb]

theorem next_binding_congr (hk : k.mib.Indexed) {low : OID → Prop}
    (h : AgreeOn low (k.mib.get_value m₁) (k.mib.get_value m₂)) {o : OID}
    (ho : ∀ x, o < x → low x) : next_binding k m₁ o = next_binding k m₂ o := by
  have hnext := (hk.next m₁).congr (hk.next m₂) h ho
  have hfound := hk.next m₂ o
  unfold next_binding
  rw [hnext]
  cases hn : k.mib.get_next_oid m₂ o with
  | none => rfl
  | some n =>
    rw [hn] at hfound
    simp only [h n (ho n hfound.above)]

theorem next_request_congr (hk : k.mib.Indexed) {low : OID → Prop}
    (h : AgreeOn low (k.mib.get_value m₁) (k.mib.get_value m₂)) (response : SNMPPacket)
    (ho : ∀ b ∈ request.variable_bindings, ∀ x, b.oid < x → low x) :
    process_get_next_request k m₁ request response =
      process_get_next_request k m₂ request response := by
  apply List.foldl_ext
  intro response b hb
  simp only [next_turn, next_binding_congr hk h (ho b hb)]

/-- A turn of a SET refuses a binding on both stores, or on none. -/
theorem refusal_congr (hk : k.mib.Indexed) (b : VariableBinding)
    (h : AgreeOn (MayAccess k.security k.oid_to_string security request.community)
      (k.mib.get_value m₁) (k.mib.get_value m₂)) :
    refusal k security request m₁ b = refusal k security request m₂ b := by
  unfold refusal
  by_cases ho : k.security.is_oid_allowed security request.community (k.oid_to_string b.oid) = true
  · have hv := h b.oid ho
    rw [hv, hk.scalar_local m₁ m₂ b.oid hv, hk.set_local m₁ m₂ b.oid (new_value b) hv]
  · simp [ho]

/-- One turn of a SET on agreeing stores: the responses stay the same, and
the stores still agree. -/
theorem set_turn_agrees (hk : k.mib.Indexed) (response : SNMPPacket) (b : VariableBinding)
    (h : AgreeOn (MayAccess k.security k.oid_to_string security request.community)
      (k.mib.get_value m₁) (k.mib.get_value m₂)) :
    (set_turn k security request (m₁, response) b).2 =
        (set_turn k security request (m₂, response) b).2 ∧
      AgreeOn (MayAccess k.security k.oid_to_string security request.community)
        (k.mib.get_value (set_turn k security request (m₁, response) b).1)
        (k.mib.get_value (set_turn k security request (m₂, response) b).1) := by
  have hrefusal := refusal_congr hk b h
  have haccepts : Accepts k security request m₁ b ↔ Accepts k security request m₂ b := by
    rw [accepts_iff, accepts_iff, hrefusal]
  have hlog : turnLog k security request (m₁, response) b =
      turnLog k security request (m₂, response) b := by
    simp only [turnLog, haccepts]
  constructor
  · rw [set_turn_response, set_turn_response, hrefusal]
  · have h₁ := @stored_set_turn _ _ k security request hk.lawful (m₁, response) b
    have h₂ := @stored_set_turn _ _ k security request hk.lawful (m₂, response) b
    unfold stored at h₁ h₂
    rw [h₁, h₂, hlog]
    exact h.replay _

/-- The loop of a SET on agreeing stores ends with the same response. -/
theorem set_loop_congr (hk : k.mib.Indexed) (response : SNMPPacket) (bs : List VariableBinding)
    (h : AgreeOn (MayAccess k.security k.oid_to_string security request.community)
      (k.mib.get_value m₁) (k.mib.get_value m₂)) :
    (bs.foldl (set_turn k security request) (m₁, response)).2 =
      (bs.foldl (set_turn k security request) (m₂, response)).2 := by
  induction bs generalizing m₁ m₂ response with
  | nil => rfl
  | cons b bs ih =>
    obtain ⟨hr, hagree⟩ := set_turn_agrees hk response b h
    rw [List.foldl_cons, List.foldl_cons,
      ← Prod.mk.eta (p := set_turn k security request (m₂, response) b), ← hr]
    exact ih _ hagree

theorem set_request_congr (hk : k.mib.Indexed) (response : SNMPPacket)
    (h : AgreeOn (MayAccess k.security k.oid_to_string security request.community)
      (k.mib.get_value m₁) (k.mib.get_value m₂)) :
    (process_set_request k security m₁ request response).2 =
      (process_set_request k security m₂ request response).2 := by
  unfold process_set_request
  split_ifs
  · rfl
  · exact set_loop_congr hk _ _ h

/-- A request that asks for nothing denied is answered alike. -/
theorem dispatch_congr (hk : k.mib.Indexed) {response : SNMPPacket}
    (h : AgreeOn (MayAccess k.security k.oid_to_string security request.community)
      (k.mib.get_value m₁) (k.mib.get_value m₂))
    (hget : request.pdu_type = SNMP_PDU_GET_REQUEST → ∀ b ∈ request.variable_bindings,
      MayAccess k.security k.oid_to_string security request.community b.oid)
    (hnext : AsksNext request → ∀ b ∈ request.variable_bindings, ∀ o, b.oid < o →
      MayAccess k.security k.oid_to_string security request.community o) :
    (dispatch k security m₁ request response).2 = (dispatch k security m₂ request response).2 := by
  by_cases h1 : request.pdu_type = SNMP_PDU_GET_REQUEST
  · rw [dispatch_get h1, dispatch_get h1]
    exact get_request_congr response fun b hb => h b.oid (hget h1 b hb)
  by_cases h2 : AsksNext request
  · rw [dispatch_next h2, dispatch_next h2]
    exact next_request_congr hk h response (hnext h2)
  by_cases h3 : request.pdu_type = SNMP_PDU_SET_REQUEST
  · rw [dispatch_set h3, dispatch_set h3]
    exact set_request_congr hk response h
  · exact dispatch_other h1 h2 h3

end

/-! ## A denied object shows -/

/-- Two values of one size and of two types. -/
def anInteger : MIBValue := ⟨⟨0x02⟩, []⟩
def aString : MIBValue := ⟨⟨0x04⟩, []⟩

/-- Answers of one shape that are sent as the same bytes are the same. -/
theorem answers_eq_of_serialize {p q : SNMPPacket} {bs : List VariableBinding}
    {f g : VariableBinding → VariableBinding} (hp : p.variable_bindings = bs.map f)
    (hq : q.variable_bindings = bs.map g) (hshape : ∀ b, SameShape (f b) (g b))
    (he : serialize p = serialize q) : ∀ b ∈ bs, f b = g b := by
  have hall : List.Forall₂ SameShape p.variable_bindings q.variable_bindings := by
    rw [hp, hq, List.forall₂_map_left_iff, List.forall₂_map_right_iff, List.forall₂_same]
    exact fun b _ => hshape b
  have heq := bindings_eq_of_serialize hall he
  rw [hp, hq] at heq
  exact List.map_inj_left.mp heq

/-- The binding shows the value of the one object, or nothing. -/
def shownIf (c : Prop) [Decidable c] (d o : OID) (v : MIBValue) : VariableBinding :=
  if c then value_binding d v else null_binding o

theorem shownIf_shape (c : Prop) [Decidable c] (d o : OID) :
    SameShape (shownIf c d o anInteger) (shownIf c d o aString) := by
  unfold shownIf
  split_ifs <;> exact ⟨rfl, rfl⟩

/-- What shows the value tells the two values apart. -/
theorem shownIf_ne {c : Prop} [Decidable c] {d o : OID} (h : c) :
    shownIf c d o anInteger ≠ shownIf c d o aString := by
  unfold shownIf
  rw [if_pos h, if_pos h]
  intro he
  have htype : anInteger.type.toOctet = aString.type.toOctet :=
    congrArg VariableBinding.value_type he
  revert htype
  decide

section

variable {S : Type} {sm : SecurityManager S} {oid_to_string : OID → List UInt8} {now : Nat}
  {client_address : List UInt8} {security : S} {request : SNMPPacket}

theorem get_binding_one_object (d o : OID) (v : MIBValue) :
    get_binding ⟨one_object d, sm, oid_to_string⟩ v o = shownIf (o = d) d o v := by
  by_cases h : o = d <;> simp [get_binding, one_object, shownIf, h]

theorem next_binding_one_object (d o : OID) (v : MIBValue) :
    next_binding ⟨one_object d, sm, oid_to_string⟩ v o = shownIf (o < d) d o v := by
  by_cases h : o < d <;> simp [next_binding, one_object, shownIf, h]

theorem reply_admitted {M : Type} {mib : MIBManager M} {m : M}
    (h : Admits sm now client_address request.community security) :
    reply sm oid_to_string now client_address security request mib m =
      serialize (dispatch ⟨mib, sm, oid_to_string⟩ (security_after sm now client_address security)
        m request (new_response request)).2 := by
  unfold reply
  rw [process_snmp_request_admitted h]
  rfl

/-- Two MIBs of one denied object agree on what is allowed. -/
theorem denied_agree {low : OID → Prop} {d : OID} (hd : ¬ low d) (v w : MIBValue) :
    AgreeOn low ((one_object d).get_value v) ((one_object d).get_value w) := by
  intro o ho
  have hne : o ≠ d := fun he => hd (he ▸ ho)
  simp [one_object, hne]

theorem get_needs_access (h : Confidential sm oid_to_string now client_address security request)
    (hpass : Admits sm now client_address request.community security)
    (hget : request.pdu_type = SNMP_PDU_GET_REQUEST) {b : VariableBinding}
    (hb : b ∈ request.variable_bindings) :
    Allowed sm oid_to_string now client_address security request b.oid := by
  by_contra hd
  have he := h MIBValue (one_object b.oid) (one_object_indexed _) anInteger aString
    (denied_agree hd _ _)
  rw [reply_admitted hpass, reply_admitted hpass, dispatch_get hget, dispatch_get hget] at he
  have hsame := answers_eq_of_serialize (get_bindings _ _ _) (get_bindings _ _ _)
    (fun x => by rw [get_binding_one_object, get_binding_one_object]; exact shownIf_shape _ _ _)
    he b hb
  rw [get_binding_one_object, get_binding_one_object] at hsame
  exact shownIf_ne rfl hsame

theorem next_needs_access (h : Confidential sm oid_to_string now client_address security request)
    (hpass : Admits sm now client_address request.community security)
    (hnext : AsksNext request) {b : VariableBinding} (hb : b ∈ request.variable_bindings) {o : OID}
    (ho : b.oid < o) : Allowed sm oid_to_string now client_address security request o := by
  by_contra hd
  have he := h MIBValue (one_object o) (one_object_indexed _) anInteger aString
    (denied_agree hd _ _)
  rw [reply_admitted hpass, reply_admitted hpass, dispatch_next hnext, dispatch_next hnext] at he
  have hsame := answers_eq_of_serialize (next_bindings _ _ _) (next_bindings _ _ _)
    (fun x => by rw [next_binding_one_object, next_binding_one_object]; exact shownIf_shape _ _ _)
    he b hb
  rw [next_binding_one_object, next_binding_one_object] at hsame
  exact shownIf_ne ho hsame

/-! ## The law -/

/-- The answers to a request hide the denied objects exactly when a check
refuses the request, or it asks for nothing that is denied. -/
theorem answers_hide_denied_objects_iff_the_request_asks_for_none (sm : SecurityManager S)
    (oid_to_string : OID → List UInt8) (now : Nat) (client_address : List UInt8) (security : S)
    (request : SNMPPacket) :
    Confidential sm oid_to_string now client_address security request ↔
      (Admits sm now client_address request.community security →
        AsksAllowed sm oid_to_string now client_address security request) := by
  constructor
  · intro h hpass
    exact ⟨fun hget b hb => get_needs_access h hpass hget hb,
      fun hnext b hb o ho => next_needs_access h hpass hnext hb ho⟩
  · intro h M mib hmib m₁ m₂ hagree
    by_cases hpass : Admits sm now client_address request.community security
    · obtain ⟨hget, hnext⟩ := h hpass
      rw [reply_admitted hpass, reply_admitted hpass]
      exact congrArg serialize
        (@dispatch_congr _ _ ⟨mib, sm, oid_to_string⟩ _ _ _ _ hmib _ hagree hget hnext)
    · rw [reply, reply, process_snmp_request_refused hpass, process_snmp_request_refused hpass]

/-- A security manager that admits everyone, and denies every OID. -/
def closed_security : SecurityManager Unit :=
  { open_security with is_oid_allowed := fun _ _ _ => false }

/-- A GET of a denied object shows its value. -/
theorem a_denied_object_is_read :
    ¬ ∀ (S : Type) (sm : SecurityManager S) (oid_to_string : OID → List UInt8) (now : Nat)
      (client_address : List UInt8) (security : S) (request : SNMPPacket),
      Confidential sm oid_to_string now client_address security request := by
  intro h
  have he := h Unit closed_security id 0 [] ()
    { SNMPPacket.new with variable_bindings := [⟨[0x2b], 0x05, []⟩] }
    MIBValue (one_object [0x2b]) (one_object_indexed _) anInteger aString
    (denied_agree Bool.false_ne_true _ _)
  revert he
  decide

end

end simple_snmpd.snmp_server
