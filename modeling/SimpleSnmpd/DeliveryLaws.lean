-- What the network may do to datagrams: deliver them again, or in another
-- order. A binding of a SET is judged by what is stored at its own OID, so a
-- SET that comes again at once writes nothing new, and SETs of different
-- objects write the same in any order. The rate limit drops datagrams as the
-- network does: what counts is what gets past it.
import SimpleSnmpd.ClientIsolation
import SimpleSnmpd.ObjectLaws
import SimpleSnmpd.Simulations
import Mathlib.Data.List.Nodup

open simple_snmpd.snmp_packet write_logs ordered_stores simulations

namespace simple_snmpd.snmp_server

/-! ## What gets past the rate limit -/

/-- What comes from a client, whenever it comes. -/
structure Datagram where
  client_addr : SockaddrIn
  payload : List UInt8
deriving DecidableEq, Repr

section

variable {M S : Type} (k : Managers M S)

/-- The datagram, if the parser takes it and the rate limit lets it pass. -/
def let_through (s : Agent M S) : Received → Option Datagram
  | .error => none
  | .datagram now client_addr payload =>
    match parse (.bits 64) SNMPPacket.new (into_buffer payload) with
    | .ok () _ =>
      if (k.security.check_rate_limit s.security now (inet_ntoa client_addr.sin_addr)).1 then
        some { client_addr, payload }
      else none
    | _ => none

/-- What the parser and the rate limit let pass in a run. -/
def past_limit (s : Agent M S) (received : List Received) : List Datagram :=
  outputs (turn k) (let_through k) s received

end

/-- The datagram is a SET that names the OID. -/
def Datagram.names (d : Datagram) (o : OID) : Prop :=
  ∃ p, Takes d.payload p ∧ p.pdu_type = SNMP_PDU_SET_REQUEST ∧
    ∃ b ∈ p.variable_bindings, b.oid = o

/-- If it is a SET, it names each OID once. -/
def Datagram.NamesEachOnce (d : Datagram) : Prop :=
  ∀ p, Takes d.payload p → p.pdu_type = SNMP_PDU_SET_REQUEST →
    (p.variable_bindings.map (·.oid)).Nodup

/-! ## The other checks -/

section

variable {S : Type} (sm : SecurityManager S)

/-- The checks other than the rate limit say the same in the two states. -/
structure SameChecks (σ τ : S) : Prop where
  ip : ∀ a, sm.is_ip_allowed σ a = sm.is_ip_allowed τ a
  access : ∀ community a, sm.is_access_allowed σ community a = sm.is_access_allowed τ community a
  oid : ∀ community o, sm.is_oid_allowed σ community o = sm.is_oid_allowed τ community o
  write : ∀ community, sm.is_write_allowed σ community = sm.is_write_allowed τ community

/-- The rate limit counts for itself: it changes no other check. -/
def SecurityManager.KeepsChecks : Prop :=
  ∀ σ now a, SameChecks sm (security_after sm now a σ) σ

variable {sm} {σ τ υ : S}

theorem SameChecks.refl (σ : S) : SameChecks sm σ σ :=
  ⟨fun _ => rfl, fun _ _ => rfl, fun _ _ => rfl, fun _ => rfl⟩

theorem SameChecks.trans (h : SameChecks sm σ τ) (h' : SameChecks sm τ υ) :
    SameChecks sm σ υ where
  ip a := (h.ip a).trans (h'.ip a)
  access community a := (h.access community a).trans (h'.access community a)
  oid community o := (h.oid community o).trans (h'.oid community o)
  write community := (h.write community).trans (h'.write community)

end

/-! ## The bindings of a SET one by one -/

section

variable {M S : Type} {k : Managers M S} {security security' : S} {request : SNMPPacket}
  {m m' : M}

/-- A binding is accepted or not for what is stored at its OID. -/
theorem accepts_local (hk : k.mib.Indexed)
    (hsec : ∀ o, k.security.is_oid_allowed security request.community o =
      k.security.is_oid_allowed security' request.community o) {b : VariableBinding}
    (hv : k.mib.get_value m b.oid = k.mib.get_value m' b.oid) :
    Accepts k security request m b ↔ Accepts k security' request m' b := by
  rw [accepts_iff, accepts_iff]
  unfold refusal
  rw [hsec, hv, hk.scalar_local m m' b.oid hv, hk.set_local m m' b.oid (new_value b) hv]

/-- A turn leaves what is stored at the OIDs of other bindings. -/
theorem stored_turn_other (hk : k.mib.Indexed) {s : M × SNMPPacket} {b : VariableBinding} {o : OID}
    (ho : o ≠ b.oid) : stored k (set_turn k security request s b) o = stored k s o := by
  rw [stored_set_turn hk.lawful]
  by_cases ha : Accepts k security request s.1 b
  · rw [turnLog_accepted ha]
    exact put_other _ _ ho
  · rw [turnLog_refused ha, replay_nil]

/-- The loop writes the bindings that would be accepted alone. -/
theorem loop_of_nodup (hk : k.mib.Indexed) (bs : List VariableBinding)
    (h : (bs.map (·.oid)).Nodup) (s : M × SNMPPacket) :
    runLog (set_turn k security request) (turnLog k security request) s bs =
      (bs.filter fun b => Accepts k security request s.1 b).map writeOf := by
  induction bs generalizing s with
  | nil => rfl
  | cons b bs ih =>
    rw [List.map_cons, List.nodup_cons] at h
    have hrest : bs.filter (fun b' => Accepts k security request
        (set_turn k security request s b).1 b') =
          bs.filter fun b' => Accepts k security request s.1 b' := by
      refine List.filter_congr fun b' hb' => ?_
      have hne : b'.oid ≠ b.oid := fun he => h.1 (he ▸ List.mem_map_of_mem hb')
      rw [decide_eq_decide]
      exact accepts_local hk (fun _ => rfl) (stored_turn_other hk hne)
    rw [runLog, ih h.2, hrest]
    by_cases ha : Accepts k security request s.1 b
    · rw [turnLog_accepted ha, List.filter_cons_of_pos (by simpa using ha)]
      rfl
    · rw [turnLog_refused ha, List.filter_cons_of_neg (by simpa using ha)]
      rfl

theorem setLog_of_nodup (hk : k.mib.Indexed)
    (h : (request.variable_bindings.map (·.oid)).Nodup)
    (hw : k.security.is_write_allowed security request.community = true) :
    setLog k security request m =
      (request.variable_bindings.filter fun b => Accepts k security request m b).map writeOf := by
  rw [setLog_allowed hw, loop_of_nodup hk _ h]

/-- After a SET, the same SET writes only what is stored. -/
theorem setLog_again (hk : k.mib.Indexed)
    (h : (request.variable_bindings.map (·.oid)).Nodup)
    (hm : k.mib.get_value m' =
      replay (k.mib.get_value m) (setLog k security request m)) :
    ∀ w ∈ setLog k security request m', k.mib.get_value m' w.1 = some w.2 := by
  by_cases hw : k.security.is_write_allowed security request.community = true
  swap
  · rw [setLog_denied hw]
    exact fun w hw' => absurd hw' List.not_mem_nil
  have hnodup : ((setLog k security request m).map Prod.fst).Nodup := by
    refine ((setLog_sublist m).map Prod.fst).nodup ?_
    rw [List.map_map]
    exact h
  rw [setLog_of_nodup hk h hw]
  intro w hmem
  obtain ⟨b, hb, rfl⟩ := List.mem_map.mp hmem
  obtain ⟨hb, ha'⟩ := List.mem_filter.mp hb
  have ha : Accepts k security request m b := by
    by_contra hno
    have hkeep : k.mib.get_value m b.oid = k.mib.get_value m' b.oid := by
      rw [hm, replay_of_no_write]
      -- a write of this OID would be the write of this binding
      rw [setLog_of_nodup hk h hw]
      intro u hu he
      obtain ⟨c, hc, rfl⟩ := List.mem_map.mp hu
      obtain ⟨hc, hcaccepts⟩ := List.mem_filter.mp hc
      have hbc : c = b := List.inj_on_of_nodup_map h hc hb he
      exact hno (of_decide_eq_true (hbc ▸ hcaccepts))
    exact hno ((accepts_local hk (fun _ => rfl) hkeep).mpr (of_decide_eq_true ha'))
  have hlog : writeOf b ∈ setLog k security request m := by
    rw [setLog_of_nodup hk h hw]
    exact List.mem_map_of_mem (List.mem_filter.mpr ⟨hb, decide_eq_true ha⟩)
  rw [hm]
  exact replay_of_nodup _ hnodup hlog

/-- Stores that hold the same at the OIDs of some bindings are written alike
by their loop. -/
theorem loop_congr (hk : k.mib.Indexed)
    (hoid : ∀ o, k.security.is_oid_allowed security request.community o =
      k.security.is_oid_allowed security' request.community o) {low : OID → Prop}
    (bs : List VariableBinding) (hbs : ∀ b ∈ bs, low b.oid) {s s' : M × SNMPPacket}
    (hs : AgreeOn low (stored k s) (stored k s')) :
    runLog (set_turn k security request) (turnLog k security request) s bs =
      runLog (set_turn k security' request) (turnLog k security' request) s' bs := by
  induction bs generalizing s s' with
  | nil => rfl
  | cons b bs ih =>
    have haccepts : Accepts k security request s.1 b ↔ Accepts k security' request s'.1 b :=
      accepts_local hk hoid (hs b.oid (hbs b List.mem_cons_self))
    have hlog : turnLog k security request s b = turnLog k security' request s' b := by
      simp only [turnLog, haccepts]
    have hnext : AgreeOn low (stored k (set_turn k security request s b))
        (stored k (set_turn k security' request s' b)) := by
      rw [stored_set_turn hk.lawful, stored_set_turn hk.lawful, hlog]
      exact hs.replay _
    rw [runLog, runLog, hlog, ih (fun c hc => hbs c (List.mem_cons_of_mem _ hc)) hnext]

theorem setLog_congr (hk : k.mib.Indexed)
    (hoid : ∀ o, k.security.is_oid_allowed security request.community o =
      k.security.is_oid_allowed security' request.community o)
    (hwrite : k.security.is_write_allowed security request.community =
      k.security.is_write_allowed security' request.community) {low : OID → Prop}
    (hlow : ∀ b ∈ request.variable_bindings, low b.oid)
    (hm : AgreeOn low (k.mib.get_value m) (k.mib.get_value m')) :
    setLog k security request m = setLog k security' request m' := by
  have hs : AgreeOn low (stored k (m, set_response request))
    (stored k (m', set_response request)) := hm
  unfold setLog
  rw [hwrite, loop_congr hk hoid _ hlow hs]

end

/-! ## One datagram -/

section

variable {M S : Type} (k : Managers M S) (σ : S)

/-- A SET that the checks other than the rate limit let pass. -/
def MaySet (client_addr : SockaddrIn) (p : SNMPPacket) : Prop :=
  k.security.is_ip_allowed σ (inet_ntoa client_addr.sin_addr) = true ∧
    k.security.is_access_allowed σ p.community (inet_ntoa client_addr.sin_addr) = true ∧
    p.pdu_type = SNMP_PDU_SET_REQUEST

instance (client_addr : SockaddrIn) (p : SNMPPacket) : Decidable (MaySet k σ client_addr p) :=
  inferInstanceAs (Decidable (_ ∧ _ ∧ _))

/-- What a datagram that gets past the rate limit does to the MIB. -/
def deliver (m : M) (d : Datagram) : M :=
  match parse (.bits 64) SNMPPacket.new (into_buffer d.payload) with
  | .ok () p =>
    if MaySet k σ d.client_addr p then (process_set_request k σ m p (new_response p)).1 else m
  | _ => m

/-- What it writes. -/
def Datagram.log (d : Datagram) (m : M) : List (OID × MIBValue) :=
  match parse (.bits 64) SNMPPacket.new (into_buffer d.payload) with
  | .ok () p => if MaySet k σ d.client_addr p then setLog k σ p m else []
  | _ => []

/-- The agent is in step with a MIB that datagrams are delivered to. -/
def InStep (s : Agent M S) (m : M) : Prop :=
  SameChecks k.security s.security σ ∧ value_at k s = k.mib.get_value m

end

variable {M S : Type} {k : Managers M S} {σ : S} {s : Agent M S} {m m' : M} {d d' : Datagram}

theorem log_taken {p : SNMPPacket} (h : Takes d.payload p) :
    d.log k σ m = if MaySet k σ d.client_addr p then setLog k σ p m else [] := by
  unfold Takes at h
  simp only [Datagram.log, h]

theorem log_not_taken (h : ¬ ∃ p, Takes d.payload p) : d.log k σ m = [] := by
  unfold Datagram.log
  split
  · rename_i p hp
    exact absurd ⟨p, hp⟩ h
  · rfl

theorem get_value_deliver (hk : k.mib.Lawful) (m : M) (d : Datagram) :
    k.mib.get_value (deliver k σ m d) = replay (k.mib.get_value m) (d.log k σ m) := by
  unfold deliver Datagram.log
  split
  · split_ifs
    · exact get_value_set_request hk m
    · rw [replay_nil]
  · rw [replay_nil]

/-- A datagram writes the same to stores that hold the same at its OIDs. -/
theorem log_congr (hk : k.mib.Indexed)
    (h : AgreeOn d.names (k.mib.get_value m) (k.mib.get_value m')) :
    d.log k σ m = d.log k σ m' := by
  by_cases hp : ∃ p, Takes d.payload p
  swap
  · rw [log_not_taken hp, log_not_taken hp]
  obtain ⟨p, hp⟩ := hp
  rw [log_taken hp, log_taken hp]
  split_ifs with hset
  · exact setLog_congr hk (fun _ => rfl) rfl (fun b hb => ⟨p, hp, hset.2.2, b, hb, rfl⟩) h
  · rfl

/-- A datagram writes only at OIDs that it names. -/
theorem names_of_write {w : OID × MIBValue} (hw : w ∈ d.log k σ m) : d.names w.1 := by
  by_cases hp : ∃ p, Takes d.payload p
  swap
  · rw [log_not_taken hp] at hw
    cases hw
  obtain ⟨p, hp⟩ := hp
  rw [log_taken hp] at hw
  split_ifs at hw with hset
  · obtain ⟨b, hb, rfl⟩ := List.mem_map.mp ((setLog_sublist _).subset hw)
    exact ⟨p, hp, hset.2.2, b, hb, rfl⟩
  · cases hw

theorem deliver_congr (hk : k.mib.Indexed) (h : k.mib.get_value m = k.mib.get_value m') :
    k.mib.get_value (deliver k σ m d) = k.mib.get_value (deliver k σ m' d) := by
  have hlog : d.log k σ m = d.log k σ m' := log_congr hk fun o _ => congrFun h o
  rw [get_value_deliver hk.lawful, get_value_deliver hk.lawful, h, hlog]

/-- Datagrams that name different OIDs write the same in either order. -/
theorem deliver_comm (hk : k.mib.Indexed) (h : ∀ o, d.names o → ¬ d'.names o) (m : M) :
    k.mib.get_value (deliver k σ (deliver k σ m d) d') =
      k.mib.get_value (deliver k σ (deliver k σ m d') d) := by
  -- what one of them writes is not where the other one looks
  have hafter : ∀ d d' : Datagram, (∀ o, d.names o → ¬ d'.names o) →
      d'.log k σ (deliver k σ m d) = d'.log k σ m := by
    intro d d' h
    refine log_congr hk fun o ho => ?_
    rw [get_value_deliver hk.lawful]
    exact replay_of_no_write fun w hw he => h o (he ▸ names_of_write hw) ho
  have h' : ∀ o, d'.names o → ¬ d.names o := fun o ho' ho => h o ho ho'
  rw [get_value_deliver hk.lawful, get_value_deliver hk.lawful (deliver k σ m d'),
    hafter d d' h, hafter d' d h', get_value_deliver hk.lawful, get_value_deliver hk.lawful]
  refine replay_comm _ fun w hw w' hw' he => ?_
  exact h w.1 (names_of_write hw) (he ▸ names_of_write hw')

/-- A datagram that comes again at once writes nothing new. -/
theorem deliver_again (hk : k.mib.Indexed) (hd : d.NamesEachOnce) (m : M) :
    k.mib.get_value (deliver k σ (deliver k σ m d) d) = k.mib.get_value (deliver k σ m d) := by
  have hfirst : k.mib.get_value (deliver k σ m d) = replay (k.mib.get_value m) (d.log k σ m) :=
    get_value_deliver hk.lawful m d
  rw [get_value_deliver hk.lawful (deliver k σ m d)]
  apply replay_of_stored
  by_cases hp : ∃ p, Takes d.payload p
  swap
  · rw [log_not_taken hp]
    exact fun w hw => absurd hw List.not_mem_nil
  obtain ⟨p, hp⟩ := hp
  rw [log_taken hp] at hfirst ⊢
  split_ifs at hfirst ⊢ with hset
  · exact setLog_again hk (hd p hp hset.2.2) hfirst
  · exact fun w hw => absurd hw List.not_mem_nil

/-! ## A run -/

theorem let_through_taken {now : Nat} {client_addr : SockaddrIn} {payload : List UInt8}
    {p : SNMPPacket} (h : Takes payload p) :
    let_through k s (.datagram now client_addr payload) =
      if (k.security.check_rate_limit s.security now (inet_ntoa client_addr.sin_addr)).1 then
        some ⟨client_addr, payload⟩
      else none := by
  unfold Takes at h
  simp only [let_through, h]

theorem let_through_not_taken {now : Nat} {client_addr : SockaddrIn} {payload : List UInt8}
    (h : ¬ ∃ p, Takes payload p) : let_through k s (.datagram now client_addr payload) = none := by
  simp only [let_through]
  split
  · rename_i p hp
    exact absurd ⟨p, hp⟩ h
  · rfl

theorem sameChecks_turn (hs : k.security.KeepsChecks) (s : Agent M S) (r : Received) :
    SameChecks k.security (turn k s r).security s.security := by
  cases r with
  | error => exact .refl _
  | datagram now client_addr payload =>
    unfold turn
    rcases server_turn_cases k s now client_addr payload with hno | ⟨p, -, hrefused | hanswered⟩
    · rw [hno]
      exact .refl _
    · rw [hrefused]
      exact hs _ _ _
    · rw [hanswered]
      exact hs _ _ _

/-- A turn writes what its datagram does, if the rate limit lets it pass,
and nothing otherwise. -/
theorem receivedLog_let_through (hk : k.mib.Indexed) (hs : k.security.KeepsChecks)
    (hchecks : SameChecks k.security s.security σ) (hm : value_at k s = k.mib.get_value m)
    (r : Received) :
    receivedLog k s r = ((let_through k s r).map fun d => d.log k σ m).getD [] := by
  cases r with
  | error => rfl
  | datagram now client_addr payload =>
    by_cases hp : ∃ p, Takes payload p
    swap
    · rw [receivedLog_rejected hp, let_through_not_taken hp]
      rfl
    obtain ⟨p, hp⟩ := hp
    rw [receivedLog_parsed hp, let_through_taken hp]
    by_cases hrate : (k.security.check_rate_limit s.security now
      (inet_ntoa client_addr.sin_addr)).1 = true
    swap
    · rw [if_neg hrate]
      exact if_neg fun h => hrate h.1.in_rate
    rw [if_pos hrate, Option.map_some, Option.getD_some, log_taken hp]
    -- the checks are made after the rate limit has counted the datagram
    have hafter := (hs s.security now (inet_ntoa client_addr.sin_addr)).trans hchecks
    have hmay : (Admits k.security now (inet_ntoa client_addr.sin_addr) p.community s.security ∧
        p.pdu_type = SNMP_PDU_SET_REQUEST) ↔ MaySet k σ client_addr p := by
      unfold MaySet
      rw [← hafter.ip, ← hafter.access]
      exact ⟨fun h => ⟨h.1.ip_allowed, h.1.access_allowed, h.2⟩,
        fun h => ⟨⟨hrate, h.1, h.2.1⟩, h.2.2⟩⟩
    have hstores : AgreeOn (fun _ => True) (k.mib.get_value s.mib) (k.mib.get_value m) :=
      fun o _ => congrFun hm o
    exact if_congr hmay (setLog_congr hk (hafter.oid p.community) (hafter.write p.community)
      (fun _ _ => trivial) hstores) rfl

theorem inStep_turn (hk : k.mib.Indexed) (hs : k.security.KeepsChecks) (s : Agent M S) (m : M)
    (r : Received) (h : InStep k σ s m) :
    InStep k σ (turn k s r) ((let_through k s r).toList.foldl (deliver k σ) m) := by
  obtain ⟨hchecks, hm⟩ := h
  refine ⟨(sameChecks_turn hs s r).trans hchecks, ?_⟩
  rw [value_at_turn hk.lawful, receivedLog_let_through hk hs hchecks hm, hm]
  cases let_through k s r with
  | none => exact replay_nil _
  | some d => exact (get_value_deliver hk.lawful m d).symm

/-- A run leaves in the MIB what the datagrams leave that get past the rate
limit. -/
theorem value_at_past_limit (hk : k.mib.Indexed) (hs : k.security.KeepsChecks) (s : Agent M S)
    (received : List Received) :
    value_at k (server_loop k s received) =
      k.mib.get_value ((past_limit k s received).foldl (deliver k s.security) s.mib) := by
  have hstart : InStep k s.security s s.mib := ⟨.refl _, rfl⟩
  exact (outputs_run (inStep_turn hk hs) hstart received).2

/-! ## The laws -/

/-- A network that delivers datagrams more than once in a row changes
nothing in the MIB, whatever the rate limit drops, as long as each SET names
each OID once. -/
theorem a_datagram_that_comes_again_writes_nothing_new (k : Managers M S) (hk : k.mib.Indexed)
    (hs : k.security.KeepsChecks) (s : Agent M S) (sent received : List Received)
    (h : Repeats (past_limit k s sent) (past_limit k s received))
    (hsent : ∀ d ∈ past_limit k s sent, d.NamesEachOnce) :
    value_at k (server_loop k s received) = value_at k (server_loop k s sent) := by
  rw [value_at_past_limit hk hs, value_at_past_limit hk hs]
  refine (h.run (fun m m' d hm => ?_) (fun d hd m => ?_) s.mib).symm
  · exact deliver_congr hk hm
  · exact deliver_again hk (hsent d hd) m

/-- Each client may have two requests, and may write. -/
def two_writes : SecurityManager (List UInt8 → Nat) :=
  { two_each with is_write_allowed := fun _ _ => true }

theorem two_writes_keeps_checks : two_writes.KeepsChecks := fun _ _ _ =>
  ⟨fun _ => rfl, fun _ _ => rfl, fun _ _ => rfl, fun _ => rfl⟩

/-- An agent with the objects 43 and 44, and that limit. -/
def two_writes_managers : Managers (OID → MIBValue) (List UInt8 → Nat) where
  mib := objects [[0x2b], [0x2c]]
  security := two_writes
  oid_to_string := id

theorem two_writes_indexed : two_writes_managers.mib.Indexed := objects_indexed (by decide)

def two_writes_agent : Agent (OID → MIBValue) (List UInt8 → Nat) :=
  ⟨fun _ => ⟨⟨0x04⟩, [0x00]⟩, fun _ => 0⟩

/-- The packet of `setOne`, or of a SET like it. -/
def setPacket (o : UInt8) : SNMPPacket where
  version := 0x01
  community := [0x70]
  pdu_type := 0xA3
  request_id := 5
  error_status := 0
  error_index := 0
  variable_bindings := [⟨[o], 0x04, [0x01]⟩]

/-- The datagram of such a SET. -/
def setDatagram (o : UInt8) : Datagram where
  client_addr := ⟨(127, 0, 0, 1), 40000⟩
  payload := [0x30, 0x1b, 0x02, 0x01, 0x01, 0x04, 0x01, 0x70, 0xA3, 0x13, 0x02, 0x01, 0x05,
    0x02, 0x01, 0x00, 0x02, 0x01, 0x00, 0x30, 0x08, 0x30, 0x06, 0x06, 0x01, o,
    0x04, 0x01, 0x01]

/-- A SET that comes three times, which is once too often for the limit. -/
theorem a_set_that_comes_three_times_is_stored_once :
    value_at two_writes_managers
        (server_loop two_writes_managers two_writes_agent [setOne, setOne, setOne]) =
      value_at two_writes_managers
        (server_loop two_writes_managers two_writes_agent [setOne]) := by
  have hsent : past_limit two_writes_managers two_writes_agent [setOne] = [setDatagram 0x2b] := by
    decide
  have hreceived : past_limit two_writes_managers two_writes_agent [setOne, setOne, setOne] =
      [setDatagram 0x2b, setDatagram 0x2b] := by
    decide
  refine a_datagram_that_comes_again_writes_nothing_new two_writes_managers
    two_writes_indexed two_writes_keeps_checks two_writes_agent [setOne]
    [setOne, setOne, setOne] ?_ fun d hd p hp _ => ?_
  · rw [hsent, hreceived]
    exact .again (.once .nil)
  · rw [hsent, List.mem_singleton] at hd
    rw [hd] at hp
    rw [hp.unique (by decide : Takes _ (setPacket 0x2b))]
    exact List.nodup_singleton _

/-- A network that delivers datagrams in another order changes nothing in the
MIB, whatever the rate limit drops, as long as no two of its SETs name one
OID. -/
theorem sets_of_different_objects_may_come_in_any_order (k : Managers M S) (hk : k.mib.Indexed)
    (hs : k.security.KeepsChecks) (s : Agent M S) (sent received : List Received)
    (h : (past_limit k s sent).Perm (past_limit k s received))
    (hsent : ∀ d ∈ past_limit k s sent, ∀ d' ∈ past_limit k s sent, d ≠ d' →
      ∀ o, d.names o → ¬ d'.names o) :
    value_at k (server_loop k s received) = value_at k (server_loop k s sent) := by
  rw [value_at_past_limit hk hs, value_at_past_limit hk hs]
  refine (view_runs_perm (fun m m' d hm => ?_) h (fun d hd d' hd' m => ?_) s.mib).symm
  · exact deliver_congr hk hm
  · by_cases hne : d = d'
    · rw [hne]
    · exact deliver_comm hk (hsent d hd d' hd' hne) m

/-- A SET of the object 44. -/
def setTwo : Received := .datagram 0 (setDatagram 0x2c).client_addr (setDatagram 0x2c).payload

theorem names_setDatagram {o : OID} {x : UInt8} (h : Takes (setDatagram x).payload (setPacket x))
    (ho : (setDatagram x).names o) : o = [x] := by
  obtain ⟨p, hp, -, b, hb, rfl⟩ := ho
  rw [hp.unique h] at hb
  rw [List.mem_singleton.mp hb]

/-- The SETs of the two objects. -/
theorem two_sets_may_come_in_either_order :
    value_at two_writes_managers
        (server_loop two_writes_managers two_writes_agent [setTwo, setOne]) =
      value_at two_writes_managers
        (server_loop two_writes_managers two_writes_agent [setOne, setTwo]) := by
  have hsent : past_limit two_writes_managers two_writes_agent [setOne, setTwo] =
      [setDatagram 0x2b, setDatagram 0x2c] := by
    decide
  have hreceived : past_limit two_writes_managers two_writes_agent [setTwo, setOne] =
      [setDatagram 0x2c, setDatagram 0x2b] := by
    decide
  refine sets_of_different_objects_may_come_in_any_order two_writes_managers
    two_writes_indexed two_writes_keeps_checks two_writes_agent [setOne, setTwo]
    [setTwo, setOne] ?_ fun d hd d' hd' hne o ho ho' => ?_
  · rw [hsent, hreceived]
    exact List.Perm.swap _ _ _
  rw [hsent] at hd hd'
  simp only [List.mem_cons, List.not_mem_nil, or_false] at hd hd'
  have hone : ∀ {o}, (setDatagram 0x2b).names o → o = [0x2b] := fun h =>
    names_setDatagram (by decide) h
  have htwo : ∀ {o}, (setDatagram 0x2c).names o → o = [0x2c] := fun h =>
    names_setDatagram (by decide) h
  rcases hd with rfl | rfl <;> rcases hd' with rfl | rfl
  · exact hne rfl
  · cases (hone ho).symm.trans (htwo ho')
  · cases (htwo ho).symm.trans (hone ho')
  · exact hne rfl

end simple_snmpd.snmp_server
