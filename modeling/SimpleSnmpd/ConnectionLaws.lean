-- Laws of connections. A descriptor is used until it is closed, once and for
-- all. A connection is idle for as long as nothing succeeds on it. A part of
-- a response counts as sent, and what its receiver takes of it is less.
import SimpleSnmpd.ConnectionModel
import SimpleSnmpd.DatagramLaws
import SimpleSnmpd.Registers

open routines simple_snmpd.snmp_packet simple_snmpd.snmp_server simple_snmpd.logger write_logs
  registers

namespace simple_snmpd.snmp_connection

/-! ## What a call does -/

/-- The use sends or receives. -/
def IsTraffic (use : Use) : Prop := use = .received ∨ ∃ bytes, use = .sent bytes

/-- What every call but `close` keeps, and what it uses. -/
structure Keeps (c : SNMPConnection) (done : SNMPConnection × List (Int × Use)) : Prop where
  socket_fd : done.1.socket_fd = c.socket_fd
  connected : done.1.connected = true → c.connected = true
  uses : ∀ u ∈ done.2, u.1 = c.socket_fd ∧ u.2 ≠ .closed
  traffic : ∀ u ∈ done.2, IsTraffic u.2 → c.connected = true

theorem send_response_keeps (bytes_sent now : Int) (packet : SNMPPacket) (c : SNMPConnection) :
    Keeps c (called c (.sends bytes_sent now packet)) := by
  simp only [called, send_response, serialize_eq]
  cases hc : c.connected with
  | false => exact ⟨rfl, by simp [hc], by simp, by simp⟩
  | true =>
    simp only [Bool.not_true, Bool.false_eq_true, if_false]
    split_ifs <;> exact ⟨rfl, fun _ => hc, by simp, fun _ _ _ => hc⟩

theorem receive_request_keeps (brought : Option (List UInt8)) (now : Int) (packet : SNMPPacket)
    (c : SNMPConnection) : Keeps c (called c (.receives brought now packet)) := by
  simp only [called, receive_request]
  cases hc : c.connected with
  | false => exact ⟨rfl, by simp [hc], by simp, by simp⟩
  | true =>
    have hused : ∀ u ∈ [(c.socket_fd, Use.received)], u.1 = c.socket_fd ∧ u.2 ≠ .closed := by simp
    simp only [Bool.not_true, Bool.false_eq_true, if_false]
    cases brought with
    | none => exact ⟨rfl, fun _ => hc, hused, fun _ _ _ => hc⟩
    | some bytes =>
      simp only
      split_ifs with hempty
      · exact ⟨rfl, fun _ => hc, hused, fun _ _ _ => hc⟩
      · split <;> exact ⟨rfl, fun _ => hc, hused, fun _ _ _ => hc⟩

theorem set_non_blocking_keeps (flags : Option UInt32) (non_blocking : Bool)
    (c : SNMPConnection) : Keeps c (called c (.sets_non_blocking flags non_blocking)) := by
  refine ⟨rfl, id, ?_, ?_⟩ <;> simp only [called, set_non_blocking] <;> split_ifs <;>
    cases flags <;> simp [IsTraffic]

theorem set_timeout_keeps (receives sends : Int) (timeout_seconds : UInt32) (c : SNMPConnection) :
    Keeps c (called c (.sets_timeout receives sends timeout_seconds)) := by
  refine ⟨rfl, id, ?_, ?_⟩ <;> simp only [called, set_timeout] <;> split_ifs <;>
    simp [IsTraffic]

/-- A call closes the connection, or it keeps the descriptor. -/
theorem called_cases (c : SNMPConnection) (call : Call) :
    call = .closes ∨ Keeps c (called c call) := by
  cases call with
  | sends bytes_sent now packet => exact Or.inr (send_response_keeps bytes_sent now packet c)
  | receives brought now packet => exact Or.inr (receive_request_keeps brought now packet c)
  | closes => exact Or.inl rfl
  | sets_non_blocking flags non_blocking =>
    exact Or.inr (set_non_blocking_keeps flags non_blocking c)
  | sets_timeout receives sends timeout_seconds =>
    exact Or.inr (set_timeout_keeps receives sends timeout_seconds c)

/-! ## The descriptor -/

/-- The connection has no descriptor, and no peer. -/
def IsOver (c : SNMPConnection) : Prop := c.socket_fd = -1 ∧ c.connected = false

theorem close_over (c : SNMPConnection) : IsOver (close c).1 := by
  unfold close
  split_ifs with h
  · exact ⟨rfl, rfl⟩
  · exact ⟨not_not.mp h, rfl⟩

/-- After the end, a call does nothing. -/
theorem called_of_over {c : SNMPConnection} (h : IsOver c) (call : Call) :
    IsOver (called c call).1 ∧ (called c call).2 = [] := by
  obtain ⟨hfd, hconnected⟩ := h
  cases call with
  | sends bytes_sent now packet => simp [called, send_response, hconnected, IsOver, hfd]
  | receives brought now packet => simp [called, receive_request, hconnected, IsOver, hfd]
  | closes => exact ⟨close_over c, by simp [called, close, hfd]⟩
  | sets_non_blocking flags non_blocking =>
    exact ⟨⟨hfd, hconnected⟩, by simp [called, set_non_blocking, hfd]⟩
  | sets_timeout receives sends timeout_seconds =>
    exact ⟨⟨hfd, hconnected⟩, by simp [called, set_timeout, hfd]⟩

theorem after_of_over {c : SNMPConnection} (h : IsOver c) (calls : List Call) :
    IsOver (after c calls) :=
  List.foldlRecOn calls _ h fun _ hc call _ => (called_of_over hc call).1

theorem uses_of_over {c : SNMPConnection} (h : IsOver c) (calls : List Call) :
    uses_of c calls = [] := by
  induction calls generalizing c with
  | nil => rfl
  | cons call calls ih =>
    obtain ⟨hover, huses⟩ := called_of_over h call
    rw [uses_of, runLog, huses, List.nil_append]
    exact ih hover

theorem life_cons (c : SNMPConnection) (call : Call) (calls : List Call) :
    life c (call :: calls) = (called c call).2 ++ life (called c call).1 calls := by
  unfold life uses_of after
  rw [runLog, List.foldl_cons, List.append_assoc]

theorem life_of_over {c : SNMPConnection} (h : IsOver c) (calls : List Call) :
    life c calls = [] := by
  rw [life, uses_of_over h, List.nil_append, close, if_neg (not_not.mpr (after_of_over h calls).1)]

/-- A descriptor is used, and then closed: by the call of `close`, or by the
destructor. -/
theorem life_of_descriptor {c : SNMPConnection} (h : c.socket_fd ≠ -1) (calls : List Call) :
    ∃ uses, life c calls = uses ++ [(c.socket_fd, .closed)] ∧
      ∀ u ∈ uses, u.1 = c.socket_fd ∧ u.2 ≠ .closed := by
  induction calls generalizing c with
  | nil => exact ⟨[], by simp [life, uses_of, runLog, after, close, h], nofun⟩
  | cons call calls ih =>
    rw [life_cons]
    rcases called_cases c call with rfl | hkeeps
    · refine ⟨[], ?_, nofun⟩
      rw [called, life_of_over (close_over c)]
      simp [close, h]
    · obtain ⟨uses, hlife, huses⟩ := ih (by rw [hkeeps.socket_fd]; exact h)
      rw [hkeeps.socket_fd] at hlife huses
      refine ⟨(called c call).2 ++ uses, by rw [hlife, List.append_assoc], ?_⟩
      intro u hu
      rcases List.mem_append.mp hu with hu | hu
      · exact hkeeps.uses u hu
      · exact huses u hu

/-- The peer is gone with this call. -/
def Hangs (call : Call) : Prop :=
  call = .closes ∨ ∃ now packet, call = .receives (some []) now packet

theorem called_of_hangs (c : SNMPConnection) {call : Call} (h : Hangs call) :
    (called c call).1.connected = false := by
  rcases h with rfl | ⟨now, packet, rfl⟩
  · exact (close_over c).2
  · cases hc : c.connected with
    | false => simp [called, receive_request, hc]
    | true => simp [called, receive_request, hc, into_buffer]

theorem quiet_uses {c : SNMPConnection} (h : c.connected = false) (calls : List Call) :
    ∀ u ∈ uses_of c calls, ¬ IsTraffic u.2 := by
  induction calls generalizing c with
  | nil => exact nofun
  | cons call calls ih =>
    intro u hu
    rw [uses_of, runLog] at hu
    rcases called_cases c call with rfl | hkeeps
    · rcases List.mem_append.mp hu with hu | hu
      · rw [called, close] at hu
        split_ifs at hu <;> simp at hu
        rw [hu]
        simp [IsTraffic]
      · exact ih (close_over c).2 u hu
    · rcases List.mem_append.mp hu with hu | hu
      · intro htraffic
        rw [hkeeps.traffic u hu htraffic] at h
        cases h
      · refine ih ?_ u hu
        by_contra hconnected
        rw [Bool.not_eq_false] at hconnected
        rw [hkeeps.connected hconnected] at h
        cases h

theorem uses_of_append (c : SNMPConnection) (calls calls' : List Call) :
    uses_of c (calls ++ calls') = uses_of c calls ++ uses_of (after c calls) calls' :=
  runLog_append c calls calls'

/-- In any order of the calls, everything that is done with a descriptor is
done with the one that the connection was made with, which is closed exactly
once, at the end. Where the peer hung up, or the connection was closed, it
sends and receives nothing more. -/
theorem a_connection_closes_its_descriptor_once_and_last (c : SNMPConnection)
    (h : c.socket_fd ≠ -1) (calls : List Call) :
    (∃ uses, life c calls = uses ++ [(c.socket_fd, .closed)] ∧
      ∀ u ∈ uses, u.1 = c.socket_fd ∧ u.2 ≠ .closed) ∧
    ∀ pre call post, calls = pre ++ call :: post → Hangs call →
      ∃ later, uses_of c calls = uses_of c (pre ++ [call]) ++ later ∧
        ∀ u ∈ later, ¬ IsTraffic u.2 := by
  refine ⟨life_of_descriptor h calls, ?_⟩
  rintro pre call post rfl hhangs
  refine ⟨uses_of (after c (pre ++ [call])) post, ?_, ?_⟩
  · rw [← uses_of_append, List.append_assoc, List.singleton_append]
  · apply quiet_uses
    rw [after, List.foldl_append]
    exact called_of_hangs _ hhangs

/-- A peer that hangs up before a response: nothing is sent to it, and its
descriptor is closed once, though `close` is called before the destructor. -/
theorem a_lost_peer_is_closed_once :
    let c := SNMPConnection.new 7 [] 161 0
    let calls := [.receives (some []) 1 SNMPPacket.new, .sends 20 2 SNMPPacket.new, .closes]
    (∃ uses, life c calls = uses ++ [(7, .closed)] ∧ ∀ u ∈ uses, u.1 = 7 ∧ u.2 ≠ .closed) ∧
      ∃ later, uses_of c calls = [(7, .received)] ++ later ∧ ∀ u ∈ later, ¬ IsTraffic u.2 := by
  intro c calls
  have h := a_connection_closes_its_descriptor_once_and_last c (by decide) calls
  exact ⟨h.1, h.2 [] _ _ rfl (Or.inr ⟨1, SNMPPacket.new, rfl⟩)⟩

/-! ## Timeouts -/

/-- The time that a call writes down: that of a success on a packet. -/
def success (c : SNMPConnection) : Call → Option Int
  | .sends bytes_sent now packet =>
    if (send_response bytes_sent now packet c).result then some now else none
  | .receives brought now packet =>
    if (receive_request brought now packet c).1.result then some now else none
  | _ => none

/-- When the calls succeeded. -/
def successes (c : SNMPConnection) (calls : List Call) : List (Option Int) :=
  writes (fun c call => (called c call).1) success c calls

/-- When the calls look at the clock. -/
def times : List Call → List Int
  | [] => []
  | .sends _ now _ :: calls => now :: times calls
  | .receives _ now _ :: calls => now :: times calls
  | _ :: calls => times calls

theorem called_last_activity (c : SNMPConnection) (call : Call) :
    (called c call).1.last_activity = (success c call).getD c.last_activity := by
  cases call with
  | sends bytes_sent now packet =>
    by_cases hc : c.connected = true <;> by_cases hsent : bytes_sent < 0 <;>
      simp [called, success, send_response, serialize_eq, hc, hsent]
  | receives brought now packet =>
    cases brought with
    | none => by_cases hc : c.connected = true <;> simp [called, success, receive_request, hc]
    | some bytes =>
      by_cases hc : c.connected = true <;> by_cases hempty : into_buffer bytes = [] <;>
        simp only [called, success, receive_request, hc, hempty, List.length_eq_zero_iff] <;>
        first | rfl | cases parse (.bits 64) packet (into_buffer bytes) <;> rfl
  | closes =>
    simp only [called, close]
    split_ifs <;> rfl
  | sets_non_blocking flags non_blocking => rfl
  | sets_timeout receives sends timeout_seconds => rfl

theorem last_activity_after (c : SNMPConnection) (calls : List Call) :
    (after c calls).last_activity = (lastWrite (successes c calls)).getD c.last_activity :=
  view_run (fun c : SNMPConnection => c.last_activity) called_last_activity c calls

/-- A success is at the time that its call reads. -/
theorem success_time {c : SNMPConnection} {call : Call} {t : Int} (h : success c call = some t)
    (calls : List Call) : times (call :: calls) = t :: times calls := by
  cases call with
  | sends bytes_sent now packet =>
    simp only [success, Option.ite_none_right_eq_some, Option.some.injEq] at h
    rw [times, h.2]
  | receives brought now packet =>
    simp only [success, Option.ite_none_right_eq_some, Option.some.injEq] at h
    rw [times, h.2]
  | closes => cases h
  | sets_non_blocking flags non_blocking => cases h
  | sets_timeout receives sends timeout_seconds => cases h

theorem times_sublist (call : Call) (calls : List Call) :
    (times calls).Sublist (times (call :: calls)) := by
  cases call with
  | sends bytes_sent now packet => exact List.sublist_cons_self _ _
  | receives brought now packet => exact List.sublist_cons_self _ _
  | closes => exact List.Sublist.refl _
  | sets_non_blocking flags non_blocking => exact List.Sublist.refl _
  | sets_timeout receives sends timeout_seconds => exact List.Sublist.refl _

theorem success_mem {c : SNMPConnection} {calls : List Call} {t : Int}
    (h : some t ∈ successes c calls) : t ∈ times calls := by
  induction calls generalizing c with
  | nil => cases h
  | cons call calls ih =>
    rw [successes, writes] at h
    rcases List.mem_cons.mp h with h | h
    · rw [success_time h.symm]
      exact List.mem_cons_self
    · exact (times_sublist call calls).subset (ih h)

/-- Where the clock does not go back, the last success is the latest. -/
theorem le_last_activity {c : SNMPConnection} {calls : List Call}
    (h : (c.last_activity :: times calls).Pairwise (· ≤ ·)) :
    c.last_activity ≤ (after c calls).last_activity ∧
      ∀ t, some t ∈ successes c calls → t ≤ (after c calls).last_activity := by
  induction calls generalizing c with
  | nil => exact ⟨le_refl _, nofun⟩
  | cons call calls ih =>
    have hafter : after c (call :: calls) = after (called c call).1 calls := rfl
    rw [hafter]
    have hstep := called_last_activity c call
    cases hcall : success c call with
    | none =>
      rw [hcall, Option.getD_none] at hstep
      have hrest := ih (by
        rw [hstep]
        exact h.sublist ((times_sublist call calls).cons_cons _))
      refine ⟨hstep ▸ hrest.1, ?_⟩
      intro t ht
      rw [successes, writes, hcall] at ht
      rcases List.mem_cons.mp ht with ht | ht
      · cases ht
      · exact hrest.2 t ht
    | some now =>
      rw [hcall, Option.getD_some] at hstep
      rw [success_time hcall, List.pairwise_cons] at h
      have hrest := ih (by rw [hstep]; exact h.2)
      rw [hstep] at hrest
      refine ⟨le_trans (h.1 now List.mem_cons_self) hrest.1, ?_⟩
      intro t ht
      rw [successes, writes, hcall] at ht
      rcases List.mem_cons.mp ht with ht | ht
      · cases ht
        exact hrest.1
      · exact hrest.2 t ht

/-- Whole seconds have passed exactly when their nanoseconds have. -/
theorem is_timeout_iff {now : Int} {c : SNMPConnection} (h : c.last_activity ≤ now)
    (timeout_seconds : UInt32) : is_timeout now timeout_seconds c = true ↔
      c.last_activity + timeout_seconds.toNat * 1000000000 ≤ now := by
  rw [is_timeout, decide_eq_true_iff, ge_iff_le, Int.tdiv_eq_ediv_of_nonneg (by omega),
    Int.le_ediv_iff_mul_le (by decide)]
  omega

/-- With a clock that does not go back, a connection has timed out exactly
when that many seconds have passed since it was made, and since every packet
that was sent or taken on it. A packet that fails does not count. -/
theorem a_connection_times_out_after_its_last_success (c : SNMPConnection) (calls : List Call)
    (now : Int) (h : (c.last_activity :: (times calls ++ [now])).Pairwise (· ≤ ·))
    (timeout_seconds : UInt32) :
    is_timeout now timeout_seconds (after c calls) = true ↔
      ∀ t, t = c.last_activity ∨ some t ∈ successes c calls →
        t + timeout_seconds.toNat * 1000000000 ≤ now := by
  have hcalls : (c.last_activity :: times calls).Pairwise (· ≤ ·) :=
    h.sublist ((List.sublist_append_left _ _).cons_cons _)
  have hnow : ∀ t ∈ c.last_activity :: times calls, t ≤ now := by
    rw [← List.cons_append, List.pairwise_append] at h
    exact fun t ht => h.2.2 t ht now List.mem_cons_self
  obtain ⟨hmade, hlatest⟩ := le_last_activity hcalls
  have hlast : (after c calls).last_activity = c.last_activity ∨
      some (after c calls).last_activity ∈ successes c calls := by
    cases hwrite : lastWrite (successes c calls) with
    | none => exact Or.inl (by rw [last_activity_after, hwrite, Option.getD_none])
    | some t =>
      refine Or.inr ?_
      rw [last_activity_after, hwrite, Option.getD_some]
      exact mem_of_lastWrite hwrite
  have hle : (after c calls).last_activity ≤ now := by
    rcases hlast with hlast | hlast
    · rw [hlast]
      exact hnow _ List.mem_cons_self
    · exact hnow _ (List.mem_cons_of_mem _ (success_mem hlast))
  rw [is_timeout_iff hle]
  constructor
  · rintro hidle t (rfl | ht)
    · omega
    · have := hlatest t ht
      omega
  · intro hall
    exact hall _ hlast

/-- A response that is not sent does not keep the connection from timing
out. -/
theorem a_failed_response_is_no_activity :
    is_timeout 5000000000 5 (after (SNMPConnection.new 7 [] 161 0)
      [.sends (-1) 4000000000 SNMPPacket.new]) = true :=
  (a_connection_times_out_after_its_last_success (SNMPConnection.new 7 [] 161 0)
    [.sends (-1) 4000000000 SNMPPacket.new] 5000000000 (by decide) 5).mpr (by
      rintro t (rfl | ht)
      · decide
      · exact absurd ht (show some t ∉ [none] by simp))

/-! ## Parts of a response -/

/-- With more bindings than one octet counts, the bytes of a packet start
with those of the packet that leaves them out. -/
theorem bytes_of_more (p : SNMPPacket) {more : List VariableBinding}
    (h : bindings_size more % 256 = 0) :
    octetElement 0x30 (contentBytes { p with
      variable_bindings := p.variable_bindings ++ more }) =
      octetElement 0x30 (contentBytes p) ++ bindingsBytes more := by
  have hoctet : ∀ n, octet (n + bindings_size more) = octet n := by
    intro n
    rw [octet, octet, ← UInt8.toNat_inj]
    simp only [UInt8.toNat_ofNat']
    omega
  have hlist : bindingsBytes (p.variable_bindings ++ more) =
      bindingsBytes p.variable_bindings ++ bindingsBytes more := by
    simp [bindingsBytes]
  have hbindings : octetElement 0x30 (bindingsBytes (p.variable_bindings ++ more)) =
      octetElement 0x30 (bindingsBytes p.variable_bindings) ++ bindingsBytes more := by
    rw [octetElement, hlist, List.length_append, bindingsBytes_length more, hoctet]
    rfl
  have hpdu : pduBytes { p with variable_bindings := p.variable_bindings ++ more } =
      pduBytes p ++ bindingsBytes more := by
    simp only [pduBytes, hbindings, List.append_assoc]
  have hcontent : contentBytes { p with variable_bindings := p.variable_bindings ++ more } =
      contentBytes p ++ bindingsBytes more := by
    simp only [contentBytes, hpdu, octetElement, List.length_append, bindingsBytes_length more,
      hoctet, List.append_assoc, List.cons_append]
  rw [hcontent, octetElement, List.length_append, bindingsBytes_length more, hoctet]
  rfl

/-- What arrives of a packet of which so many bytes are sent. -/
def arriving (bytes_sent : Nat) (packet : SNMPPacket) : List UInt8 :=
  ((serialize packet).getD []).take bytes_sent

theorem arriving_eq (bytes_sent : Nat) (packet : SNMPPacket) :
    arriving bytes_sent packet = (octetElement 0x30 (contentBytes packet)).take bytes_sent := by
  rw [arriving, serialize_eq, Option.getD_some]

theorem send_response_part {sender : SNMPConnection} (h : sender.connected = true)
    (bytes_sent : Nat) (now : Int) (p : SNMPPacket) :
    (send_response bytes_sent now p sender).result = true := by
  have hsent : ¬ (bytes_sent : Int) < 0 := by omega
  simp [send_response, serialize_eq, h, hsent]

theorem receive_request_ok {receiver : SNMPConnection} (h : receiver.connected = true)
    {bytes : List UInt8} {this p : SNMPPacket} (now : Int)
    (hp : parse (.bits 64) this (into_buffer bytes) = .ok () p) :
    (receive_request (some bytes) now this receiver).1.result = true ∧
      (receive_request (some bytes) now this receiver).2 = p := by
  have hne : into_buffer bytes ≠ [] := by
    intro hempty
    rw [hempty] at hp
    cases hp
  simp [receive_request, h, hne, hp]

theorem receive_request_fail {receiver : SNMPConnection} {bytes : List UInt8}
    {this p : SNMPPacket} (now : Int)
    (hp : parse (.bits 64) this (into_buffer bytes) = .fail p) :
    (receive_request (some bytes) now this receiver).1.result = false := by
  by_cases hc : receiver.connected = true <;> by_cases hempty : into_buffer bytes = [] <;>
    simp [receive_request, hc, hempty, hp]

/-- A cut or a padded packet is not taken. -/
theorem receive_request_beside {receiver : SNMPConnection} {bytes : List UInt8}
    {this that p : SNMPPacket} {d : List UInt8} (now : Int)
    (h : parse (.bits 64) that d = .ok () p) (hne : into_buffer bytes ≠ d)
    (hd : into_buffer bytes <+: d ∨ d <+: into_buffer bytes) :
    (receive_request (some bytes) now this receiver).1.result = false := by
  rcases parse_64_cases this (into_buffer bytes) with ⟨l, hl, -⟩ | ⟨-, q, hq⟩
  · exact absurd ⟨l, hl⟩ (no_layout_beside h hne hd)
  · exact receive_request_fail now hq

/-- A response of which a part is sent counts as sent. Its receiver takes
nothing of a short one until it is there as a whole. One that has 256 bytes
of bindings more, or a multiple of them, is taken for the short one when it
is cut there, and not when it arrives whole. -/
theorem a_part_of_a_response_counts_as_sent {sender receiver : SNMPConnection}
    (hs : sender.connected = true) (hr : receiver.connected = true) (this : SNMPPacket)
    {p : SNMPPacket} (hp : content_size p < 128) (now now' : Int) (bytes_sent : Nat) :
    (send_response bytes_sent now p sender).result = true ∧
    ((receive_request (some (arriving bytes_sent p)) now' this receiver).1.result = true ↔
      content_size p + 2 ≤ bytes_sent) ∧
    ∀ q more, more ≠ [] → bindings_size more % 256 = 0 →
      q = { p with variable_bindings := p.variable_bindings ++ more } →
      (send_response bytes_sent now q sender).result = true ∧
      (receive_request (some (arriving (content_size p + 2) q)) now' this receiver).1.result =
        true ∧
      (receive_request (some (arriving (content_size p + 2) q)) now' this receiver).2 = p ∧
      (receive_request (some (arriving (content_size q + 2) q)) now' this receiver).1.result =
        false := by
  have hlen : (octetElement 0x30 (contentBytes p)).length = content_size p + 2 := by
    rw [octetElement_length, contentBytes_length]
  have hwhole : into_buffer (octetElement 0x30 (contentBytes p)) =
      octetElement 0x30 (contentBytes p) := by
    rw [into_buffer, List.take_of_length_le (by omega)]
  refine ⟨send_response_part hs bytes_sent now p, ⟨?_, ?_⟩, ?_⟩
  · intro htaken
    by_contra hless
    rw [arriving_eq, receive_request_beside now' (parse_short this hp) ?_ (Or.inl ?_)] at htaken
    · cases htaken
    · intro heq
      have := congrArg List.length heq
      rw [into_buffer, List.length_take, List.length_take] at this
      omega
    · exact (List.take_prefix _ _).trans (List.take_prefix _ _)
  · intro hle
    rw [arriving_eq, List.take_of_length_le (by omega)]
    exact (receive_request_ok hr now' (by rw [hwhole]; exact parse_short this hp)).1
  · rintro q more hne hmore rfl
    have hbytes := bytes_of_more p hmore
    have hcut : arriving (content_size p + 2)
        { p with variable_bindings := p.variable_bindings ++ more } =
        octetElement 0x30 (contentBytes p) := by
      rw [arriving_eq, hbytes, ← hlen, List.take_left]
    have htaken := receive_request_ok hr now'
      (show parse (.bits 64) this (into_buffer (octetElement 0x30 (contentBytes p))) = .ok () p by
        rw [hwhole]
        exact parse_short this hp)
    refine ⟨send_response_part hs _ now _, ?_, ?_, ?_⟩
    · rw [hcut]
      exact htaken.1
    · rw [hcut]
      exact htaken.2
    · have hall : into_buffer (arriving (content_size
          { p with variable_bindings := p.variable_bindings ++ more } + 2)
          { p with variable_bindings := p.variable_bindings ++ more }) =
          octetElement 0x30 (contentBytes p) ++ (bindingsBytes more).take
            (4096 - (octetElement 0x30 (contentBytes p)).length) := by
        rw [arriving_eq, ← contentBytes_length, ← octetElement_length 0x30, List.take_length,
          hbytes, into_buffer, List.take_append, List.take_of_length_le (by omega)]
      apply receive_request_beside now' (parse_short this hp)
      · rw [hall]
        intro heq
        have hempty := List.append_right_eq_self.mp heq
        rw [List.take_eq_nil_iff] at hempty
        rcases hempty with hroom | hempty
        · omega
        · have hsize := bindingsBytes_length more
          rw [hempty] at hsize
          cases more with
          | nil => exact hne rfl
          | cons b more =>
            rw [bindings_size_cons, List.length_nil] at hsize
            omega
      · rw [hall]
        exact Or.inr (List.prefix_append _ _)

/-- A value of 249 bytes, cut off with its binding, leaves an empty packet. -/
theorem a_cut_binding_is_taken_for_none :
    (receive_request (some (arriving 23 { SNMPPacket.new with
      variable_bindings := [⟨[0x2B], 0x04, List.replicate 249 0⟩] })) 1 SNMPPacket.new
      (SNMPConnection.new 7 [] 161 0)).2 = SNMPPacket.new := by
  have hmore : bindings_size [⟨[0x2B], 0x04, List.replicate 249 0⟩] % 256 = 0 := by
    rw [bindings_size_cons, List.length_replicate]
    rfl
  obtain ⟨-, -, hcut⟩ := @a_part_of_a_response_counts_as_sent (SNMPConnection.new 7 [] 161 0)
    (SNMPConnection.new 7 [] 161 0) rfl rfl SNMPPacket.new SNMPPacket.new (by decide) 0 1 23
  exact (hcut _ _ (List.cons_ne_nil _ _) hmore rfl).2.2.1

end simple_snmpd.snmp_connection
