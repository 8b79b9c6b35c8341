-- The lifecycle of a server: its calls in any order, with any outcome of the
-- operating system, and what becomes of the descriptors that it opens. The
-- calls keep the socket where they come in the order of `main`, and only
-- there.
import SimpleSnmpd.Descriptors

open write_logs descriptors

namespace simple_snmpd.snmp_server

/-! ## The calls -/

/-- What the lifecycle calls of `SNMPServer` read and write. -/
structure Lifecycle where
  server_socket : Int
  running : Bool
deriving DecidableEq, Repr

/-- The constructor. -/
def Lifecycle.new : Lifecycle where
  server_socket := -1
  running := false

/-- What calls do to descriptors. -/
abbrev Log := List (Int × Change)

/-- `SNMPServer::initialize`, with what `socket`, `setsockopt` and `bind`
return. -/
def initialize_server (socket setsockopt bind : Int) (s : Lifecycle) : Bool × Lifecycle × Log :=
  let s := { s with server_socket := socket }
  if socket = -1 then (false, s, [])
  else if setsockopt < 0 then (false, s, [(socket, .opened), (socket, .closed)])
  else if bind < 0 then (false, s, [(socket, .opened), (socket, .closed)])
  else (true, s, [(socket, .opened), (socket, .bound)])

/-- `SNMPServer::start`. An exception leaves it, without a result, where the
system gives it no thread. -/
def start_server (threads : Bool) (s : Lifecycle) : Option Bool × Lifecycle :=
  if s.running then (some true, s)
  else
    let s := { s with running := true }
    (if threads then some true else none, s)

/-- `SNMPServer::stop`, and the destructor, which calls it. No connection is
ever kept that it could close. -/
def stop_server (s : Lifecycle) : Lifecycle × Log :=
  if !s.running then (s, [])
  else
    let s := { s with running := false }
    if s.server_socket ≠ -1 then
      ({ s with server_socket := -1 }, [(s.server_socket, .closed)])
    else (s, [])

/-- A public call, with what the operating system returns to it. -/
inductive Call where
  | initializes (socket setsockopt bind : Int)
  | starts (threads : Bool)
  | stops
deriving DecidableEq, Repr

def called (s : Lifecycle) : Call → Lifecycle × Log
  | .initializes socket setsockopt bind => (initialize_server socket setsockopt bind s).2
  | .starts threads => ((start_server threads s).2, [])
  | .stops => stop_server s

theorem initialize_server_socket (socket setsockopt bind : Int) (s : Lifecycle) :
    (initialize_server socket setsockopt bind s).2.1.server_socket = socket := by
  unfold initialize_server
  dsimp only
  split_ifs <;> rfl

theorem initialize_server_log (socket setsockopt bind : Int) (s : Lifecycle) :
    ∀ w ∈ (initialize_server socket setsockopt bind s).2.2, w.1 = socket := by
  unfold initialize_server
  dsimp only
  split_ifs <;> simp

theorem start_server_stopped {threads : Bool} {s : Lifecycle} (h : s.running = false) :
    (start_server threads s).2 = { s with running := true } := by
  simp [start_server, h]

theorem start_server_running {threads : Bool} {s : Lifecycle} (h : s.running = true) :
    (start_server threads s).2 = s := by
  simp [start_server, h]

theorem stop_server_stopped {s : Lifecycle} (h : s.running = false) :
    stop_server s = (s, []) := by
  simp [stop_server, h]

theorem stop_server_running {s : Lifecycle} (h : s.running = true) (hs : s.server_socket ≠ -1) :
    stop_server s =
      ({ server_socket := -1, running := false }, [(s.server_socket, .closed)]) := by
  simp [stop_server, h, hs]

/-! ## Runs -/

def after (calls : List Call) : Lifecycle :=
  calls.foldl (fun s c => (called s c).1) Lifecycle.new

def log_of (calls : List Call) : Log :=
  runLog (fun s c => (called s c).1) (fun s c => (called s c).2) Lifecycle.new calls

/-- The log of a server from its constructor to its destructor. -/
def life (calls : List Call) : Log := log_of (calls ++ [.stops])

theorem after_snoc (calls : List Call) (c : Call) :
    after (calls ++ [c]) = (called (after calls) c).1 := by
  unfold after
  rw [List.foldl_append]
  rfl

theorem log_of_snoc (calls : List Call) (c : Call) :
    log_of (calls ++ [c]) = log_of calls ++ (called (after calls) c).2 := by
  unfold log_of
  rw [runLog_append]
  simp only [runLog, List.append_nil]
  rfl

/-- The operating system fails to make a socket, or gives a descriptor that
is not open. -/
def OsAllows (log : Log) : Call → Prop
  | .initializes socket _ _ => socket = -1 ∨ 0 ≤ socket ∧ ¬ IsLive log socket
  | .starts _ | .stops => True

instance (log : Log) : (c : Call) → Decidable (OsAllows log c)
  | .initializes _ _ _ => inferInstanceAs (Decidable (_ ∨ _))
  | .starts _ | .stops => inferInstanceAs (Decidable True)

def OsBehaves (calls : List Call) : Prop :=
  ∀ pre c post, calls = pre ++ c :: post → OsAllows (log_of pre) c

theorem osBehaves_nil : OsBehaves [] := by
  intro pre c post h
  cases pre <;> cases h

theorem OsBehaves.snoc {calls : List Call} {c : Call} (h : OsBehaves calls)
    (hc : OsAllows (log_of calls) c) : OsBehaves (calls ++ [c]) := by
  intro pre c' post heq
  rcases append_cons_eq_snoc heq with ⟨-, rfl, rfl⟩ | ⟨rest, rfl⟩
  · exact hc
  · exact h pre c' rest rfl

/-- The server keeps its socket: while it runs, the socket is open and
bound, no descriptor is closed twice, and in the end all of them are closed. -/
structure KeepsSocket (calls : List Call) : Prop where
  bound_while_running : ∀ pre, pre <+: calls → (after pre).running = true →
    table (log_of pre) (after pre).server_socket = some .bound
  closed_once : ClosesLive (life calls)
  closed_in_the_end : ∀ d, ¬ IsLive (life calls) d

/-! ## The order of calls -/

/-- Where a server stands that is used as it is meant: it has no socket, it
has a bound one, or it runs with it. -/
inductive Phase where
  | idle
  | ready
  | serving
deriving DecidableEq, Repr

def Phase.next : Phase → Call → Option Phase
  | .idle, .initializes socket setsockopt bind =>
    if socket ≠ -1 ∧ 0 ≤ setsockopt ∧ 0 ≤ bind then some .ready else some .idle
  | .ready, .initializes _ _ _ | .serving, .initializes _ _ _ => none
  | .idle, .starts _ => none
  | .ready, .starts _ | .serving, .starts _ => some .serving
  | .idle, .stops | .serving, .stops => some .idle
  | .ready, .stops => some .ready

def phase (calls : List Call) : Option Phase := calls.foldlM Phase.next .idle

/-- Each call comes in its phase, and the server is not left with a socket
that it never ran with. -/
def InOrder (calls : List Call) : Prop :=
  phase calls = some .idle ∨ phase calls = some .serving

instance (calls : List Call) : Decidable (InOrder calls) :=
  inferInstanceAs (Decidable (_ ∨ _))

theorem phase_snoc (calls : List Call) (c : Call) :
    phase (calls ++ [c]) = (phase calls).bind fun p => p.next c := by
  unfold phase
  rw [List.foldlM_append]
  simp

/-- A run that stops being possible does so at one call. -/
theorem exists_first_fault {calls : List Call} (h : phase calls = none) :
    ∃ pre c post p, calls = pre ++ c :: post ∧ phase pre = some p ∧ p.next c = none := by
  induction calls using List.reverseRecOn with
  | nil => cases h
  | append_singleton calls c ih =>
    cases hp : phase calls with
    | none =>
      obtain ⟨pre, c', post, p, rfl, hpre, hnext⟩ := ih hp
      exact ⟨pre, c', post ++ [c], p, by simp, hpre, hnext⟩
    | some p =>
      rw [phase_snoc, hp] at h
      exact ⟨calls, c, [], p, rfl, hp, h⟩

/-! ## The server agrees with its phase -/

/-- The server is in the phase. Only its own socket is open, and no
descriptor has been closed twice. -/
structure Agrees (p : Phase) (s : Lifecycle) (log : Log) : Prop where
  running : s.running = true ↔ p = .serving
  holds : p ≠ .idle → s.server_socket ≠ -1 ∧ table log s.server_socket = some .bound
  only : ∀ d, IsLive log d → p ≠ .idle ∧ d = s.server_socket
  once : ClosesLive log

theorem agrees_new : Agrees .idle Lifecycle.new [] where
  running := by simp [Lifecycle.new]
  holds h := absurd rfl h
  only d h := by simp [IsLive, table] at h
  once := closesLive_nil

variable {p p' : Phase} {s : Lifecycle} {log : Log}

/-- A socket that is opened and closed again leaves nothing open. -/
theorem Agrees.open_close (h : Agrees .idle s log) (socket : Int) :
    Agrees .idle { s with server_socket := socket }
      (log ++ [(socket, .opened), (socket, .closed)]) := by
  rw [List.append_cons]
  refine ⟨h.running, fun hidle => absurd rfl hidle, fun d hd => ?_,
    h.once.opened.closed isLive_snoc_opened⟩
  by_cases hds : d = socket
  · subst hds
    exact absurd hd not_isLive_snoc_closed
  · rw [isLive_snoc_other hds, isLive_snoc_other hds] at hd
    exact absurd rfl (h.only d hd).1

theorem Agrees.open_bind (h : Agrees .idle s log) {socket : Int} (hs : socket ≠ -1) :
    Agrees .ready { s with server_socket := socket }
      (log ++ [(socket, .opened), (socket, .bound)]) := by
  rw [List.append_cons]
  refine ⟨?_, fun _ => ⟨hs, table_snoc_same⟩, fun d hd => ⟨nofun, ?_⟩, h.once.opened.bound⟩
  · have := h.running
    simp_all
  · by_contra hds
    rw [isLive_snoc_other hds, isLive_snoc_other hds] at hd
    exact absurd rfl (h.only d hd).1

theorem Agrees.close (h : Agrees .serving s log) :
    Agrees .idle { server_socket := -1, running := false }
      (log ++ [(s.server_socket, .closed)]) := by
  obtain ⟨-, hbound⟩ := h.holds nofun
  refine ⟨by simp, fun hidle => absurd rfl hidle, fun d hd => ?_,
    h.once.closed (Or.inr hbound)⟩
  by_cases hds : d = s.server_socket
  · subst hds
    exact absurd hd not_isLive_snoc_closed
  · rw [isLive_snoc_other hds] at hd
    exact absurd (h.only d hd).2 hds

theorem Agrees.not_running (h : Agrees p s log) (hp : p ≠ .serving) : s.running = false := by
  rw [← Bool.not_eq_true, h.running]
  exact hp

theorem Agrees.initialized (h : Agrees p s log) {socket setsockopt bind : Int}
    (hnext : p.next (.initializes socket setsockopt bind) = some p') :
    Agrees p' (initialize_server socket setsockopt bind s).2.1
      (log ++ (initialize_server socket setsockopt bind s).2.2) := by
  cases p with
  | ready => cases hnext
  | serving => cases hnext
  | idle =>
    simp only [Phase.next] at hnext
    simp only [initialize_server]
    by_cases hs : socket = -1
    · rw [if_neg (by simp [hs])] at hnext
      cases hnext
      rw [if_pos hs, List.append_nil]
      exact ⟨h.running, fun hidle => absurd rfl hidle, fun d hd => absurd rfl (h.only d hd).1,
        h.once⟩
    rw [if_neg hs]
    by_cases ho : setsockopt < 0
    · rw [if_neg (by omega)] at hnext
      cases hnext
      rw [if_pos ho]
      exact h.open_close socket
    rw [if_neg ho]
    by_cases hb : bind < 0
    · rw [if_neg (by omega)] at hnext
      cases hnext
      rw [if_pos hb]
      exact h.open_close socket
    · rw [if_pos (by omega)] at hnext
      cases hnext
      rw [if_neg hb]
      exact h.open_bind hs

theorem Agrees.started (h : Agrees p s log) {threads : Bool}
    (hnext : p.next (.starts threads) = some p') :
    Agrees p' (start_server threads s).2 log := by
  cases p with
  | idle => cases hnext
  | ready =>
    cases hnext
    rw [start_server_stopped (h.not_running nofun)]
    exact ⟨by simp, fun _ => h.holds nofun, fun d hd => ⟨nofun, (h.only d hd).2⟩, h.once⟩
  | serving =>
    cases hnext
    rwa [start_server_running (h.running.mpr rfl)]

theorem Agrees.stopped (h : Agrees p s log) (hnext : p.next .stops = some p') :
    Agrees p' (stop_server s).1 (log ++ (stop_server s).2) := by
  cases p with
  | idle =>
    cases hnext
    rwa [stop_server_stopped (h.not_running nofun), List.append_nil]
  | ready =>
    cases hnext
    rwa [stop_server_stopped (h.not_running nofun), List.append_nil]
  | serving =>
    cases hnext
    rw [stop_server_running (h.running.mpr rfl) (h.holds nofun).1]
    exact h.close

/-- A call in its phase leads to the next one. -/
theorem Agrees.step (h : Agrees p s log) {c : Call} (hnext : p.next c = some p') :
    Agrees p' (called s c).1 (log ++ (called s c).2) := by
  cases c with
  | initializes socket setsockopt bind => exact h.initialized hnext
  | starts threads =>
    rw [called, List.append_nil]
    exact h.started hnext
  | stops => exact h.stopped hnext

/-- A run in order ends in its phase. -/
theorem agrees_of_phase {calls : List Call} {p : Phase} (h : phase calls = some p) :
    Agrees p (after calls) (log_of calls) := by
  induction calls using List.reverseRecOn generalizing p with
  | nil =>
    cases h
    exact agrees_new
  | append_singleton calls c ih =>
    rw [phase_snoc, Option.bind_eq_some_iff] at h
    obtain ⟨q, hq, hnext⟩ := h
    rw [after_snoc, log_of_snoc]
    exact (ih hq).step hnext

/-- What comes before in a run in order is in order too. -/
theorem phase_of_prefix {pre calls : List Call} {p : Phase} (hpre : pre <+: calls)
    (h : phase calls = some p) : ∃ q, phase pre = some q := by
  obtain ⟨post, rfl⟩ := hpre
  unfold phase at *
  rw [List.foldlM_append] at h
  cases hq : pre.foldlM Phase.next .idle with
  | none => rw [hq] at h; cases h
  | some q => exact ⟨q, rfl⟩

theorem keepsSocket_of_inOrder {calls : List Call} (h : InOrder calls) : KeepsSocket calls := by
  have hlast : ∃ p, phase calls = some p ∧ p.next .stops = some .idle := by
    rcases h with h | h
    · exact ⟨_, h, rfl⟩
    · exact ⟨_, h, rfl⟩
  obtain ⟨p, hp, hnext⟩ := hlast
  have hend : Agrees .idle (after (calls ++ [.stops])) (life calls) := by
    refine agrees_of_phase ?_
    rw [phase_snoc, hp]
    exact hnext
  refine ⟨fun pre hpre hrun => ?_, hend.once, fun d hd => (hend.only d hd).1 rfl⟩
  obtain ⟨q, hq⟩ := phase_of_prefix hpre hp
  have hagrees := agrees_of_phase hq
  refine (hagrees.holds ?_).2
  rw [hagrees.running.mp hrun]
  nofun

/-! ## A descriptor that the server has lost -/

/-- A descriptor is open, and the server does not hold it. -/
structure Lost (d : Int) (s : Lifecycle) (log : Log) : Prop where
  live : IsLive log d
  unheld : s.server_socket ≠ d
  valid : d ≠ -1

/-- A new socket takes the place of the one that was held. -/
theorem lost_of_initialize {d : Int} (hd : IsLive log d) (hvalid : d ≠ -1)
    {socket setsockopt bind : Int} (hos : OsAllows log (.initializes socket setsockopt bind)) :
    Lost d (called s (.initializes socket setsockopt bind)).1
      (log ++ (called s (.initializes socket setsockopt bind)).2) := by
  have hne : socket ≠ d := by
    rintro rfl
    rcases hos with h | ⟨-, h⟩
    · exact hvalid h
    · exact h hd
  refine ⟨(isLive_append_other fun w hw => ?_).mpr hd, ?_, hvalid⟩
  · rw [initialize_server_log _ _ _ _ w hw]
    exact hne
  · rw [called, initialize_server_socket]
    exact hne

/-- It stays so. -/
theorem Lost.step {d : Int} (h : Lost d s log) {c : Call} (hos : OsAllows log c) :
    Lost d (called s c).1 (log ++ (called s c).2) := by
  cases c with
  | initializes socket setsockopt bind => exact lost_of_initialize h.live h.valid hos
  | starts threads =>
    rw [called, List.append_nil]
    cases hr : s.running with
    | false => rw [start_server_stopped hr]; exact ⟨h.live, h.unheld, h.valid⟩
    | true => rwa [start_server_running hr]
  | stops =>
    rw [called]
    cases hr : s.running with
    | false => rwa [stop_server_stopped hr, List.append_nil]
    | true =>
      by_cases hs : s.server_socket = -1
      · have hstop : stop_server s = ({ s with running := false }, []) := by
          simp [stop_server, hr, hs]
        rw [hstop, List.append_nil]
        exact ⟨h.live, h.unheld, h.valid⟩
      · rw [stop_server_running hr hs]
        exact ⟨(isLive_snoc_other h.unheld.symm).mpr h.live, h.valid.symm, h.valid⟩

theorem Lost.run {d : Int} {pre : List Call} (post : List Call)
    (h : Lost d (after pre) (log_of pre)) (hos : OsBehaves (pre ++ post)) :
    Lost d (after (pre ++ post)) (log_of (pre ++ post)) := by
  induction post generalizing pre with
  | nil => rwa [List.append_nil]
  | cons c post ih =>
    rw [List.append_cons] at hos ⊢
    refine ih ?_ hos
    rw [after_snoc, log_of_snoc]
    exact h.step (hos pre c post (by simp))

/-- A descriptor that is lost is never closed. -/
theorem Lost.not_keepsSocket {d : Int} {pre : List Call} (post : List Call)
    (h : Lost d (after pre) (log_of pre)) (hos : OsBehaves (pre ++ post)) :
    ¬ KeepsSocket (pre ++ post) := by
  intro hkeeps
  have hlost := h.run post hos
  refine hkeeps.closed_in_the_end d ?_
  rw [life, log_of_snoc]
  exact (hlost.step (c := .stops) trivial).live

/-- A call out of its phase loses the socket, or runs without one. -/
theorem not_keepsSocket_of_fault {pre post : List Call} {c : Call} {p : Phase}
    (hp : phase pre = some p) (hnext : p.next c = none) (hos : OsBehaves (pre ++ c :: post)) :
    ¬ KeepsSocket (pre ++ c :: post) := by
  have hagrees := agrees_of_phase hp
  have hallows := hos pre c post rfl
  cases c with
  | initializes socket setsockopt bind =>
    have hidle : p ≠ .idle := by
      rintro rfl
      simp only [Phase.next] at hnext
      split_ifs at hnext
    obtain ⟨hvalid, hbound⟩ := hagrees.holds hidle
    have hlost : Lost (after pre).server_socket
        (after (pre ++ [.initializes socket setsockopt bind]))
        (log_of (pre ++ [.initializes socket setsockopt bind])) := by
      rw [after_snoc, log_of_snoc]
      exact lost_of_initialize (Or.inr hbound) hvalid hallows
    rw [List.append_cons] at hos ⊢
    exact hlost.not_keepsSocket post hos
  | starts threads =>
    obtain rfl : p = .idle := by
      cases p with
      | idle => rfl
      | ready => cases hnext
      | serving => cases hnext
    intro hkeeps
    have hstarted : (called (after pre) (.starts threads)).1 =
        { after pre with running := true } :=
      start_server_stopped (hagrees.not_running nofun)
    have hbound := hkeeps.bound_while_running (pre ++ [.starts threads])
      ⟨post, by simp⟩ (by rw [after_snoc, hstarted])
    rw [after_snoc, hstarted, log_of_snoc, called, List.append_nil] at hbound
    exact (hagrees.only _ (Or.inr hbound)).1 rfl
  | stops => cases p <;> cases hnext

/-- A server that never ran with its socket does not close it. -/
theorem not_keepsSocket_of_ready {calls : List Call} (h : phase calls = some .ready) :
    ¬ KeepsSocket calls := by
  have hagrees := agrees_of_phase h
  intro hkeeps
  refine hkeeps.closed_in_the_end (after calls).server_socket ?_
  rw [life, log_of_snoc, called, stop_server_stopped (hagrees.not_running nofun),
    List.append_nil]
  exact Or.inr (hagrees.holds nofun).2

/-! ## The calls of `main` -/

/-- The calls of `signal_handler`, for a number of signals. -/
def signals (n : Nat) : List Call := List.replicate n .stops

/-- The calls of `main` on its server, with signals before, between and after
them. It leaves where `initialize` returns false, and where an exception
leaves `start`. -/
def main_calls (n₁ n₂ n₃ : Nat) (socket setsockopt bind : Int) (threads : Bool) : List Call :=
  signals n₁ ++ .initializes socket setsockopt bind :: (signals n₂ ++
    if (initialize_server socket setsockopt bind Lifecycle.new).1 then
      .starts threads :: (signals n₃ ++ if threads then [.stops] else [])
    else [])

/-- From the phase on, the calls come in order. -/
def EndsWell (p : Phase) (calls : List Call) : Prop :=
  calls.foldlM Phase.next p = some .idle ∨ calls.foldlM Phase.next p = some .serving

theorem EndsWell.cons {p q : Phase} {c : Call} {calls : List Call} (hc : p.next c = some q)
    (h : EndsWell q calls) : EndsWell p (c :: calls) := by
  unfold EndsWell
  rwa [List.foldlM_cons, hc]

/-- A signal changes nothing while the server does not run. -/
theorem EndsWell.after_signals {p : Phase} (hp : p.next .stops = some p) {calls : List Call}
    (h : EndsWell p calls) (n : Nat) : EndsWell p (signals n ++ calls) := by
  induction n with
  | zero => exact h
  | succ n ih => exact ih.cons hp

/-- The first signal that it gets while it runs stops it. -/
theorem EndsWell.after_signals_serving {calls : List Call} (hidle : EndsWell .idle calls)
    (hserving : EndsWell .serving calls) (n : Nat) : EndsWell .serving (signals n ++ calls) := by
  cases n with
  | zero => exact hserving
  | succ n => exact (hidle.after_signals rfl n).cons rfl

theorem initialize_server_returns (socket setsockopt bind : Int) (s : Lifecycle) :
    (initialize_server socket setsockopt bind s).1 = true ↔
      socket ≠ -1 ∧ 0 ≤ setsockopt ∧ 0 ≤ bind := by
  unfold initialize_server
  dsimp only
  split_ifs with h1 h2 h3 <;> simp <;> omega

/-- `main` keeps the socket, whatever its calls and its signals bring. -/
theorem main_keeps_its_socket (n₁ n₂ n₃ : Nat) (socket setsockopt bind : Int) (threads : Bool) :
    KeepsSocket (main_calls n₁ n₂ n₃ socket setsockopt bind threads) := by
  apply keepsSocket_of_inOrder
  refine EndsWell.after_signals rfl ?_ n₁
  by_cases hok : socket ≠ -1 ∧ 0 ≤ setsockopt ∧ 0 ≤ bind
  · have hnext : Phase.idle.next (.initializes socket setsockopt bind) = some .ready := if_pos hok
    rw [if_pos ((initialize_server_returns _ _ _ _).mpr hok)]
    refine EndsWell.cons hnext (EndsWell.after_signals rfl (EndsWell.cons rfl ?_) n₂)
    cases threads with
    | true => exact EndsWell.after_signals_serving (Or.inl rfl) (Or.inl rfl) n₃
    | false => exact EndsWell.after_signals_serving (Or.inl rfl) (Or.inr rfl) n₃
  · have hnext : Phase.idle.next (.initializes socket setsockopt bind) = some .idle := if_neg hok
    rw [if_neg (mt (initialize_server_returns _ _ _ _).mp hok)]
    exact EndsWell.cons hnext (EndsWell.after_signals rfl (Or.inl rfl) n₂)

/-! ## The law -/

/-- A server keeps its socket exactly where its calls come in order: it is
initialized only while it has no socket, started only with one, and not left
with a socket that it never ran with. -/
theorem a_server_keeps_its_socket_iff_its_calls_are_in_order (calls : List Call)
    (hos : OsBehaves calls) : KeepsSocket calls ↔ InOrder calls := by
  constructor
  · intro hkeeps
    cases hp : phase calls with
    | none =>
      obtain ⟨pre, c, post, p, rfl, hpre, hnext⟩ := exists_first_fault hp
      exact absurd hkeeps (not_keepsSocket_of_fault hpre hnext hos)
    | some p =>
      cases p with
      | idle => exact Or.inl hp
      | ready => exact absurd hkeeps (not_keepsSocket_of_ready hp)
      | serving => exact Or.inr hp
  · exact keepsSocket_of_inOrder

/-- The calls of `main`, where the system gives the descriptor 3. -/
theorem the_calls_of_main_keep_the_socket :
    KeepsSocket [.initializes 3 0 0, .starts true, .stops] :=
  (a_server_keeps_its_socket_iff_its_calls_are_in_order
    [.initializes 3 0 0, .starts true, .stops]
    (((osBehaves_nil.snoc (c := .initializes 3 0 0) (by decide)).snoc (c := .starts true)
      trivial).snoc (c := .stops) trivial)).mpr (by decide)

/-- A server that could not bind is started, and runs with a closed socket. -/
theorem a_server_that_could_not_bind_does_not_keep_its_socket :
    ¬ ∀ calls, OsBehaves calls → KeepsSocket calls := by
  intro h
  have hos : OsBehaves [.initializes 3 0 (-1), .starts true, .stops] :=
    ((osBehaves_nil.snoc (c := .initializes 3 0 (-1)) (by decide)).snoc (c := .starts true)
      trivial).snoc (c := .stops) trivial
  have hbound := (h _ hos).bound_while_running [.initializes 3 0 (-1), .starts true]
    ⟨[.stops], rfl⟩ rfl
  revert hbound
  decide

end simple_snmpd.snmp_server
