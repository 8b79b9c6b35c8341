-- Routines over a state that may return true, return false, ask for data
-- that is not there, or still be running when their turns are used up. The
-- rules here say what a whole routine does from what its parts do.
import Mathlib.Data.List.Basic

namespace routines

variable {σ α β : Type}

/-- How a call of a routine ends. -/
inductive Exit (σ α : Type) where
  /-- It returned true, with a value and the state it left. -/
  | ok (a : α) (s : σ)
  /-- It returned false, with the state it left. -/
  | fail (s : σ)
  /-- It asked for an element outside its data. -/
  | outside
  /-- A loop had turns left to take when its fuel was used up. -/
  | running
deriving DecidableEq, Repr

/-- A routine: from the state at the call to the way the call ends. -/
def Routine (σ α : Type) := σ → Exit σ α

namespace Routine

def pure (a : α) : Routine σ α := fun s => .ok a s

def bind (m : Routine σ α) (f : α → Routine σ β) : Routine σ β := fun s =>
  match m s with
  | .ok a s' => f a s'
  | .fail s' => .fail s'
  | .outside => .outside
  | .running => .running

instance : Monad (Routine σ) where
  pure := pure
  bind := bind

/-- `return false`. -/
def fail : Routine σ α := fun s => .fail s

/-- The state. -/
def get : Routine σ σ := fun s => .ok s s

/-- An assignment to the state. -/
def modify (f : σ → σ) : Routine σ Unit := fun s => .ok () (f s)

/-- `if (c) return false;` -/
def rejectIf (c : Prop) [Decidable c] : Routine σ Unit := fun s =>
  if c then .fail s else .ok () s

/-- `for (i = 0; i < n; i++) body`, for a body that does not read `i`. -/
def times : Nat → Routine σ Unit → Routine σ Unit
  | 0, _ => pure ()
  | n + 1, body => bind body fun _ => times n body

/-- `while (c) body`, with fuel for a number of turns. -/
def loop (c : σ → Bool) (body : Routine σ Unit) : Nat → Routine σ Unit
  | 0 => fun s => if c s then .running else .ok () s
  | n + 1 => fun s => if c s then bind body (fun _ => loop c body n) s else .ok () s

end Routine

open Routine

/-! ## What a call meets -/

/-- The call ends, with every element that it asked for in its data: with
`Q` when it returns true, and with `R` when it returns false. -/
def Exit.Meets (x : Exit σ α) (Q : α → σ → Prop) (R : σ → Prop) : Prop :=
  match x with
  | .ok a s => Q a s
  | .fail s => R s
  | .outside => False
  | .running => False

@[simp] theorem meets_ok (a : α) (s : σ) (Q : α → σ → Prop) (R : σ → Prop) :
    (Exit.ok a s).Meets Q R ↔ Q a s := Iff.rfl

@[simp] theorem meets_fail (s : σ) (Q : α → σ → Prop) (R : σ → Prop) :
    (Exit.fail s).Meets Q R ↔ R s := Iff.rfl

@[simp] theorem not_meets_outside (Q : α → σ → Prop) (R : σ → Prop) :
    ¬ (Exit.outside : Exit σ α).Meets Q R := id

@[simp] theorem not_meets_running (Q : α → σ → Prop) (R : σ → Prop) :
    ¬ (Exit.running : Exit σ α).Meets Q R := id

theorem Exit.Meets.mono {x : Exit σ α} {Q Q' : α → σ → Prop} {R R' : σ → Prop}
    (h : x.Meets Q R) (hq : ∀ a s, x = .ok a s → Q a s → Q' a s) (hr : ∀ s, R s → R' s) :
    x.Meets Q' R' := by
  cases x with
  | ok a s => exact hq a s rfl h
  | fail s => exact hr s h
  | outside => exact h
  | running => exact h

/-- The call ends: with `Q` when it returns true, with `R` when it returns
false, and outside its data only where `O` holds. -/
def Exit.MeetsOr (O : Prop) (x : Exit σ α) (Q : α → σ → Prop) (R : σ → Prop) : Prop :=
  match x with
  | .ok a s => Q a s
  | .fail s => R s
  | .outside => O
  | .running => False

theorem meets_iff {x : Exit σ α} {Q : α → σ → Prop} {R : σ → Prop} :
    x.Meets Q R ↔ x.MeetsOr False Q R := by
  cases x <;> exact Iff.rfl

theorem Exit.Meets.or {x : Exit σ α} {Q : α → σ → Prop} {R : σ → Prop} (h : x.Meets Q R)
    (O : Prop) : x.MeetsOr O Q R := by
  cases x with
  | ok a s => exact h
  | fail s => exact h
  | outside => exact h.elim
  | running => exact h

theorem Exit.MeetsOr.meets {O : Prop} {x : Exit σ α} {Q : α → σ → Prop} {R : σ → Prop}
    (h : x.MeetsOr O Q R) (ho : ¬ O) : x.Meets Q R := by
  cases x with
  | ok a s => exact h
  | fail s => exact h
  | outside => exact ho h
  | running => exact h

theorem Exit.MeetsOr.mono {O : Prop} {x : Exit σ α} {Q Q' : α → σ → Prop} {R R' : σ → Prop}
    (h : x.MeetsOr O Q R) (hq : ∀ a s, Q a s → Q' a s) (hr : ∀ s, R s → R' s) :
    x.MeetsOr O Q' R' := by
  cases x with
  | ok a s => exact hq a s h
  | fail s => exact hr s h
  | outside => exact h
  | running => exact h

/-! ## One part after the other -/

theorem bind_run (m : Routine σ α) (f : α → Routine σ β) (s : σ) :
    (m >>= f) s = match m s with
      | .ok a s' => f a s'
      | .fail s' => .fail s'
      | .outside => .outside
      | .running => .running := rfl

@[simp] theorem pure_run (a : α) (s : σ) : (Pure.pure a : Routine σ α) s = .ok a s := rfl

@[simp] theorem get_bind_run (f : σ → Routine σ β) (s : σ) : (get >>= f) s = f s s := rfl

@[simp] theorem modify_run (f : σ → σ) (s : σ) : modify f s = .ok () (f s) := rfl

theorem bind_ok {m : Routine σ α} {s s' : σ} {a : α} (h : m s = .ok a s')
    (f : α → Routine σ β) : (m >>= f) s = f a s' := by
  rw [bind_run, h]

theorem bind_fail {m : Routine σ α} {s s' : σ} (h : m s = .fail s')
    (f : α → Routine σ β) : (m >>= f) s = .fail s' := by
  rw [bind_run, h]

theorem bind_outside {m : Routine σ α} {s : σ} (h : m s = .outside)
    (f : α → Routine σ β) : (m >>= f) s = .outside := by
  rw [bind_run, h]

/-- Two first parts that end in the same way are followed by the same. -/
theorem bind_of_run {m m' : Routine σ α} {s s' : σ} (h : m s = m' s') (f : α → Routine σ β) :
    (m >>= f) s = (m' >>= f) s' := by
  rw [bind_run, bind_run, h]

theorem bind_assoc_run {γ : Type} (m : Routine σ α) (f : α → Routine σ β) (g : β → Routine σ γ)
    (s : σ) : ((m >>= f) >>= g) s = (m >>= fun a => f a >>= g) s := by
  rw [bind_run, bind_run, bind_run]
  cases m s <;> rfl

theorem meetsOr_bind {O : Prop} {m : Routine σ α} {f : α → Routine σ β} {s : σ}
    {Q : β → σ → Prop} {R : σ → Prop}
    (h : (m s).MeetsOr O (fun a s' => (f a s').MeetsOr O Q R) R) :
    ((m >>= f) s).MeetsOr O Q R := by
  rw [bind_run]
  cases hm : m s with
  | ok a s₁ => rw [hm] at h; exact h
  | fail s₁ => rw [hm] at h; exact h
  | outside => rw [hm] at h; exact h
  | running => rw [hm] at h; exact h

theorem meets_bind {m : Routine σ α} {f : α → Routine σ β} {s : σ}
    {Q : β → σ → Prop} {R : σ → Prop}
    (h : (m s).Meets (fun a s' => (f a s').Meets Q R) R) : ((m >>= f) s).Meets Q R :=
  meets_iff.mpr (meetsOr_bind ((meets_iff.mp h).mono (fun _ _ => meets_iff.mp) fun _ h => h))

/-! ## Checks -/

theorem rejectIf_pos {c : Prop} [Decidable c] (h : c) (s : σ) : rejectIf c s = .fail s :=
  if_pos h

theorem rejectIf_neg {c : Prop} [Decidable c] (h : ¬ c) (s : σ) : rejectIf c s = .ok () s :=
  if_neg h

theorem meetsOr_rejectIf {O c : Prop} [Decidable c] {f : Unit → Routine σ β} {s : σ}
    {Q : β → σ → Prop} {R : σ → Prop} (hr : c → R s) (hq : ¬ c → (f () s).MeetsOr O Q R) :
    ((rejectIf c >>= f) s).MeetsOr O Q R := by
  by_cases h : c
  · rw [bind_fail (rejectIf_pos h s)]; exact hr h
  · rw [bind_ok (rejectIf_neg h s)]; exact hq h

theorem meets_rejectIf {c : Prop} [Decidable c] {f : Unit → Routine σ β} {s : σ}
    {Q : β → σ → Prop} {R : σ → Prop} (hr : c → R s) (hq : ¬ c → (f () s).Meets Q R) :
    ((rejectIf c >>= f) s).Meets Q R :=
  meets_iff.mpr (meetsOr_rejectIf hr fun h => meets_iff.mp (hq h))

/-! ## Loops -/

theorem times_succ_run (n : Nat) (body : Routine σ Unit) (s : σ) :
    times (n + 1) body s = (body >>= fun _ => times n body) s := rfl

theorem loop_done {c : σ → Bool} {body : Routine σ Unit} {s : σ} (h : c s = false) (n : Nat) :
    loop c body n s = .ok () s := by
  cases n <;> simp [loop, h]

theorem loop_turn {c : σ → Bool} {body : Routine σ Unit} {s : σ} (h : c s = true) (n : Nat) :
    loop c body (n + 1) s = (body >>= fun _ => loop c body n) s := by
  simp only [loop, h, if_true]
  rfl

/-- The rule of `while`, from the front: `I` holds before each turn, each
turn makes the variant smaller, and what the turns after a turn do (`P`) is
what the turn and they do together. The variant bounds the turns. -/
theorem meetsOr_loop {O : Prop} {c : σ → Bool} {body : Routine σ Unit} {R : σ → Prop}
    (I : σ → Prop) (v : σ → Nat) (P : σ → σ → Prop)
    (hpos : ∀ s, I s → c s = true → 0 < v s)
    (hdone : ∀ s, I s → c s = false → P s s)
    (hturn : ∀ s, I s → c s = true →
      (body s).MeetsOr O (fun _ s₁ => I s₁ ∧ v s₁ < v s ∧ ∀ s', P s₁ s' → P s s') R)
    (n : Nat) (s : σ) (hs : I s) (hv : v s ≤ n) :
    (loop c body n s).MeetsOr O (fun _ s' => P s s') R := by
  induction n generalizing s with
  | zero =>
    cases hc : c s with
    | true => have := hpos s hs hc; omega
    | false => rw [loop_done hc]; exact hdone s hs hc
  | succ n ih =>
    cases hc : c s with
    | false => rw [loop_done hc]; exact hdone s hs hc
    | true =>
      rw [loop_turn hc]
      apply meetsOr_bind
      apply (hturn s hs hc).mono _ (fun _ h => h)
      rintro _ s₁ ⟨h1, h2, h3⟩
      exact (ih s₁ h1 (by omega)).mono (fun _ s' h => h3 s' h) (fun _ h => h)

/-! ## Two runs -/

/-- Two calls end in the same way. When they return true, they do so with
the same value, and leave states that `P` relates. -/
inductive Exit.Alike (P : σ → σ → Prop) : Exit σ α → Exit σ α → Prop
  | ok (a : α) {s s' : σ} (h : P s s') : Exit.Alike P (.ok a s) (.ok a s')
  | fail (s s' : σ) : Exit.Alike P (.fail s) (.fail s')
  | outside : Exit.Alike P .outside .outside
  | running : Exit.Alike P .running .running

/-- From states that `P` relates, two runs of the routine end in the same
way, and `Q` relates what they leave. -/
def Lockstep (P Q : σ → σ → Prop) (m : Routine σ α) : Prop :=
  ∀ s s', P s s' → Exit.Alike Q (m s) (m s')

variable {P Q R : σ → σ → Prop}

theorem lockstep_pure (a : α) : Lockstep P P (Pure.pure a : Routine σ α) :=
  fun _ _ h => .ok a h

theorem lockstep_bind {m : Routine σ α} {f : α → Routine σ β} (hm : Lockstep P Q m)
    (hf : ∀ a, Lockstep Q R (f a)) : Lockstep P R (m >>= f) := by
  intro s s' h
  have hend := hm s s' h
  rw [bind_run, bind_run]
  cases hx : m s <;> cases hy : m s' <;> rw [hx, hy] at hend <;> cases hend
  case ok.ok a t t' hq => exact hf a t t' hq
  case fail.fail => exact .fail _ _
  case outside.outside => exact .outside
  case running.running => exact .running

/-- A routine that reads the state may go on in two ways, if these are the
same for related states. -/
theorem lockstep_get {f : σ → Routine σ α} (h : ∀ s s', P s s' → f s = f s')
    (hf : ∀ s, Lockstep P Q (f s)) : Lockstep P Q (get >>= f) := by
  intro s s' hp
  rw [get_bind_run, get_bind_run, h s s' hp]
  exact hf s' s s' hp

theorem lockstep_modify {f : σ → σ} (h : ∀ s s', P s s' → Q (f s) (f s')) :
    Lockstep P Q (modify f) :=
  fun s s' hp => .ok () (h s s' hp)

theorem lockstep_rejectIf (c : Prop) [Decidable c] : Lockstep P P (rejectIf c) := by
  intro s s' h
  by_cases hc : c
  · rw [rejectIf_pos hc, rejectIf_pos hc]
    exact .fail s s'
  · rw [rejectIf_neg hc, rejectIf_neg hc]
    exact .ok () h

theorem lockstep_times {body : Routine σ Unit} (h : Lockstep P P body) (n : Nat) :
    Lockstep P P (times n body) := by
  induction n with
  | zero => exact lockstep_pure ()
  | succ n ih => exact lockstep_bind h fun _ => ih

theorem lockstep_loop {c : σ → Bool} {body : Routine σ Unit} (hc : ∀ s s', P s s' → c s = c s')
    (h : Lockstep P P body) (n : Nat) : Lockstep P P (loop c body n) := by
  induction n with
  | zero =>
    intro s s' hp
    simp only [loop, hc s s' hp]
    split
    · exact .running
    · exact .ok () hp
  | succ n ih =>
    intro s s' hp
    cases hs : c s' with
    | false =>
      rw [loop_done hs, loop_done ((hc s s' hp).trans hs)]
      exact .ok () hp
    | true =>
      rw [loop_turn hs, loop_turn ((hc s s' hp).trans hs)]
      exact lockstep_bind h (fun _ => ih) s s' hp

end routines
