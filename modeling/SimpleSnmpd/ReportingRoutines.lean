-- Routines that report. Beside the way that a call ends there are the
-- messages that it wrote, and they change nothing of how it ends.
import SimpleSnmpd.Routines

namespace routines

variable {ε σ α β : Type}

/-- A routine with its messages. -/
def Reporting (ε σ α : Type) := σ → Exit σ α × List ε

namespace Reporting

/-- A call that reports nothing. -/
def quiet (m : Routine σ α) : Reporting ε σ α := fun s => (m s, [])

/-- A call that reports when it returns false. -/
def orReport (e : ε) (m : Routine σ α) : Reporting ε σ α := fun s =>
  match m s with
  | .ok a s' => (.ok a s', [])
  | .fail s' => (.fail s', [e])
  | .outside => (.outside, [])
  | .running => (.running, [])

def bind (m : Reporting ε σ α) (f : α → Reporting ε σ β) : Reporting ε σ β := fun s =>
  match m s with
  | (.ok a s', es) => ((f a s').1, es ++ (f a s').2)
  | (.fail s', es) => (.fail s', es)
  | (.outside, es) => (.outside, es)
  | (.running, es) => (.running, es)

instance : Monad (Reporting ε σ) where
  pure a := quiet (Routine.pure a)
  bind := bind

/-- How the calls of the routine end. -/
def exits (m : Reporting ε σ α) : Routine σ α := fun s => (m s).1

end Reporting

open Reporting

/-! ## Without the messages -/

@[simp] theorem exits_quiet (m : Routine σ α) : exits (quiet m : Reporting ε σ α) = m := rfl

@[simp] theorem exits_orReport (e : ε) (m : Routine σ α) : exits (orReport e m) = m := by
  funext s
  unfold exits orReport
  cases m s <;> rfl

@[simp] theorem exits_bind (m : Reporting ε σ α) (f : α → Reporting ε σ β) :
    exits (m >>= f) = exits m >>= fun a => exits (f a) := by
  funext s
  rw [bind_run]
  show (Reporting.bind m f s).1 = _
  unfold Reporting.bind exits
  rcases m s with ⟨exit, es⟩
  cases exit <;> rfl

/-! ## The messages -/

theorem quiet_ok {m : Routine σ α} {s s' : σ} {a : α} (h : m s = .ok a s')
    (f : α → Reporting ε σ β) : (quiet m >>= f) s = f a s' := by
  show Reporting.bind (quiet m) f s = _
  simp [Reporting.bind, quiet, h]

theorem quiet_fail {m : Routine σ α} {s s' : σ} (h : m s = .fail s')
    (f : α → Reporting ε σ β) : (quiet m >>= f) s = (.fail s', []) := by
  show Reporting.bind (quiet m) f s = _
  simp [Reporting.bind, quiet, h]

theorem quiet_get (f : σ → Reporting ε σ β) (s : σ) : (quiet Routine.get >>= f) s = f s s :=
  @quiet_ok ε σ σ β Routine.get s s s rfl f

theorem orReport_ok {m : Routine σ α} {s s' : σ} {a : α} (h : m s = .ok a s') (e : ε)
    (f : α → Reporting ε σ β) : (orReport e m >>= f) s = f a s' := by
  show Reporting.bind (orReport e m) f s = _
  simp [Reporting.bind, orReport, h]

theorem orReport_fail {m : Routine σ α} {s s' : σ} (h : m s = .fail s') (e : ε)
    (f : α → Reporting ε σ β) : (orReport e m >>= f) s = (.fail s', [e]) := by
  show Reporting.bind (orReport e m) f s = _
  simp [Reporting.bind, orReport, h]

theorem bind_assoc_reporting {γ : Type} (m : Reporting ε σ α) (f : α → Reporting ε σ β)
    (g : β → Reporting ε σ γ) : (m >>= f) >>= g = m >>= fun a => f a >>= g := by
  funext s
  show Reporting.bind (Reporting.bind m f) g s =
    Reporting.bind m (fun a => Reporting.bind (f a) g) s
  unfold Reporting.bind
  rcases m s with ⟨exit, es⟩
  cases exit with
  | ok a s' =>
    simp only
    rcases f a s' with ⟨exit', es'⟩
    cases exit' <;> simp
  | fail s' => rfl
  | outside => rfl
  | running => rfl

/-- A call reports nothing, or one message as it returns false. -/
def ReportsOnce (m : Reporting ε σ α) : Prop :=
  ∀ s, (m s).2 = [] ∨ ∃ e s', m s = (.fail s', [e])

theorem reportsOnce_quiet (m : Routine σ α) : ReportsOnce (quiet m : Reporting ε σ α) :=
  fun _ => Or.inl rfl

theorem reportsOnce_orReport (e : ε) (m : Routine σ α) : ReportsOnce (orReport e m) := by
  intro s
  unfold orReport
  cases m s with
  | ok a s' => exact Or.inl rfl
  | fail s' => exact Or.inr ⟨e, s', rfl⟩
  | outside => exact Or.inl rfl
  | running => exact Or.inl rfl

theorem reportsOnce_bind {m : Reporting ε σ α} {f : α → Reporting ε σ β} (hm : ReportsOnce m)
    (hf : ∀ a, ReportsOnce (f a)) : ReportsOnce (m >>= f) := by
  intro s
  show (Reporting.bind m f s).2 = [] ∨ ∃ e s', Reporting.bind m f s = _
  unfold Reporting.bind
  rcases hm s with h | ⟨e, s', h⟩
  · rcases hx : m s with ⟨exit, es⟩
    rw [hx] at h
    cases h
    cases exit with
    | ok a s' => exact hf a s'
    | fail s' => exact Or.inl rfl
    | outside => exact Or.inl rfl
    | running => exact Or.inl rfl
  · rw [h]
    exact Or.inr ⟨e, s', rfl⟩

end routines
