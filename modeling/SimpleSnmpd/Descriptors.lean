-- Descriptors that an operating system hands out and takes back. A log says
-- what became of each of them, and its last entry for a descriptor says what
-- the descriptor is now.
import SimpleSnmpd.WriteLogs
import Mathlib.Data.List.Induction

open write_logs

namespace descriptors

variable {κ : Type} [DecidableEq κ]

/-- What becomes of a descriptor. -/
inductive Change where
  | opened
  | bound
  | closed
deriving DecidableEq, Repr

/-- What each descriptor is after a log. -/
def table (log : List (κ × Change)) : Store κ Change := replay (fun _ => none) log

def IsLive (log : List (κ × Change)) (d : κ) : Prop :=
  table log d = some .opened ∨ table log d = some .bound

instance (log : List (κ × Change)) (d : κ) : Decidable (IsLive log d) :=
  inferInstanceAs (Decidable (_ ∨ _))

/-- Every descriptor is open when it is closed. So none is closed twice. -/
def ClosesLive (log : List (κ × Change)) : Prop :=
  ∀ pre d post, log = pre ++ (d, .closed) :: post → IsLive pre d

/-! ## One entry more -/

variable {log log' : List (κ × Change)} {d d' : κ} {c : Change}

theorem table_snoc (log : List (κ × Change)) (d : κ) (c : Change) :
    table (log ++ [(d, c)]) = put (table log) d c := by
  unfold table
  rw [replay_append]
  rfl

@[simp] theorem table_snoc_same : table (log ++ [(d, c)]) d = some c := by
  simp [table_snoc]

theorem table_snoc_other (h : d' ≠ d) : table (log ++ [(d, c)]) d' = table log d' := by
  rw [table_snoc, put_other _ _ h]

theorem isLive_snoc_other (h : d' ≠ d) : IsLive (log ++ [(d, c)]) d' ↔ IsLive log d' := by
  unfold IsLive
  rw [table_snoc_other h]

theorem isLive_snoc_opened : IsLive (log ++ [(d, .opened)]) d :=
  Or.inl table_snoc_same

theorem not_isLive_snoc_closed : ¬ IsLive (log ++ [(d, .closed)]) d := by
  simp [IsLive]

/-- An element of a list with one more at its end is that one, or it is in
the list. -/
theorem append_cons_eq_snoc {α : Type} {xs pre post : List α} {x y : α}
    (h : xs ++ [x] = pre ++ y :: post) :
    post = [] ∧ xs = pre ∧ x = y ∨ ∃ rest, xs = pre ++ y :: rest := by
  induction post using List.reverseRecOn with
  | nil =>
    obtain ⟨h1, h2⟩ := List.append_inj' h rfl
    exact Or.inl ⟨rfl, h1, (List.cons.inj h2).1⟩
  | append_singleton post z _ =>
    rw [← List.cons_append, ← List.append_assoc] at h
    exact Or.inr ⟨post, (List.append_inj' h rfl).1⟩

theorem ClosesLive.snoc (h : ClosesLive log) (hc : c = .closed → IsLive log d) :
    ClosesLive (log ++ [(d, c)]) := by
  intro pre d' post heq
  rcases append_cons_eq_snoc heq with ⟨-, rfl, hw⟩ | ⟨rest, rfl⟩
  · cases hw
    exact hc rfl
  · exact h pre d' rest rfl

theorem ClosesLive.opened (h : ClosesLive log) : ClosesLive (log ++ [(d, .opened)]) :=
  h.snoc nofun

theorem ClosesLive.bound (h : ClosesLive log) : ClosesLive (log ++ [(d, .bound)]) :=
  h.snoc nofun

theorem ClosesLive.closed (h : ClosesLive log) (hd : IsLive log d) :
    ClosesLive (log ++ [(d, .closed)]) :=
  h.snoc fun _ => hd

theorem closesLive_nil : ClosesLive ([] : List (κ × Change)) := by
  intro pre d post h
  cases pre <;> cases h

/-- Entries of other descriptors leave a descriptor as it is. -/
theorem isLive_append_other (h : ∀ w ∈ log', w.1 ≠ d) : IsLive (log ++ log') d ↔ IsLive log d := by
  unfold IsLive table
  rw [replay_append, replay_of_no_write h]

end descriptors
