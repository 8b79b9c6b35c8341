-- Registers: a part of the state that a step overwrites or leaves alone. At
-- the end of a run it holds what was last written to it.
import Mathlib.Data.List.Basic

namespace registers

variable {σ ι ν μ : Type}

/-! ## What a run writes -/

/-- What each step of a run writes to the register, if it writes. -/
def writes (step : σ → ι → σ) (write : σ → ι → Option ν) : σ → List ι → List (Option ν)
  | _, [] => []
  | s, e :: es => write s e :: writes step write (step s e) es

/-- The last of the writes. -/
def lastWrite : List (Option ν) → Option ν
  | [] => none
  | w :: ws => (lastWrite ws).or w

/-- The first of the writes is at index `i`, of the value `v`. -/
def FirstWrite (ws : List (Option ν)) (i : Nat) (v : ν) : Prop :=
  ws[i]? = some (some v) ∧ ∀ j < i, ws[j]? = some none

variable {step : σ → ι → σ} {write : σ → ι → Option ν}

/-- The rule of registers: when each step writes its value or keeps the
register, a run ends with the last value that it writes. -/
theorem view_run (view : σ → ν) (h : ∀ s e, view (step s e) = (write s e).getD (view s)) (s : σ)
    (es : List ι) :
    view (es.foldl step s) = (lastWrite (writes step write s es)).getD (view s) := by
  induction es generalizing s with
  | nil => rfl
  | cons e es ih => rw [List.foldl_cons, ih, h, writes, lastWrite, Option.getD_or]

/-- Writes that depend on the input alone are those of the inputs. -/
theorem writes_of_inputs (f : ι → Option ν) (s : σ) (es : List ι) :
    writes step (fun _ => f) s es = es.map f := by
  induction es generalizing s with
  | nil => rfl
  | cons e es ih => rw [writes, ih, List.map_cons]

theorem map_writes (f : ν → μ) (s : σ) (es : List ι) :
    writes step (fun s e => (write s e).map f) s es =
      (writes step write s es).map (Option.map f) := by
  induction es generalizing s with
  | nil => rfl
  | cons e es ih => rw [writes, ih, writes, List.map_cons]

/-! ## The last write and the first one -/

theorem lastWrite_map (f : ν → μ) (ws : List (Option ν)) :
    lastWrite (ws.map (Option.map f)) = (lastWrite ws).map f := by
  induction ws with
  | nil => rfl
  | cons w ws ih => rw [List.map_cons, lastWrite, ih, lastWrite, Option.map_or]

theorem lastWrite_eq_none {ws : List (Option ν)} : lastWrite ws = none ↔ ∀ w ∈ ws, w = none := by
  induction ws with
  | nil => simp [lastWrite]
  | cons w ws ih => rw [lastWrite, Option.or_eq_none_iff, ih, List.forall_mem_cons, and_comm]

theorem mem_of_lastWrite {ws : List (Option ν)} {v : ν} (h : lastWrite ws = some v) :
    some v ∈ ws := by
  induction ws with
  | nil => cases h
  | cons w ws ih =>
    rw [lastWrite, Option.or_eq_some_iff] at h
    rcases h with h | ⟨-, h⟩
    · exact List.mem_cons_of_mem _ (ih h)
    · rw [h]
      exact List.mem_cons_self

/-- Where every write is of one value, and there is a write, it is the last. -/
theorem lastWrite_of_all {ws : List (Option ν)} {v : ν} (h : ∀ w ∈ ws, w = none ∨ w = some v)
    (hv : some v ∈ ws) : lastWrite ws = some v := by
  cases hlast : lastWrite ws with
  | none => cases lastWrite_eq_none.mp hlast _ hv
  | some u =>
    have hu := h _ (mem_of_lastWrite hlast)
    exact hu.resolve_left nofun

/-- Inputs whose writes are all bad may be left out where the last write is
not bad. -/
theorem lastWrite_filter {f : ι → Option ν} {keep : ι → Bool} (bad : ν → Prop)
    (h : ∀ x v, keep x = false → f x = some v → bad v) {xs : List ι}
    (hlast : ∀ v, lastWrite (xs.map f) = some v → ¬ bad v) :
    lastWrite ((xs.filter keep).map f) = lastWrite (xs.map f) := by
  induction xs with
  | nil => rfl
  | cons x xs ih =>
    rw [List.map_cons, lastWrite] at hlast ⊢
    cases hxs : lastWrite (xs.map f) with
    | some v =>
      rw [hxs] at ih hlast
      have hrest := ih fun v' hv => hlast v' (by rw [← hv]; rfl)
      cases hkeep : keep x with
      | false => rw [List.filter_cons_of_neg (by simp [hkeep]), hrest]; rfl
      | true => rw [List.filter_cons_of_pos hkeep, List.map_cons, lastWrite, hrest]
    | none =>
      rw [hxs] at ih hlast
      have hrest := ih nofun
      cases hkeep : keep x with
      | true => rw [List.filter_cons_of_pos hkeep, List.map_cons, lastWrite, hrest]
      | false =>
        rw [List.filter_cons_of_neg (by simp [hkeep]), hrest]
        cases hx : f x with
        | none => rfl
        | some v => exact absurd (h x v hkeep hx) (hlast v (by rw [hx]; rfl))

theorem FirstWrite.mem {ws : List (Option ν)} {i : Nat} {v : ν} (h : FirstWrite ws i v) :
    some v ∈ ws :=
  List.mem_of_getElem? h.1

end registers
