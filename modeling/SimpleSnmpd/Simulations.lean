-- Machines that give something out as they step, and machines that follow
-- others. The one that is followed steps on some of the inputs only: on the
-- rest, the one that follows it gives nothing out and stays where it was.
import Mathlib.Algebra.GroupWithZero.Nat
import Mathlib.Algebra.Order.BigOperators.Group.List

namespace simulations

variable {σ τ ι κ ο : Type}

/-! ## What a run gives out -/

def outputs (step : σ → ι → σ) (out : σ → ι → Option ο) : σ → List ι → List ο
  | _, [] => []
  | s, e :: es => (out s e).toList ++ outputs step out (step s e) es

section

variable {step : σ → ι → σ} {out : σ → ι → Option ο}

theorem outputs_cons (s : σ) (e : ι) (es : List ι) :
    outputs step out s (e :: es) = (out s e).toList ++ outputs step out (step s e) es := rfl

/-- What is made of each output is made of all of them. -/
theorem map_outputs {ο' : Type} (f : ο → ο') (s : σ) (es : List ι) :
    (outputs step out s es).map f = outputs step (fun s e => (out s e).map f) s es := by
  induction es generalizing s with
  | nil => rfl
  | cons e es ih => rw [outputs, List.map_append, ih, outputs, Option.toList_map]

theorem filter_outputs (p : ο → Bool) (s : σ) (es : List ι) :
    (outputs step out s es).filter p = outputs step (fun s e => (out s e).filter p) s es := by
  induction es generalizing s with
  | nil => rfl
  | cons e es ih => rw [outputs, List.filter_append, ih, outputs, Option.toList_filter]

theorem filterMap_outputs {ο' : Type} (f : ο → Option ο') (s : σ) (es : List ι) :
    (outputs step out s es).filterMap f = outputs step (fun s e => (out s e).bind f) s es := by
  induction es generalizing s with
  | nil => rfl
  | cons e es ih =>
    rw [outputs, List.filterMap_append, ih, outputs]
    cases h : out s e with
    | none => rfl
    | some a =>
      rw [Option.toList_some, Option.bind_some, List.filterMap_cons]
      cases f a <;> rfl

/-- The outputs on inputs that are made of others. -/
theorem outputs_map (f : κ → ι) (s : σ) (es : List κ) :
    outputs step out s (es.map f) =
      outputs (fun s e => step s (f e)) (fun s e => out s (f e)) s es := by
  induction es generalizing s with
  | nil => rfl
  | cons e es ih => rw [List.map_cons, outputs, ih, outputs]

/-- Outputs that are alike in every state are alike over a run. -/
theorem outputs_congr {out' : σ → ι → Option ο} (h : ∀ s e, out s e = out' s e) (s : σ)
    (es : List ι) : outputs step out s es = outputs step out' s es := by
  induction es generalizing s with
  | nil => rfl
  | cons e es ih => rw [outputs, ih, h, outputs]

/-- Where each step keeps what it needs, and its input pays for what it gives
out, the inputs of a run pay for all that it gives out. -/
theorem sum_outputs_le {needs : σ → Prop} {size : ο → Nat} {pays : ι → Nat}
    (hkeep : ∀ s e, needs s → needs (step s e))
    (hout : ∀ s e o, needs s → out s e = some o → size o ≤ pays e) {s : σ} (hs : needs s)
    (es : List ι) : ((outputs step out s es).map size).sum ≤ (es.map pays).sum := by
  induction es generalizing s with
  | nil => exact Nat.le_refl _
  | cons e es ih =>
    rw [outputs, List.map_append, List.sum_append, List.map_cons, List.sum_cons]
    refine Nat.add_le_add ?_ (ih (hkeep s e hs))
    cases ho : out s e with
    | none => exact Nat.zero_le _
    | some o => simpa using hout s e o hs ho

end

/-! ## Following -/

/-- One machine follows the other, on inputs of a kind: `f` says which input
the other one steps on, if it steps. -/
structure Follows (R : σ → τ → Prop) (kind : ι → Prop) (f : ι → Option κ) (step : σ → ι → σ)
    (out : σ → ι → Option ο) (step' : τ → κ → τ) (out' : τ → κ → Option ο) : Prop where
  moves : ∀ s t e e', R s t → kind e → f e = some e' →
    R (step s e) (step' t e') ∧ out s e = out' t e'
  stays : ∀ s t e, R s t → kind e → f e = none → R (step s e) t ∧ out s e = none

variable {R : σ → τ → Prop} {kind : ι → Prop} {f : ι → Option κ} {step : σ → ι → σ}
  {out : σ → ι → Option ο} {step' : τ → κ → τ} {out' : τ → κ → Option ο}

/-- The rule of runs: a machine that follows the other one over each step
ends where the other one ends, and gives out the same. -/
theorem Follows.run (h : Follows R kind f step out step' out') {s : σ} {t : τ} (hst : R s t)
    {es : List ι} (hes : ∀ e ∈ es, kind e) :
    R (es.foldl step s) ((es.filterMap f).foldl step' t) ∧
      outputs step out s es = outputs step' out' t (es.filterMap f) := by
  induction es generalizing s t with
  | nil => exact ⟨hst, rfl⟩
  | cons e es ih =>
    have hkind := hes e List.mem_cons_self
    have hrest := fun e' he' => hes e' (List.mem_cons_of_mem _ he')
    cases hf : f e with
    | none =>
      obtain ⟨hnext, hout⟩ := h.stays s t e hst hkind hf
      obtain ⟨hend, houts⟩ := ih hnext hrest
      rw [List.filterMap_cons_none hf, List.foldl_cons, outputs, hout]
      exact ⟨hend, houts⟩
    | some e' =>
      obtain ⟨hnext, hout⟩ := h.moves s t e e' hst hkind hf
      obtain ⟨hend, houts⟩ := ih hnext hrest
      rw [List.filterMap_cons_some hf, List.foldl_cons, List.foldl_cons, outputs, outputs, hout,
        houts]
      exact ⟨hend, rfl⟩

/-! ## Pipes -/

/-- The rule of pipes: a machine that keeps up with each step of another
one, on what the step gives out, keeps up with a run on what the run gives
out. -/
theorem outputs_run {step' : τ → ο → τ}
    (h : ∀ s t e, R s t → R (step s e) ((out s e).toList.foldl step' t)) {s : σ} {t : τ}
    (hst : R s t) (es : List ι) :
    R (es.foldl step s) ((outputs step out s es).foldl step' t) := by
  induction es generalizing s t with
  | nil => exact hst
  | cons e es ih =>
    rw [outputs, List.foldl_append]
    exact ih (h s t e hst)

/-! ## Views -/

section

variable {ν : Type} {view : σ → ν}

/-- Runs from states of one view end in states of one view. -/
theorem view_runs (hmoves : ∀ s t e, view s = view t → view (step s e) = view (step t e))
    {s t : σ} (hst : view s = view t) (es : List ι) :
    view (es.foldl step s) = view (es.foldl step t) := by
  induction es generalizing s t with
  | nil => exact hst
  | cons e es ih => exact ih (hmoves s t e hst)

/-- The rule of orders: where each two inputs do the same in either order,
all of them do the same in any order. -/
theorem view_runs_perm (hmoves : ∀ s t e, view s = view t → view (step s e) = view (step t e))
    {es es' : List ι} (h : es.Perm es')
    (hcomm : ∀ e ∈ es, ∀ e' ∈ es, ∀ s, view (step (step s e) e') = view (step (step s e') e))
    (s : σ) : view (es.foldl step s) = view (es'.foldl step s) := by
  induction h generalizing s with
  | nil => rfl
  | cons e _ ih =>
    refine ih (fun a ha b hb => ?_) (step s e)
    exact hcomm a (List.mem_cons_of_mem _ ha) b (List.mem_cons_of_mem _ hb)
  | swap e e' es => exact view_runs hmoves (hcomm e' (by simp) e (by simp) s) es
  | trans h _ ih ih' =>
    refine (ih hcomm s).trans (ih' (fun a ha b hb => ?_) s)
    exact hcomm a (h.mem_iff.mpr ha) b (h.mem_iff.mpr hb)

/-! ## Inputs that come again -/

/-- The second list is the first one, with inputs that come more than once
in a row. -/
inductive Repeats : List ι → List ι → Prop
  | nil : Repeats [] []
  | once {e : ι} {es es' : List ι} (hes : Repeats es es') : Repeats (e :: es) (e :: es')
  | again {e : ι} {es es' : List ι} (hes : Repeats (e :: es) es') : Repeats (e :: es) (e :: es')

/-- The rule of repeats: where states of one view are kept at one view, and
an input that comes again does nothing, a run is seen to end where it ends
without repeats. -/
theorem Repeats.run {es es' : List ι} (h : Repeats es es')
    (hmoves : ∀ s t e, view s = view t → view (step s e) = view (step t e))
    (hagain : ∀ e ∈ es, ∀ s, view (step (step s e) e) = view (step s e)) (s : σ) :
    view (es.foldl step s) = view (es'.foldl step s) := by
  induction h generalizing s with
  | nil => rfl
  | @once e es es' _ ih =>
    exact ih (fun e' he' => hagain e' (List.mem_cons_of_mem _ he')) (step s e)
  | @again e es es' _ ih =>
    -- the run without repeats may as well take its input twice
    have htwice := hagain e List.mem_cons_self s
    calc view ((e :: es).foldl step s)
        = view ((e :: es).foldl step (step s e)) := (view_runs hmoves htwice es).symm
      _ = view ((e :: es').foldl step s) := ih hagain (step s e)

end

end simulations
