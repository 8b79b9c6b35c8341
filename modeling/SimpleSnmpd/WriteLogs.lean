-- Stores and the log of their writes. A system whose every step does to its
-- store what a log of writes does, does so over a whole run, and then the
-- last write of a key says what is stored there.
import Mathlib.Data.List.Basic

namespace write_logs

variable {κ ν : Type} [DecidableEq κ]

/-! ## Stores -/

/-- What is stored under each key. -/
abbrev Store (κ ν : Type) := κ → Option ν

def put (s : Store κ ν) (k : κ) (v : ν) : Store κ ν := fun k' => if k' = k then some v else s k'

@[simp] theorem put_same (s : Store κ ν) (k : κ) (v : ν) : put s k v k = some v := by
  simp [put]

theorem put_other (s : Store κ ν) {k k' : κ} (v : ν) (h : k' ≠ k) : put s k v k' = s k' := by
  simp [put, h]

/-- The store after the writes of a log, in order. -/
def replay (s : Store κ ν) (log : List (κ × ν)) : Store κ ν :=
  log.foldl (fun s w => put s w.1 w.2) s

@[simp] theorem replay_nil (s : Store κ ν) : replay s [] = s := rfl

@[simp] theorem replay_cons (s : Store κ ν) (w : κ × ν) (log : List (κ × ν)) :
    replay s (w :: log) = replay (put s w.1 w.2) log := rfl

theorem replay_append (s : Store κ ν) (log log' : List (κ × ν)) :
    replay s (log ++ log') = replay (replay s log) log' :=
  List.foldl_append

/-- A key that no write names keeps what it had. -/
theorem replay_of_no_write {s : Store κ ν} {log : List (κ × ν)} {k : κ}
    (h : ∀ w ∈ log, w.1 ≠ k) : replay s log k = s k := by
  induction log generalizing s with
  | nil => rfl
  | cons w log ih =>
    rw [replay_cons, ih fun u hu => h u (List.mem_cons_of_mem _ hu)]
    exact put_other s w.2 (h w List.mem_cons_self).symm

/-- The last write of a key is what is stored there. -/
theorem replay_last (s : Store κ ν) (pre : List (κ × ν)) (k : κ) (v : ν) {post : List (κ × ν)}
    (h : ∀ w ∈ post, w.1 ≠ k) : replay s (pre ++ (k, v) :: post) k = some v := by
  rw [replay_append, replay_cons, replay_of_no_write h, put_same]

/-- Writes of what is stored already do nothing. -/
theorem replay_of_stored {s : Store κ ν} {log : List (κ × ν)} (h : ∀ w ∈ log, s w.1 = some w.2) :
    replay s log = s := by
  induction log with
  | nil => rfl
  | cons w log ih =>
    have hput : put s w.1 w.2 = s := by
      funext k
      by_cases hk : k = w.1
      · rw [hk, put_same, h w List.mem_cons_self]
      · exact put_other s w.2 hk
    rw [replay_cons, hput]
    exact ih fun u hu => h u (List.mem_cons_of_mem _ hu)

/-- Of writes to keys that are all different, each one is the last of its key. -/
theorem replay_of_nodup (s : Store κ ν) {log : List (κ × ν)} (h : (log.map Prod.fst).Nodup)
    {w : κ × ν} (hw : w ∈ log) : replay s log w.1 = some w.2 := by
  obtain ⟨pre, post, rfl⟩ := List.append_of_mem hw
  refine replay_last s pre w.1 w.2 fun u hu he => ?_
  rw [List.map_append, List.map_cons, List.nodup_append] at h
  exact (List.nodup_cons.mp h.2.1).1 (he ▸ List.mem_map_of_mem hu)

/-- An element with a property in a list has a last one. -/
theorem exists_last {α : Type} {p : α → Prop} {l : List α} (h : ∃ a ∈ l, p a) :
    ∃ pre a post, l = pre ++ a :: post ∧ p a ∧ ∀ b ∈ post, ¬ p b := by
  induction l with
  | nil =>
    obtain ⟨a, ha, -⟩ := h
    cases ha
  | cons x l ih =>
    by_cases hlater : ∃ a ∈ l, p a
    · obtain ⟨pre, a, post, rfl, ha, hpost⟩ := ih hlater
      exact ⟨x :: pre, a, post, rfl, ha, hpost⟩
    · have hx : p x := by
        obtain ⟨a, ha, hp⟩ := h
        rcases List.mem_cons.mp ha with rfl | ha
        · exact hp
        · exact absurd ⟨a, ha, hp⟩ hlater
      refine ⟨[], x, l, rfl, hx, ?_⟩
      intro b hb hp
      exact hlater ⟨b, hb, hp⟩

/-- A list is split in one way at its first element with a property. -/
theorem first_unique {α : Type} {p : α → Prop} {pre pre' post post' : List α} {a a' : α}
    (h : pre ++ a :: post = pre' ++ a' :: post') (ha : p a) (ha' : p a')
    (hpre : ∀ b ∈ pre, ¬ p b) (hpre' : ∀ b ∈ pre', ¬ p b) :
    pre = pre' ∧ a = a' ∧ post = post' := by
  induction pre generalizing pre' with
  | nil =>
    cases pre' with
    | nil =>
      rw [List.nil_append, List.nil_append, List.cons.injEq] at h
      exact ⟨rfl, h⟩
    | cons x pre' =>
      rw [List.nil_append, List.cons_append, List.cons.injEq] at h
      exact absurd (h.1 ▸ ha) (hpre' x List.mem_cons_self)
  | cons x pre ih =>
    cases pre' with
    | nil =>
      rw [List.nil_append, List.cons_append, List.cons.injEq] at h
      exact absurd (h.1 ▸ ha') (hpre x List.mem_cons_self)
    | cons y pre' =>
      rw [List.cons_append, List.cons_append, List.cons.injEq] at h
      obtain ⟨rfl, hrest⟩ := h
      obtain ⟨rfl, hsame⟩ := ih hrest (fun b hb => hpre b (List.mem_cons_of_mem _ hb))
        (fun b hb => hpre' b (List.mem_cons_of_mem _ hb))
      exact ⟨rfl, hsame⟩

omit [DecidableEq κ] in
/-- A key that a log names has a last write. -/
theorem exists_last_write {log : List (κ × ν)} {k : κ} (h : ∃ w ∈ log, w.1 = k) :
    ∃ pre v post, log = pre ++ (k, v) :: post ∧ ∀ w ∈ post, w.1 ≠ k := by
  obtain ⟨pre, w, post, hlog, rfl, hpost⟩ := exists_last h
  exact ⟨pre, w.2, post, hlog, hpost⟩

/-- What is stored under a key changes only by a write of it. -/
theorem exists_last_write_of_ne {s : Store κ ν} {log : List (κ × ν)} {k : κ}
    (h : replay s log k ≠ s k) :
    ∃ pre v post, log = pre ++ (k, v) :: post ∧ ∀ w ∈ post, w.1 ≠ k := by
  apply exists_last_write
  by_contra hno
  refine h (replay_of_no_write ?_)
  intro w hw hk
  exact hno ⟨w, hw, hk⟩

/-! ## Runs that write -/

section

-- A system: its steps, the store in its states, and what a step writes.
variable {σ ε : Type} (step : σ → ε → σ) (view : σ → Store κ ν) (log : σ → ε → List (κ × ν))

/-- What a run writes. -/
def runLog : σ → List ε → List (κ × ν)
  | _, [] => []
  | s, e :: es => log s e ++ runLog (step s e) es

variable {step view log}

omit [DecidableEq κ] in
theorem runLog_append (s : σ) (es es' : List ε) :
    runLog step log s (es ++ es') =
      runLog step log s es ++ runLog step log (es.foldl step s) es' := by
  induction es generalizing s with
  | nil => rfl
  | cons e es ih => rw [List.cons_append, runLog, ih, runLog, List.append_assoc, List.foldl_cons]

/-- The rule of runs: when each step writes its log, a run writes the logs
of its steps. -/
theorem view_run (h : ∀ s e, view (step s e) = replay (view s) (log s e)) (s : σ) (es : List ε) :
    view (es.foldl step s) = replay (view s) (runLog step log s es) := by
  induction es generalizing s with
  | nil => rfl
  | cons e es ih => rw [List.foldl_cons, ih, runLog, replay_append, h]

omit [DecidableEq κ] in
/-- A write of a run is a write of one of its steps. What is written after
it is the rest of that step, and the rest of the run. -/
theorem runLog_split {s : σ} {es : List ε} {l l' : List (κ × ν)} {w : κ × ν}
    (h : runLog step log s es = l ++ w :: l') :
    ∃ pre e post m m', es = pre ++ e :: post ∧ log (pre.foldl step s) e = m ++ w :: m' ∧
      l' = m' ++ runLog step log (step (pre.foldl step s) e) post := by
  induction es generalizing s l with
  | nil => cases l <;> cases h
  | cons e es ih =>
    rw [runLog, List.append_eq_append_iff] at h
    rcases h with ⟨as, rfl, h⟩ | ⟨bs, hl, h⟩
    · obtain ⟨pre, e', post, m, m', rfl, hlog, hl'⟩ := ih h
      exact ⟨e :: pre, e', post, m, m', rfl, hlog, hl'⟩
    · cases bs with
      | nil =>
        rw [List.nil_append] at h
        obtain ⟨pre, e', post, m, m', rfl, hlog, hl'⟩ := ih (l := []) h.symm
        exact ⟨e :: pre, e', post, m, m', rfl, hlog, hl'⟩
      | cons b bs =>
        rw [List.cons_append, List.cons.injEq] at h
        obtain ⟨rfl, h⟩ := h
        exact ⟨[], e, es, l, bs, rfl, hl, h⟩

end

end write_logs
