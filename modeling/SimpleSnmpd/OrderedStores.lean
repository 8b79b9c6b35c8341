-- Stores with ordered keys: the least stored key above a key, and what two
-- stores that agree on some of their keys have in common.
import SimpleSnmpd.WriteLogs

open write_logs

namespace ordered_stores

variable {κ ν : Type} {low : κ → Prop} {s t : Store κ ν}

/-- The stores hold the same at the keys. -/
def AgreeOn (low : κ → Prop) (s t : Store κ ν) : Prop := ∀ k, low k → s k = t k

/-- The same write keeps the agreement. -/
theorem AgreeOn.put [DecidableEq κ] (h : AgreeOn low s t) (k : κ) (v : ν) :
    AgreeOn low (put s k v) (put t k v) := by
  intro k' hk
  by_cases he : k' = k
  · rw [he, put_same, put_same]
  · rw [put_other _ _ he, put_other _ _ he]
    exact h k' hk

theorem AgreeOn.replay [DecidableEq κ] (h : AgreeOn low s t) (log : List (κ × ν)) :
    AgreeOn low (replay s log) (replay t log) := by
  induction log generalizing s t with
  | nil => exact h
  | cons w log ih => exact ih (h.put w.1 w.2)

/-- Logs that write different keys may be replayed in any order. -/
theorem replay_comm [DecidableEq κ] (s : Store κ ν) {log log' : List (κ × ν)}
    (h : ∀ w ∈ log, ∀ w' ∈ log', w.1 ≠ w'.1) :
    write_logs.replay (write_logs.replay s log) log' =
      write_logs.replay (write_logs.replay s log') log := by
  funext k
  -- a key that one log does not write is what the other one makes of it
  have hother : ∀ log log' : List (κ × ν), (∀ w ∈ log', w.1 ≠ k) →
      write_logs.replay (write_logs.replay s log') log k = write_logs.replay s log k := by
    intro log log' hno
    have hagree : AgreeOn (· = k) (write_logs.replay s log') s := by
      rintro k' rfl
      exact replay_of_no_write hno
    exact hagree.replay log k rfl
  by_cases hk : ∃ w ∈ log, w.1 = k
  · obtain ⟨w, hw, rfl⟩ := hk
    have hno : ∀ w' ∈ log', w'.1 ≠ w.1 := fun w' hw' => (h w hw w' hw').symm
    rw [replay_of_no_write hno, hother log log' hno]
  · have hno : ∀ w ∈ log, w.1 ≠ k := fun w hw he => hk ⟨w, hw, he⟩
    rw [hother log' log hno, replay_of_no_write hno]

variable [LT κ]

/-- `n` is the least stored key above `k`. -/
structure IsNext (s : Store κ ν) (k n : κ) : Prop where
  stored : s n ≠ none
  above : k < n
  least : ∀ x, s x ≠ none → k < x → ¬ x < n

theorem IsNext.unique [Std.Trichotomous (· < · : κ → κ → Prop)] {k n n' : κ}
    (h : IsNext s k n) (h' : IsNext s k n') : n = n' :=
  Std.Trichotomous.trichotomous n n' (h'.least n h.stored h.above) (h.least n' h'.stored h'.above)

/-- What is least above a key depends only on the keys above it. -/
theorem AgreeOn.isNext (h : AgreeOn low s t) {k n : κ} (hk : ∀ x, k < x → low x)
    (hn : IsNext s k n) : IsNext t k n where
  stored := by
    rw [← h n (hk n hn.above)]
    exact hn.stored
  above := hn.above
  least := by
    intro x hx hkx
    rw [← h x (hk x hkx)] at hx
    exact hn.least x hx hkx

/-- The function finds the least stored key above a key, if there is one. -/
def FindsNext (next : κ → Option κ) (s : Store κ ν) : Prop :=
  ∀ k, match next k with
    | some n => IsNext s k n
    | none => ∀ x, s x ≠ none → ¬ k < x

/-- Two stores that agree above a key have the same key next. -/
theorem FindsNext.congr [Std.Trichotomous (· < · : κ → κ → Prop)] {next next' : κ → Option κ}
    (hs : FindsNext next s) (ht : FindsNext next' t) (h : AgreeOn low s t) {k : κ}
    (hk : ∀ x, k < x → low x) : next k = next' k := by
  have h1 := hs k
  have h2 := ht k
  cases hn : next k with
  | none =>
    rw [hn] at h1
    cases hn' : next' k with
    | none => rfl
    | some n =>
      rw [hn'] at h2
      have hstored := h2.stored
      rw [← h n (hk n h2.above)] at hstored
      exact absurd h2.above (h1 n hstored)
  | some n =>
    rw [hn] at h1
    cases hn' : next' k with
    | none =>
      rw [hn'] at h2
      have hstored := h1.stored
      rw [h n (hk n h1.above)] at hstored
      exact absurd h1.above (h2 n hstored)
    | some n' =>
      rw [hn'] at h2
      rw [(h.isNext hk h1).unique h2]

/-! ## The same keys -/

/-- The stores have the same keys, whatever is stored there. -/
def SameKeys (s t : Store κ ν) : Prop := ∀ k, s k ≠ none ↔ t k ≠ none

omit [LT κ] in
/-- What is stored again has been a key before. -/
theorem SameKeys.put [DecidableEq κ] (h : SameKeys s t) {k : κ} (hk : t k ≠ none) (v : ν) :
    SameKeys s (put t k v) := by
  intro k'
  by_cases he : k' = k
  · rw [he, put_same, h k]
    exact iff_of_true hk nofun
  · rw [put_other _ _ he]
    exact h k'

theorem SameKeys.isNext (h : SameKeys s t) {k n : κ} (hn : IsNext s k n) : IsNext t k n where
  stored := (h n).mp hn.stored
  above := hn.above
  least x hx := hn.least x ((h x).mpr hx)

/-- Two stores with the same keys have the same key next. -/
theorem FindsNext.of_sameKeys [Std.Trichotomous (· < · : κ → κ → Prop)]
    {next next' : κ → Option κ} (hs : FindsNext next s) (ht : FindsNext next' t)
    (h : SameKeys s t) (k : κ) : next k = next' k := by
  have h1 := hs k
  have h2 := ht k
  cases hn : next k with
  | none =>
    rw [hn] at h1
    cases hn' : next' k with
    | none => rfl
    | some n =>
      rw [hn'] at h2
      exact absurd h2.above (h1 n ((h n).mpr h2.stored))
  | some n =>
    rw [hn] at h1
    cases hn' : next' k with
    | none =>
      rw [hn'] at h2
      exact absurd h1.above (h2 n ((h n).mp h1.stored))
    | some n' =>
      rw [hn'] at h2
      rw [(h.isNext h1).unique h2]

/-! ## From key to key -/

/-- The list holds the stored keys above `k`, in ascending order. -/
structure IsAbove (s : Store κ ν) (k : κ) (ks : List κ) : Prop where
  ascending : ks.Pairwise (· < ·)
  mem_iff : ∀ x, x ∈ ks ↔ s x ≠ none ∧ k < x

theorem SameKeys.isAbove (h : SameKeys s t) {k : κ} {ks : List κ} (hks : IsAbove s k ks) :
    IsAbove t k ks where
  ascending := hks.ascending
  mem_iff x := by rw [hks.mem_iff x, h x]

section

variable [DecidableRel (· < · : κ → κ → Prop)] {ks : List κ}

/-- In an ascending list of the stored keys, the first one above a key is the
least. -/
theorem findsNext_find? [Std.Irrefl (· < · : κ → κ → Prop)] [IsTrans κ (· < ·)]
    (h : ks.Pairwise (· < ·)) (hs : ∀ x, s x ≠ none ↔ x ∈ ks) :
    FindsNext (fun k => ks.find? (k < ·)) s := by
  intro k
  dsimp only
  cases hn : ks.find? (k < ·) with
  | none =>
    intro x hx hkx
    exact List.find?_eq_none.mp hn x ((hs x).mp hx) (decide_eq_true hkx)
  | some n =>
    obtain ⟨hkn, before, after, rfl, hbefore⟩ := List.find?_eq_some_iff_append.mp hn
    refine ⟨(hs n).mpr (by simp), of_decide_eq_true hkn, fun x hx hkx hlt => ?_⟩
    rcases List.mem_append.mp ((hs x).mp hx) with hmem | hmem
    · have hno := hbefore x hmem
      simp [hkx] at hno
    · rcases List.mem_cons.mp hmem with rfl | hmem
      · exact Std.Irrefl.irrefl _ hlt
      · have hnx : n < x := List.rel_of_pairwise_cons (List.pairwise_append.mp h).2.1 hmem
        exact Std.Irrefl.irrefl _ (IsTrans.trans _ _ _ hlt hnx)

/-- The stored keys above a key, from an ascending list of them all. -/
theorem isAbove_filter (h : ks.Pairwise (· < ·)) (hs : ∀ x, s x ≠ none ↔ x ∈ ks) (k : κ) :
    IsAbove s k (ks.filter (k < ·)) where
  ascending := h.filter _
  mem_iff x := by rw [List.mem_filter, decide_eq_true_iff, hs x]

end

/-- Above the first of the keys are the others. -/
theorem IsAbove.tail [Std.Irrefl (· < · : κ → κ → Prop)] [IsTrans κ (· < ·)] {k n : κ}
    {ks : List κ} (h : IsAbove s k (n :: ks)) : IsAbove s n ks where
  ascending := h.ascending.of_cons
  mem_iff := by
    intro x
    have hn := (h.mem_iff n).mp List.mem_cons_self
    constructor
    · intro hx
      exact ⟨((h.mem_iff x).mp (List.mem_cons_of_mem _ hx)).1,
        List.rel_of_pairwise_cons h.ascending hx⟩
    · rintro ⟨hstored, hnx⟩
      have hkx : k < x := IsTrans.trans _ _ _ hn.2 hnx
      rcases List.mem_cons.mp ((h.mem_iff x).mpr ⟨hstored, hkx⟩) with rfl | hx
      · exact absurd hnx (Std.Irrefl.irrefl x)
      · exact hx

/-- The least key above is the first of the keys above. -/
theorem FindsNext.eq_head {next : κ → Option κ} (h : FindsNext next s) {k : κ} {ks : List κ}
    (hks : IsAbove s k ks) : next k = ks.head? := by
  have hk := h k
  cases hn : next k with
  | none =>
    rw [hn] at hk
    cases ks with
    | nil => rfl
    | cons m ks =>
      obtain ⟨hstored, hkm⟩ := (hks.mem_iff m).mp List.mem_cons_self
      exact absurd hkm (hk m hstored)
  | some n =>
    rw [hn] at hk
    have hmem := (hks.mem_iff n).mpr ⟨hk.stored, hk.above⟩
    cases ks with
    | nil => cases hmem
    | cons m ks =>
      obtain ⟨hstored, hkm⟩ := (hks.mem_iff m).mp List.mem_cons_self
      rcases List.mem_cons.mp hmem with rfl | hmem
      · rfl
      · exact absurd (List.rel_of_pairwise_cons hks.ascending hmem) (hk.least m hstored hkm)

end ordered_stores
