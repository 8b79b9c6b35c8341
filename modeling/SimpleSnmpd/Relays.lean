-- Exchanges of two parties: a message goes to the party that did not send
-- it, and what this party answers, if it answers, is the next message.
import Mathlib.Data.List.Basic

namespace relays

variable {γ σ μ : Type} {answer : γ → σ → μ → σ × Option μ} {a b a' : σ} {m reply : μ} {g : γ}

/-- The messages from `m` on, where `a` is the party that gets `m`. Each
input lets one more message be answered. -/
def exchange (answer : γ → σ → μ → σ × Option μ) : List γ → σ → σ → μ → List μ
  | [], _, _, m => [m]
  | g :: gs, a, b, m =>
    m :: match answer g a m with
      | (_, none) => []
      | (a', some reply) => exchange answer gs b a' reply

theorem exchange_answered (h : answer g a m = (a', some reply)) (gs : List γ) :
    exchange answer (g :: gs) a b m = m :: exchange answer gs b a' reply := by
  rw [exchange, h]

theorem exchange_unanswered (h : (answer g a m).2 = none) (gs : List γ) :
    exchange answer (g :: gs) a b m = [m] := by
  rcases ha : answer g a m with ⟨a', none | reply⟩
  · rw [exchange, ha]
  · rw [ha] at h
    cases h

/-- An exchange ends after two messages at the latest exactly when the
answer to its first message is never answered. -/
theorem length_le_two_iff :
    (∀ gs, (exchange answer gs a b m).length ≤ 2) ↔
      ∀ g a' reply, answer g a m = (a', some reply) → ∀ g', (answer g' b reply).2 = none := by
  constructor
  · intro h g a' reply ha g'
    rcases hb : answer g' b reply with ⟨b', none | next⟩
    · rfl
    · have hlen := h [g, g']
      rw [exchange_answered ha, exchange_answered hb] at hlen
      cases Nat.not_succ_le_self 2 hlen
  · intro h gs
    cases gs with
    | nil => exact Nat.le_succ 1
    | cons g gs =>
      rcases ha : answer g a m with ⟨a', none | reply⟩
      · rw [exchange_unanswered (by rw [ha])]
        exact Nat.le_succ 1
      · rw [exchange_answered ha]
        cases gs with
        | nil => exact Nat.le_refl 2
        | cons g' gs =>
          rw [exchange_unanswered (h g a' reply ha g')]
          exact Nat.le_refl 2

/-- An exchange never ends where each answer keeps a property that makes the
next message be answered. -/
theorem never_ends {P : σ → σ → μ → Prop}
    (step : ∀ g a b m, P a b m → ∃ a' reply, answer g a m = (a', some reply) ∧ P b a' reply)
    (h : P a b m) (gs : List γ) : (exchange answer gs a b m).length = gs.length + 1 := by
  induction gs generalizing a b m with
  | nil => rfl
  | cons g gs ih =>
    obtain ⟨a', reply, ha, hnext⟩ := step g a b m h
    rw [exchange_answered ha, List.length_cons, List.length_cons, ih hnext]

end relays
