import SeisFeed.Session.Progress
/-!
# Turns of a loop

A loop answers what its first turn that answers does, and a turn that makes its state smaller leads
to the same answer as the state it leaves.
-/

namespace SeisFeed.Session

/-- The state that a turn leaves. -/
def Turn.state {α σ : Type} : Turn α σ → σ
  | answer _ s | again s => s

variable {α σ : Type} {size : σ → Nat} {turn : σ → Except Halt (Turn α σ)}

theorem untilAnswer_answer {s s' : σ} {a : α} (h : turn s = .ok (.answer a s')) :
    untilAnswer size turn s = .ok (a, s') := by
  rw [untilAnswer, h]

theorem untilAnswer_again {s s' : σ} (h : turn s = .ok (.again s')) (hsize : size s' < size s) :
    untilAnswer size turn s = untilAnswer size turn s' := by
  rw [untilAnswer, h]
  exact if_pos hsize

theorem untilAnswer_error {s : σ} {halt : Halt} (h : turn s = .error halt) :
    untilAnswer size turn s = .error halt := by
  rw [untilAnswer, h]

/-- What every turn keeps holds of the state that the last turn answers from. -/
theorem untilAnswer_invariant {P : σ → Prop}
    (hagain : ∀ s s', P s → turn s = .ok (.again s') → P s') {s s' : σ} {a : α} (hs : P s)
    (h : untilAnswer size turn s = .ok (a, s')) :
    ∃ last, P last ∧ turn last = .ok (.answer a s') := by
  fun_induction untilAnswer size turn s with
  | case1 s halt hturn => cases h
  | case2 s value state hturn =>
    obtain ⟨rfl, rfl⟩ := Prod.mk.inj (Except.ok.inj h)
    exact ⟨s, hs, hturn⟩
  | case3 s state hturn hsize ih => exact ih (hagain s state hs hturn) h
  | case4 s state hturn hsize => cases h

/-- A loop answers, if each turn either answers or goes on to a smaller state of the same kind. -/
theorem untilAnswer_total {P : σ → Prop} {Q : α → σ → Prop}
    (hturn : ∀ s, P s → (∃ a s', turn s = .ok (.answer a s') ∧ Q a s') ∨
      ∃ s', turn s = .ok (.again s') ∧ P s' ∧ size s' < size s) {s : σ} (hs : P s) :
    ∃ a s', untilAnswer size turn s = .ok (a, s') ∧ Q a s' := by
  induction hn : size s using Nat.strongRecOn generalizing s with
  | ind n ih =>
    subst hn
    rcases hturn s hs with ⟨a, s', hanswer, hq⟩ | ⟨s', hagain, hs', hsize⟩
    · exact ⟨a, s', untilAnswer_answer hanswer, hq⟩
    · obtain ⟨a, s'', hlater, hq⟩ := ih (size s') hsize hs' rfl
      exact ⟨a, s'', (untilAnswer_again hagain hsize).trans hlater, hq⟩

theorem ok_of_map {ε α β : Type} {f : α → β} {outcome : Except ε α} {b : β}
    (h : outcome.map f = .ok b) : ∃ a, outcome = .ok a ∧ f a = b := by
  cases outcome with
  | error halt => cases h
  | ok a => exact ⟨a, rfl, Except.ok.inj h⟩

theorem ok_of_bind {ε α β : Type} {f : α → Except ε β} {outcome : Except ε α} {b : β}
    (h : outcome >>= f = .ok b) : ∃ a, outcome = .ok a ∧ f a = .ok b := by
  cases outcome with
  | error halt => cases h
  | ok a => exact ⟨a, rfl, h⟩

end SeisFeed.Session
