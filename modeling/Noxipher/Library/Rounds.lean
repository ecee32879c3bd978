import Noxipher.Library.Polling

namespace Noxipher.Polling

variable {σ α : Type}

/-- How a polling loop ends: the answer, the rounds it made, the state they left and the instant. -/
structure Ended (σ α : Type) where
  answer : Option α
  rounds : Nat
  state : σ
  now : Nat

/-- Rounds that hand a state on: each answers or not after some time, and a round without an answer is followed by a
pause. The fuel bounds the rounds. -/
def loop (round : Nat → σ → Option α × Nat × σ) (pause : Nat → Nat) (deadline : Nat) :
    Nat → Nat → σ → Nat → Ended σ α
  | 0, k, s, now => ⟨none, k, s, now⟩
  | fuel+1, k, s, now =>
    if now < deadline then
      let (answer, spent, s') := round k s
      match answer with
      | some a => ⟨some a, k+1, s', now+spent⟩
      | none => loop round pause deadline fuel (k+1) s' (now+spent+pause k)
    else ⟨none, k, s, now⟩

variable (round : Nat → σ → Option α × Nat × σ) (pause : Nat → Nat) (deadline start : Nat) (s : σ)

/-- The state before round `k` when no round before it answered. -/
def before : Nat → σ
  | 0 => s
  | k+1 => (round k (before k)).2.2

/-- What round `k` answers then, and what it takes with its pause. -/
def answers (k : Nat) : Option α := (round k (before round s k)).1

def takes (k : Nat) : Nat := (round k (before round s k)).2.1+pause k

/-- The loop answers what the loop without a state does, after rounds of which the last one began before the deadline,
and without an answer it ends past the deadline. -/
structure LoopSpec (ended : Ended σ α) (fuel k : Nat) : Prop where
  answer : ended.answer = run (takes round pause s) (answers round s) deadline fuel k (time (takes round pause s) start k)
  rounds : k ≤ ended.rounds
  state : ended.state = before round s ended.rounds
  last : k < ended.rounds → time (takes round pause s) start (ended.rounds-1) < deadline
  now : ended.now ≤ time (takes round pause s) start ended.rounds
  past : ended.answer = none → ended.now = time (takes round pause s) start ended.rounds ∧
    (deadline ≤ ended.now ∨ k+fuel ≤ ended.rounds)

theorem loop_spec (fuel k : Nat) :
    LoopSpec round pause deadline start s
      (loop round pause deadline fuel k (before round s k) (time (takes round pause s) start k)) fuel k := by
  induction fuel generalizing k with
  | zero => exact ⟨rfl, le_rfl, rfl, fun h => absurd h (lt_irrefl k), le_rfl, fun _ => ⟨rfl, Or.inr le_rfl⟩⟩
  | succ fuel ih =>
    by_cases hbegins : time (takes round pause s) start k < deadline
    · have htime : time (takes round pause s) start k+(round k (before round s k)).2.1+pause k =
          time (takes round pause s) start (k+1) := by
        rw [time, takes, Nat.add_assoc]
      cases hanswer : (round k (before round s k)).1 with
      | some a =>
        have hloop : loop round pause deadline (fuel+1) k (before round s k) (time (takes round pause s) start k) =
            ⟨some a, k+1, before round s (k+1), time (takes round pause s) start k+(round k (before round s k)).2.1⟩ := by
          simp only [loop, hbegins, if_true, hanswer, before]
        rw [hloop]
        refine ⟨?_, Nat.le_succ k, rfl, fun _ => hbegins, ?_, ?_⟩
        · simp only [run, hbegins, if_true, answers, hanswer]
        · rw [← htime]
          exact Nat.le_add_right _ _
        · intro h
          cases h
      | none =>
        have hloop : loop round pause deadline (fuel+1) k (before round s k) (time (takes round pause s) start k) =
            loop round pause deadline fuel (k+1) (before round s (k+1)) (time (takes round pause s) start (k+1)) := by
          simp only [loop, hbegins, if_true, hanswer, before, htime]
        obtain ⟨hrun, hrounds, hstate, hlast, hnow, hpast⟩ := ih (k+1)
        rw [hloop]
        refine ⟨?_, Nat.le_of_succ_le hrounds, hstate, ?_, hnow, ?_⟩
        · rw [hrun]
          simp only [run, hbegins, if_true, answers, hanswer]
          rfl
        · intro _
          rcases Nat.eq_or_lt_of_le hrounds with heq | hlt
          · rw [← heq]
            exact hbegins
          · exact hlast hlt
        · intro hnone
          obtain ⟨htime, hover | hfuel⟩ := hpast hnone
          · exact ⟨htime, Or.inl hover⟩
          · exact ⟨htime, Or.inr (by omega)⟩
    · have hloop : loop round pause deadline (fuel+1) k (before round s k) (time (takes round pause s) start k) =
          ⟨none, k, before round s k, time (takes round pause s) start k⟩ := by
        simp only [loop, hbegins, if_false]
      rw [hloop]
      refine ⟨?_, le_rfl, rfl, fun h => absurd h (lt_irrefl k), le_rfl,
        fun _ => ⟨rfl, Or.inl (not_lt.mp hbegins)⟩⟩
      simp only [run, hbegins, if_false]

end Noxipher.Polling
