import Noxipher.Library.Retrying
import Noxipher.Library.Rounds
import Noxipher.Tx.Receipt
import Mathlib.Algebra.Order.BigOperators.Group.List
import Mathlib.Data.Nat.Cast.Basic
import Mathlib.Tactic.IntervalCases

namespace Noxipher

open Retrying

/-- One attempt of `get_transactions`: how long it and what overran the wait after it took, in milliseconds, and the
nodes it was answered with. -/
structure Attempt where
  duration : Nat
  answer : Except PyError (List JsonObject)

namespace TransactionBuilder

/-- `wait_exponential(min=1, max=10)` after an attempt that failed, counted from 1, in milliseconds. -/
def retryWait (attempt_number : Nat) : Nat := 1000*max 1 (min (2^(attempt_number-1)) 10)

/-- One attempt, as the retry decorator sees it. -/
def getTransactionsOnce (attempts : Nat → Attempt) (n : Nat) : Except PyError (List Transaction) :=
  (getTransactions (attempts n).answer).mapError (fun e => .indexerError s!"get_transactions failed: {e.str}")

/-- `get_transactions` with `stop_after_attempt(3)`, its attempts numbered from `n` on. -/
def getTransactionsRetried (attempts : Nat → Attempt) (n : Nat) : Except (GaveUp PyError) (List Transaction) × Nat :=
  attempt (fun _ => true) (getTransactionsOnce attempts) 2 n

/-- What the attempts from `n` to before `next` take with the waits between them. -/
def elapsed (attempts : Nat → Attempt) (n next : Nat) : Nat :=
  ((List.range (next-n)).map (fun i => (attempts (n+i)).duration)).sum+
    ((List.range (next-n-1)).map (fun i => retryWait (i+1))).sum

/-- The body of the loop, from its first attempt to the number of the next one. -/
def pollRetried (attempts : Nat → Attempt) (_retry_count n : Nat) : Option TransactionReceipt × Nat × Nat :=
  let (outcome, next) := getTransactionsRetried attempts n
  let receipt := match outcome with
    | .ok (tx::_) =>
      match receiptOf tx with
      | .ok receipt => receipt
      | .error _ => none
    | _ => none
  (receipt, elapsed attempts n next, next)

/-- `_wait_for_receipt` down to the single attempts; the state is the number of the next one. -/
def waitForReceiptRetried (attempts : Nat → Attempt) (start timeout : Nat) : Polling.Ended Nat TransactionReceipt :=
  Polling.loop (pollRetried attempts) (fun k => 1000*delay k) (start+1000*timeout) timeout 0 0 start

section Wait

variable (attempts : Nat → Attempt)

/-- The poll that the attempts from `n` on make up, as the loop without them has it. -/
def pollOf (n : Nat) : Poll where
  duration := elapsed attempts n (getTransactionsRetried attempts n).2
  answer := (attempts ((getTransactionsRetried attempts n).2-1)).answer

/-- The number of the first attempt of each poll. -/
def firstAttempt : Nat → Nat := Polling.before (pollRetried attempts) 0

def pollsOf (k : Nat) : Poll := pollOf attempts (firstAttempt attempts k)

theorem getTransactionsRetried_spec (n : Nat) :
    ∃ failures : List PyError, failures.length ≤ 2 ∧ (getTransactionsRetried attempts n).2 = n+failures.length+1 ∧
      Asked (fun _ => true) (getTransactionsOnce attempts) 2 n (getTransactionsRetried attempts n).1 failures := by
  obtain ⟨failures, hnext, hasked⟩ := attempt_asked (fun _ => true)
    (getTransactionsOnce attempts) 2 n
  exact ⟨failures, hasked.few, hnext, hasked⟩

/-- The last attempt decides what a poll yields. -/
theorem pollRetried_answer (k n : Nat) : (pollRetried attempts k n).1 = pollReceipt (pollOf attempts n).answer := by
  obtain ⟨failures, -, hnext, hasked⟩ := getTransactionsRetried_spec attempts n
  have hlast : (getTransactionsRetried attempts n).2-1 = n+failures.length := by omega
  have hpoll : (pollOf attempts n).answer = (attempts (n+failures.length)).answer := by
    rw [pollOf, hlast]
  rw [hpoll]
  rcases hasked.ended with ⟨txs, hanswer, hout⟩ | ⟨e, hanswer, ⟨-, -, hout⟩ | ⟨hraised, -⟩⟩
  · simp only [pollRetried, pollReceipt, hout, mapError_ok.mp hanswer]
    cases txs <;> rfl
  · have hfailed : ∃ e', getTransactions (attempts (n+failures.length)).answer = .error e' := by
      cases h : getTransactions (attempts (n+failures.length)).answer with
      | error e' => exact ⟨e', rfl⟩
      | ok txs =>
        rw [getTransactionsOnce, h] at hanswer
        cases hanswer
    obtain ⟨e', he'⟩ := hfailed
    simp only [pollRetried, pollReceipt, hout, he']
  · cases hraised

/-- A poll makes one to three attempts. -/
theorem pollRetried_next (k n : Nat) : n < (pollRetried attempts k n).2.2 ∧ (pollRetried attempts k n).2.2 ≤ n+3 := by
  obtain ⟨failures, hfew, hnext, -⟩ := getTransactionsRetried_spec attempts n
  show n < (getTransactionsRetried attempts n).2 ∧ (getTransactionsRetried attempts n).2 ≤ n+3
  omega

theorem firstAttempt_succ (k : Nat) : firstAttempt attempts k < firstAttempt attempts (k+1) ∧
    firstAttempt attempts (k+1) ≤ firstAttempt attempts k+3 :=
  pollRetried_next attempts k (firstAttempt attempts k)

/-- When no attempt takes longer than `longest`, a poll takes three times as long and the waits of one and two
seconds. -/
theorem elapsed_le {longest : Nat} (hlongest : ∀ n, (attempts n).duration ≤ longest) (n next : Nat) (h : next ≤ n+3) :
    elapsed attempts n next ≤ 3*longest+3000 := by
  have hattempts (m : Nat) :
      ((List.range m).map (fun i => (attempts (n+i)).duration)).sum ≤ m*longest := by
    have hsum := List.sum_le_card_nsmul ((List.range m).map (fun i => (attempts (n+i)).duration)) longest (by
      intro d hd
      obtain ⟨i, -, rfl⟩ := List.mem_map.mp hd
      exact hlongest (n+i))
    rwa [List.length_map, List.length_range, nsmul_eq_mul, Nat.cast_id] at hsum
  have hwaits (m : Nat) (hm : m ≤ 2) : ((List.range m).map (fun i => retryWait (i+1))).sum ≤ 3000 := by
    interval_cases m <;> decide
  have hmade := hattempts (next-n)
  have hwaited := hwaits (next-n-1) (by omega)
  have hthree : (next-n)*longest ≤ 3*longest := Nat.mul_le_mul_right _ (by omega)
  rw [elapsed]
  omega

/-- The pauses before round `k`, in seconds. -/
def paused : Nat → Nat
  | 0 => 0
  | k+1 => paused k+delay k

theorem paused_ge (k : Nat) : 10*k ≤ paused k+20 := by
  match k with
  | 0 | 1 | 2 | 3 => decide
  | k+4 =>
    induction k with
    | zero => decide
    | succ k ih =>
      have hdelay : delay (k+4) = 10 := by
        rw [delay]
        omega
      have hnext : paused (k+1+4) = paused (k+4)+delay (k+4) := rfl
      omega

theorem le_paused (k : Nat) : k ≤ paused k := by
  induction k with
  | zero => exact le_rfl
  | succ k ih =>
    have hdelay : 1 ≤ delay k := by
      rw [delay]
      omega
    rw [paused]
    omega

theorem time_ge_paused (start k : Nat) :
    start+1000*paused k ≤ Polling.time (Polling.takes (pollRetried attempts) (fun k => 1000*delay k) 0) start k := by
  induction k with
  | zero => exact le_rfl
  | succ k ih =>
    rw [paused, Polling.time, Polling.takes]
    omega

/-- The wait down to its attempts returns what the wait over the polls they make up does. It makes one to three attempts
in each poll and fewer than a tenth of the timeout and three polls, does not time out early, and ends at the latest one
poll and one pause behind the deadline. -/
theorem receipt_wait_accounted (tx_hash : String) (attempts : Nat → Attempt) (start timeout : Nat) :
    waitForReceipt tx_hash (pollsOf attempts) start timeout =
        (match (waitForReceiptRetried attempts start timeout).answer with
          | some receipt => .ok receipt
          | none => .error (.transactionTimeoutError s!"Timeout waiting for tx {tx_hash}")) ∧
      (∀ k, firstAttempt attempts k < firstAttempt attempts (k+1) ∧
        firstAttempt attempts (k+1) ≤ firstAttempt attempts k+3) ∧
      (waitForReceiptRetried attempts start timeout).state =
        firstAttempt attempts (waitForReceiptRetried attempts start timeout).rounds ∧
      (waitForReceiptRetried attempts start timeout).rounds ≤ (waitForReceiptRetried attempts start timeout).state ∧
      (waitForReceiptRetried attempts start timeout).state ≤ 3*(waitForReceiptRetried attempts start timeout).rounds ∧
      10*(waitForReceiptRetried attempts start timeout).rounds < timeout+30 ∧
      ((waitForReceiptRetried attempts start timeout).answer = none →
        start+1000*timeout ≤ (waitForReceiptRetried attempts start timeout).now) ∧
      ∀ longest, (∀ n, (attempts n).duration ≤ longest) →
        (waitForReceiptRetried attempts start timeout).now < start+1000*timeout+3*longest+13000 := by
  have hspec : Polling.LoopSpec (pollRetried attempts) (fun k => 1000*delay k) (start+1000*timeout) start 0
      (waitForReceiptRetried attempts start timeout) timeout 0 := Polling.loop_spec _ _ _ _ _ timeout 0
  revert hspec
  generalize waitForReceiptRetried attempts start timeout = ended
  intro hspec
  have hbefore (k : Nat) : k ≤ firstAttempt attempts k ∧ firstAttempt attempts k ≤ 3*k := by
    induction k with
    | zero => exact ⟨le_rfl, le_rfl⟩
    | succ k ih =>
      have hnext := firstAttempt_succ attempts k
      omega
  have hstate : ended.state = firstAttempt attempts ended.rounds := hspec.state
  have hmade := hbefore ended.rounds
  rw [← hstate] at hmade
  refine ⟨?_, firstAttempt_succ attempts, hstate, hmade.1, hmade.2, ?_, ?_, ?_⟩
  · have hanswers : Polling.answers (pollRetried attempts) 0 = fun k => pollReceipt (pollsOf attempts k).answer := by
      funext k
      exact pollRetried_answer attempts k _
    have hanswer := hspec.answer
    rw [hanswers] at hanswer
    rw [hanswer]
    rfl
  · rcases Nat.eq_zero_or_pos ended.rounds with hzero | hpos
    · omega
    · have hlast := hspec.last hpos
      have hpauses := time_ge_paused attempts start (ended.rounds-1)
      have hmany := paused_ge (ended.rounds-1)
      omega
  · intro hnone
    obtain ⟨hnow, hover | hfuel⟩ := hspec.past hnone
    · exact hover
    · have hpauses := time_ge_paused attempts start ended.rounds
      have hmany := le_paused ended.rounds
      omega
  · intro longest hlongest
    have hnow := hspec.now
    rcases Nat.eq_zero_or_pos ended.rounds with hzero | hpos
    · rw [hzero, Polling.time] at hnow
      omega
    · have hlast := hspec.last hpos
      obtain ⟨k, hk⟩ := Nat.exists_eq_succ_of_ne_zero (Nat.pos_iff_ne_zero.mp hpos)
      rw [hk] at hnow hlast
      rw [Nat.succ_sub_one] at hlast
      have hnext := pollRetried_next attempts k (Polling.before (pollRetried attempts) 0 k)
      have helapsed := elapsed_le attempts hlongest (Polling.before (pollRetried attempts) 0 k) _ hnext.2
      have htakes : Polling.takes (pollRetried attempts) (fun k => 1000*delay k) 0 k ≤ 3*longest+3000+10000 := by
        have hdelay : delay k ≤ 10 := Nat.min_le_left _ _
        exact Nat.add_le_add helapsed (Nat.mul_le_mul_left 1000 hdelay)
      rw [Polling.time] at hnow
      omega

end Wait

end TransactionBuilder

end Noxipher
