import Noxipher.Core.Text
import Noxipher.Library.Runs

namespace Noxipher

/-- What the methods of the node client raise. -/
inductive NodeFailure where
  | connectionError (msg : String)
  | transactionError (msg : String)
  | packageError (msg : String)
  | cancelledError
  deriving DecidableEq, Repr

/-- What `rpc_request` comes back with: a dictionary, read at two keys with `str`, or an exception. -/
inductive RpcAnswer where
  | response (error result : Option String)
  | substrateRequestException (msg : String)
  | exception (msg : String)

/-- Where a task waits in the node client; the thread it waits for works on one connection. -/
inductive NodePhase where
  | idle
  | connecting
  | closing (connection : Nat)
  | requesting (connection : Nat)
  deriving DecidableEq

/-- A task calls a method, its thread comes back, or it is cancelled. What a cancelled task handed to a thread may still
be done, or never: its connection opened, its call of `close` run. -/
inductive NodeMove where
  | connect
  | connected (answer : Except String Unit)
  | disconnect
  | disconnected
  | submitExtrinsic (raw_tx_bytes : Bytes)
  | answered (answer : RpcAnswer)
  | cancel
  | late (opens : Bool)
  | lateClose (connection : Nat) (runs : Bool)

/-- The node client with the tasks in it. The connections are numbered as they are opened. Of the calls of `close`,
`abandoned` lists those left by a cancelled task, `closedLate` those of them that ran, and `closed` those that a task
came back from; `handed` are the requests handed to a thread, `outcomes` what the tasks came back with. -/
structure NodeClient (Task : Type) where
  substrate : Option Nat
  opened : Nat
  adrift : Nat
  abandoned : List Nat
  closed : List Nat
  closedLate : List Nat
  handed : List (Nat × String)
  outcomes : List (Task × Except NodeFailure (Option String))
  phase : Task → NodePhase

namespace NodeClient

variable {Task : Type} [DecidableEq Task]

def init : NodeClient Task := ⟨none, 0, 0, [], [], [], [], [], fun _ => .idle⟩

/-- The task comes back. -/
def finish (s : NodeClient Task) (task : Task) (outcome : Except NodeFailure (Option String)) : NodeClient Task :=
  { s with outcomes := s.outcomes++[(task, outcome)], phase := Function.update s.phase task .idle }

def wait (s : NodeClient Task) (task : Task) (phase : NodePhase) : NodeClient Task :=
  { s with phase := Function.update s.phase task phase }

/-- `submit_extrinsic` behind the answer. -/
def submitted : RpcAnswer → Except NodeFailure (Option String)
  | .substrateRequestException msg => .error (.transactionError s!"submit_extrinsic failed: {msg}")
  | .exception msg => .error (.packageError msg)
  | .response (some error) _ => .error (.transactionError s!"Node rejected tx: {error}")
  | .response none result => .ok (some (result.getD ""))

def step (url : String) (s : NodeClient Task) (move : Task × NodeMove) : Option (NodeClient Task) :=
  match s.phase move.1, move.2 with
  | .idle, .connect => some (s.wait move.1 .connecting)
  | .connecting, .connected (.ok _) =>
    some ({ s with substrate := some s.opened, opened := s.opened+1 }.finish move.1 (.ok none))
  | .connecting, .connected (.error msg) =>
    some (s.finish move.1 (.error (.connectionError s!"Cannot connect to node {url}: {msg}")))
  | .connecting, .cancel => some ({ s with adrift := s.adrift+1 }.finish move.1 (.error .cancelledError))
  | .idle, .disconnect =>
    match s.substrate with
    | none => some (s.finish move.1 (.ok none))
    | some connection => some (s.wait move.1 (.closing connection))
  | .closing connection, .disconnected =>
    some ({ s with substrate := none, closed := s.closed++[connection] }.finish move.1 (.ok none))
  | .closing connection, .cancel =>
    some ({ s with abandoned := s.abandoned++[connection] }.finish move.1 (.error .cancelledError))
  | .idle, .submitExtrinsic raw_tx_bytes =>
    match s.substrate with
    | none => some (s.finish move.1 (.error (.connectionError "Not connected. Call connect() first.")))
    | some connection =>
      some ({ s with handed := s.handed++[(connection, "0x"++hexOf raw_tx_bytes)] }.wait move.1 (.requesting connection))
  | .requesting _, .answered answer => some (s.finish move.1 (submitted answer))
  | .requesting _, .cancel => some (s.finish move.1 (.error .cancelledError))
  | _, .late opens =>
    if s.adrift = 0 then none
    else some { s with adrift := s.adrift-1, opened := s.opened+(if opens then 1 else 0) }
  | _, .lateClose connection runs =>
    if connection ∈ s.abandoned then some { s with
      abandoned := s.abandoned.erase connection
      closedLate := s.closedLate++(if runs then [connection] else []) }
    else none
  | _, _ => none

/-- A task waits for the call of `close` of the connection. -/
def Waits (s : NodeClient Task) (connection : Nat) : Prop := ∃ task, s.phase task = .closing connection

/-- `close` was called for the connection, whatever came of it, or a call is with a thread. -/
def Closes (s : NodeClient Task) (connection : Nat) : Prop :=
  s.Waits connection ∨ connection ∈ s.abandoned ∨ connection ∈ s.closed ∨ connection ∈ s.closedLate

/-- A connection that is not stored and that no call of `close` was or will be made for. -/
def Dropped (s : NodeClient Task) (connection : Nat) : Prop :=
  connection < s.opened ∧ ¬ s.Closes connection ∧ s.substrate ≠ some connection

/-- The moves that drop a connection: a connect or a disconnect that comes back and finds another one stored, a thread
that opens one for a cancelled task, and the last call of `close` for one that is not stored, which never runs. -/
def Drops (s : NodeClient Task) (connection : Nat) (move : Task × NodeMove) : Prop :=
  (s.substrate = some connection ∧ ¬ s.Closes connection ∧
    (move.2 = .connected (.ok ()) ∨ move.2 = .disconnected)) ∨
  (move.2 = .late true ∧ connection = s.opened) ∨
  (move.2 = .lateClose connection false ∧ s.substrate ≠ some connection ∧ ¬ s.Waits connection ∧
    connection ∉ s.abandoned.erase connection ∧ connection ∉ s.closed ∧ connection ∉ s.closedLate)

section Steps

variable {url : String} {s s' : NodeClient Task} {move : Task × NodeMove}

/-- What most moves leave alone. -/
structure Kept (s s' : NodeClient Task) : Prop where
  substrate : s'.substrate = s.substrate
  opened : s'.opened = s.opened
  abandoned : s'.abandoned = s.abandoned
  closed : s'.closed = s.closed
  closedLate : s'.closedLate = s.closedLate
  handed : s'.handed = s.handed

/-- A move that leaves them alone: what becomes of the task, which waited for no close, and of the threads without
one. -/
structure Quiet (s s' : NodeClient Task) (move : Task × NodeMove) : Prop where
  kept : Kept s s'
  was : ∀ connection, s.phase move.1 ≠ .closing connection
  task : (s'.phase = Function.update s.phase move.1 .idle ∧
      (s'.adrift = s.adrift ∨ s.phase move.1 = .connecting ∧ move.2 = .cancel)) ∨
    (s'.phase = Function.update s.phase move.1 .connecting ∧ s'.adrift = s.adrift ∧ move.2 = .connect)
  plain : move.2 ≠ .connected (.ok ()) ∧ move.2 ≠ .disconnected ∧ (∀ opens, move.2 ≠ .late opens) ∧
    ∀ connection runs, move.2 ≠ .lateClose connection runs

theorem step_cases (h : step url s move = some s') :
    Quiet s s' move ∨
    (s.phase move.1 = .connecting ∧ move.2 = .connected (.ok ()) ∧
      s' = { s with substrate := some s.opened, opened := s.opened+1 }.finish move.1 (.ok none)) ∨
    (∃ connection, s.phase move.1 = .idle ∧ s.substrate = some connection ∧ move.2 = .disconnect ∧
      s' = s.wait move.1 (.closing connection)) ∨
    (∃ connection, s.phase move.1 = .closing connection ∧ move.2 = .disconnected ∧
      s' = { s with substrate := none, closed := s.closed++[connection] }.finish move.1 (.ok none)) ∨
    (∃ connection, s.phase move.1 = .closing connection ∧ move.2 = .cancel ∧
      s' = { s with abandoned := s.abandoned++[connection] }.finish move.1 (.error .cancelledError)) ∨
    (∃ connection raw_tx_bytes, s.phase move.1 = .idle ∧ s.substrate = some connection ∧
      move.2 = .submitExtrinsic raw_tx_bytes ∧
      s' = { s with handed := s.handed++[(connection, "0x"++hexOf raw_tx_bytes)] }.wait move.1
        (.requesting connection)) ∨
    (∃ opens, s.adrift ≠ 0 ∧ move.2 = .late opens ∧
      s' = { s with adrift := s.adrift-1, opened := s.opened+(if opens then 1 else 0) }) ∨
    (∃ connection runs, connection ∈ s.abandoned ∧ move.2 = .lateClose connection runs ∧
      s' = { s with
        abandoned := s.abandoned.erase connection
        closedLate := s.closedLate++(if runs then [connection] else []) }) := by
  have hquiet {next : NodeClient Task} {outcome : Except NodeFailure (Option String)}
      (hkept : Kept s next) (hphase : next.phase = s.phase) (hwas : ∀ connection, s.phase move.1 ≠ .closing connection)
      (hadrift : next.adrift = s.adrift ∨ s.phase move.1 = .connecting ∧ move.2 = .cancel)
      (hplain : move.2 ≠ .connected (.ok ()) ∧ move.2 ≠ .disconnected ∧ (∀ opens, move.2 ≠ .late opens) ∧
        ∀ connection runs, move.2 ≠ .lateClose connection runs) :
      Quiet s (next.finish move.1 outcome) move := by
    refine ⟨⟨hkept.1, hkept.2, hkept.3, hkept.4, hkept.5, hkept.6⟩, hwas, Or.inl ⟨?_, hadrift⟩, hplain⟩
    rw [finish, hphase]
  have hsame : Kept s s := ⟨rfl, rfl, rfl, rfl, rfl, rfl⟩
  unfold step at h
  split at h
  case h_1 hphase hmove =>
    cases h
    exact Or.inl ⟨⟨rfl, rfl, rfl, rfl, rfl, rfl⟩, by simp [hphase], Or.inr ⟨rfl, rfl, hmove⟩, by simp [hmove]⟩
  case h_2 hphase hmove =>
    cases h
    exact Or.inr (Or.inl ⟨hphase, hmove, rfl⟩)
  case h_3 msg hphase hmove =>
    cases h
    exact Or.inl (hquiet hsame rfl (by simp [hphase]) (Or.inl rfl) (by simp [hmove]))
  case h_4 hphase hmove =>
    cases h
    exact Or.inl (hquiet ⟨rfl, rfl, rfl, rfl, rfl, rfl⟩ rfl (by simp [hphase]) (Or.inr ⟨hphase, hmove⟩)
      (by simp [hmove]))
  case h_5 hphase hmove =>
    split at h
    · cases h
      exact Or.inl (hquiet hsame rfl (by simp [hphase]) (Or.inl rfl) (by simp [hmove]))
    · rename_i connection hstored
      cases h
      exact Or.inr (Or.inr (Or.inl ⟨connection, hphase, hstored, hmove, rfl⟩))
  case h_6 connection hphase hmove =>
    cases h
    exact Or.inr (Or.inr (Or.inr (Or.inl ⟨connection, hphase, hmove, rfl⟩)))
  case h_7 connection hphase hmove =>
    cases h
    exact Or.inr (Or.inr (Or.inr (Or.inr (Or.inl ⟨connection, hphase, hmove, rfl⟩))))
  case h_8 raw_tx_bytes hphase hmove =>
    split at h
    · cases h
      exact Or.inl (hquiet hsame rfl (by simp [hphase]) (Or.inl rfl) (by simp [hmove]))
    · rename_i connection hstored
      cases h
      exact Or.inr (Or.inr (Or.inr (Or.inr (Or.inr (Or.inl ⟨connection, raw_tx_bytes, hphase, hstored, hmove, rfl⟩)))))
  case h_9 connection answer hphase hmove =>
    cases h
    exact Or.inl (hquiet hsame rfl (by simp [hphase]) (Or.inl rfl) (by simp [hmove]))
  case h_10 connection hphase hmove =>
    cases h
    exact Or.inl (hquiet hsame rfl (by simp [hphase]) (Or.inl rfl) (by simp [hmove]))
  case h_11 opens hmove =>
    split at h
    · cases h
    · rename_i hadrift
      cases h
      exact Or.inr (Or.inr (Or.inr (Or.inr (Or.inr (Or.inr (Or.inl ⟨opens, hadrift, hmove, rfl⟩))))))
  case h_12 connection runs hmove =>
    split at h
    · rename_i hmem
      cases h
      exact Or.inr (Or.inr (Or.inr (Or.inr (Or.inr (Or.inr (Or.inr ⟨connection, runs, hmem, hmove, rfl⟩))))))
    · cases h
  case h_13 => cases h

/-- The other tasks that wait for the close. -/
def WaitsBeside (s : NodeClient Task) (task : Task) (connection : Nat) : Prop :=
  ∃ other, other ≠ task ∧ s.phase other = .closing connection

theorem waits_iff (s : NodeClient Task) (task : Task) (connection : Nat) :
    s.Waits connection ↔ s.phase task = .closing connection ∨ s.WaitsBeside task connection := by
  constructor
  · rintro ⟨other, hother⟩
    by_cases hsame : other = task
    · rw [hsame] at hother
      exact Or.inl hother
    · exact Or.inr ⟨other, hsame, hother⟩
  · rintro (htask | ⟨other, -, hother⟩)
    · exact ⟨task, htask⟩
    · exact ⟨other, hother⟩

theorem waits_update (s s' : NodeClient Task) {task : Task} {phase : NodePhase}
    (h : s'.phase = Function.update s.phase task phase) (connection : Nat) :
    s'.Waits connection ↔ phase = .closing connection ∨ s.WaitsBeside task connection := by
  have hbeside : s'.WaitsBeside task connection ↔ s.WaitsBeside task connection := by
    unfold WaitsBeside
    apply exists_congr
    intro other
    apply and_congr_right
    intro hne
    rw [h, Function.update_of_ne hne]
  rw [waits_iff s' task, hbeside, h, Function.update_self]

/-- A task that comes back leaves the others waiting. -/
theorem waits_of_finished {task : Task} (h : s'.phase = Function.update s.phase task .idle) {connection : Nat}
    (hwaits : s'.Waits connection) : s.Waits connection := by
  rcases (waits_update s s' h connection).mp hwaits with hidle | hbeside
  · cases hidle
  · exact (waits_iff s task connection).mpr (Or.inr hbeside)

/-- A task that neither waited for a close nor does so now changes nothing for those that do. -/
theorem waits_kept {task : Task} {phase : NodePhase} (h : s'.phase = Function.update s.phase task phase)
    (hwas : ∀ connection, s.phase task ≠ .closing connection) (hphase : ∀ connection, phase ≠ .closing connection)
    (connection : Nat) : s'.Waits connection ↔ s.Waits connection := by
  rw [waits_update s s' h, waits_iff s task]
  simp [hwas, hphase]

/-- The connections that are closed or being closed, when the task does not hand a call of `close` over or back. -/
theorem closes_kept (s s' : NodeClient Task) {task : Task} {phase : NodePhase}
    (h : s'.phase = Function.update s.phase task phase) (hwas : ∀ connection, s.phase task ≠ .closing connection)
    (hphase : ∀ connection, phase ≠ .closing connection) (habandoned : s'.abandoned = s.abandoned)
    (hclosed : s'.closed = s.closed) (hlate : s'.closedLate = s.closedLate) (connection : Nat) :
    s'.Closes connection ↔ s.Closes connection := by
  rw [Closes, Closes, waits_kept h hwas hphase, habandoned, hclosed, hlate]

theorem Quiet.closes (h : Quiet s s' move) (connection : Nat) : s'.Closes connection ↔ s.Closes connection := by
  have hkept := h.kept
  rcases h.task with ⟨hphase, -⟩ | ⟨hphase, -, -⟩
  · exact closes_kept s s' hphase h.was (by simp) hkept.abandoned hkept.closed hkept.closedLate connection
  · exact closes_kept s s' hphase h.was (by simp) hkept.abandoned hkept.closed hkept.closedLate connection

/-- The stored connection was opened, and no disconnect of it came back. -/
structure Stored (s : NodeClient Task) : Prop where
  stored : ∀ connection, s.substrate = some connection → connection < s.opened ∧ connection ∉ s.closed
  closes : ∀ connection, s.Closes connection → connection < s.opened

theorem Stored.step (h : Stored s) (hstep : step url s move = some s') : Stored s' := by
  rcases step_cases hstep with hquiet | ⟨hphase, hmove, hnext⟩ | ⟨c, hphase, hcurrent, hmove, hnext⟩ |
    ⟨c, hphase, hmove, hnext⟩ | ⟨c, hphase, hmove, hnext⟩ | ⟨c, raw_tx_bytes, hphase, -, hmove, hnext⟩ |
    ⟨opens, hadrift, hmove, rfl⟩ | ⟨c, runs, hmem, hmove, rfl⟩
  · have hkept := hquiet.kept
    constructor
    · rw [hkept.substrate, hkept.opened, hkept.closed]
      exact h.stored
    · intro connection hcloses
      rw [hkept.opened]
      exact h.closes connection ((hquiet.closes connection).mp hcloses)
  · have hsame := closes_kept s s' (by rw [hnext]; rfl) (by simp [hphase]) (by simp) (by rw [hnext]; rfl)
      (by rw [hnext]; rfl) (by rw [hnext]; rfl)
    rw [hnext] at hsame ⊢
    constructor
    · intro connection hconnection
      cases hconnection
      refine ⟨Nat.lt_succ_self _, fun hclosed => ?_⟩
      exact lt_irrefl _ (h.closes s.opened (Or.inr (Or.inr (Or.inl hclosed))))
    · intro connection hcloses
      exact Nat.lt_succ_of_lt (h.closes connection ((hsame connection).mp hcloses))
  · have hwaits (connection : Nat) : s'.Waits connection → connection = c ∨ s.Waits connection := by
      rw [waits_update s s' (by rw [hnext]; rfl), waits_iff s move.1]
      grind
    rw [hnext] at hwaits ⊢
    refine ⟨h.stored, ?_⟩
    rintro connection (hwait | hrest)
    · rcases hwaits connection hwait with rfl | hold
      · exact (h.stored connection hcurrent).1
      · exact h.closes connection (Or.inl hold)
    · exact h.closes connection (Or.inr hrest)
  · have hlt := h.closes c (Or.inl ⟨move.1, hphase⟩)
    rw [hnext]
    refine ⟨?_, ?_⟩
    · intro connection hnone
      cases hnone
    rintro connection (hwait | habandoned | hclosed | hlate)
    · exact h.closes connection (Or.inl (waits_of_finished rfl hwait))
    · exact h.closes connection (Or.inr (Or.inl habandoned))
    · rcases List.mem_append.mp hclosed with hold | hnew
      · exact h.closes connection (Or.inr (Or.inr (Or.inl hold)))
      · rw [List.mem_singleton.mp hnew]
        exact hlt
    · exact h.closes connection (Or.inr (Or.inr (Or.inr hlate)))
  · have hlt := h.closes c (Or.inl ⟨move.1, hphase⟩)
    rw [hnext]
    refine ⟨h.stored, ?_⟩
    rintro connection (hwait | habandoned | hrest)
    · exact h.closes connection (Or.inl (waits_of_finished rfl hwait))
    · rcases List.mem_append.mp habandoned with hold | hnew
      · exact h.closes connection (Or.inr (Or.inl hold))
      · rw [List.mem_singleton.mp hnew]
        exact hlt
    · exact h.closes connection (Or.inr (Or.inr hrest))
  · have hsame := closes_kept s s' (by rw [hnext]; rfl) (by simp [hphase]) (by simp) (by rw [hnext]; rfl)
      (by rw [hnext]; rfl) (by rw [hnext]; rfl)
    rw [hnext] at hsame ⊢
    exact ⟨h.stored, fun connection hcloses => h.closes connection ((hsame connection).mp hcloses)⟩
  · constructor
    · intro connection hconnection
      exact ⟨Nat.lt_add_right _ (h.stored connection hconnection).1, (h.stored connection hconnection).2⟩
    · intro connection hcloses
      exact Nat.lt_add_right _ (h.closes connection hcloses)
  · refine ⟨h.stored, ?_⟩
    rintro connection (hwait | habandoned | hclosed | hlate)
    · exact h.closes connection (Or.inl hwait)
    · exact h.closes connection (Or.inr (Or.inl (List.mem_of_mem_erase habandoned)))
    · exact h.closes connection (Or.inr (Or.inr (Or.inl hclosed)))
    · rcases List.mem_append.mp hlate with hold | hnew
      · exact h.closes connection (Or.inr (Or.inr (Or.inr hold)))
      · cases runs with
        | false => cases hnew
        | true =>
          rw [List.mem_singleton.mp hnew]
          exact h.closes c (Or.inr (Or.inl hmem))

omit [DecidableEq Task] in
theorem init_closes (connection : Nat) : ¬ (init : NodeClient Task).Closes connection := by
  simp [Closes, Waits, init]

omit [DecidableEq Task] in
theorem init_stored : Stored (init : NodeClient Task) :=
  ⟨by simp [init], fun connection h => absurd h (init_closes connection)⟩

theorem runs_stored {moves : List (Task × NodeMove)} (h : runs (NodeClient.step url) init moves = some s) : Stored s :=
  runs_invariant _ Stored init_stored (fun _ _ _ hs hstep => hs.step hstep) h

/-- One move drops the connections it says and no others, and takes none back. -/
theorem dropped_step (h : Stored s) (hstep : step url s move = some s') (connection : Nat) :
    s'.Dropped connection ↔ s.Dropped connection ∨ s.Drops connection move := by
  have hstored := h.stored connection
  have hbelow := h.closes connection
  rcases step_cases hstep with hquiet | ⟨hphase, hmove, rfl⟩ | ⟨c, hphase, hcurrent, hmove, rfl⟩ |
    ⟨c, hphase, hmove, rfl⟩ | ⟨c, hphase, hmove, rfl⟩ | ⟨c, raw_tx_bytes, hphase, -, hmove, rfl⟩ |
    ⟨opens, hadrift, hmove, rfl⟩ | ⟨c, runs, hmem, hmove, rfl⟩
  · obtain ⟨hconnected, hdisconnected, hlate, hlateClose⟩ := hquiet.plain
    rw [Dropped, Dropped, hquiet.kept.substrate, hquiet.kept.opened, hquiet.closes]
    simp [Drops, hconnected, hdisconnected, hlate, hlateClose]
  · have hcloses := closes_kept s
      ({ s with substrate := some s.opened, opened := s.opened+1 }.finish move.1 (.ok none)) rfl (by simp [hphase])
      (by simp) rfl rfl rfl connection
    rw [Dropped, hcloses]
    simp only [Dropped, Drops, finish, hmove]
    grind
  · have hwaits := waits_update s (s.wait move.1 (.closing c)) rfl connection
    have hwas := waits_iff s move.1 connection
    simp only [Dropped, Drops, Closes, hwaits, hwas]
    simp only [wait, hmove, hphase]
    grind
  · have hwaits := waits_update s
      ({ s with substrate := none, closed := s.closed++[c] }.finish move.1 (.ok none)) rfl connection
    have hwas := waits_iff s move.1 connection
    simp only [Closes, hwas] at hbelow
    simp only [Dropped, Drops, Closes, hwaits, hwas]
    simp only [finish, hmove, hphase]
    grind
  · have hwaits := waits_update s
      ({ s with abandoned := s.abandoned++[c] }.finish move.1 (.error .cancelledError)) rfl connection
    have hwas := waits_iff s move.1 connection
    simp only [Dropped, Drops, Closes, hwaits, hwas]
    simp only [finish, hmove, hphase]
    grind
  · have hcloses := closes_kept s
      ({ s with handed := s.handed++[(c, "0x"++hexOf raw_tx_bytes)] }.wait move.1 (.requesting c)) rfl
      (by simp [hphase]) (by simp) rfl rfl rfl connection
    rw [Dropped, hcloses]
    simp only [Dropped, Drops, wait, hmove]
    grind
  · have hfresh := h.closes s.opened
    simp only [Dropped, Drops, Closes, Waits, hmove] at *
    grind
  · have hin : s.Closes c := Or.inr (Or.inl hmem)
    have hlt := h.closes c hin
    simp only [Dropped, Drops, Closes, Waits, hmove] at *
    by_cases hthis : connection = c
    · subst hthis
      cases runs <;> grind
    · have herase := List.mem_erase_of_ne (l := s.abandoned) hthis
      cases runs <;> grind

/-- Without a connection no request is handed over until a connect comes back with one. -/
theorem silent_step (hnone : s.substrate = none) (hmove : move.2 ≠ .connected (.ok ()))
    (hstep : step url s move = some s') : s'.substrate = none ∧ s'.handed = s.handed := by
  rcases step_cases hstep with hquiet | ⟨-, hconnected, -⟩ | ⟨c, -, hstored, -⟩ | ⟨c, -, -, rfl⟩ | ⟨c, -, -, rfl⟩ |
    ⟨c, raw_tx_bytes, -, hstored, -⟩ | ⟨opens, -, -, rfl⟩ | ⟨c, runs, -, -, rfl⟩
  · rw [hquiet.kept.substrate, hquiet.kept.handed]
    exact ⟨hnone, rfl⟩
  · exact absurd hconnected hmove
  · rw [hnone] at hstored
    cases hstored
  · exact ⟨rfl, rfl⟩
  · exact ⟨hnone, rfl⟩
  · rw [hnone] at hstored
    cases hstored
  · exact ⟨hnone, rfl⟩
  · exact ⟨hnone, rfl⟩

theorem connected_task {task : Task} (h : step url s (task, .connected (.ok ())) = some s') :
    s.phase task = .connecting := by
  cases hphase : s.phase task <;> simp [step, hphase] at h ⊢

theorem disconnected_task {task : Task} (h : step url s (task, .disconnected) = some s') :
    ∃ connection, s.phase task = .closing connection ∧
      s' = { s with substrate := none, closed := s.closed++[connection] }.finish task (.ok none) := by
  cases hphase : s.phase task <;> simp [step, hphase] at h
  exact ⟨_, rfl, h.symm⟩

theorem late_adrift {task : Task} {opens : Bool} (h : step url s (task, .late opens) = some s') : s.adrift ≠ 0 := by
  cases hphase : s.phase task <;> simp [step, hphase] at h <;> exact h.1

theorem lateClose_abandoned {task : Task} {connection : Nat} {runs : Bool}
    (h : step url s (task, .lateClose connection runs) = some s') : connection ∈ s.abandoned := by
  cases hphase : s.phase task <;> simp [step, hphase] at h <;> exact h.1

theorem runs_silent (hnone : s.substrate = none) {moves : List (Task × NodeMove)}
    (hmoves : ∀ move ∈ moves, move.2 ≠ .connected (.ok ())) (h : runs (step url) s moves = some s') :
    s'.substrate = none ∧ s'.handed = s.handed := by
  induction moves generalizing s with
  | nil =>
    cases h
    exact ⟨hnone, rfl⟩
  | cons move moves ih =>
    cases hnext : step url s move with
    | none =>
      simp only [runs, hnext] at h
      cases h
    | some next =>
      simp only [runs, hnext] at h
      obtain ⟨hmove, hmoves⟩ := List.forall_mem_cons.mp hmoves
      obtain ⟨hstill, hhanded⟩ := silent_step hnone hmove hnext
      rw [← hhanded]
      exact ih hstill hmoves h

/-- Connecting only when nothing is stored and no task is on its way to or from a connection, and letting it come to its
end. -/
def Careful (s : NodeClient Task) (move : Task × NodeMove) : Prop :=
  (move.2 = .connect → s.substrate = none ∧ ∀ task, s.phase task ≠ .connecting ∧
    ∀ connection, s.phase task ≠ .closing connection) ∧
  (move.2 = .cancel → s.phase move.1 ≠ .connecting)

/-- What careful tasks keep: a task that connects is the only one at work, and a connection for which `close` was called
is the stored one until it is closed. -/
structure Alone (s : NodeClient Task) : Prop where
  adrift : s.adrift = 0
  connecting : ∀ task, s.phase task = .connecting → s.substrate = none ∧
    ∀ other, (s.phase other = .connecting → other = task) ∧ ∀ connection, s.phase other ≠ .closing connection
  closing : ∀ task connection, s.phase task = .closing connection →
    s.substrate = some connection ∨ s.substrate = none ∧ connection ∈ s.closed
  abandoned : ∀ connection ∈ s.abandoned, s.substrate = some connection ∨ connection ∈ s.closed

/-- A task that goes on without connecting or closing changes nothing for the others. -/
theorem Alone.update (h : Alone s) {task : Task} {phase : NodePhase} (hconnecting : phase ≠ .connecting)
    (hclosing : ∀ connection, phase ≠ .closing connection) (hsubstrate : s'.substrate = s.substrate)
    (hadrift : s'.adrift = s.adrift) (habandoned : s'.abandoned = s.abandoned) (hclosed : s'.closed = s.closed)
    (hphase : s'.phase = Function.update s.phase task phase) : Alone s' := by
  have hwas {other : Task} {p : NodePhase} (hp : phase ≠ p) (hother : s'.phase other = p) : s.phase other = p := by
    rw [hphase] at hother
    rcases update_cases hother with ⟨-, heq⟩ | ⟨-, hold⟩
    · exact absurd heq hp
    · exact hold
  refine ⟨by rw [hadrift, h.adrift], ?_, ?_, ?_⟩
  · intro t ht
    obtain ⟨hnone, hothers⟩ := h.connecting t (hwas hconnecting ht)
    refine ⟨by rw [hsubstrate, hnone], fun other => ⟨fun hother => (hothers other).1 (hwas hconnecting hother), ?_⟩⟩
    intro connection hother
    exact (hothers other).2 connection (hwas (hclosing connection) hother)
  · intro t connection ht
    rw [hsubstrate, hclosed]
    exact h.closing t connection (hwas (hclosing connection) ht)
  · rw [habandoned, hsubstrate, hclosed]
    exact h.abandoned

theorem Alone.step (h : Alone s) (hcareful : s.Careful move) (hstep : step url s move = some s') : Alone s' := by
  rcases step_cases hstep with hquiet | ⟨hphase, hmove, rfl⟩ | ⟨c, hphase, hstored, hmove, rfl⟩ |
    ⟨c, hphase, hmove, rfl⟩ | ⟨c, hphase, hmove, rfl⟩ | ⟨c, raw_tx_bytes, -, -, hmove, rfl⟩ |
    ⟨opens, hadrift, hmove, rfl⟩ | ⟨c, runs, hmem, hmove, rfl⟩
  · have hkept := hquiet.kept
    rcases hquiet.task with ⟨hidle, hadrift | ⟨hphase, hcancel⟩⟩ | ⟨hconnecting, hadrift, hconnect⟩
    · exact h.update (by simp) (by simp) hkept.substrate hadrift hkept.abandoned hkept.closed hidle
    · exact absurd hphase (hcareful.2 hcancel)
    · obtain ⟨hnone, hothers⟩ := hcareful.1 hconnect
      refine ⟨by rw [hadrift, h.adrift], ?_, ?_, ?_⟩
      · intro t ht
        refine ⟨by rw [hkept.substrate, hnone], fun other => ⟨?_, ?_⟩⟩
        · intro hother
          rw [hconnecting] at ht hother
          rcases update_cases ht with ⟨rfl, -⟩ | ⟨-, hold⟩
          · rcases update_cases hother with ⟨rfl, -⟩ | ⟨-, hold⟩
            · rfl
            · exact absurd hold (hothers other).1
          · exact absurd hold (hothers t).1
        · intro connection hother
          rw [hconnecting] at hother
          rcases update_cases hother with ⟨-, heq⟩ | ⟨-, hold⟩
          · cases heq
          · exact (hothers other).2 connection hold
      · intro t connection ht
        rw [hconnecting] at ht
        rcases update_cases ht with ⟨-, heq⟩ | ⟨-, hold⟩
        · cases heq
        · exact absurd hold ((hothers t).2 connection)
      · rw [hkept.abandoned, hkept.substrate, hkept.closed]
        exact h.abandoned
  · -- the task that connected was the only one at work
    obtain ⟨hnone, hothers⟩ := h.connecting move.1 hphase
    refine ⟨h.adrift, ?_, ?_, ?_⟩
    · intro t ht
      rcases update_cases ht with ⟨-, heq⟩ | ⟨hne, hold⟩
      · cases heq
      · exact absurd ((hothers t).1 hold) hne
    · intro t connection ht
      rcases update_cases ht with ⟨-, heq⟩ | ⟨-, hold⟩
      · cases heq
      · exact absurd hold ((hothers t).2 connection)
    · intro connection hmem
      rcases h.abandoned connection hmem with hstored | hclosed
      · rw [hnone] at hstored
        cases hstored
      · exact Or.inr hclosed
  · refine ⟨h.adrift, ?_, ?_, h.abandoned⟩
    · intro t ht
      rcases update_cases ht with ⟨-, heq⟩ | ⟨-, hold⟩
      · cases heq
      · rw [(h.connecting t hold).1] at hstored
        cases hstored
    · intro t connection ht
      rcases update_cases ht with ⟨-, heq⟩ | ⟨-, hold⟩
      · cases heq
        exact Or.inl hstored
      · exact h.closing t connection hold
  · -- every connection that is being closed is this one, or was closed before
    have hone {connection : Nat} (hstored : s.substrate = some connection) : connection = c := by
      rcases h.closing move.1 c hphase with hsame | ⟨hnone, -⟩
      · rw [hsame] at hstored
        exact (Option.some.inj hstored).symm
      · rw [hnone] at hstored
        cases hstored
    refine ⟨h.adrift, ?_, ?_, ?_⟩
    · intro t ht
      rcases update_cases ht with ⟨-, heq⟩ | ⟨-, hold⟩
      · cases heq
      · exact absurd hphase (((h.connecting t hold).2 move.1).2 c)
    · intro t connection ht
      refine Or.inr ⟨rfl, ?_⟩
      rcases update_cases ht with ⟨-, heq⟩ | ⟨-, hold⟩
      · cases heq
      · rcases h.closing t connection hold with hstored | ⟨-, hclosed⟩
        · exact List.mem_append_right _ (List.mem_singleton.mpr (hone hstored))
        · exact List.mem_append_left _ hclosed
    · intro connection hmem
      right
      rcases h.abandoned connection hmem with hstored | hclosed
      · exact List.mem_append_right _ (List.mem_singleton.mpr (hone hstored))
      · exact List.mem_append_left _ hclosed
  · refine ⟨h.adrift, ?_, ?_, ?_⟩
    · intro t ht
      rcases update_cases ht with ⟨-, heq⟩ | ⟨-, hold⟩
      · cases heq
      · exact absurd hphase (((h.connecting t hold).2 move.1).2 c)
    · intro t connection ht
      rcases update_cases ht with ⟨-, heq⟩ | ⟨-, hold⟩
      · cases heq
      · exact h.closing t connection hold
    · intro connection hmem
      rcases List.mem_append.mp hmem with hold | hnew
      · exact h.abandoned connection hold
      · rw [List.mem_singleton.mp hnew]
        exact (h.closing move.1 c hphase).imp_right And.right
  · exact h.update (by simp) (by simp) rfl rfl rfl rfl rfl
  · exact absurd h.adrift hadrift
  · exact ⟨h.adrift, h.connecting, h.closing,
      fun connection hmem => h.abandoned connection (List.mem_of_mem_erase hmem)⟩

/-- Careful tasks drop no connection. -/
theorem Alone.drops_none (h : Alone s) (hstep : NodeClient.step url s move = some s') (connection : Nat) :
    ¬ s.Drops connection move := by
  obtain ⟨task, act⟩ := move
  rintro (⟨hstored, hopen, hmove⟩ | ⟨hmove, -⟩ | ⟨hmove, hstored, -, -, hclosed, -⟩)
  · rcases hmove with hmove | hmove
    · cases hmove
      rw [(h.connecting task (connected_task hstep)).1] at hstored
      cases hstored
    · cases hmove
      obtain ⟨c, hphase, -⟩ := disconnected_task hstep
      rcases h.closing task c hphase with hsame | ⟨hnone, -⟩
      · rw [hsame] at hstored
        cases hstored
        exact hopen (Or.inl ⟨task, hphase⟩)
      · rw [hnone] at hstored
        cases hstored
  · cases hmove
    exact late_adrift hstep h.adrift
  · cases hmove
    rcases h.abandoned connection (lateClose_abandoned hstep) with hsame | hclosed'
    · exact hstored hsame
    · exact hclosed hclosed'

/-- The connections of a node client, whatever the tasks that share it do: what is dropped is dropped by the moves that
say so, the stored connection was never closed by a disconnect that came back, behind a disconnect no request is handed
over until a connect comes back, and careful tasks drop nothing. -/
theorem connections_accounted {moves : List (Task × NodeMove)} {final : NodeClient Task}
    (h : runs (NodeClient.step url) init moves = some final) :
    (∀ connection, final.Dropped connection ↔ ∃ past move rest middle, moves = past++move::rest ∧
      runs (NodeClient.step url) init past = some middle ∧ middle.Drops connection move) ∧
    (∀ connection, final.substrate = some connection → connection < final.opened ∧ connection ∉ final.closed) ∧
    (∀ past task rest, moves = past++(task, .disconnected)::rest → (∀ move ∈ rest, move.2 ≠ .connected (.ok ())) →
      ∃ middle, runs (NodeClient.step url) init past = some middle ∧ final.substrate = none ∧
        final.handed = middle.handed) ∧
    ((∀ past move rest middle, moves = past++move::rest → runs (NodeClient.step url) init past = some middle →
        middle.Careful move) →
      ∀ connection, ¬ final.Dropped connection) := by
  have hempty : ∀ connection, ¬ (init : NodeClient Task).Dropped connection := by
    intro connection hdropped
    exact Nat.not_lt_zero _ hdropped.1
  refine ⟨?_, (runs_stored h).stored, ?_, ?_⟩
  · intro connection
    exact runs_event _ Stored (fun s => s.Dropped connection) (fun s move => s.Drops connection move) init_stored
      (hempty connection) (fun _ _ _ hs hstep => hs.step hstep)
      (fun _ _ _ hs hstep => dropped_step hs hstep connection) h
  · intro past task rest hmoves hrest
    rw [hmoves, runs_append] at h
    obtain ⟨middle, hmiddle, h⟩ := Option.bind_eq_some_iff.mp h
    refine ⟨middle, hmiddle, ?_⟩
    cases hnext : step url middle (task, .disconnected) with
    | none =>
      simp only [runs, hnext] at h
      cases h
    | some next =>
      simp only [runs, hnext] at h
      obtain ⟨connection, -, hthen⟩ := disconnected_task hnext
      obtain ⟨hfinal, hsame⟩ := runs_silent (by rw [hthen]; rfl) hrest h
      refine ⟨hfinal, hsame.trans ?_⟩
      rw [hthen]
      rfl
  · intro hcareful
    refine (runs_guarded _ (fun s => Alone s ∧ Stored s ∧ ∀ connection, ¬ s.Dropped connection) Careful ?_ ?_ h
      hcareful).2.2
    · exact ⟨⟨rfl, by simp [init], by simp [init], by simp [init]⟩, init_stored, hempty⟩
    · intro s move s' hinv hcareful hstep
      obtain ⟨halone, hstored, hnone⟩ := hinv
      refine ⟨halone.step hcareful hstep, hstored.step hstep, fun connection hdropped => ?_⟩
      rcases (dropped_step hstored hstep connection).mp hdropped with hbefore | hdrops
      · exact hnone connection hbefore
      · exact halone.drops_none hstep connection hdrops

/-- Two tasks connect, and the second connection replaces the first; a disconnect is overtaken by a connect; and a
disconnect is cancelled, the connection replaced and the call of `close` never made. -/
theorem connections_accounted_sample :
    let overwritten : List (Bool × NodeMove) :=
      [(true, .connect), (false, .connect), (true, .connected (.ok ())), (false, .connected (.ok ()))]
    let overtaken : List (Bool × NodeMove) :=
      [(true, .disconnect), (false, .connect), (false, .connected (.ok ())), (true, .disconnected)]
    let unrun : List (Bool × NodeMove) :=
      [(true, .connect), (true, .connected (.ok ())), (true, .disconnect), (true, .cancel), (true, .connect),
        (true, .connected (.ok ())), (true, .lateClose 3 false), (true, .disconnect), (true, .disconnected)]
    ∃ final : NodeClient Bool, runs (NodeClient.step "") init (overwritten++overtaken++unrun) = some final ∧
      (final.Dropped 0 ∧ final.Dropped 2 ∧ final.Dropped 3) ∧ final.substrate = none := by
  intro overwritten overtaken unrun
  have hsome : (runs (NodeClient.step "") (init : NodeClient Bool) (overwritten++overtaken++unrun)).isSome := by
    decide +kernel
  obtain ⟨final, hfinal⟩ := Option.isSome_iff_exists.mp hsome
  obtain ⟨hdropped, -, hsilent, -⟩ := connections_accounted hfinal
  obtain ⟨_, _, hnone, _⟩ := hsilent (overwritten++overtaken++unrun.dropLast) true [] rfl (by simp)
  have hclear (middle : NodeClient Bool) (connection : Nat) (hphases : ∀ task, middle.phase task ≠ .closing connection)
      (hlists : connection ∉ middle.abandoned ∧ connection ∉ middle.closed ∧ connection ∉ middle.closedLate) :
      ¬ middle.Closes connection := by
    rintro (⟨task, htask⟩ | habandoned | hclosed | hlate)
    · exact hphases task htask
    · exact hlists.1 habandoned
    · exact hlists.2.1 hclosed
    · exact hlists.2.2 hlate
  refine ⟨final, hfinal, ⟨?_, ?_, ?_⟩, hnone⟩
  · refine (hdropped 0).mpr ⟨overwritten.dropLast, (false, .connected (.ok ())), overtaken++unrun, _, rfl, rfl,
      Or.inl ?_⟩
    exact ⟨by decide, hclear _ 0 (by decide) (by decide), Or.inl rfl⟩
  · refine (hdropped 2).mpr ⟨overwritten++overtaken.dropLast, (true, .disconnected), unrun, _, rfl, rfl, Or.inl ?_⟩
    exact ⟨by decide, hclear _ 2 (by decide) (by decide), Or.inr rfl⟩
  · refine (hdropped 3).mpr ⟨overwritten++overtaken++unrun.take 6, (true, .lateClose 3 false), unrun.drop 7, _, rfl, rfl,
      Or.inr (Or.inr ⟨rfl, by decide, ?_, by decide, by decide, by decide⟩)⟩
    rintro ⟨task, htask⟩
    revert task
    decide

end Steps

end NodeClient

end Noxipher
