import Noxipher.Core.Failures
import Noxipher.Library.Runs
import Mathlib.Data.List.Nodup

namespace Noxipher

variable {Task Coin : Type}

/-- What the loop reads of an event of the subscription; the inner option is a JSON null. -/
structure ShieldedEvent (Coin : Type) where
  typename : Option String
  relevantCoins : Option (Option (List Coin))

namespace ShieldedEvent

/-- One round of the loop of `sync_coins`. -/
def collect (coins : List Coin) (event : ShieldedEvent Coin) : Except Failure (List Coin) :=
  if event.typename = some "ShieldedTransactionFound" then
    match event.relevantCoins with
    | none => .ok coins
    | some (some found) => .ok (coins++found)
    | some none => .error (.raised (.typeError "'NoneType' object is not iterable"))
  else .ok coins

/-- The coins an event tells of. -/
def found (event : ShieldedEvent Coin) : List Coin :=
  if event.typename = some "ShieldedTransactionFound" then ((event.relevantCoins.getD none).getD []) else []

theorem collect_ok {coins coins' : List Coin} {event : ShieldedEvent Coin} (h : event.collect coins = .ok coins') :
    coins' = coins++event.found := by
  unfold collect at h
  unfold found
  split_ifs at h ⊢ with hname
  · split at h
    · rename_i hmissing
      rw [hmissing]
      simpa using (Except.ok.inj h).symm
    · rename_i coins hlist
      rw [hlist]
      simpa using (Except.ok.inj h).symm
    · cases h
  · simpa using (Except.ok.inj h).symm

end ShieldedEvent

/-- What a task leaves behind at the indexer: a session, or a request that may be served late. -/
inductive Trace where
  | nothing
  | kept (session : String)
  | lateOpen
  | lateClose (session : String)

/-- Where `sync_shielded` waits. A request is first served by the indexer and then answered; `pending` is what the
`try` block leaves for the end of `finally`. -/
inductive Phase (Coin : Type) where
  | idle
  | opening
  | opened (session : String)
  | streaming (session : String) (coins : List Coin)
  | closing (session : String) (pending : Except Failure (List Coin))
  | closed (session : String) (pending : Except Failure (List Coin))
  | done (outcome : Except Failure (List Coin)) (trace : Trace)

/-- What ends a wait. The indexer serves a request to connect with the session that it opens. -/
inductive Act (Coin : Type) where
  | start
  | connect (session : String)
  | disconnect
  | answer
  | event (event : ShieldedEvent Coin)
  | finish
  | fail (e : Failure)

def Act.events : Act Coin → List (ShieldedEvent Coin)
  | .event received => [received]
  | _ => []

/-- The session that is opened. -/
def Act.opened : Act Coin → List String
  | .connect session => [session]
  | _ => []

/-- What a step means to the indexer. -/
inductive Effect where
  | none
  | opens (session : String)
  | asks (session : String)
  | drops (session : String)

namespace Phase

def openFailure : Failure → Failure :=
  Failure.wrapped (fun msg => .indexerError ("connect_wallet_session failed: " ++ msg))

def closeFailure : Failure → Failure :=
  Failure.wrapped (fun msg => .indexerError ("disconnect_wallet_session failed: " ++ msg))

/-- `sync_shielded` from one wait to the next. The last two lines serve a request that its task no longer waits for. -/
def step : Phase Coin → Act Coin → Option (Phase Coin × Effect)
  | idle, .start => some (opening, .none)
  | opening, .connect session => some (opened session, .opens session)
  | opening, .fail e => some (done (.error (openFailure e)) .lateOpen, .none)
  | opened session, .answer => some (streaming session [], .none)
  | opened session, .fail e => some (done (.error (openFailure e)) (.kept session), .none)
  | streaming session coins, .event event =>
    match event.collect coins with
    | .ok coins => some (streaming session coins, .none)
    | .error e => some (closing session (.error e), .asks session)
  | streaming session coins, .finish => some (closing session (.ok coins), .asks session)
  | streaming session _, .fail e => some (closing session (.error e), .asks session)
  | closing session pending, .disconnect => some (closed session pending, .drops session)
  | closing session _, .fail e => some (done (.error (closeFailure e)) (.lateClose session), .none)
  | closed _ pending, .answer => some (done pending .nothing, .none)
  | closed _ _, .fail e => some (done (.error (closeFailure e)) .nothing, .none)
  | done outcome .lateOpen, .connect session => some (done outcome (.kept session), .opens session)
  | done outcome (.lateClose session), .disconnect => some (done outcome .nothing, .drops session)
  | _, _ => none

/-- The session that is open at the indexer for this task. -/
def held : Phase Coin → Option String
  | opened session | streaming session _ | closing session _ | done _ (.kept session) | done _ (.lateClose session) =>
    some session
  | _ => none

/-- No session has been opened for the task yet. -/
def ungranted : Phase Coin → Bool
  | idle | opening | done _ .lateOpen => true
  | _ => false

/-- The task will not ask for the end of a session any more. -/
def settled : Phase Coin → Bool
  | closing _ _ | closed _ _ | done _ _ => true
  | _ => false

/-- A list that the task holds, or returns in the end, has the coins of its events in order. -/
def Tells (events : List (ShieldedEvent Coin)) : Phase Coin → Prop
  | idle | opening | opened _ => events = []
  | streaming _ coins => coins = events.flatMap ShieldedEvent.found
  | closing _ pending | closed _ pending | done pending _ =>
    ∀ coins, pending = .ok coins → coins = events.flatMap ShieldedEvent.found

/-- Only an error of `connect` or `disconnect` leaves something behind. -/
def Honest : Phase Coin → Prop
  | done (.ok _) trace => trace = .nothing
  | done (.error e) trace => trace = .nothing ∨ ∃ cause, e = openFailure cause ∨ e = closeFailure cause
  | _ => True

/-- What an effect says about the task before and after it. -/
def Matches (before after : Phase Coin) : Effect → Prop
  | .none => after.held = before.held
  | .opens session => before.ungranted = true ∧ after.ungranted = false ∧ after.held = some session
  | .asks session =>
    before.settled = false ∧ after.settled = true ∧ before.held = some session ∧ after.held = some session
  | .drops session => before.held = some session ∧ after.held = none

variable {before after : Phase Coin} {act : Act Coin} {effect : Effect}

theorem step_spec (h : before.step act = some (after, effect)) :
    Matches before after effect ∧ (before.settled = true → after.settled = true) ∧
      (before.ungranted = false → after.ungranted = false) ∧
      ∀ session, effect = .opens session → act.opened = [session] := by
  revert h
  fun_cases step before act
  all_goals
    intro h
    cases h
  all_goals simp [Matches, settled, ungranted, held, Act.opened]

theorem held_of_ungranted {phase : Phase Coin} (h : phase.ungranted = true) : phase.held = none := by
  unfold ungranted at h
  split at h
  · rfl
  · rfl
  · rfl
  · cases h

theorem step_tells {events : List (ShieldedEvent Coin)} (h : before.step act = some (after, effect))
    (htells : before.Tells events) : after.Tells (events++act.events) := by
  revert h
  fun_cases step before act
  case case6 coins event coins' hcollect =>
    intro h
    cases h
    have hcoins : coins = events.flatMap ShieldedEvent.found := htells
    show coins' = (events++[event]).flatMap ShieldedEvent.found
    rw [ShieldedEvent.collect_ok hcollect, hcoins, List.flatMap_append, List.flatMap_singleton]
  all_goals
    intro h
    cases h
  all_goals simp_all [Tells, Act.events]

theorem step_honest (h : before.step act = some (after, effect)) (hhonest : before.Honest) : after.Honest := by
  revert h
  fun_cases step before act
  case case3 e =>
    intro h
    cases h
    exact Or.inr ⟨e, Or.inl rfl⟩
  case case5 e =>
    intro h
    cases h
    exact Or.inr ⟨e, Or.inl rfl⟩
  case case11 e =>
    intro h
    cases h
    exact Or.inr ⟨e, Or.inr rfl⟩
  case case12 pending =>
    intro h
    cases h
    cases pending with
    | ok coins => rfl
    | error e => exact Or.inl rfl
  case case14 outcome session =>
    intro h
    cases h
    cases outcome with
    | ok coins => cases hhonest
    | error e =>
      rcases hhonest with hnone | hcause
      · cases hnone
      · exact Or.inr hcause
  case case15 outcome session =>
    intro h
    cases h
    cases outcome with
    | ok coins => cases hhonest
    | error e => exact Or.inl rfl
  all_goals
    intro h
    cases h
  all_goals simp [Honest]

end Phase

/-- The indexer and the tasks that sync at the same time; `granted` and `asked` are what it handed out and the requests
to disconnect it was sent, with the task each is for. -/
structure Indexing (Task Coin : Type) where
  phase : Task → Phase Coin
  sessions : List String
  granted : List (Task × String)
  asked : List (Task × String)

namespace Indexing

variable [DecidableEq Task]

def idle : Indexing Task Coin := ⟨fun _ => .idle, [], [], []⟩

def apply (indexing : Indexing Task Coin) (task : Task) (phase : Phase Coin) : Effect → Indexing Task Coin
  | .none => { indexing with phase := Function.update indexing.phase task phase }
  | .opens session => { indexing with
      phase := Function.update indexing.phase task phase
      sessions := session::indexing.sessions
      granted := (task, session)::indexing.granted }
  | .asks session => { indexing with
      phase := Function.update indexing.phase task phase
      asked := (task, session)::indexing.asked }
  | .drops session => { indexing with
      phase := Function.update indexing.phase task phase
      sessions := indexing.sessions.erase session }

/-- One task takes one step. -/
def step (indexing : Indexing Task Coin) (move : Task × Act Coin) : Option (Indexing Task Coin) :=
  match (indexing.phase move.1).step move.2 with
  | some (phase, effect) => some (indexing.apply move.1 phase effect)
  | none => none

/-- The events of the subscription of a task, in order. -/
def delivered (task : Task) (moves : List (Task × Act Coin)) : List (ShieldedEvent Coin) :=
  (moves.filter (fun move => move.1 = task)).flatMap (fun move => move.2.events)

/-- The sessions that were opened. -/
def opened (moves : List (Task × Act Coin)) : List String := moves.flatMap (fun move => move.2.opened)

/-- The indexer names every session it opens by an identifier of its own. -/
def DistinctSessions (moves : List (Task × Act Coin)) : Prop := (opened moves).Nodup

/-- What holds after every step: sessions and requests belong to the tasks they were made for. -/
structure Accounted (indexing : Indexing Task Coin) : Prop where
  sessions_nodup : indexing.sessions.Nodup
  mem_sessions : ∀ session, session ∈ indexing.sessions ↔ ∃ task, (indexing.phase task).held = some session
  held_granted : ∀ task session, (indexing.phase task).held = some session → (task, session) ∈ indexing.granted
  granted_sessions : (indexing.granted.map Prod.snd).Nodup
  granted_tasks : (indexing.granted.map Prod.fst).Nodup
  granted_once : ∀ grant ∈ indexing.granted, (indexing.phase grant.1).ungranted = false
  asked_granted : ∀ request ∈ indexing.asked, request ∈ indexing.granted
  asked_settled : ∀ request ∈ indexing.asked, (indexing.phase request.1).settled = true
  asked_nodup : indexing.asked.Nodup

omit [DecidableEq Task] in
theorem accounted_idle : Accounted (idle : Indexing Task Coin) := by
  constructor <;> simp [idle, Phase.held]

variable {indexing next : Indexing Task Coin} {task : Task} {act : Act Coin}

theorem step_ok (h : indexing.step (task, act) = some next) :
    ∃ after effect, (indexing.phase task).step act = some (after, effect) ∧
      next = indexing.apply task after effect := by
  unfold step at h
  split at h
  · rename_i after effect hstep
    exact ⟨after, effect, hstep, (Option.some.inj h).symm⟩
  · cases h

omit [DecidableEq Task] in
/-- A session has one holder. -/
theorem Accounted.holder_unique (haccounted : Accounted indexing) {owner other : Task} {session : String}
    (h : (indexing.phase owner).held = some session) (hother : (indexing.phase other).held = some session) :
    owner = other := by
  have hgrant := haccounted.held_granted owner session h
  have hgrant' := haccounted.held_granted other session hother
  have hsame := List.inj_on_of_nodup_map haccounted.granted_sessions hgrant hgrant' rfl
  exact congrArg Prod.fst hsame

@[simp] theorem apply_phase (after : Phase Coin) (effect : Effect) :
    (indexing.apply task after effect).phase = Function.update indexing.phase task after := by
  cases effect <;> rfl

/-- What is granted is what the step opens. -/
theorem step_granted (h : indexing.step (task, act) = some next) :
    next.granted.map Prod.snd = act.opened++indexing.granted.map Prod.snd ∨ next.granted = indexing.granted := by
  obtain ⟨after, effect, hstep, rfl⟩ := step_ok h
  obtain ⟨-, -, -, hopens⟩ := Phase.step_spec hstep
  cases effect with
  | opens session =>
    left
    rw [hopens session rfl]
    rfl
  | none => exact Or.inr rfl
  | asks session => exact Or.inr rfl
  | drops session => exact Or.inr rfl

theorem Accounted.step (haccounted : Accounted indexing) (h : indexing.step (task, act) = some next)
    (hfresh : ∀ session ∈ act.opened, session ∉ indexing.granted.map Prod.snd) : Accounted next := by
  obtain ⟨after, effect, hstep, rfl⟩ := step_ok h
  obtain ⟨hmatches, hsettled, hgranted, hopens⟩ := Phase.step_spec hstep
  have hsettled' {owner : Task} (howner : (indexing.phase owner).settled = true) :
      (Function.update indexing.phase task after owner).settled = true :=
    update_kept (fun p : Phase Coin => p.settled = true) hsettled howner
  have hgranted' {owner : Task} (howner : (indexing.phase owner).ungranted = false) :
      (Function.update indexing.phase task after owner).ungranted = false :=
    update_kept (fun p : Phase Coin => p.ungranted = false) hgranted howner
  have hother {owner : Task} (hne : owner ≠ task) :
      Function.update indexing.phase task after owner = indexing.phase owner := Function.update_of_ne hne _ _
  have hself : Function.update indexing.phase task after task = after := Function.update_self _ _ _
  have hkeeps (hsame : after.held = (indexing.phase task).held) (owner : Task) :
      (Function.update indexing.phase task after owner).held = (indexing.phase owner).held := by
    rcases eq_or_ne owner task with rfl | hne
    · rw [hself]
      exact hsame
    · rw [hother hne]
  cases effect with
  | none =>
    have hheld := hkeeps hmatches
    exact { haccounted with
      mem_sessions := fun session => by
        simp only [apply_phase, hheld]
        exact haccounted.mem_sessions session
      held_granted := fun owner session howner =>
        haccounted.held_granted owner session (by rwa [apply_phase, hheld] at howner)
      granted_once := fun grant hgrant => by
        rw [apply_phase]
        exact hgranted' (haccounted.granted_once grant hgrant)
      asked_settled := fun request hrequest => by
        rw [apply_phase]
        exact hsettled' (haccounted.asked_settled request hrequest) }
  | opens new =>
    obtain ⟨hbefore, hafter, hheld⟩ := hmatches
    have hnone := Phase.held_of_ungranted hbefore
    have hnew : new ∉ indexing.granted.map Prod.snd := hfresh new (by simp [hopens new rfl])
    have hunheld : new ∉ indexing.sessions := by
      intro hmem
      obtain ⟨owner, howner⟩ := (haccounted.mem_sessions new).mp hmem
      exact hnew (List.mem_map.mpr ⟨_, haccounted.held_granted owner new howner, rfl⟩)
    constructor
    · exact List.nodup_cons.mpr ⟨hunheld, haccounted.sessions_nodup⟩
    · intro session
      rw [apply_phase, apply, List.mem_cons, haccounted.mem_sessions]
      constructor
      · rintro (rfl | ⟨owner, howner⟩)
        · exact ⟨task, by rw [hself, hheld]⟩
        · refine ⟨owner, ?_⟩
          rwa [hother]
          rintro rfl
          rw [hnone] at howner
          cases howner
      · rintro ⟨owner, howner⟩
        rcases eq_or_ne owner task with rfl | hne
        · rw [hself, hheld] at howner
          exact Or.inl (Option.some.inj howner).symm
        · rw [hother hne] at howner
          exact Or.inr ⟨owner, howner⟩
    · intro owner session howner
      rw [apply_phase] at howner
      rcases eq_or_ne owner task with rfl | hne
      · rw [hself, hheld] at howner
        cases howner
        exact List.mem_cons_self
      · rw [hother hne] at howner
        exact List.mem_cons_of_mem _ (haccounted.held_granted owner session howner)
    · exact List.nodup_cons.mpr ⟨hnew, haccounted.granted_sessions⟩
    · refine List.nodup_cons.mpr ⟨?_, haccounted.granted_tasks⟩
      intro hmem
      obtain ⟨grant, hgrant, hsame⟩ := List.mem_map.mp hmem
      have honce := haccounted.granted_once grant hgrant
      rw [hsame, hbefore] at honce
      cases honce
    · intro grant hgrant
      rw [apply_phase]
      rcases List.mem_cons.mp hgrant with rfl | hgrant
      · rw [hself]
        exact hafter
      · exact hgranted' (haccounted.granted_once grant hgrant)
    · intro request hrequest
      exact List.mem_cons_of_mem _ (haccounted.asked_granted request hrequest)
    · intro request hrequest
      rw [apply_phase]
      exact hsettled' (haccounted.asked_settled request hrequest)
    · exact haccounted.asked_nodup
  | asks session =>
    obtain ⟨hbefore, hafter, hheld_before, hheld_after⟩ := hmatches
    have hheld := hkeeps (hheld_after.trans hheld_before.symm)
    exact { haccounted with
      mem_sessions := fun session => by
        simp only [apply_phase, hheld]
        exact haccounted.mem_sessions session
      held_granted := fun owner session howner =>
        haccounted.held_granted owner session (by rwa [apply_phase, hheld] at howner)
      granted_once := fun grant hgrant => by
        rw [apply_phase]
        exact hgranted' (haccounted.granted_once grant hgrant)
      asked_granted := fun request hrequest => by
        rcases List.mem_cons.mp hrequest with rfl | hrequest
        · exact haccounted.held_granted task session hheld_before
        · exact haccounted.asked_granted request hrequest
      asked_settled := fun request hrequest => by
        rw [apply_phase]
        rcases List.mem_cons.mp hrequest with rfl | hrequest
        · rw [hself]
          exact hafter
        · exact hsettled' (haccounted.asked_settled request hrequest)
      asked_nodup := by
        refine List.nodup_cons.mpr ⟨?_, haccounted.asked_nodup⟩
        intro hmem
        have hsettled_before := haccounted.asked_settled _ hmem
        rw [hbefore] at hsettled_before
        cases hsettled_before }
  | drops session =>
    obtain ⟨hheld_before, hheld_after⟩ := hmatches
    have hback {owner : Task} {held : String}
        (howner : (Function.update indexing.phase task after owner).held = some held) :
        owner ≠ task ∧ (indexing.phase owner).held = some held := by
      rcases eq_or_ne owner task with rfl | hne
      · rw [hself, hheld_after] at howner
        cases howner
      · rw [hother hne] at howner
        exact ⟨hne, howner⟩
    exact { haccounted with
      sessions_nodup := haccounted.sessions_nodup.erase session
      mem_sessions := fun held => by
        rw [apply_phase, apply, haccounted.sessions_nodup.mem_erase_iff, haccounted.mem_sessions]
        constructor
        · rintro ⟨hne, owner, howner⟩
          refine ⟨owner, ?_⟩
          rwa [hother]
          rintro rfl
          rw [hheld_before] at howner
          exact hne (Option.some.inj howner).symm
        · rintro ⟨owner, howner⟩
          obtain ⟨hne, howner⟩ := hback howner
          refine ⟨?_, owner, howner⟩
          rintro rfl
          exact hne (haccounted.holder_unique howner hheld_before)
      held_granted := fun owner held howner => by
        rw [apply_phase] at howner
        exact haccounted.held_granted owner held (hback howner).2
      granted_once := fun grant hgrant => by
        rw [apply_phase]
        exact hgranted' (haccounted.granted_once grant hgrant)
      asked_settled := fun request hrequest => by
        rw [apply_phase]
        exact hsettled' (haccounted.asked_settled request hrequest) }

theorem delivered_append (owner : Task) (moves : List (Task × Act Coin)) (move : Task × Act Coin) :
    delivered owner (moves++[move]) = if move.1 = owner then delivered owner moves++move.2.events
      else delivered owner moves := by
  unfold delivered
  rw [List.filter_append, List.flatMap_append]
  split_ifs with howner
  · simp [howner]
  · simp [howner]

/-- With identifiers of their own the sessions are accounted for after every run. -/
theorem runs_accounted {moves : List (Task × Act Coin)}
    (h : runs Indexing.step idle moves = some indexing) (hdistinct : DistinctSessions moves) : indexing.Accounted := by
  have hall := runs_history Indexing.step (fun past s => (∀ session ∈ s.granted.map Prod.snd, session ∈ opened past) ∧
    (DistinctSessions past → s.Accounted)) ?_ ?_ h
  · exact hall.2 hdistinct
  · exact ⟨by simp [idle], fun _ => accounted_idle⟩
  · intro past s move s' hinv hstep
    obtain ⟨hgranted, hpast⟩ := hinv
    have hopened : opened (past++[move]) = opened past++move.2.opened := by simp [opened]
    constructor
    · intro session hmem
      rw [hopened]
      rcases step_granted hstep with hmore | hsame
      · rw [hmore] at hmem
        rcases List.mem_append.mp hmem with hnew | hold
        · exact List.mem_append_right _ hnew
        · exact List.mem_append_left _ (hgranted session hold)
      · rw [hsame] at hmem
        exact List.mem_append_left _ (hgranted session hmem)
    · intro hnodup
      rw [DistinctSessions, hopened, List.nodup_append] at hnodup
      obtain ⟨hbefore, -, hapart⟩ := hnodup
      exact (hpast hbefore).step hstep (fun session hnew hold => hapart session (hgranted session hold) session hnew rfl)

end Indexing

open Indexing in
/-- Tasks that sync at once do not meet: after every interleaving in which the sessions have identifiers of their own
the indexer holds open exactly the sessions of tasks on their way and those that a failed or cancelled request left
there, each for one task, and a task asks for the end of its own session only, once; and a task that returns leaves
nothing and has the coins of its events in order. -/
theorem sessions_accounted [DecidableEq Task] {moves : List (Task × Act Coin)} {indexing : Indexing Task Coin}
    (h : runs Indexing.step idle moves = some indexing) :
    (DistinctSessions moves →
      (∀ session, session ∈ indexing.sessions ↔ ∃ task, (indexing.phase task).held = some session) ∧
      (∀ task other session, (indexing.phase task).held = some session → (indexing.phase other).held = some session →
        task = other) ∧
      (indexing.asked.Nodup ∧ (indexing.granted.map Prod.fst).Nodup ∧
        ∀ request ∈ indexing.asked, request ∈ indexing.granted)) ∧
    ∀ task outcome trace, indexing.phase task = .done outcome trace →
      match outcome with
      | .ok coins => trace = .nothing ∧ coins = (delivered task moves).flatMap ShieldedEvent.found
      | .error e => trace = .nothing ∨ ∃ cause, e = Phase.openFailure cause ∨ e = Phase.closeFailure cause := by
  have hhistory : ∀ task, (indexing.phase task).Tells (delivered task moves) ∧ (indexing.phase task).Honest := by
    have hstart : ∀ task, ((idle : Indexing Task Coin).phase task).Tells (delivered task []) ∧
        ((idle : Indexing Task Coin).phase task).Honest := fun _ => ⟨rfl, trivial⟩
    refine runs_history Indexing.step (fun past s => ∀ task, (s.phase task).Tells (delivered task past) ∧
      (s.phase task).Honest) hstart ?_ h
    intro past s move s' hpast hstep task
    obtain ⟨mover, act⟩ := move
    obtain ⟨after, effect, hphase, rfl⟩ := step_ok hstep
    obtain ⟨htells, hhonest⟩ := hpast task
    rw [apply_phase, delivered_append]
    rcases eq_or_ne task mover with rfl | hne
    · rw [Function.update_self, if_pos rfl]
      exact ⟨Phase.step_tells hphase htells, Phase.step_honest hphase hhonest⟩
    · rw [Function.update_of_ne hne, if_neg (Ne.symm hne)]
      exact ⟨htells, hhonest⟩
  constructor
  · intro hdistinct
    have haccounted := runs_accounted h hdistinct
    exact ⟨haccounted.mem_sessions, fun _ _ _ => haccounted.holder_unique, haccounted.asked_nodup,
      haccounted.granted_tasks, haccounted.asked_granted⟩
  · intro task outcome trace hdone
    obtain ⟨htells, hhonest⟩ := hhistory task
    rw [hdone] at htells hhonest
    cases outcome with
    | ok coins => exact ⟨hhonest, htells coins rfl⟩
    | error e => exact hhonest

/-- Two tasks; the second is cancelled before it hears of its session. -/
def sampleMoves : List (Nat × Act Nat) :=
  [(0, .start), (1, .start), (0, .connect "a1"), (1, .connect "b2"), (0, .answer), (1, .fail .cancelledError),
    (0, .event ⟨some "ShieldedTransactionFound", some (some [5])⟩), (0, .finish), (0, .disconnect), (0, .answer)]

theorem sessions_accounted_sample :
    ∃ indexing, runs Indexing.step Indexing.idle sampleMoves = some indexing ∧ indexing.sessions = ["b2"] ∧
      (∃ task, (indexing.phase task).held = some "b2") ∧
      [5] = (Indexing.delivered 0 sampleMoves).flatMap ShieldedEvent.found := by
  have hrun : ∃ indexing, runs Indexing.step Indexing.idle sampleMoves = some indexing ∧ indexing.sessions = ["b2"] ∧
      indexing.phase 0 = .done (.ok [5]) .nothing := ⟨_, rfl, by decide, rfl⟩
  obtain ⟨indexing, hruns, hsessions, hdone⟩ := hrun
  obtain ⟨hopen, hends⟩ := sessions_accounted hruns
  have hdistinct : Indexing.DistinctSessions sampleMoves := by
    show List.Nodup ["a1", "b2"]
    decide
  refine ⟨indexing, hruns, hsessions, ((hopen hdistinct).1 "b2").mp (by simp [hsessions]), ?_⟩
  exact (hends 0 _ _ hdone).2

end Noxipher
