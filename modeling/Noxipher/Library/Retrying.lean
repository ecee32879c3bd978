import Mathlib.Data.List.Basic
import Mathlib.Tactic.Common
import Mathlib.Tactic.Ring

namespace Noxipher.Retrying

/-- How a call behind a retry decorator ends when it does not return: the attempts are used up, or an exception that is
not retried passes through. -/
inductive GaveUp (ε : Type) where
  | exhausted (last : ε)
  | raised (e : ε)
  deriving DecidableEq, Repr

variable {ε α β : Type} (retried : ε → Bool)

/-- Ask, and up to `more` times again while the answer is an exception that is retried. The requests are numbered from
`n` on; the number of the next one is returned beside the outcome. -/
def attempt (answer : Nat → Except ε α) : Nat → Nat → Except (GaveUp ε) α × Nat
  | more, n =>
    match answer n with
    | .ok a => (.ok a, n+1)
    | .error e =>
      if retried e then
        match more with
        | 0 => (.error (.exhausted e), n+1)
        | more+1 => attempt answer more (n+1)
      else (.error (.raised e), n+1)

/-- One call after the other, the requests of all of them logged with their answers. A call whose argument cannot be
computed, and a call that gives up, ends the run. -/
def calls (more : Nat) (answer : Nat → β → Except ε α) :
    Nat → List (Except ε β) → Except (GaveUp ε) (List α) × List (β × Except ε α)
  | _, [] => (.ok [], [])
  | _, .error e::_ => (.error (.raised e), [])
  | n, .ok b::items =>
    let (outcome, next) := attempt retried (fun i => answer i b) more n
    let log := (List.range' n (next-n)).map (fun i => (b, answer i b))
    match outcome with
    | .error e => (.error e, log)
    | .ok a =>
      let (rest, more_log) := calls more answer next items
      (rest.map (a::·), log++more_log)

/-- The requests and answers of one call that succeeds: some failures that are retried, fewer than the attempts, and
the answer. -/
def succeeding (b : β) (failures : List ε) (a : α) : List (β × Except ε α) :=
  failures.map (fun e => (b, .error e))++[(b, .ok a)]

/-- What a run of calls looks like from outside: the log of a list of calls, and how it ends. -/
inductive Served (more : Nat) : List (Except ε β) → List (β × Except ε α) → Except (GaveUp ε) (List α) → Prop where
  | done : Served more [] [] (.ok [])
  | unread (e : ε) (items : List (Except ε β)) : Served more (.error e::items) [] (.error (.raised e))
  | exhausted (b : β) (items : List (Except ε β)) (failures : List ε) (e : ε) (hmore : failures.length = more)
      (hretried : ∀ e' ∈ failures++[e], retried e' = true) :
      Served more (.ok b::items) ((failures++[e]).map (fun e => (b, .error e))) (.error (.exhausted e))
  | refused (b : β) (items : List (Except ε β)) (failures : List ε) (e : ε) (hmore : failures.length ≤ more)
      (hretried : ∀ e' ∈ failures, retried e' = true) (he : retried e = false) :
      Served more (.ok b::items) ((failures++[e]).map (fun e => (b, .error e))) (.error (.raised e))
  | next (b : β) (items : List (Except ε β)) (failures : List ε) (a : α) (log : List (β × Except ε α))
      (outcome : Except (GaveUp ε) (List α)) (hmore : failures.length ≤ more)
      (hretried : ∀ e' ∈ failures, retried e' = true) (hrest : Served more items log outcome) :
      Served more (.ok b::items) (succeeding b failures a++log) (outcome.map (a::·))

section Attempt

variable {retried} {answer : Nat → Except ε α}

/-- The requests of one call: all but the last failed and were retried, and the last one decides. -/
structure Asked (retried : ε → Bool) (answer : Nat → Except ε α) (more n : Nat) (outcome : Except (GaveUp ε) α)
    (failures : List ε) : Prop where
  few : failures.length ≤ more
  failed : (List.range' n failures.length).map answer = failures.map .error
  again : ∀ e ∈ failures, retried e = true
  ended : (∃ a, answer (n+failures.length) = .ok a ∧ outcome = .ok a) ∨
    ∃ e, answer (n+failures.length) = .error e ∧
      (retried e = true ∧ failures.length = more ∧ outcome = .error (.exhausted e) ∨
        retried e = false ∧ outcome = .error (.raised e))

theorem attempt_ok {more n : Nat} {a : α} (h : answer n = .ok a) : attempt retried answer more n = (.ok a, n+1) := by
  rw [attempt, h]

theorem attempt_raised {more n : Nat} {e : ε} (h : answer n = .error e) (hr : retried e = false) :
    attempt retried answer more n = (.error (.raised e), n+1) := by
  rw [attempt, h]
  exact if_neg (by simp [hr])

theorem attempt_exhausted {n : Nat} {e : ε} (h : answer n = .error e) (hr : retried e = true) :
    attempt retried answer 0 n = (.error (.exhausted e), n+1) := by
  rw [attempt, h]
  exact if_pos hr

theorem attempt_again {more n : Nat} {e : ε} (h : answer n = .error e) (hr : retried e = true) :
    attempt retried answer (more+1) n = attempt retried answer more (n+1) := by
  rw [attempt, h]
  exact if_pos hr

/-- A call that begins with a failure goes on as the call of the remaining attempts. -/
theorem Asked.cons {more n : Nat} {outcome : Except (GaveUp ε) α} {failures : List ε} {e : ε}
    (h : Asked retried answer more (n+1) outcome failures) (ha : answer n = .error e) (hr : retried e = true) :
    Asked retried answer (more+1) n outcome (e::failures) := by
  have hlast : n+(e::failures).length = n+1+failures.length := by
    rw [List.length_cons]
    omega
  refine ⟨Nat.succ_le_succ h.few, ?_, ?_, ?_⟩
  · rw [List.length_cons, List.range'_succ, List.map_cons, List.map_cons, ha, h.failed]
  · exact List.forall_mem_cons.mpr ⟨hr, h.again⟩
  · rw [hlast, List.length_cons, Nat.succ_inj]
    exact h.ended

variable (retried answer) in
theorem attempt_asked (more n : Nat) :
    ∃ failures, (attempt retried answer more n).2 = n+failures.length+1 ∧
      Asked retried answer more n (attempt retried answer more n).1 failures := by
  induction more generalizing n with
  | zero =>
    refine ⟨[], ?_⟩
    cases ha : answer n with
    | ok a =>
      rw [attempt_ok ha]
      exact ⟨rfl, le_rfl, rfl, by simp, Or.inl ⟨a, ha, rfl⟩⟩
    | error e =>
      cases hr : retried e with
      | true =>
        rw [attempt_exhausted ha hr]
        exact ⟨rfl, le_rfl, rfl, by simp, Or.inr ⟨e, ha, Or.inl ⟨hr, rfl, rfl⟩⟩⟩
      | false =>
        rw [attempt_raised ha hr]
        exact ⟨rfl, le_rfl, rfl, by simp, Or.inr ⟨e, ha, Or.inr ⟨hr, rfl⟩⟩⟩
  | succ more ih =>
    cases ha : answer n with
    | ok a =>
      rw [attempt_ok ha]
      exact ⟨[], rfl, Nat.zero_le _, rfl, by simp, Or.inl ⟨a, ha, rfl⟩⟩
    | error e =>
      cases hr : retried e with
      | true =>
        obtain ⟨failures, hnext, hasked⟩ := ih (n+1)
        rw [attempt_again ha hr]
        refine ⟨e::failures, ?_, hasked.cons ha hr⟩
        rw [hnext, List.length_cons]
        omega
      | false =>
        rw [attempt_raised ha hr]
        exact ⟨[], rfl, Nat.zero_le _, rfl, by simp, Or.inr ⟨e, ha, Or.inr ⟨hr, rfl⟩⟩⟩

/-- The requests of a call with their answers: its failures, and behind them the answer that ended it. -/
theorem Asked.log {more n : Nat} {outcome : Except (GaveUp ε) α} {failures : List ε}
    (h : Asked retried answer more n outcome failures) :
    (List.range' n (failures.length+1)).map answer = failures.map .error++[answer (n+failures.length)] := by
  rw [List.range'_1_concat, List.map_append, h.failed]
  rfl

end Attempt

section Calls

variable {retried} {answer : Nat → β → Except ε α}

/-- The first call gives up, or it leaves the rest of the list to the next numbers. -/
theorem calls_cons {more n : Nat} {b : β} {failures : List ε}
    (hnext : (attempt retried (fun i => answer i b) more n).2 = n+failures.length+1) (items : List (Except ε β)) :
    calls retried more answer n (.ok b::items) =
      match (attempt retried (fun i => answer i b) more n).1 with
      | .error e => (.error e, (List.range' n (failures.length+1)).map (fun i => (b, answer i b)))
      | .ok a =>
        ((calls retried more answer (n+failures.length+1) items).1.map (a::·),
          (List.range' n (failures.length+1)).map (fun i => (b, answer i b))++
            (calls retried more answer (n+failures.length+1) items).2) := by
  have hcount : n+failures.length+1-n = failures.length+1 := by omega
  simp only [calls, hnext, hcount]

/-- The log of one call, with the argument beside every answer. -/
theorem log_of_asked {more n : Nat} {b : β} {outcome : Except (GaveUp ε) α} {failures : List ε}
    (h : Asked retried (fun i => answer i b) more n outcome failures) :
    (List.range' n (failures.length+1)).map (fun i => (b, answer i b)) =
      failures.map (fun e => (b, .error e))++[(b, answer (n+failures.length) b)] := by
  have hmap := congrArg (List.map (Prod.mk b)) h.log
  rw [List.map_append, List.map_map, List.map_map] at hmap
  exact hmap

/-- Whatever the answers are, a run is one of those the relation tells of. -/
theorem calls_served (more n : Nat) (items : List (Except ε β)) :
    Served retried more items (calls retried more answer n items).2 (calls retried more answer n items).1 := by
  induction items generalizing n with
  | nil => exact Served.done
  | cons item items ih =>
    cases item with
    | error e => exact Served.unread e items
    | ok b =>
      obtain ⟨failures, hnext, hasked⟩ := attempt_asked retried (fun i => answer i b) more n
      rw [calls_cons hnext, log_of_asked hasked]
      rcases hasked.ended with ⟨a, ha, hout⟩ | ⟨e, he, ⟨hr, hlen, hout⟩ | ⟨hr, hout⟩⟩
      · simp only [hout, ha]
        exact Served.next b items failures a _ _ hasked.few hasked.again (ih _)
      · simp only [hout, he]
        have hall : ∀ e' ∈ failures++[e], retried e' = true := by
          intro e' he'
          rcases List.mem_append.mp he' with hmem | hmem
          · exact hasked.again e' hmem
          · rw [List.mem_singleton.mp hmem]
            exact hr
        simpa only [List.map_append, List.map_cons, List.map_nil] using
          Served.exhausted b items failures e hlen hall
      · simp only [hout, he]
        simpa only [List.map_append, List.map_cons, List.map_nil] using
          Served.refused b items failures e hasked.few hasked.again hr

/-- The answers in the log are those to the requests with the numbers from `n` on. -/
theorem calls_answers (more n : Nat) (items : List (Except ε β)) :
    ∀ i entry, (calls retried more answer n items).2[i]? = some entry → entry.2 = answer (n+i) entry.1 := by
  induction items generalizing n with
  | nil =>
    intro i entry h
    cases h
  | cons item items ih =>
    cases item with
    | error e =>
      intro i entry h
      cases h
    | ok b =>
      intro i entry h
      obtain ⟨failures, hnext, -⟩ := attempt_asked retried (fun i => answer i b) more n
      have hown (hi : i < failures.length+1)
          (hentry : ((List.range' n (failures.length+1)).map (fun i => (b, answer i b)))[i]? = some entry) :
          entry.2 = answer (n+i) entry.1 := by
        rw [List.getElem?_map, List.getElem?_range' hi, Option.map_some, one_mul] at hentry
        cases hentry
        rfl
      rw [calls_cons hnext] at h
      cases hcall : (attempt retried (fun i => answer i b) more n).1 with
      | error e =>
        simp only [hcall] at h
        have hi : i < failures.length+1 := by simpa using (List.getElem?_eq_some_iff.mp h).1
        exact hown hi h
      | ok a =>
        simp only [hcall] at h
        rcases Nat.lt_or_ge i (failures.length+1) with hi | hi
        · rw [List.getElem?_append_left (by simpa using hi)] at h
          exact hown hi h
        · rw [List.getElem?_append_right (by simpa using hi)] at h
          have hrest := ih _ _ entry h
          rw [hrest]
          congr 1
          simp only [List.length_map, List.length_range']
          omega

/-- A run of a list that returns goes on with what is behind the list. -/
theorem calls_append {more n : Nat} {items : List (Except ε β)} {as : List α}
    (h : (calls retried more answer n items).1 = .ok as) (rest : List (Except ε β)) :
    calls retried more answer n (items++rest) =
      ((calls retried more answer (n+(calls retried more answer n items).2.length) rest).1.map (as++·),
        (calls retried more answer n items).2++
          (calls retried more answer (n+(calls retried more answer n items).2.length) rest).2) := by
  induction items generalizing n as with
  | nil =>
    cases h
    have hid (outcome : Except (GaveUp ε) (List α)) : outcome.map ([]++·) = outcome := by cases outcome <;> rfl
    rw [hid]
    rfl
  | cons item items ih =>
    cases item with
    | error e => cases h
    | ok b =>
      obtain ⟨failures, hnext, -⟩ := attempt_asked retried (fun i => answer i b) more n
      rw [List.cons_append, calls_cons hnext, calls_cons hnext]
      rw [calls_cons hnext] at h
      cases hcall : (attempt retried (fun i => answer i b) more n).1 with
      | error e =>
        simp only [hcall] at h
        cases h
      | ok a =>
        simp only [hcall] at h ⊢
        cases hitems : (calls retried more answer (n+failures.length+1) items).1 with
        | error e =>
          rw [hitems] at h
          cases h
        | ok as' =>
          rw [hitems] at h
          cases h
          rw [ih hitems]
          have hlength : n+((List.range' n (failures.length+1)).map (fun i => (b, answer i b))++
              (calls retried more answer (n+failures.length+1) items).2).length =
              n+failures.length+1+(calls retried more answer (n+failures.length+1) items).2.length := by
            simp only [List.length_append, List.length_map, List.length_range']
            omega
          rw [hlength]
          refine Prod.ext ?_ ?_
          · cases (calls retried more answer (n+failures.length+1+
              (calls retried more answer (n+failures.length+1) items).2.length) rest).1 <;> rfl
          · rw [List.append_assoc]

/-- The outcome of a list goes by its first call. -/
theorem calls_outcome {more n next : Nat} {b : β} {outcome : Except (GaveUp ε) α}
    (h : attempt retried (fun i => answer i b) more n = (outcome, next)) (items : List (Except ε β)) :
    (calls retried more answer n (.ok b::items)).1 =
      outcome >>= fun a => (calls retried more answer next items).1.map (a::·) := by
  simp only [calls, h]
  cases outcome <;> rfl

/-- One more call behind a list that returns. -/
theorem calls_concat {more n next : Nat} {items : List (Except ε β)} {as : List α} {b : β} {a : α}
    (h : (calls retried more answer n items).1 = .ok as)
    (hb : attempt retried (fun i => answer i b) more (n+(calls retried more answer n items).2.length) = (.ok a, next)) :
    (calls retried more answer n (items++[.ok b])).1 = .ok (as++[a]) ∧
      n+(calls retried more answer n (items++[.ok b])).2.length = next := by
  rw [calls_append h]
  constructor
  · rw [calls_outcome hb]
    rfl
  · obtain ⟨failures, hnext, -⟩ := attempt_asked retried (fun i => answer i b) more
      (n+(calls retried more answer n items).2.length)
    rw [calls_cons hnext, hb]
    rw [hb] at hnext
    have hnext : next = n+(calls retried more answer n items).2.length+failures.length+1 := hnext
    simp only [calls, List.append_nil, List.length_append, List.length_map, List.length_range']
    omega

/-- A run that does not return has stopped at an item behind a list whose run returned: its argument cannot be computed,
an exception came that is not retried, or there were as many failures as there are attempts. -/
theorem calls_gave_up {more n : Nat} {items : List (Except ε β)} {gave : GaveUp ε}
    (h : (calls retried more answer n items).1 = .error gave) :
    ∃ i as, (calls retried more answer n (items.take i)).1 = .ok as ∧ as.length = i ∧
      ((∃ e, items[i]? = some (.error e) ∧ gave = .raised e ∧
        (calls retried more answer n items).2 = (calls retried more answer n (items.take i)).2) ∨
      ∃ b failures e, items[i]? = some (.ok b) ∧
        (calls retried more answer n items).2 =
          (calls retried more answer n (items.take i)).2++(failures++[e]).map (fun e => (b, .error e)) ∧
        (retried e = true ∧ failures.length = more ∧ gave = .exhausted e ∨
          retried e = false ∧ failures.length ≤ more ∧ gave = .raised e)) := by
  induction items generalizing n with
  | nil => cases h
  | cons item items ih =>
    cases item with
    | error e =>
      cases h
      exact ⟨0, [], rfl, rfl, Or.inl ⟨e, rfl, rfl, rfl⟩⟩
    | ok b =>
      obtain ⟨failures, hnext, hasked⟩ := attempt_asked retried (fun i => answer i b) more n
      have hlog := log_of_asked hasked
      rw [calls_cons hnext] at h ⊢
      rcases hasked.ended with ⟨a, ha, hout⟩ | ⟨e, he, hend⟩
      · -- the first call returns: the run stops in the rest
        simp only [hout] at h ⊢
        have hgave : (calls retried more answer (n+failures.length+1) items).1 = .error gave := by
          cases hrest : (calls retried more answer (n+failures.length+1) items).1 with
          | ok as =>
            rw [hrest] at h
            cases h
          | error gave' =>
            rw [hrest] at h
            cases h
            rfl
        obtain ⟨i, as, has, hlength, hstop⟩ := ih hgave
        refine ⟨i+1, a::as, ?_, by rw [List.length_cons, hlength], ?_⟩
        · rw [List.take_succ_cons, calls_cons hnext]
          simp only [hout, has]
          rfl
        · rw [List.take_succ_cons, calls_cons hnext]
          simp only [hout, List.getElem?_cons_succ, List.append_assoc, List.append_cancel_left_eq]
          exact hstop
      · -- the first call gives up
        have hfailed : (List.range' n (failures.length+1)).map (fun i => (b, answer i b)) =
            (failures++[e]).map (fun e => (b, .error e)) := by
          rw [hlog, he, List.map_append]
          rfl
        rcases hend with ⟨hr, hlen, hout⟩ | ⟨hr, hout⟩
        · simp only [hout] at h ⊢
          cases h
          exact ⟨0, [], rfl, rfl, Or.inr ⟨b, failures, e, rfl, hfailed, Or.inl ⟨hr, hlen, rfl⟩⟩⟩
        · simp only [hout] at h ⊢
          cases h
          exact ⟨0, [], rfl, rfl, Or.inr ⟨b, failures, e, rfl, hfailed, Or.inr ⟨hr, hasked.few, rfl⟩⟩⟩

end Calls

section Served

variable {retried} {more : Nat} {items : List (Except ε β)} {log : List (β × Except ε α)}
  {outcome : Except (GaveUp ε) (List α)}

/-- The answers that returned something. -/
def returned (log : List (β × Except ε α)) : List α := log.filterMap (fun entry => entry.2.toOption)

theorem returned_append (log more_log : List (β × Except ε α)) : returned (log++more_log) = returned log++returned more_log :=
  List.filterMap_append

theorem returned_failures (b : β) (failures : List ε) :
    returned (failures.map (fun e => (b, (.error e : Except ε α)))) = [] := by
  rw [returned, List.filterMap_map]
  exact List.filterMap_eq_nil_iff.mpr (fun _ _ => rfl)

theorem returned_succeeding (b : β) (failures : List ε) (a : α) : returned (succeeding b failures a) = [a] := by
  rw [succeeding, returned_append, returned_failures]
  rfl

/-- A run that returns has one returned answer for every item, in order. -/
theorem Served.returned_eq (h : Served retried more items log outcome) {as : List α} (hok : outcome = .ok as) :
    returned log = as ∧ as.length = items.length := by
  induction h generalizing as with
  | done =>
    cases hok
    exact ⟨rfl, rfl⟩
  | unread | exhausted | refused => cases hok
  | next b items failures a log outcome _ _ _ ih =>
    cases outcome with
    | error e => cases hok
    | ok rest =>
      cases hok
      obtain ⟨hreturned, hlength⟩ := ih rfl
      rw [returned_append, returned_succeeding, hreturned, List.length_cons, List.length_cons, hlength]
      exact ⟨rfl, rfl⟩

/-- The requests are those of a beginning of the list, each as often as there are attempts at most. -/
theorem Served.requests (h : Served retried more items log outcome) :
    ∃ counts : List (β × Nat), log.map Prod.fst = counts.flatMap (fun p => List.replicate p.2 p.1) ∧
      counts.map (fun p => .ok p.1) <+: items ∧ ∀ p ∈ counts, 1 ≤ p.2 ∧ p.2 ≤ more+1 := by
  have hfirst (b : β) (failures : List ε) :
      (failures.map (fun e => (b, (.error e : Except ε α)))).map Prod.fst = List.replicate failures.length b := by
    rw [List.map_map]
    exact List.map_const'
  induction h with
  | done => exact ⟨[], rfl, List.nil_prefix, by simp⟩
  | unread => exact ⟨[], rfl, List.nil_prefix, by simp⟩
  | exhausted b items failures e hmore =>
    refine ⟨[(b, failures.length+1)], ?_, by simp, by simp [hmore]⟩
    rw [hfirst, List.length_append]
    simp
  | refused b items failures e hmore =>
    refine ⟨[(b, failures.length+1)], ?_, by simp, by simp [hmore]⟩
    rw [hfirst, List.length_append]
    simp
  | next b items failures a log outcome hmore _ _ ih =>
    obtain ⟨counts, hcounts, hprefix, hbounds⟩ := ih
    refine ⟨(b, failures.length+1)::counts, ?_, ?_, ?_⟩
    · rw [succeeding, List.map_append, List.map_append, hfirst, hcounts, List.flatMap_cons, List.replicate_succ']
      rfl
    · exact List.cons_prefix_cons.mpr ⟨rfl, hprefix⟩
    · exact List.forall_mem_cons.mpr ⟨⟨Nat.succ_pos _, Nat.succ_le_succ hmore⟩, hbounds⟩

/-- A call that is never answered stops the run: what is behind it is not asked for. -/
theorem Served.stopped (h : Served retried more items log outcome) {before rest : List (Except ε β)}
    {item : Except ε β} (hitems : items = before++item::rest) (hitem : ∀ b a, item = .ok b → (b, .ok a) ∉ log) :
    (∀ as, outcome ≠ .ok as) ∧ ∀ entry ∈ log, .ok entry.1 ∈ before ∨ .ok entry.1 = item := by
  have hhead {b : β} {items before : List (Except ε β)} (hitems : .ok b::items = before++item::rest) :
      .ok b ∈ before ∨ .ok b = item := by
    cases before with
    | nil => exact Or.inr (List.cons.inj hitems).1
    | cons first before => exact Or.inl (by rw [(List.cons.inj hitems).1]; exact List.mem_cons_self)
  induction h generalizing before with
  | done => simp at hitems
  | unread e items => exact ⟨fun as h => (nomatch h), fun entry h => (nomatch h)⟩
  | exhausted b items failures e =>
    refine ⟨fun as h => (nomatch h), ?_⟩
    intro entry hentry
    obtain ⟨e', -, rfl⟩ := List.mem_map.mp hentry
    exact hhead hitems
  | refused b items failures e =>
    refine ⟨fun as h => (nomatch h), ?_⟩
    intro entry hentry
    obtain ⟨e', -, rfl⟩ := List.mem_map.mp hentry
    exact hhead hitems
  | next b items failures a log outcome _ _ _ ih =>
    cases before with
    | nil =>
      have hfirst : item = .ok b := (List.cons.inj hitems).1.symm
      exact absurd (by simp [succeeding]) (hitem b a hfirst)
    | cons first before =>
      obtain ⟨rfl, hrest⟩ := List.cons.inj hitems
      obtain ⟨hout, hlog⟩ := ih hrest (fun b' a' hb' hmem => hitem b' a' hb' (List.mem_append_right _ hmem))
      constructor
      · intro as has
        cases outcome with
        | error gave => cases has
        | ok as' => exact hout as' rfl
      · intro entry hentry
        rcases List.mem_append.mp hentry with hown | hlater
        · refine Or.inl ?_
          rcases List.mem_append.mp hown with hfailed | hlast
          · obtain ⟨e, -, rfl⟩ := List.mem_map.mp hfailed
            exact List.mem_cons_self
          · rw [List.mem_singleton.mp hlast]
            exact List.mem_cons_self
        · rcases hlog entry hlater with hmem | hsame
          · exact Or.inl (List.mem_cons_of_mem _ hmem)
          · exact Or.inr hsame

end Served

end Noxipher.Retrying
