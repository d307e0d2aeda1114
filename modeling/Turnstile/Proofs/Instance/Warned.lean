-- What the warnings about a table say of every run of its instances: where no instance ever gets
-- to, where it never leaves, that it never ends, and which events it refuses.
import Turnstile.Proofs.Instance.Halted
import Turnstile.Proofs.Supervisor.Contained
import Turnstile.Proofs.Table.Follow
import Turnstile.Proofs.Table.Warnings

namespace Turnstile.Instance

variable {i : Instance}

/-! ## Where nothing leads on -/

/-- Nothing is accepted any more in a state that no edge leaves. -/
theorem after_stuck (h : ∀ x ∈ i.machine.table.transitions, x.source ≠ i.runState.current)
    (moves : List Move) : (i.after moves).runState = i.runState := by
  induction moves generalizing i with
  | nil => rfl
  | cons m moves ih =>
    have hmove := i.move_becomes m
    have hnone : i.accepted? m = none := by
      cases haccepted : i.accepted? m with
      | none => rfl
      | some x =>
        obtain ⟨edge, hedge, hsource, -⟩ := Table.allowed_iff.1 (accepted?_leads haccepted)
        exact absurd hsource (h edge hedge)
    rw [hnone] at hmove
    have hrunState : (i.move m).runState = i.runState := hmove.runState
    show ((i.move m).after moves).runState = i.runState
    rw [ih (by rwa [hmove.machine, hrunState]), hrunState]

/-! ## Refused requests -/

/-- The answer of the transition hook to a request, by what it was told before. -/
def hookAnswer (i : Instance) (event payload : Value) (past : HookPast) : Except Fault Outcome :=
  (i.machine.hooks.onTransition.react past (i.transitionCall event payload)).result

/-- The moves up to the answer of the transition hook: the request is taken, others arrive, the
hook answers. -/
def answeredRequest (i : Instance) (event payload : Value) (past : HookPast)
    (asking : List Move) : List Move :=
  .stimulus .receive :: (asking ++ [.stimulus (.decided (i.hookAnswer event payload past))])

/-- The request that comes next is refused, whatever the hooks were told before and whatever arrives
in the meantime. -/
structure Refuses (i : Instance) (event payload reason : Value) : Prop where
  /-- The transition hook is asked and fails, the failure hook is called with the run state that
  the instance keeps, and the instance goes on. -/
  rejected : ∀ past asking, (∀ m ∈ asking, m.Outside) →
    let moves := i.answeredRequest event payload past asking
    (i.after moves).phase =
        .reporting event payload (.refused event (.text i.runState.current) reason) ∧
      (i.after moves).runState = i.runState ∧ (i.after moves).alive = i.alive ∧
      i.callsDuring moves =
        [.transition (i.transitionCall event payload), .failure ⟨event, payload, i.runState⟩]
  /-- However the failure hook ends, the run state stays; the rejection is published unless the
  hook takes the instance down. -/
  told : ∀ past asking reporting, (∀ m ∈ asking, m.Outside) → (∀ m ∈ reporting, m.Outside) →
    ∀ result,
    let j := i.after (i.answeredRequest event payload past asking ++ reporting)
    (j.step (.handled result)).1.runState = i.runState ∧
      ((∀ fault, result = .error fault → fault.Ordinary) →
        (j.step (.handled result)).1.phase = .publishing ∧
        (j.step (.handled result)).1.alive = i.alive ∧
        .publish (.rejected i.name event i.runState.current
          (.refused event (.text i.runState.current) reason)) ∈ (j.step (.handled result)).2)

section
variable {event payload reason : Value}

theorem step_refused (i : Instance) (event payload reason : Value) :
    ((i.standing (.deciding event payload)).step (.decided (.ok (.failure reason)))).1 =
        i.standing (.reporting event payload (.refused event (.text i.runState.current) reason)) ∧
      calls ((i.standing (.deciding event payload)).step (.decided (.ok (.failure reason)))).2 =
        [.failure ⟨event, payload, i.runState⟩] := ⟨rfl, rfl⟩

theorem refuses_of_failure {rest : List Request} (hidle : i.phase = .idle)
    (hmailbox : i.mailbox = .transition event payload :: rest)
    (hanswer : ∀ past, i.hookAnswer event payload past = .ok (.failure reason)) :
    i.Refuses event payload reason := by
  have hoffered : ∀ past asking, (∀ m ∈ asking, m.Outside) →
      i.after (i.answeredRequest event payload past asking) =
          (({ i with mailbox := rest } : Instance).after asking).standing
            (.reporting event payload (.refused event (.text i.runState.current) reason)) ∧
        i.callsDuring (i.answeredRequest event payload past asking) =
          [.transition (i.transitionCall event payload), .failure ⟨event, payload, i.runState⟩] := by
    intro past asking hasking
    have htaken := step_taken hidle hmailbox
    have hkept := after_outside hasking ({ i with mailbox := rest } : Instance)
    have hquiet := (after_outside hasking
      (({ i with mailbox := rest } : Instance).standing (.deciding event payload))).2.2.2
    unfold answeredRequest
    rw [← List.singleton_append, hanswer]
    simp only [after_append, callsDuring_append, after_one, callsDuring_one, htaken,
      after_standing hasking, hquiet, step_refused, hkept.1, true_and]
    rfl
  constructor
  · intro past asking hasking
    obtain ⟨hafter, hcalls⟩ := hoffered past asking hasking
    obtain ⟨hrunState, halive, -, -⟩ :=
      after_outside hasking ({ i with mailbox := rest } : Instance)
    simp only
    rw [hafter]
    exact ⟨rfl, hrunState, halive, hcalls⟩
  · intro past asking reporting hasking hreporting result
    obtain ⟨hafter, -⟩ := hoffered past asking hasking
    simp only
    rw [after_append, hafter, after_standing hreporting, ← after_append]
    obtain ⟨hrunState, halive, -, -⟩ := after_outside
      (List.forall_mem_append.2 ⟨hasking, hreporting⟩) ({ i with mailbox := rest } : Instance)
    have hname := after_name ({ i with mailbox := rest } : Instance) (asking ++ reporting)
    generalize ({ i with mailbox := rest } : Instance).after (asking ++ reporting) = j at *
    constructor
    · exact ((j.standing _).step_becomes _).runState.trans hrunState
    · intro hspared
      rw [(j.step_reported event payload _ hspared).1]
      refine ⟨rfl, halive, ?_⟩
      have hcurrent : j.runState.current = i.runState.current := congrArg _ hrunState
      have hpublished : .publish (.rejected j.name event j.runState.current
          (.refused event (.text i.runState.current) reason)) ∈
          ((j.standing (.reporting event payload
            (.refused event (.text i.runState.current) reason))).step (.handled result)).2 := by
        unfold step report standing
        cases result with
        | ok _ => simp
        | error fault => simp [escapes_ordinary (hspared fault rfl)]
      rwa [hcurrent, show j.name = i.name from hname] at hpublished

end

/-! ## The law -/

/-- The warnings about a table come true in every run of every machine on it, whatever its hooks
answer: an instance is never in a state that is listed as unreachable; in one that is listed as a
dead end it stays, and does not end there; where it is reported that nothing ends it never does; and
an event that is reported as ambiguous is refused by the table's own hook. -/
theorem warnings_come_true (machine : Machine) (name payload : Value) (moves : List Move) :
    let x := machine.table.explain
    let i := (create machine name payload).after moves
    (∀ s, x.ListsUnreachable s → i.runState.current ≠ s) ∧
    (x.ListsDeadEnd i.runState.current → ∀ more,
      (i.after more).runState = i.runState ∧ (i.after more).stopReason ≠ some .terminal) ∧
    (x.ReportsEndless → i.stopReason ≠ some .terminal) ∧
    (machine.hooks.onTransition = .followTable machine.table →
      ∀ e eventPayload rest, x.ReportsAmbiguous i.runState.current e → i.phase = .idle →
        i.mailbox = .transition (.text e) eventPayload :: rest →
        i.Refuses (.text e) eventPayload
          (machine.table.severalTargets i.runState.current e)) := by
  intro x i
  have hmachine : i.machine = machine := after_machine _ moves
  refine ⟨?_, ?_, ?_, ?_⟩
  · intro s hlisted hcurrent
    have hfollows := follows_after (i := create machine name payload)
      (RunState.follows_initial machine.table payload) moves
    have hreached : i.runState.current ∈ i.machine.table.reachable :=
      hfollows.reached i.runState.current (List.mem_append_right _ (List.mem_singleton_self _))
    rw [hmachine, hcurrent] at hreached
    exact (Table.lists_unreachable_iff.1 hlisted).2 hreached
  · intro hlisted more
    have hnone := (Table.lists_deadEnd_iff.1 hlisted).2
    have hkept : (i.after more).runState = i.runState := after_stuck (by rwa [hmachine]) more
    refine ⟨hkept, ?_⟩
    intro hterminal
    have hjoin : (create machine name payload).after (moves ++ more) = i.after more :=
      after_append _ moves more
    rw [← hjoin] at hterminal
    have hallowed := allowed_of_terminal hterminal
    rw [hjoin, hkept] at hallowed
    obtain ⟨edge, hedge, hsource, -⟩ := Table.allowed_iff.1 hallowed
    exact hnone edge hedge hsource
  · intro hreported hterminal
    exact Table.reports_endless_iff.1 hreported _ (allowed_of_terminal hterminal)
  · intro hhook e eventPayload rest hreported hidle hmailbox
    have hseveral := Table.reports_ambiguous_iff.1 hreported
    refine refuses_of_failure hidle hmailbox fun past => ?_
    show (i.machine.hooks.onTransition.react past _).result = _
    rw [hmachine, hhook]
    exact Table.follow_several (Table.only?_of_several hseveral) _

/-- A diagram with all four kinds of warnings. Its instance refuses the event with two targets, and
stays where a hook of its own once takes it. -/
theorem a_warned_instance_is_stuck :
    let t : Table := ⟨"a", [⟨"a", "go", .state "b"⟩, ⟨"a", "go", .state "c"⟩,
      ⟨"d", "back", .state "a"⟩], ["enter"]⟩
    let i := (create (.ofTable "m" t {}) (.text "x") .null).after
      [.stimulus .start, .stimulus (.published (.ok ())), .post (.transition (.text "go") .null)]
    let j := i.after [.stimulus .receive,
      .stimulus (.decided (.ok (.success (.text "b") .null))), .stimulus (.published (.ok ()))]
    t.explain.ListsUnreachable "d" ∧ i.runState.current ≠ "d" ∧
      t.explain.ReportsAmbiguous "a" "go" ∧
      i.Refuses (.text "go") .null (t.severalTargets "a" "go") ∧
      t.explain.ListsDeadEnd "b" ∧ j.runState.current = "b" ∧
      (∀ more, (j.after more).runState = j.runState) ∧
      t.explain.ReportsEndless ∧ j.stopReason ≠ some .terminal := by
  intro t i j
  have hunreachable : t.explain.ListsUnreachable "d" := by
    refine Table.lists_unreachable_iff.2 ⟨by decide, fun hreached => ?_⟩
    rcases Relation.ReflTransGen.cases_tail (Table.mem_reachable_iff.1 hreached) with
      hinitial | ⟨u, -, hlead⟩
    · exact absurd hinitial (by decide)
    · simp [t, Table.Leads, Table.allowed] at hlead
  have hdeadEnd : t.explain.ListsDeadEnd "b" := Table.lists_deadEnd_iff.2 (by decide)
  have hambiguous : t.explain.ReportsAmbiguous "a" "go" :=
    Table.reports_ambiguous_iff.2 ⟨.state "b", by decide, .state "c", by decide, by decide⟩
  have hendless : t.explain.ReportsEndless := Table.reports_endless_iff.2 (by simp [t, Table.allowed])
  obtain ⟨hnever, -, -, hrefuses⟩ := warnings_come_true (.ofTable "m" t {}) (.text "x") .null
    [.stimulus .start, .stimulus (.published (.ok ())), .post (.transition (.text "go") .null)]
  obtain ⟨-, hstays, hruns, -⟩ := warnings_come_true (.ofTable "m" t {}) (.text "x") .null
    [.stimulus .start, .stimulus (.published (.ok ())), .post (.transition (.text "go") .null),
      .stimulus .receive, .stimulus (.decided (.ok (.success (.text "b") .null))),
      .stimulus (.published (.ok ()))]
  exact ⟨hunreachable, hnever "d" hunreachable, hambiguous,
    hrefuses rfl "go" .null [] hambiguous rfl rfl, hdeadEnd, rfl,
    fun more => (hstays hdeadEnd more).1, hendless, hruns hendless⟩

end Turnstile.Instance
