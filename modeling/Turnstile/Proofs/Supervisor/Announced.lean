-- What the tasks of a run publish: the log of each task replays the run of its instance, and the
-- end is announced once if the start was, unless the terminate hook is cut short by a cancellation.
-- Then it is not announced at all.
import Turnstile.Proofs.Instance.Chronicle
import Turnstile.Proofs.Supervisor.Given

namespace Turnstile

namespace Instance

variable {i : Instance} {log : List Notification}

/-- What arrivals and queries that are given up keep, all that comes from outside keeps. -/
theorem outside_keeps {P : Instance → Prop} (hpost : ∀ i r, P i → P (i.move (.post r)))
    (habandon : ∀ i call, P i → P (i.abandon call)) {moves : List Move}
    (hmoves : ∀ m ∈ moves, m.Outside) (hkept : P i) : P (i.after moves) := by
  induction moves generalizing i with
  | nil => exact hkept
  | cons m moves ih =>
    refine ih (fun m' hm' => hmoves m' (List.mem_cons_of_mem _ hm')) ?_
    cases m with
    | post r => exact hpost i r hkept
    | abandon call => exact habandon i call hkept
    | stimulus s => exact absurd (hmoves _ List.mem_cons_self) id

theorem Accounted.outside {moves : List Move} (hmoves : ∀ m ∈ moves, m.Outside)
    (h : i.Accounted) : (i.after moves).Accounted :=
  outside_keeps (fun _ r h => h.post r) (fun _ call h => h.abandon call) hmoves h

theorem Logged.outside {moves : List Move} (hmoves : ∀ m ∈ moves, m.Outside) (h : i.Logged log) :
    (i.after moves).Logged log :=
  outside_keeps (P := fun i => i.Logged log) (fun _ r h => h.post r)
    (fun _ call h => h.abandon call) hmoves h

/-- The log of an instance that has started and not told its end. -/
def Unclosed (i : Instance) (log : List Notification) : Prop :=
  Log i.name i.machine log i.runState.current i.runState.history

theorem Unclosed.outside {moves : List Move} (hmoves : ∀ m ∈ moves, m.Outside) :
    (i.after moves).Unclosed log ↔ i.Unclosed log := by
  unfold Unclosed
  rw [i.after_name, i.after_machine, (after_outside hmoves i).1]

/-- While the terminate hook goes on, the end is still to be told. -/
theorem Logged.unclosed (h : i.Logged log) {ending : Ending}
    (hphase : i.phase = .terminating ending) : i.Unclosed log := by
  cases h with
  | silent hphase' =>
    rcases hphase' with hphase' | ⟨other, hphase'⟩ <;> cases hphase.symm.trans hphase'
  | going hbegun hopen hlog => exact hlog
  | closed hphase' =>
    rcases hphase' with ⟨other, hphase'⟩ | ⟨other, hphase'⟩ <;> cases hphase.symm.trans hphase'

/-- While the end is announced, it has been told. -/
theorem Logged.told_end (h : i.Logged log) {ending : Ending}
    (hphase : i.phase = .announcing ending) : log.countP Notification.isTerminated ≠ 0 := by
  cases h with
  | silent hphase' =>
    rcases hphase' with hphase' | ⟨other, hphase'⟩ <;> cases hphase.symm.trans hphase'
  | going hbegun hopen => exact absurd hphase (hopen ending)
  | closed hphase' hbefore hclosed => simp [hclosed, Notification.isTerminated]

/-- A body that ends before its first step tells nothing. -/
theorem not_unclosed_of_fresh (h : i.Logged log) (hphase : i.phase = .fresh) {s : Stimulus}
    {ending : Ending} (hfinished : (i.step s).1.phase = .finished ending) :
    ¬ (i.step s).1.Unclosed (log ++ publications (i.step s).2) := by
  cases h with
  | silent hphase' hcurrent hhistory hempty =>
    cases s with
    | cancel =>
      intro hlog
      simp only [step, hphase, hempty] at hlog
      obtain ⟨n, hn, -⟩ := Log.started_mem hlog
      cases hn
    | _ => simp [step, hphase, begin] at hfinished
  | going hbegun => exact absurd hphase hbegun
  | closed hphase' =>
    rcases hphase' with ⟨other, hphase'⟩ | ⟨other, hphase'⟩ <;> cases hphase.symm.trans hphase'

/-- Only one step ends a body without a word though its start was told: a cancellation where it
waits for the terminate hook. -/
theorem ends_unclosed_iff (h : i.Logged log)
    (hgoing : ∀ ending, i.phase ≠ .finished ending) (s : Stimulus) :
    ((∃ ending, (i.step s).1.phase = .finished ending) ∧
        (i.step s).1.Unclosed (log ++ publications (i.step s).2)) ↔
      ∃ ending fault, i.phase = .terminating ending ∧ s = .handled (.error fault) ∧
        fault.isCancellation = true := by
  constructor
  · rintro ⟨⟨ending, hfinished⟩, hlog⟩
    rcases finished_of_step hgoing hfinished with hphase | ⟨other, hphase⟩ | hcut
    · exact absurd hlog (not_unclosed_of_fresh h hphase hfinished)
    · have hnone := hlog.not_terminated
      rw [List.countP_append] at hnone
      exact absurd (Nat.eq_zero_of_add_eq_zero_right hnone) (h.told_end hphase)
    · exact hcut
  · rintro ⟨ending, fault, hphase, rfl, hcancellation⟩
    have hstep : i.step (.handled (.error fault)) =
        ({ i with phase := .finished .cancelled }, []) := by
      simp [step, hphase, terminate, hcancellation]
    rw [hstep]
    exact ⟨⟨_, rfl⟩, (List.append_nil log).symm ▸ h.unclosed hphase⟩

end Instance

namespace Host

variable {h h₀ : Host} {t : Nat} {task : Task}

/-- A deed cuts the terminate hook of a task short: what its body gets for an answer is a
cancellation. -/
def CutsShort (h : Host) (t : Nat) (d : Deed) : Prop :=
  ∃ task ending fault, h.task? t = some task ∧ task.inst.phase = .terminating ending ∧
    h.given t d = some (.handled (.error fault)) ∧ fault.isCancellation = true

/-- Some deed of a run cuts the terminate hook of a task short. -/
def CutShort (h : Host) (t : Nat) (deeds : List Deed) : Prop :=
  ∃ before d behind, deeds = before ++ d :: behind ∧ (h.after before).CutsShort t d

theorem cutShort_snoc (h : Host) (t : Nat) (deeds : List Deed) (d : Deed) :
    h.CutShort t (deeds ++ [d]) ↔ h.CutShort t deeds ∨ (h.after deeds).CutsShort t d := by
  constructor
  · rintro ⟨before, e, behind, heq, hcuts⟩
    rcases last_or heq with ⟨rfl, rfl⟩ | ⟨behind', rfl⟩
    · exact .inr hcuts
    · exact .inl ⟨before, e, behind', rfl, hcuts⟩
  · rintro (⟨before, e, behind, rfl, hcuts⟩ | hcuts)
    · exact ⟨before, e, behind ++ [d], by simp, hcuts⟩
    · exact ⟨deeds, d, [], rfl, hcuts⟩

/-- Only a task that is there has its hook cut short. -/
theorem CutShort.there {deeds : List Deed} (hcut : h.CutShort t deeds) :
    (h.after deeds).task? t ≠ none := by
  obtain ⟨before, d, behind, rfl, task, ending, fault, ht, -⟩ := hcut
  rw [after_append]
  intro hnone
  have hkept : ∀ (deeds : List Deed) (g : Host), (g.after deeds).task? t = none →
      g.task? t = none := by
    intro deeds
    induction deeds with
    | nil => exact fun g => id
    | cons d deeds ih => exact fun g hg => none_before (ih (g.act d) hg)
  cases (hkept _ _ hnone).symm.trans ht

/-- What is noted of the instance of a task at the end of a run, and what its task has told. -/
structure Recorded (h₀ : Host) (deeds : List Deed) (t : Nat) (task : Task) : Prop where
  accounted : task.inst.Accounted
  logged : task.outlet ≠ .nowhere → task.inst.Logged (h₀.told t deeds)
  cut : task.outlet ≠ .nowhere → ((∃ ending, task.inst.phase = .finished ending) ∧
    task.inst.Unclosed (h₀.told t deeds) ↔ h₀.CutShort t deeds)

theorem Recorded.stays {deeds : List Deed} {task' : Task} (h : Recorded h₀ deeds t task)
    (hstays : task.Stays task') : Recorded h₀ deeds t task' := by
  obtain ⟨⟨moves, houtside, hinst⟩, houtlet, -, -⟩ := hstays
  have hphase := (Instance.after_outside houtside task.inst).2.2.1
  refine ⟨hinst ▸ h.accounted.outside houtside, fun hbus => ?_, fun hbus => ?_⟩
  · rw [hinst]
    exact (h.logged (houtlet ▸ hbus)).outside houtside
  · rw [hinst, hphase, Instance.Unclosed.outside houtside]
    exact h.cut (houtlet ▸ hbus)

/-- Whether a deed cuts the hook of a task short is up to what the body is given in it. -/
theorem cutsShort_iff (ht : h.task? t = some task) {d : Deed} {s : Stimulus}
    (hgiven : h.given t d = some s) : h.CutsShort t d ↔ ∃ ending fault,
      task.inst.phase = .terminating ending ∧ s = .handled (.error fault) ∧
        fault.isCancellation = true := by
  constructor
  · rintro ⟨other, ending, fault, hother, hphase, hs, hcancellation⟩
    obtain rfl := Option.some.inj (ht.symm.trans hother)
    exact ⟨ending, fault, hphase, Option.some.inj (hgiven.symm.trans hs), hcancellation⟩
  · rintro ⟨ending, fault, hphase, rfl, hcancellation⟩
    exact ⟨task, ending, fault, ht, hphase, hgiven, hcancellation⟩

/-- A task whose body is given nothing tells nothing, and its hook is not cut short. -/
theorem Recorded.passed {deeds : List Deed} (h : Recorded h₀ deeds t task)
    (ht : (h₀.after deeds).task? t = some task) {d : Deed}
    (hgiven : (h₀.after deeds).given t d = none) : Recorded h₀ (deeds ++ [d]) t task := by
  have htells := tells_eq ht d
  rw [hgiven] at htells
  have hsame : h₀.told t (deeds ++ [d]) = h₀.told t deeds := by
    rw [told_snoc, htells]
    exact List.append_nil _
  have hcut : h₀.CutShort t (deeds ++ [d]) ↔ h₀.CutShort t deeds := by
    rw [cutShort_snoc, or_iff_left]
    rintro ⟨_, _, _, _, _, hnow, _⟩
    cases hgiven.symm.trans hnow
  refine ⟨h.accounted, fun hbus => hsame ▸ h.logged hbus, fun hbus => ?_⟩
  rw [hsame, hcut]
  exact h.cut hbus

/-- The body of a task takes its step, if it is given something. -/
theorem Recorded.moved {deeds : List Deed} (h : Recorded h₀ deeds t task)
    (ht : (h₀.after deeds).task? t = some task) (d : Deed) : Recorded h₀ (deeds ++ [d]) t
      { task with inst := (h₀.after deeds).moved t d task.inst } := by
  unfold Host.moved
  cases hgiven : (h₀.after deeds).given t d with
  | none => exact h.passed ht hgiven
  | some s =>
    have htells := tells_eq ht d
    rw [hgiven] at htells
    have hmore : task.outlet ≠ .nowhere →
        h₀.told t (deeds ++ [d]) = h₀.told t deeds ++ publications (task.inst.step s).2 := by
      intro hbus
      rw [told_snoc, htells, Option.elim_some, Task.utters, if_neg hbus]
    refine ⟨h.accounted.step s, fun hbus => ?_, fun hbus => ?_⟩
    · rw [hmore hbus]
      exact (h.logged hbus).step h.accounted s
    · rw [hmore hbus, cutShort_snoc, cutsShort_iff ht hgiven, ← h.cut hbus]
      by_cases hfinished : ∃ ending, task.inst.phase = .finished ending
      · obtain ⟨ending, hphase⟩ := hfinished
        simp only [Option.elim_some, Instance.step_finished hphase, publications,
          List.filterMap_nil, List.append_nil]
        simp [hphase]
      · have hgoing : ∀ ending, task.inst.phase ≠ .finished ending := by simpa using hfinished
        rw [Option.elim_some, Instance.ends_unclosed_iff (h.logged hbus) hgoing s]
        simp [hfinished]

/-- At every moment of every run. -/
theorem recorded_after (settings : Settings) (registry : Registry) (bus : Bus Observer)
    (deeds : List Deed) (ht : ((opened settings registry bus).after deeds).task? t = some task) :
    Recorded (opened settings registry bus) deeds t task := by
  refine holds_after settings registry bus
    (P := fun deeds => Recorded (opened settings registry bus) deeds t) ?_ ?_ ?_ deeds ht
  · rintro deeds d new hbefore ⟨⟨machine, name, payload, hinst⟩, -⟩
    have hcut : ¬ (opened settings registry bus).CutShort t (deeds ++ [d]) := by
      rw [cutShort_snoc]
      rintro (hcut | ⟨other, -, -, hother, -⟩)
      · exact hcut.there hbefore
      · cases hbefore.symm.trans hother
    refine ⟨hinst ▸ Instance.accounted_create machine name payload, fun _ => ?_, fun _ => ?_⟩
    · rw [told_of_new hbefore d, hinst]
      exact Instance.logged_create machine name payload
    · rw [hinst]
      refine iff_of_false ?_ hcut
      rintro ⟨⟨ending, hphase⟩, -⟩
      cases hphase
  · exact fun _ _ d ht hrecorded => hrecorded.moved ht d
  · exact fun _ _ _ hstays hrecorded => hrecorded.stays hstays

/-- Of a task that has ended and has told its start, either the end is told and its terminate hook
was not cut short, or the other way round. -/
theorem Recorded.closed {deeds : List Deed} (h : Recorded h₀ deeds t task)
    (hbus : task.outlet ≠ .nowhere) (hfinished : ∃ ending, task.inst.phase = .finished ending)
    (hstarted : ∃ n ∈ h₀.told t deeds, n.isStarted = true) :
    (h₀.CutShort t deeds ∧ (h₀.told t deeds).countP Notification.isTerminated = 0) ∨
      (¬ h₀.CutShort t deeds ∧ (h₀.told t deeds).countP Notification.isTerminated = 1) := by
  cases h.logged hbus with
  | silent hphase hcurrent hhistory hempty =>
    obtain ⟨n, hn, -⟩ := hstarted
    rw [hempty] at hn
    cases hn
  | going hbegun hopen hlog =>
    exact .inl ⟨(h.cut hbus).1 ⟨hfinished, hlog⟩, hlog.not_terminated⟩
  | closed hphase hlog hclosed hstopped =>
    have honce : (h₀.told t deeds).countP Notification.isTerminated = 1 := by
      rw [hclosed, List.countP_append, hlog.not_terminated]
      rfl
    refine .inr ⟨fun hcut => ?_, honce⟩
    have hnone := ((h.cut hbus).2 hcut).2.not_terminated
    omega

end Host

/-- In every run, whatever hooks and subscribers do and whoever stops or cancels what: the
notifications of a task that has a bus replay the run of its instance. -/
theorem the_log_replays_the_run (settings : Settings) (registry : Registry) (bus : Bus Observer)
    (deeds : List Deed) {t : Nat} {task : Task}
    (ht : ((Host.opened settings registry bus).after deeds).task? t = some task)
    (hbus : task.outlet ≠ .nowhere) :
    Chronicle task.inst ((Host.opened settings registry bus).told t deeds) :=
  ((Host.recorded_after settings registry bus deeds ht).logged hbus).chronicle

/-- An instance takes an edge, refuses an event and is stopped; all four notifications are there. -/
theorem the_log_of_an_edge_and_a_stop :
    let machine := Machine.ofTable "t" ⟨"a", [⟨"a", "go", .state "b"⟩], []⟩ {}
    let h := Host.opened ⟨.whole 5, .transient, .whole 3, .whole 5⟩ [] {}
    let deeds := .start (.given machine) (.text "x") .null :: List.replicate 4 .step ++
      .send ⟨.text "x", .text "go", .null⟩ :: .send ⟨.text "x", .text "stray", .null⟩ ::
      .requestStop 0 :: List.replicate 18 .step
    ∃ task, (h.after deeds).task? 0 = some task ∧ task.outlet ≠ .nowhere ∧
      Chronicle task.inst (h.told 0 deeds) ∧ (h.told 0 deeds).map (·.topic) =
        ["fsm.started", "fsm.transitioned", "fsm.rejected", "fsm.terminated"] := by
  intro machine h deeds
  obtain ⟨task, ht⟩ := Option.isSome_iff_exists.1
    (show ((h.after deeds).task? 0).isSome = true by decide +kernel)
  have hshared : ((h.after deeds).task? 0).map (·.outlet) = some .shared := by decide +kernel
  rw [ht] at hshared
  have houtlet : task.outlet = .shared := Option.some.inj hshared
  have hbus : task.outlet ≠ .nowhere := by
    rw [houtlet]
    decide
  exact ⟨task, ht, hbus, the_log_replays_the_run _ [] {} deeds ht hbus, by decide +kernel⟩

/-- In every run, when the task of an instance that has told its start is over: its end has been
told once, if no cancellation came to where its terminate hook was waited for, and otherwise it has
not been told at all. -/
theorem the_end_is_told_unless_cut_short (settings : Settings) (registry : Registry)
    (bus : Bus Observer) (deeds : List Deed) {t : Nat} {task : Task}
    (ht : ((Host.opened settings registry bus).after deeds).task? t = some task)
    (hbus : task.outlet ≠ .nowhere) (hended : task.run = .ended)
    (hstarted : ∃ n ∈ (Host.opened settings registry bus).told t deeds, n.isStarted = true) :
    ((Host.opened settings registry bus).CutShort t deeds ∧
        ((Host.opened settings registry bus).told t deeds).countP Notification.isTerminated = 0) ∨
      (¬ (Host.opened settings registry bus).CutShort t deeds ∧
        ((Host.opened settings registry bus).told t deeds).countP Notification.isTerminated = 1) :=
  (Host.recorded_after settings registry bus deeds ht).closed hbus
    (Host.finished_of_ended (Host.over_after deeds) ht hended) hstarted

/-- Stopped, an instance is gone when its task is over, and its end has been told once. -/
theorem a_stopped_instance_tells_its_end :
    let machine := Machine.ofTable "t" ⟨"a", [⟨"a", "go", .state "b"⟩], []⟩ {}
    let h := Host.opened ⟨.whole 5, .transient, .whole 3, .whole 5⟩ [] {}
    let deeds := .start (.given machine) (.text "x") .null :: List.replicate 4 .step ++
      .stop (.text "x") none :: List.replicate 18 .step
    ∃ task, (h.after deeds).task? 0 = some task ∧ task.outlet ≠ .nowhere ∧ task.run = .ended ∧
      (∃ n ∈ h.told 0 deeds, n.isStarted = true) ∧ ¬ h.CutShort 0 deeds ∧
      (h.told 0 deeds).countP Notification.isTerminated = 1 := by
  intro machine h deeds
  obtain ⟨task, ht⟩ := Option.isSome_iff_exists.1
    (show ((h.after deeds).task? 0).isSome = true by decide +kernel)
  have hshown : ((h.after deeds).task? 0).map (fun task => (task.outlet, task.run)) =
      some (.shared, .ended) := by decide +kernel
  rw [ht] at hshown
  obtain ⟨houtlet, hended⟩ := Prod.mk.inj (Option.some.inj hshown)
  have hbus : task.outlet ≠ .nowhere := by
    rw [houtlet]
    decide
  have hany : (h.told 0 deeds).any (·.isStarted) = true := by decide +kernel
  have honce : (h.told 0 deeds).countP Notification.isTerminated = 1 := by decide +kernel
  have hstarted : ∃ n ∈ h.told 0 deeds, n.isStarted = true := by simpa using hany
  rcases the_end_is_told_unless_cut_short _ [] {} deeds ht hbus hended hstarted with hcut | hcut
  · cases honce.symm.trans hcut.2
  · exact ⟨task, ht, hbus, hended, hstarted, hcut⟩

/-- A terminate hook waits when the window of a stop closes. The stop cancels the task and returns;
the instance has told its start, and its end is never told. -/
theorem a_hook_cut_short_leaves_the_end_untold :
    let machine := Machine.ofTable "t" ⟨"a", [⟨"a", "go", .state "b"⟩], []⟩
      { onTerminate := some ⟨.rules, fun _ _ =>
          { pause := .seconds (.whole 10), result := .ok () }⟩ }
    let h := Host.opened ⟨.whole 5, .transient, .whole 3, .whole 5⟩ [] {}
    let deeds := .start (.given machine) (.text "x") .null :: List.replicate 6 .step ++
      .stop (.text "x") (some (.whole 1)) :: List.replicate 8 .step ++ .pass 1 ::
      List.replicate 12 .step
    ((h.after deeds).task? 0).map (fun task => (task.outlet, task.run)) = some (.shared, .ended) ∧
    (match (h.after deeds).result? 0 with
      | some (.ok .nothing) => true
      | _ => false) = true ∧
    (h.told 0 deeds).map (·.topic) = ["fsm.started"] ∧
    (h.told 0 deeds).countP Notification.isTerminated ≠ 1 := by
  intro machine h deeds
  exact ⟨by decide +kernel, by decide +kernel, by decide +kernel, by decide +kernel⟩

end Turnstile
