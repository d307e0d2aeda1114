-- Nothing that is waited for is forgotten: whoever is queued has its job in the queue, whoever waits
-- for some time has its timer, and whoever waits for the end of a task is told of it. One lemma for
-- each function of the host says that it keeps this.
import Turnstile.Proofs.Instance.Awaits
import Turnstile.Proofs.Supervisor.Desk
import Turnstile.Proofs.Supervisor.Guards
import Turnstile.Proofs.Supervisor.Rounds

namespace Turnstile

/-! ## What is waited for -/

/-- The body waits for a hook that never answers. -/
inductive Task.Lingers (task : Task) : Prop where
  | deciding {event payload : Value} (hphase : task.inst.phase = .deciding event payload)
    (past : HookPast) (call : TransitionCall)
    (hforever : (task.inst.machine.hooks.onTransition.react past call).pause = .forever) :
    Lingers task
  | reporting {event payload : Value} {rejection : Rejection}
    (hphase : task.inst.phase = .reporting event payload rejection) (past : HookPast)
    (call : FailureCall)
    (hforever : (task.inst.machine.hooks.onFailure.react past call).pause = .forever) : Lingers task
  | terminating {ending : Ending} (hphase : task.inst.phase = .terminating ending) (past : HookPast)
    (hforever :
      (task.inst.machine.hooks.onTerminate.react past task.inst.runState).pause = .forever) :
    Lingers task

/-- If the body waits for the transition hook, then that hook pauses. -/
def Instance.Held (i : Instance) : Prop :=
  ∀ event payload, i.phase = .deciding event payload →
    ∃ past call, (i.machine.hooks.onTransition.react past call).pause ≠ .none

theorem Instance.held_of_ne {i : Instance}
    (hphase : ∀ event payload, i.phase ≠ .deciding event payload) : i.Held :=
  fun event payload h => absurd h (hphase event payload)

/-- A body that waits has its answer, although it may be let know only later. -/
def Task.Answered (task : Task) : Prop :=
  task.inst.phase.IsFree ∨ ∃ s, task.answer = some s ∧ task.inst.phase.Awaits s

/-- A task that was cancelled: it is still to learn of it, or is on its way out. -/
def Task.Condemned (task : Task) : Prop := task.run = .queued true ∨ task.inst.phase.IsDoomed

/-- A task waits as its body does. -/
structure Task.Sane (task : Task) (running : Option Nat) (t : Nat) : Prop where
  active : task.run = .active → running = some t
  receiving : task.run = .receiving → task.inst.phase = .idle
  lingers : task.run = .paused none → task.Lingers
  held : task.run ≠ .active → task.inst.Held
  ended : task.run = .ended → task.watchers = []
  absent : task.run = .absent → task.supervised = false

/-- The jobs that a task waits for. -/
inductive Task.Needs (task : Task) (t : Nat) : Job → Prop where
  | resume {cancelled : Bool} (hrun : task.run = .queued cancelled) : Needs task t (.resume t)
  | wake {serial : Nat} (hrun : task.run = .paused (some serial)) : Needs task t (.wake t serial)

theorem Task.Needs.not_active {task : Task} {t : Nat} {j : Job} (h : task.Needs t j) :
    task.run ≠ .active := by
  cases h with
  | resume hrun => exact hrun ▸ nofun
  | wake hrun => exact hrun ▸ nofun

/-- The task that a call stops. -/
def Call.stopped? (call : Call) : Option Nat :=
  match call.stage with
  | .closing t _ | .window t _ | .forced t => some t
  | .reply .. | .exit _ | .join .. => none

/-- A call waits at a stage at which it may wait. -/
structure Call.Sane (call : Call) (h : Host) : Prop where
  closing : ∀ t timeout cancelled, call.stage = .closing t timeout → call.run ≠ .waiting cancelled
  forced : ∀ t, call.stage = .forced t → ∃ task, h.task? t = some task ∧ task.Condemned
  stopped : ∀ t, call.stopped? = some t → ∃ task, h.task? t = some task ∧ task.supervised = true
  guard : ∀ p, call.parent = some p → ∃ t, call.stopped? = some t
  children : ∀ children left, call.stage = .join children left → children ≠ []

/-- A call runs on at its stage, and does not wait. -/
theorem Call.Sane.rerun {call : Call} {h : Host} (h₀ : call.Sane h) {run : CallRun}
    (hrun : ∀ cancelled, run ≠ .waiting cancelled) : ({ call with run := run } : Call).Sane h :=
  ⟨fun _ _ cancelled _ => hrun cancelled, h₀.forced, h₀.stopped, h₀.guard, h₀.children⟩

/-- A call that stops no task, and that no shutdown made. -/
theorem Call.sane_alone {call : Call} {h : Host} (hparent : call.parent = none)
    (hstopped : call.stopped? = none)
    (hchildren : ∀ children left, call.stage = .join children left → children ≠ []) :
    call.Sane h where
  closing t timeout _ hstage := by simp [Call.stopped?, hstage] at hstopped
  forced t hstage := by simp [Call.stopped?, hstage] at hstopped
  stopped t ht := by cases hstopped.symm.trans ht
  guard p hp := by cases hparent.symm.trans hp
  children := hchildren

theorem Call.sane_window {parent : Option Nat} {t : Nat} {timeout : Number} {run : CallRun}
    {h : Host} (hsupervised : ∃ task, h.task? t = some task ∧ task.supervised = true) :
    Call.Sane ⟨parent, .window t timeout, run⟩ h where
  closing _ _ _ hstage := by cases hstage
  forced _ hstage := by cases hstage
  stopped _ hstopped := by
    obtain rfl := Option.some.inj hstopped
    exact hsupervised
  guard _ _ := ⟨t, rfl⟩
  children _ _ hstage := by cases hstage

theorem Call.sane_guard (p : Nat) (timeout : Number) {t : Nat} {h : Host}
    (hsupervised : ∃ task, h.task? t = some task ∧ task.supervised = true) :
    (Office.guard p timeout t).Sane h where
  closing _ _ _ _ hwaiting := by cases hwaiting
  forced _ hstage := by cases hstage
  stopped _ hstopped := by
    obtain rfl := Option.some.inj hstopped
    exact hsupervised
  guard _ _ := ⟨t, rfl⟩
  children _ _ hstage := by cases hstage

/-- The jobs that a call waits for. -/
inductive Call.Needs (call : Call) (h : Host) (c : Nat) : Job → Prop where
  | proceed {cancelled : Bool} (hrun : call.run = .queued cancelled) : Needs call h c (.proceed c)
  | close {t : Nat} {timeout : Number} {cancelled : Bool} (hstage : call.stage = .window t timeout)
    (hrun : call.run = .waiting cancelled) : Needs call h c (.close c)
  | taskEnded {t : Nat} {task : Task} {cancelled : Bool} (hstage : call.stage = .forced t)
    (hrun : call.run = .waiting cancelled) (ht : h.task? t = some task)
    (hmissing : c ∉ task.watchers) : Needs call h c (.taskEnded c)

theorem Call.Needs.of_queued {call : Call} {h : Host} {c : Nat} {j : Job} (hneeds : call.Needs h c j)
    {cancelled : Bool} (hrun : call.run = .queued cancelled) : j = .proceed c := by
  cases hneeds with
  | proceed _ => rfl
  | close _ hwaiting => cases hrun.symm.trans hwaiting
  | taskEnded _ hwaiting _ _ => cases hrun.symm.trans hwaiting

/-- A call that stops no task waits for nothing that has to be done. -/
theorem Call.Needs.queued_of_alone {call : Call} {h : Host} {c : Nat} {j : Job}
    (hneeds : call.Needs h c j) (hstopped : call.stopped? = none) :
    ∃ cancelled, call.run = .queued cancelled := by
  cases hneeds with
  | proceed hrun => exact ⟨_, hrun⟩
  | close hstage _ => simp [Call.stopped?, hstage] at hstopped
  | taskEnded hstage _ _ _ => simp [Call.stopped?, hstage] at hstopped

/-- A task that stays as it is, but for its mailbox and the answer for its body. -/
theorem Task.Sane.congr {task task' : Task} {running : Option Nat} {t : Nat} (h : task.Sane running t)
    (hrun : task'.run = task.run) (hwatchers : task'.watchers = task.watchers)
    (hsupervised : task'.supervised = task.supervised) {box : List Request}
    (hinst : task'.inst = { task.inst with mailbox := box }) : task'.Sane running t where
  active := hrun ▸ h.active
  receiving hreceiving := by
    rw [hinst]
    exact h.receiving (hrun ▸ hreceiving)
  lingers hpaused := by
    cases h.lingers (hrun ▸ hpaused) with
    | deciding hphase past call hforever =>
      exact .deciding (by rw [hinst]; exact hphase) past call (by rw [hinst]; exact hforever)
    | reporting hphase past call hforever =>
      exact .reporting (by rw [hinst]; exact hphase) past call (by rw [hinst]; exact hforever)
    | terminating hphase past hforever =>
      exact .terminating (by rw [hinst]; exact hphase) past (by rw [hinst]; exact hforever)
  held hwaits := by
    rw [hinst]
    exact h.held (hrun ▸ hwaits)
  ended hended := hwatchers ▸ h.ended (hrun ▸ hended)
  absent habsent := hsupervised ▸ h.absent (hrun ▸ habsent)

theorem Task.sane_queued {task : Task} {cancelled : Bool} {running : Option Nat} {t : Nat}
    (hrun : task.run = .queued cancelled) (hheld : task.inst.Held) : task.Sane running t := by
  refine ⟨?_, ?_, ?_, fun _ => hheld, ?_, ?_⟩ <;> rw [hrun] <;> nofun

namespace Host

variable {h h' : Host} {extra : List Job} {fed : Option Nat} {t u c : Nat} {task : Task}
  {call : Call} {j : Job}

/-- Somebody waits for a job. -/
inductive Needs (h : Host) (j : Job) : Prop where
  | task {t : Nat} {task : Task} (ht : h.task? t = some task) (hneeds : task.Needs t j) : Needs h j
  | call {c : Nat} {call : Call} (hcall : h.calls[c]? = some call) (hneeds : call.Needs h c j) :
    Needs h j

/-- A job is still to be done: it has its timer, stands in the queue, or is one of some that are
owed. -/
def Due (h : Host) (extra : List Job) (j : Job) : Prop := j ∈ extra ∨ j ∈ h.office.jobs

/-- Nothing that is waited for is forgotten, while some jobs are owed, and the body of a task may
be moving on. -/
structure Kept (extra : List Job) (fed : Option Nat) (h : Host) : Prop where
  due : ∀ j, h.Needs j → h.Due extra j
  tasks : ∀ t task, h.task? t = some task → task.Sane h.running t
  answered : ∀ t task, h.task? t = some task → fed ≠ some t → task.Answered
  calls : ∀ (c : Nat) (call : Call), h.calls[c]? = some call → call.Sane h

/-! ## What changes -/

/-- Only queues, timers and what is seen change. -/
theorem Kept.aside {extra' : List Job} (hk : Kept extra fed h) (htasks : h'.tasks = h.tasks)
    (hcalls : h'.calls = h.calls) (hrunning : h'.running = h.running)
    (hdue : ∀ j, h.Needs j → h.Due extra j → h'.Due extra' j) : Kept extra' fed h' := by
  have htask : ∀ t, h'.task? t = h.task? t := task?_of_tasks htasks
  have hneeds : ∀ j, h'.Needs j → h.Needs j := by
    rintro j (⟨ht, hneeds⟩ | ⟨hcall, hneeds⟩)
    · exact .task ((htask _).symm.trans ht) hneeds
    · refine .call (hcalls ▸ hcall) ?_
      cases hneeds with
      | proceed hrun => exact .proceed hrun
      | close hstage hrun => exact .close hstage hrun
      | taskEnded hstage hrun ht hmissing =>
        exact .taskEnded hstage hrun ((htask _).symm.trans ht) hmissing
  refine ⟨fun j hj => hdue j (hneeds j hj) (hk.due j (hneeds j hj)), ?_, ?_, ?_⟩
  · intro t task ht
    exact hrunning ▸ hk.tasks t task ((htask t).symm.trans ht)
  · intro t task ht
    exact hk.answered t task ((htask t).symm.trans ht)
  · intro c call hcall
    obtain ⟨hclosing, hforced, hstopped, hguard, hchildren⟩ := hk.calls c call (hcalls ▸ hcall)
    refine ⟨hclosing, fun t hstage => ?_, fun t hstopped' => ?_, hguard, hchildren⟩
    · rw [htask]
      exact hforced t hstage
    · rw [htask]
      exact hstopped t hstopped'

/-- More may be owed. -/
theorem Kept.more {extra' : List Job} (hk : Kept extra fed h) (hmore : ∀ j ∈ extra, j ∈ extra') :
    Kept extra' fed h := hk.aside rfl rfl rfl fun j _ hdue => hdue.imp (hmore j) id

theorem Kept.owe (hk : Kept extra fed h) (j : Job) : Kept (j :: extra) fed h :=
  hk.more fun _ => List.mem_cons_of_mem j

/-- What nobody waits for, or is in the queue, is not owed. -/
theorem Kept.pay (hk : Kept (j :: extra) fed h) (hpaid : h.Needs j → h.Due extra j) :
    Kept extra fed h := by
  refine hk.aside rfl rfl rfl fun j' hneeds hdue => ?_
  rcases hdue with hextra | hjobs
  · rcases List.mem_cons.1 hextra with rfl | hextra
    · exact hpaid hneeds
    · exact .inl hextra
  · exact .inr hjobs

theorem Kept.drop (hk : Kept (j :: extra) fed h) (hmoot : ¬h.Needs j) : Kept extra fed h :=
  hk.pay fun hneeds => absurd hneeds hmoot

theorem jobs_enqueue (h : Host) (j : Job) : ∀ j', j' ∈ (h.enqueue j).office.jobs ↔
    j' ∈ h.office.jobs ∨ j' = j := by
  intro j'
  rw [office_enqueue]
  simp only [Office.jobs, Office.push, List.mem_append, List.mem_singleton]
  tauto

theorem Kept.enqueue (hk : Kept extra fed h) (j : Job) : Kept extra fed (h.enqueue j) :=
  hk.aside rfl rfl rfl fun j' _ hdue => hdue.imp id fun hj' => (h.jobs_enqueue j j').2 (.inl hj')

/-- A job that is owed is put into the queue. -/
theorem Kept.repay (hk : Kept (j :: extra) fed h) : Kept extra fed (h.enqueue j) :=
  (hk.enqueue j).pay fun _ => .inr ((h.jobs_enqueue j j).2 (.inr rfl))

theorem Kept.see (hk : Kept extra fed h) (e : Event) : Kept extra fed (h.see e) :=
  hk.aside rfl rfl rfl fun _ _ => id

theorem Kept.note (hk : Kept extra fed h) (level : LogLevel) (name : Value) (text : String) :
    Kept extra fed (h.note level name text) := hk.see _

theorem Kept.publish (hk : Kept extra fed h) (scope : Option Value) (n : Notification) :
    Kept extra fed (h.publish scope n).1 := by
  obtain ⟨events, hevents⟩ := h.publish_eq scope n
  rw [hevents]
  exact hk.aside rfl rfl rfl fun _ _ => id

theorem jobs_setTimer_iff (h : Host) (delay : Number) (j : Job) :
    ∀ j', j' ∈ (h.setTimer delay j).office.jobs ↔ j' ∈ h.office.jobs ∨ j' = j := by
  intro j'
  have htimers := (h.jobs_setTimer delay j).mem_iff (a := j')
  have hqueue : (h.setTimer delay j).office.queue = h.office.queue := rfl
  simp only [Office.jobs, List.mem_append, hqueue, htimers, List.mem_cons]
  tauto

theorem Kept.setTimer (hk : Kept extra fed h) (delay : Number) (j : Job) :
    Kept extra fed (h.setTimer delay j) :=
  hk.aside rfl rfl rfl fun j' _ hdue =>
    hdue.imp id fun hj' => (h.jobs_setTimer_iff delay j j').2 (.inl hj')

/-- A job that is owed gets its timer. -/
theorem Kept.repayLater (hk : Kept (j :: extra) fed h) (delay : Number) :
    Kept extra fed (h.setTimer delay j) :=
  (hk.setTimer delay j).pay fun _ => .inr ((h.jobs_setTimer_iff delay j j).2 (.inr rfl))

/-- The window of a call that does not wait for its end is given up. -/
theorem Kept.dropWindow (hk : Kept extra fed h) (hmoot : ¬h.Needs (.close c)) :
    Kept extra fed (h.dropWindow c) := by
  refine hk.aside rfl rfl rfl fun j hneeds hdue => hdue.imp id fun hj => ?_
  have hne : j ≠ .close c := by
    rintro rfl
    exact hmoot hneeds
  have htimers : (h.dropWindow c).office.timers = h.office.timers.filter (outlasts c) := by
    unfold office Host.dropWindow
    simp only [List.filter_map]
    rfl
  have hqueue : (h.dropWindow c).office.queue = h.office.queue := rfl
  simp only [Office.jobs, List.mem_append, htimers, hqueue, List.mem_filter] at hj ⊢
  refine hj.imp id fun hj => ⟨hj, ?_⟩
  cases j with
  | close d =>
    have hd : d ≠ c := fun hd => hne (hd ▸ rfl)
    simp [outlasts, hd]
  | _ => rfl

/-! ## Tasks -/

theorem Kept.begin (hk : Kept extra none h) (t : Nat) : Kept extra (some t) h :=
  ⟨hk.due, hk.tasks, fun u task hu _ => hk.answered u task hu nofun, hk.calls⟩

theorem Kept.finish (hk : Kept extra (some t) h) (ht : h.task? t = some task)
    (hanswered : task.Answered) : Kept extra none h := by
  refine ⟨hk.due, hk.tasks, fun u other hu _ => ?_, hk.calls⟩
  by_cases hne : t = u
  · subst hne
    exact Option.some.inj (ht.symm.trans hu) ▸ hanswered
  · exact hk.answered u other hu fun heq => hne (Option.some.inj heq)

theorem Kept.setRunning (hk : Kept extra fed h) {running : Option Nat}
    (hactive : ∀ t task, h.task? t = some task → task.run = .active → running = some t) :
    Kept extra fed { h with running := running } := by
  have hcalls : ∀ call : Call, call.Sane h → call.Sane { h with running := running } :=
    fun _ ⟨hclosing, hforced, hstopped, hguard, hchildren⟩ =>
      ⟨hclosing, hforced, hstopped, hguard, hchildren⟩
  refine ⟨fun j hneeds => hk.due j ?_, ?_, hk.answered, fun c call hcall =>
    hcalls call (hk.calls c call hcall)⟩
  · rcases hneeds with ⟨ht, hneeds⟩ | ⟨hcall, hneeds⟩
    · exact .task ht hneeds
    · refine .call hcall ?_
      cases hneeds with
      | proceed hrun => exact .proceed hrun
      | close hstage hrun => exact .close hstage hrun
      | taskEnded hstage hrun ht hmissing => exact .taskEnded hstage hrun ht hmissing
  · intro t task ht
    obtain ⟨-, hreceiving, hlingers, hheld, hended, habsent⟩ := hk.tasks t task ht
    exact ⟨hactive t task ht, hreceiving, hlingers, hheld, hended, habsent⟩

/-- The call waits for the end of a task that was cancelled. -/
def Forces (h : Host) (c t : Nat) : Prop :=
  ∃ (call : Call) (cancelled : Bool), h.calls[c]? = some call ∧ call.stage = .forced t ∧
    call.run = .waiting cancelled

/-- A task becomes another one, of whose end the same calls are told. -/
theorem Kept.setTask (hk : Kept extra fed h) (ht : h.task? t = some task) {task' : Task}
    (hsupervised : task'.supervised = task.supervised)
    (hcondemned : task.Condemned → task'.Condemned)
    (hwatchers : ∀ c ∈ task.watchers, c ∈ task'.watchers ∨ h.Due extra (.taskEnded c) ∨
      ¬h.Forces c t)
    (hsane : task'.Sane h.running t) (hanswered : fed ≠ some t → task'.Answered)
    (hneeds : ∀ j, task'.Needs t j → h.Due extra j) : Kept extra fed (h.setTask t task') := by
  have hself := task?_setTask_self ht task'
  have hother : ∀ {u}, t ≠ u → (h.setTask t task').task? u = h.task? u :=
    fun hne => task?_setTask_ne hne task'
  have hjobs : (h.setTask t task').office.jobs = h.office.jobs := rfl
  refine ⟨fun j hj => ?_, ?_, ?_, fun c call hcall => ?_⟩
  · show j ∈ extra ∨ j ∈ h.office.jobs
    rcases hj with @⟨u, other, hu, hother'⟩ | @⟨c, call, hcall, hcall'⟩
    · by_cases hne : t = u
      · subst hne
        exact hneeds j (Option.some.inj (hself.symm.trans hu) ▸ hother')
      · exact hk.due j (.task ((hother hne).symm.trans hu) hother')
    · cases hcall' with
      | proceed hrun => exact hk.due _ (.call hcall (.proceed hrun))
      | close hstage hrun => exact hk.due _ (.call hcall (.close hstage hrun))
      | @taskEnded u other cancelled hstage hrun hu hmissing =>
        by_cases hne : t = u
        · subst hne
          obtain rfl := Option.some.inj (hself.symm.trans hu)
          by_cases hwatched : c ∈ task.watchers
          · rcases hwatchers c hwatched with hstill | hdue | hnot
            · exact absurd hstill hmissing
            · exact hdue
            · exact absurd ⟨call, cancelled, hcall, hstage, hrun⟩ hnot
          · exact hk.due _ (.call hcall (.taskEnded hstage hrun ht hwatched))
        · exact hk.due _ (.call hcall
            (.taskEnded hstage hrun ((hother hne).symm.trans hu) hmissing))
  · intro u other hu
    by_cases hne : t = u
    · subst hne
      exact Option.some.inj (hself.symm.trans hu) ▸ hsane
    · exact hk.tasks u other ((hother hne).symm.trans hu)
  · intro u other hu hfed
    by_cases hne : t = u
    · subst hne
      exact Option.some.inj (hself.symm.trans hu) ▸ hanswered hfed
    · exact hk.answered u other ((hother hne).symm.trans hu) hfed
  · obtain ⟨hclosing, hforced, hstopped, hguard, hchildren⟩ := hk.calls c call hcall
    -- The task that a call is about is still there.
    have hstays : ∀ {P : Task → Prop}, (P task → P task') → ∀ u,
        (∃ other, h.task? u = some other ∧ P other) →
        ∃ other, (h.setTask t task').task? u = some other ∧ P other := by
      rintro P hP u ⟨other, hu, hPu⟩
      by_cases hne : t = u
      · subst hne
        exact ⟨task', hself, hP (Option.some.inj (ht.symm.trans hu) ▸ hPu)⟩
      · exact ⟨other, (hother hne).trans hu, hPu⟩
    exact ⟨hclosing, fun u hstage => hstays hcondemned u (hforced u hstage),
      fun u hu => hstays (fun h => hsupervised.trans h) u (hstopped u hu), hguard, hchildren⟩

/-- A task has other requests in its mailbox. -/
theorem Kept.setMailbox (hk : Kept extra fed h) (ht : h.task? t = some task) (box : List Request) :
    Kept extra fed (h.setTask t { task with inst := { task.inst with mailbox := box } }) := by
  refine hk.setTask ht rfl id (fun c => .inl) ?_ (fun hfed => hk.answered t task ht hfed) ?_
  · exact Task.Sane.congr (hk.tasks t task ht) rfl rfl rfl rfl
  · intro j hneeds
    refine hk.due j (.task ht ?_)
    cases hneeds with
    | resume hrun => exact .resume hrun
    | wake hrun => exact .wake hrun

/-- A task that is neither queued nor running is queued. -/
theorem Kept.wakeTask (hk : Kept extra fed h) (ht : h.task? t = some task)
    (hrun : ∀ cancelled, task.run ≠ .queued cancelled) (hactive : task.run ≠ .active)
    (cancelled : Bool) (box : List Request) :
    Kept extra fed ((h.setTask t
      { task with inst := { task.inst with mailbox := box }, run := .queued cancelled }).enqueue
      (.resume t)) := by
  refine Kept.repay ?_
  have hheld := (hk.tasks t task ht).held hactive
  refine (hk.owe (.resume t)).setTask ht rfl ?_ (fun c => .inl) (Task.sane_queued rfl hheld) ?_ ?_
  · exact fun hcondemned => hcondemned.elim (fun h => absurd h (hrun true)) .inr
  · exact fun hfed => hk.answered t task ht hfed
  · intro j hneeds
    cases hneeds with
    | resume _ => exact .inl List.mem_cons_self
    | wake hpaused => cases hpaused

theorem eq_of_post {i inst : Instance} {r : Request} (hpost : i.post r = .ok inst) :
    inst = { i with mailbox := i.mailbox ++ [r] } := by
  unfold Instance.post at hpost
  split at hpost
  · exact (Except.ok.inj hpost).symm
  · cases hpost

theorem Kept.post (hk : Kept extra fed h) {r : Request} (hpost : h.post t r = .ok h') :
    Kept extra fed h' := by
  unfold Host.post at hpost
  cases ht : h.task? t with
  | none => simp [ht] at hpost
  | some task =>
    simp only [ht] at hpost
    cases hinst : task.inst.post r with
    | error fault => simp [hinst] at hpost
    | ok inst =>
      simp only [hinst] at hpost
      obtain rfl := eq_of_post hinst
      split at hpost
      · rename_i hreceiving
        obtain rfl := Except.ok.inj hpost
        exact hk.wakeTask ht (fun _ => hreceiving ▸ nofun) (hreceiving ▸ nofun) false _
      · obtain rfl := Except.ok.inj hpost
        exact hk.setMailbox ht _

theorem Kept.accepting (hk : Kept extra fed h) {result : Except Fault Host}
    (hresult : ∀ h', result = .ok h' → Kept extra fed h') : Kept extra fed (h.accepting result) := by
  cases result with
  | ok h' => exact hresult h' rfl
  | error fault => exact hk

theorem Kept.accepted (hk : Kept extra fed h) (t : Nat) (r : Request) :
    Kept extra fed (h.accepting (h.post t r)) := hk.accepting fun _ hpost => hk.post hpost

theorem Kept.send (hk : Kept extra fed h) {s : Send} (hsend : h.send s = .ok h') :
    Kept extra fed h' := by
  unfold Host.send at hsend
  cases hlookup : h.lookup s.name with
  | error fault => simp [hlookup, bind, Except.bind] at hsend
  | ok u =>
    simp only [hlookup, bind, Except.bind] at hsend
    exact hk.post hsend

/-- A task that waits, or was never started, is queued with the instance that it has. -/
theorem Kept.rouse (hk : Kept extra fed h) (ht : h.task? t = some task)
    (hrun : ∀ cancelled, task.run ≠ .queued cancelled) (hactive : task.run ≠ .active)
    (cancelled : Bool) :
    Kept extra fed ((h.setTask t { task with run := .queued cancelled }).enqueue (.resume t)) :=
  hk.wakeTask ht hrun hactive cancelled task.inst.mailbox

theorem Kept.wake (hk : Kept extra fed h) (t serial : Nat) : Kept extra fed (h.wake t serial) := by
  unfold Host.wake
  split
  · split
    · rename_i ht hrun
      exact hk.rouse ht (fun _ => hrun ▸ nofun) (hrun ▸ nofun) false
    · exact hk
  · exact hk

theorem Kept.startTask (hk : Kept extra fed h) (t : Nat) : Kept extra fed (h.startTask t) := by
  unfold Host.startTask
  split
  · split
    · rename_i ht hrun
      exact hk.rouse ht (fun _ => hrun ▸ nofun) (hrun ▸ nofun) false
    · exact hk
  · exact hk

theorem Kept.cancelTask (hk : Kept extra fed h) (t : Nat) : Kept extra fed (h.cancelTask t).1 := by
  unfold Host.cancelTask
  split
  · exact hk
  · rename_i task ht
    split
    · exact hk
    · exact hk
    · rename_i cancelled hrun
      have hheld := (hk.tasks t task ht).held (hrun ▸ nofun)
      refine hk.setTask ht rfl (fun _ => .inl rfl) (fun c => .inl) (Task.sane_queued rfl hheld)
        (fun hfed => hk.answered t task ht hfed) ?_
      intro j hneeds
      cases hneeds with
      | resume _ => exact hk.due _ (.task ht (.resume hrun))
      | wake hpaused => cases hpaused
    · exact hk
    · rename_i hrun
      exact hk.rouse ht (fun _ => hrun ▸ nofun) (hrun ▸ nofun) true
    · rename_i hrun
      exact hk.rouse ht (fun _ => hrun ▸ nofun) (hrun ▸ nofun) true

/-- A call is told of the end of a task. -/
theorem Kept.setWatchers (hk : Kept extra fed h) (ht : h.task? t = some task) {watchers : List Nat}
    (hwatchers : ∀ c ∈ task.watchers, c ∈ watchers ∨ ¬h.Forces c t)
    (hended : task.run = .ended → watchers = []) :
    Kept extra fed (h.setTask t { task with watchers := watchers }) := by
  have hsane := hk.tasks t task ht
  refine hk.setTask ht rfl id (fun c hc => (hwatchers c hc).imp id .inr) ?_
    (fun hfed => hk.answered t task ht hfed) ?_
  · refine ⟨hsane.active, hsane.receiving, fun hpaused => ?_, hsane.held, hended, hsane.absent⟩
    cases hsane.lingers hpaused with
    | deciding hphase past call hforever => exact .deciding hphase past call hforever
    | reporting hphase past call hforever => exact .reporting hphase past call hforever
    | terminating hphase past hforever => exact .terminating hphase past hforever
  · intro j hneeds
    refine hk.due j (.task ht ?_)
    cases hneeds with
    | resume hrun => exact .resume hrun
    | wake hrun => exact .wake hrun

theorem updateTask_of_none (ht : h.task? t = none) (f : Task → Task) : h.updateTask t f = h := by
  have hle := List.getElem?_eq_none_iff.1 ht
  unfold Host.updateTask
  rw [List.modify_eq_self hle]

theorem Kept.unwatch (hk : Kept extra fed h) (hmoot : ¬h.Forces c t) :
    Kept extra fed (h.unwatch t c) := by
  unfold Host.unwatch
  cases ht : h.task? t with
  | none => rwa [updateTask_of_none ht]
  | some task =>
    rw [← setTask_eq_updateTask ht fun task =>
      { task with watchers := task.watchers.filter (· ≠ c) }]
    refine hk.setWatchers ht (fun d hd => ?_) fun hended => ?_
    · by_cases hdc : d = c
      · exact .inr (hdc ▸ hmoot)
      · exact .inl (List.mem_filter.2 ⟨hd, by simpa using hdc⟩)
    · rw [(hk.tasks t task ht).ended hended]
      rfl

/-- Whoever is to be told of the end of a task is told, now or then. -/
theorem Kept.watch (hk : Kept (.taskEnded c :: extra) fed h)
    (hforces : ∀ u, h.Forces c u → u = t) : Kept extra fed (h.watch t c) := by
  unfold Host.watch
  split
  · exact hk.repay
  · rename_i hgoing
    unfold hasEnded at hgoing
    cases ht : h.task? t with
    | none => simp [ht] at hgoing
    | some task =>
      have hrun : task.run ≠ .ended := by simpa [ht] using hgoing
      rw [← setTask_eq_updateTask ht fun task => { task with watchers := task.watchers ++ [c] }]
      refine (hk.setWatchers ht (fun d hd => .inl (List.mem_append_left _ hd))
        fun hended => absurd hended hrun).drop ?_
      rintro (⟨-, hneeds⟩ | ⟨hcall, hneeds⟩)
      · cases hneeds
      · cases hneeds with
        | @taskEnded u other cancelled hstage hwaiting hu hmissing =>
          obtain rfl := hforces u ⟨_, cancelled, hcall, hstage, hwaiting⟩
          obtain rfl := Option.some.inj ((task?_setTask_self ht _).symm.trans hu)
          exact hmissing (List.mem_append_right _ List.mem_cons_self)

/-! ## Calls -/

/-- Calls come, or become others. -/
theorem Kept.recall (hk : Kept extra fed h) (htasks : h'.tasks = h.tasks)
    (hrunning : h'.running = h.running) (hjobs : ∀ j ∈ h.office.jobs, j ∈ h'.office.jobs)
    (hcalls : ∀ (c : Nat) (call : Call), h'.calls[c]? = some call →
      h.calls[c]? = some call ∨ call.Sane h ∧ ∀ j, call.Needs h c j → h'.Due extra j) :
    Kept extra fed h' := by
  have htask : ∀ t, h'.task? t = h.task? t := task?_of_tasks htasks
  have hdue : ∀ j, h.Due extra j → h'.Due extra j := fun j hj => hj.imp id (hjobs j)
  have hneeds : ∀ {c : Nat} {call : Call} {j : Job}, call.Needs h' c j → call.Needs h c j := by
    intro c call j hneeds
    cases hneeds with
    | proceed hrun => exact .proceed hrun
    | close hstage hrun => exact .close hstage hrun
    | taskEnded hstage hrun ht hmissing =>
      exact .taskEnded hstage hrun ((htask _).symm.trans ht) hmissing
  refine ⟨?_, ?_, ?_, fun c call hcall => ?_⟩
  · rintro j (⟨ht, hj⟩ | ⟨hcall, hj⟩)
    · exact hdue j (hk.due j (.task ((htask _).symm.trans ht) hj))
    · rcases hcalls _ _ hcall with hold | ⟨-, hnew⟩
      · exact hdue j (hk.due j (.call hold (hneeds hj)))
      · exact hnew j (hneeds hj)
  · intro t task ht
    exact hrunning ▸ hk.tasks t task ((htask t).symm.trans ht)
  · intro t task ht
    exact hk.answered t task ((htask t).symm.trans ht)
  · have hsane : call.Sane h := (hcalls c call hcall).elim (hk.calls c call) And.left
    obtain ⟨hclosing, hforced, hstopped, hguard, hchildren⟩ := hsane
    refine ⟨hclosing, fun t hstage => ?_, fun t hstopped' => ?_, hguard, hchildren⟩
    · rw [htask]
      exact hforced t hstage
    · rw [htask]
      exact hstopped t hstopped'

theorem Kept.setCall (hk : Kept extra fed h) (hsane : call.Sane h)
    (hneeds : ∀ j, call.Needs h c j → h.Due extra j) : Kept extra fed (h.setCall c call) := by
  refine hk.recall rfl rfl (fun _ => id) fun d other hother => ?_
  rcases Office.set_cases (hother : (h.calls.set c call)[d]? = some other) with ⟨rfl, rfl⟩ | ⟨-, hold⟩
  · exact .inr ⟨hsane, hneeds⟩
  · exact .inl hold

theorem Kept.addCall (hk : Kept extra fed h) (hsane : call.Sane h)
    (hneeds : ∀ j, call.Needs h h.calls.length j → h.Due extra j) :
    Kept extra fed (h.addCall call).1 := by
  refine hk.recall rfl rfl (fun _ => id) fun d other hother => ?_
  rcases concat_get? (hother : (h.calls ++ [call])[d]? = some other) with hold | ⟨rfl, rfl⟩
  · exact .inl hold
  · exact .inr ⟨hsane, hneeds⟩

/-- A call whose wait is over is queued. -/
theorem Kept.queueCall (hk : Kept extra fed h) (hcall : h.calls[c]? = some call) (cancelled : Bool) :
    Kept extra fed ((h.setCall c { call with run := .queued cancelled }).enqueue (.proceed c)) := by
  refine Kept.repay ((hk.owe (.proceed c)).setCall ((hk.calls c call hcall).rerun nofun) ?_)
  exact fun j hneeds => .inl (hneeds.of_queued rfl ▸ List.mem_cons_self)

theorem Kept.resolve (hk : Kept extra fed h) (c : Nat) (result : Except Fault Answer) :
    Kept extra fed (h.resolve c result) := by
  unfold Host.resolve
  split
  · rename_i parent t cancelled hcall
    have hparent : parent = none := by
      cases parent with
      | none => rfl
      | some p =>
        obtain ⟨u, hu⟩ := (hk.calls c _ hcall).guard p rfl
        cases hu
    refine Kept.repay ((hk.owe (.proceed c)).setCall (Call.sane_alone hparent rfl nofun) ?_)
    exact fun j hneeds => .inl (hneeds.of_queued rfl ▸ List.mem_cons_self)
  · exact hk

theorem resolve_same (h : Host) (c : Nat) (result : Except Fault Answer) :
    (h.resolve c result).tasks = h.tasks ∧ (h.resolve c result).running = h.running := by
  unfold Host.resolve
  split <;> exact ⟨rfl, rfl⟩

/-! ## Bodies -/

/-- The body of a running task has taken its step, and what it wants done is being done. -/
structure Moving (extra : List Job) (t : Nat) (i : Instance) (h : Host) : Prop where
  kept : Kept extra (some t) h
  running : h.running = some t
  task : ∃ task box, h.task? t = some task ∧ task.run = .active ∧
    task.inst = { i with mailbox := box }

section
variable {i : Instance}

theorem Moving.of_same (hm : Moving extra t i h) (hk : Kept extra (some t) h')
    (hrunning : h'.running = h.running) (htasks : h'.tasks = h.tasks) : Moving extra t i h' := by
  obtain ⟨task, box, ht, hrun, hinst⟩ := hm.task
  exact ⟨hk, hrunning.trans hm.running, task, box, (task?_of_tasks htasks t).trans ht, hrun, hinst⟩

theorem Moving.post (hm : Moving extra t i h) {r : Request} (hpost : h.post u r = .ok h') :
    Moving extra t i h' := by
  obtain ⟨task, box, ht, hrun, hinst⟩ := hm.task
  refine ⟨hm.kept.post hpost, (task_of_post hpost ht).2.trans hm.running, ?_⟩
  unfold Host.post at hpost
  cases hu : h.task? u with
  | none => simp [hu] at hpost
  | some other =>
    simp only [hu] at hpost
    cases hposted : other.inst.post r with
    | error fault => simp [hposted] at hpost
    | ok inst =>
      simp only [hposted] at hpost
      by_cases hne : u = t
      · subst hne
        obtain rfl := Option.some.inj (ht.symm.trans hu)
        rw [if_neg (by rw [hrun]; nofun)] at hpost
        obtain rfl := Except.ok.inj hpost
        obtain rfl := eq_of_post hposted
        refine ⟨_, task.inst.mailbox ++ [r], task?_setTask_self ht _, hrun, ?_⟩
        show { task.inst with mailbox := task.inst.mailbox ++ [r] } = _
        rw [hinst]
      · have hother : ∀ other', (h.setTask u other').task? t = some task :=
          fun other' => (task?_setTask_ne hne other').trans ht
        split at hpost
        · obtain rfl := Except.ok.inj hpost
          exact ⟨task, box, hother _, hrun, hinst⟩
        · obtain rfl := Except.ok.inj hpost
          exact ⟨task, box, hother _, hrun, hinst⟩

theorem Moving.sendAll (hm : Moving extra t i h) (sends : List Send) :
    Moving extra t i (h.sendAll sends).1 := by
  induction sends generalizing h with
  | nil => exact hm
  | cons s sends ih =>
    unfold Host.sendAll
    cases hsend : h.send s with
    | error fault => exact hm
    | ok h' =>
      refine ih ?_
      unfold Host.send at hsend
      cases hlookup : h.lookup s.name with
      | error fault => simp [hlookup, bind, Except.bind] at hsend
      | ok u =>
        simp only [hlookup, bind, Except.bind] at hsend
        exact hm.post hsend

theorem Moving.quiet (hm : Moving extra t i h) {e : Effect} (he : e.IsQuiet) :
    Moving extra t i (h.perform t e) := by
  obtain ⟨task, box, ht, hrun, hinst⟩ := hm.task
  unfold perform
  simp only [ht]
  cases he with
  | log level text => exact hm.of_same (hm.kept.see _) rfl rfl
  | answer c result =>
    obtain ⟨htasks, hrunning⟩ := h.resolve_same c result
    exact hm.of_same (hm.kept.resolve c result) hrunning htasks

theorem Moving.quiets (hm : Moving extra t i h) {effects : List Effect}
    (hquiet : ∀ e ∈ effects, e.IsQuiet) :
    Moving extra t i (effects.foldl (fun h e => h.perform t e) h) := by
  induction effects generalizing h with
  | nil => exact hm
  | cons e effects ih =>
    obtain ⟨he, hquiet⟩ := List.forall_mem_cons.1 hquiet
    exact ih (hm.quiet he) hquiet

/-- The body has been told what it waits for. -/
structure Told (extra : List Job) (t : Nat) (i : Instance) (h : Host) : Prop where
  kept : Kept extra none h
  running : h.running = some t
  task : ∃ task box, h.task? t = some task ∧ task.run = .active ∧
    task.inst = { i with mailbox := box }

theorem Moving.setAnswer (hm : Moving extra t i h) {s : Stimulus} (hawaits : i.phase.Awaits s) :
    Told extra t i (h.setAnswer t s) := by
  obtain ⟨task, box, ht, hrun, hinst⟩ := hm.task
  unfold Host.setAnswer
  rw [← setTask_eq_updateTask ht fun task => { task with answer := some s }]
  have ht' := task?_setTask_self ht { task with answer := some s }
  refine ⟨?_, hm.running, _, box, ht', hrun, hinst⟩
  refine Kept.finish (t := t) ?_ ht' (.inr ⟨s, rfl, ?_⟩)
  · refine hm.kept.setTask ht rfl id (fun c => .inl) ?_ (fun h => absurd rfl h) ?_
    · exact Task.Sane.congr (hm.kept.tasks t task ht) rfl rfl rfl
        (rfl : task.inst = { task.inst with mailbox := task.inst.mailbox })
    · exact fun j hneeds => absurd hrun hneeds.not_active
  · show task.inst.phase.Awaits s
    rw [hinst]
    exact hawaits

/-- The task lets go: it is queued, or waits. -/
theorem Kept.block (hk : Kept extra none h) (hrunning : h.running = some t)
    (ht : h.task? t = some task) (hactive : task.run = .active) {run : TaskRun}
    (hsane : ({ task with run := run } : Task).Sane none t)
    (hneeds : ∀ j, ({ task with run := run } : Task).Needs t j → h.Due extra j) :
    Kept extra none (h.block t run) := by
  unfold Host.block
  rw [← setTask_eq_updateTask ht fun task => { task with run := run }]
  have hset : Kept extra none (h.setTask t { task with run := run }) := by
    refine hk.setTask ht rfl ?_ (fun c => .inl) ?_ (fun hfed => hk.answered t task ht hfed) hneeds
    · exact fun hcondemned => hcondemned.elim (fun h => by cases hactive.symm.trans h) .inr
    · exact ⟨fun h => absurd (hsane.active h) nofun, hsane.receiving, hsane.lingers, hsane.held,
        hsane.ended, hsane.absent⟩
  refine hset.setRunning fun u other hu hrun => ?_
  by_cases hne : t = u
  · subst hne
    obtain rfl := Option.some.inj ((task?_setTask_self ht _).symm.trans hu)
    exact absurd (hsane.active hrun) nofun
  · have hu' := (task?_setTask_ne hne _).symm.trans hu
    exact absurd (Option.some.inj (hrunning.symm.trans ((hk.tasks u other hu').active hrun))) hne

theorem Told.pause (hm : Told extra t i h) {p : Pause} (hheld : p ≠ .none → i.Held)
    (hlingers : p = .forever → ∀ (task : Task) box, task.inst = { i with mailbox := box } → task.Lingers) :
    Kept extra none (h.pause t p) := by
  obtain ⟨task, box, ht, hrun, hinst⟩ := hm.task
  have hheld' : p ≠ .none → task.inst.Held := fun hpauses => hinst ▸ hheld hpauses
  unfold Host.pause
  cases p with
  | none => exact hm.kept
  | forever =>
    refine hm.kept.block hm.running ht hrun ?_ fun j hneeds => ?_
    · exact ⟨nofun, nofun, fun _ => hlingers rfl _ box hinst, fun _ => hheld' nofun, nofun, nofun⟩
    · cases hneeds with
      | resume hqueued => cases hqueued
      | wake hpaused => cases hpaused
  | seconds s =>
    simp only
    split
    · refine Kept.repay ((hm.kept.owe (.resume t)).block hm.running ht hrun
        (Task.sane_queued rfl (hheld' nofun)) fun j hneeds => ?_)
      cases hneeds with
      | resume hqueued => exact .inl List.mem_cons_self
      | wake hpaused => cases hpaused
    · have hcounted : Kept (.wake t h.serials :: extra) none
          ({ h with serials := h.serials + 1 } : Host) :=
        (hm.kept.owe _).aside rfl rfl rfl fun _ _ => id
      have htimed : Kept extra none (({ h with serials := h.serials + 1 } : Host).setTimer s
          (.wake t h.serials)) := hcounted.repayLater s
      refine htimed.block hm.running ht hrun ⟨nofun, nofun, nofun, fun _ => hheld' nofun, nofun,
        nofun⟩ fun j hneeds => ?_
      cases hneeds with
      | resume hqueued => cases hqueued
      | wake hpaused =>
        obtain rfl := Option.some.inj (TaskRun.paused.inj hpaused)
        exact .inr ((jobs_setTimer_iff _ s _ _).2 (.inr rfl))

theorem Moving.react (hm : Moving extra t i h) {α : Type} (r : Reaction α)
    {stimulus : Except Fault α → Stimulus} (hawaits : ∀ result, i.phase.Awaits (stimulus result))
    (hheld : r.pause ≠ .none → i.Held)
    (hlingers : r.pause = .forever → ∀ (task : Task) box, task.inst = { i with mailbox := box } →
      task.Lingers) : Kept extra none (h.react t r stimulus) := by
  obtain ⟨events, hlines⟩ := h.lines_eq r.lines
  have hwritten : Moving extra t i { h with events := events } :=
    hm.of_same (hm.kept.aside rfl rfl rfl fun _ _ => id) rfl rfl
  have hsent := hwritten.sendAll r.sends
  unfold Host.react
  simp only [hlines]
  revert hsent
  generalize ({ h with events := events } : Host).sendAll r.sends = sent
  obtain ⟨h', fault⟩ := sent
  intro hsent
  cases fault with
  | some fault => exact (hsent.setAnswer (hawaits _)).kept
  | none => exact (hsent.setAnswer (hawaits _)).pause hheld hlingers

theorem Moving.ask (hm : Moving extra t i h) {e : Effect} (hasks : i.Asks e) :
    Kept extra none (h.perform t e) := by
  obtain ⟨task, box, ht, hrun, hinst⟩ := hm.task
  have hnoted : ∀ origin call, Moving extra t i (h.noteCall task.inst.name origin call) :=
    fun origin call => hm.of_same (hm.kept.aside rfl rfl rfl fun _ _ => id) rfl rfl
  -- The hooks of the task are those of the instance that asks.
  have hmachine : task.inst.machine = i.machine := by rw [hinst]
  unfold perform
  simp only [ht, hmachine]
  cases hasks with
  | @transition event payload call hphase =>
    refine (hnoted _ _).react _ (fun result => hphase ▸ .decided event payload result)
      (fun hpauses _ _ _ => ⟨h.past, call, hpauses⟩) ?_
    intro hforever other box' hother
    have hphase' : other.inst.phase = .deciding event payload := by
      rw [hother]
      exact hphase
    refine .deciding hphase' h.past call ?_
    rw [hother]
    exact hforever
  | @failure event payload rejection call hphase =>
    refine (hnoted _ _).react _ (fun result => hphase ▸ .reported event payload rejection result)
      (fun _ => Instance.held_of_ne fun _ _ => hphase ▸ nofun) ?_
    intro hforever other box' hother
    have hphase' : other.inst.phase = .reporting event payload rejection := by
      rw [hother]
      exact hphase
    refine .reporting hphase' h.past call ?_
    rw [hother]
    exact hforever
  | @terminate ending hphase =>
    refine (hnoted _ _).react _ (fun result => hphase ▸ .terminated ending result)
      (fun _ => Instance.held_of_ne fun _ _ => hphase ▸ nofun) ?_
    intro hforever other box' hother
    have hphase' : other.inst.phase = .terminating ending := by
      rw [hother]
      exact hphase
    refine .terminating hphase' h.past ?_
    rw [hother]
    exact hforever
  | publish n hphase =>
    have hawaits : ∀ result, i.phase.Awaits (.published result) := by
      intro result
      rcases hphase with hphase | ⟨ending, hphase⟩
      · exact hphase ▸ .told result
      · exact hphase ▸ .announced ending result
    simp only
    split
    · obtain ⟨events, hevents⟩ := h.publish_eq (some task.inst.name) n
      have hseen : Moving extra t i (h.publish (some task.inst.name) n).1 := by
        rw [hevents]
        exact hm.of_same (hm.kept.aside rfl rfl rfl fun _ _ => id) rfl rfl
      exact (hseen.setAnswer (hawaits _)).kept
    · have hseen := hm.of_same (hm.kept.see (.published .own n)) rfl rfl
      exact (hseen.setAnswer (hawaits _)).kept
    · exact (hm.setAnswer (hawaits _)).kept

end

/-- The body of a task takes a step that fits where it stands. -/
theorem Moving.feed (ht : h.task? t = some task) {s : Stimulus} (hfits : task.inst.Fits s)
    (hm : Moving extra t (task.inst.step s).1
      (h.setTask t { task with inst := (task.inst.step s).1, answer := none })) :
    Kept extra none (h.feed t s) := by
  unfold Host.feed
  simp only [ht]
  cases Instance.poses_step hfits with
  | free hfree hquiet =>
    have hdone := hm.quiets hquiet
    obtain ⟨task', box, ht', -, hinst⟩ := hdone.task
    refine hdone.kept.finish ht' (.inl ?_)
    rw [hinst]
    exact hfree
  | asking heffects hquiet hasks =>
    rw [heffects, List.foldl_append]
    exact (hm.quiets hquiet).ask hasks

/-- The body of the running task moves on. -/
theorem Kept.feed (hk : Kept extra none h) (hrunning : h.running = some t)
    (ht : h.task? t = some task) (hrun : task.run = .active) {s : Stimulus}
    (hfits : task.inst.Fits s) : Kept extra none (h.feed t s) := by
  refine Moving.feed ht hfits ⟨?_, hrunning, _, (task.inst.step s).1.mailbox,
    task?_setTask_self ht _, hrun, rfl⟩
  refine (hk.begin t).setTask ht rfl ?_ (fun c => .inl) ?_ (fun hfed => absurd rfl hfed)
    fun j hneeds => absurd hrun hneeds.not_active
  · rintro (hqueued | hdoomed)
    · cases hrun.symm.trans hqueued
    · exact .inr (Instance.doomed_step hdoomed s)
  · constructor <;> simp only [hrun] <;> first | exact fun _ => hrunning | nofun

/-- A task that is not queued does not wait to be let run. -/
theorem not_needs_resume (hrun : ∀ task, h.task? t = some task → ∀ cancelled,
    task.run ≠ .queued cancelled) : ¬h.Needs (.resume t) := by
  rintro (⟨ht, hneeds⟩ | ⟨-, hneeds⟩)
  · cases hneeds with
    | resume hqueued => exact hrun _ ht _ hqueued
  · cases hneeds

theorem not_needs_resume_of (ht : h.task? t = some task) (hrun : task.run = .active) :
    ¬h.Needs (.resume t) := by
  refine not_needs_resume fun other hother cancelled hqueued => ?_
  obtain rfl := Option.some.inj (ht.symm.trans hother)
  cases hrun.symm.trans hqueued

/-- A cancelled task is let run: its body is given the cancellation where it waits. -/
theorem Kept.interrupt (hk : Kept (.resume t :: extra) none h) (hrunning : h.running = none)
    (ht : h.task? t = some task) :
    Kept extra none ((h.activate t task).feed t task.inst.cancellation) := by
  have ht' := task?_activate ht
  refine Moving.feed ht' .cancellation ⟨?_, rfl, _,
    (task.inst.step task.inst.cancellation).1.mailbox, task?_setTask_self ht' _, rfl, rfl⟩
  have hset : ∀ task' : Task, (h.activate t task).setTask t task' =
      ({ h with running := some t } : Host).setTask t task' := by
    intro task'
    unfold activate Host.setTask
    simp only [List.set_set]
  rw [hset]
  have hran : Kept (.resume t :: extra) (some t) { h with running := some t } :=
    (hk.begin t).setRunning fun u other hu hactive => by
      cases hrunning.symm.trans ((hk.tasks u other hu).active hactive)
  refine Kept.drop (j := .resume t) (hran.setTask ht rfl ?_ (fun c => .inl) ?_
    (fun hfed => absurd rfl hfed) fun j hneeds => (hneeds.not_active rfl).elim) ?_
  · exact fun _ => .inr (Instance.doomed_cancellation task.inst)
  · exact ⟨fun _ => rfl, nofun, nofun, fun hidle => absurd rfl hidle, nofun, nofun⟩
  · exact not_needs_resume_of (task?_setTask_self (h := { h with running := some t }) ht _) rfl

theorem Kept.resume (hk : Kept [.resume t] none h) (hrunning : h.running = none) :
    Kept [] none (h.resume t) := by
  unfold Host.resume
  cases ht : h.task? t with
  | none => exact hk.drop (not_needs_resume fun task ht' => by cases ht.symm.trans ht')
  | some task =>
    simp only
    split
    · rename_i cancelled hrun
      cases cancelled with
      | true => exact hk.interrupt hrunning ht
      | false =>
        have hran : Kept [.resume t] none { h with running := some t } :=
          hk.setRunning fun u other hu hactive => by
            cases hrunning.symm.trans ((hk.tasks u other hu).active hactive)
        refine Kept.drop (j := .resume t) (hran.setTask ht rfl ?_ (fun c => .inl) ?_
          (fun hfed => hk.answered t task ht hfed) fun j hneeds => (hneeds.not_active rfl).elim) ?_
        · exact fun hcondemned => hcondemned.elim (fun h => by cases hrun.symm.trans h) .inr
        · exact ⟨fun _ => rfl, nofun, nofun, fun hidle => absurd rfl hidle, nofun, nofun⟩
        · exact not_needs_resume_of (task?_activate ht) rfl
    · rename_i hrun
      refine hk.drop (not_needs_resume fun other hother cancelled hqueued => ?_)
      obtain rfl := Option.some.inj (ht.symm.trans hother)
      exact hrun cancelled hqueued

/-- Those who wait for the end of a task are told. -/
theorem Kept.tellWatchers {watchers : List Nat}
    (hk : Kept (watchers.map .taskEnded ++ extra) fed h) :
    Kept extra fed (watchers.foldl (fun h c => h.enqueue (.taskEnded c)) h) := by
  induction watchers generalizing h with
  | nil => exact hk
  | cons c watchers ih => exact ih hk.repay

theorem Kept.endTask (hk : Kept extra none h) (hrunning : h.running = some t)
    (ht : h.task? t = some task) (hrun : task.run = .active) {ending : Ending}
    (hphase : task.inst.phase = .finished ending) : Kept extra none (h.endTask t task) := by
  have hheld : task.inst.Held := Instance.held_of_ne fun _ _ => hphase ▸ nofun
  have howed : Kept (task.watchers.map .taskEnded ++ extra) none h :=
    hk.more fun _ => List.mem_append_right _
  have hset : Kept (task.watchers.map .taskEnded ++ extra) none
      (h.setTask t { task with run := .ended, watchers := [] }) := by
    refine howed.setTask ht rfl ?_ ?_ ⟨nofun, nofun, nofun, fun _ => hheld, fun _ => rfl, nofun⟩
      (fun hfed => hk.answered t task ht hfed) fun j hneeds => ?_
    · exact fun hcondemned => hcondemned.elim (fun h => by cases hrun.symm.trans h) .inr
    · exact fun c hc => .inr (.inl (.inl (List.mem_append_left _ (List.mem_map_of_mem hc))))
    · cases hneeds with
      | resume hqueued => cases hqueued
      | wake hpaused => cases hpaused
  have hended : Kept (task.watchers.map .taskEnded ++ extra) none
      { h.setTask t { task with run := .ended, watchers := [] } with running := none } := by
    refine hset.setRunning fun u other hu hactive => ?_
    by_cases hne : t = u
    · subst hne
      obtain rfl := Option.some.inj ((task?_setTask_self ht _).symm.trans hu)
      cases hactive
    · have hu' := (task?_setTask_ne hne _).symm.trans hu
      have heq := hrunning.symm.trans ((hk.tasks u other hu').active hactive)
      exact absurd (Option.some.inj heq) hne
  unfold Host.endTask
  simp only
  split
  · exact (hended.enqueue _).tellWatchers
  · exact hended.tellWatchers

theorem Kept.runTask (hk : Kept extra none h) (hrunning : h.running = some t)
    (ht : h.task? t = some task) (hrun : task.run = .active) : Kept extra none (h.runTask t) := by
  unfold Host.runTask
  simp only [ht]
  split
  · exact hk.endTask hrunning ht hrun ‹_›
  · rename_i hphase
    exact hk.feed hrunning ht hrun (.start hphase)
  · rename_i hphase
    split
    · refine hk.block hrunning ht hrun ⟨nofun, fun _ => hphase, nofun,
        fun _ => Instance.held_of_ne fun _ _ => hphase ▸ nofun, nofun, nofun⟩ fun j hneeds => ?_
      cases hneeds with
      | resume hqueued => cases hqueued
      | wake hpaused => cases hpaused
    · exact hk.feed hrunning ht hrun (.receive hphase)
  · rename_i hfinished hfresh hidle
    -- A body that waits has its answer.
    obtain hfree | ⟨s, hanswer, hawaits⟩ := hk.answered t task ht nofun
    · cases hphase : task.inst.phase <;> rw [hphase] at hfree <;> cases hfree
      · exact absurd hphase hfresh
      · exact absurd hphase hidle
      · exact absurd hphase (hfinished _)
    · simp only [hanswer]
      exact hk.feed hrunning ht hrun (.answer hawaits)

/-! ## Calls that go on -/

/-- A call that is not queued does not wait to go on. -/
theorem not_needs_proceed (hcall : h.calls[c]? = some call)
    (hrun : ∀ cancelled, call.run ≠ .queued cancelled) : ¬h.Needs (.proceed c) := by
  rintro (⟨-, hneeds⟩ | ⟨hother, hneeds⟩)
  · cases hneeds
  · cases hneeds with
    | proceed hqueued =>
      obtain rfl := Option.some.inj (hcall.symm.trans hother)
      exact hrun _ hqueued

/-- A call that is queued waits for nothing else. -/
theorem not_forces (hcall : h.calls[c]? = some call) {cancelled : Bool}
    (hrun : call.run = .queued cancelled) (t : Nat) : ¬h.Forces c t := by
  rintro ⟨other, requested, hother, -, hwaiting⟩
  obtain rfl := Option.some.inj (hcall.symm.trans hother)
  cases hrun.symm.trans hwaiting

theorem not_needs_close (hidle : ∀ call, h.calls[c]? = some call → ∀ cancelled,
    call.run ≠ .waiting cancelled) : ¬h.Needs (.close c) := by
  rintro (⟨-, hneeds⟩ | ⟨hcall, hneeds⟩)
  · cases hneeds
  · cases hneeds with
    | close _ hwaiting => exact hidle _ hcall _ hwaiting

theorem not_needs_taskEnded (hidle : ∀ call, h.calls[c]? = some call → ∀ cancelled,
    call.run ≠ .waiting cancelled) : ¬h.Needs (.taskEnded c) := by
  rintro (⟨-, hneeds⟩ | ⟨hcall, hneeds⟩)
  · cases hneeds
  · cases hneeds with
    | taskEnded _ hwaiting _ _ => exact hidle _ hcall _ hwaiting

theorem Kept.leaveStage (hk : Kept extra fed h) (hcall : h.calls[c]? = some call)
    {cancelled : Bool} (hrun : call.run = .queued cancelled) (stage : Stage) :
    Kept extra fed (h.leaveStage c stage) := by
  have hunwatch : ∀ t, Kept extra fed (h.unwatch t c) := fun t =>
    hk.unwatch (not_forces hcall hrun t)
  cases stage with
  | exit t => exact hunwatch t
  | forced t => exact hunwatch t
  | window t timeout =>
    have hdropped := hk.dropWindow (c := c) (not_needs_close fun other hother b hwaiting => by
      obtain rfl := Option.some.inj (hcall.symm.trans hother)
      cases hrun.symm.trans hwaiting)
    exact hdropped.unwatch (not_forces (h := h.dropWindow c) hcall hrun t)
  | reply t result => exact hk
  | closing t timeout => exact hk
  | join children left => exact hk

/-- A call returns. -/
theorem Kept.finishCall (hk : Kept [.proceed c] none h) (hcall : h.calls[c]? = some call)
    (result : Except Fault CallAnswer) : Kept [] none (h.finishCall c call result) := by
  have hset : Kept [] none (h.setCall c { call with run := .done result }) := by
    refine Kept.drop (j := .proceed c)
      (hk.setCall ((hk.calls c call hcall).rerun nofun) fun j hneeds => ?_) ?_
    · cases hneeds with
      | proceed hrun => cases hrun
      | close _ hrun => cases hrun
      | taskEnded _ hrun _ _ => cases hrun
    · exact not_needs_proceed
        (List.getElem?_set_self (List.getElem?_eq_some_iff.1 hcall).1) nofun
  unfold Host.finishCall
  simp only
  split
  · exact hset.enqueue _
  · exact hset

/-- A call waits for the end of a task, for some time at most. -/
theorem Kept.openWindow (hk : Kept (.close c :: extra) fed h) (hcall : h.calls[c]? = some call)
    {timeout : Number} (hstage : call.stage = .window t timeout) :
    Kept extra fed ((h.setTimer timeout (.close c)).watch t c) := by
  have htimed := hk.repayLater timeout
  refine (htimed.owe (.taskEnded c)).watch ?_
  rintro u ⟨other, cancelled, hother, hforced, -⟩
  obtain rfl := Option.some.inj (hcall.symm.trans hother)
  cases hstage.symm.trans hforced

/-- A task that goes on when the window is over is cancelled. -/
theorem condemned_cancelTask (ht : h.task? t = some task) (hactive : task.run ≠ .active)
    (habsent : task.run ≠ .absent) (hended : task.run ≠ .ended) :
    ∃ task', (h.cancelTask t).1.task? t = some task' ∧ task'.Condemned := by
  unfold Host.cancelTask
  simp only [ht]
  split
  · exact absurd ‹_› habsent
  · exact absurd ‹_› hended
  · exact ⟨_, task?_setTask_self ht _, .inl rfl⟩
  · exact absurd ‹_› hactive
  · exact ⟨_, task?_setTask_self ht _, .inl rfl⟩
  · exact ⟨_, task?_setTask_self ht _, .inl rfl⟩

/-- The window of a call is over, and the task that it stops goes on. -/
theorem Kept.force (hk : Kept [.proceed c] none h) (hrunning : h.running = none)
    (hcall : h.calls[c]? = some call) {timeout : Number} (hstage : call.stage = .window t timeout)
    (hgoing : h.hasEnded t = false) :
    Kept [] none (((h.cancelTask t).1.setCall c
      { call with stage := .forced t, run := .waiting false }).watch t c) := by
  have hsane := hk.calls c call hcall
  have hstopped : call.stopped? = some t := by simp [Call.stopped?, hstage]
  obtain ⟨task, ht, hsupervised⟩ := hsane.stopped t hstopped
  have htask := hk.tasks t task ht
  have hcondemned := condemned_cancelTask ht (fun hactive => by
      cases hrunning.symm.trans (htask.active hactive))
    (fun habsent => by cases hsupervised.symm.trans (htask.absent habsent))
    (fun hended => by simp [hasEnded, ht, hended] at hgoing)
  have hcancelled := (hk.cancelTask t).calls c call (by rw [calls_cancelTask]; exact hcall)
  have hthere : (h.cancelTask t).1.calls[c]? = some call := (calls_cancelTask h t) ▸ hcall
  have hset : Kept [.taskEnded c] none ((h.cancelTask t).1.setCall c
      { call with stage := .forced t, run := .waiting false }) := by
    refine Kept.drop (j := .proceed c) (Kept.setCall
      (((hk.cancelTask t).owe (.taskEnded c)).more ?_) ⟨?_, ?_, ?_, ?_, ?_⟩ fun j hneeds => ?_) ?_
    · intro j hj
      simpa [or_comm] using hj
    · exact fun u w b hclosing => by cases hclosing
    · rintro u hforced
      obtain rfl := Stage.forced.inj hforced
      exact hcondemned
    · rintro u hu
      obtain rfl := Option.some.inj hu
      exact hcancelled.stopped t hstopped
    · exact fun p _ => ⟨t, rfl⟩
    · exact fun children left hjoin => by cases hjoin
    · cases hneeds with
      | proceed hrun => cases hrun
      | close hwindow _ => cases hwindow
      | taskEnded _ _ _ _ => exact .inl (List.mem_cons_of_mem _ List.mem_cons_self)
    · exact not_needs_proceed
        (List.getElem?_set_self (List.getElem?_eq_some_iff.1 hthere).1) nofun
  refine hset.watch ?_
  rintro u ⟨other, cancelled, hother, hforced, -⟩
  rw [show ((h.cancelTask t).1.setCall c _).calls[c]? = some _ from
    List.getElem?_set_self (List.getElem?_eq_some_iff.1 hthere).1] at hother
  obtain rfl := Option.some.inj hother
  exact (Stage.forced.inj hforced).symm

theorem Kept.proceed (hk : Kept [.proceed c] none h) (hrunning : h.running = none) :
    Kept [] none (h.proceed c) := by
  unfold Host.proceed
  cases hcall : h.calls[c]? with
  | none =>
    refine hk.drop ?_
    rintro (⟨-, hneeds⟩ | ⟨hother, hneeds⟩)
    · cases hneeds
    · cases hneeds with
      | proceed _ => cases hcall.symm.trans hother
  | some call =>
    have hlt : c < h.calls.length := (List.getElem?_eq_some_iff.1 hcall).1
    simp only
    split
    · rename_i hrun
      exact hk.drop (not_needs_proceed hcall fun b hqueued => by cases hrun.symm.trans hqueued)
    · rename_i hrun
      exact hk.drop (not_needs_proceed hcall fun b hqueued => by cases hrun.symm.trans hqueued)
    · rename_i hrun
      exact (hk.leaveStage hcall hrun call.stage).finishCall
        ((congrArg (·[c]?) (h.calls_leaveStage c call.stage)).trans hcall) _
    · rename_i hrun
      split
      · exact hk.finishCall hcall _
      · exact hk.finishCall hcall _
      · rename_i t timeout hstage
        have hsupervised := (hk.calls c call hcall).stopped t (by simp [Call.stopped?, hstage])
        have hset : Kept [.close c] none
            (h.setCall c { call with stage := .window t timeout, run := .waiting false }) := by
          refine Kept.drop (j := .proceed c) (Kept.setCall ((hk.owe (.close c)).more ?_)
            (Call.sane_window hsupervised) fun j hneeds => ?_) ?_
          · intro j hj
            simpa [or_comm] using hj
          · cases hneeds with
            | proceed hqueued => cases hqueued
            | close _ _ => exact .inl (List.mem_cons_of_mem _ List.mem_cons_self)
            | taskEnded hforced _ _ _ => cases hforced
          · exact not_needs_proceed (List.getElem?_set_self hlt) nofun
        exact hset.openWindow (List.getElem?_set_self hlt) rfl
      · rename_i t timeout hstage
        have hleft := hk.leaveStage hcall hrun call.stage
        have hthere : (h.leaveStage c call.stage).calls[c]? = some call :=
          (congrArg (·[c]?) (h.calls_leaveStage c call.stage)).trans hcall
        have hrunning' : (h.leaveStage c call.stage).running = none := by
          rw [← hrunning, hstage]
          rfl
        generalize h.leaveStage c call.stage = left at *
        split
        · exact hleft.finishCall hthere _
        · rename_i hgoing
          have hgoing' : left.hasEnded t = false := by simpa using hgoing
          exact (hleft.note _ _ _).force hrunning' hthere hstage hgoing'
      · exact hk.finishCall hcall _
      · exact hk.finishCall hcall _

theorem Kept.release (hk : Kept extra fed h) (c : Nat) : Kept extra fed (h.release c) := by
  unfold Host.release
  split
  · rename_i call hcall
    split
    · exact hk.queueCall hcall _
    · exact hk
  · exact hk

theorem idle_release (h : Host) (c : Nat) : ∀ call, (h.release c).calls[c]? = some call →
    ∀ cancelled, call.run ≠ .waiting cancelled := by
  intro call hcall cancelled hwaiting
  unfold Host.release at hcall
  cases hold : h.calls[c]? with
  | none =>
    simp only [hold] at hcall
    cases hcall
  | some old =>
    simp only [hold] at hcall
    split at hcall
    · have hthere : (h.calls.set c { old with run := .queued _ })[c]? = some call := hcall
      rw [List.getElem?_set_self (List.getElem?_eq_some_iff.1 hold).1] at hthere
      obtain rfl := Option.some.inj hthere
      cases hwaiting
    · rename_i hnot
      obtain rfl := Option.some.inj (hold.symm.trans hcall)
      exact hnot cancelled hwaiting

theorem Kept.joined (hk : Kept extra fed h) (p : Nat) (cancelled : Bool) :
    Kept extra fed (h.joined p cancelled) := by
  unfold Host.joined
  split
  · rename_i call hcall
    split
    · rename_i children left requested hstage hrun
      have hset : Kept extra fed (h.setCall p { call with
          stage := .join children (left - 1), run := .waiting (requested || cancelled) }) := by
        have hsane := hk.calls p call hcall
        have hparent : call.parent = none := by
          cases hparent : call.parent with
          | none => rfl
          | some q =>
            obtain ⟨u, hu⟩ := hsane.guard q hparent
            simp [Call.stopped?, hstage] at hu
        refine hk.setCall (Call.sane_alone hparent rfl ?_) fun j hneeds => ?_
        · rintro children' left' hjoin
          obtain ⟨rfl, -⟩ := Stage.join.inj hjoin
          exact hsane.children _ left hstage
        · obtain ⟨b, hqueued⟩ := hneeds.queued_of_alone rfl
          cases hqueued
      simp only
      split
      · exact hset.release p
      · exact hset
    · exact hk
  · exact hk

/-! ## Supervision -/

/-- A task comes: it is queued, or nobody supervises it and it is not started. -/
theorem Kept.addTask (hk : Kept extra fed h) {new : Task}
    (hrun : (∃ cancelled, new.run = .queued cancelled) ∨
      new.run = .absent ∧ new.supervised = false) (hfree : new.inst.phase.IsFree)
    (hneeds : ∀ j, new.Needs h.tasks.length j → h.Due extra j) :
    Kept extra fed (h.addTask new).1 := by
  have hold : ∀ {t task}, h.task? t = some task → (h.addTask new).1.task? t = some task :=
    fun ht => task?_addTask ht new
  have hheld : new.inst.Held := Instance.held_of_ne fun event payload hphase => by
    rw [hphase] at hfree
    cases hfree
  refine ⟨?_, ?_, ?_, fun c call hcall => ?_⟩
  · rintro j (⟨ht, hj⟩ | ⟨hcall, hj⟩)
    · rcases task?_addTask_eq_some ht with ht | ⟨rfl, rfl⟩
      · exact hk.due j (.task ht hj)
      · exact hneeds j hj
    · cases hj with
      | proceed hqueued => exact hk.due _ (.call hcall (.proceed hqueued))
      | close hstage hwaiting => exact hk.due _ (.call hcall (.close hstage hwaiting))
      | taskEnded hstage hwaiting ht hmissing =>
        obtain ⟨task, ht', -⟩ := (hk.calls _ _ hcall).forced _ hstage
        obtain rfl := Option.some.inj ((hold ht').symm.trans ht)
        exact hk.due _ (.call hcall (.taskEnded hstage hwaiting ht' hmissing))
  · intro t task ht
    rcases task?_addTask_eq_some ht with ht | ⟨rfl, rfl⟩
    · exact hk.tasks t task ht
    · rcases hrun with ⟨cancelled, hqueued⟩ | ⟨habsent, hsupervised⟩
      · exact Task.sane_queued hqueued hheld
      · refine ⟨?_, ?_, ?_, fun _ => hheld, ?_, fun _ => hsupervised⟩ <;> rw [habsent] <;> nofun
  · intro t task ht hfed
    rcases task?_addTask_eq_some ht with ht | ⟨rfl, rfl⟩
    · exact hk.answered t task ht hfed
    · exact .inl hfree
  · obtain ⟨hclosing, hforced, hstopped, hguard, hchildren⟩ := hk.calls c call hcall
    exact ⟨hclosing, fun t hstage => (hforced t hstage).imp fun _ h => ⟨hold h.1, h.2⟩,
      fun t ht => (hstopped t ht).imp fun _ h => ⟨hold h.1, h.2⟩, hguard, hchildren⟩

theorem Kept.spawn (hk : Kept extra fed h) (machine : Machine) (name payload : Value)
    (number : Option Nat) : Kept extra fed (h.spawn machine name payload number).1 := by
  unfold Host.spawn
  simp only
  have howed := hk.owe (.resume h.tasks.length)
  refine Kept.repay (Kept.aside (howed.addTask (.inl ⟨false, rfl⟩) .fresh fun j hneeds => ?_)
    rfl rfl rfl fun _ _ => id)
  cases hneeds with
  | resume _ => exact .inl List.mem_cons_self
  | wake hpaused => cases hpaused

theorem Kept.afterCrash (hk : Kept extra fed h) (task : Task) (fault : Fault) :
    Kept extra fed (h.afterCrash task fault) := by
  have hcounted : ∀ restarts, Kept extra fed { h with restarts := restarts } :=
    fun _ => hk.aside rfl rfl rfl fun _ _ => id
  unfold Host.afterCrash
  simp only
  split
  · exact hk.note _ _ _
  · split
    · exact hk
    · split
      · exact hk.aside rfl rfl rfl fun _ _ => id
      · exact (((hcounted _).note _ _ _).spawn _ _ _ _).enqueue _

theorem Kept.exited (hk : Kept extra fed h) (t : Nat) : Kept extra fed (h.exited t) := by
  unfold Host.exited
  split
  · exact hk
  · rename_i task _
    have hvacated : Kept extra fed (if lookupName h.holders task.inst.name = some t then
        { h with holders := eraseName h.holders task.inst.name } else h) := by
      split
      · exact hk.aside rfl rfl rfl fun _ _ => id
      · exact hk
    simp only
    split
    · exact hvacated.afterCrash task _
    · exact hvacated

/-! ## One step -/

theorem Kept.wakeJob {serial : Nat} (hk : Kept [.wake t serial] none h) :
    Kept [] none (h.wake t serial) := by
  refine (hk.wake t serial).drop ?_
  rintro (⟨ht', hneeds⟩ | ⟨-, hneeds⟩)
  · cases hneeds with
    | wake hpaused =>
      unfold Host.wake at ht'
      cases ht : h.task? t with
      | none =>
        simp only [ht] at ht'
        cases ht'
      | some task =>
        simp only [ht] at ht'
        split at ht'
        · obtain rfl := Option.some.inj ((task?_setTask_self ht _).symm.trans ht')
          cases hpaused
        · rename_i hnot
          obtain rfl := Option.some.inj (ht.symm.trans ht')
          exact hnot hpaused
  · cases hneeds

theorem Kept.runJob (hk : Kept [j] none h) (hrunning : h.running = none) :
    Kept [] none (h.runJob j) := by
  have hmoot : ∀ {j}, (∀ t task, ¬Task.Needs task t j) → (∀ call c, ¬Call.Needs call h c j) →
      ¬h.Needs j := by
    rintro j htask hcall (⟨-, hneeds⟩ | ⟨-, hneeds⟩)
    · exact htask _ _ hneeds
    · exact hcall _ _ hneeds
  cases j with
  | resume t => exact hk.resume hrunning
  | exited t => exact (hk.drop (hmoot (fun _ _ h => by cases h) fun _ _ h => by cases h)).exited t
  | taskEnded c => exact (hk.release c).drop (not_needs_taskEnded (h.idle_release c))
  | proceed c => exact hk.proceed hrunning
  | joined p cancelled =>
    exact (hk.drop (hmoot (fun _ _ h => by cases h) fun _ _ h => by cases h)).joined p cancelled
  | wake t serial => exact hk.wakeJob
  | close c => exact (hk.release c).drop (not_needs_close (h.idle_release c))
  | announce name attempt fault =>
    exact (hk.drop (hmoot (fun _ _ h => by cases h) fun _ _ h => by cases h)).publish _ _

theorem Kept.beginTurn (hk : Kept extra fed h) (hbatch : h.batch = []) :
    Kept extra fed h.beginTurn := by
  refine hk.aside rfl rfl rfl fun j _ hdue => hdue.imp id fun hj => ?_
  have hperm : h.office.timers.Perm ((h.timers.filter h.isDue).map (·.job) ++
      (h.timers.filter fun timer => !h.isDue timer).map (·.job)) := by
    rw [← List.map_append]
    exact (List.filter_append_perm _ _).symm.map _
  have hqueue : h.office.queue = h.ready := by simp [office, hbatch]
  simp only [Office.jobs, hqueue, List.mem_append, hperm.mem_iff] at hj
  simp only [Office.jobs, office, Host.beginTurn, List.append_nil, List.mem_append]
  tauto

theorem Kept.step (hk : Kept [] none h) (hsteady : h.Steady) : Kept [] none h.step := by
  cases hrunning : h.running with
  | some t =>
    rw [step_running hrunning]
    obtain ⟨task, ht, hactive⟩ := hsteady.running t hrunning
    exact hk.runTask hrunning ht hactive
  | none =>
    cases hbatch : h.batch with
    | nil =>
      rw [step_turn hrunning hbatch]
      exact hk.beginTurn hbatch
    | cons j rest =>
      rw [step_job hrunning hbatch]
      refine Kept.runJob ?_ hrunning
      refine hk.aside rfl rfl rfl fun j' _ hdue => ?_
      rcases hdue with hextra | hjobs
      · cases hextra
      · rw [Office.jobs, queue_of_batch hbatch, List.cons_append] at hjobs
        exact (List.mem_cons.1 hjobs).imp List.mem_singleton.2 id

/-! ## Deeds -/

theorem Kept.create (hk : Kept extra fed h) (choice : MachineChoice) (name payload : Value)
    (outlet : Outlet) : Kept extra fed (h.create choice name payload outlet).1 := by
  unfold Host.create
  split
  · exact hk
  · exact hk
  · have hnumber : Kept extra fed h.nextNumber.1 := hk.aside rfl rfl rfl fun _ _ => id
    refine hnumber.addTask (.inr ⟨rfl, rfl⟩) .fresh fun j hneeds => ?_
    cases hneeds with
    | resume hqueued => cases hqueued
    | wake hpaused => cases hpaused

theorem Kept.start (hk : Kept extra fed h) (choice : MachineChoice) (name payload : Value) :
    Kept extra fed (h.start choice name payload).1 := by
  have hfresh : ∀ restarts numbers, Kept extra fed
      ({ h with restarts := restarts, numbers := numbers } : Host) :=
    fun _ _ => hk.aside rfl rfl rfl fun _ _ => id
  unfold Host.start
  split
  · exact hk
  · split
    · exact hk
    · simp only
      split
      · exact hk
      · split
        · exact hfresh _ h.numbers
        · exact (hfresh _ _).spawn _ _ _ _

/-- A call comes that stops no task, and that no shutdown made. -/
theorem Kept.addWaiting (hk : Kept extra fed h) (call : Call) (hparent : call.parent = none)
    (hstopped : call.stopped? = none) (hrun : call.run = .waiting false)
    (hchildren : ∀ children left, call.stage = .join children left → children ≠ []) :
    Kept extra fed (h.addCall call).1 := by
  refine hk.addCall (Call.sane_alone hparent hstopped hchildren) fun j hneeds => ?_
  obtain ⟨b, hqueued⟩ := hneeds.queued_of_alone hstopped
  cases hrun.symm.trans hqueued

theorem Kept.ask (hk : Kept extra fed h) (t : Nat) (question : Question) :
    Kept extra fed (h.ask t question).1 := by
  have hadded := hk.addWaiting ⟨none, .reply t none, .waiting false⟩ rfl rfl rfl nofun
  unfold Host.ask
  simp only
  split
  · rename_i h' hpost
    exact hadded.post hpost
  · refine hadded.setCall (Call.sane_alone rfl rfl nofun) fun j hneeds => ?_
    obtain ⟨b, hqueued⟩ := hneeds.queued_of_alone rfl
    cases hqueued

theorem Kept.query (hk : Kept extra fed h) (name : Value) (kind : String) (argument : Value) :
    Kept extra fed (h.query name kind argument).1 := by
  unfold Host.query
  split
  · exact hk
  · split
    · exact hk
    · exact hk.ask _ _

theorem Kept.wait (hk : Kept extra fed h) (name : Value) : Kept extra fed (h.wait name).1 := by
  unfold Host.wait
  split
  · exact hk
  · split
    · exact hk
    · rename_i t task _
      have hadded := hk.addWaiting ⟨none, .exit t, .waiting false⟩ rfl rfl rfl nofun
      refine (hadded.owe (.taskEnded h.calls.length)).watch ?_
      rintro u ⟨other, cancelled, hother, hforced, -⟩
      obtain rfl := Option.some.inj ((h.call_addCall _).symm.trans hother)
      cases hforced

theorem addCall_setCall (h : Host) (call call' : Call) :
    (h.addCall call).1.setCall h.calls.length call' = (h.addCall call').1 := by
  unfold addCall Host.setCall
  simp

theorem Kept.stop (hk : Kept extra fed h) (hstaffed : h.Staffed) (name : Value)
    (timeout : Option Number) : Kept extra fed (h.stop name timeout).1 := by
  unfold Host.stop
  split
  · exact hk
  · rename_i t hlookup
    split
    · exact hk
    · rename_i h' hpost
      obtain ⟨task, ht, hsupervised⟩ := supervised_of_lookup hstaffed hlookup
      obtain ⟨task', ht', hsupervised'⟩ := supervised_of_post hpost ht
      have hposted := hk.post hpost
      simp only
      generalize timeout.getD h'.settings.shutdownTimeout = window
      unfold Host.openWindow
      simp only
      rw [show ((h'.addCall ⟨none, .closing t window, .waiting false⟩).1.setCall
        (h'.addCall ⟨none, .closing t window, .waiting false⟩).2 _) = _ from
        h'.addCall_setCall _ _]
      refine Kept.openWindow ((hposted.owe _).addCall (Call.sane_window
        ⟨task', ht', hsupervised'.trans hsupervised⟩) fun j hneeds => ?_) (h'.call_addCall _) rfl
      cases hneeds with
      | proceed hqueued => cases hqueued
      | close _ _ => exact .inl List.mem_cons_self
      | taskEnded hforced _ _ _ => cases hforced

theorem Kept.asked (hk : Kept extra fed h) (tasks : List Nat) : Kept extra fed (h.asked tasks) := by
  refine List.foldlRecOn (motive := fun g : Host => Kept extra fed g) _ _ hk fun g hg t _ => ?_
  cases hpost : g.post t .stop with
  | error fault => exact hg
  | ok g' => exact hg.post hpost

theorem addGuards_same (h : Host) (p : Nat) (timeout : Number) (tasks : List Nat) :
    (h.addGuards p timeout tasks).1.tasks = h.tasks ∧
      (h.addGuards p timeout tasks).1.running = h.running := by
  induction tasks generalizing h with
  | nil => exact ⟨rfl, rfl⟩
  | cons t rest ih =>
    exact ih ((h.addCall (Office.guard p timeout t)).1.enqueue (.proceed h.calls.length))

theorem shutdown_same (timeout : Option Number) (hlive : (h.live.map (·.2)).isEmpty = false) :
    (h.shutdown timeout).1.tasks = (h.asked (h.live.map (·.2))).tasks ∧
      (h.shutdown timeout).1.running = (h.asked (h.live.map (·.2))).running := by
  unfold Host.shutdown
  simp only
  rw [if_neg (by rw [hlive]; nofun)]
  exact addGuards_same _ _ _ _

theorem Kept.shutdown (hk : Kept extra fed h) (hstaffed : h.Staffed) (timeout : Option Number) :
    Kept extra fed (h.shutdown timeout).1 := by
  cases hlive : (h.live.map (·.2)).isEmpty with
  | true =>
    unfold Host.shutdown
    simp only [hlive, if_true]
    exact hk
  | false =>
    have htasks : ∀ t ∈ h.live.map (·.2), ∃ task, h.task? t = some task ∧
        task.supervised = true := by
      intro t hmem
      obtain ⟨p, hp, rfl⟩ := List.mem_map.1 hmem
      exact hstaffed p (List.mem_filter.1 hp).1
    have hthere := (Round.asked .refl htasks).2
    obtain ⟨hsame, hrunning⟩ := shutdown_same timeout hlive
    have hoffice := (office_shutdown timeout hlive).2
    have hasked := hk.asked (h.live.map (·.2))
    have hsome : h.live.map (·.2) ≠ [] := fun hnil => by simp [hnil] at hlive
    generalize h.asked (h.live.map (·.2)) = g at *
    generalize h.live.map (·.2) = tasks at *
    generalize timeout.getD g.settings.shutdownTimeout = window at *
    have hcalls : (h.shutdown timeout).1.calls = g.office.calls ++ g.office.family window tasks :=
      congrArg Office.calls hoffice
    have hqueue : (h.shutdown timeout).1.office.queue = g.office.queue ++
        (List.range' (g.office.calls.length + 1) tasks.length).map .proceed :=
      congrArg Office.queue hoffice
    have htimers : (h.shutdown timeout).1.office.timers = g.office.timers := by
      rw [hoffice]
    refine hasked.recall hsame hrunning (fun j hj => ?_) fun c call hcall => ?_
    · simp only [Office.jobs, hqueue, htimers, List.mem_append] at hj ⊢
      tauto
    · rw [hcalls] at hcall
      by_cases hlt : c < g.office.calls.length
      · rw [List.getElem?_append_left hlt] at hcall
        exact .inl hcall
      · rw [List.getElem?_append_right (by omega)] at hcall
        right
        cases hplace : c - g.office.calls.length with
        | zero =>
          rw [hplace] at hcall
          obtain rfl := Option.some.inj hcall
          refine ⟨Call.sane_alone rfl rfl ?_, fun j hneeds => ?_⟩
          · rintro children left hjoin hnil
            obtain ⟨rfl, -⟩ := Stage.join.inj hjoin
            exact hsome (List.length_eq_zero_iff.1 (List.range'_eq_nil_iff.1 hnil))
          · obtain ⟨b, hqueued⟩ := hneeds.queued_of_alone rfl
            cases hqueued
        | succ i =>
          rw [hplace] at hcall
          have hguard : (tasks.map (Office.guard g.office.calls.length window))[i]? = some call := hcall
          rw [List.getElem?_map] at hguard
          obtain ⟨t, ht, rfl⟩ := Option.map_eq_some_iff.1 hguard
          have hi := (List.getElem?_eq_some_iff.1 ht).1
          refine ⟨Call.sane_guard _ window (hthere t (List.mem_of_getElem? ht)), fun j hneeds => ?_⟩
          obtain rfl := hneeds.of_queued rfl
          refine .inr ?_
          rw [Office.jobs, hqueue]
          refine List.mem_append_left _ (List.mem_append_right _ (List.mem_map_of_mem ?_))
          rw [List.mem_range'_1]
          omega

/-! ## Calling off -/

theorem Kept.cancelPlain (hk : Kept extra fed h) (hcall : h.calls[c]? = some call) :
    Kept extra fed (h.cancelPlain c call).1 := by
  unfold Host.cancelPlain
  split
  · exact hk
  · rename_i cancelled hrun
    refine hk.setCall ((hk.calls c call hcall).rerun nofun) fun j hneeds => ?_
    obtain rfl := hneeds.of_queued rfl
    exact hk.due _ (.call hcall (.proceed hrun))
  · simp only
    split
    · rename_i t result hstage
      have habandoned : Kept extra fed (h.updateTask t fun task =>
          { task with inst := task.inst.abandon c }) := by
        cases ht : h.task? t with
        | none => rwa [updateTask_of_none ht]
        | some task =>
          rw [← setTask_eq_updateTask ht fun task => { task with inst := task.inst.abandon c }]
          exact hk.setMailbox ht _
      exact habandoned.queueCall hcall true
    · exact hk.queueCall hcall true

theorem Kept.cancelCall (hk : Kept extra fed h) (c : Nat) : Kept extra fed (h.cancelCall c).1 := by
  unfold Host.cancelCall
  cases hcall : h.calls[c]? with
  | none => exact hk
  | some call =>
    simp only
    split
    · rename_i children left cancelled hstage hrun
      generalize hoff : List.foldl _ (h, false) children = off
      -- If none of the calls that the shutdown made waits, nothing happens to them.
      have hkept : Kept extra fed off.1 ∧ (off.2 = false → off.1 = h) := by
        rw [← hoff]
        exact callOffAll_keeps hk (fun _ _ _ hg hchild => hg.cancelPlain hchild) children
      obtain ⟨g, any⟩ := off
      obtain ⟨hg, hsame⟩ := hkept
      simp only at hg hsame ⊢
      split
      · exact hg
      · rename_i hany
        have hset : h.updateCall c (fun call => { call with run := .waiting true }) =
            h.setCall c { call with run := .waiting true } := by
          unfold Host.updateCall Host.setCall
          rw [List.modify_eq_set_getElem?, hcall]
          rfl
        have hlater : Kept extra fed (h.setCall c { call with run := .waiting true }) := by
          obtain ⟨-, hforced, hstopped, hguard, hchildren⟩ := hk.calls c call hcall
          refine hk.setCall ⟨?_, hforced, hstopped, hguard, hchildren⟩ fun j hneeds => ?_
          · exact fun t timeout b hclosing => by cases hstage.symm.trans hclosing
          · obtain ⟨b, hqueued⟩ := hneeds.queued_of_alone (by simp [Call.stopped?, hstage])
            cases hqueued
        rw [hsame (eq_false_of_ne_true hany), hset]
        exact hlater
    · exact hk.cancelPlain hcall

/-- Whatever happens to a host, nothing that is waited for is forgotten. -/
theorem Kept.act (hk : Kept [] none h) (hsteady : h.Steady) (hstaffed : h.Staffed) (d : Deed) :
    Kept [] none (h.act d) := by
  have haside : ∀ {g : Host}, g.tasks = h.tasks → g.calls = h.calls → g.running = h.running →
      g.office = h.office → Kept [] none g := fun htasks hcalls hrunning hoffice =>
    hk.aside htasks hcalls hrunning fun _ _ hdue => hdue.imp id fun hj => hoffice ▸ hj
  cases d with
  | step => exact hk.step hsteady
  | pass time => exact haside rfl rfl rfl rfl
  | register registry => exact haside rfl rfl rfl rfl
  | subscribe bus => exact haside rfl rfl rfl rfl
  | start choice name payload => exact hk.start choice name payload
  | send s => exact hk.accepting fun _ hsend => hk.send hsend
  | query name kind argument => exact hk.query name kind argument
  | wait name => exact hk.wait name
  | stop name timeout => exact hk.stop hstaffed name timeout
  | shutdown timeout => exact hk.shutdown hstaffed timeout
  | giveUp c => exact hk.cancelCall c
  | create choice name payload outlet => exact hk.create choice name payload outlet
  | startTask t => exact hk.startTask t
  | tell t event payload => exact hk.accepted t _
  | ask t question => exact hk.ask t question
  | requestStop t => exact hk.accepted t _
  | cancel t => exact hk.cancelTask t

theorem kept_opened (settings : Settings) (registry : Registry) (bus : Bus Observer) :
    Kept [] none (opened settings registry bus) := by
  refine ⟨?_, fun t task ht => ?_, fun t task ht => ?_, fun c call hcall => ?_⟩
  · rintro j (⟨ht, -⟩ | ⟨hcall, -⟩)
    · simp [opened, Host.task?] at ht
    · simp [opened] at hcall
  · simp [opened, Host.task?] at ht
  · simp [opened, Host.task?] at ht
  · simp [opened] at hcall

end Host
end Turnstile
