-- A host with a single instance, of a table without hooks, and with one caller. The caller sends events
-- and asks for the run state behind them: it is told where the table leads, or that the instance is
-- gone, and goes on at once.
import Turnstile.Proofs.Supervisor.Calm
import Turnstile.Proofs.Supervisor.Lineage
import Turnstile.Proofs.Supervisor.Lone

namespace Turnstile

open Serial

/-- Whoever has stopped has a reason. -/
theorem Instance.Accounted.reasoned {i : Instance} (h : i.Accounted) (hstopped : i.alive = false) :
    i.stopReason ≠ none := by
  cases h with
  | idle hphase halive hreason hcrash => cases hstopped.symm.trans halive
  | bears hbears =>
    rename_i cause
    cases cause with
    | none => cases hstopped.symm.trans hbears.alive
    | some cause => simp [hbears.stopReason]

/-- A task with one request more in its mailbox, that waits for its turn. -/
def Task.lined (task : Task) (r : Request) : Task :=
  { task with
    inst := { task.inst with mailbox := task.inst.mailbox ++ [r] }
    run := .queued false }

/-- What is left to do for a task, of the only instance, that has stopped running: if it has ended, its
supervisor is to learn of it. -/
def Task.tidings (task : Task) : List Job := if task.run = .ended then [.exited 0] else []

/-- The live instance of a task that is to answer what its mailbox leads to. -/
def Task.asked (task : Task) (c : Nat) (past : HookPast) : Live :=
  { inst := (task.lined (.query c .state false)).inst, past := past }

/-- The task of an instance that was asked for its run state has walked along the table, and waits at
its mailbox, or it has ended. -/
structure Task.Walked (task task' : Task) (walked : RunState × Bool) : Prop where
  machine : task'.inst.machine = task.inst.machine
  named : task'.inst.name = task.inst.name
  supervised : task'.supervised = task.supervised
  watchers : task'.watchers = task.watchers
  runState : task'.inst.runState = walked.1
  outcome : walked.2 = false ∧ task'.run = .receiving ∧ task'.inst.alive = true ∧
      task'.inst.phase = .idle ∧ task'.inst.mailbox = [] ∨
    task'.run = .ended ∧ task'.inst.alive = false ∧
      task'.inst.stopReason = if walked.2 then some .terminal else none

namespace Host

variable {h : Host} {typeName name : String} {t : Table} {task : Task} {c : Nat}

/-! ## A single instance -/

/-- The task of an instance of a table without hooks is the only one, its name is the only one that is
held, and nobody has subscribed to anything. -/
structure Single (h : Host) (typeName : String) (t : Table) (name : String) (task : Task) : Prop where
  machine : task.inst.machine = .ofTable typeName t {}
  named : task.inst.name = .text name
  supervised : task.supervised = true
  watchers : task.watchers = []
  tasks : h.tasks = [task]
  holders : h.holders = [(.text name, 0)]
  bus : h.bus = {}
  running : h.running = none
  timers : h.timers = []

/-- The only instance is alive, and either waits at its mailbox or has been sent events and will get its
turn; nothing else is left to do. -/
structure Poised (h : Host) (typeName : String) (t : Table) (name : String) (task : Task) : Prop
    extends h.Single typeName t name task where
  batch : h.batch = []
  alive : task.inst.alive = true
  sends : ∀ r ∈ task.inst.mailbox, r.Sends
  waits : task.run = .queued false ∧ h.ready = [.resume 0] ∧
      (task.inst.phase = .fresh ∨ task.inst.phase = .idle) ∨
    task.run = .receiving ∧ h.ready = [] ∧ task.inst.phase = .idle ∧ task.inst.mailbox = []

/-- The only instance has left the diagram, and the supervisor is to learn of it next. -/
structure Gone (h : Host) (typeName : String) (t : Table) (name : String) (task : Task) : Prop
    extends h.Single typeName t name task where
  batch : h.batch = [.exited 0]
  ready : h.ready = []
  ended : task.run = .ended
  stopped : task.inst.alive = false
  reason : task.inst.stopReason = some .terminal
  uncrashed : ∀ fault, task.inst.phase ≠ .finished (.failed fault)

theorem Single.there (hsingle : h.Single typeName t name task) : h.task? 0 = some task := by
  unfold task?
  rw [hsingle.tasks]
  rfl

theorem Single.held (hsingle : h.Single typeName t name task) :
    lookupName h.holders (.text name) = some 0 := by
  rw [hsingle.holders]
  simp [lookupName, Value.same]

theorem Single.holder (hsingle : h.Single typeName t name task) :
    h.holder? (.text name) = some (0, task) := holder?_of_lookup hsingle.there hsingle.held

theorem Poised.lookup (hpoised : h.Poised typeName t name task) :
    h.lookup (.text name) = .ok 0 := by
  unfold Host.lookup
  rw [hpoised.toSingle.holder]
  simp [hpoised.alive, Value.isKey]

/-! ## Sending -/

/-- The host with one request more in the mailbox of the only instance, which will get its turn. -/
def lining (h : Host) (task : Task) (r : Request) : Host :=
  { h with tasks := [task.lined r], ready := [.resume 0] }

theorem Poised.post (hpoised : h.Poised typeName t name task) (r : Request) :
    h.post 0 r = .ok (h.lining task r) := by
  have hpost : task.inst.post r =
      .ok { task.inst with mailbox := task.inst.mailbox ++ [r] } := by
    unfold Instance.post
    rw [if_pos hpoised.alive]
  unfold Host.post
  rw [hpoised.toSingle.there]
  simp only [hpost]
  rcases hpoised.waits with ⟨hrun, hready, -⟩ | ⟨hrun, hready, -⟩
  · rw [hrun, if_neg nofun]
    unfold setTask Host.lining Task.lined
    rw [hpoised.tasks, ← hready]
    rfl
  · rw [hrun, if_pos rfl]
    unfold setTask enqueue Host.lining Task.lined
    rw [hpoised.tasks, hready]
    rfl

theorem Poised.lining (hpoised : h.Poised typeName t name task) {r : Request} (hsends : r.Sends) :
    (h.lining task r).Poised typeName t name (task.lined r) where
  machine := hpoised.machine
  named := hpoised.named
  supervised := hpoised.supervised
  watchers := hpoised.watchers
  tasks := rfl
  holders := hpoised.holders
  bus := hpoised.bus
  running := hpoised.running
  timers := hpoised.timers
  batch := hpoised.batch
  alive := hpoised.alive
  sends q hq := by
    rcases List.mem_append.1 hq with hq | hq
    · exact hpoised.sends q hq
    · exact List.mem_singleton.1 hq ▸ hsends
  waits := .inl ⟨rfl, rfl, hpoised.waits.elim (fun hqueued => hqueued.2.2)
    fun hrests => .inr hrests.2.2.1⟩

/-! ## Asking -/

/-- The host in which the caller has asked for the run state, and waits. -/
def asking (h : Host) (task : Task) : Host :=
  (h.calling (.reply 0 none)).lining task (.query h.calls.length .state false)

theorem Poised.query (hpoised : h.Poised typeName t name task) :
    h.query (.text name) "state" .null = (h.asking task, .later h.calls.length) := by
  have hcalling : (h.calling (.reply 0 none)).Poised typeName t name task :=
    ⟨⟨hpoised.machine, hpoised.named, hpoised.supervised, hpoised.watchers, hpoised.tasks,
      hpoised.holders, hpoised.bus, hpoised.running, hpoised.timers⟩, hpoised.batch, hpoised.alive,
      hpoised.sends, hpoised.waits⟩
  have hpost := hcalling.post (.query h.calls.length .state false)
  unfold Host.query
  rw [hpoised.lookup]
  unfold ask addCall
  simp only [Question.ofKind]
  simp only [calling] at hpost
  rw [hpost]
  rfl

/-- The host with the only task elsewhere, and with one call more, which has its answer. -/
def informed (h : Host) (task : Task) (past : HookPast) (events : List Event)
    (answer : Except Fault Answer) (run : CallRun) (batch ready : List Job) : Host :=
  { h with
    tasks := [task]
    calls := h.calls ++ [⟨none, .reply 0 (some answer), run⟩]
    timers := []
    batch := batch
    ready := ready
    running := none
    past := past
    events := events }

section
variable {past : HookPast} {events : List Event} {answer : Except Fault Answer}

theorem informed_call (run : CallRun) (batch ready : List Job) :
    (h.informed task past events answer run batch ready).calls[h.calls.length]? =
      some ⟨none, .reply 0 (some answer), run⟩ := List.getElem?_concat_length

/-- The caller takes the answer in the next turn, and goes on before anything else is done. -/
theorem informed_steps (h : Host) (task : Task) (past : HookPast) (events : List Event)
    (answer : Except Fault Answer) (left : List Job) :
    let asked := h.informed task past events answer (.queued false) []
      (.proceed h.calls.length :: left)
    let told := h.informed task past events answer (.done (answer.map .answer)) left []
    Host.step^[2] asked = told ∧ (Host.step asked).result? h.calls.length = none ∧
      told.result? h.calls.length = some (answer.map .answer) := by
  intro asked told
  let turned := h.informed task past events answer (.queued false) (.proceed h.calls.length :: left)
    []
  have hturn : asked.step = turned := step_ready rfl rfl (List.forall_mem_nil _)
  have hcall : (h.informed task past events answer (.queued false) left []).calls[h.calls.length]? =
      some ⟨none, .reply 0 (some answer), .queued false⟩ := informed_call ..
  have hproceed : turned.step = told := by
    refine (step_job (h := turned) rfl rfl).trans ?_
    show (h.informed task past events answer (.queued false) left []).proceed h.calls.length = told
    rw [proceed_reply hcall]
    simp [informed, told]
  refine ⟨?_, ?_, ?_⟩
  · show asked.step.step = told
    rw [hturn, hproceed]
  · rw [hturn]
    unfold result?
    rw [informed_call]
  · unfold result?
    rw [informed_call]

end

/-! ## Being told -/

/-- What somebody is told who has asked for the run state. -/
def reading (name : String) (walked : RunState × Bool) : Except Fault RunState :=
  if walked.2 then .error (Instance.missing (.text name)) else .ok walked.1

theorem reading_of_stays {walked : RunState × Bool} (hstays : walked.2 = false) :
    reading name walked = .ok walked.1 := if_neg (by simp [hstays])

theorem reading_of_leaves {walked : RunState × Bool} (hleaves : walked.2 = true) :
    reading name walked = .error (Instance.missing (.text name)) := if_pos hleaves

/-- The call that waits for the answer gets it. -/
theorem asking_answered (hpoised : h.Poised typeName t name task) (answer : Except Fault Answer) :
    (h.asking task).turned.answered [(h.calls.length, answer)] =
      { h.asking task with
        calls := h.calls ++ [⟨none, .reply 0 (some answer), .queued false⟩]
        timers := []
        batch := []
        ready := [.proceed h.calls.length] } := by
  have hturned : (h.asking task).turned =
      { h.asking task with batch := [], ready := [], timers := [] } :=
    turned_of_timers hpoised.timers
  have hcall : (h.asking task).turned.calls[h.calls.length]? =
      some ⟨none, .reply 0 none, .waiting false⟩ := List.getElem?_concat_length
  show (h.asking task).turned.resolve h.calls.length answer = _
  unfold resolve
  rw [hcall, hturned]
  simp [asking, lining, calling, setCall, enqueue]

/-- The host goes on as the live instance does that was asked, and that comes to rest. -/
theorem Poised.echoes (hpoised : h.Poised typeName t name task)
    (hfew : task.inst.mailbox.length ≤ 1) :
    ∃ n ≤ 14, ∃ l', Live.Served (task.asked h.calls.length h.past) l'
        (serveAll (.ofTable typeName t {}) (.text name) task.inst.runState h.past
          (task.inst.mailbox ++ [.query h.calls.length .state false])) ∧
      Echoes (h.asking task).turned 0 (task.lined (.query h.calls.length .state false)) l'
        (Host.step^[n] (h.asking task)) := by
  let f := h.asking task
  let queued := task.lined (.query h.calls.length .state false)
  let l := task.asked h.calls.length h.past
  have hphase : l.inst.phase = .fresh ∨ l.inst.phase = .idle :=
    hpoised.waits.elim (fun hqueued => hqueued.2.2) fun hrests => .inr hrests.2.2.1
  have hfree : l.inst.phase.IsFree :=
    hphase.elim (fun hfresh => hfresh ▸ .fresh) fun hidle => hidle ▸ .idle
  have hmachine : l.inst.machine = .ofTable typeName t {} := hpoised.machine
  have hname : l.inst.name = .text name := hpoised.named
  obtain ⟨n, hn, l', hpasses, hserved⟩ := Live.passes_served
    (Live.noted_of_asked (l := l) hpoised.sends rfl) rfl hphase hpoised.alive
    (hmachine ▸ Live.defaults_neverCancel typeName t)
  rw [hmachine, hname] at hserved
  have hbound : n ≤ 12 := by
    have hlength : l.inst.mailbox.length = task.inst.mailbox.length + 1 := List.length_append
    have hrank : l.inst.phase.rank ≤ 2 := by rcases hphase with h | h <;> simp [h, Phase.rank]
    unfold Instance.rank at hn
    omega
  have hruns : Host.step^[2] f = f.turned.moving 0 queued f.past f.events :=
    runs_queued (h := f) hpoised.running hpoised.batch rfl rfl rfl
  refine ⟨n + 2, by omega, l', hserved, ?_⟩
  rw [Function.iterate_add_apply]
  refine Echoes.passes ?_ Nat.zero_lt_one hpoised.bus (hmachine ▸ silent_defaults typeName t) hpasses
  rw [hruns]
  exact ⟨queued.answer, f.events, rfl, rfl, .inl hfree⟩

/-- The instance comes to rest where the events lead that were sent, and the call gets its answer. -/
theorem Poised.informs (hpoised : h.Poised typeName t name task)
    (hfew : task.inst.mailbox.length ≤ 1) :
    let walked := t.walk task.inst.runState (task.inst.mailbox.filterMap Request.event?)
    ∃ n ≤ 15, ∃ task' past events, task.Walked task' walked ∧
      linesOf events = linesOf h.events ∧
      Host.step^[n] (h.asking task) = h.informed task' past events
        ((reading name walked).map .state) (.queued false) []
        (.proceed h.calls.length :: task'.tidings) := by
  intro walked
  let queued := task.lined (.query h.calls.length .state false)
  obtain ⟨n, hn, l', hserved, hechoes⟩ := hpoised.echoes hfew
  obtain ⟨hwalk, hwhy, htold⟩ := asked_walks (.text name) task.inst.runState h.past typeName t
    hpoised.sends h.calls.length
  have hrunState : l'.inst.runState = walked.1 := hserved.runState.trans hwalk
  have hstop := hserved.stop.trans hwhy
  have hreplies : replies l'.seen = [(h.calls.length, (reading name walked).map .state)] := by
    rw [hserved.replies, htold]
    show [(h.calls.length, if walked.2 then _ else _)] = _
    unfold reading
    split <;> rfl
  have hanswered := asking_answered hpoised ((reading name walked).map .state)
  rw [← hreplies] at hanswered
  have hlt : 0 < (h.asking task).turned.tasks.length := Nat.zero_lt_one
  rcases hserved.rest with ⟨hphase, hmailbox⟩ | ⟨ending, hphase⟩
  · obtain ⟨answer, events, hlines, hwaits⟩ := hechoes.waits hlt hphase hmailbox
    have halive : l'.inst.alive = true := by
      have hstands := hserved.stands
      unfold Live.Stands at hstands
      rwa [hphase] at hstands
    have hstays : walked.2 = false := by
      rw [hphase] at hstop
      by_contra hleft
      rw [Bool.not_eq_false] at hleft
      rw [if_pos hleft] at hstop
      cases hstop
    refine ⟨n + 1, by omega, { queued with inst := l'.inst, answer := answer, run := .receiving },
      l'.past, events, ⟨hserved.machine, hserved.name, rfl, rfl, hrunState,
        .inl ⟨hstays, rfl, halive, hphase, hmailbox⟩⟩, hlines, ?_⟩
    rw [Function.iterate_succ_apply', hwaits, hanswered]
    rfl
  · obtain ⟨answer, events, hlines, hends⟩ :=
      hechoes.ends hlt hphase hpoised.supervised hpoised.watchers
    obtain ⟨hstopped, -⟩ : l'.inst.alive = false ∧ l'.inst.mailbox = [] := by
      have hstands := hserved.stands
      unfold Live.Stands at hstands
      rwa [hphase] at hstands
    have hreason : l'.inst.stopReason = if walked.2 then some .terminal else none := by
      rwa [hphase] at hstop
    refine ⟨n + 1, by omega, { queued with inst := l'.inst, answer := answer, run := .ended },
      l'.past, events, ⟨hserved.machine, hserved.name, rfl, rfl, hrunState,
        .inr ⟨rfl, hstopped, hreason⟩⟩, hlines, ?_⟩
    rw [Function.iterate_succ_apply', hends, hanswered]
    rfl

theorem Leads.of_act {h₀ h' : Host} (hleads : h₀.Leads h) {d : Deed} (hact : h.act d = h') :
    h₀.Leads h' := hact ▸ hleads.act d

theorem Leads.steps {h₀ : Host} (hleads : h₀.Leads h) (n : Nat) : h₀.Leads (Host.step^[n] h) := by
  obtain ⟨deeds, rfl⟩ := hleads
  rw [iterate_step]
  exact ⟨deeds ++ List.replicate n .step, (h₀.after_append ..).symm⟩

theorem Leads.grown {settings : Settings} {registry : Registry} {bus : Bus Observer}
    (hleads : (opened settings registry bus).Leads h) : h.Grown := by
  obtain ⟨deeds, rfl⟩ := hleads
  exact grown_after settings registry bus deeds

/-- The task of the only instance is in place of the one that was. -/
theorem Single.informed {task' : Task} (hsingle : h.Single typeName t name task)
    {walked : RunState × Bool} (hwalked : task.Walked task' walked) (past : HookPast)
    (events : List Event) (answer : Except Fault Answer) (run : CallRun) (batch ready : List Job) :
    (h.informed task' past events answer run batch ready).Single typeName t name task' where
  machine := hwalked.machine.trans hsingle.machine
  named := hwalked.named.trans hsingle.named
  supervised := hwalked.supervised.trans hsingle.supervised
  watchers := hwalked.watchers.trans hsingle.watchers
  tasks := rfl
  holders := hsingle.holders
  bus := hsingle.bus
  running := rfl
  timers := rfl

/-- The only instance is in the run state to which the events led that it was sent, or it has left the
diagram with one of them. -/
def Led (k : Host) (typeName : String) (t : Table) (name : String) (walked : RunState × Bool) : Prop :=
  ∃ task, walked.2 = false ∧ k.Poised typeName t name task ∧ task.inst.mailbox = [] ∧
      task.inst.runState = walked.1 ∨
    walked.2 = true ∧ k.Gone typeName t name task

theorem Single.led {k : Host} {task' : Task} {walked : RunState × Bool}
    (hsingle : k.Single typeName t name task') (hwalked : task.Walked task' walked)
    (hgrown : k.Grown) (hbatch : k.batch = task'.tidings) (hready : k.ready = []) :
    k.Led typeName t name walked := by
  refine ⟨task', ?_⟩
  rcases hwalked.outcome with ⟨hstays, hrun, halive, hphase, hmailbox⟩ | ⟨hrun, hstopped, hstop⟩
  · have hnone : k.batch = [] := hbatch.trans (if_neg (by simp [hrun]))
    exact .inl ⟨hstays, ⟨hsingle, hnone, halive, by simp [hmailbox],
      .inr ⟨hrun, hready, hphase, hmailbox⟩⟩, hmailbox, hwalked.runState⟩
  · have haccounted := hgrown.accounted 0 task' hsingle.there
    have hleaves : walked.2 = true := by
      by_contra hstays
      rw [if_neg hstays] at hstop
      exact haccounted.reasoned hstopped hstop
    rw [if_pos hleaves] at hstop
    refine .inr ⟨hleaves, hsingle, hbatch.trans (if_pos hrun), hready, hrun, hstopped, hstop,
      fun fault hphase => ?_⟩
    obtain ⟨-, hcrash⟩ := (hgrown.honest 0 task' hsingle.there).blamed.crashed haccounted hphase
    cases hcrash.symm.trans hstop

theorem stateOf_of_await {f k : Host} {n : Value} {result : Except Fault RunState}
    (hquery : h.query n "state" .null = (f, .later c))
    (hawait : await (f, .later c) = (k, (result.map .state).map .answer)) :
    h.stateOf n = (k, result) := by
  unfold Host.stateOf
  rw [hquery, hawait]
  cases result <;> rfl

/-- Whoever asks for the run state is told where the events lead that were sent, or that the instance
is gone; and nothing is written. -/
theorem Poised.stateOf {settings : Settings} {registry : Registry}
    (hpoised : h.Poised typeName t name task) (hfew : task.inst.mailbox.length ≤ 1)
    (hleads : (opened settings registry {}).Leads h) :
    let walked := t.walk task.inst.runState (task.inst.mailbox.filterMap Request.event?)
    ∃ k, h.stateOf (.text name) = (k, reading name walked) ∧ k.lines = h.lines ∧
      (opened settings registry {}).Leads k ∧ k.Led typeName t name walked ∧
      ∀ task ∈ k.tasks, task.run ≠ .queued false := by
  intro walked
  obtain ⟨n, hn, task', past, events, hwalked, hlines, hinformed⟩ := hpoised.informs hfew
  let answer := (reading name walked).map Answer.state
  let told := h.informed task' past events answer (.done (answer.map .answer)) task'.tidings []
  obtain ⟨hsteps, hnone, hresult⟩ := informed_steps h task' past events answer task'.tidings
  have hasked : (opened settings registry {}).Leads (h.asking task) :=
    @Leads.of_act _ _ _ hleads (.query (.text name) "state" .null) (congrArg Prod.fst hpoised.query)
  have htold : (opened settings registry {}).Leads told := by
    have hon := (hasked.steps n).steps 2
    rwa [hinformed, hsteps] at hon
  have hawait : await (h.asking task, .later h.calls.length) = (told, answer.map .answer) := by
    have hlater := hasked.grown.attended.await_later (n := 1) hinformed hnone (hsteps ▸ hresult)
      (by omega)
    exact hlater.trans (by rw [hsteps])
  refine ⟨told, ?_, ?_, htold, ?_, ?_⟩
  · exact stateOf_of_await hpoised.query hawait
  · rw [lines_eq_linesOf, lines_eq_linesOf]
    exact hlines
  · exact (hpoised.toSingle.informed hwalked past events _ _ _ []).led hwalked htold.grown rfl rfl
  · refine List.forall_mem_singleton.2 fun hqueued => ?_
    rcases hwalked.outcome with ⟨-, hrun, -⟩ | ⟨hrun, -⟩ <;> cases hqueued.symm.trans hrun

end Host
end Turnstile
