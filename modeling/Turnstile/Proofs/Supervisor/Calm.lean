-- A host at rest that is asked for one thing: what is asked for is done, by one task and in a few
-- steps, and the host is at rest again.
import Turnstile.Proofs.Supervisor.Alone
import Turnstile.Proofs.Supervisor.Settled
import Turnstile.Proofs.Supervisor.Stuck

namespace Turnstile

open Serial

/-- A task that waits at its mailbox, and of whose end nobody but the supervisor is to be told. -/
structure Task.Rests (task : Task) : Prop where
  alive : task.inst.alive = true
  phase : task.inst.phase = .idle
  mailbox : task.inst.mailbox = []
  run : task.run = .receiving
  supervised : task.supervised = true
  watchers : task.watchers = []

/-- A task that waited at its mailbox and has been given a request. -/
def Task.given (task : Task) (r : Request) : Task :=
  { task with inst := { task.inst with mailbox := [r] }, run := .queued false }

theorem Task.Rests.isFree {task : Task} (hrests : task.Rests) (r : Request) :
    (task.given r).inst.phase.IsFree := by
  show task.inst.phase.IsFree
  exact hrests.phase ▸ .idle

namespace Host

variable {h k : Host} {t c : Nat} {task : Task} {name payload : Value} {machine : Machine}

/-! ## At rest again -/

/-- A host at rest, and what has become of all that a request may touch. -/
structure Calm (h k : Host) (tasks : List Task) (holders : List (Value × Nat)) (past : HookPast) :
    Prop where
  stuck : k.IsStuck
  registry : k.registry = h.registry
  bus : k.bus = h.bus
  tasks : k.tasks = tasks
  holders : k.holders = holders
  past : k.past = past

theorem IsStuck.isIdle (hstuck : h.IsStuck) : h.isIdle = true := by
  unfold Host.isIdle
  rw [hstuck.running, hstuck.batch, hstuck.ready, hstuck.timers]
  rfl

/-- The host with a request in the mailbox of a task that waited for one. -/
def posted (h : Host) (t : Nat) (task : Task) (r : Request) : Host :=
  { h with tasks := h.tasks.set t (task.given r), ready := [.resume t] }

theorem post_resting (hstuck : h.IsStuck) (ht : h.task? t = some task) (hrests : task.Rests)
    (r : Request) : h.post t r = .ok (h.posted t task r) := by
  have hpost : task.inst.post r = .ok { task.inst with mailbox := [r] } := by
    unfold Instance.post
    rw [if_pos hrests.alive, hrests.mailbox]
    rfl
  unfold post
  rw [ht]
  simp only [hpost, hrests.run, if_true]
  simp [posted, Task.given, setTask, enqueue, hstuck.ready]

theorem lookup_resting (hkey : name.isKey = true) (hheld : lookupName h.holders name = some t)
    (ht : h.task? t = some task) (hrests : task.Rests) : h.lookup name = .ok t := by
  simp [lookup, hkey, holder?_of_lookup ht hheld, hrests.alive]

theorem lookup_unheld (hkey : name.isKey = true) (hfree : lookupName h.holders name = none) :
    h.lookup name = .error (Instance.missing name) := by
  simp [lookup, holder?, hkey, hfree]

theorem lt_of_task (ht : h.task? t = some task) : t < h.tasks.length :=
  (List.getElem?_eq_some_iff.1 ht).1

theorem turned_of_timers (htimers : h.timers = []) :
    h.turned = { h with batch := [], ready := [], timers := [] } := by
  unfold turned
  simp [htimers]

/-- The supervisor learns of the end of the task that holds a name, when it has not crashed. -/
theorem step_left {rest : List Job} (hrunning : h.running = none)
    (hbatch : h.batch = .exited t :: rest) (ht : h.task? t = some task)
    (hheld : lookupName h.holders task.inst.name = some t)
    (huncrashed : ∀ fault, task.inst.phase ≠ .finished (.failed fault)) :
    h.step = { h with batch := rest, holders := eraseName h.holders task.inst.name } := by
  rw [step_job hrunning hbatch]
  show exited _ t = _
  unfold exited
  have hthere : ({ h with batch := rest } : Host).task? t = some task := ht
  rw [hthere]
  simp only [hheld, if_true]

theorem step_exited {rest : List Job} (hrunning : h.running = none)
    (hbatch : h.batch = .exited t :: rest) (ht : h.task? t = some task)
    (hheld : lookupName h.holders task.inst.name = some t)
    (hphase : task.inst.phase = .finished .returned) :
    h.step = { h with batch := rest, holders := eraseName h.holders task.inst.name } :=
  step_left hrunning hbatch ht hheld fun _ hfailed => nomatch hphase.symm.trans hfailed

theorem exits_alone (hrunning : h.running = none) (hbatch : h.batch = [])
    (hready : h.ready = [.exited t]) (htimers : h.timers = []) (ht : h.task? t = some task)
    (hheld : lookupName h.holders task.inst.name = some t)
    (hphase : task.inst.phase = .finished .returned) : Host.step^[2] h =
      { h with batch := [], ready := [], holders := eraseName h.holders task.inst.name } := by
  have hturn : h.step = { h with batch := [.exited t], ready := [] } :=
    hready ▸ step_ready hrunning hbatch (htimers ▸ List.forall_mem_nil _)
  show h.step.step = _
  rw [hturn]
  exact step_exited (h := { h with batch := [.exited t], ready := [] }) hrunning rfl ht hheld hphase

/-- A task that alone is queued comes, step by step, to where its live instance comes. -/
theorem mirrors_passes {l' : Live} {n : Nat} (hrunning : h.running = none) (hbatch : h.batch = [])
    (hready : h.ready = [.resume t]) (ht : h.task? t = some task) (hrun : task.run = .queued false)
    (hfree : task.inst.phase.IsFree) (htame : h.bus.Tame) (hplain : task.inst.machine.hooks.Plain)
    (hwaiting : task.inst.waiting = [])
    (hpasses : Live.Passes { inst := task.inst, past := h.past } n l') :
    Mirrors h.turned t task l' (Host.step^[n + 2] h) := by
  rw [Function.iterate_add_apply]
  exact (mirrors_queued hrunning hbatch hready ht hrun hfree).passes (lt_of_task ht) htame hplain
    hwaiting hpasses

/-! ## Sending -/

/-- What a host at rest has become when an instance has done with a request for a transition: the
instance rests again, or has ended and its name is free. -/
def Handled (h k : Host) (t : Nat) (task : Task) (turn : Turn) : Prop :=
  (turn.stop = none ∧ ∃ task' : Task, task'.Rests ∧ task'.inst.name = task.inst.name ∧
    task'.inst.machine = task.inst.machine ∧ task'.inst.runState = turn.runState ∧
    Calm h k (h.tasks.set t task') h.holders turn.past) ∨
  turn.stop ≠ none ∧ ∃ task' : Task, Calm h k (h.tasks.set t task')
    (eraseName h.holders task.inst.name)
    ((task.inst.name, .terminate turn.runState) :: turn.past)

/-- A request for a transition is carried out as the interpreter does it. -/
theorem transition_handled (hstuck : h.IsStuck) (htame : h.bus.Tame) (ht : h.task? t = some task)
    (hheld : lookupName h.holders task.inst.name = some t) (hrests : task.Rests)
    (hplain : task.inst.machine.hooks.Plain) (event payload : Value) :
    ∃ n ≤ 10, Handled h (Host.step^[n] (h.posted t task (.transition event payload))) t task
      (serve task.inst.machine task.inst.name task.inst.runState h.past
        (.transition event payload)) := by
  let r : Request := .transition event payload
  let f := h.posted t task r
  have hf : f.task? t = some (task.given r) := List.getElem?_set_self (lt_of_task ht)
  have hlt : t < f.turned.tasks.length := lt_of_task (h := f) hf
  have hturned : f.turned = { f with batch := [], ready := [], timers := [] } :=
    turned_of_timers hstuck.timers
  obtain ⟨n, hn, l', hpasses, hdone⟩ := Live.passes_transition
    (l := { inst := (task.given r).inst, past := f.past }) hrests.phase rfl hrests.alive hplain
  have hmirrors : Mirrors f.turned t (task.given r) l' (Host.step^[n + 2] f) :=
    mirrors_passes hstuck.running hstuck.batch rfl hf rfl (hrests.isFree r) htame hplain rfl hpasses
  rcases hdone.outcome with ⟨hstop, hphase, halive, hstate, hpast⟩ | ⟨hstop, hphase, hpast⟩
  · obtain ⟨answer, events, hwaits⟩ := hmirrors.waits hlt hphase hdone.mailbox
    let rested : Task := { task.given r with inst := l'.inst, answer := answer, run := .receiving }
    refine ⟨n + 2 + 1, by omega, .inl ⟨hstop, rested, ⟨halive, hphase, hdone.mailbox, rfl,
      hrests.supervised, hrests.watchers⟩, hdone.name, hdone.machine, hstate, ?_⟩⟩
    rw [Function.iterate_succ_apply', hwaits, hturned]
    exact ⟨⟨rfl, rfl, rfl, rfl⟩, rfl, rfl, List.set_set _, rfl, hpast⟩
  · obtain ⟨answer, events, hends⟩ := hmirrors.ends hlt hphase hrests.supervised
    rw [← Function.iterate_succ_apply' Host.step] at hends
    let ended : Task :=
      { task.given r with inst := l'.inst, answer := answer, run := .ended, watchers := [] }
    let told : Host := { f.turned.halted t ended l'.past events with ready := [.exited t] }
    have hends : Host.step^[n + 3] f = told := by
      refine hends.trans ?_
      have hnobody : (task.given r).watchers = [] := hrests.watchers
      rw [hnobody]
      rfl
    have hname : ended.inst.name = task.inst.name := hdone.name
    have hout := exits_alone (h := told) rfl (congrArg Host.batch hturned) rfl
      (congrArg Host.timers hturned) (List.getElem?_set_self hlt) (hname ▸ hheld) hphase
    refine ⟨2 + (n + 3), by omega, .inr ⟨hstop, ended, ?_⟩⟩
    rw [Function.iterate_add_apply, hends, hout, hname]
    exact ⟨⟨rfl, rfl, rfl, congrArg Host.timers hturned⟩, rfl, rfl, List.set_set _, rfl, hpast⟩

/-! ## Starting -/

/-- The task of an instance that has just been started. -/
def newcomer (h : Host) (machine : Machine) (name payload : Value) : Task where
  inst := .create machine name payload
  number := some h.numbers
  supervised := true
  outlet := .shared
  run := .queued false

/-- The host with an instance that has just been started. -/
def launched (h : Host) (machine : Machine) (name payload : Value) : Host :=
  { h with
    tasks := h.tasks ++ [h.newcomer machine name payload]
    holders := setName h.holders name h.tasks.length
    restarts := setName h.restarts name []
    ready := [.resume h.tasks.length]
    numbers := h.numbers + 1 }

theorem start_unheld (hstuck : h.IsStuck) {choice : MachineChoice}
    (hchoose : h.choose choice = .ok (.ok machine)) (hkey : name.isKey = true)
    (hfree : lookupName h.holders name = none) (payload : Value) :
    h.start choice name payload = (h.launched machine name payload, .ok h.tasks.length) := by
  have hholder : h.holder? name = none := by simp [holder?, hfree]
  unfold start
  rw [hchoose]
  simp [hkey, hholder, nextNumber, spawn, addTask, enqueue, launched, newcomer, hstuck.ready]

/-- An instance that has just been started comes to its mailbox. -/
theorem launched_rests (hstuck : h.IsStuck) (htame : h.bus.Tame) (hplain : machine.hooks.Plain)
    (name payload : Value) : ∃ task' : Task, task'.Rests ∧ task'.inst.name = name ∧
      task'.inst.machine = machine ∧ task'.inst.runState = ⟨machine.table.initial, payload, []⟩ ∧
      Calm h (Host.step^[5] (h.launched machine name payload)) (h.tasks ++ [task'])
        (setName h.holders name h.tasks.length) h.past := by
  let f := h.launched machine name payload
  have hf : f.task? h.tasks.length = some (h.newcomer machine name payload) :=
    List.getElem?_concat_length
  have hflt : h.tasks.length < f.turned.tasks.length := lt_of_task (h := f) hf
  have hturned : f.turned = { f with batch := [], ready := [], timers := [] } :=
    turned_of_timers hstuck.timers
  obtain ⟨l', hpasses, hinst, hpast⟩ := Live.passes_begin
    (l := { inst := .create machine name payload, past := f.past }) rfl
  have hmirrors : Mirrors f.turned h.tasks.length (h.newcomer machine name payload) l'
      (Host.step^[2 + 2] f) :=
    mirrors_passes hstuck.running hstuck.batch rfl hf rfl .fresh htame hplain rfl hpasses
  obtain ⟨answer, events, hwaits⟩ := hmirrors.waits hflt (by rw [hinst]) (by rw [hinst]; rfl)
  let rested : Task :=
    { h.newcomer machine name payload with inst := l'.inst, answer := answer, run := .receiving }
  have hrested : rested.inst = { Instance.create machine name payload with phase := .idle } := hinst
  refine ⟨rested, ⟨congrArg Instance.alive hrested, congrArg Instance.phase hrested,
    congrArg Instance.mailbox hrested, rfl, rfl, rfl⟩, congrArg Instance.name hrested,
    congrArg Instance.machine hrested, congrArg Instance.runState hrested, ?_⟩
  rw [Function.iterate_succ_apply', hwaits, hturned]
  refine ⟨⟨rfl, rfl, rfl, rfl⟩, rfl, rfl, ?_, rfl, hpast⟩
  show (h.tasks ++ [_]).set h.tasks.length rested = _
  simp

/-! ## Asking -/

/-- The host with one call more, that waits for a task. -/
def calling (h : Host) (stage : Stage) : Host :=
  { h with calls := h.calls ++ [⟨none, stage, .waiting false⟩] }

theorem ask_resting (hstuck : h.IsStuck) (ht : h.task? t = some task) (hrests : task.Rests)
    (question : Question) : h.ask t question =
      ((h.calling (.reply t none)).posted t task (.query h.calls.length question false),
        .later h.calls.length) := by
  have hstuck' : (h.calling (.reply t none)).IsStuck :=
    ⟨hstuck.running, hstuck.batch, hstuck.ready, hstuck.timers⟩
  have hpost := post_resting hstuck' ht hrests (.query h.calls.length question false)
  unfold ask addCall
  simp only [calling] at hpost ⊢
  rw [hpost]

/-- The host in which a call has its answer, and goes on with it in the next turn. -/
def answering (h : Host) (t c : Nat) (answer : Except Fault Answer) : Host :=
  { h with
    calls := h.calls.set c ⟨none, .reply t (some answer), .queued false⟩
    ready := h.ready ++ [.proceed c] }

/-- The effects of a query are lines of the log, and its answer. -/
theorem handle_query (i : Instance) (c : Nat) (question : Question) : ∃ logs,
    (∀ e ∈ logs, e.IsLog) ∧
      i.handle (.query c question false) = (i, logs ++ [.answer c (i.answerTo question)]) := by
  unfold Instance.handle
  simp only [Bool.false_eq_true, if_false]
  refine ⟨_, ?_, rfl⟩
  split
  · exact List.forall_mem_nil _
  · exact List.forall_mem_singleton.2 ⟨_, _, rfl⟩

/-- A running task answers the call that waits for it. -/
theorem moving_answer {past : HookPast} {events : List Event} (ht : t < h.tasks.length)
    (hcall : h.calls[c]? = some ⟨none, .reply t none, .waiting false⟩)
    (answer : Except Fault Answer) : (h.moving t task past events).perform t (.answer c answer) =
      (h.answering t c answer).moving t task past events := by
  have hthere : (h.moving t task past events).calls[c]? =
      some ⟨none, .reply t none, .waiting false⟩ := hcall
  unfold perform
  rw [moving_task ht]
  simp only
  unfold resolve
  rw [hthere]
  rfl

/-- A running task with a query in its mailbox takes it and answers. -/
theorem moving_query (past : HookPast) (events : List Event) {question : Question}
    (ht : t < h.tasks.length) (hphase : task.inst.phase = .idle)
    (hmailbox : task.inst.mailbox = [.query c question false])
    (hcall : h.calls[c]? = some ⟨none, .reply t none, .waiting false⟩) :
    ∃ events', (h.moving t task past events).step =
      (h.answering t c (task.inst.answerTo question)).moving t
        { task with inst := { task.inst with mailbox := [] }, answer := none } past events' := by
  let i : Instance := { task.inst with mailbox := [] }
  obtain ⟨logs, hlogs, hhandle⟩ := handle_query i c question
  have hstep : task.inst.step .receive =
      { task.inst with mailbox := [] }.handle (.query c question false) := by
    unfold Instance.step
    simp only [hphase, hmailbox]
  have hturn : (h.moving t task past events).step =
      (h.moving t task past events).feed t .receive := by
    rw [step_running rfl]
    unfold runTask
    rw [moving_task ht]
    simp only [hphase, hmailbox, List.isEmpty_cons, Bool.false_eq_true, if_false]
  have hset : (h.moving t task past events).setTask t
      { task with inst := i, answer := none, run := .active } =
      h.moving t { task with inst := i, answer := none } past events :=
    moving_setTask { task with inst := i, answer := none }
  obtain ⟨events', hevents⟩ : ∃ events', logs.foldl (fun h e => h.perform t e)
      (h.moving t { task with inst := i, answer := none } past events) =
      h.moving t { task with inst := i, answer := none } past events' := moving_logs ht hlogs events
  refine ⟨events', ?_⟩
  rw [hturn]
  unfold feed
  rw [moving_task ht]
  simp only [hstep.trans hhandle, List.foldl_append, List.foldl_cons, List.foldl_nil]
  rw [hset, hevents]
  exact moving_answer ht hcall _

/-- After four steps the question is answered, and the task waits again. -/
theorem asked_answers (hstuck : h.IsStuck) (ht : h.task? t = some task) (hrests : task.Rests)
    (hcall : h.calls[c]? = some ⟨none, .reply t none, .waiting false⟩) (question : Question) :
    ∃ answer events, Host.step^[4] (h.posted t task (.query c question false)) =
      ((h.posted t task (.query c question false)).turned.answering t c
        (task.inst.answerTo question)).halted t
        { task with inst := { task.inst with mailbox := [] }, answer := answer, run := .receiving }
        h.past events := by
  let r : Request := .query c question false
  let f := h.posted t task r
  have hf : f.task? t = some (task.given r) := List.getElem?_set_self (lt_of_task ht)
  have hlt : t < f.turned.tasks.length := lt_of_task (h := f) hf
  have hidle : (task.given r).inst.phase = .idle := hrests.phase
  have hruns : Host.step^[2] f = f.turned.moving t (task.given r) f.past f.events :=
    runs_queued hstuck.running hstuck.batch rfl hf rfl
  obtain ⟨events, hanswers⟩ := moving_query f.past f.events hlt hidle rfl hcall
  rw [← hruns, ← Function.iterate_succ_apply' Host.step] at hanswers
  let l : Live := { inst := { task.inst with mailbox := [] }, past := h.past }
  have hmirrors : Mirrors (f.turned.answering t c (task.inst.answerTo question)) t (task.given r) l
      (Host.step^[3] f) := ⟨none, events, hanswers, .inl (hidle ▸ .idle)⟩
  obtain ⟨answer, events', hwaits⟩ := hmirrors.waits hlt hidle rfl
  rw [← Function.iterate_succ_apply' Host.step] at hwaits
  exact ⟨answer, events', hwaits⟩

/-- A call that alone is queued goes on in the next turn. -/
theorem proceeds_alone (hrunning : h.running = none) (hbatch : h.batch = [])
    (hready : h.ready = [.proceed c]) (htimers : h.timers = []) :
    Host.step^[2] h = ({ h with batch := [], ready := [] } : Host).proceed c := by
  have hturn : h.step = { h with batch := [.proceed c], ready := [] } :=
    hready ▸ step_ready hrunning hbatch (htimers ▸ List.forall_mem_nil _)
  show h.step.step = _
  rw [hturn]
  exact step_job (h := { h with batch := [.proceed c], ready := [] }) hrunning rfl

/-- A call that was answered returns the answer. -/
theorem proceed_reply {result : Option (Except Fault Answer)}
    (hcall : h.calls[c]? = some ⟨none, .reply t result, .queued false⟩) :
    h.proceed c = { h with calls := h.calls.set c ⟨none, .reply t result,
      .done ((result.getD (.error .cancellation)).map .answer)⟩ } := by
  unfold proceed
  rw [hcall]
  rfl

theorem result_of_set {stage : Stage} {result : Except Fault CallAnswer} {calls : List Call}
    (hcalls : h.calls = calls.set c ⟨none, stage, .done result⟩) (hlt : c < calls.length) :
    h.result? c = some result := by
  unfold result?
  rw [hcalls, List.getElem?_set_self hlt]

/-- A query is answered by what the instance knows, and changes nothing. -/
theorem query_answered (hstuck : h.IsStuck) (ht : h.task? t = some task) (hrests : task.Rests)
    (question : Question) : ∃ f, h.ask t question = (f, .later h.calls.length) ∧
      (Host.step^[6] f).result? h.calls.length =
        some ((task.inst.answerTo question).map .answer) ∧
      ∃ task' : Task, task'.Rests ∧ task'.inst.name = task.inst.name ∧
        task'.inst.machine = task.inst.machine ∧ task'.inst.runState = task.inst.runState ∧
        Calm h (Host.step^[6] f) (h.tasks.set t task') h.holders h.past := by
  let asked := h.calling (.reply t none)
  let f := asked.posted t task (.query h.calls.length question false)
  have hstuck' : asked.IsStuck := ⟨hstuck.running, hstuck.batch, hstuck.ready, hstuck.timers⟩
  have hturned : f.turned = { f with batch := [], ready := [], timers := [] } :=
    turned_of_timers hstuck.timers
  have hlt : h.calls.length < (f.turned.answering t h.calls.length
      (task.inst.answerTo question)).calls.length := by
    simp [f, asked, turned, posted, calling, answering]
  obtain ⟨answer, events, hanswers⟩ :=
    asked_answers (h := asked) hstuck' ht hrests List.getElem?_concat_length question
  let rested : Task :=
    { task with inst := { task.inst with mailbox := [] }, answer := answer, run := .receiving }
  let answered : Host :=
    (f.turned.answering t h.calls.length (task.inst.answerTo question)).halted t rested h.past
      events
  have hcall : answered.calls[h.calls.length]? =
      some ⟨none, .reply t (some (task.inst.answerTo question)), .queued false⟩ :=
    List.getElem?_set_self (by simpa [answering] using hlt)
  have hout := proceeds_alone (h := answered) rfl (congrArg Host.batch hturned) rfl
    (congrArg Host.timers hturned)
  rw [proceed_reply (h := { answered with batch := [], ready := [] }) hcall] at hout
  have hlast : Host.step^[6] f = { answered with
      calls := answered.calls.set h.calls.length ⟨none,
        .reply t (some (task.inst.answerTo question)),
        .done ((task.inst.answerTo question).map .answer)⟩
      batch := [], ready := [] } := (congrArg Host.step^[2] hanswers).trans hout
  refine ⟨f, ask_resting hstuck ht hrests question, ?_, rested, ⟨hrests.alive, hrests.phase, rfl,
    rfl, hrests.supervised, hrests.watchers⟩, rfl, rfl, rfl, ?_⟩
  · rw [hlast]
    exact result_of_set rfl hlt
  · rw [hlast]
    exact ⟨⟨rfl, rfl, rfl, congrArg Host.timers hturned⟩, rfl, rfl, List.set_set _, rfl, rfl⟩

/-! ## Stopping -/

/-- The host in which a call waits, for some time at most, for the end of a task that was asked to
stop. -/
def stopping (h : Host) (t : Nat) (task : Task) (timeout : Number) : Host :=
  { h with
    tasks := h.tasks.set t { task.given .stop with watchers := [h.calls.length] }
    calls := h.calls ++ [⟨none, .window t timeout, .waiting false⟩]
    timers := [⟨h.dueAfter timeout, .close h.calls.length⟩]
    ready := [.resume t] }

theorem stop_resting (hstuck : h.IsStuck) (hkey : name.isKey = true)
    (hheld : lookupName h.holders name = some t) (ht : h.task? t = some task)
    (hrests : task.Rests) (timeout : Option Number) : h.stop name timeout =
      (h.stopping t task (timeout.getD h.settings.shutdownTimeout), .later h.calls.length) := by
  have hlookup := lookup_resting hkey hheld ht hrests
  let window := timeout.getD h.settings.shutdownTimeout
  -- The host just before the end of the task is watched.
  let g : Host := { h.posted t task .stop with
    calls := h.calls ++ [⟨none, .window t window, .waiting false⟩]
    timers := [⟨h.dueAfter window, .close h.calls.length⟩] }
  have hthere : g.task? t = some (task.given .stop) := List.getElem?_set_self (lt_of_task ht)
  have hwatch : g.watch t h.calls.length = h.stopping t task window := by
    unfold watch hasEnded
    rw [hthere]
    simp only [Task.given, reduceCtorEq, decide_false, Bool.false_eq_true, if_false]
    rw [← setTask_eq_updateTask hthere]
    simp [g, setTask, posted, stopping, Task.given, hrests.watchers]
  have hopened : (((h.posted t task .stop).addCall
      ⟨none, .closing t window, .waiting false⟩).1.openWindow h.calls.length
        ⟨none, .closing t window, .waiting false⟩ t window) = g.watch t h.calls.length := by
    unfold openWindow
    simp [addCall, setCall, setTimer, posted, hstuck.timers, insertTimer, g, dueAfter]
  unfold stop
  rw [hlookup]
  simp only [post_resting hstuck ht hrests]
  exact congrArg (·, Returned.later h.calls.length) (hopened.trans hwatch)

/-- The host when a call has returned that waited for the end of a task. -/
def closed (h : Host) (t c : Nat) (task : Task) (timeout : Number) : Host :=
  { h with
    tasks := h.tasks.set t { task with watchers := task.watchers.filter (· ≠ c) }
    calls := h.calls.set c ⟨none, .window t timeout, .done (.ok .nothing)⟩
    batch := []
    ready := []
    timers := [] }

section
variable {parent : Option Nat} {stage : Stage} {cancelled : Bool} {timeout : Number}

theorem release_waiting (hcall : h.calls[c]? = some ⟨parent, stage, .waiting cancelled⟩) :
    h.release c = { h with
      calls := h.calls.set c ⟨parent, stage, .queued cancelled⟩
      ready := h.ready ++ [.proceed c] } := by
  unfold release
  rw [hcall]
  rfl

theorem release_queued (hcall : h.calls[c]? = some ⟨parent, stage, .queued cancelled⟩) :
    h.release c = h := by
  unfold release
  rw [hcall]

/-- A call that is told of the end of a task goes on in the next turn. -/
theorem goes_on (hrunning : h.running = none) (hbatch : h.batch = [.taskEnded c])
    (hready : h.ready = []) (hdue : ∀ timer ∈ h.timers, h.isDue timer = false)
    (hcall : h.calls[c]? = some ⟨parent, stage, .waiting cancelled⟩) : Host.step^[2] h = { h with
      batch := [.proceed c], calls := h.calls.set c ⟨parent, stage, .queued cancelled⟩ } := by
  let released : Host := { h with
    batch := [], ready := [.proceed c]
    calls := h.calls.set c ⟨parent, stage, .queued cancelled⟩ }
  have hrelease : h.step = released := by
    rw [step_job hrunning hbatch]
    show ({ h with batch := [] } : Host).release c = _
    rw [release_waiting (h := { h with batch := [] }) hcall]
    simp only [hready, List.nil_append]
    rfl
  have hturn : released.step = { released with batch := [.proceed c], ready := [] } :=
    step_ready hrunning rfl hdue
  show h.step.step = _
  rw [hrelease, hturn]
  simp only [released, hready]

/-- A call that waited for the end of a task in a window goes on when the task has ended. -/
theorem proceed_window (ht : h.task? t = some task) (hended : task.run = .ended)
    (hcall : h.calls[c]? = some ⟨parent, .window t timeout, .queued false⟩) :
    h.proceed c = Host.finishCall { h with
      tasks := h.tasks.set t { task with watchers := task.watchers.filter (· ≠ c) }
      timers := (h.dropWindow c).timers } c ⟨parent, .window t timeout, .queued false⟩
        (.ok .nothing) := by
  unfold proceed
  rw [hcall]
  have hset : ((h.dropWindow c).unwatch t c) = { h with
      tasks := h.tasks.set t { task with watchers := task.watchers.filter (· ≠ c) }
      timers := (h.dropWindow c).timers } := by
    have hthere : (h.dropWindow c).task? t = some task := ht
    unfold unwatch
    rw [← setTask_eq_updateTask hthere]
    rfl
  simp only [leaveStage, hset]
  have hover : ({ h with
      tasks := h.tasks.set t { task with watchers := task.watchers.filter (· ≠ c) }
      timers := (h.dropWindow c).timers } : Host).hasEnded t = true := by
    unfold hasEnded task?
    simp only [List.getElem?_set_self (lt_of_task ht), hended]
    rfl
  rw [if_pos hover]

section
variable (hrunning : h.running = none) (ht : h.task? t = some task) (hended : task.run = .ended)
include hrunning ht hended

theorem closed_of_proceed (hbatch : h.batch = [.proceed c]) (hready : h.ready = [])
    (htimers : (h.dropWindow c).timers = [])
    (hcall : h.calls[c]? = some ⟨none, .window t timeout, .queued false⟩) :
    h.step = h.closed t c task timeout := by
  rw [step_job hrunning hbatch]
  show ({ h with batch := [] } : Host).proceed c = _
  rw [proceed_window (h := { h with batch := [] }) ht hended hcall]
  have htimers' : (({ h with batch := [] } : Host).dropWindow c).timers = [] := htimers
  rw [htimers']
  simp [closed, finishCall, setCall, hready]

/-- The call is told of the end in time. -/
theorem closed_of_told (hbatch : h.batch = [.taskEnded c]) (hready : h.ready = [])
    (hdue : ∀ timer ∈ h.timers, h.isDue timer = false) (htimers : (h.dropWindow c).timers = [])
    (hcall : h.calls[c]? = some ⟨none, .window t timeout, .waiting false⟩) :
    Host.step^[3] h = h.closed t c task timeout := by
  let queued : Call := ⟨none, .window t timeout, .queued false⟩
  have hclosed := closed_of_proceed
    (h := { h with batch := [.proceed c], calls := h.calls.set c queued }) hrunning ht hended rfl
    hready htimers (List.getElem?_set_self (List.getElem?_eq_some_iff.1 hcall).1)
  show (Host.step^[2] h).step = _
  rw [goes_on hrunning hbatch hready hdue hcall, hclosed]
  simp [closed, queued]

variable (hheld : lookupName h.holders task.inst.name = some t)
  (hphase : task.inst.phase = .finished .returned)
  (hcall : h.calls[c]? = some ⟨none, .window t timeout, .waiting false⟩)
  (hready : h.ready = [.exited t, .taskEnded c])
include hheld hphase hcall hready

/-- The task has ended before the window was over. -/
theorem closed_in_time (hbatch : h.batch = [])
    (hdue : ∀ timer ∈ h.timers, h.isDue timer = false) (htimers : (h.dropWindow c).timers = []) :
    Host.step^[5] h =
      closed { h with holders := eraseName h.holders task.inst.name } t c task timeout := by
  let told : Host := { h with
    batch := [.taskEnded c], ready := [], holders := eraseName h.holders task.inst.name }
  have hturn : h.step = { h with batch := [.exited t, .taskEnded c], ready := [] } :=
    hready ▸ step_ready hrunning hbatch hdue
  have hexit : Host.step { h with batch := [.exited t, .taskEnded c], ready := [] } = told :=
    step_exited (h := { h with batch := [.exited t, .taskEnded c], ready := [] }) hrunning rfl ht
      hheld hphase
  show Host.step^[3] h.step.step = _
  rw [hturn, hexit, closed_of_told (h := told) hrunning ht hended rfl rfl hdue htimers hcall]
  rfl

/-- The window was over at once. -/
theorem closed_late (hbatch : h.batch = [.close c]) (htimers : h.timers = []) :
    Host.step^[5] h =
      closed { h with holders := eraseName h.holders task.inst.name } t c task timeout := by
  let queued : Call := ⟨none, .window t timeout, .queued false⟩
  let released : Host := { h with
    batch := [], ready := [.exited t, .taskEnded c, .proceed c], calls := h.calls.set c queued }
  let told : Host := { released with
    batch := [.taskEnded c, .proceed c], ready := []
    holders := eraseName h.holders task.inst.name }
  have hqueued : (h.calls.set c queued)[c]? = some queued :=
    List.getElem?_set_self (List.getElem?_eq_some_iff.1 hcall).1
  have hrelease : h.step = released := by
    rw [step_job hrunning hbatch]
    show ({ h with batch := [] } : Host).release c = _
    rw [release_waiting (h := { h with batch := [] }) hcall]
    simp only [hready]
    rfl
  have hturn : released.step = { released with
      batch := [.exited t, .taskEnded c, .proceed c], ready := [] } :=
    step_ready hrunning rfl (by simp [released, htimers])
  have hexit : Host.step { released with
      batch := [.exited t, .taskEnded c, .proceed c], ready := [] } = told :=
    step_exited (h := { released with
      batch := [.exited t, .taskEnded c, .proceed c], ready := [] }) hrunning rfl ht hheld hphase
  have hpast : told.step = { told with batch := [.proceed c] } :=
    (step_job (h := told) hrunning rfl).trans
      (release_queued (h := { told with batch := [.proceed c] }) hqueued)
  have hclosed := closed_of_proceed (h := { told with batch := [.proceed c] }) hrunning ht hended
    rfl rfl (by simp [dropWindow, told, released, htimers]) hqueued
  show h.step.step.step.step.step = _
  rw [hrelease, hturn, hexit, hpast, hclosed]
  simp [closed, told, released]

/-- However long the window is, the call returns when the task has ended. -/
theorem closed_of_ended {timer : Timer} (hjob : timer.job = .close c)
    (hbatch : h.batch = ([timer].filter h.isDue).map (·.job))
    (htimers : h.timers = [timer].filter fun timer => !h.isDue timer) : Host.step^[5] h =
      closed { h with holders := eraseName h.holders task.inst.name } t c task timeout := by
  cases hdue : h.isDue timer with
  | false =>
    rw [List.filter_singleton, hdue] at hbatch htimers
    refine closed_in_time hrunning ht hended hheld hphase hcall hready hbatch ?_ ?_
    · rw [htimers]
      exact List.forall_mem_singleton.2 hdue
    · unfold dropWindow
      rw [htimers]
      simp [hjob]
  | true =>
    rw [List.filter_singleton, hdue] at hbatch htimers
    exact closed_late hrunning ht hended hheld hphase hcall hready (hjob ▸ hbatch) htimers

end

end

/-- After six steps the task that was asked to stop has ended, and its end is to be told. -/
theorem stopping_ends (hstuck : h.IsStuck) (htame : h.bus.Tame) (ht : h.task? t = some task)
    (hrests : task.Rests) (hplain : task.inst.machine.hooks.Plain) (timeout : Number) :
    ∃ (ended : Task) (events : List Event), ended.run = .ended ∧
      ended.inst.name = task.inst.name ∧ ended.inst.phase = .finished .returned ∧
      Host.step^[6] (h.stopping t task timeout) =
        { (h.stopping t task timeout).turned.halted t ended
            ((task.inst.name, .terminate task.inst.runState) :: h.past) events with
          ready := [.exited t, .taskEnded h.calls.length] } := by
  let f := h.stopping t task timeout
  let queued : Task := { task.given .stop with watchers := [h.calls.length] }
  have hf : f.task? t = some queued := List.getElem?_set_self (lt_of_task ht)
  obtain ⟨l', hpasses, hdone⟩ := Live.passes_stop
    (l := { inst := queued.inst, past := f.past }) hrests.phase rfl hrests.alive hplain
  have hmirrors : Mirrors f.turned t queued l' (Host.step^[3 + 2] f) :=
    mirrors_passes hstuck.running hstuck.batch rfl hf rfl (hrests.isFree .stop) htame hplain rfl
      hpasses
  obtain ⟨-, hphase, hpast⟩ := hdone.outcome.resolve_left fun hstays => nomatch hstays.1
  obtain ⟨answer, events, hends⟩ :=
    hmirrors.ends (lt_of_task (h := f) hf) hphase hrests.supervised
  rw [← Function.iterate_succ_apply' Host.step, hpast] at hends
  exact ⟨{ queued with inst := l'.inst, answer := answer, run := .ended, watchers := [] }, events,
    rfl, hdone.name, hphase, hends⟩

/-- An instance that is asked to stop ends, its name is free, and whoever stopped it goes on,
whatever the window is. -/
theorem stop_answered (hstuck : h.IsStuck) (htame : h.bus.Tame) (ht : h.task? t = some task)
    (hheld : lookupName h.holders task.inst.name = some t) (hkey : task.inst.name.isKey = true)
    (hrests : task.Rests) (hplain : task.inst.machine.hooks.Plain) (timeout : Option Number) :
    ∃ f, h.stop task.inst.name timeout = (f, .later h.calls.length) ∧
      (Host.step^[11] f).result? h.calls.length = some (.ok .nothing) ∧
      ∃ task' : Task, Calm h (Host.step^[11] f) (h.tasks.set t task')
        (eraseName h.holders task.inst.name)
        ((task.inst.name, .terminate task.inst.runState) :: h.past) := by
  let window := timeout.getD h.settings.shutdownTimeout
  let f := h.stopping t task window
  obtain ⟨ended, events, hended, hname, hphase, hends⟩ :=
    stopping_ends hstuck htame ht hrests hplain window
  let k : Host := { f.turned.halted t ended
      ((task.inst.name, .terminate task.inst.runState) :: h.past) events with
    ready := [.exited t, .taskEnded h.calls.length] }
  have hthere : k.task? t = some ended :=
    List.getElem?_set_self (by simpa [f, turned, stopping] using lt_of_task ht)
  have hjob : Timer.job ⟨h.dueAfter window, .close h.calls.length⟩ = .close h.calls.length := rfl
  have hclosed : Host.step^[5] k = closed { k with
      holders := eraseName h.holders ended.inst.name } t h.calls.length ended window :=
    closed_of_ended (h := k) rfl hthere hended (hname ▸ hheld) hphase
      List.getElem?_concat_length rfl hjob rfl rfl
  have hlast : Host.step^[11] f = closed { k with
      holders := eraseName h.holders ended.inst.name } t h.calls.length ended window :=
    (congrArg Host.step^[5] hends).trans hclosed
  refine ⟨f, stop_resting hstuck hkey hheld ht hrests timeout, ?_,
    { ended with watchers := ended.watchers.filter (· ≠ h.calls.length) }, ?_⟩
  · rw [hlast]
    exact result_of_set rfl (by simp [k, halted, turned, f, stopping])
  · rw [hlast, hname]
    refine ⟨⟨rfl, rfl, rfl, rfl⟩, rfl, rfl, ?_, rfl, rfl⟩
    show ((h.tasks.set t _).set t _).set t _ = _
    rw [List.set_set, List.set_set]

end Host
end Turnstile
