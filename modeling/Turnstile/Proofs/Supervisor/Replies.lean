-- Questions are answered once: in their turn, or, when the instance stops, before its terminate
-- hook is called. Asking, answering and giving up leave all else as it was.
import Turnstile.Proofs.Instance.Entered
import Turnstile.Proofs.Supervisor.Noticed
import Turnstile.Proofs.Supervisor.Served

namespace Turnstile

/-- All of an instance but its mailbox. -/
def Instance.emptied (i : Instance) : Instance := { i with mailbox := [] }

def HookCall.isTerminate : HookCall → Bool
  | .terminate _ => true
  | .transition _ | .failure _ => false

namespace Host

variable {h h' : Host} {t u c : Nat} {task : Task} {result : Option (Except Fault Answer)}

/-- A call waits for the answer of the instance of a task. -/
def Waits (h : Host) (c t : Nat) : Prop :=
  ∃ parent cancelled, h.calls[c]? = some ⟨parent, .reply t none, .waiting cancelled⟩

/-- A call that has asked the instance of a task waits no longer. Its answer is there, or there will
be none, since the caller gave up or was refused. -/
def Replied (h : Host) (c t : Nat) (result : Option (Except Fault Answer)) : Prop :=
  ∃ call, h.calls[c]? = some call ∧ call.stage = .reply t result ∧
    ∀ cancelled, call.run ≠ .waiting cancelled

/-- A call asks the instance of a task. -/
def IsQuery (h : Host) (c : Nat) : Prop :=
  ∃ call t result, h.calls[c]? = some call ∧ call.stage = .reply t result

/-- Nothing has happened to the instances but to their mailboxes; no hook was called, no name has
changed hands and no restart was counted. -/
structure Untouched (h h' : Host) : Prop where
  instances : ∀ t, (h'.task? t).map (·.inst.emptied) = (h.task? t).map (·.inst.emptied)
  past : h'.past = h.past
  holders : h'.holders = h.holders
  restarts : h'.restarts = h.restarts

/-- The calls of terminate hooks so far. -/
def terminations (h : Host) : HookPast := h.past.filter fun (_, call) => call.isTerminate

/-! ## Calls at the desk -/

theorem awaits_iff : h.desk.Awaits c t ↔ h.Waits c t := by
  show (h.calls.map Call.reply?)[c]? = _ ↔ _
  rw [List.getElem?_map]
  constructor
  · intro hawaits
    obtain ⟨⟨parent, stage, run⟩, hcall, hreply⟩ := Option.map_eq_some_iff.1 hawaits
    cases stage with
    | reply u result =>
      simp only [Call.reply?, Option.some.injEq, Reply.mk.injEq] at hreply
      obtain ⟨rfl, rfl, hwaits⟩ := hreply
      cases run with
      | waiting cancelled => exact ⟨parent, cancelled, hcall⟩
      | queued cancelled => cases hwaits
      | done result => cases hwaits
    | _ => cases hreply
  · rintro ⟨parent, cancelled, hcall⟩
    rw [hcall]
    rfl

theorem settled_iff : h.desk.Settled c t result ↔ h.Replied c t result := by
  show (h.calls.map Call.reply?)[c]? = _ ↔ _
  rw [List.getElem?_map]
  constructor
  · intro hsettled
    obtain ⟨⟨parent, stage, run⟩, hcall, hreply⟩ := Option.map_eq_some_iff.1 hsettled
    refine ⟨_, hcall, ?_⟩
    cases stage with
    | reply u result =>
      simp only [Call.reply?, Option.some.injEq, Reply.mk.injEq] at hreply
      obtain ⟨rfl, rfl, hwaits⟩ := hreply
      refine ⟨rfl, ?_⟩
      rintro cancelled rfl
      cases hwaits
    | _ => cases hreply
  · rintro ⟨⟨parent, stage, run⟩, hcall, rfl, hrun⟩
    rw [hcall]
    cases run with
    | waiting cancelled => exact absurd rfl (hrun cancelled)
    | queued cancelled => rfl
    | done result => rfl

theorem task_of_inst {i : Instance} (hi : h.desk.insts[t]? = some i) :
    ∃ task, h.task? t = some task ∧ task.inst = i := by
  have hi : (h.tasks.map (·.inst))[t]? = some i := hi
  rw [List.getElem?_map] at hi
  exact Option.map_eq_some_iff.1 hi

namespace Served

/-- Who waits stands once in the mailbox of the instance that it asks, which has not stopped. -/
theorem stands (hserved : h.Served) (hwaits : h.Waits c t) : ∃ task, h.task? t = some task ∧
    task.inst.alive = true ∧ task.inst.waiting.count c = 1 := by
  obtain ⟨i, hi, halive, hcount⟩ := hserved.answerable.stands (awaits_iff.2 hwaits)
  obtain ⟨task, ht, rfl⟩ := task_of_inst hi
  exact ⟨task, ht, halive, hcount⟩

/-- Whoever stands in a mailbox waits for that instance. -/
theorem waits (hserved : h.Served) (ht : h.task? t = some task) (hc : c ∈ task.inst.waiting) :
    h.Waits c t := by
  apply awaits_iff.1
  apply hserved.answerable.awaits t c
  rw [Desk.waiting_of (inst_of_task ht)]
  exact hc

theorem empty (hserved : h.Served) (ht : h.task? t = some task)
    (hstopped : task.inst.alive = false) :
    task.inst.mailbox = [] ∧ ∀ c, ¬h.Waits c t := by
  refine ⟨hserved.answerable.drained t _ (inst_of_task ht) hstopped, fun c hwaits => ?_⟩
  obtain ⟨other, hother, halive, -⟩ := hserved.stands hwaits
  obtain rfl := Option.some.inj (ht.symm.trans hother)
  cases hstopped.symm.trans halive

/-- What a call has been told it is told for good. -/
theorem replied_after (hserved : h.Served) (hreplied : h.Replied c t result) (deeds : List Deed) :
    (h.after deeds).Replied c t result := by
  have hboth : (h.after deeds).Served ∧ (h.after deeds).Replied c t result := by
    refine after_keeps (P := fun g => g.Served ∧ g.Replied c t result) ?_ ⟨hserved, hreplied⟩ deeds
    rintro g d ⟨hserved, hreplied⟩
    have hact := serving_act hserved.tidy d
    exact ⟨hserved.act d, settled_iff.1 ((settled_iff.2 hreplied).next hact.next)⟩
  exact hboth.2

/-- What becomes of a call that waits. -/
theorem fate (hserved : h.Served) (hwaits : h.Waits c t) (d : Deed) :
    (h.act d).Waits c t ∨ (d = .giveUp c ∧ (h.act d).Replied c t none) ∨
    ∃ task answer, h.task? t = some task ∧ (h.act d).Replied c t (some answer) ∧
      ((∃ question rest, task.inst.phase = .idle ∧
          task.inst.mailbox = .query c question false :: rest ∧
          answer = task.inst.answerTo question) ∨
        (answer = .error (Instance.missing task.inst.name) ∧
          ∃ task', (h.act d).task? t = some task' ∧ task'.inst.alive = false)) := by
  have hact := serving_act hserved.tidy d
  rcases (awaits_iff.2 hwaits).next hserved.answerable hact.next with hawaits | ⟨hquits, hsettled⟩ |
    ⟨i, answer, hi, hsettled, hwhy⟩
  · exact .inl (awaits_iff.1 hawaits)
  · refine .inr (.inl ⟨?_, settled_iff.1 hsettled⟩)
    cases d with
    | giveUp e =>
      obtain rfl : c = e := hquits
      rfl
    | _ => cases hquits
  · obtain ⟨task, ht, rfl⟩ := task_of_inst hi
    refine .inr (.inr ⟨task, answer, ht, settled_iff.1 hsettled, ?_⟩)
    refine hwhy.imp id ?_
    rintro ⟨hmissing, j, hj, hstopped⟩
    obtain ⟨task', ht', rfl⟩ := task_of_inst hj
    exact ⟨hmissing, task', ht', hstopped⟩

end Served

/-! ## What is left alone -/

theorem Untouched.of_face (hface : h'.face = h.face) : Untouched h h' where
  instances t := by rw [task?_of_tasks (congrArg Face.tasks hface) t]
  past := congrArg Face.past hface
  holders := congrArg Face.holders hface
  restarts := congrArg Face.restarts hface

theorem Untouched.trans {h'' : Host} (hu : Untouched h h') (hu' : Untouched h' h'') :
    Untouched h h'' where
  instances t := (hu'.instances t).trans (hu.instances t)
  past := hu'.past.trans hu.past
  holders := hu'.holders.trans hu.holders
  restarts := hu'.restarts.trans hu.restarts

theorem untouched_updateTask (h : Host) (t : Nat) {f : Task → Task}
    (hf : ∀ task, h.task? t = some task → (f task).inst.emptied = task.inst.emptied) :
    Untouched h (h.updateTask t f) := by
  refine ⟨fun u => ?_, rfl, rfl, rfl⟩
  by_cases hu : t = u
  · subst hu
    cases ht : h.task? t with
    | none =>
      have ht' : h.tasks[t]? = none := ht
      simp [Host.updateTask, Host.task?, ht']
    | some task => rw [task?_updateTask_self ht, Option.map_some, Option.map_some, hf task ht]
  · rw [task?_updateTask_ne hu]

theorem untouched_setTask (ht : h.task? t = some task) {task' : Task}
    (hinst : task'.inst.emptied = task.inst.emptied) : Untouched h (h.setTask t task') := by
  rw [setTask_eq_updateTask ht fun _ => task']
  refine h.untouched_updateTask t fun other hother => ?_
  rw [Option.some.inj (hother.symm.trans ht)]
  exact hinst

/-- An instance that has not stopped takes a request at the end of its mailbox. -/
theorem post_of_alive (ht : h.task? t = some task) (halive : task.inst.alive = true) (r : Request) :
    ∃ h' task', h.post t r = .ok h' ∧ h'.task? t = some task' ∧
      task'.inst = { task.inst with mailbox := task.inst.mailbox ++ [r] } ∧
      h'.calls = h.calls ∧ Untouched h h' := by
  have hpost : task.inst.post r = .ok { task.inst with mailbox := task.inst.mailbox ++ [r] } :=
    if_pos halive
  have hset : ∀ run, Untouched h (h.setTask t { task with
      inst := { task.inst with mailbox := task.inst.mailbox ++ [r] }, run := run }) :=
    fun run => untouched_setTask ht rfl
  unfold Host.post
  simp only [ht, hpost]
  split
  · exact ⟨_, _, rfl, task?_setTask_self ht _, rfl, rfl, (hset _).trans (.of_face rfl)⟩
  · exact ⟨_, _, rfl, task?_setTask_self ht _, rfl, rfl, hset task.run⟩

/-- An instance that has stopped refuses every request. -/
theorem post_of_stopped (ht : h.task? t = some task) (hstopped : task.inst.alive = false)
    (r : Request) : h.post t r = .error (Instance.missing task.inst.name) := by
  unfold Host.post Instance.post
  simp only [ht, hstopped, Bool.false_eq_true, if_false]

/-- A question to an instance that has not stopped is accepted. -/
theorem ask_of_alive (ht : h.task? t = some task) (halive : task.inst.alive = true)
    (question : Question) : ∃ h' task', h.ask t question = (h', .later h.calls.length) ∧
      h'.Waits h.calls.length t ∧ h'.task? t = some task' ∧
      task'.inst = { task.inst with
        mailbox := task.inst.mailbox ++ [.query h.calls.length question false] } := by
  have ht' : (h.addCall ⟨none, .reply t none, .waiting false⟩).1.task? t = some task := ht
  obtain ⟨h', task', hpost, htask', hinst, hcalls, -⟩ :=
    post_of_alive ht' halive (.query h.calls.length question false)
  refine ⟨h', task', ?_, ?_, htask', hinst⟩
  · unfold Host.ask
    simp only
    rw [show (h.addCall ⟨none, .reply t none, .waiting false⟩).1.post t
      (.query (h.addCall ⟨none, .reply t none, .waiting false⟩).2 question false) = _ from hpost]
    rfl
  · refine ⟨none, false, ?_⟩
    rw [hcalls]
    exact h.call_addCall _

theorem untouched_ask (h : Host) (t : Nat) (question : Question) :
    Untouched h (h.ask t question).1 := by
  unfold Host.ask
  simp only
  have hadded : Untouched h (h.addCall ⟨none, .reply t none, .waiting false⟩).1 := .of_face rfl
  split
  · rename_i h' hpost
    cases ht : h.task? t with
    | none =>
      have hnone : (h.addCall ⟨none, .reply t none, .waiting false⟩).1.task? t = none := ht
      simp [Host.post, hnone] at hpost
    | some task =>
      have ht' : (h.addCall ⟨none, .reply t none, .waiting false⟩).1.task? t = some task := ht
      by_cases halive : task.inst.alive = true
      · obtain ⟨other, -, hother, -, -, -, huntouched⟩ := post_of_alive ht' halive
          (.query (h.addCall ⟨none, .reply t none, .waiting false⟩).2 question false)
        obtain rfl := Except.ok.inj (hother.symm.trans hpost)
        exact hadded.trans huntouched
      · rw [post_of_stopped ht' (by simpa using halive)] at hpost
        cases hpost
  · exact hadded.trans (.of_face rfl)

theorem untouched_cancelCall (hquery : h.IsQuery c) : Untouched h (h.cancelCall c).1 := by
  obtain ⟨⟨parent, stage, run⟩, t, result, hcall, rfl⟩ := hquery
  unfold Host.cancelCall
  simp only [hcall]
  cases run with
  | done result => exact .of_face rfl
  | queued cancelled => exact .of_face rfl
  | waiting cancelled =>
    have habandoned := h.untouched_updateTask t
      (f := fun task => { task with inst := task.inst.abandon c }) fun _ _ => rfl
    exact habandoned.trans (.of_face rfl)

theorem untouched_proceed (hquery : h.IsQuery c) : Untouched h (h.proceed c) := by
  obtain ⟨⟨parent, stage, run⟩, t, result, hcall, rfl⟩ := hquery
  unfold Host.proceed
  simp only [hcall]
  cases run with
  | done result => exact .of_face rfl
  | waiting cancelled => exact .of_face rfl
  | queued cancelled =>
    cases cancelled with
    | true => exact .of_face (face_finishCall _ _ _ _)
    | false => exact .of_face (face_finishCall _ _ _ _)

/-! ## The turn of a question -/

variable {question : Question} {abandoned : Bool} {rest : List Request}

/-- Notes in the log change nothing else. -/
theorem perform_logs {effects : List Effect} (hlogs : ∀ e ∈ effects, ∃ level text,
    e = .log level text) : ∃ events,
    effects.foldl (fun h e => h.perform t e) h = { h with events := events } := by
  induction effects generalizing h with
  | nil => exact ⟨h.events, rfl⟩
  | cons e effects ih =>
    obtain ⟨level, text, rfl⟩ := hlogs e List.mem_cons_self
    have hlog : ∃ events, h.perform t (.log level text) = { h with events := events } := by
      unfold Host.perform
      split
      · exact ⟨h.events, rfl⟩
      · exact ⟨_, rfl⟩
    obtain ⟨events, hevents⟩ := hlog
    obtain ⟨more, hmore⟩ := ih (h := h.perform t (.log level text)) fun e he =>
      hlogs e (List.mem_cons_of_mem _ he)
    refine ⟨more, hmore.trans ?_⟩
    rw [hevents]

/-- Notes in the log and then an answer do no more than answering. -/
theorem perform_answer_last (ht : h.task? t ≠ none) {logs : List Effect}
    {result : Except Fault Answer} (hlogs : ∀ e ∈ logs, ∃ level text, e = .log level text) :
    ∃ events, (logs ++ [Effect.answer c result]).foldl (fun h e => h.perform t e) h =
      ({ h with events := events }).resolve c result := by
  obtain ⟨events, hevents⟩ := perform_logs (h := h) (t := t) hlogs
  refine ⟨events, ?_⟩
  rw [List.foldl_append, hevents]
  exact perform_answer_of (h := { h with events := events }) ht c result

/-- The running task takes a question from its mailbox: it is answered, or passed over. -/
theorem step_query (hrunning : h.running = some t) (ht : h.task? t = some task)
    (hidle : task.inst.phase = .idle)
    (hmailbox : task.inst.mailbox = .query c question abandoned :: rest) :
    ∃ events, h.step =
      if abandoned then
        h.setTask t { task with inst := { task.inst with mailbox := rest }, answer := none }
      else
        ({ h.setTask t { task with inst := { task.inst with mailbox := rest }, answer := none } with
          events := events }).resolve c (task.inst.answerTo question) := by
  have hrun : h.step = h.feed t .receive := by
    rw [step_running hrunning]
    exact (runTask_eq_feed ht (by simp [Task.turn, hidle, hmailbox])).1
  have hhandle : task.inst.step .receive =
      { task.inst with mailbox := rest }.handle (.query c question abandoned) := by
    unfold Instance.step
    simp only [hidle, hmailbox]
  have hanswer : ({ task.inst with mailbox := rest } : Instance).answerTo question =
      task.inst.answerTo question := by cases question <;> rfl
  rw [hrun]
  unfold Host.feed
  simp only [ht, hhandle]
  cases abandoned with
  | true => exact ⟨h.events, rfl⟩
  | false =>
    simp only [Instance.handle, Bool.false_eq_true, if_false, hanswer]
    have hat := task?_setTask_self ht
      { task with inst := { task.inst with mailbox := rest }, answer := none }
    refine perform_answer_last (by simp [hat]) fun e he => ?_
    split at he
    · cases he
    · exact ⟨_, _, List.mem_singleton.1 he⟩

/-- A question takes its turn without anything else happening. -/
theorem untouched_turn (hrunning : h.running = some t) (ht : h.task? t = some task)
    (hidle : task.inst.phase = .idle)
    (hmailbox : task.inst.mailbox = .query c question abandoned :: rest) :
    Untouched h h.step ∧ ∃ task', h.step.task? t = some task' ∧
      task'.inst = { task.inst with mailbox := rest } := by
  obtain ⟨events, hstep⟩ := step_query hrunning ht hidle hmailbox
  have htaken : Untouched h (h.setTask t
      { task with inst := { task.inst with mailbox := rest }, answer := none }) :=
    untouched_setTask ht rfl
  have hat := task?_setTask_self ht
    { task with inst := { task.inst with mailbox := rest }, answer := none }
  rw [hstep]
  cases abandoned with
  | true => exact ⟨htaken, _, hat, rfl⟩
  | false =>
    have hnoted : Untouched h { h.setTask t { task with
        inst := { task.inst with mailbox := rest }, answer := none } with events := events } :=
      htaken.trans ⟨fun _ => rfl, rfl, rfl, rfl⟩
    have hface := face_resolve { h.setTask t { task with
        inst := { task.inst with mailbox := rest }, answer := none } with events := events } c
      (task.inst.answerTo question)
    exact ⟨hnoted.trans (.of_face hface), _,
      (task?_of_tasks (congrArg Face.tasks hface) t).trans hat, rfl⟩

theorem Served.turn (hserved : h.Served) (hrunning : h.running = some t)
    (ht : h.task? t = some task) (hidle : task.inst.phase = .idle)
    (hmailbox : task.inst.mailbox = .query c question false :: rest) :
    h.step.Replied c t (some (task.inst.answerTo question)) := by
  have hwaits : h.Waits c t :=
    hserved.waits ht (by simp [Instance.waiting, hmailbox, Request.waiting?])
  obtain ⟨events, hstep⟩ := step_query hrunning ht hidle hmailbox
  have hawaits : Desk.Awaits (desk { h.setTask t { task with
      inst := { task.inst with mailbox := rest }, answer := none } with events := events }) c t :=
    awaits_iff.2 hwaits
  rw [hstep]
  apply settled_iff.1
  show Desk.Settled (desk (Host.resolve _ c (task.inst.answerTo question))) c t _
  rw [desk_resolve, Desk.resolve_eq hawaits]
  exact List.getElem?_set_self hawaits.lt

/-! ## The terminate hook -/

theorem past_post {r : Request} (hpost : h.post t r = .ok h') : h'.past = h.past := by
  obtain ⟨i, j, hi, hij, hdesk, htidy, hpast⟩ := desk_post hpost
  exact hpast

theorem past_sendAll (h : Host) (sends : List Send) : (h.sendAll sends).1.past = h.past := by
  induction sends generalizing h with
  | nil => rfl
  | cons s sends ih =>
    unfold Host.sendAll
    cases hsend : h.send s with
    | error fault => rfl
    | ok h' =>
      unfold Host.send at hsend
      cases hlookup : h.lookup s.name with
      | error fault => simp [hlookup, bind, Except.bind] at hsend
      | ok u =>
        simp only [hlookup, bind, Except.bind] at hsend
        exact (ih h').trans (past_post hsend)

theorem past_pause (h : Host) (t : Nat) (p : Pause) : (h.pause t p).past = h.past := by
  cases p with
  | none => rfl
  | forever => rfl
  | seconds s =>
    unfold Host.pause
    simp only
    split <;> rfl

theorem past_react {α : Type} (h : Host) (t : Nat) (r : Reaction α)
    (stimulus : Except Fault α → Stimulus) : (h.react t r stimulus).past = h.past := by
  obtain ⟨events, hlines⟩ := h.lines_eq r.lines
  have hsent := past_sendAll { h with events := events } r.sends
  unfold Host.react
  simp only [hlines]
  split
  · rename_i hsends
    rw [hsends] at hsent
    exact hsent
  · rename_i hsends
    rw [hsends] at hsent
    exact (past_pause _ _ _).trans hsent

theorem terminations_perform (h : Host) (t : Nat) {e : Effect}
    (he : ∀ runState, e ≠ .askTerminate runState) :
    (h.perform t e).terminations = h.terminations := by
  have hsame : ∀ {g : Host}, g.past = h.past → g.terminations = h.terminations := by
    intro g hpast
    unfold terminations
    rw [hpast]
  unfold Host.perform
  split
  · rfl
  · rename_i task ht
    cases e with
    | log level text => rfl
    | askTransition call =>
      unfold terminations
      rw [past_react]
      rfl
    | askFailure call =>
      unfold terminations
      rw [past_react]
      rfl
    | askTerminate runState => exact absurd rfl (he runState)
    | answer c result => exact hsame (congrArg Face.past (h.face_resolve c result))
    | publish n =>
      simp only
      split
      · obtain ⟨events, hevents⟩ := h.publish_eq (some task.inst.name) n
        refine hsame ?_
        show (h.publish (some task.inst.name) n).1.past = h.past
        rw [hevents]
      · exact hsame rfl
      · exact hsame rfl

theorem terminations_performs {effects : List Effect}
    (hhook : ∀ runState, .askTerminate runState ∉ effects) :
    (effects.foldl (fun h e => h.perform t e) h).terminations = h.terminations := by
  refine List.foldlRecOn (motive := fun g : Host => g.terminations = h.terminations) _ _ rfl ?_
  intro g hkept e he
  refine (terminations_perform g t ?_).trans hkept
  rintro runState rfl
  exact hhook runState he

/-- The terminate hook is called last, after all that waited was answered. -/
theorem Served.terminate (hserved : h.Served) (hfed : Fed h h') :
    h'.terminations = h.terminations ∨ ∃ (g : Host) (t : Nat) (task : Task) (runState : RunState),
      h' = g.perform t (.askTerminate runState) ∧ g.terminations = h.terminations ∧
      g.task? t = some task ∧ task.inst.alive = false ∧ task.inst.mailbox = [] ∧
      ∀ c, ¬g.Waits c t := by
  cases hfed with
  | @mk f t task s ht hdesk htidy hpast =>
    have hterminations : f.terminations = h.terminations := by
      unfold terminations
      rw [hpast]
    have hi : h.desk.insts[t]? = some task.inst := hdesk ▸ inst_of_task ht
    have hat := task?_setTask_self ht { task with inst := (task.inst.step s).1, answer := none }
    unfold Host.feed
    simp only [ht]
    have hserves : task.inst.Serves ((task.inst.step s).1, (task.inst.step s).2) :=
      task.inst.serves_step s
    rcases hserves.terminate with hhook |
      ⟨before, runState, heffects, hstopped, hempty, hanswers, hhook⟩
    · exact .inl ((terminations_performs hhook).trans hterminations)
    · have hmoved := htidy.setTask ht
        { task with inst := (task.inst.step s).1, answer := none } fun _ => id
      obtain ⟨hgives, -⟩ := gives_perform (t := t) before hmoved (by rw [hat]; nofun)
      rw [desk_setTask, hdesk, hanswers] at hgives
      have hdone := (hserved.answerable.step hi s).gives hgives
      have hself : (h.desk.set t (task.inst.step s).1).insts[t]? = some (task.inst.step s).1 :=
        List.getElem?_set_self (List.getElem?_eq_some_iff.1 hi).1
      have hlast := Desk.stopped_gives hself hstopped hgives
      obtain ⟨task', ht', hinst⟩ := task_of_inst hlast
      refine .inr ⟨before.foldl (fun h e => h.perform t e) (f.setTask t
        { task with inst := (task.inst.step s).1, answer := none }), t, task', runState, ?_,
        (terminations_performs hhook).trans hterminations, ht', hinst ▸ hstopped, hinst ▸ hempty,
        fun c hwaits => ?_⟩
      · rw [heffects, List.foldl_append]
        rfl
      · obtain ⟨i, hother, halive, -⟩ := hdone.stands (awaits_iff.2 hwaits)
        obtain rfl := Option.some.inj (hlast.symm.trans hother)
        cases hstopped.symm.trans halive

/-! ## Runs -/

/-- Whatever happens, the instances only make moves, and the tasks that come have new ones. -/
theorem grows_of_act (h : Host) (d : Deed) : ∃ g, Grows h g ∧ g.tasks = (h.act d).tasks := by
  by_cases hd : d = .step
  · subst hd
    exact ⟨h.step, (Changes.step .refl).grows, rfl⟩
  · obtain ⟨g, hshifts, htasks, -⟩ := shifts_of_act hd
    exact ⟨g, (Changes.shifts .refl hshifts).grows, htasks⟩

theorem moves_of_act (ht : h.task? t = some task) (d : Deed) : ∃ task' moves,
    (h.act d).task? t = some task' ∧ task'.inst = task.inst.after moves := by
  obtain ⟨g, hgrows, htasks⟩ := h.grows_of_act d
  obtain ⟨task', moves, ht', -, hinst⟩ := hgrows.old t task ht
  exact ⟨task', moves, (task?_of_tasks htasks t).symm.trans ht', hinst⟩

theorem moves_of_after (ht : h.task? t = some task) (deeds : List Deed) : ∃ task' moves,
    (h.after deeds).task? t = some task' ∧ task'.inst = task.inst.after moves := by
  refine after_keeps (P := fun g => ∃ task' moves, g.task? t = some task' ∧
    task'.inst = task.inst.after moves) ?_ ⟨task, [], ht, rfl⟩ deeds
  rintro g d ⟨task', moves, ht', hinst⟩
  obtain ⟨task'', more, ht'', hinst'⟩ := moves_of_act ht' d
  exact ⟨task'', moves ++ more, ht'', by rw [hinst', hinst, Instance.after_append]⟩

/-- An instance that has stopped is empty for good, and refuses all requests. -/
theorem Served.stays_stopped (hserved : h.Served) (ht : h.task? t = some task)
    (hstopped : task.inst.alive = false) (deeds : List Deed) : ∃ task',
    (h.after deeds).task? t = some task' ∧ task'.inst.alive = false ∧ task'.inst.mailbox = [] ∧
    (∀ c, ¬(h.after deeds).Waits c t) ∧
    ∀ r, (h.after deeds).post t r = .error (Instance.missing task.inst.name) := by
  obtain ⟨task', moves, ht', hinst⟩ := moves_of_after ht deeds
  have hstopped' : task'.inst.alive = false := hinst ▸ Instance.stopped_after hstopped moves
  obtain ⟨hempty, hnobody⟩ := (hserved.after deeds).empty ht' hstopped'
  have hname : task'.inst.name = task.inst.name := hinst ▸ task.inst.after_name moves
  exact ⟨task', ht', hstopped', hempty, hnobody, fun r => hname ▸ post_of_stopped ht' hstopped' r⟩

/-- Whoever takes the first step of a task enters. -/
theorem entered_step (hrunning : h.running = some t) (ht : h.task? t = some task)
    (hfresh : task.inst.phase = .fresh) : ∃ task', h.step.task? t = some task' ∧
    task'.inst.Entered := by
  have hstep : h.step = h.feed t .start := by
    rw [step_running hrunning]
    exact (runTask_eq_feed ht (by simp [Task.turn, hfresh])).1
  obtain ⟨-, task', moves, ht', hinst⟩ := grows_feed ht .start
  rw [hstep]
  exact ⟨task', ht', hinst ▸ (Instance.entered_start hfresh).after moves⟩

/-- Once the task of an instance has entered, it only leaves by stopping. -/
theorem entered_after (ht : h.task? t = some task) (hentered : task.inst.Entered)
    (deeds : List Deed) : ∃ task', (h.after deeds).task? t = some task' ∧ task'.inst.Entered := by
  obtain ⟨task', moves, ht', hinst⟩ := moves_of_after ht deeds
  exact ⟨task', ht', hinst ▸ hentered.after moves⟩

theorem over_after {settings : Settings} {registry : Registry} {bus : Bus Observer}
    (deeds : List Deed) : ((opened settings registry bus).after deeds).roster.Over :=
  after_keeps_roster (P := Roster.Over) (fun _ _ _ hover hnext => hnext.keeps_over hover)
    (steady_opened settings registry bus) (by simp [Roster.Over, opened, roster]) deeds

/-- The body of a task that has ended is over. -/
theorem finished_of_ended (hover : h.roster.Over) (ht : h.task? t = some task)
    (hended : task.run = .ended) : ∃ ending, task.inst.phase = .finished ending := by
  have hending := hover t task.entry (entry_of_task ht) (by simp [Task.entry, hended])
  unfold Task.entry Instance.ending at hending
  cases hphase : task.inst.phase with
  | finished ending => exact ⟨ending, rfl⟩
  | _ => simp [hphase] at hending

/-- An instance whose task has entered and ended has stopped. -/
theorem stopped_of_ended (hover : h.roster.Over) (ht : h.task? t = some task)
    (hentered : task.inst.Entered) (hended : task.run = .ended) : task.inst.alive = false := by
  obtain ⟨ending, hphase⟩ := finished_of_ended hover ht hended
  apply hentered.stopped
  rw [hphase]
  rfl

/-- A caller whose answer has come gets it when the call goes on, unless the caller is cancelled
before. -/
theorem step_returns {parent : Option Nat} {answer : Except Fault Answer} {jobs : List Job}
    (hrunning : h.running = none) (hbatch : h.batch = .proceed c :: jobs)
    (hcall : h.calls[c]? = some ⟨parent, .reply t (some answer), .queued false⟩) :
    h.step.result? c = some (answer.map .answer) := by
  have hstep : h.step = ({ h with batch := jobs } : Host).finishCall c
      ⟨parent, .reply t (some answer), .queued false⟩ (answer.map .answer) := by
    rw [step_job hrunning hbatch]
    simp only [Host.runJob, Host.proceed, hcall]
    rfl
  have hset : (h.calls.set c ⟨parent, .reply t (some answer), .done (answer.map .answer)⟩)[c]? =
      some ⟨parent, .reply t (some answer), .done (answer.map .answer)⟩ :=
    List.getElem?_set_self (List.getElem?_eq_some_iff.1 hcall).1
  rw [hstep]
  unfold Host.finishCall Host.result?
  cases parent with
  | none =>
    simp only [Host.setCall]
    rw [hset]
  | some p =>
    simp only [Host.setCall, Host.enqueue]
    rw [hset]

/-- The deeds that only ask, give up or answer: a call that asks, a caller that gives up, the turn
of a question in a mailbox, and the return of a call that has asked. -/
def OnlyAsks (h : Host) : Deed → Prop
  | .query .. | .ask .. => True
  | .giveUp c => h.IsQuery c
  | .step =>
    (∃ t task c question abandoned rest, h.running = some t ∧ h.task? t = some task ∧
      task.inst.phase = .idle ∧ task.inst.mailbox = .query c question abandoned :: rest) ∨
    ∃ c jobs, h.running = none ∧ h.batch = .proceed c :: jobs ∧ h.IsQuery c
  | _ => False

theorem untouched_act {d : Deed} (hasks : h.OnlyAsks d) : Untouched h (h.act d) := by
  cases d with
  | query name kind argument =>
    show Untouched h (h.query name kind argument).1
    unfold Host.query
    split
    · exact .of_face rfl
    · split
      · exact .of_face rfl
      · exact h.untouched_ask _ _
  | ask t question => exact h.untouched_ask t question
  | giveUp c => exact untouched_cancelCall hasks
  | step =>
    rcases hasks with ⟨t, task, c, question, abandoned, rest, hrunning, ht, hidle, hmailbox⟩ |
      ⟨c, jobs, hrunning, hbatch, hquery⟩
    · exact (untouched_turn hrunning ht hidle hmailbox).1
    · have hrest : ({ h with batch := jobs } : Host).IsQuery c := hquery
      have hstep : h.step = ({ h with batch := jobs } : Host).proceed c :=
        step_job hrunning hbatch
      show Untouched h h.step
      rw [hstep]
      have hjobs : Untouched h { h with batch := jobs } := .of_face rfl
      exact hjobs.trans (untouched_proceed hrest)
  | _ => cases hasks

/-- What whoever asks may rely on, and what asking leaves alone. -/
structure AnswersOnce (h : Host) : Prop where
  /-- A question to an instance that has not stopped is accepted: it waits, last in the mailbox. -/
  accepted : ∀ t task question, h.task? t = some task → task.inst.alive = true →
    ∃ h' task', h.ask t question = (h', .later h.calls.length) ∧ h'.Waits h.calls.length t ∧
      h'.task? t = some task' ∧ task'.inst = { task.inst with
        mailbox := task.inst.mailbox ++ [.query h.calls.length question false] }
  /-- Who waits stands once in the mailbox of the instance that was asked, which has not stopped. -/
  stands : ∀ c t, h.Waits c t → ∃ task, h.task? t = some task ∧ task.inst.alive = true ∧
    task.inst.waiting.count c = 1
  /-- Whatever happens next, who waits goes on waiting, gives up, is answered in turn, or is told
  that the instance has stopped. -/
  fate : ∀ c t d, h.Waits c t → (h.act d).Waits c t ∨
    (d = .giveUp c ∧ (h.act d).Replied c t none) ∨
    ∃ task answer, h.task? t = some task ∧ (h.act d).Replied c t (some answer) ∧
      ((∃ question rest, task.inst.phase = .idle ∧
          task.inst.mailbox = .query c question false :: rest ∧
          answer = task.inst.answerTo question) ∨
        (answer = .error (Instance.missing task.inst.name) ∧
          ∃ task', (h.act d).task? t = some task' ∧ task'.inst.alive = false))
  /-- An answer, or having none, is final. -/
  once : ∀ c t result deeds, h.Replied c t result → (h.after deeds).Replied c t result
  /-- The first question in the mailbox of the running task is answered in the next step. -/
  turn : ∀ t task c question rest, h.running = some t → h.task? t = some task →
    task.inst.phase = .idle → task.inst.mailbox = .query c question false :: rest →
    h.step.Replied c t (some (task.inst.answerTo question)) ∧
      ∃ task', h.step.task? t = some task' ∧ task'.inst = { task.inst with mailbox := rest }
  /-- A question that was given up is passed over. -/
  passed : ∀ t task c question rest, h.running = some t → h.task? t = some task →
    task.inst.phase = .idle → task.inst.mailbox = .query c question true :: rest →
    h.step.calls = h.calls ∧
      ∃ task', h.step.task? t = some task' ∧ task'.inst = { task.inst with mailbox := rest }
  /-- The answer is what the caller gets. -/
  returned : ∀ c parent t answer jobs, h.running = none → h.batch = .proceed c :: jobs →
    h.calls[c]? = some ⟨parent, .reply t (some answer), .queued false⟩ →
    h.step.result? c = some (answer.map .answer)
  /-- When a terminate hook is called, the instance has stopped, its mailbox is empty and nobody
  waits for it. -/
  terminate : ∀ d, (h.act d).terminations = h.terminations ∨
    ∃ (g : Host) (t : Nat) (task : Task) (runState : RunState),
      h.act d = g.perform t (.askTerminate runState) ∧ g.terminations = h.terminations ∧
      g.task? t = some task ∧ task.inst.alive = false ∧ task.inst.mailbox = [] ∧
      ∀ c, ¬g.Waits c t
  /-- From when an instance has stopped, its mailbox is empty, nobody waits for it, and it refuses
  all requests. -/
  stopped : ∀ t task deeds, h.task? t = some task → task.inst.alive = false → ∃ task',
    (h.after deeds).task? t = some task' ∧ task'.inst.alive = false ∧ task'.inst.mailbox = [] ∧
    (∀ c, ¬(h.after deeds).Waits c t) ∧
    ∀ r, (h.after deeds).post t r = .error (Instance.missing task.inst.name)
  /-- The first step of a task enters. -/
  entered : ∀ t task, h.running = some t → h.task? t = some task → task.inst.phase = .fresh →
    ∃ task', h.step.task? t = some task' ∧ task'.inst.Entered
  /-- Once a task has entered, its instance has stopped whenever its body is out of the loop. -/
  left : ∀ t task deeds, h.task? t = some task → task.inst.Entered → ∃ task',
    (h.after deeds).task? t = some task' ∧ task'.inst.Entered ∧
    (task'.inst.phase.isOut = true ∨ task'.run = .ended → task'.inst.alive = false)
  /-- Asking, giving up and answering change no instance but for its mailbox, call no hook, and
  count no restart. -/
  untouched : ∀ d, h.OnlyAsks d → Untouched h (h.act d)

/-- Questions are answered once, whatever happens: in their turn, or when the instance stops, before
its terminate hook is called. -/
theorem questions_are_answered_once (settings : Settings) (registry : Registry) (bus : Bus Observer)
    (deeds : List Deed) : ((opened settings registry bus).after deeds).AnswersOnce := by
  have hserved := (served_opened settings registry bus).after deeds
  exact {
    accepted := fun t task question ht halive => ask_of_alive ht halive question
    stands := fun c t => hserved.stands
    fate := fun c t d hwaits => hserved.fate hwaits d
    once := fun c t result more hreplied => hserved.replied_after hreplied more
    turn := fun t task c question rest hrunning ht hidle hmailbox =>
      ⟨hserved.turn hrunning ht hidle hmailbox, (untouched_turn hrunning ht hidle hmailbox).2⟩
    passed := fun t task c question rest hrunning ht hidle hmailbox => by
      obtain ⟨events, hstep⟩ := step_query hrunning ht hidle hmailbox
      exact ⟨by rw [hstep]; rfl, (untouched_turn hrunning ht hidle hmailbox).2⟩
    returned := fun c parent t answer jobs hrunning hbatch hcall =>
      step_returns hrunning hbatch hcall
    terminate := fun d => by
      rcases (serving_act hserved.tidy d).past with hpast | hfed
      · exact .inl (congrArg (List.filter _) hpast)
      · exact hserved.terminate hfed
    stopped := fun t task more ht hstopped => hserved.stays_stopped ht hstopped more
    entered := fun t task => entered_step
    left := fun t task more ht hentered => by
      obtain ⟨task', ht', hentered'⟩ := entered_after ht hentered more
      refine ⟨task', ht', hentered', fun hout => hout.elim hentered'.stopped fun hended => ?_⟩
      rw [← after_append] at ht'
      exact stopped_of_ended (over_after (deeds ++ more)) ht' hentered' hended
    untouched := fun d => untouched_act }

/-- Of two questions with a stop between them, the first one is answered, and the second one is told
that the instance is gone. -/
theorem a_question_behind_a_stop_is_refused :
    let machine := Machine.ofTable "t" ⟨"a", [⟨"a", "go", .state "a"⟩], []⟩ {}
    let h := opened ⟨.whole 5, .transient, .whole 3, .whole 5⟩ [] {}
    let deeds := .start (.given machine) (.text "x") .null :: List.replicate 4 .step ++
      .ask 0 .state :: .requestStop 0 :: .ask 0 .state :: List.replicate 20 .step
    (h.after deeds).AnswersOnce ∧
      (match (h.after deeds).result? 0 with
        | some (.ok (.answer (.state runState))) => runState.current == "a"
        | _ => false) = true ∧
      (match (h.after deeds).result? 1 with
        | some (.error fault) => fault.message == (Instance.missing (.text "x")).message
        | _ => false) = true := by
  intro machine h deeds
  exact ⟨questions_are_answered_once _ [] {} deeds, by decide +kernel, by decide +kernel⟩

end Host
end Turnstile
