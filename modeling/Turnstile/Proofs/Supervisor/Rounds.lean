-- Whatever happens to a host is some moves of its office: one lemma for each function of the host
-- says which.
import Turnstile.Proofs.Instance.Entered
import Turnstile.Proofs.Supervisor.Names
import Turnstile.Proofs.Supervisor.Noticed
import Turnstile.Proofs.Supervisor.Office

namespace Turnstile

/-- The body stands at an empty mailbox. -/
def Instance.hungry (i : Instance) : Bool :=
  i.mailbox.isEmpty && match i.phase with
    | .idle => true
    | _ => false

def Task.sign (task : Task) : Sign where
  run := task.run
  supervised := task.supervised
  outside := task.inst.outside
  hungry := task.inst.hungry
  watchers := task.watchers

theorem Task.sign_abandon (task : Task) (c : Nat) :
    { task with inst := task.inst.abandon c }.sign = task.sign := by
  simp [Task.sign, Instance.abandon, Instance.outside, Instance.hungry]

namespace Host

variable {o : Office} {h h' : Host} {t u c : Nat} {task : Task}

def office (h : Host) : Office where
  signs := h.tasks.map Task.sign
  calls := h.calls
  queue := h.batch ++ h.ready
  timers := h.timers.map (·.job)
  running := h.running

/-- Some moves have led from an office to that of a host. -/
abbrev Round (o : Office) (h : Host) : Prop := Office.Moves o h.office

theorem Round.aside (hr : Round o h) (hoffice : h'.office = h.office) : Round o h' := by
  unfold Round
  rw [hoffice]
  exact hr

theorem Round.move (hr : Round o h) (hmove : h.office.Move h'.office) : Round o h' := hr.tail hmove

theorem sign_of_task (ht : h.task? t = some task) : h.office.signs[t]? = some task.sign := by
  have ht' : h.tasks[t]? = some task := ht
  show (h.tasks.map Task.sign)[t]? = _
  rw [List.getElem?_map, ht']
  rfl

/-! ## Queues and timers -/

theorem office_enqueue (h : Host) (j : Job) : (h.enqueue j).office = h.office.push j := by
  unfold office Host.enqueue Office.push
  simp only [List.append_assoc]

theorem Round.push (hr : Round o h) {j : Job} (hplain : Office.Plain j) : Round o (h.enqueue j) :=
  hr.move (h.office_enqueue j ▸ .push hplain)

theorem Round.see (hr : Round o h) (e : Event) : Round o (h.see e) := hr.aside rfl

theorem Round.note (hr : Round o h) (level : LogLevel) (name : Value) (text : String) :
    Round o (h.note level name text) := hr.see _

theorem Round.publish (hr : Round o h) (scope : Option Value) (n : Notification) :
    Round o (h.publish scope n).1 := by
  obtain ⟨events, hevents⟩ := h.publish_eq scope n
  rw [hevents]
  exact hr.aside rfl

theorem insertTimer_perm (timer : Timer) (timers : List Timer) :
    (insertTimer timer timers).Perm (timer :: timers) := by
  induction timers with
  | nil => exact .refl _
  | cons first rest ih =>
    unfold insertTimer
    split
    · exact (ih.cons first).trans (.swap ..)
    · exact .refl _

theorem jobs_setTimer (h : Host) (delay : Number) (j : Job) :
    (h.setTimer delay j).office.timers.Perm (j :: h.office.timers) :=
  (insertTimer_perm ⟨h.dueAfter delay, j⟩ h.timers).map _

theorem Round.setTimer (hr : Round o h) (delay : Number) {j : Job} (hplain : Office.Plain j) :
    Round o (h.setTimer delay j) := hr.move (.timer hplain (h.jobs_setTimer delay j))

/-- Whether a job stays when the window of a call is dropped. -/
def outlasts (c : Nat) : Job → Bool
  | .close d => d ≠ c
  | _ => true

theorem Round.dropWindow (hr : Round o h) (c : Nat) : Round o (h.dropWindow c) := by
  have htimers : (h.dropWindow c).office =
      { h.office with timers := h.office.timers.filter (outlasts c) } := by
    unfold office Host.dropWindow
    simp only [List.filter_map]
    rfl
  exact hr.move (htimers ▸ .dropTimers _)

/-! ## Tasks -/

theorem office_setTask (h : Host) (t : Nat) (task' : Task) :
    (h.setTask t task').office = h.office.setSign t task'.sign := by
  unfold office Host.setTask Office.setSign
  simp only [List.map_set]

/-- The instance of a task changes. -/
theorem Round.setTask (hr : Round o h) (ht : h.task? t = some task) {task' : Task}
    (hrun : task'.run = task.run) (hsupervised : task'.supervised = task.supervised)
    (hwatchers : task'.watchers = task.watchers)
    (houtside : task'.inst.outside = true → task.inst.outside = true)
    (hhungry : task.run = .receiving → task.inst.hungry = true → task'.inst.hungry = true) :
    Round o (h.setTask t task') :=
  hr.move (h.office_setTask t task' ▸
    .change (sign_of_task ht) hrun hsupervised hwatchers houtside hhungry)

/-- Nobody notices that a task changes. -/
theorem office_updateTask {f : Task → Task}
    (hsign : ∀ task, h.task? t = some task → (f task).sign = task.sign) :
    (h.updateTask t f).office = h.office := by
  unfold office
  rw [map_updateTask hsign]
  rfl

theorem Round.updateTask (hr : Round o h) {f : Task → Task}
    (hsign : ∀ task, h.task? t = some task → (f task).sign = task.sign) :
    Round o (h.updateTask t f) := hr.aside (office_updateTask hsign)

/-- A task that waits, or was never started, is queued. -/
theorem Round.wakeTask (hr : Round o h) (ht : h.task? t = some task)
    (hrun : task.run = .receiving ∨ task.run = .absent ∨ ∃ serial, task.run = .paused serial)
    (cancelled : Bool) {i : Instance} (houtside : i.outside = task.inst.outside) :
    Round o ((h.setTask t { task with inst := i, run := .queued cancelled }).enqueue
      (.resume t)) := by
  have hmove : h.office.Move _ := .wake (sign_of_task ht) hrun cancelled i.hungry
  have hsign : ({ task with inst := i, run := .queued cancelled } : Task).sign =
      { task.sign with run := .queued cancelled, hungry := i.hungry } := by
    simp [Task.sign, houtside]
  refine hr.move ?_
  rw [office_enqueue, office_setTask, hsign]
  exact hmove

theorem outside_of_post {i j : Instance} {r : Request} (hpost : i.post r = .ok j) :
    j.outside = i.outside := by
  unfold Instance.post at hpost
  split at hpost
  · obtain rfl := Except.ok.inj hpost
    rfl
  · cases hpost

theorem Round.post (hr : Round o h) {r : Request} (hpost : h.post t r = .ok h') : Round o h' := by
  unfold Host.post at hpost
  cases ht : h.task? t with
  | none => simp [ht] at hpost
  | some task =>
    simp only [ht] at hpost
    cases hinst : task.inst.post r with
    | error fault => simp [hinst] at hpost
    | ok inst =>
      simp only [hinst] at hpost
      have houtside := outside_of_post hinst
      split at hpost
      · rename_i hreceiving
        obtain rfl := Except.ok.inj hpost
        exact hr.wakeTask ht (.inl hreceiving) false houtside
      · rename_i hreceiving
        obtain rfl := Except.ok.inj hpost
        exact hr.setTask ht rfl rfl rfl (fun h => houtside ▸ h) fun hrun => absurd hrun hreceiving

theorem Round.accepting (hr : Round o h) {result : Except Fault Host}
    (hresult : ∀ h', result = .ok h' → Round o h') : Round o (h.accepting result) := by
  cases result with
  | ok h' => exact hresult h' rfl
  | error fault => exact hr

theorem Round.send (hr : Round o h) {s : Send} (hsend : h.send s = .ok h') : Round o h' := by
  unfold Host.send at hsend
  cases hlookup : h.lookup s.name with
  | error fault => simp [hlookup, bind, Except.bind] at hsend
  | ok u =>
    simp only [hlookup, bind, Except.bind] at hsend
    exact hr.post hsend

theorem Round.wake (hr : Round o h) (t serial : Nat) : Round o (h.wake t serial) := by
  unfold Host.wake
  split
  · split
    · rename_i ht hrun
      exact hr.wakeTask ht (.inr (.inr ⟨_, hrun⟩)) false rfl
    · exact hr
  · exact hr

theorem Round.startTask (hr : Round o h) (t : Nat) : Round o (h.startTask t) := by
  unfold Host.startTask
  split
  · split
    · rename_i ht hrun
      exact hr.wakeTask ht (.inr (.inl hrun)) false rfl
    · exact hr
  · exact hr

theorem Round.cancelTask (hr : Round o h) (t : Nat) : Round o (h.cancelTask t).1 := by
  unfold Host.cancelTask
  split
  · exact hr
  · rename_i task ht
    split
    · exact hr
    · exact hr
    · rename_i hrun
      refine hr.move ?_
      rw [office_setTask]
      exact .cancelQueued (sign_of_task ht) hrun
    · exact hr
    · rename_i hrun
      exact hr.wakeTask ht (.inl hrun) true rfl
    · rename_i hrun
      exact hr.wakeTask ht (.inr (.inr ⟨_, hrun⟩)) true rfl

theorem ended_iff : h.office.Ended t ↔ h.hasEnded t = true := by
  unfold Office.Ended hasEnded
  have hsign : h.office.signs[t]? = (h.task? t).map Task.sign := List.getElem?_map
  rw [hsign]
  cases h.task? t with
  | none => simp
  | some task => simp [Task.sign]

theorem Round.watch (hr : Round o h) (call : Call) (hcall : h.calls[c]? = some call)
    (hwatches : call.watches? = some t) : Round o (h.watch t c) := by
  unfold Host.watch
  split
  · rename_i hended
    exact hr.move (h.office_enqueue _ ▸ .watchEnded hcall hwatches (ended_iff.2 hended))
  · rename_i hgoing
    unfold hasEnded at hgoing
    cases ht : h.task? t with
    | none => simp [ht] at hgoing
    | some task =>
      have hrun : task.run ≠ .ended := by simpa [ht] using hgoing
      have hmove : h.office.Move _ := .watch hcall hwatches (sign_of_task ht) hrun
      rw [← setTask_eq_updateTask ht fun task => { task with watchers := task.watchers ++ [c] }]
      exact hr.move (h.office_setTask t _ ▸ hmove)

theorem Round.unwatch (hr : Round o h) (t c : Nat) : Round o (h.unwatch t c) := by
  unfold Host.unwatch
  cases ht : h.task? t with
  | none =>
    have ht' : h.tasks[t]? = none := ht
    refine hr.updateTask fun task hthere => ?_
    rw [ht] at hthere
    cases hthere
  | some task =>
    have hmove : h.office.Move _ := .unwatch (sign_of_task ht) c
    rw [← setTask_eq_updateTask ht fun task =>
      { task with watchers := task.watchers.filter (· ≠ c) }]
    exact hr.move (h.office_setTask t _ ▸ hmove)

/-! ## Bodies -/

/-- The running task waits. -/
theorem Round.halt (hr : Round o h) (ht : h.task? t = some task) (hgoing : task.run ≠ .ended)
    (hinside : task.inst.outside = false) (hmine : ∀ u, h.running = some u → u = t)
    {run : TaskRun}
    (hrun : run = .receiving ∧ task.inst.hungry = true ∨ ∃ serial, run = .paused serial) :
    Round o (h.block t run) := by
  have hmove : h.office.Move _ := .halt (sign_of_task ht) hgoing hinside hmine hrun
  have hoffice : (h.block t run).office =
      { h.office.setSign t { task.sign with run := run } with running := none } := by
    unfold Host.block
    rw [← setTask_eq_updateTask ht fun task => { task with run := run }]
    exact congrArg (fun o : Office => { o with running := none }) (h.office_setTask t _)
  exact hr.move (hoffice ▸ hmove)

/-- Some moves have led to a host in which a body moves on, which is in the loop or on its way out
of it, while no other task runs. -/
structure Inside (o : Office) (t : Nat) (h : Host) : Prop where
  round : Round o h
  task : ∃ task, h.task? t = some task ∧ task.run ≠ .ended ∧ task.inst.outside = false
  mine : ∀ u, h.running = some u → u = t

theorem Inside.of_task {r : Round o h'} (hin : Inside o t h)
    (htask : ∀ task, h.task? t = some task → ∃ task', h'.task? t = some task' ∧
      (task.run ≠ .ended → task'.run ≠ .ended) ∧ task'.inst.outside = task.inst.outside)
    (hrunning : h'.running = h.running) : Inside o t h' := by
  obtain ⟨task, ht, hgoing, hinside⟩ := hin.task
  obtain ⟨task', ht', hgoing', houtside⟩ := htask task ht
  exact ⟨r, ⟨task', ht', hgoing' hgoing, houtside.trans hinside⟩, hrunning ▸ hin.mine⟩

theorem task_of_post {r : Request} (hpost : h.post u r = .ok h') (ht : h.task? t = some task) :
    (∃ task', h'.task? t = some task' ∧ (task.run ≠ .ended → task'.run ≠ .ended) ∧
      task'.inst.outside = task.inst.outside) ∧ h'.running = h.running := by
  unfold Host.post at hpost
  cases hu : h.task? u with
  | none => simp [hu] at hpost
  | some other =>
    simp only [hu] at hpost
    cases hinst : other.inst.post r with
    | error fault => simp [hinst] at hpost
    | ok inst =>
      simp only [hinst] at hpost
      have hset : ∀ run, (other.run ≠ .ended → run ≠ .ended) →
          ∃ task', (h.setTask u { other with inst := inst, run := run }).task? t = some task' ∧
            (task.run ≠ .ended → task'.run ≠ .ended) ∧
            task'.inst.outside = task.inst.outside := by
        intro run hrun
        by_cases hne : u = t
        · subst hne
          obtain rfl := Option.some.inj (ht.symm.trans hu)
          exact ⟨_, task?_setTask_self ht _, hrun, outside_of_post hinst⟩
        · exact ⟨task, (task?_setTask_ne hne _).trans ht, id, rfl⟩
      split at hpost
      · obtain rfl := Except.ok.inj hpost
        exact ⟨hset (.queued false) nofun, rfl⟩
      · obtain rfl := Except.ok.inj hpost
        exact ⟨hset other.run id, rfl⟩

theorem Inside.block (hin : Inside o t h) (serial : Option Nat) :
    Inside o t (h.block t (.paused serial)) := by
  obtain ⟨task, ht, hgoing, hinside⟩ := hin.task
  have hround := hin.round.halt ht hgoing hinside hin.mine (.inr ⟨serial, rfl⟩)
  exact ⟨hround, ⟨_, task?_updateTask_self ht _, nofun, hinside⟩, nofun⟩

theorem Inside.yield (hin : Inside o t h) :
    Inside o t ((h.block t (.queued false)).enqueue (.resume t)) := by
  obtain ⟨task, ht, hgoing, hinside⟩ := hin.task
  have hmove : h.office.Move _ := .yield (sign_of_task ht) hgoing hinside hin.mine
  have hoffice : ((h.block t (.queued false)).enqueue (.resume t)).office =
      { (h.office.setSign t { task.sign with run := .queued false }).push (.resume t) with
        running := none } := by
    rw [office_enqueue]
    unfold Host.block
    rw [← setTask_eq_updateTask ht fun task => { task with run := .queued false }]
    exact congrArg (fun o : Office => { o.push (.resume t) with running := none })
      (h.office_setTask t _)
  have hround : Round o _ := hin.round.move (hoffice ▸ hmove)
  exact ⟨hround, ⟨_, task?_updateTask_self ht _, nofun, hinside⟩, nofun⟩

theorem Inside.updateTask (hin : Inside o t h) {f : Task → Task}
    (hsign : ∀ task, h.task? u = some task → (f task).sign = task.sign)
    (hinst : ∀ task, (f task).inst = task.inst) : Inside o t (h.updateTask u f) := by
  refine hin.of_task (r := hin.round.updateTask hsign) (fun task ht => ?_) rfl
  by_cases hne : u = t
  · subst hne
    have hrun : (f task).run = task.run := congrArg Sign.run (hsign task ht)
    exact ⟨f task, task?_updateTask_self ht f, hrun ▸ id, by rw [hinst]⟩
  · exact ⟨task, (task?_updateTask_ne hne f).trans ht, id, rfl⟩

theorem Inside.pause (hin : Inside o t h) (p : Pause) : Inside o t (h.pause t p) := by
  unfold Host.pause
  cases p with
  | none => exact hin
  | forever => exact hin.block none
  | seconds s =>
    simp only
    split
    · exact hin.yield
    · have hround : Round o ({ h with serials := h.serials + 1 } : Host) := hin.round.aside rfl
      have htimed : Inside o t (({ h with serials := h.serials + 1 } : Host).setTimer s
          (.wake t h.serials)) :=
        hin.of_task (r := hround.setTimer s trivial) (fun task ht => ⟨task, ht, id, rfl⟩) rfl
      exact htimed.block (some h.serials)

theorem Inside.touch (hin : Inside o t h) (htouch : Touch t h h') : Inside o t h' := by
  cases htouch with
  | write events past =>
    exact hin.of_task (r := hin.round.aside rfl) (fun task ht => ⟨task, ht, id, rfl⟩) rfl
  | answer s => exact hin.updateTask (fun _ _ => rfl) fun _ => rfl
  | send hpost =>
    obtain ⟨task, ht, -⟩ := hin.task
    refine hin.of_task (r := hin.round.post hpost) (fun task ht => ?_) (task_of_post hpost ht).2
    exact (task_of_post hpost ht).1
  | pause p => exact hin.pause p

theorem Round.resolve (hr : Round o h) (c : Nat) (result : Except Fault Answer) :
    Round o (h.resolve c result) := by
  unfold Host.resolve
  split
  · rename_i parent t cancelled hcall
    have hmove : h.office.Move _ := .reply (c := c) hcall rfl rfl result
    refine hr.move ?_
    rw [office_enqueue]
    exact hmove
  · exact hr

theorem Inside.resolve (hin : Inside o t h) (c : Nat) (result : Except Fault Answer) :
    Inside o t (h.resolve c result) := by
  have hsame : (h.resolve c result).tasks = h.tasks ∧
      (h.resolve c result).running = h.running := by
    unfold Host.resolve
    split <;> exact ⟨rfl, rfl⟩
  refine hin.of_task (r := hin.round.resolve c result) (fun task ht => ?_) hsame.2
  exact ⟨task, (task?_of_tasks hsame.1 t).trans ht, id, rfl⟩

/-- The body of the running task moves on. -/
theorem Round.feed (hr : Round o h) (ht : h.task? t = some task) (hrun : task.run = .active)
    (hplaced : task.inst.Placed) (hmine : ∀ u, h.running = some u → u = t) (s : Stimulus) :
    Round o (h.feed t s) := by
  have hmoved : Round o
      (h.setTask t { task with inst := (task.inst.step s).1, answer := none }) := by
    refine hr.setTask ht rfl rfl rfl (fun houtside => (hplaced.outside_step houtside).1) ?_
    intro hreceiving
    cases hrun.symm.trans hreceiving
  by_cases houtside : (task.inst.step s).1.outside = true
  · have hnone := (hplaced.outside_step houtside).2
    unfold Host.feed
    simp only [ht, hnone]
    exact hmoved
  · have hin : Inside o t
        (h.setTask t { task with inst := (task.inst.step s).1, answer := none }) := by
      refine ⟨hmoved, ⟨_, task?_setTask_self ht _, ?_, by simpa using houtside⟩, hmine⟩
      rw [hrun]
      nofun
    exact (feed_keeps (P := Inside o t) ht s (fun _ _ hin htouch => hin.touch htouch)
      (fun _ c result hin => hin.resolve c result) hin).round

/-- The running task ends. -/
theorem Round.endTask (hr : Round o h) (ht : h.task? t = some task) (hrun : task.run = .active)
    (hrunning : h.running = some t) : Round o (h.endTask t task) := by
  have htold : ∀ (g : Host) (watchers : List Nat),
      (watchers.foldl (fun g c => g.enqueue (.taskEnded c)) g).office =
        { g.office with queue := g.office.queue ++ watchers.map .taskEnded } := by
    intro g watchers
    induction watchers generalizing g with
    | nil => simp
    | cons c watchers ih =>
      rw [List.foldl_cons, ih, office_enqueue]
      simp [Office.push]
  have hmove : h.office.Move _ := .finish (sign_of_task ht) hrun hrunning
  have hset : ({ h.setTask t { task with run := .ended, watchers := [] } with
      running := none } : Host).office = { h.office.setSign t
        { task.sign with run := .ended, watchers := [] } with running := none } :=
    congrArg (fun o : Office => { o with running := none }) (h.office_setTask t _)
  refine hr.move ?_
  unfold Host.endTask
  simp only
  rw [htold]
  by_cases hsupervised : task.supervised = true
  · have hsign : task.sign.supervised = true := hsupervised
    rw [if_pos hsupervised, office_enqueue, hset]
    rw [if_pos hsign] at hmove
    exact hmove
  · have hsign : ¬task.sign.supervised = true := hsupervised
    rw [if_neg hsupervised, hset]
    rw [if_neg hsign, List.append_nil] at hmove
    exact hmove

theorem Round.runTask (hr : Round o h) (ht : h.task? t = some task) (hrun : task.run = .active)
    (hplaced : task.inst.Placed) (hrunning : h.running = some t) : Round o (h.runTask t) := by
  have hgoing : task.run ≠ .ended := by
    rw [hrun]
    nofun
  have hmine : ∀ u, h.running = some u → u = t := fun u hu =>
    Option.some.inj (hu.symm.trans hrunning)
  unfold Host.runTask
  simp only [ht]
  split
  · exact hr.endTask ht hrun hrunning
  · exact hr.feed ht hrun hplaced hmine _
  · rename_i hphase
    split
    · rename_i hempty
      refine hr.halt ht hgoing ?_ hmine (.inl ⟨rfl, ?_⟩)
      · simp [Instance.outside, hphase]
      · simp [Instance.hungry, hphase, hempty]
    · exact hr.feed ht hrun hplaced hmine _
  · rename_i hfinished hfresh hidle
    split
    · exact hr.feed ht hrun hplaced hmine _
    · refine hr.halt ht hgoing ?_ hmine (.inr ⟨none, rfl⟩)
      unfold Instance.outside
      cases hphase : task.inst.phase with
      | fresh => exact absurd hphase hfresh
      | finished ending => exact absurd hphase (hfinished ending)
      | _ => simp

/-! ## Jobs -/

section
variable {rest : List Job}

theorem queue_of_batch {j : Job} (hbatch : h.batch = j :: rest) :
    h.office.queue = j :: (rest ++ h.ready) := by
  unfold office
  rw [hbatch]
  rfl

/-- A job that does nothing is taken from the queue. -/
theorem Round.drop (hr : Round o h) {j : Job} (hbatch : h.batch = j :: rest)
    (hmoot : h.office.Moot j) : Round o ({ h with batch := rest } : Host) :=
  hr.move (.drop (queue_of_batch hbatch) hmoot)

theorem Round.resume (hr : Round o h) (hbatch : h.batch = .resume t :: rest)
    (hrunning : h.running = none)
    (hplaced : ∀ task, h.task? t = some task → task.inst.Placed) :
    Round o (({ h with batch := rest } : Host).resume t) := by
  unfold Host.resume
  have hhere : ({ h with batch := rest } : Host).task? t = h.task? t := rfl
  rw [hhere]
  cases ht : h.task? t with
  | none =>
    refine hr.drop hbatch fun s cancelled hs => ?_
    have hsigns : h.office.signs[t]? = (h.task? t).map Task.sign := List.getElem?_map
    rw [hsigns, ht] at hs
    cases hs
  | some task =>
    simp only
    split
    · rename_i cancelled hrun
      have hmove : h.office.Move _ :=
        .resume (sign_of_task ht) hrun hrunning (queue_of_batch hbatch)
      have hactive : Round o (({ h with batch := rest } : Host).activate t task) := by
        refine hr.move ?_
        have hoffice : (({ h with batch := rest } : Host).activate t task).office =
            { h.office.setSign t { task.sign with run := .active } with
              queue := rest ++ h.ready, running := some t } :=
          congrArg (fun o : Office => { o with running := some t })
            (({ h with batch := rest } : Host).office_setTask t { task with run := .active })
        exact hoffice ▸ hmove
      split
      · refine hactive.feed (task?_activate (h := { h with batch := rest }) ht) rfl
          (hplaced task ht) ?_ _
        intro u hu
        exact (Option.some.inj hu).symm
      · exact hactive
    · rename_i hrun
      refine hr.drop hbatch fun s cancelled hs hqueued => ?_
      obtain rfl := Option.some.inj ((sign_of_task ht).symm.trans hs)
      exact hrun cancelled hqueued

theorem Round.release (hr : Round o h)
    (hbatch : h.batch = .taskEnded c :: rest ∨ h.batch = .close c :: rest)
    (hrunning : h.running = none) : Round o (({ h with batch := rest } : Host).release c) := by
  have hdrop : (∀ call cancelled, h.calls[c]? = some call → call.run ≠ .waiting cancelled) →
      Round o ({ h with batch := rest } : Host) := by
    intro hmoot
    rcases hbatch with hbatch | hbatch
    · exact hr.drop hbatch hmoot
    · exact hr.drop hbatch hmoot
  unfold Host.release
  simp only
  cases hcall : h.calls[c]? with
  | none => exact hdrop fun call cancelled hother => by cases hcall.symm.trans hother
  | some call =>
    simp only
    split
    · rename_i cancelled hrun
      have hmove : h.office.Move _ := .release hcall hrun hrunning
        (hbatch.imp queue_of_batch queue_of_batch)
      refine hr.move ?_
      rw [office_enqueue]
      exact hmove
    · rename_i hrun
      refine hdrop fun other cancelled hother hwaiting => ?_
      obtain rfl := Option.some.inj (hcall.symm.trans hother)
      exact hrun cancelled hwaiting

theorem Round.finishCall (hr : Round o h) (hbatch : h.batch = .proceed c :: rest)
    (hrunning : h.running = none) {call : Call} (hcall : h.calls[c]? = some call)
    {cancelled : Bool} (hrun : call.run = .queued cancelled) {result : Except Fault CallAnswer}
    (hok : ∀ a, result = .ok a → cancelled = false ∧ h.office.Settles call.stage) :
    Round o (({ h with batch := rest } : Host).finishCall c call result) := by
  have hmove : h.office.Move _ :=
    .settle hcall hrun hrunning (queue_of_batch hbatch) hok
  refine hr.move ?_
  have hoffice : (({ h with batch := rest } : Host).finishCall c call result).office =
      { h.office.setCall c { call with run := .done result } with
        queue := rest ++ h.ready ++ Office.report call result } := by
    unfold Host.finishCall Office.report
    simp only
    cases call.parent with
    | none => simp [office, Host.setCall, Office.setCall]
    | some p => exact office_enqueue _ _
  exact hoffice ▸ hmove

theorem Round.leaveStage (hr : Round o h) (c : Nat) (stage : Stage) :
    Round o (h.leaveStage c stage) := by
  cases stage with
  | exit t => exact hr.unwatch t c
  | forced t => exact hr.unwatch t c
  | window t timeout => exact (hr.dropWindow c).unwatch t c
  | reply t result => exact hr
  | closing t timeout => exact hr
  | join children left => exact hr

theorem leaveStage_finishCall (h : Host) (c : Nat) (stage : Stage) (call : Call)
    (result : Except Fault CallAnswer) : (h.leaveStage c stage).finishCall c call result =
      (h.finishCall c call result).leaveStage c stage := by
  unfold Host.finishCall Host.leaveStage
  cases call.parent <;> cases stage <;> rfl

theorem hasEnded_leaveStage (h : Host) (c : Nat) (stage : Stage) (t : Nat) :
    (h.leaveStage c stage).hasEnded t = h.hasEnded t := by
  have hunwatch : ∀ (g : Host) u, (g.unwatch u c).hasEnded t = g.hasEnded t := by
    intro g u
    unfold hasEnded Host.unwatch
    by_cases hne : u = t
    · subst hne
      cases hu : g.task? u with
      | none =>
        have hnone : (g.updateTask u fun task =>
            { task with watchers := task.watchers.filter (· ≠ c) }).task? u = none :=
          task?_of_length (List.length_modify ..) hu
        rw [hnone]
      | some task => rw [task?_updateTask_self hu]
    · rw [task?_updateTask_ne hne]
  cases stage with
  | exit u => exact hunwatch h u
  | forced u => exact hunwatch h u
  | window u timeout => exact hunwatch (h.dropWindow c) u
  | reply u result => rfl
  | closing u timeout => rfl
  | join children left => rfl

/-- The window of a call is over, and the task that it stops goes on: the task is cancelled. -/
theorem force_eq (g : Host) (c t : Nat) (stage : Stage) (call : Call) (level : LogLevel)
    (name : Value) (text : String) :
    (((g.leaveStage c stage).note level name text).cancelTask t).1.setCall c call =
      ((((g.setCall c call).leaveStage c stage).note level name text).cancelTask t).1 := by
  have hcancel : ∀ g : Host, (g.cancelTask t).1.setCall c call =
      ((g.setCall c call).cancelTask t).1 := by
    intro g
    have htask : (g.setCall c call).task? t = g.task? t := rfl
    unfold Host.cancelTask
    rw [htask]
    cases g.task? t with
    | none => rfl
    | some task =>
      simp only
      cases task.run <;> rfl
  rw [hcancel]
  cases stage <;> rfl

theorem Round.openWindow (hr : Round o h) (hbatch : h.batch = .proceed c :: rest)
    (hrunning : h.running = none) {call : Call} {timeout : Number} (hcall : h.calls[c]? = some call)
    (hstage : call.stage = .closing t timeout) (hrun : call.run = .queued false) :
    Round o (({ h with batch := rest } : Host).openWindow c call t timeout) := by
  have hmove : h.office.Move _ := .openWindow hcall hstage
    (.inr ⟨hrun, hrunning, queue_of_batch hbatch⟩) (h.jobs_setTimer timeout (.close c))
  have hopened : Round o ((({ h with batch := rest } : Host).setCall c
      { call with stage := .window t timeout, run := .waiting false }).setTimer timeout
        (.close c)) := hr.move hmove
  exact hopened.watch _ (List.getElem?_set_self (List.getElem?_eq_some_iff.1 hcall).1) rfl

theorem Round.force (hr : Round o h) (hbatch : h.batch = .proceed c :: rest)
    (hrunning : h.running = none) {call : Call} {timeout : Number} (hcall : h.calls[c]? = some call)
    (hstage : call.stage = .window t timeout) (hrun : call.run = .queued false)
    (hgoing : ¬h.office.Ended t) (level : LogLevel) (name : Value) (text : String) :
    Round o (((((({ h with batch := rest } : Host).leaveStage c call.stage).note level name
      text).cancelTask t).1.setCall c
        { call with stage := .forced t, run := .waiting false }).watch t c) := by
  have hmove : h.office.Move _ := .force hcall hstage hrun
    hrunning (queue_of_batch hbatch) hgoing
  have hforced : Round o (({ h with batch := rest } : Host).setCall c
      { call with stage := .forced t, run := .waiting false }) := hr.move hmove
  rw [force_eq]
  refine Round.watch (((hforced.leaveStage c call.stage).note _ _ _).cancelTask t)
    { call with stage := .forced t, run := .waiting false } ?_ rfl
  rw [calls_cancelTask]
  show ((({ h with batch := rest } : Host).setCall c _).leaveStage c _).calls[c]? = _
  rw [calls_leaveStage]
  exact List.getElem?_set_self (List.getElem?_eq_some_iff.1 hcall).1

theorem Round.proceed (hr : Round o h) (hbatch : h.batch = .proceed c :: rest)
    (hrunning : h.running = none) : Round o (({ h with batch := rest } : Host).proceed c) := by
  have hdrop : (∀ call cancelled, h.calls[c]? = some call → call.run ≠ .queued cancelled) →
      Round o ({ h with batch := rest } : Host) := fun hmoot => hr.drop hbatch hmoot
  unfold Host.proceed
  simp only
  cases hcall : h.calls[c]? with
  | none => exact hdrop fun call cancelled hother => by cases hcall.symm.trans hother
  | some call =>
    have hmoot : (∀ cancelled, call.run ≠ .queued cancelled) →
        Round o ({ h with batch := rest } : Host) := by
      refine fun hrun => hdrop fun other cancelled hother hqueued => ?_
      obtain rfl := Option.some.inj (hcall.symm.trans hother)
      exact hrun cancelled hqueued
    simp only
    split
    · rename_i hrun
      exact hmoot fun cancelled hqueued => by cases hrun.symm.trans hqueued
    · rename_i hrun
      exact hmoot fun cancelled hqueued => by cases hrun.symm.trans hqueued
    · rename_i hrun
      rw [leaveStage_finishCall]
      have hround : Round o (({ h with batch := rest } : Host).finishCall c call
          (.error .cancellation)) :=
        hr.finishCall hbatch hrunning hcall hrun fun _ hok => by cases hok
      exact hround.leaveStage c call.stage
    · rename_i hrun
      have hfinish : ∀ result, h.office.Settles call.stage →
          Round o (({ h with batch := rest } : Host).finishCall c call result) :=
        fun result hsettles =>
          hr.finishCall hbatch hrunning hcall hrun fun _ _ => ⟨rfl, hsettles⟩
      split
      · rename_i hstage
        exact hfinish _ (by rw [hstage]; trivial)
      · rename_i hstage
        exact hfinish _ (by rw [hstage]; trivial)
      · rename_i t timeout hstage
        exact hr.openWindow hbatch hrunning hcall hstage hrun
      · rename_i t timeout hstage
        simp only [hasEnded_leaveStage]
        split
        · rename_i hended
          have hended' : h.hasEnded t = true := hended
          rw [leaveStage_finishCall]
          refine (hfinish _ ?_).leaveStage c call.stage
          rw [hstage]
          exact ended_iff.2 hended'
        · rename_i hended
          have hgoing : ¬h.office.Ended t := fun h' => hended (ended_iff.1 h')
          exact hr.force hbatch hrunning hcall hstage hrun hgoing _ _ _
      · rename_i hstage
        exact hfinish _ (by rw [hstage]; trivial)
      · rename_i hstage
        exact hfinish _ (by rw [hstage]; trivial)

theorem Round.joined (hr : Round o h) {p : Nat} {cancelled : Bool}
    (hbatch : h.batch = .joined p cancelled :: rest) (hrunning : h.running = none) :
    Round o (({ h with batch := rest } : Host).joined p cancelled) := by
  have hqueue := queue_of_batch hbatch
  unfold Host.joined
  simp only
  cases hcall : h.calls[p]? with
  | none => exact hr.drop hbatch fun call children left b hother => by cases hcall.symm.trans hother
  | some call =>
    have hlt : p < h.calls.length := (List.getElem?_eq_some_iff.1 hcall).1
    simp only
    split
    · rename_i children left requested hstage hrun
      split
      · rename_i hlast
        have hleft : cancelled = true ∨ left ≤ 1 := by simpa using hlast
        have hmove : h.office.Move _ :=
          .joinLast hcall hstage hrun hrunning hqueue hleft
        refine hr.move ?_
        unfold Host.release
        simp only [Host.setCall, List.getElem?_set_self hlt, List.set_set]
        rw [office_enqueue]
        exact hmove
      · rename_i hlast
        have hleft : cancelled = false ∧ 1 < left := by simpa using hlast
        have hmove : h.office.Move _ :=
          .join hcall hstage hrun hrunning hqueue hleft
        refine hr.move ?_
        obtain ⟨rfl, -⟩ := hleft
        simp only [Bool.or_false]
        exact hmove
    · rename_i hother
      refine hr.drop hbatch fun other children left b hcall' hstage hrun => ?_
      obtain rfl := Option.some.inj (hcall.symm.trans hcall')
      exact hother children left b hstage hrun

/-! ## Supervision -/

theorem Round.spawn (hr : Round o h) (machine : Machine) (name payload : Value)
    (number : Option Nat) : Round o (h.spawn machine name payload number).1 := by
  have hmove : h.office.Move _ := .spawn
  have hlength : h.office.signs.length = h.tasks.length := List.length_map ..
  rw [hlength] at hmove
  refine hr.move ?_
  unfold Host.spawn
  simp only
  rw [office_enqueue]
  have hoffice : ∀ holders, ({ (h.addTask {
      inst := .create machine name payload
      number := number
      supervised := true
      outlet := .shared
      run := .queued false }).1 with holders := holders } : Host).office =
      { h.office with signs := h.office.signs ++ [Sign.new (.queued false) true] } := by
    intro holders
    unfold office Host.addTask
    simp [Task.sign, Sign.new, Instance.create, Instance.outside, Instance.hungry]
  rw [hoffice]
  exact hmove

theorem Round.afterCrash (hr : Round o h) (task : Task) (fault : Fault) :
    Round o (h.afterCrash task fault) := by
  unfold Host.afterCrash
  simp only
  split
  · exact hr.note _ _ _
  · split
    · exact hr
    · split
      · exact hr.aside rfl
      · have hcounted : ∀ restarts, Round o ({ h with restarts := restarts } : Host) :=
          fun _ => hr.aside rfl
        exact (((hcounted _).note _ _ _).spawn _ _ _ _).push trivial

theorem Round.exited (hr : Round o h) (t : Nat) : Round o (h.exited t) := by
  unfold Host.exited
  split
  · exact hr
  · rename_i task _
    have hvacated : Round o (if lookupName h.holders task.inst.name = some t then
        { h with holders := eraseName h.holders task.inst.name } else h) := by
      split
      · exact hr.aside rfl
      · exact hr
    simp only
    split
    · exact hvacated.afterCrash task _
    · exact hvacated

/-! ## One step -/

theorem Round.runJob (hr : Round o h) {j : Job} (hbatch : h.batch = j :: rest)
    (hrunning : h.running = none)
    (hplaced : ∀ t task, h.task? t = some task → task.inst.Placed) :
    Round o (({ h with batch := rest } : Host).runJob j) := by
  cases j with
  | resume t => exact hr.resume hbatch hrunning (hplaced t)
  | exited t => exact (hr.drop hbatch trivial).exited t
  | taskEnded c => exact hr.release (.inl hbatch) hrunning
  | proceed c => exact hr.proceed hbatch hrunning
  | joined p cancelled => exact hr.joined hbatch hrunning
  | wake t serial => exact (hr.drop hbatch trivial).wake t serial
  | close c => exact hr.release (.inr hbatch) hrunning
  | announce name attempt fault => exact (hr.drop hbatch trivial).publish _ _

end

theorem Round.beginTurn (hr : Round o h) (hbatch : h.batch = []) : Round o h.beginTurn := by
  have hperm : h.office.timers.Perm ((h.timers.filter h.isDue).map (·.job) ++
      (h.timers.filter fun timer => !h.isDue timer).map (·.job)) := by
    rw [← List.map_append]
    exact (List.filter_append_perm _ _).symm.map _
  have hmove : h.office.Move _ := .turn hperm
  refine hr.move ?_
  have hoffice : h.beginTurn.office = { h.office with
      queue := h.office.queue ++ (h.timers.filter h.isDue).map (·.job)
      timers := (h.timers.filter fun timer => !h.isDue timer).map (·.job) } := by
    unfold office Host.beginTurn
    simp [hbatch]
  exact hoffice ▸ hmove

theorem Round.step (hr : Round o h) (hsteady : h.Steady)
    (hplaced : ∀ t task, h.task? t = some task → task.inst.Placed) : Round o h.step := by
  unfold Host.step
  split
  · rename_i t hrunning
    obtain ⟨task, ht, hactive⟩ := hsteady.running t hrunning
    exact hr.runTask ht hactive (hplaced t task ht) hrunning
  · rename_i hrunning
    split
    · rename_i j rest hbatch
      exact hr.runJob hbatch hrunning hplaced
    · rename_i hbatch
      exact hr.beginTurn hbatch

/-! ## Calls -/

theorem Round.ask (hr : Round o h) (t : Nat) (question : Question) :
    Round o (h.ask t question).1 := by
  have hadded : Round o (h.addCall ⟨none, .reply t none, .waiting false⟩).1 :=
    hr.move (.call (.ask t))
  unfold Host.ask
  simp only
  split
  · rename_i h' hpost
    exact hadded.post hpost
  · rename_i fault _
    have hrefused : h.office.Move _ := .call (.refused t fault)
    refine hr.move ?_
    have hoffice : ((h.addCall ⟨none, .reply t none, .waiting false⟩).1.setCall h.calls.length
        ⟨none, .reply t none, .done (.error fault)⟩).office = { h.office with
          calls := h.office.calls ++ [⟨none, .reply t none, .done (.error fault)⟩] } := by
      unfold office Host.setCall Host.addCall
      simp
    exact hoffice ▸ hrefused

theorem Round.query (hr : Round o h) (name : Value) (kind : String) (argument : Value) :
    Round o (h.query name kind argument).1 := by
  unfold Host.query
  split
  · exact hr
  · split
    · exact hr
    · exact hr.ask _ _

theorem Round.wait (hr : Round o h) (name : Value) : Round o (h.wait name).1 := by
  unfold Host.wait
  split
  · exact hr
  · split
    · exact hr
    · rename_i t task hholder
      have ht := (lookup_of_holder? hholder).2
      have hadded : Round o (h.addCall ⟨none, .exit t, .waiting false⟩).1 :=
        hr.move (.call (.wait (sign_of_task ht)))
      exact hadded.watch _ (h.call_addCall _) rfl

/-- Who holds a name is supervised. -/
def Staffed (h : Host) : Prop :=
  ∀ p ∈ h.holders, ∃ task, h.task? p.2 = some task ∧ task.supervised = true

theorem supervised_of_lookup (hstaffed : h.Staffed) {name : Value}
    (hlookup : h.lookup name = .ok t) :
    ∃ task, h.task? t = some task ∧ task.supervised = true := by
  obtain ⟨task, hholder, -⟩ := holder_of_lookup hlookup
  obtain ⟨key, hmem, -⟩ := mem_of_lookupName (lookup_of_holder? hholder).1
  exact hstaffed _ hmem

theorem supervised_of_post {r : Request} (hpost : h.post u r = .ok h')
    (ht : h.task? t = some task) :
    ∃ task', h'.task? t = some task' ∧ task'.supervised = task.supervised := by
  unfold Host.post at hpost
  cases hu : h.task? u with
  | none => simp [hu] at hpost
  | some other =>
    simp only [hu] at hpost
    cases hinst : other.inst.post r with
    | error fault => simp [hinst] at hpost
    | ok inst =>
      simp only [hinst] at hpost
      have hset : ∀ run, ∃ task',
          (h.setTask u { other with inst := inst, run := run }).task? t = some task' ∧
            task'.supervised = task.supervised := by
        intro run
        by_cases hne : u = t
        · subst hne
          obtain rfl := Option.some.inj (ht.symm.trans hu)
          exact ⟨_, task?_setTask_self ht _, rfl⟩
        · exact ⟨task, (task?_setTask_ne hne _).trans ht, rfl⟩
      split at hpost
      · obtain rfl := Except.ok.inj hpost
        exact hset (.queued false)
      · obtain rfl := Except.ok.inj hpost
        exact hset other.run

theorem Round.stop (hr : Round o h) (hstaffed : h.Staffed) (name : Value)
    (timeout : Option Number) : Round o (h.stop name timeout).1 := by
  unfold Host.stop
  split
  · exact hr
  · rename_i t hlookup
    split
    · exact hr
    · rename_i h' hpost
      obtain ⟨task, ht, hsupervised⟩ := supervised_of_lookup hstaffed hlookup
      obtain ⟨task', ht', hsupervised'⟩ := supervised_of_post hpost ht
      show Round o (Host.openWindow (h'.addCall
        ⟨none, .closing t (timeout.getD h'.settings.shutdownTimeout), .waiting false⟩).1
          h'.calls.length
          ⟨none, .closing t (timeout.getD h'.settings.shutdownTimeout), .waiting false⟩ t
          (timeout.getD h'.settings.shutdownTimeout))
      generalize timeout.getD h'.settings.shutdownTimeout = window
      have hcall : Round o (h'.addCall ⟨none, .closing t window, .waiting false⟩).1 :=
        (hr.post hpost).move
          (.call (.stop (sign_of_task ht') (hsupervised'.trans hsupervised) window))
      have hthere := h'.call_addCall ⟨none, .closing t window, .waiting false⟩
      have hmove : (h'.addCall ⟨none, .closing t window, .waiting false⟩).1.office.Move _ :=
        .openWindow hthere rfl (.inl ⟨⟨false, rfl⟩, rfl⟩)
          ((h'.addCall ⟨none, .closing t window, .waiting false⟩).1.jobs_setTimer window
            (.close h'.calls.length))
      refine Round.watch (hcall.move hmove) ⟨none, .window t window, .waiting false⟩ ?_ rfl
      exact List.getElem?_set_self (List.getElem?_eq_some_iff.1 hthere).1

/-- The host when some tasks have been asked to stop. -/
def asked (h : Host) (tasks : List Nat) : Host :=
  tasks.foldl (fun h t => match h.post t .stop with
    | .ok h => h
    | .error _ => h) h

theorem Round.asked (hr : Round o h) {tasks : List Nat}
    (htasks : ∀ t ∈ tasks, ∃ task, h.task? t = some task ∧ task.supervised = true) :
    Round o (h.asked tasks) ∧
    ∀ t ∈ tasks, ∃ task, (h.asked tasks).task? t = some task ∧ task.supervised = true := by
  refine List.foldlRecOn (motive := fun g : Host => Round o g ∧ ∀ t ∈ tasks, ∃ task,
    g.task? t = some task ∧ task.supervised = true) _ _ ⟨hr, htasks⟩ ?_
  rintro g ⟨hg, hthere⟩ u -
  cases hpost : g.post u .stop with
  | error fault => exact ⟨hg, hthere⟩
  | ok g' =>
    refine ⟨hg.post hpost, fun t hmem => ?_⟩
    obtain ⟨task, ht, hsupervised⟩ := hthere t hmem
    obtain ⟨task', ht', hsupervised'⟩ := supervised_of_post hpost ht
    exact ⟨task', ht', hsupervised'.trans hsupervised⟩

theorem office_addGuards (h : Host) (p : Nat) (timeout : Number) (tasks : List Nat) :
    (h.addGuards p timeout tasks).1.office = { h.office with
      calls := h.calls ++ tasks.map (Office.guard p timeout)
      queue := h.office.queue ++ (List.range' h.calls.length tasks.length).map .proceed } ∧
    (h.addGuards p timeout tasks).2 = List.range' h.calls.length tasks.length := by
  induction tasks generalizing h with
  | nil =>
    unfold Host.addGuards office
    simp
  | cons t rest ih =>
    have hnext := ih ((h.addCall (Office.guard p timeout t)).1.enqueue (.proceed h.calls.length))
    have hlength : ((h.addCall (Office.guard p timeout t)).1.enqueue
        (.proceed h.calls.length)).calls.length = h.calls.length + 1 := by
      unfold Host.enqueue Host.addCall
      simp
    rw [hlength] at hnext
    refine ⟨hnext.1.trans ?_, ?_⟩
    · rw [office_enqueue]
      unfold office Host.enqueue Host.addCall Office.push
      simp [List.range'_succ]
    · exact (congrArg (h.calls.length :: ·) hnext.2).trans (by simp [List.range'_succ])

theorem modify_here {α : Type} (before : List α) (x : α) (behind : List α) (f : α → α) :
    (before ++ x :: behind).modify before.length f = before ++ f x :: behind := by
  induction before with
  | nil => rfl
  | cons y before ih => simpa using ih

/-- What a shutdown of live instances leaves behind: its call, and one for each task that it
stops. -/
theorem office_shutdown (timeout : Option Number) (hlive : (h.live.map (·.2)).isEmpty = false) :
    let tasks := h.live.map (·.2)
    let g := h.asked tasks
    (h.shutdown timeout).2 = .later g.calls.length ∧
    (h.shutdown timeout).1.office = { g.office with
      calls := g.calls ++
        ⟨none, .join (List.range' (g.calls.length + 1) tasks.length) tasks.length,
          .waiting false⟩ ::
        tasks.map (Office.guard g.calls.length (timeout.getD g.settings.shutdownTimeout))
      queue := g.office.queue ++
        (List.range' (g.calls.length + 1) tasks.length).map .proceed } := by
  intro tasks g
  let guards := (g.addCall ⟨none, .join [] tasks.length, .waiting false⟩).1.addGuards
    g.calls.length (timeout.getD g.settings.shutdownTimeout) tasks
  have hshutdown : h.shutdown timeout = (guards.1.updateCall g.calls.length fun call =>
      { call with stage := .join guards.2 tasks.length }, .later g.calls.length) := by
    unfold Host.shutdown
    simp only
    rw [if_neg (by rw [hlive]; nofun)]
    rfl
  obtain ⟨hoffice, hchildren⟩ := office_addGuards
    (g.addCall ⟨none, .join [] tasks.length, .waiting false⟩).1 g.calls.length
    (timeout.getD g.settings.shutdownTimeout) tasks
  have hlength : (g.addCall ⟨none, .join [] tasks.length, .waiting false⟩).1.calls.length =
      g.calls.length + 1 := List.length_append
  rw [hlength] at hoffice hchildren
  rw [hshutdown]
  refine ⟨rfl, ?_⟩
  -- Only now does the call of the shutdown know its children.
  have hset : ∀ (g' : Host) (f : Call → Call), (g'.updateCall g.calls.length f).office =
      { g'.office with calls := g'.office.calls.modify g.calls.length f } := fun _ _ => rfl
  rw [hset, show guards.1.office = _ from hoffice, show guards.2 = _ from hchildren]
  simp only [addCall, List.append_assoc, List.singleton_append, modify_here]
  rfl

theorem Round.shutdown (hr : Round o h) (hstaffed : h.Staffed) (timeout : Option Number) :
    Round o (h.shutdown timeout).1 := by
  cases hlive : (h.live.map (·.2)).isEmpty with
  | true =>
    unfold Host.shutdown
    simp only [hlive, if_true]
    exact hr
  | false =>
    have htasks : ∀ t ∈ h.live.map (·.2), ∃ task, h.task? t = some task ∧
        task.supervised = true := by
      intro t hmem
      obtain ⟨p, hp, rfl⟩ := List.mem_map.1 hmem
      exact hstaffed p (List.mem_filter.1 hp).1
    obtain ⟨hasked, hthere⟩ := hr.asked htasks
    have hmove : (h.asked (h.live.map (·.2))).office.Move _ :=
      .shutdown (timeout.getD (h.asked (h.live.map (·.2))).settings.shutdownTimeout)
        fun t hmem =>
          have ⟨task, ht, hsupervised⟩ := hthere t hmem
          ⟨task.sign, sign_of_task ht, hsupervised⟩
    refine hasked.move ?_
    rw [(office_shutdown timeout hlive).2]
    exact hmove

/-! ## Calling off -/

theorem Round.cancelPlain (hr : Round o h) {call : Call} (hcall : h.calls[c]? = some call) :
    Round o (h.cancelPlain c call).1 := by
  unfold Host.cancelPlain
  split
  · exact hr
  · rename_i cancelled hrun
    exact hr.move (.callOffQueued hcall hrun)
  · rename_i cancelled hrun
    have hoff : ∀ {g : Host}, Round o g → g.calls = h.calls →
        Round o ((g.setCall c { call with run := .queued true }).enqueue (.proceed c)) := by
      intro g hg hcalls
      have hthere : g.office.calls[c]? = some call := by
        rw [← hcall, ← hcalls]
        rfl
      have hmove : g.office.Move _ := .callOff hthere hrun
      refine hg.move ?_
      rw [office_enqueue]
      exact hmove
    simp only
    split
    · exact hoff (hr.updateTask fun task _ => task.sign_abandon c) rfl
    · exact hoff hr rfl

theorem cancelPlain_done {call : Call} (hdone : (h.cancelPlain c call).2 = false) :
    (h.cancelPlain c call).1 = h := by
  unfold Host.cancelPlain at hdone ⊢
  revert hdone
  cases call.run <;> simp

/-- Calls that a shutdown made are called off: what every call that is called off keeps, is kept. If
none of them waits, nothing happens. -/
theorem callOffAll_keeps {P : Host → Prop} (h₀ : P h)
    (hkeeps : ∀ g d child, P g → g.calls[d]? = some child → P (g.cancelPlain d child).1)
    (children : List Nat) :
    let off := children.foldl (fun (h, any) d =>
      match h.calls[d]? with
      | some child =>
        let (h, b) := h.cancelPlain d child
        (h, any || b)
      | none => (h, any)) (h, false)
    P off.1 ∧ (off.2 = false → off.1 = h) := by
  refine List.foldlRecOn (motive := fun off : Host × Bool =>
    P off.1 ∧ (off.2 = false → off.1 = h)) _ _ ⟨h₀, fun _ => rfl⟩ ?_
  rintro ⟨g, any⟩ ⟨hg, hsame⟩ d -
  simp only at hg hsame ⊢
  cases hchild : g.calls[d]? with
  | none => exact ⟨hg, hsame⟩
  | some child =>
    refine ⟨hkeeps g d child hg hchild, fun hnone => ?_⟩
    obtain ⟨hany, hb⟩ := Bool.or_eq_false_iff.1 hnone
    exact (cancelPlain_done hb).trans (hsame hany)

theorem Round.cancelCall (hr : Round o h) (c : Nat) : Round o (h.cancelCall c).1 := by
  unfold Host.cancelCall
  cases hcall : h.calls[c]? with
  | none => exact hr
  | some call =>
    simp only
    split
    · rename_i children left cancelled hstage hrun
      obtain ⟨hoff, hsame⟩ :=
        callOffAll_keeps hr (fun _ _ _ hg hchild => hg.cancelPlain hchild) children
      split
      · exact hoff
      · rename_i hany
        have hmove : h.office.Move _ := .callOffLater hcall hrun
        have hset : h.updateCall c (fun call => { call with run := .waiting true }) =
            h.setCall c { call with run := .waiting true } := by
          unfold Host.updateCall Host.setCall
          rw [List.modify_eq_set_getElem?, hcall]
          rfl
        have hlater : ∀ g, g = h →
            Round o (g.updateCall c fun call => { call with run := .waiting true }) := by
          rintro g rfl
          exact hset ▸ hr.move hmove
        exact hlater _ (hsame (eq_false_of_ne_true hany))
    · exact hr.cancelPlain hcall

/-! ## Starting -/

theorem Round.create (hr : Round o h) (choice : MachineChoice) (name payload : Value)
    (outlet : Outlet) : Round o (h.create choice name payload outlet).1 := by
  unfold Host.create
  split
  · exact hr
  · exact hr
  · refine hr.move ?_
    have hmove : h.office.Move _ := .create
    have hoffice : ∀ m, (h.nextNumber.1.addTask {
        inst := .create m name payload
        number := some h.numbers
        supervised := false
        outlet := outlet }).1.office =
          { h.office with signs := h.office.signs ++ [Sign.new .absent false] } := by
      intro m
      unfold office Host.addTask Host.nextNumber
      simp [Task.sign, Sign.new, Instance.create, Instance.outside, Instance.hungry]
    exact hoffice _ ▸ hmove

theorem Round.start (hr : Round o h) (choice : MachineChoice) (name payload : Value) :
    Round o (h.start choice name payload).1 := by
  unfold Host.start
  split
  · exact hr
  · split
    · exact hr
    · simp only
      split
      · exact hr
      · have hfresh : ∀ restarts, Round o ({ h with restarts := restarts } : Host) :=
          fun _ => hr.aside rfl
        split
        · exact hfresh _
        · have hnumber : ∀ {g : Host}, Round o g → Round o g.nextNumber.1 :=
            fun hg => hg.aside rfl
          exact (hnumber (hfresh _)).spawn _ _ _ _

/-! ## Runs -/

theorem Round.accepted (hr : Round o h) (t : Nat) (r : Request) :
    Round o (h.accepting (h.post t r)) := hr.accepting fun _ hpost => hr.post hpost

/-- Whatever happens to a host is some moves of its office. -/
theorem round_act (hsteady : h.Steady)
    (hplaced : ∀ t task, h.task? t = some task → task.inst.Placed) (hstaffed : h.Staffed)
    (d : Deed) : Round h.office (h.act d) := by
  have hr : Round h.office h := .refl
  cases d with
  | step => exact hr.step hsteady hplaced
  | pass time => exact hr.aside rfl
  | register registry => exact hr.aside rfl
  | subscribe bus => exact hr.aside rfl
  | start choice name payload => exact hr.start choice name payload
  | send s => exact hr.accepting fun _ hsend => hr.send hsend
  | query name kind argument => exact hr.query name kind argument
  | wait name => exact hr.wait name
  | stop name timeout => exact hr.stop hstaffed name timeout
  | shutdown timeout => exact hr.shutdown hstaffed timeout
  | giveUp c => exact hr.cancelCall c
  | create choice name payload outlet => exact hr.create choice name payload outlet
  | startTask t => exact hr.startTask t
  | tell t event payload => exact hr.accepted t _
  | ask t question => exact hr.ask t question
  | requestStop t => exact hr.accepted t _
  | cancel t => exact hr.cancelTask t

end Host
end Turnstile
