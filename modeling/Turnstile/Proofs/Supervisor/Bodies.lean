-- The bodies of the tasks of a name, as they run, wait, are cancelled and end: each slice of them
-- stays with the name, whoever else there is. All that it takes is that their hooks keep to
-- themselves and that the questions in their mailboxes are questions put to them.
import Turnstile.Proofs.Supervisor.Slices

namespace Turnstile

/-! ## Hooks that keep to themselves -/

namespace Hook

variable {Call α : Type} {k : Hook Call α} {b n : Value}

/-- Who keeps to itself under a name does so under every spelling of the name. -/
theorem Homely.congr (hn : n.IsName) (hnb : n.same b = true) (hhome : k.Homely n) :
    k.Homely b := by
  have hsame : ∀ p : Value, p.same n = p.same b := Value.same_congr hn hnb
  constructor
  · intro past call s hs
    rw [← hsame]
    exact hhome.sends past call s hs
  · intro past call
    simp only [← hsame]
    exact hhome.past past call

end Hook

theorem BoundHooks.Homely.congr {hooks : BoundHooks} {b n : Value} (hn : n.IsName)
    (hnb : n.same b = true) (hhome : hooks.Homely n) : hooks.Homely b :=
  ⟨hhome.onTransition.congr hn hnb, hhome.onFailure.congr hn hnb, hhome.onTerminate.congr hn hnb⟩

/-- The default hooks keep to themselves: they send nothing and remember nothing. -/
theorem Machine.homely_defaults (name : String) (table : Table) (b : Value) :
    (Machine.ofTable name table {}).hooks.Homely b := by
  refine ⟨⟨?_, ?_⟩, ⟨?_, ?_⟩, ⟨?_, ?_⟩⟩ <;>
    simp [Machine.ofTable, Hooks.bind, Hook.followTable, Hook.noAction]

namespace Host

variable {h h' : Host} {t c : Nat} {task : Task} {b name : Value} {s : Solo}

/-- The questions in the mailboxes of a name are questions put to it. -/
def Asked (h : Host) (b : Value) : Prop :=
  ∀ t task, h.task? t = some task → task.isOf b = true → ∀ c ∈ task.inst.waiting,
    ∃ call, h.calls[c]? = some call ∧ h.asks b call = true

/-! ## Effects -/

/-- A hook is called: the call is noted, and the hook goes by the past of its own name. -/
theorem plays_hook {Call α : Type} (hb : b.IsName) (htied : h.Tied) (hof : h.isOf b t = true)
    (hname : name.same b = true) {k : Hook Call α} (hhome : k.Homely b) (call : Call)
    (noted : HookCall) (stimulus : Except Fault α → Stimulus) :
    Plays b h ((h.noteCall name k.origin noted).react t (k.react h.past call) stimulus)
      (((h.solo b).noteCall name noted).react (h.place b t) (k.react (h.solo b).past call)
        stimulus) := by
  have hnoted : Plays b h (h.noteCall name k.origin noted) ((h.solo b).noteCall name noted) :=
    plays_noteCall hb hname k.origin noted
  have hpast : k.react h.past call = k.react (h.solo b).past call := hhome.past h.past call
  have hreact := plays_react hb (htied.slice hnoted.slice) (hnoted.isOf hof)
    (hhome.sends h.past call) stimulus
  rw [hnoted.solo, hnoted.slice.place, hpast] at hreact
  rw [hpast]
  exact hnoted.trans hreact

/-- What is asked of a host and of a supervisor of one name is done alike. -/
theorem plays_perform (hb : b.IsName) (htied : h.Tied) (hhome : h.Homely b)
    (hof : h.isOf b t = true) {e : Effect}
    (hasked : ∀ c result, e = .answer c result →
      ∃ call, h.calls[c]? = some call ∧ h.asks b call = true) :
    Plays b h (h.perform t e)
      ((h.solo b).perform (h.place b t) (e.renumber (h.turn b))) := by
  obtain ⟨task, ht, hmine⟩ := exists_of_isOf hof
  obtain ⟨htransition, hfailure, hterminate⟩ := hhome t task ht hmine
  have hthere := solo_task ht hmine
  unfold Host.perform Solo.perform
  simp only [ht, hthere]
  cases e with
  | log level text => exact plays_aside b rfl rfl rfl rfl rfl rfl
  | askTransition call => exact plays_hook hb htied hof hmine htransition call _ _
  | askFailure call => exact plays_hook hb htied hof hmine hfailure call _ _
  | askTerminate runState => exact plays_hook hb htied hof hmine hterminate runState _ _
  | answer c result =>
    obtain ⟨call, hcall, hasks⟩ := hasked c result rfl
    exact plays_resolve hb hcall hasks result
  | publish n =>
    have houtlet : (task.plain (h.turn b)).outlet = task.outlet := rfl
    simp only [Effect.renumber, houtlet]
    cases task.outlet with
    | shared =>
      obtain ⟨events, hevents⟩ := h.publish_eq (some task.inst.name) n
      have hverdict := h.publish_verdict (some task.inst.name) n
      generalize h.publish (some task.inst.name) n = published at hevents hverdict
      obtain ⟨h', result⟩ := published
      obtain rfl : h' = { h with events := events } := hevents
      obtain rfl : result = h.bus.verdict n := hverdict
      have hseen : Plays b h { h with events := events } (h.solo b) :=
        plays_aside b rfl rfl rfl rfl rfl rfl
      exact hseen.trans (plays_setAnswer hb (hseen.isOf hof) (.published (h.bus.verdict n)))
    | own =>
      have hseen : Plays b h (h.see (.published .own n)) (h.solo b) :=
        plays_aside b rfl rfl rfl rfl rfl rfl
      exact hseen.trans (plays_setAnswer hb (hseen.isOf hof) (.published (.ok ())))
    | nowhere => exact plays_setAnswer hb hof (.published (.ok ()))

theorem plays_effects (hb : b.IsName) (htied : h.Tied) (hhome : h.Homely b)
    (hof : h.isOf b t = true) (effects : List Effect)
    (hasked : ∀ c result, .answer c result ∈ effects →
      ∃ call, h.calls[c]? = some call ∧ h.asks b call = true) :
    Plays b h (effects.foldl (fun h e => h.perform t e) h)
      ((effects.map (Effect.renumber (h.turn b))).foldl (fun s e => s.perform (h.place b t) e)
        (h.solo b)) := by
  induction effects generalizing h with
  | nil => exact .refl b h
  | cons e effects ih =>
    have hfirst := plays_perform hb htied hhome hof (e := e)
      fun c result he => hasked c result (he ▸ List.mem_cons_self)
    have hrest := ih (htied.slice hfirst.slice) (hhome.slice hfirst.slice) (hfirst.isOf hof)
      fun c result he => by
        obtain ⟨call, hcall, hasks⟩ := hasked c result (List.mem_cons_of_mem _ he)
        exact hfirst.slice.call hcall hasks
    have hturn := funext (hfirst.slice.turn b)
    rw [hfirst.solo, hfirst.slice.place, hturn] at hrest
    exact hfirst.trans hrest

/-! ## Bodies -/

/-- The answers that a body gives are given to those in its mailbox. -/
theorem waiting_of_answer {i : Instance} {stimulus : Stimulus} {result : Except Fault Answer}
    (he : .answer c result ∈ (i.step stimulus).2) : c ∈ i.waiting := by
  have hserves : i.Serves ((i.step stimulus).1, (i.step stimulus).2) := i.serves_step stimulus
  rw [hserves.waiting_eq]
  apply List.mem_append_left
  have hanswer : (c, result) ∈ answers (i.step stimulus).2 := List.mem_filterMap.2 ⟨_, he, rfl⟩
  exact List.mem_map_of_mem hanswer

theorem plays_feed (hb : b.IsName) (htied : h.Tied) (hhome : h.Homely b) (hasked : h.Asked b)
    (hof : h.isOf b t = true) (stimulus : Stimulus) :
    Plays b h (h.feed t stimulus) ((h.solo b).feed (h.place b t) stimulus) := by
  obtain ⟨task, ht, hmine⟩ := exists_of_isOf hof
  have hthere := solo_task ht hmine
  have hstep : (task.plain (h.turn b)).inst.step stimulus = _ :=
    task.inst.step_renumber stimulus
  have hsame := task.inst.step_becomes stimulus
  have hset := plays_setTask hb ht hmine
    { task with inst := (task.inst.step stimulus).1, answer := none } hsame.name hsame.machine
  have heffects := plays_effects hb (htied.slice hset.slice) (hhome.slice hset.slice)
    (hset.isOf hof) (task.inst.step stimulus).2 fun c result he => by
      obtain ⟨call, hcall, hasks⟩ := hasked t task ht hmine c (waiting_of_answer he)
      exact hset.slice.call hcall hasks
  have hturn := funext (hset.slice.turn b)
  rw [hset.solo, hset.slice.place, hturn] at heffects
  unfold Host.feed Solo.feed
  simp only [ht, hthere, hstep]
  exact hset.trans heffects

theorem Asked.slice (hasked : h.Asked b) (hs : Slice h h')
    (hsame : ∀ t task', h'.task? t = some task' → ∃ task, h.task? t = some task ∧
      task'.inst = task.inst) : h'.Asked b := by
  intro t task' ht' hof' c hc
  obtain ⟨task, ht, hinst⟩ := hsame t task' ht'
  have hof : task.isOf b = true := by
    unfold Task.isOf at hof' ⊢
    rw [← hinst]
    exact hof'
  obtain ⟨call, hcall, hasks⟩ := hasked t task ht hof c (hinst ▸ hc)
  exact hs.call hcall hasks

/-- A task comes to do something else. -/
theorem plays_setRun (hb : b.IsName) (ht : h.task? t = some task) (hof : task.isOf b = true)
    (run : TaskRun) : Plays b h (h.setTask t { task with run := run })
      ((h.solo b).setTask (h.place b t) { task.plain (h.turn b) with run := run.plain }) :=
  plays_setTask hb ht hof _ rfl rfl

theorem Asked.setRun (hasked : h.Asked b) (ht : h.task? t = some task) (hs : Slice h h')
    {run : TaskRun} (htasks : h'.tasks = (h.setTask t { task with run := run }).tasks) :
    h'.Asked b := by
  refine hasked.slice hs fun u task' hu => ?_
  rw [task?_of_tasks htasks] at hu
  by_cases heq : t = u
  · subst heq
    rw [task?_setTask_self ht] at hu
    obtain rfl := Option.some.inj hu
    exact ⟨task, ht, rfl⟩
  · rw [task?_setTask_ne heq] at hu
    exact ⟨task', hu, rfl⟩

theorem enqueue_all (h : Host) (jobs : List Nat) :
    ∃ ready, jobs.foldl (fun h c => h.enqueue (.taskEnded c)) h = { h with ready := ready } := by
  induction jobs generalizing h with
  | nil => exact ⟨h.ready, rfl⟩
  | cons c jobs ih =>
    obtain ⟨ready, hready⟩ := ih (h.enqueue (.taskEnded c))
    exact ⟨ready, hready⟩

/-- The end of a task is told to those who wait for it, and nobody else. -/
theorem plays_endTask (hb : b.IsName) (ht : h.task? t = some task) (hof : task.isOf b = true) :
    Plays b h (h.endTask t task) ((h.solo b).setTask (h.place b t)
      { task.plain (h.turn b) with run := .ended }) := by
  have hset : Plays b h (h.setTask t { task with run := .ended, watchers := [] })
      ((h.solo b).setTask (h.place b t) { task.plain (h.turn b) with run := .ended }) :=
    plays_setTask hb ht hof _ rfl rfl
  unfold Host.endTask
  simp only
  generalize htold : (if task.supervised = true then _ else _ : Host) = told
  have htold : Plays b h told
      ((h.solo b).setTask (h.place b t) { task.plain (h.turn b) with run := .ended }) := by
    rw [← htold]
    split
    · exact hset.aside rfl rfl rfl rfl rfl rfl
    · exact hset.aside rfl rfl rfl rfl rfl rfl
  obtain ⟨ready, hready⟩ := told.enqueue_all task.watchers
  rw [hready]
  exact htold.aside rfl rfl rfl rfl rfl rfl

/-- A body moves on, waits or ends. -/
theorem plays_runTask (hb : b.IsName) (htied : h.Tied) (hhome : h.Homely b) (hasked : h.Asked b)
    (hof : h.isOf b t = true) :
    Plays b h (h.runTask t) ((h.solo b).runTask (h.place b t)) := by
  obtain ⟨task, ht, hmine⟩ := exists_of_isOf hof
  have hthere := solo_task ht hmine
  have hfeed := plays_feed hb htied hhome hasked hof
  have hempty : (task.plain (h.turn b)).inst.mailbox.isEmpty = task.inst.mailbox.isEmpty := by
    show (task.inst.mailbox.map _).isEmpty = _
    simp
  have hphase : (task.plain (h.turn b)).inst.phase = task.inst.phase := rfl
  have hanswer : (task.plain (h.turn b)).answer = task.answer := rfl
  unfold Host.runTask Solo.runTask
  simp only [ht, hthere, hempty, hphase, hanswer]
  cases task.inst.phase with
  | finished ending => exact plays_endTask hb ht hmine
  | fresh => exact hfeed .start
  | idle =>
    cases task.inst.mailbox.isEmpty with
    | true => exact plays_block hb hof .receiving
    | false => exact hfeed .receive
  | _ =>
    cases task.answer with
    | some stimulus => exact hfeed stimulus
    | none => exact plays_block hb hof (.paused none)

/-- A queued task runs, or is told that it was cancelled. -/
theorem plays_resume (hb : b.IsName) (htied : h.Tied) (hhome : h.Homely b) (hasked : h.Asked b)
    (hof : h.isOf b t = true) : Plays b h (h.resume t) ((h.solo b).resume (h.place b t)) := by
  obtain ⟨task, ht, hmine⟩ := exists_of_isOf hof
  have hthere := solo_task ht hmine
  have hrun : (task.plain (h.turn b)).run = task.run.plain := rfl
  have hcancellation : (task.plain (h.turn b)).inst.cancellation = task.inst.cancellation :=
    task.inst.cancellation_renumber
  unfold Host.resume Solo.resume
  simp only [ht, hthere, hrun, hcancellation]
  cases task.run with
  | queued cancelled =>
    have hactive : Plays b h
        { h.setTask t { task with run := .active } with running := some t } _ :=
      (plays_setRun hb ht hmine .active).aside rfl rfl rfl rfl rfl rfl
    cases cancelled with
    | false => exact hactive
    | true =>
      have hfeed := plays_feed hb (htied.slice hactive.slice) (hhome.slice hactive.slice)
        (hasked.setRun ht hactive.slice rfl) (hactive.isOf hof) task.inst.cancellation
      rw [hactive.solo, hactive.slice.place] at hfeed
      exact hactive.trans hfeed
  | paused serial => cases serial <;> exact .refl b h
  | absent => exact .refl b h
  | active => exact .refl b h
  | receiving => exact .refl b h
  | ended => exact .refl b h

/-- The pause of a hook is over. -/
theorem plays_wake (hb : b.IsName) (ht : h.task? t = some task) (hof : task.isOf b = true)
    {serial : Nat} (hrun : task.run = .paused (some serial)) :
    Plays b h (h.wake t serial) ((h.solo b).wake (h.place b t)) := by
  have hthere := solo_task ht hof
  have hplain : (task.plain (h.turn b)).run = .paused (some 0) := by
    show task.run.plain = _
    rw [hrun]
    simp [TaskRun.plain]
  unfold Host.wake Solo.wake
  simp only [ht, hthere, hrun, hplain, if_true]
  exact (plays_setRun hb ht hof (.queued false)).aside rfl rfl rfl rfl rfl rfl

/-- A task is cancelled where it waits. -/
theorem plays_cancelTask (hb : b.IsName) (hof : h.isOf b t = true) :
    Plays b h (h.cancelTask t).1 ((h.solo b).cancel (h.place b t)) := by
  obtain ⟨task, ht, hmine⟩ := exists_of_isOf hof
  have hthere := solo_task ht hmine
  have hrun : (task.plain (h.turn b)).run = task.run.plain := rfl
  have hset := plays_setRun hb ht hmine (.queued true)
  unfold Host.cancelTask Solo.cancel
  simp only [ht, hthere, hrun]
  cases task.run with
  | absent => exact .refl b h
  | ended => exact .refl b h
  | active => exact .refl b h
  | queued cancelled => exact hset
  | receiving => exact hset.aside rfl rfl rfl rfl rfl rfl
  | paused serial =>
    cases serial with
    | none => exact hset.aside rfl rfl rfl rfl rfl rfl
    | some serial => exact hset.aside rfl rfl rfl rfl rfl rfl

end Host
end Turnstile
