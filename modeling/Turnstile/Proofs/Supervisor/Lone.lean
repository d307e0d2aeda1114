-- A host in which one task runs and nobody listens: while the hooks of its instance only compute and
-- write nothing, the task moves on as the live instance does, whoever the instance answers gets the
-- answer, and no line is written.
import Turnstile.Proofs.Instance.Undisturbed
import Turnstile.Proofs.Supervisor.Alone
import Turnstile.Supervisor.Dialogue

namespace Turnstile

/-- The line that an event is, if it is one. -/
def Event.line? : Event → Option String
  | .line text => some text
  | _ => none

/-- The lines among some events. -/
def linesOf (events : List Event) : List String := events.filterMap Event.line?

theorem linesOf_append (events more : List Event) :
    linesOf (events ++ more) = linesOf events ++ linesOf more := List.filterMap_append

/-- A reaction that only computes, and writes nothing. -/
structure Reaction.IsSilent {α : Type} (r : Reaction α) : Prop where
  sends : r.sends = []
  pause : r.pause = .none
  lines : r.lines = []

/-- Hooks that only compute, and write nothing. -/
abbrev BoundHooks.Silent (hooks : BoundHooks) : Prop := hooks.All Reaction.IsSilent

/-- The hooks that come with a table are silent. -/
theorem silent_defaults (typeName : String) (t : Table) :
    (Machine.ofTable typeName t {}).hooks.Silent :=
  ⟨fun _ _ => ⟨rfl, rfl, rfl⟩, fun _ _ => ⟨rfl, rfl, rfl⟩, fun _ _ => ⟨rfl, rfl, rfl⟩⟩

/-- The hooks that come with a table only compute. -/
theorem defaults_plain (typeName : String) (t : Table) :
    (Machine.ofTable typeName t {}).hooks.Plain where
  onTransition _ call :=
    { pause := rfl
      sends := rfl
      ordinary := fun fault hfault => by
        obtain ⟨v, rfl⟩ := follow_error (t := t) hfault
        exact ⟨rfl, rfl⟩ }
  onFailure _ _ := ⟨⟨rfl, nofun⟩, rfl⟩
  onTerminate _ _ := ⟨⟨rfl, nofun⟩, rfl⟩

namespace Live

variable {l l' : Live} {n : Nat}

theorem replies_foldl_perform (effects : List Effect) (l : Live) :
    replies (effects.foldl perform l).seen = replies l.seen ++ answers effects := by
  induction effects generalizing l with
  | nil => exact (List.append_nil _).symm
  | cons e effects ih =>
    rw [List.foldl_cons, ih, answers_cons, ← List.append_assoc]
    congr 1
    cases e with
    | log level text => exact (List.append_nil _).symm
    | _ => exact replies_append _ _

/-- Who is answered in a step is answered from then on. -/
theorem replies_become (l : Live) (next : Instance × List Effect) :
    replies (l.become next).seen = replies l.seen ++ answers next.2 := by
  have hcommits : replies (commits l.inst next.1) = [] := by
    unfold commits
    split <;> rfl
  unfold become
  rw [replies_foldl_perform, replies_append, hcommits, List.append_nil]

/-- An instance for which nobody waits answers nobody on its way. -/
theorem Passes.unanswered (hpasses : l.Passes n l') (hwaiting : l.inst.waiting = []) :
    replies l'.seen = replies l.seen := by
  have hstep : ∀ {l : Live} (s : Stimulus), l.inst.waiting = [] →
      replies (l.become (l.inst.step s)).seen = replies l.seen := by
    intro l s hwaiting
    rw [replies_become, (nobody_answered hwaiting s).1, List.append_nil]
  induction hpasses with
  | refl l => rfl
  | @step l l' n hbusy hrest ih =>
    refine (ih (l.proceed_keeps.2 hwaiting)).trans ?_
    unfold proceed
    split
    · exact hstep _ hwaiting
    · exact hstep _ hwaiting
    · rfl
    · exact hstep _ hwaiting

/-- What is no question to a hook and no publication changes nothing but what was seen. -/
theorem foldl_perform_quiet {effects : List Effect} (hquiet : ∀ e ∈ effects, e.IsQuiet) (l : Live) :
    ∃ seen, effects.foldl perform l = { l with seen := seen } := by
  induction effects generalizing l with
  | nil => exact ⟨l.seen, rfl⟩
  | cons e effects ih =>
    obtain ⟨he, hrest⟩ := List.forall_mem_cons.1 hquiet
    obtain ⟨seen, hseen⟩ := ih hrest (l.perform e)
    refine ⟨seen, ?_⟩
    rw [List.foldl_cons, hseen]
    cases he <;> rfl

end Live

namespace Host

theorem lines_eq_linesOf (h : Host) : h.lines = linesOf h.events := by
  unfold lines linesOf
  congr 1

variable {h g : Host} {t n : Nat} {task : Task} {past : HookPast} {events : List Event}
  {l l' : Live}

/-! ## Answers -/

/-- The host in which some calls have got their answers. -/
def answered (h : Host) (given : List (Nat × Except Fault Answer)) : Host :=
  given.foldl (fun h r => h.resolve r.1 r.2) h

theorem answered_append (h : Host) (given more : List (Nat × Except Fault Answer)) :
    h.answered (given ++ more) = (h.answered given).answered more := List.foldl_append

theorem resolve_frame (h : Host) (c : Nat) (result : Except Fault Answer) :
    (h.resolve c result).tasks = h.tasks ∧ (h.resolve c result).bus = h.bus := by
  unfold resolve
  split <;> exact ⟨rfl, rfl⟩

theorem answered_frame (h : Host) (given : List (Nat × Except Fault Answer)) :
    (h.answered given).tasks = h.tasks ∧ (h.answered given).bus = h.bus := by
  induction given generalizing h with
  | nil => exact ⟨rfl, rfl⟩
  | cons r given ih =>
    obtain ⟨htasks, hbus⟩ := h.resolve_frame r.1 r.2
    obtain ⟨htasks', hbus'⟩ := ih (h.resolve r.1 r.2)
    exact ⟨htasks'.trans htasks, hbus'.trans hbus⟩

theorem moving_resolve (c : Nat) (result : Except Fault Answer) :
    (h.moving t task past events).resolve c result =
      (h.resolve c result).moving t task past events := by
  have hcalls : (h.moving t task past events).calls = h.calls := rfl
  unfold resolve
  rw [hcalls]
  split <;> rfl

/-! ## Effects -/

theorem answers_of_asks {i : Instance} {e : Effect} (hasks : i.Asks e) : answers [e] = [] := by
  cases hasks <;> rfl

section
variable (ht : t < h.tasks.length)
include ht

/-- What is no question to a hook and no publication is a record of the log, or an answer. -/
theorem moving_quiet (task : Task) (past : HookPast) {effects : List Effect}
    (hquiet : ∀ e ∈ effects, e.IsQuiet) (events : List Event) : ∃ events', linesOf events' = linesOf events ∧
      effects.foldl (fun h e => h.perform t e) (h.moving t task past events) =
        (h.answered (answers effects)).moving t task past events' := by
  induction effects generalizing h events with
  | nil => exact ⟨events, rfl, rfl⟩
  | cons e effects ih =>
    obtain ⟨he, hrest⟩ := List.forall_mem_cons.1 hquiet
    rw [List.foldl_cons]
    cases he with
    | log level text =>
      obtain ⟨events', hlines, hevents⟩ :=
        ih ht hrest (events ++ [.logged (some task.inst.name) level text])
      refine ⟨events', hlines.trans ((linesOf_append _ _).trans (List.append_nil _)), ?_⟩
      unfold perform
      rw [moving_task ht]
      exact hevents
    | answer c result =>
      have ht' : t < (h.resolve c result).tasks.length := by rwa [(h.resolve_frame c result).1]
      obtain ⟨events', hlines, hevents⟩ := ih ht' hrest events
      refine ⟨events', hlines, ?_⟩
      unfold perform
      rw [moving_task ht]
      simp only
      rw [moving_resolve]
      exact hevents

theorem moving_silent {α : Type} {r : Reaction α} (hsilent : r.IsSilent)
    (stimulus : Except Fault α → Stimulus) : (h.moving t task past events).react t r stimulus =
      h.moving t { task with answer := some (stimulus r.result) } past events := by
  unfold react
  simp only [hsilent.lines, hsilent.sends, hsilent.pause, sendAll, Host.pause, List.foldl_nil]
  exact moving_setAnswer ht _

/-- What the body asks for is done as the live instance has it, and no line is written. -/
theorem moving_asks_silent (task : Task) (events : List Event) (hbus : h.bus = {})
    (hsilent : l.inst.machine.hooks.Silent) {e : Effect} (hasks : l.inst.Asks e)
    (answer : Option Stimulus) :
    ∃ events', linesOf events' = linesOf events ∧
      (h.moving t { task with inst := l.inst, answer := answer } l.past events).perform t e =
        h.moving t { task with inst := l.inst, answer := some (l.perform e).awaited }
          (l.perform e).past events' := by
  have hseen : ∀ e : Event, e.line? = none → linesOf (events ++ [e]) = linesOf events := by
    intro e he
    have hnone : linesOf [e] = [] := by simp [linesOf, he]
    rw [linesOf_append, hnone, List.append_nil]
  unfold perform
  rw [moving_task ht]
  cases hasks with
  | transition call hphase =>
    exact ⟨_, hseen _ rfl, moving_silent ht (hsilent.onTransition l.past call) .decided⟩
  | failure call hphase =>
    exact ⟨_, hseen _ rfl, moving_silent ht (hsilent.onFailure l.past call) .handled⟩
  | terminate hphase =>
    exact ⟨_, hseen _ rfl, moving_silent ht (hsilent.onTerminate l.past l.inst.runState) .handled⟩
  | publish n hphase =>
    simp only
    split
    · have hnobody : ((h.moving t { task with inst := l.inst, answer := answer } l.past
          events).publish (some l.inst.name) n) = (h.moving t
            { task with inst := l.inst, answer := answer } l.past
            (events ++ [.published .shared n]), .ok ()) := by
        have hnone : (h.moving t { task with inst := l.inst, answer := answer } l.past
            events).bus.inOrder n.topic = [] := by
          show h.bus.inOrder n.topic = []
          rw [hbus]
          simp [Bus.inOrder, Bus.onTopic]
        unfold publish
        rw [hnone]
        rfl
      rw [hnobody]
      exact ⟨_, hseen _ rfl, moving_setAnswer ht _⟩
    · exact ⟨_, hseen _ rfl, moving_setAnswer ht _⟩
    · exact ⟨events, rfl, moving_setAnswer ht _⟩

/-- What a step wants done is done as the live instance has it. -/
theorem moving_poses (task : Task) (events : List Event) (hbus : h.bus = {})
    (hsilent : l.inst.machine.hooks.Silent) {effects : List Effect} (hposes : Instance.Poses (l.inst, effects)) :
    ∃ answer events', linesOf events' = linesOf events ∧
      effects.foldl (fun h e => h.perform t e)
          (h.moving t { task with inst := l.inst, answer := none } l.past events) =
        (h.answered (answers effects)).moving t { task with inst := l.inst, answer := answer }
          (effects.foldl Live.perform l).past events' ∧
      (l.inst.phase.IsFree ∨ answer = some (effects.foldl Live.perform l).awaited ∧
        l.inst.phase.Awaits (effects.foldl Live.perform l).awaited) := by
  cases hposes with
  | free hfree hquiet =>
    obtain ⟨events', hlines, hevents⟩ :=
      moving_quiet ht { task with inst := l.inst, answer := none } l.past hquiet events
    obtain ⟨seen, hseen⟩ := Live.foldl_perform_quiet hquiet l
    rw [hseen]
    exact ⟨none, events', hlines, hevents, .inl hfree⟩
  | @asking quiet e heffects hquiet hasks =>
    obtain rfl : effects = quiet ++ [e] := heffects
    obtain ⟨events', hlines, hevents⟩ :=
      moving_quiet ht { task with inst := l.inst, answer := none } l.past hquiet events
    obtain ⟨seen, hseen⟩ := Live.foldl_perform_quiet hquiet l
    obtain ⟨htasks, hbus'⟩ := h.answered_frame (answers quiet)
    have ht' : t < (h.answered (answers quiet)).tasks.length := by rwa [htasks]
    obtain ⟨events'', hlines', hevents'⟩ := moving_asks_silent (l := { l with seen := seen }) ht' task
      events' (hbus'.trans hbus) hsilent hasks none
    have hnone : answers (quiet ++ [e]) = answers quiet := by
      rw [answers_append, answers_of_asks hasks, List.append_nil]
    rw [List.foldl_append, List.foldl_append, hnone, hevents, hseen]
    exact ⟨_, events'', hlines'.trans hlines, hevents',
      .inr ⟨rfl, awaits_of_asks (l := { l with seen := seen }) hasks⟩⟩

end

/-! ## The task and its live instance -/

/-- The running task stands where a live instance stands, in a host that has given the answers of the
instance and is otherwise as it was, but for what was seen; and no line was. -/
def Echoes (h : Host) (t : Nat) (task : Task) (l : Live) (g : Host) : Prop :=
  ∃ answer events, linesOf events = linesOf h.events ∧
    g = (h.answered (replies l.seen)).moving t { task with inst := l.inst, answer := answer } l.past
      events ∧
    (l.inst.phase.IsFree ∨ answer = some l.awaited ∧ l.inst.phase.Awaits l.awaited)

/-- The body is given what fits: it takes the step of the live instance. -/
theorem echoes_feed (ht : t < h.tasks.length) (hbus : h.bus = {})
    (hsilent : l.inst.machine.hooks.Silent) {s : Stimulus} (hfits : l.inst.Fits s)
    (answer : Option Stimulus) (hlines : linesOf events = linesOf h.events) :
    Echoes h t task (l.become (l.inst.step s))
      (((h.answered (replies l.seen)).moving t { task with inst := l.inst, answer := answer } l.past
        events).feed t s) := by
  obtain ⟨htasks, hbus'⟩ := h.answered_frame (replies l.seen)
  have ht' : t < (h.answered (replies l.seen)).tasks.length := by rwa [htasks]
  -- The live instance before it carries the effects out.
  let l' : Live :=
    { l with inst := (l.inst.step s).1, seen := l.seen ++ Live.commits l.inst (l.inst.step s).1 }
  have hmachine : l'.inst.machine = l.inst.machine := (l.inst.step_becomes s).machine
  obtain ⟨answer', events', hlines', hevents, hstands⟩ := moving_poses (l := l') ht' task events
    (hbus'.trans hbus) (hmachine ▸ hsilent) (Instance.poses_step hfits)
  have hset : ((h.answered (replies l.seen)).moving t { task with inst := l.inst, answer := answer }
      l.past events).setTask t
        { task with inst := l'.inst, answer := none, run := .active } =
      (h.answered (replies l.seen)).moving t { task with inst := l'.inst, answer := none } l.past
        events := moving_setTask { task with inst := l'.inst, answer := none }
  have hfeed : ((h.answered (replies l.seen)).moving t
      { task with inst := l.inst, answer := answer } l.past events).feed t s =
      (l.inst.step s).2.foldl (fun h e => h.perform t e) ((h.answered (replies l.seen)).moving t
        { task with inst := l'.inst, answer := none } l.past events) := by
    unfold feed
    rw [moving_task ht']
    exact congrArg ((l.inst.step s).2.foldl fun h e => h.perform t e) hset
  have hbecome : (l.become (l.inst.step s)).inst = l'.inst := l.become_inst _
  unfold Echoes
  rw [hfeed, l.replies_become, answered_append, hbecome]
  exact ⟨answer', events', hlines'.trans hlines, hevents, hstands⟩

/-- A step of the host is a step of the live instance. -/
theorem Echoes.step (hechoes : Echoes h t task l g) (ht : t < h.tasks.length) (hbus : h.bus = {})
    (hsilent : l.inst.machine.hooks.Silent) (hbusy : ¬l.AtRest) :
    Echoes h t task l.proceed g.step := by
  obtain ⟨answer, events, hlines, rfl, hstands⟩ := hechoes
  have ht' : t < (h.answered (replies l.seen)).tasks.length := by rwa [(h.answered_frame _).1]
  obtain ⟨s, hfits, hproceed, hstep⟩ := moving_step task ht' hstands hbusy l.past events
  rw [hproceed, hstep]
  exact echoes_feed ht hbus hsilent hfits answer hlines

/-- Until the live instance is at rest, the host does nothing but move its task on. -/
theorem Echoes.passes (hechoes : Echoes h t task l g) (ht : t < h.tasks.length) (hbus : h.bus = {})
    (hsilent : l.inst.machine.hooks.Silent) (hpasses : l.Passes n l') :
    Echoes h t task l' (Host.step^[n] g) := by
  induction hpasses generalizing g with
  | refl l => exact hechoes
  | @step l l' n hbusy hrest ih =>
    rw [Function.iterate_succ_apply]
    exact ih (hechoes.step ht hbus hsilent hbusy) (l.proceed_keeps.1 ▸ hsilent)

/-- A task at its mailbox, with nothing in it, waits. -/
theorem Echoes.waits (hechoes : Echoes h t task l g) (ht : t < h.tasks.length)
    (hphase : l.inst.phase = .idle) (hmailbox : l.inst.mailbox = []) :
    ∃ answer events, linesOf events = linesOf h.events ∧ g.step =
      (h.answered (replies l.seen)).halted t
        { task with inst := l.inst, answer := answer, run := .receiving } l.past events := by
  obtain ⟨answer, events, hlines, rfl, -⟩ := hechoes
  refine ⟨answer, events, hlines, moving_waits ?_ hphase hmailbox⟩
  rwa [(h.answered_frame _).1]

/-- A task that is through ends, and the supervisor is told in the next turn. -/
theorem Echoes.ends (hechoes : Echoes h t task l g) (ht : t < h.tasks.length) {ending : Ending}
    (hphase : l.inst.phase = .finished ending) (hsupervised : task.supervised = true)
    (hwatchers : task.watchers = []) :
    ∃ answer events, linesOf events = linesOf h.events ∧ g.step =
      { (h.answered (replies l.seen)).halted t
          { task with inst := l.inst, answer := answer, run := .ended } l.past events with
        ready := (h.answered (replies l.seen)).ready ++ [.exited t] } := by
  obtain ⟨answer, events, hlines, rfl, -⟩ := hechoes
  have ht' : t < (h.answered (replies l.seen)).tasks.length := by rwa [(h.answered_frame _).1]
  have hends := moving_ends { task with inst := l.inst, answer := answer } l.past events ht' hphase
    hsupervised
  refine ⟨answer, events, hlines, hends.trans ?_⟩
  simp [hwatchers]

end Host
end Turnstile
