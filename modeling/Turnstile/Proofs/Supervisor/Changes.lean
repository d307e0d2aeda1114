-- All that a host does by itself is made of a few small changes: one lemma for each of its
-- functions says so. What every change keeps, the host keeps in whatever order its jobs run.
import Mathlib.Logic.Relation
import Turnstile.Proofs.Instance.Moves
import Turnstile.Supervisor.Step

namespace Turnstile

/-- Whether an event tells of an instance: the call of a hook, or a notification. -/
def Event.tells : Event → Bool
  | .hook .. | .published .. => true
  | .logged .. | .line .. => false

/-- What a body may be told that it waits for: the faults of a delivery end in the log, unless they
are cancellations. -/
def Stimulus.Proper : Stimulus → Prop
  | .published (.error fault) => fault.isCancellation = true
  | _ => True

/-- What the body of a running task is given, unless it waits or is over. -/
def Task.turn (task : Task) : Option Stimulus :=
  match task.inst.phase with
  | .finished _ => none
  | .fresh => some .start
  | .idle => if task.inst.mailbox.isEmpty then none else some .receive
  | _ => task.answer

namespace Host

/-- What matters to the instances of a host: all but its queues, its calls, its timers and the
log. -/
structure Face where
  settings : Settings
  registry : Registry
  bus : Bus Observer
  clock : Rat
  tasks : List Task
  holders : List (Value × Nat)
  restarts : List (Value × List Rat)
  past : HookPast
  told : List Event

def face (h : Host) : Face where
  settings := h.settings
  registry := h.registry
  bus := h.bus
  clock := h.clock
  tasks := h.tasks
  holders := h.holders
  restarts := h.restarts
  past := h.past
  told := h.events.filter Event.tells

/-- What the body of a task is given next: its first step, the mailbox, or the answer that it
waits for. -/
inductive Feeds (h : Host) (t : Nat) : Stimulus → Prop where
  | start {task : Task} (ht : h.task? t = some task) (hphase : task.inst.phase = .fresh) :
    Feeds h t .start
  | receive {task : Task} (ht : h.task? t = some task) (hphase : task.inst.phase = .idle)
    (hmailbox : task.inst.mailbox ≠ []) : Feeds h t .receive
  | answer {task : Task} {s : Stimulus} (ht : h.task? t = some task)
    (hfresh : task.inst.phase ≠ .fresh) (hidle : task.inst.phase ≠ .idle)
    (hfinished : ∀ ending, task.inst.phase ≠ .finished ending)
    (hanswer : task.answer = some s) : Feeds h t s

/-- Lets a task run that was queued. -/
def activate (h : Host) (t : Nat) (task : Task) : Host :=
  { h.setTask t { task with run := .active } with running := some t }

/-- Whether no live instance holds a name. -/
def IsFree (h : Host) (name : Value) : Prop :=
  ∀ t task, h.holder? name = some (t, task) → task.inst.alive = false

/-- Notes a restart of a name now. -/
def countRestart (h : Host) (name : Value) : Host :=
  { h with restarts := setName h.restarts name (h.recentRestarts name ++ [h.clock]) }

/-- What may happen to tasks while the body of one moves on: a request arrives, or a task waits
or is queued. -/
inductive Nudge (h : Host) : Host → Prop where
  | aside {h' : Host} (hface : h'.face = h.face) : Nudge h h'
  | run (t : Nat) (run : TaskRun) (hrun : run ≠ .ended) :
    Nudge h (h.updateTask t fun task => { task with run := run })
  | post {t : Nat} {task : Task} {r : Request} {inst : Instance} (ht : h.task? t = some task)
    (hmark : r.unmarked = r) (hpost : task.inst.post r = .ok inst) :
    Nudge h (h.setTask t { task with inst := inst })

/-- The changes of a host in which no body moves on. -/
inductive Shift (h : Host) : Host → Prop where
  | nudge {h' : Host} (hnudge : Nudge h h') : Shift h h'
  | clock (time : Rat) : Shift h { h with clock := time }
  | finish {t : Nat} {task : Task} {ending : Ending} (ht : h.task? t = some task)
    (hphase : task.inst.phase = .finished ending) :
    Shift h (h.setTask t { task with run := .ended, watchers := [] })
  | watchers (t : Nat) (f : List Nat → List Nat) :
    Shift h (h.updateTask t fun task => { task with watchers := f task.watchers })
  | giveUp (t call : Nat) :
    Shift h (h.updateTask t fun task => { task with inst := task.inst.abandon call })
  | create (machine : Machine) (name payload : Value) (number : Nat) (outlet : Outlet) :
    Shift h (h.addTask
      { inst := .create machine name payload, number := some number, supervised := false,
        outlet := outlet }).1
  | start (machine : Machine) {name : Value} (payload : Value) (number : Nat)
    (hkey : name.isKey = true) (hfree : h.IsFree name) :
    Shift h (h.spawn machine name payload (some number)).1
  | restart {t : Nat} {task : Task} {fault : Fault} (ht : h.task? t = some task)
    (hphase : task.inst.phase = .finished (.failed fault))
    (hpolicy : h.settings.restart = .transient)
    (hfree : lookupName h.holders task.inst.name = none)
    (hcount : h.settings.maxRestarts.leRat (h.recentRestarts task.inst.name).length = false) :
    Shift h ((h.countRestart task.inst.name).spawn task.inst.machine task.inst.name
      task.inst.initialPayload none).1
  | vacate {t : Nat} {task : Task} (ht : h.task? t = some task)
    (hheld : lookupName h.holders task.inst.name = some t) :
    Shift h { h with holders := eraseName h.holders task.inst.name }
  | forget {name : Value} (hkey : name.isKey = true) (hfree : h.IsFree name) :
    Shift h { h with restarts := setName h.restarts name [] }
  | recount (name : Value) :
    Shift h { h with restarts := setName h.restarts name (h.recentRestarts name) }
  | announce (name : Value) (attempt : Nat) (fault : Fault) :
    Shift h (h.publish none (.restarted name attempt fault)).1

/-- The small changes that all else is made of. -/
inductive Change (h : Host) : Host → Prop where
  | shift {h' : Host} (hshift : Shift h h') : Change h h'
  | feed {t : Nat} {s : Stimulus} (hfeeds : h.Feeds t s) : Change h (h.feed t s)
  | interrupt {t : Nat} {task : Task} (ht : h.task? t = some task)
    (hrun : task.run = .queued true) :
    Change h ((h.activate t task).feed t task.inst.cancellation)

/-- The nudges that lead from one host to another. -/
abbrev Nudges := Relation.ReflTransGen Nudge

/-- The shifts that lead from one host to another. -/
abbrev Shifts := Relation.ReflTransGen Shift

/-- The changes that lead from one host to another. -/
abbrev Changes := Relation.ReflTransGen Change

variable {h₀ h : Host}

theorem Nudges.nudge {h' : Host} (hs : Nudges h₀ h) (hnudge : Nudge h h') : Nudges h₀ h' :=
  Relation.ReflTransGen.tail hs hnudge

theorem Nudges.aside {h' : Host} (hs : Nudges h₀ h) (hface : h'.face = h.face) :
    Nudges h₀ h' := hs.nudge (.aside hface)

theorem Shifts.shift {h' : Host} (hs : Shifts h₀ h) (hshift : Shift h h') : Shifts h₀ h' :=
  Relation.ReflTransGen.tail hs hshift

theorem Shifts.aside {h' : Host} (hs : Shifts h₀ h) (hface : h'.face = h.face) :
    Shifts h₀ h' := hs.shift (.nudge (.aside hface))

theorem Shifts.nudges {h' : Host} (hs : Shifts h₀ h) (hnudges : Nudges h h') : Shifts h₀ h' := by
  induction hnudges with
  | refl => exact hs
  | tail _ hnudge ih => exact ih.shift (.nudge hnudge)

theorem Changes.change {h' : Host} (hs : Changes h₀ h) (hchange : Change h h') :
    Changes h₀ h' := Relation.ReflTransGen.tail hs hchange

theorem Changes.shift {h' : Host} (hs : Changes h₀ h) (hshift : Shift h h') : Changes h₀ h' :=
  hs.change (.shift hshift)

theorem Changes.shifts {h' : Host} (hs : Changes h₀ h) (hshifts : Shifts h h') :
    Changes h₀ h' := by
  induction hshifts with
  | refl => exact hs
  | tail _ hshift ih => exact ih.change (.shift hshift)

/-! ## What happens aside -/

theorem face_see (h : Host) {e : Event} (he : e.tells = false) : (h.see e).face = h.face := by
  simp [face, see, List.filter_append, he]

theorem face_lines (h : Host) (texts : List String) :
    (texts.foldl (fun h text => h.see (.line text)) h).face = h.face := by
  induction texts generalizing h with
  | nil => rfl
  | cons text texts ih => exact (ih _).trans (h.face_see rfl)

theorem face_resolve (h : Host) (c : Nat) (result : Except Fault Answer) :
    (h.resolve c result).face = h.face := by
  unfold resolve
  split <;> rfl

theorem face_release (h : Host) (c : Nat) : (h.release c).face = h.face := by
  unfold release
  split
  · split <;> rfl
  · rfl

theorem face_joined (h : Host) (p : Nat) (cancelled : Bool) :
    (h.joined p cancelled).face = h.face := by
  unfold joined
  split
  · split
    · simp only
      split
      · exact face_release _ p
      · rfl
    · rfl
  · rfl

theorem face_finishCall (h : Host) (c : Nat) (call : Call) (result : Except Fault CallAnswer) :
    (h.finishCall c call result).face = h.face := by
  unfold finishCall
  split <;> rfl

theorem face_note (h : Host) (level : LogLevel) (name : Value) (text : String) :
    (h.note level name text).face = h.face := h.face_see rfl

theorem face_deliver (h : Host) (scope : Option Value) (n : Notification) (o : Observer) :
    (h.deliver scope n o).1.face = h.face := by
  have hcontain : ∀ (h : Host) (fault : Fault) (text : String),
      (if fault.isCancellation then (h, some fault)
        else (h.see (.logged scope .error text), none)).1.face = h.face := by
    intro h fault text
    split
    · rfl
    · exact face_see h rfl
  unfold deliver
  cases o.accepts n with
  | error fault => exact hcontain h fault _
  | ok accepted =>
    cases accepted with
    | false => rfl
    | true =>
      cases o.result n with
      | ok _ => exact face_lines h _
      | error fault => exact (hcontain _ fault _).trans (face_lines h _)

/-- Subscribers leave all alone that matters to instances. -/
theorem face_publish (h : Host) (scope : Option Value) (n : Notification) :
    (h.publish scope n).1.face = (h.see (.published .shared n)).face := by
  unfold publish
  generalize hdelivered : List.foldl _ _ (h.bus.inOrder n.topic) = delivered
  have hface : delivered.1.face = (h.see (.published .shared n)).face := by
    rw [← hdelivered]
    refine List.foldlRecOn (motive := fun s : Host × Option Fault =>
      s.1.face = (h.see (.published .shared n)).face) _ _ rfl ?_
    rintro ⟨h', stop⟩ hkept s _
    cases stop with
    | some fault => exact hkept
    | none => exact (face_deliver h' scope n s.handler).trans hkept
  obtain ⟨h', stop⟩ := delivered
  cases stop <;> exact hface

/-- Whoever publishes is told of no fault but a cancellation. -/
theorem publish_proper (h : Host) (scope : Option Value) (n : Notification) :
    (Stimulus.published (h.publish scope n).2).Proper := by
  have hcontain : ∀ (h : Host) (fault : Fault) (text : String), ∀ stop,
      (if fault.isCancellation then (h, some fault)
        else (h.see (.logged scope .error text), none)).2 = some stop →
      stop.isCancellation = true := by
    intro h fault text stop hstop
    split at hstop
    · rename_i hcancellation
      exact Option.some.inj hstop ▸ hcancellation
    · cases hstop
  have hdeliver : ∀ (h : Host) (o : Observer) (stop : Fault),
      (h.deliver scope n o).2 = some stop → stop.isCancellation = true := by
    intro h o stop hstop
    unfold deliver at hstop
    split at hstop
    · exact hcontain _ _ _ stop hstop
    · cases hstop
    · simp only at hstop
      split at hstop
      · cases hstop
      · exact hcontain _ _ _ stop hstop
  unfold publish
  generalize hdelivered : List.foldl _ _ (h.bus.inOrder n.topic) = delivered
  have hall : ∀ stop, delivered.2 = some stop → stop.isCancellation = true := by
    rw [← hdelivered]
    refine List.foldlRecOn (motive := fun s : Host × Option Fault =>
      ∀ stop, s.2 = some stop → stop.isCancellation = true) _ _ nofun ?_
    rintro ⟨h', stop⟩ hkept s _
    cases stop with
    | some fault => exact hkept
    | none => exact hdeliver h' s.handler
  obtain ⟨h', stop⟩ := delivered
  cases stop with
  | none => trivial
  | some fault => exact hall fault rfl

/-! ## Tasks and messages -/

theorem setTask_eq_updateTask {t : Nat} {task : Task} (ht : h.task? t = some task)
    (f : Task → Task) : h.setTask t (f task) = h.updateTask t f := by
  unfold setTask updateTask
  congr 1
  apply List.ext_getElem?
  intro u
  rw [List.getElem?_set, List.getElem?_modify]
  by_cases hu : t = u
  · subst hu
    have ht' : h.tasks[t]? = some task := ht
    have hlt := (List.getElem?_eq_some_iff.1 ht').1
    rw [if_pos rfl, if_pos hlt, ht', Option.map_eq_map, Option.map_some, if_pos rfl]
  · rw [if_neg hu]
    cases h.tasks[u]? <;> simp [hu]

theorem Nudges.setRun (hs : Nudges h₀ h) {t : Nat} {task : Task} (ht : h.task? t = some task)
    (run : TaskRun) (hrun : run ≠ .ended) :
    Nudges h₀ (h.setTask t { task with run := run }) := by
  rw [setTask_eq_updateTask ht fun task => { task with run := run }]
  exact hs.nudge (.run t run hrun)

theorem Nudges.post (hs : Nudges h₀ h) {t : Nat} {r : Request} {h' : Host}
    (hmark : r.unmarked = r) (hpost : h.post t r = .ok h') : Nudges h₀ h' := by
  unfold Host.post at hpost
  cases htask : h.task? t with
  | none => simp [htask] at hpost
  | some task =>
    simp only [htask] at hpost
    cases hinst : task.inst.post r with
    | error fault => simp [hinst] at hpost
    | ok inst =>
      simp only [hinst] at hpost
      have hposted := hs.nudge (.post htask hmark hinst)
      split at hpost
      · obtain rfl := Except.ok.inj hpost
        have hlen : t < h.tasks.length := (List.getElem?_eq_some_iff.1 htask).1
        have ht : (h.setTask t { task with inst := inst }).task? t =
            some { task with inst := inst } := List.getElem?_set_self hlen
        have hrun := hposted.setRun ht (.queued false) nofun
        have hset : (h.setTask t { task with inst := inst }).setTask t
            { task with inst := inst, run := .queued false } =
              h.setTask t { task with inst := inst, run := .queued false } := by
          simp [setTask]
        rw [hset] at hrun
        exact hrun.aside rfl
      · obtain rfl := Except.ok.inj hpost
        exact hposted

theorem Nudges.send (hs : Nudges h₀ h) {s : Send} {h' : Host} (hsend : h.send s = .ok h') :
    Nudges h₀ h' := by
  unfold Host.send at hsend
  cases hlookup : h.lookup s.name with
  | error fault => simp [hlookup, bind, Except.bind] at hsend
  | ok t =>
    simp only [hlookup, bind, Except.bind] at hsend
    exact hs.post rfl hsend

theorem Nudges.sendAll (hs : Nudges h₀ h) (sends : List Send) :
    Nudges h₀ (h.sendAll sends).1 := by
  induction sends generalizing h with
  | nil => exact hs
  | cons s sends ih =>
    unfold Host.sendAll
    cases hsend : h.send s with
    | ok h' => exact ih (hs.send hsend)
    | error fault => exact hs

theorem Nudges.block (hs : Nudges h₀ h) (t : Nat) (run : TaskRun) (hrun : run ≠ .ended) :
    Nudges h₀ (h.block t run) := (hs.nudge (.run t run hrun)).aside rfl

theorem Nudges.pause (hs : Nudges h₀ h) (t : Nat) (p : Pause) : Nudges h₀ (h.pause t p) := by
  unfold Host.pause
  cases p with
  | none => exact hs
  | forever => exact hs.block t _ nofun
  | seconds s =>
    simp only
    split
    · exact (hs.block t (.queued false) nofun).aside rfl
    · have htimer : Nudges h₀ ({ h with serials := h.serials + 1 }.setTimer s
          (.wake t h.serials)) := hs.aside rfl
      exact htimer.block t (.paused (some h.serials)) nofun

/-! ## What a body wants done -/

section
variable {P : Host → Prop} {t : Nat} (hnudge : ∀ h h', P h → Nudge h h' → P h')
include hnudge

theorem nudges_keep {h' : Host} (hnudges : Nudges h h') (hkept : P h) : P h' := by
  induction hnudges with
  | refl => exact hkept
  | tail _ hstep ih => exact hnudge _ _ ih hstep

/-- What nudges keep, and what an answer for the body keeps, the reaction of a hook keeps. -/
theorem react_keeps {α : Type} (r : Reaction α) (stimulus : Except Fault α → Stimulus)
    (hanswer : ∀ h result, P h → P (h.setAnswer t (stimulus result))) (hkept : P h) :
    P (h.react t r stimulus) := by
  have hlines := hnudge _ _ hkept (.aside (h.face_lines r.lines))
  have hsends := nudges_keep hnudge (Nudges.sendAll .refl r.sends) hlines
  unfold react
  simp only
  revert hsends
  generalize (r.lines.foldl (fun h text => h.see (.line text)) h).sendAll r.sends = sent
  obtain ⟨h', fault⟩ := sent
  intro hsends
  cases fault with
  | some fault => exact hanswer _ _ hsends
  | none => exact nudges_keep hnudge (Nudges.pause .refl t r.pause) (hanswer _ _ hsends)

/-- If besides the calls of hooks and the notifications of a task keep something, all that its
body wants done keeps it. -/
theorem perform_keeps (hanswer : ∀ h (s : Stimulus), s.Proper → P h → P (h.setAnswer t s))
    {task : Task} (ht : h.task? t = some task) (e : Effect)
    (hnote : ∀ origin call, P (h.noteCall task.inst.name origin call))
    (hseen : ∀ outlet n, e = .publish n → P (h.see (.published outlet n))) (hkept : P h) :
    P (h.perform t e) := by
  unfold perform
  simp only [ht]
  cases e with
  | log level text => exact hnudge _ _ hkept (.aside (h.face_see rfl))
  | askTransition call =>
    exact react_keeps hnudge _ _ (fun _ _ => hanswer _ _ trivial) (hnote _ (.transition call))
  | askFailure call =>
    exact react_keeps hnudge _ _ (fun _ _ => hanswer _ _ trivial) (hnote _ (.failure call))
  | askTerminate runState =>
    exact react_keeps hnudge _ _ (fun _ _ => hanswer _ _ trivial) (hnote _ (.terminate runState))
  | answer c result => exact hnudge _ _ hkept (.aside (face_resolve h c result))
  | publish n =>
    simp only
    split
    · have hface := h.face_publish (some task.inst.name) n
      exact hanswer _ _ (h.publish_proper _ n) (hnudge _ _ (hseen .shared n rfl) (.aside hface))
    · exact hanswer _ _ trivial (hseen .own n rfl)
    · exact hanswer _ _ trivial hkept

end

/-! ## The host itself -/

theorem Shifts.setRun (hs : Shifts h₀ h) {t : Nat} {task : Task} (ht : h.task? t = some task)
    (run : TaskRun) (hrun : run ≠ .ended) :
    Shifts h₀ (h.setTask t { task with run := run }) :=
  hs.nudges (Nudges.setRun .refl ht run hrun)

theorem Shifts.post (hs : Shifts h₀ h) {t : Nat} {r : Request} {h' : Host}
    (hmark : r.unmarked = r) (hpost : h.post t r = .ok h') : Shifts h₀ h' :=
  hs.nudges (Nudges.post .refl hmark hpost)

theorem Shifts.block (hs : Shifts h₀ h) (t : Nat) (run : TaskRun) (hrun : run ≠ .ended) :
    Shifts h₀ (h.block t run) := hs.nudges (Nudges.block .refl t run hrun)

theorem Shifts.cancelTask (hs : Shifts h₀ h) (t : Nat) : Shifts h₀ (h.cancelTask t).1 := by
  unfold Host.cancelTask
  split
  · exact hs
  · rename_i task ht
    split
    · exact hs
    · exact hs
    · exact hs.setRun ht (.queued true) nofun
    · exact hs
    · exact (hs.setRun ht (.queued true) nofun).aside rfl
    · exact (hs.setRun ht (.queued true) nofun).aside rfl

theorem Shifts.watch (hs : Shifts h₀ h) (t c : Nat) : Shifts h₀ (h.watch t c) := by
  unfold Host.watch
  split
  · exact hs.aside rfl
  · exact hs.shift (.watchers t fun watchers => watchers ++ [c])

theorem Shifts.unwatch (hs : Shifts h₀ h) (t c : Nat) : Shifts h₀ (h.unwatch t c) :=
  hs.shift (.watchers t fun watchers => watchers.filter (· ≠ c))

theorem Shifts.endTask (hs : Shifts h₀ h) {t : Nat} {task : Task} {ending : Ending}
    (ht : h.task? t = some task) (hphase : task.inst.phase = .finished ending) :
    Shifts h₀ (h.endTask t task) := by
  have hset := hs.shift (.finish ht hphase)
  unfold Host.endTask
  simp only
  apply List.foldlRecOn
  · split
    · exact hset.aside rfl
    · exact hset.aside rfl
  · intro h hs c _
    exact hs.aside rfl

theorem Shifts.wake (hs : Shifts h₀ h) (t serial : Nat) : Shifts h₀ (h.wake t serial) := by
  unfold Host.wake
  split
  · rename_i task ht
    split
    · exact (hs.setRun ht (.queued false) nofun).aside rfl
    · exact hs
  · exact hs

/-! ## Supervision -/

theorem Shifts.note (hs : Shifts h₀ h) (level : LogLevel) (name : Value) (text : String) :
    Shifts h₀ (h.note level name text) := hs.aside (face_note h level name text)

theorem Shifts.afterCrash (hs : Shifts h₀ h) {t : Nat} {task : Task} {fault : Fault}
    (ht : h.task? t = some task) (hphase : task.inst.phase = .finished (.failed fault)) :
    Shifts h₀ (h.afterCrash task fault) := by
  unfold Host.afterCrash
  simp only
  split
  · exact hs.note _ _ _
  · rename_i hpolicy
    by_cases hheld : (lookupName h.holders task.inst.name).isSome = true
    · rw [if_pos hheld]
      exact hs
    · rw [if_neg hheld]
      have hfree : lookupName h.holders task.inst.name = none := by simpa using hheld
      by_cases hcount :
          h.settings.maxRestarts.leRat (h.recentRestarts task.inst.name).length = true
      · rw [if_pos hcount]
        exact (hs.note _ _ _).shift (.recount task.inst.name)
      · rw [if_neg hcount]
        have hcount : h.settings.maxRestarts.leRat (h.recentRestarts task.inst.name).length =
            false := by simpa using hcount
        -- the record of the restart is made in between, but it changes nothing else
        exact ((hs.note _ _ _).shift (.restart ht hphase hpolicy hfree hcount)).aside rfl

theorem Shifts.exited (hs : Shifts h₀ h) (t : Nat) : Shifts h₀ (h.exited t) := by
  unfold Host.exited
  split
  · exact hs
  · rename_i task ht
    by_cases hheld : lookupName h.holders task.inst.name = some t
    · simp only [if_pos hheld]
      have hvacate := hs.shift (.vacate ht hheld)
      split
      · rename_i fault hphase
        exact hvacate.afterCrash ht hphase
      · exact hvacate
    · simp only [if_neg hheld]
      split
      · rename_i fault hphase
        exact hs.afterCrash ht hphase
      · exact hs

/-! ## Calls that wait -/

theorem Shifts.finishCall (hs : Shifts h₀ h) (c : Nat) (call : Call)
    (result : Except Fault CallAnswer) : Shifts h₀ (h.finishCall c call result) :=
  hs.aside (face_finishCall h c call result)

theorem Shifts.release (hs : Shifts h₀ h) (c : Nat) : Shifts h₀ (h.release c) :=
  hs.aside (face_release h c)

theorem Shifts.setCall (hs : Shifts h₀ h) (c : Nat) (call : Call) :
    Shifts h₀ (h.setCall c call) := hs.aside rfl

theorem Shifts.leaveStage (hs : Shifts h₀ h) (c : Nat) (stage : Stage) :
    Shifts h₀ (h.leaveStage c stage) := by
  cases stage with
  | exit t => exact hs.unwatch t c
  | forced t => exact hs.unwatch t c
  | window t timeout =>
    have hdropped : Shifts h₀ (h.dropWindow c) := hs.aside rfl
    exact hdropped.unwatch t c
  | reply t result => exact hs
  | closing t timeout => exact hs
  | join children left => exact hs

theorem Shifts.openWindow (hs : Shifts h₀ h) (c : Nat) (call : Call) (t : Nat)
    (timeout : Number) : Shifts h₀ (h.openWindow c call t timeout) := by
  have htimer : Shifts h₀ ((h.setCall c { call with
      stage := .window t timeout, run := .waiting false }).setTimer timeout (.close c)) :=
    hs.aside rfl
  exact htimer.watch t c

theorem Shifts.proceed (hs : Shifts h₀ h) (c : Nat) : Shifts h₀ (h.proceed c) := by
  unfold Host.proceed
  split
  · exact hs
  · rename_i call _
    have hleft := hs.leaveStage c call.stage
    split
    · exact hs
    · exact hs
    · exact hleft.finishCall c call _
    · split
      · exact hs.finishCall c call _
      · exact hs.finishCall c call _
      · exact hs.openWindow c call _ _
      · simp only
        split
        · exact hleft.finishCall c call _
        · exact (((hleft.note _ _ _).cancelTask _).setCall c _).watch _ c
      · exact hs.finishCall c call _
      · exact hs.finishCall c call _

/-! ## Steps -/

theorem step_running {t : Nat} (hrunning : h.running = some t) : h.step = h.runTask t := by
  unfold Host.step
  simp only [hrunning]

theorem step_job (hidle : h.running = none) {j : Job} {rest : List Job}
    (hbatch : h.batch = j :: rest) : h.step = ({ h with batch := rest } : Host).runJob j := by
  unfold Host.step
  simp only [hidle, hbatch]

theorem step_turn (hidle : h.running = none) (hbatch : h.batch = []) : h.step = h.beginTurn := by
  unfold Host.step
  simp only [hidle, hbatch]

/-- A running task whose body is given nothing waits or ends. -/
theorem Shifts.runTask (hs : Shifts h₀ h) {t : Nat} {task : Task} (ht : h.task? t = some task)
    (hturn : task.turn = none) : Shifts h₀ (h.runTask t) := by
  unfold Task.turn at hturn
  unfold Host.runTask
  simp only [ht]
  cases hphase : task.inst.phase with
  | finished ending => exact hs.endTask ht hphase
  | fresh => simp [hphase] at hturn
  | idle =>
    by_cases hmailbox : task.inst.mailbox.isEmpty = true
    · simp only [hmailbox, if_true]
      exact hs.block t _ nofun
    · simp [hphase, hmailbox] at hturn
  | _ =>
    simp only [hphase] at hturn
    simp only [hturn]
    exact hs.block t _ nofun

theorem runTask_eq_feed {t : Nat} {task : Task} {s : Stimulus} (ht : h.task? t = some task)
    (hturn : task.turn = some s) : h.runTask t = h.feed t s ∧ h.Feeds t s := by
  unfold Task.turn at hturn
  unfold Host.runTask
  simp only [ht]
  cases hphase : task.inst.phase with
  | finished ending => simp [hphase] at hturn
  | fresh =>
    simp only [hphase] at hturn
    obtain rfl := Option.some.inj hturn
    exact ⟨rfl, .start ht hphase⟩
  | idle =>
    by_cases hmailbox : task.inst.mailbox.isEmpty = true
    · simp [hphase, hmailbox] at hturn
    · simp only [hphase, hmailbox] at hturn
      obtain rfl := Option.some.inj hturn
      simp only [hmailbox]
      exact ⟨rfl, .receive ht hphase (by simpa using hmailbox)⟩
  | _ =>
    simp only [hphase] at hturn
    simp only [hturn]
    exact ⟨trivial, .answer ht (by simp [hphase]) (by simp [hphase]) (by simp [hphase]) hturn⟩

/-- A task that is let run goes on where it was, unless somebody has cancelled it. -/
theorem Shifts.resume (hs : Shifts h₀ h) {t : Nat}
    (hcalm : ∀ task, h.task? t = some task → task.run ≠ .queued true) :
    Shifts h₀ (h.resume t) := by
  unfold Host.resume
  split
  · rename_i task ht
    split
    · rename_i cancelled hrun
      cases cancelled with
      | true => exact absurd hrun (hcalm task ht)
      | false => exact (hs.setRun ht .active nofun).aside rfl
    · exact hs
  · exact hs

theorem resume_eq_feed {t : Nat} {task : Task} (ht : h.task? t = some task)
    (hrun : task.run = .queued true) :
    h.resume t = (h.activate t task).feed t task.inst.cancellation := by
  unfold Host.resume
  simp only [ht, hrun]
  rfl

theorem Shifts.runJob (hs : Shifts h₀ h) {j : Job} (hcalm : ∀ t, j ≠ .resume t) :
    Shifts h₀ (h.runJob j) := by
  cases j with
  | resume t => exact absurd rfl (hcalm t)
  | exited t => exact hs.exited t
  | taskEnded c => exact hs.release c
  | proceed c => exact hs.proceed c
  | joined p cancelled => exact hs.aside (face_joined h p cancelled)
  | wake t serial => exact hs.wake t serial
  | close c => exact hs.release c
  | announce name attempt fault => exact hs.shift (.announce name attempt fault)

theorem Changes.runTask (hs : Changes h₀ h) (t : Nat) : Changes h₀ (h.runTask t) := by
  cases ht : h.task? t with
  | none =>
    unfold Host.runTask
    simp only [ht]
    exact hs.shifts (Shifts.aside .refl rfl)
  | some task =>
    cases hturn : task.turn with
    | none => exact hs.shifts (Shifts.runTask .refl ht hturn)
    | some s =>
      obtain ⟨hfeed, hfeeds⟩ := runTask_eq_feed ht hturn
      rw [hfeed]
      exact hs.change (.feed hfeeds)

theorem Changes.runJob (hs : Changes h₀ h) (j : Job) : Changes h₀ (h.runJob j) := by
  by_cases hcalm : ∀ t, j ≠ .resume t
  · exact hs.shifts (Shifts.runJob .refl hcalm)
  · obtain ⟨t, rfl⟩ : ∃ t, j = .resume t := by simpa using hcalm
    by_cases hcancelled : ∀ task, h.task? t = some task → task.run ≠ .queued true
    · exact hs.shifts (Shifts.resume .refl hcancelled)
    · obtain ⟨task, ht, hrun⟩ : ∃ task, h.task? t = some task ∧ task.run = .queued true := by
        simpa using hcancelled
      show Changes h₀ (h.resume t)
      rw [resume_eq_feed ht hrun]
      exact hs.change (.interrupt ht hrun)

theorem Changes.step (hs : Changes h₀ h) : Changes h₀ h.step := by
  cases hrunning : h.running with
  | some t =>
    rw [step_running hrunning]
    exact hs.runTask t
  | none =>
    cases hbatch : h.batch with
    | nil =>
      rw [step_turn hrunning hbatch]
      exact hs.shifts (Shifts.aside .refl rfl)
    | cons j rest =>
      rw [step_job hrunning hbatch]
      have htaken : Changes h₀ { h with batch := rest } := hs.shifts (Shifts.aside .refl rfl)
      exact htaken.runJob j

theorem Changes.settle (hs : Changes h₀ h) (fuel : Nat) : Changes h₀ (h.settle fuel) := by
  induction fuel generalizing h with
  | zero => exact hs
  | succ fuel ih =>
    unfold Host.settle
    split
    · exact hs
    · exact ih hs.step

theorem Changes.advanceTo (hs : Changes h₀ h) (fuel : Nat) (target : Rat) :
    Changes h₀ (h.advanceTo fuel target) := by
  induction fuel generalizing h with
  | zero => exact (hs.settle 1000000).shift (.clock target)
  | succ fuel ih =>
    have hsettle := hs.settle 1000000
    unfold Host.advanceTo
    simp only
    split
    · split
      · exact ih (hsettle.shift (.clock _))
      · exact hsettle.shift (.clock target)
    · exact hsettle.shift (.clock target)

end Host
end Turnstile
