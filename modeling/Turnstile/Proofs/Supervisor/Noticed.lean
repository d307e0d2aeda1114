-- Whatever happens to a host is a move of its supervisor: one lemma for each function of the host
-- says which, and most of them are not noticed at all.
import Turnstile.Proofs.Instance.Stopped
import Turnstile.Proofs.Supervisor.Roster

namespace Turnstile

namespace Host

variable {slips : Prop} {h₀ h h' : Host} {t u : Nat} {task : Task}

/-- The supervisor makes one move. -/
structure Moves (slips : Prop) (h h' : Host) : Prop where
  next : h.roster.Next slips h'.roster
  steady : h.Steady → h'.Steady

theorem Quiet.moves (hq : Quiet h h') : Moves slips h h' := ⟨hq.roster ▸ .same, hq.steady⟩

theorem Moves.quiet (hm : Moves slips h₀ h) (hq : Quiet h h') : Moves slips h₀ h' :=
  ⟨hq.roster ▸ hm.next, hq.steady ∘ hm.steady⟩

theorem Quiet.then (hq : Quiet h₀ h) (hm : Moves slips h h') : Moves slips h₀ h' :=
  ⟨hq.roster ▸ hm.next, hm.steady ∘ hq.steady⟩

/-! ## Tasks -/

theorem set_entries (h : Host) (t : Nat) (task' : Task) :
    (h.tasks.set t task').map Task.entry = (h.tasks.map Task.entry).set t task'.entry :=
  List.map_set

theorem entry_of_task (ht : h.task? t = some task) : h.roster.entries[t]? = some task.entry := by
  rw [entries_get?, ht]
  rfl

theorem length_entries (h : Host) : h.roster.entries.length = h.tasks.length := List.length_map ..

/-- A task that has not ended becomes another one whose instance has moved on. -/
theorem moves_setTask (ht : h.task? t = some task) {task' : Task}
    (hsame : task'.entry =
      { task.entry with alive := task'.inst.alive, ending := task'.inst.ending })
    (hended : task.run ≠ .ended) (halive : task'.inst.alive = true → task.inst.alive = true)
    (hactive : task.run = .active → task'.run = .active) : Moves slips h (h.setTask t task') := by
  have hroster : (h.setTask t task').roster =
      { h.roster with entries := h.roster.entries.set t task'.entry } := by
    unfold roster setTask
    simp only [set_entries]
  refine ⟨?_, fun hsteady => ⟨?_, hsteady.timers, ?_⟩⟩
  · rw [hroster, hsame]
    exact .proceed (entry_of_task ht) (by simpa [Task.entry] using hended) halive _
  · intro u hu
    obtain ⟨other, hother, hrun⟩ := hsteady.running u hu
    by_cases hne : t = u
    · subst hne
      obtain rfl : task = other := Option.some.inj (ht.symm.trans hother)
      exact ⟨task', task?_setTask_self ht task', hactive hrun⟩
    · exact ⟨other, (task?_setTask_ne hne task').trans hother, hrun⟩
  · intro u hu
    rw [hroster] at hu ⊢
    simpa using hsteady.exits u hu

/-- The body of a task that has not ended moves on. -/
theorem moves_feed (ht : h.task? t = some task) (hended : task.run ≠ .ended) (s : Stimulus) :
    Moves slips h (h.feed t s) := by
  have hstep := task.inst.step_becomes s
  have hset : Moves slips h
      (h.setTask t { task with inst := (task.inst.step s).1, answer := none }) := by
    refine moves_setTask ht ?_ hended ?_ id
    · simp [Task.entry, hstep.machine, hstep.name, hstep.initialPayload]
    · intro halive
      by_contra hstopped
      have hstays := Instance.stopped_step (by simpa using hstopped : task.inst.alive = false) s
      rw [hstays.alive] at halive
      cases halive
  exact hset.quiet (quiet_feed ht hended s)

theorem quiet_activate (ht : h.task? t = some task) {cancelled : Bool}
    (hrun : task.run = .queued cancelled) : Quiet h (h.activate t task) := by
  have hset : Quiet h (h.setTask t { task with run := .active }) := by
    refine (Quiet.refl h).setTask ht ?_ fun _ => rfl
    simp [Task.entry, hrun]
  refine ⟨hset.roster, fun hsteady => ⟨?_, hsteady.timers, ?_⟩⟩
  · intro u hu
    obtain rfl : t = u := Option.some.inj hu
    exact ⟨_, task?_activate ht, rfl⟩
  · have hexits := (hset.steady hsteady).exits
    exact hexits

theorem Quiet.cancelTask (hq : Quiet h₀ h) (t : Nat) : Quiet h₀ (h.cancelTask t).1 := by
  unfold Host.cancelTask
  split
  · exact hq
  · rename_i task ht
    split
    · exact hq
    · exact hq
    · rename_i hrun
      exact hq.setRun ht (.queued true) (by rw [hrun]; nofun) (by rw [hrun]; nofun) nofun
    · exact hq
    · rename_i hrun
      have hset := hq.setRun ht (.queued true) (by rw [hrun]; nofun) (by rw [hrun]; nofun) nofun
      exact hset.enqueue rfl rfl
    · rename_i hrun
      have hset := hq.setRun ht (.queued true) (by rw [hrun]; nofun) (by rw [hrun]; nofun) nofun
      exact hset.enqueue rfl rfl

theorem Quiet.watch (hq : Quiet h₀ h) (t c : Nat) : Quiet h₀ (h.watch t c) := by
  unfold Host.watch
  split
  · exact hq.enqueue rfl rfl
  · exact hq.updateTask (fun _ _ => rfl) fun _ _ => id

theorem Quiet.unwatch (hq : Quiet h₀ h) (t c : Nat) : Quiet h₀ (h.unwatch t c) :=
  hq.updateTask (fun _ _ => rfl) fun _ _ => id

theorem Quiet.startTask (hq : Quiet h₀ h) (t : Nat) : Quiet h₀ (h.startTask t) := by
  unfold Host.startTask
  split
  · split
    · rename_i ht hrun
      have hset := hq.setRun ht (.queued false) (by rw [hrun]; nofun) (by rw [hrun]; nofun) nofun
      exact hset.enqueue rfl rfl
    · exact hq
  · exact hq

theorem Quiet.wake (hq : Quiet h₀ h) (t serial : Nat) : Quiet h₀ (h.wake t serial) := by
  unfold Host.wake
  split
  · split
    · rename_i ht hrun
      have hset := hq.setRun ht (.queued false) (by rw [hrun]; nofun) (by rw [hrun]; nofun) nofun
      exact hset.enqueue rfl rfl
    · exact hq
  · exact hq

theorem Quiet.tellWatchers (hq : Quiet h₀ h) (watchers : List Nat) :
    Quiet h₀ (watchers.foldl (fun h c => h.enqueue (.taskEnded c)) h) :=
  List.foldlRecOn watchers _ hq fun _ hq _ _ => hq.enqueue rfl rfl

/-- The running task ends. -/
theorem moves_endTask (ht : h.task? t = some task) (hended : task.run ≠ .ended)
    {ending : Ending} (hphase : task.inst.phase = .finished ending) :
    Moves slips h (h.endTask t task) := by
  have hover : task.entry.ending ≠ none := by simp [Task.entry, Instance.ending, hphase]
  have hgoing : task.entry.ended = false := by simpa [Task.entry] using hended
  have hnext : h.roster.Next slips _ := .finish (entry_of_task ht) hgoing hover
  unfold Host.endTask
  refine Moves.quiet ?_ (Quiet.tellWatchers (.refl _) task.watchers)
  have hset : (h.tasks.set t { task with run := .ended, watchers := [] }).map Task.entry =
      (h.tasks.map Task.entry).set t { task.entry with ended := true } :=
    (h.set_entries t _).trans (by simp [Task.entry])
  have hexits : ∀ {g : Host}, h.Steady → g.timers = h.timers → g.running = none →
      g.roster.entries = h.roster.entries.set t { task.entry with ended := true } →
      (∀ u ∈ g.roster.exits, u ∈ h.roster.exits ∨ u = t) → g.Steady := by
    intro g hsteady htimers hrunning hentries hexits
    refine ⟨by simp [hrunning], htimers ▸ hsteady.timers, ?_⟩
    intro u hu
    rw [hentries, List.length_set]
    rcases hexits u hu with hu | rfl
    · exact hsteady.exits u hu
    · exact (List.getElem?_eq_some_iff.1 (entry_of_task ht)).1
  by_cases hsupervised : task.supervised = true
  · have hroster : (({ h.setTask t { task with run := .ended, watchers := [] } with
        running := none } : Host).enqueue (.exited t)).roster = { h.roster with
          entries := h.roster.entries.set t { task.entry with ended := true }
          exits := h.roster.exits ++ [t] } := by
      rw [roster_enqueue]
      unfold roster setTask
      simp only [hset]
      simp [Job.exit?, Job.announce?]
    rw [if_pos hsupervised]
    refine ⟨?_, fun hsteady => hexits hsteady rfl rfl (by rw [hroster]) ?_⟩
    · rw [hroster]
      rwa [show (if task.entry.supervised = true then [t] else []) = [t] from
        if_pos hsupervised] at hnext
    · intro u hu
      rw [hroster] at hu
      simpa using hu
  · have hroster : ({ h.setTask t { task with run := .ended, watchers := [] } with
        running := none } : Host).roster = { h.roster with
          entries := h.roster.entries.set t { task.entry with ended := true } } := by
      unfold roster setTask
      simp only [hset]
    rw [if_neg hsupervised]
    refine ⟨?_, fun hsteady => hexits hsteady rfl rfl (by rw [hroster]) ?_⟩
    · rw [hroster]
      rwa [show (if task.entry.supervised = true then [t] else []) = [] from
        if_neg hsupervised, List.append_nil] at hnext
    · intro u hu
      rw [hroster] at hu
      exact .inl hu

theorem moves_runTask (hsteady : h.Steady) (hrunning : h.running = some t) :
    Moves slips h (h.runTask t) := by
  obtain ⟨task, ht, hactive⟩ := hsteady.running t hrunning
  have hended : task.run ≠ .ended := by
    rw [hactive]
    nofun
  have hgoing : h.Going t := ⟨task, ht, hended⟩
  unfold Host.runTask
  simp only [ht]
  split
  · rename_i ending hphase
    exact moves_endTask ht hended hphase
  · exact moves_feed ht hended _
  · split
    · exact ((Quiet.refl h).block hgoing .receiving nofun).moves
    · exact moves_feed ht hended _
  · split
    · exact moves_feed ht hended _
    · exact ((Quiet.refl h).block hgoing (.paused none) nofun).moves

theorem moves_resume (h : Host) (t : Nat) : Moves slips h (h.resume t) := by
  unfold Host.resume
  split
  · rename_i task ht
    split
    · rename_i cancelled hrun
      have hactive := quiet_activate ht hrun
      simp only
      split
      · exact hactive.then (moves_feed (task?_activate ht) nofun _)
      · exact hactive.moves
    · exact (Quiet.refl h).moves
  · exact (Quiet.refl h).moves

/-! ## Calls that wait -/

theorem Quiet.finishCall (hq : Quiet h₀ h) (c : Nat) (call : Call)
    (result : Except Fault CallAnswer) : Quiet h₀ (h.finishCall c call result) := by
  unfold Host.finishCall
  have hset := hq.setCall c { call with run := .done result }
  split
  · exact hset.enqueue rfl rfl
  · exact hset

theorem Quiet.leaveStage (hq : Quiet h₀ h) (c : Nat) (stage : Stage) :
    Quiet h₀ (h.leaveStage c stage) := by
  cases stage with
  | exit t => exact hq.unwatch t c
  | forced t => exact hq.unwatch t c
  | window t timeout => exact (hq.dropWindow c).unwatch t c
  | reply t result => exact hq
  | closing t timeout => exact hq
  | join children left => exact hq

theorem Quiet.openWindow (hq : Quiet h₀ h) (c : Nat) (call : Call) (t : Nat)
    (timeout : Number) : Quiet h₀ (h.openWindow c call t timeout) :=
  ((hq.setCall c _).setTimer timeout rfl).watch t c

theorem Quiet.release (hq : Quiet h₀ h) (c : Nat) : Quiet h₀ (h.release c) := by
  unfold Host.release
  split
  · split
    · exact (hq.setCall _ _).enqueue rfl rfl
    · exact hq
  · exact hq

theorem Quiet.joined (hq : Quiet h₀ h) (p : Nat) (cancelled : Bool) :
    Quiet h₀ (h.joined p cancelled) := by
  unfold Host.joined
  split
  · split
    · simp only
      split
      · exact (hq.setCall _ _).release p
      · exact hq.setCall _ _
    · exact hq
  · exact hq

theorem Quiet.proceed (hq : Quiet h₀ h) (c : Nat) : Quiet h₀ (h.proceed c) := by
  unfold Host.proceed
  split
  · exact hq
  · rename_i call _
    have hleft := hq.leaveStage c call.stage
    split
    · exact hq
    · exact hq
    · exact hleft.finishCall c call _
    · split
      · exact hq.finishCall c call _
      · exact hq.finishCall c call _
      · exact hq.openWindow c call _ _
      · simp only
        split
        · exact hleft.finishCall c call _
        · exact (((hleft.note _ _ _).cancelTask _).setCall c _).watch _ c
      · exact hq.finishCall c call _
      · exact hq.finishCall c call _

/-! ## Supervision -/

theorem isFree_roster {name : Value} (hfree : h.IsFree name) : h.roster.IsFree name := by
  intro t e hheld he
  rw [entries_get?] at he
  obtain ⟨task, ht, rfl⟩ := Option.map_eq_some_iff.1 he
  apply hfree t task
  have hheld' : lookupName h.holders name = some t := hheld
  simp [holder?, hheld', ht]

theorem roster_spawn (h : Host) (machine : Machine) (name payload : Value)
    (number : Option Nat) : (h.spawn machine name payload number).1.roster =
      h.roster.spawn (.new machine name payload number true) := by
  unfold Host.spawn
  simp only
  rw [roster_enqueue]
  simp [roster, Roster.spawn, Roster.add, addTask, Entry.new, Task.entry, Instance.create,
    Instance.ending, Job.exit?, Job.announce?]

theorem running_addTask (hsteady : h.Steady) (other : Task) :
    ∀ t, h.running = some t →
      ∃ task, (h.addTask other).1.task? t = some task ∧ task.run = .active := by
  intro t ht
  obtain ⟨task, htask, hrun⟩ := hsteady.running t ht
  exact ⟨task, task?_addTask htask other, hrun⟩

theorem steady_spawn (hsteady : h.Steady) (machine : Machine) (name payload : Value)
    (number : Option Nat) : (h.spawn machine name payload number).1.Steady := by
  refine ⟨running_addTask hsteady _, hsteady.timers, ?_⟩
  intro t ht
  rw [roster_spawn] at ht ⊢
  have hlt := hsteady.exits t ht
  simp only [Roster.spawn, Roster.add, List.length_append]
  omega

theorem steady_pop {rest : List Job} {j : Job} (hbatch : h.batch = j :: rest)
    (hsteady : h.Steady) : ({ h with batch := rest } : Host).Steady := by
  refine ⟨hsteady.running, hsteady.timers, fun t ht => hsteady.exits t ?_⟩
  show t ∈ (h.batch ++ h.ready).filterMap Job.exit?
  rw [hbatch, List.cons_append, List.filterMap_cons]
  split
  · exact ht
  · exact List.mem_cons_of_mem _ ht

theorem quiet_pop {rest : List Job} {j : Job} (hbatch : h.batch = j :: rest)
    (hexit : j.exit? = none) : Quiet h { h with batch := rest } := by
  refine ⟨?_, steady_pop hbatch⟩
  unfold roster
  simp only [hbatch, List.cons_append, List.filterMap_cons, hexit]

theorem steady_of_roster (hsteady : h.Steady) (hrunning : h'.running = h.running)
    (htasks : h'.tasks = h.tasks) (htimers : h'.timers = h.timers)
    (hexits : ∀ t ∈ h'.roster.exits, t ∈ h.roster.exits) : h'.Steady := by
  refine ⟨?_, htimers ▸ hsteady.timers, ?_⟩
  · intro t ht
    obtain ⟨task, htask, hrun⟩ := hsteady.running t (hrunning ▸ ht)
    exact ⟨task, (task?_of_tasks htasks t).trans htask, hrun⟩
  · intro t ht
    have hlt := hsteady.exits t (hexits t ht)
    rwa [length_entries, htasks, ← length_entries]

theorem steady_enqueue (hsteady : h.Steady) {j : Job} (hexit : j.exit? = none) :
    (h.enqueue j).Steady := by
  refine steady_of_roster hsteady rfl rfl rfl fun t ht => ?_
  rw [roster_enqueue, hexit] at ht
  simpa using ht

/-- A task whose end the supervisor has learnt of: it no longer holds its name. -/
def vacated (h : Host) (t : Nat) (name : Value) (rest : List Job) : Host :=
  { h with
    holders := if lookupName h.holders name = some t then eraseName h.holders name else h.holders
    batch := rest }

theorem exited_eq (ht : h.task? t = some task) (rest : List Job) :
    ({ h with batch := rest } : Host).exited t =
      match task.inst.phase with
      | .finished (.failed fault) => (h.vacated t task.inst.name rest).afterCrash task fault
      | _ => h.vacated t task.inst.name rest := by
  have ht' : ({ h with batch := rest } : Host).task? t = some task := ht
  have hvacated : (if lookupName h.holders task.inst.name = some t then
      { h with batch := rest, holders := eraseName h.holders task.inst.name }
      else { h with batch := rest }) = h.vacated t task.inst.name rest := by
    unfold vacated
    split <;> rfl
  unfold Host.exited
  simp only [ht']
  exact congrArg (fun g => match task.inst.phase with
    | .finished (.failed fault) => Host.afterCrash g task fault
    | _ => g) hvacated

section
variable {rest : List Job} (hsteady : h.Steady) (hbatch : h.batch = .exited t :: rest)
include hbatch

theorem exits_of_batch : h.roster.exits = t :: (rest ++ h.ready).filterMap Job.exit? := by
  unfold roster
  rw [hbatch]
  rfl

include hsteady

theorem steady_vacated (name : Value) : (h.vacated t name rest).Steady := by
  refine steady_of_roster hsteady rfl rfl rfl ?_
  intro u hu
  rw [exits_of_batch hbatch]
  exact List.mem_cons_of_mem _ hu

/-- What the supervisor does when it learns of the end of a task that crashed. -/
theorem moves_afterCrash (ht : h.task? t = some task) {fault : Fault}
    (hphase : task.inst.phase = .finished (.failed fault)) :
    Moves slips h ((h.vacated t task.inst.name rest).afterCrash task fault) := by
  have hexits := exits_of_batch hbatch
  have he := entry_of_task ht
  have hending : task.entry.ending = some (.failed fault) := by
    simp [Task.entry, Instance.ending, hphase]
  have hvacated := steady_vacated hsteady hbatch task.inst.name
  have hrecent : (h.vacated t task.inst.name rest).recentRestarts task.inst.name =
      h.roster.recent task.inst.name := rfl
  unfold Host.afterCrash
  simp only [hrecent]
  cases hpolicy : (h.vacated t task.inst.name rest).settings.restart with
  | temporary =>
    have hleft : Moves slips h (h.vacated t task.inst.name rest) :=
      ⟨.leave hexits he fun _ htransient => (by cases hpolicy.symm.trans htransient),
        fun _ => hvacated⟩
    exact hleft.quiet ((Quiet.refl _).note _ _ _)
  | transient =>
    simp only
    by_cases hheld : (lookupName (h.vacated t task.inst.name rest).holders
        task.inst.name).isSome = true
    · rw [if_pos hheld]
      refine ⟨.leave hexits he fun _ _ hnone => ?_, fun _ => hvacated⟩
      have hnone' : lookupName (h.vacated t task.inst.name rest).holders task.inst.name = none :=
        hnone
      rw [hnone'] at hheld
      cases hheld
    · rw [if_neg hheld]
      have hfree : lookupName (h.vacated t task.inst.name rest).holders task.inst.name = none := by
        simpa using hheld
      have hsettings : (h.vacated t task.inst.name rest).settings = h.settings := rfl
      by_cases hcount : h.settings.maxRestarts.leRat (h.roster.recent task.inst.name).length = true
      · rw [hsettings, if_pos hcount]
        exact ⟨.refuse hexits he hcount,
          fun _ => steady_of_roster hvacated rfl rfl rfl fun _ => id⟩
      · rw [hsettings, if_neg hcount]
        have hcount : h.settings.maxRestarts.leRat (h.roster.recent task.inst.name).length =
            false := by simpa using hcount
        have hnext : h.roster.Next slips _ := .restart hexits he hending hpolicy hfree hcount
        refine ⟨?_, fun _ => ?_⟩
        · rw [roster_enqueue, roster_spawn]
          simp only [Job.exit?, Job.announce?, Option.toList_none, Option.toList_some,
            List.append_nil]
          exact hnext
        · refine steady_enqueue (steady_spawn ?_ _ _ _ _) rfl
          exact steady_of_roster hvacated rfl rfl rfl fun _ => id

theorem moves_exited : Moves slips h (({ h with batch := rest } : Host).exited t) := by
  have hexits := exits_of_batch hbatch
  have hlt : t < h.tasks.length := by
    rw [← length_entries]
    refine hsteady.exits t ?_
    rw [hexits]
    exact List.mem_cons_self
  obtain ⟨task, ht⟩ : ∃ task, h.task? t = some task := ⟨_, List.getElem?_eq_getElem hlt⟩
  rw [exited_eq ht]
  split
  · rename_i fault hphase
    exact moves_afterCrash hsteady hbatch ht hphase
  · rename_i hcalm
    refine ⟨.leave hexits (entry_of_task ht) ?_, fun _ => steady_vacated hsteady hbatch _⟩
    rintro ⟨fault, hending⟩
    exfalso
    have hending : task.inst.ending = some (.failed fault) := hending
    unfold Instance.ending at hending
    split at hending
    · rename_i ending hphase
      exact hcalm fault (hphase.trans (by rw [Option.some.inj hending]))
    · cases hending

end

/-- The supervisor learns of one end at a time, and causes none. -/
theorem exits_exited (rest : List Job) (hlt : t < h.tasks.length) :
    (({ h with batch := rest } : Host).exited t).roster.exits =
      (rest ++ h.ready).filterMap Job.exit? := by
  obtain ⟨task, ht⟩ : ∃ task, h.task? t = some task := ⟨_, List.getElem?_eq_getElem hlt⟩
  rw [exited_eq ht]
  split
  · unfold afterCrash
    simp only
    split
    · rfl
    · split
      · rfl
      · split
        · rfl
        · rw [roster_enqueue, roster_spawn]
          exact List.append_nil _
  · rfl

/-! ## One step -/

theorem moves_runJob (hsteady : h.Steady) {j : Job} {rest : List Job}
    (hbatch : h.batch = j :: rest) :
    Moves slips h (({ h with batch := rest } : Host).runJob j) := by
  have hpop : j.exit? = none → Quiet h { h with batch := rest } := quiet_pop hbatch
  cases j with
  | resume t => exact (hpop rfl).then (moves_resume _ t)
  | exited t => exact moves_exited hsteady hbatch
  | taskEnded c => exact ((hpop rfl).release c).moves
  | proceed c => exact ((hpop rfl).proceed c).moves
  | joined p cancelled => exact ((hpop rfl).joined p cancelled).moves
  | wake t serial => exact ((hpop rfl).wake t serial).moves
  | close c => exact ((hpop rfl).release c).moves
  | announce name attempt fault => exact ((hpop rfl).publish _ _).moves

theorem moves_beginTurn (hsteady : h.Steady) (hbatch : h.batch = []) :
    Moves slips h h.beginTurn := by
  have hdue : ((h.timers.filter h.isDue).map (·.job)).filterMap Job.exit? = [] := by
    rw [List.filterMap_eq_nil_iff]
    intro j hj
    obtain ⟨timer, htimer, rfl⟩ := List.mem_map.1 hj
    exact hsteady.timers timer (List.mem_filter.1 htimer).1
  have hroster : h.beginTurn.roster = { h.roster with announcements := [] } := by
    unfold roster beginTurn
    simp only [hbatch, List.nil_append, List.append_nil, List.filterMap_append, hdue,
      List.filterMap_nil]
  refine ⟨hroster ▸ .turn, fun _ => ⟨hsteady.running, ?_, ?_⟩⟩
  · intro timer htimer
    exact hsteady.timers timer (List.mem_filter.1 htimer).1
  · rw [hroster]
    exact hsteady.exits

theorem moves_step (hsteady : h.Steady) : Moves slips h h.step := by
  unfold step
  split
  · rename_i t hrunning
    exact moves_runTask hsteady hrunning
  · split
    · rename_i j rest hbatch
      exact moves_runJob hsteady hbatch
    · rename_i hbatch
      exact moves_beginTurn hsteady hbatch

/-! ## Calls -/

theorem Quiet.abandon (hq : Quiet h₀ h) (t c : Nat) : Quiet h₀
    (h.updateTask t fun task => { task with inst := task.inst.abandon c }) :=
  hq.updateTask (fun _ _ => rfl) fun _ _ => id

theorem Quiet.cancelPlain (hq : Quiet h₀ h) (c : Nat) (call : Call) :
    Quiet h₀ (h.cancelPlain c call).1 := by
  unfold Host.cancelPlain
  split
  · exact hq
  · exact hq.setCall _ _
  · refine Quiet.enqueue (Quiet.setCall ?_ _ _) rfl rfl
    split
    · exact hq.abandon _ c
    · exact hq

theorem Quiet.cancelCall (hq : Quiet h₀ h) (c : Nat) : Quiet h₀ (h.cancelCall c).1 := by
  unfold Host.cancelCall
  split
  · exact hq
  · rename_i call _
    split
    · rename_i children _ _ _ _
      generalize hfolded : List.foldl _ (h, false) children = folded
      have hfold : Quiet h₀ folded.1 := by
        rw [← hfolded]
        refine List.foldlRecOn (motive := fun s : Host × Bool => Quiet h₀ s.1) _ _ hq ?_
        rintro ⟨g, any⟩ hg d _
        simp only
        split
        · rename_i child _
          exact hg.cancelPlain d child
        · exact hg
      simp only
      split
      · exact hfold
      · exact hfold.updateCall _ _
    · exact hq.cancelPlain c call

theorem Quiet.ask (hq : Quiet h₀ h) (t : Nat) (question : Question) :
    Quiet h₀ (h.ask t question).1 := by
  unfold Host.ask
  have hadded := hq.addCall ⟨none, .reply t none, .waiting false⟩
  simp only
  split
  · rename_i h' hpost
    exact hadded.post hpost
  · exact hadded.setCall _ _

theorem Quiet.query (hq : Quiet h₀ h) (name : Value) (kind : String) (argument : Value) :
    Quiet h₀ (h.query name kind argument).1 := by
  unfold Host.query
  split
  · exact hq
  · split
    · exact hq
    · exact hq.ask _ _

theorem Quiet.wait (hq : Quiet h₀ h) (name : Value) : Quiet h₀ (h.wait name).1 := by
  unfold Host.wait
  split
  · exact hq
  · split
    · exact hq
    · exact (hq.addCall _).watch _ _

theorem Quiet.stop (hq : Quiet h₀ h) (name : Value) (timeout : Option Number) :
    Quiet h₀ (h.stop name timeout).1 := by
  unfold Host.stop
  split
  · exact hq
  · split
    · exact hq
    · rename_i h' hpost
      exact ((hq.post hpost).addCall _).openWindow _ _ _ _

theorem Quiet.addGuards (hq : Quiet h₀ h) (parent : Nat) (timeout : Number) (tasks : List Nat) :
    Quiet h₀ (h.addGuards parent timeout tasks).1 := by
  induction tasks generalizing h with
  | nil => exact hq
  | cons t rest ih => exact ih ((hq.addCall _).enqueue rfl rfl)

theorem Quiet.shutdown (hq : Quiet h₀ h) (timeout : Option Number) :
    Quiet h₀ (h.shutdown timeout).1 := by
  unfold Host.shutdown
  simp only
  split
  · exact hq
  · generalize hposted : List.foldl _ h (h.live.map (·.2)) = posted
    have hstopping : Quiet h₀ posted := by
      rw [← hposted]
      refine List.foldlRecOn _ _ hq fun g hg t _ => ?_
      split
      · rename_i h' hpost
        exact hg.post hpost
      · exact hg
    exact ((hstopping.addCall _).addGuards _ _ _).updateCall _ _

theorem Quiet.nextNumber (hq : Quiet h₀ h) : Quiet h₀ h.nextNumber.1 :=
  hq.trans (quiet_aside rfl rfl rfl fun _ => .inl)

theorem steady_addTask (hsteady : h.Steady) (other : Task) : (h.addTask other).1.Steady := by
  refine ⟨running_addTask hsteady other, hsteady.timers, fun t ht => ?_⟩
  have hlt := hsteady.exits t ht
  rw [length_entries] at hlt ⊢
  simp only [addTask, List.length_append]
  omega

theorem moves_create (h : Host) (choice : MachineChoice) (name payload : Value)
    (outlet : Outlet) : Moves slips h (h.create choice name payload outlet).1 := by
  unfold Host.create
  split
  · exact (Quiet.refl h).moves
  · exact (Quiet.refl h).moves
  · rename_i m _
    refine (Quiet.refl h).nextNumber.then ⟨?_, fun hsteady => steady_addTask hsteady _⟩
    have hnext : h.nextNumber.1.roster.Next slips _ := .create m name payload (some h.numbers)
    have hroster : (h.nextNumber.1.addTask {
        inst := .create m name payload
        number := some h.numbers
        supervised := false
        outlet := outlet }).1.roster =
        h.nextNumber.1.roster.add (.new m name payload (some h.numbers) false) := by
      simp [roster, Roster.add, addTask, Entry.new, Task.entry, Instance.create, Instance.ending]
    exact hroster ▸ hnext

/-- The name has no restarts behind it, and may be held by a new instance. -/
def fresh (h : Host) (name : Value) : Host := { h with restarts := setName h.restarts name [] }

theorem steady_fresh (hsteady : h.Steady) (name : Value) : (h.fresh name).Steady :=
  steady_of_roster hsteady rfl rfl rfl fun _ => id

theorem other_of_choose {choice : MachineChoice} {v : Value}
    (hchoose : h.choose choice = .ok (.error v)) : choice.IsOther := by
  cases choice with
  | named typeName =>
    unfold choose at hchoose
    cases hget : h.registry.get typeName <;> simp [hget] at hchoose
  | given machine => cases hchoose
  | other v => trivial

theorem moves_start (h : Host) (choice : MachineChoice) (name payload : Value) :
    Moves choice.IsOther h (h.start choice name payload).1 := by
  unfold Host.start
  split
  · exact (Quiet.refl h).moves
  · split
    · exact (Quiet.refl h).moves
    · rename_i hkey
      have hkey : name.isKey = true := by simpa using hkey
      simp only
      split
      · exact (Quiet.refl h).moves
      · rename_i htaken
        have hfree : h.roster.IsFree name := by
          refine isFree_roster fun t task hholder => ?_
          rw [hholder] at htaken
          by_cases halive : task.inst.alive = true
          · simp [halive] at htaken
          · simpa using halive
        split
        · rename_i hchoose
          exact ⟨.forget (other_of_choose hchoose) hkey hfree,
            fun hsteady => steady_fresh hsteady name⟩
        · rename_i m _
          refine ⟨?_, fun hsteady => ?_⟩
          · have hnext : h.roster.Next choice.IsOther _ := .start m payload h.numbers hkey hfree
            have hroster := (h.fresh name).nextNumber.1.roster_spawn m name payload
              (some h.numbers)
            exact hroster ▸ hnext
          · exact steady_spawn ((Quiet.refl _).nextNumber.steady (steady_fresh hsteady name)) ..

/-! ## Runs -/

theorem Quiet.accepted (hq : Quiet h₀ h) (t : Nat) (r : Request) :
    Quiet h₀ (h.accepting (h.post t r)) :=
  hq.accepting fun _ hpost => hq.post hpost

/-- The supervisor notices nothing of what happens aside. -/
theorem quiet_act {d : Deed} (haside : d.Aside) : Quiet h (h.act d) := by
  have hsame := Quiet.refl h
  cases d with
  | register registry => exact quiet_aside rfl rfl rfl fun _ => .inl
  | subscribe bus => exact quiet_aside rfl rfl rfl fun _ => .inl
  | send s => exact hsame.accepting fun _ hsend => hsame.send hsend
  | query name kind argument => exact hsame.query name kind argument
  | wait name => exact hsame.wait name
  | stop name timeout => exact hsame.stop name timeout
  | shutdown timeout => exact hsame.shutdown timeout
  | giveUp c => exact hsame.cancelCall c
  | startTask t => exact hsame.startTask t
  | tell t event payload => exact hsame.accepted t _
  | ask t question => exact hsame.ask t question
  | requestStop t => exact hsame.accepted t _
  | cancel t => exact hsame.cancelTask t
  | _ => exact haside.elim

/-- Whatever happens to a host, its supervisor makes one move. -/
theorem moves_act (hsteady : h.Steady) (d : Deed) : Moves d.Slips h (h.act d) := by
  cases d with
  | step => exact moves_step hsteady
  | pass time => exact ⟨.pass time, fun hsteady => steady_of_roster hsteady rfl rfl rfl fun _ => id⟩
  | start choice name payload => exact moves_start h choice name payload
  | create choice name payload outlet => exact moves_create h choice name payload outlet
  | _ => exact Quiet.moves (quiet_act (by trivial))

theorem steady_opened (settings : Settings) (registry : Registry) (bus : Bus Observer) :
    (opened settings registry bus).Steady :=
  ⟨by simp [opened], by simp [opened], by simp [opened, roster]⟩

theorem steady_after (hsteady : h.Steady) (deeds : List Deed) : (h.after deeds).Steady :=
  after_keeps (P := Steady) (fun _ d hsteady => (moves_act hsteady d).steady hsteady) hsteady deeds

/-- What every move of the supervisor keeps, every run keeps. -/
theorem after_keeps_roster {P : Roster → Prop}
    (hnext : ∀ (slips : Prop) r r', P r → r.Next slips r' → P r')
    (hsteady : h.Steady) (hkept : P h.roster) (deeds : List Deed) : P (h.after deeds).roster := by
  have hboth : (h.after deeds).Steady ∧ P (h.after deeds).roster := by
    refine after_keeps (P := fun h => h.Steady ∧ P h.roster) ?_ ⟨hsteady, hkept⟩ deeds
    rintro g d ⟨hsteady, hkept⟩
    have hmoves := moves_act hsteady d
    exact ⟨hmoves.steady hsteady, hnext _ _ _ hkept hmoves.next⟩
  exact hboth.2

/-- Whatever happens later, a task keeps its origin. -/
theorem entry_after (hsteady : h.Steady) {e : Entry} (he : h.roster.entries[t]? = some e)
    (deeds : List Deed) : ∃ e', (h.after deeds).roster.entries[t]? = some e' ∧ e.Becomes e' :=
  after_keeps_roster (P := fun r => ∃ e', r.entries[t]? = some e' ∧ e.Becomes e')
    (fun _ _ _ ⟨_, he, hbecomes⟩ hnext =>
      have ⟨e', he', hbecomes'⟩ := hnext.entry he
      ⟨e', he', hbecomes.trans hbecomes'⟩)
    hsteady ⟨e, he, .refl e⟩ deeds

end Host
end Turnstile
