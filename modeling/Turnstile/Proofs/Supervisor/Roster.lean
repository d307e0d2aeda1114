-- The supervisor on its own: which tasks there are, who holds which name, when each name was
-- restarted, and whose end it is still to learn. It has a dozen moves, and whatever happens to a
-- host is one of them: what they keep, every run of the host keeps.
import Turnstile.Proofs.Supervisor.Deeds
import Turnstile.Proofs.Supervisor.Instances
import Turnstile.Proofs.Supervisor.Touches

namespace Turnstile

/-! ## The supervisor -/

/-- What a supervisor knows of a task. -/
structure Entry where
  machine : Machine
  name : Value
  payload : Value
  number : Option Nat
  supervised : Bool
  alive : Bool
  ending : Option Ending
  ended : Bool

/-- The entry of a task that has just come. -/
def Entry.new (machine : Machine) (name payload : Value) (number : Option Nat)
    (supervised : Bool) : Entry where
  machine := machine
  name := name
  payload := payload
  number := number
  supervised := supervised
  alive := true
  ending := none
  ended := false

/-- How the body of an instance ended, if it has. -/
def Instance.ending (i : Instance) : Option Ending :=
  match i.phase with
  | .finished ending => some ending
  | _ => none

/-- What may become of an entry: it keeps its origin, and once it is over it stays as it is. -/
structure Entry.Becomes (e e' : Entry) : Prop where
  machine : e'.machine = e.machine
  name : e'.name = e.name
  number : e'.number = e.number
  supervised : e'.supervised = e.supervised
  alive : e'.alive = true → e.alive = true
  ended : e.ended = true → e' = e

theorem Entry.Becomes.refl (e : Entry) : e.Becomes e := ⟨rfl, rfl, rfl, rfl, id, fun _ => rfl⟩

theorem Entry.Becomes.trans {e e' e'' : Entry} (h : e.Becomes e') (h' : e'.Becomes e'') :
    e.Becomes e'' where
  machine := h'.machine.trans h.machine
  name := h'.name.trans h.name
  number := h'.number.trans h.number
  supervised := h'.supervised.trans h.supervised
  alive := h.alive ∘ h'.alive
  ended := fun hended => by
    obtain rfl := h.ended hended
    exact h'.ended hended

def Task.entry (task : Task) : Entry where
  machine := task.inst.machine
  name := task.inst.name
  payload := task.inst.initialPayload
  number := task.number
  supervised := task.supervised
  alive := task.inst.alive
  ending := task.inst.ending
  ended := task.run = .ended

/-- The task whose end a job tells of. -/
def Job.exit? : Job → Option Nat
  | .exited t => some t
  | _ => none

/-- The restart that a job announces: the name, and the number of the attempt. -/
def Job.announce? : Job → Option (Value × Nat)
  | .announce name attempt _ => some (name, attempt)
  | _ => none

structure Roster where
  settings : Settings
  clock : Rat
  entries : List Entry
  holders : List (Value × Nat)
  restarts : List (Value × List Rat)
  /-- The tasks whose end the supervisor is still to learn, in order. -/
  exits : List Nat
  /-- The restarts that are announced in the next turn. -/
  announcements : List (Value × Nat)

def Host.roster (h : Host) : Roster where
  settings := h.settings
  clock := h.clock
  entries := h.tasks.map Task.entry
  holders := h.holders
  restarts := h.restarts
  exits := (h.batch ++ h.ready).filterMap Job.exit?
  announcements := h.ready.filterMap Job.announce?

namespace Roster

/-- Whether no live instance holds a name. -/
def IsFree (r : Roster) (name : Value) : Prop :=
  ∀ t e, lookupName r.holders name = some t → r.entries[t]? = some e → e.alive = false

/-- The restarts of a name that still count. -/
def recent (r : Roster) (name : Value) : List Rat :=
  ((lookupName r.restarts name).getD []).filter fun time =>
    r.settings.maxSeconds.gtRat (r.clock - time)

def count (r : Roster) (name : Value) (times : List Rat) : Roster :=
  { r with restarts := setName r.restarts name times }

def add (r : Roster) (e : Entry) : Roster := { r with entries := r.entries ++ [e] }

/-- Adds a task that holds its name. -/
def spawn (r : Roster) (e : Entry) : Roster :=
  { r.add e with holders := setName r.holders e.name r.entries.length }

/-- Learns of the end of a task: it no longer holds its name. -/
def vacate (r : Roster) (t : Nat) (name : Value) (rest : List Nat) : Roster :=
  { r with
    holders := if lookupName r.holders name = some t then eraseName r.holders name else r.holders
    exits := rest }

/-- The moves of a supervisor. The restarts behind a name may be forgotten though nothing is
started under it, but only where that slips in. -/
inductive Next (slips : Prop) (r : Roster) : Roster → Prop where
  | same : Next slips r r
  | pass (time : Rat) : Next slips r { r with clock := time }
  | turn : Next slips r { r with announcements := [] }
  | proceed {t : Nat} {e : Entry} (he : r.entries[t]? = some e) (hgoing : e.ended = false)
    {alive : Bool} (halive : alive = true → e.alive = true) (ending : Option Ending) :
    Next slips r { r with entries := r.entries.set t { e with alive := alive, ending := ending } }
  | finish {t : Nat} {e : Entry} (he : r.entries[t]? = some e) (hgoing : e.ended = false)
    (hover : e.ending ≠ none) :
    Next slips r { r with
      entries := r.entries.set t { e with ended := true }
      exits := r.exits ++ if e.supervised then [t] else [] }
  | create (machine : Machine) (name payload : Value) (number : Option Nat) :
    Next slips r (r.add (.new machine name payload number false))
  | forget (hslips : slips) {name : Value} (hkey : name.isKey = true) (hfree : r.IsFree name) :
    Next slips r (r.count name [])
  | start (machine : Machine) {name : Value} (payload : Value) (number : Nat)
    (hkey : name.isKey = true) (hfree : r.IsFree name) :
    Next slips r ((r.count name []).spawn (.new machine name payload (some number) true))
  | leave {t : Nat} {rest : List Nat} {e : Entry} (hexits : r.exits = t :: rest)
    (he : r.entries[t]? = some e)
    (hcalm : (∃ fault, e.ending = some (.failed fault)) → r.settings.restart = .transient →
      lookupName (r.vacate t e.name rest).holders e.name ≠ none) :
    Next slips r (r.vacate t e.name rest)
  | refuse {t : Nat} {rest : List Nat} {e : Entry} (hexits : r.exits = t :: rest)
    (he : r.entries[t]? = some e)
    (hcount : r.settings.maxRestarts.leRat (r.recent e.name).length = true) :
    Next slips r ((r.vacate t e.name rest).count e.name (r.recent e.name))
  | restart {t : Nat} {rest : List Nat} {e : Entry} {fault : Fault} (hexits : r.exits = t :: rest)
    (he : r.entries[t]? = some e) (hfailed : e.ending = some (.failed fault))
    (hpolicy : r.settings.restart = .transient)
    (hfree : lookupName (r.vacate t e.name rest).holders e.name = none)
    (hcount : r.settings.maxRestarts.leRat (r.recent e.name).length = false) :
    Next slips r { ((r.vacate t e.name rest).count e.name (r.recent e.name ++ [r.clock])).spawn
        (.new e.machine e.name e.payload none true) with
      announcements := r.announcements ++ [(e.name, (r.recent e.name).length + 1)] }

variable {slips : Prop} {r r' : Roster} {t : Nat} {e : Entry}

theorem becomes_set (he : r.entries[t]? = some e) {u : Nat} {d d' : Entry}
    (hd : r.entries[u]? = some d) (hbecomes : d.Becomes d') :
    ∃ e', (r.entries.set u d')[t]? = some e' ∧ e.Becomes e' := by
  by_cases hu : u = t
  · subst hu
    obtain rfl := Option.some.inj (hd.symm.trans he)
    exact ⟨d', List.getElem?_set_self (List.getElem?_eq_some_iff.1 he).1, hbecomes⟩
  · exact ⟨e, (List.getElem?_set_ne hu).trans he, .refl e⟩

theorem Next.entry (hnext : r.Next slips r') (he : r.entries[t]? = some e) :
    ∃ e', r'.entries[t]? = some e' ∧ e.Becomes e' := by
  have hadded : ∀ new : Entry, ∃ e', (r.entries ++ [new])[t]? = some e' ∧ e.Becomes e' := fun _ =>
    ⟨e, (List.getElem?_append_left (List.getElem?_eq_some_iff.1 he).1).trans he, .refl e⟩
  cases hnext with
  | proceed hd hgoing halive ending =>
    exact becomes_set he hd ⟨rfl, rfl, rfl, rfl, halive, fun hended => by
      cases hgoing.symm.trans hended⟩
  | finish hd hgoing hover =>
    exact becomes_set he hd ⟨rfl, rfl, rfl, rfl, id, fun hended => by
      cases hgoing.symm.trans hended⟩
  | create machine name payload number => exact hadded _
  | start machine payload number hkey hfree => exact hadded _
  | restart hexits hd hfailed hpolicy hfree hcount => exact hadded _
  | same => exact ⟨e, he, .refl e⟩
  | pass time => exact ⟨e, he, .refl e⟩
  | turn => exact ⟨e, he, .refl e⟩
  | forget hslips hkey hfree => exact ⟨e, he, .refl e⟩
  | leave hexits hd hcalm => exact ⟨e, he, .refl e⟩
  | refuse hexits hd hcount => exact ⟨e, he, .refl e⟩

/-- The bodies of the tasks that have ended are over. -/
def Over (r : Roster) : Prop :=
  ∀ (t : Nat) (e : Entry), r.entries[t]? = some e → e.ended = true → e.ending ≠ none

theorem Over.add (h : r.Over) {new : Entry} (hentries : r'.entries = r.entries ++ [new])
    (hnew : new.ended = false) : r'.Over := by
  intro t e he hended
  rw [hentries, List.getElem?_append] at he
  split at he
  · exact h t e he hended
  · obtain rfl := List.mem_singleton.1 (List.mem_of_getElem? he)
    cases hnew.symm.trans hended

theorem Over.set (h : r.Over) {u : Nat} {e' : Entry} (hentries : r'.entries = r.entries.set u e')
    (hover : e'.ended = true → e'.ending ≠ none) : r'.Over := by
  intro t e he hended
  rw [hentries, List.getElem?_set] at he
  split at he
  · split at he
    · obtain rfl := Option.some.inj he
      exact hover hended
    · cases he
  · exact h t e he hended

theorem Next.keeps_over (hnext : r.Next slips r') (h : r.Over) : r'.Over := by
  cases hnext with
  | proceed hd hgoing halive ending =>
    exact h.set rfl fun hended => by cases hgoing.symm.trans hended
  | finish hd hgoing hover => exact h.set rfl fun _ => hover
  | create machine name payload number => exact h.add rfl rfl
  | start machine payload number hkey hfree => exact h.add rfl rfl
  | restart hexits hd hfailed hpolicy hfree hcount => exact h.add rfl rfl
  | same => exact h
  | pass time => exact h
  | turn => exact h
  | forget hslips hkey hfree => exact h
  | leave hexits hd hcalm => exact h
  | refuse hexits hd hcount => exact h

end Roster

namespace Host

variable {h₀ h h' : Host} {t u : Nat} {task : Task}

/-! ## What the supervisor does not notice -/

/-- A host whose running task is active, whose timers tell of no end, and whose supervisor is
told only of tasks that there are. -/
structure Steady (h : Host) : Prop where
  running : ∀ t, h.running = some t → ∃ task, h.task? t = some task ∧ task.run = .active
  timers : ∀ timer ∈ h.timers, timer.job.exit? = none
  exits : ∀ t ∈ h.roster.exits, t < h.roster.entries.length

/-- A task that has not ended. -/
def Going (h : Host) (t : Nat) : Prop := ∃ task, h.task? t = some task ∧ task.run ≠ .ended

/-- The supervisor notices nothing. -/
structure Quiet (h h' : Host) : Prop where
  roster : h'.roster = h.roster
  steady : h.Steady → h'.Steady

theorem Quiet.refl (h : Host) : Quiet h h := ⟨rfl, id⟩

theorem Quiet.trans {h'' : Host} (hq : Quiet h h') (hq' : Quiet h' h'') : Quiet h h'' :=
  ⟨hq'.roster.trans hq.roster, hq'.steady ∘ hq.steady⟩

theorem entries_get? (h : Host) (t : Nat) :
    h.roster.entries[t]? = (h.task? t).map Task.entry := List.getElem?_map

theorem going_iff : h.Going t ↔ ∃ e, h.roster.entries[t]? = some e ∧ e.ended = false := by
  rw [entries_get?]
  unfold Going
  cases h.task? t with
  | none => simp
  | some task => simp [Task.entry]

theorem Quiet.going (hq : Quiet h h') (hgoing : h.Going t) : h'.Going t := by
  rw [going_iff] at hgoing ⊢
  rwa [hq.roster]

/-- Nothing is noticed where the tasks are the same to the supervisor, the running one runs on
or nothing runs, and no timer tells of an end. -/
theorem quiet_of (hroster : h'.roster = h.roster)
    (hrunning : ∀ t, h'.running = some t → h.running = some t ∧ ∀ task, h.task? t = some task →
      task.run = .active → ∃ task', h'.task? t = some task' ∧ task'.run = .active)
    (htimers : ∀ timer ∈ h'.timers, timer ∈ h.timers ∨ timer.job.exit? = none) : Quiet h h' := by
  refine ⟨hroster, fun hsteady => ⟨?_, ?_, hroster ▸ hsteady.exits⟩⟩
  · intro t ht
    obtain ⟨hrun, hactive⟩ := hrunning t ht
    obtain ⟨task, htask, hrun⟩ := hsteady.running t hrun
    exact hactive task htask hrun
  · intro timer htimer
    exact (htimers timer htimer).elim (hsteady.timers timer) id

/-- Nothing is noticed of what touches neither tasks nor queues. -/
theorem quiet_aside (hroster : h'.roster = h.roster) (hrunning : h'.running = h.running)
    (htasks : h'.tasks = h.tasks)
    (htimers : ∀ timer ∈ h'.timers, timer ∈ h.timers ∨ timer.job.exit? = none) : Quiet h h' :=
  quiet_of hroster (fun t ht => ⟨hrunning ▸ ht, fun task htask hrun =>
    ⟨task, (task?_of_tasks htasks t).trans htask, hrun⟩⟩) htimers

theorem roster_enqueue (h : Host) (j : Job) : (h.enqueue j).roster =
    { h.roster with
      exits := h.roster.exits ++ j.exit?.toList
      announcements := h.roster.announcements ++ j.announce?.toList } := by
  unfold roster enqueue
  simp only [Roster.mk.injEq, true_and, ← List.append_assoc, List.filterMap_append]
  refine ⟨?_, ?_⟩
  · cases j <;> simp [Job.exit?]
  · cases j <;> simp [Job.announce?]

theorem Quiet.enqueue (hq : Quiet h₀ h) {j : Job} (hexit : j.exit? = none)
    (hannounce : j.announce? = none) : Quiet h₀ (h.enqueue j) := by
  refine hq.trans (quiet_aside ?_ rfl rfl fun _ => .inl)
  rw [roster_enqueue, hexit, hannounce]
  simp

theorem Quiet.see (hq : Quiet h₀ h) (e : Event) : Quiet h₀ (h.see e) :=
  hq.trans (quiet_aside rfl rfl rfl fun _ => .inl)

theorem Quiet.note (hq : Quiet h₀ h) (level : LogLevel) (name : Value) (text : String) :
    Quiet h₀ (h.note level name text) := hq.see _

theorem Quiet.setCall (hq : Quiet h₀ h) (c : Nat) (call : Call) : Quiet h₀ (h.setCall c call) :=
  hq.trans (quiet_aside rfl rfl rfl fun _ => .inl)

theorem Quiet.updateCall (hq : Quiet h₀ h) (c : Nat) (f : Call → Call) :
    Quiet h₀ (h.updateCall c f) := hq.trans (quiet_aside rfl rfl rfl fun _ => .inl)

theorem Quiet.addCall (hq : Quiet h₀ h) (call : Call) : Quiet h₀ (h.addCall call).1 :=
  hq.trans (quiet_aside rfl rfl rfl fun _ => .inl)

theorem Quiet.publish (hq : Quiet h₀ h) (scope : Option Value) (n : Notification) :
    Quiet h₀ (h.publish scope n).1 := by
  obtain ⟨events, hevents⟩ := h.publish_eq scope n
  rw [hevents]
  exact hq.trans (quiet_aside rfl rfl rfl fun _ => .inl)

theorem mem_insertTimer {timer other : Timer} {timers : List Timer}
    (hmem : other ∈ insertTimer timer timers) : other = timer ∨ other ∈ timers := by
  induction timers with
  | nil => exact .inl (List.mem_singleton.1 hmem)
  | cons first rest ih =>
    unfold insertTimer at hmem
    split at hmem
    · rcases List.mem_cons.1 hmem with rfl | hmem
      · exact .inr List.mem_cons_self
      · exact (ih hmem).imp id (List.mem_cons_of_mem _)
    · exact List.mem_cons.1 hmem

theorem Quiet.setTimer (hq : Quiet h₀ h) (delay : Number) {j : Job} (hexit : j.exit? = none) :
    Quiet h₀ (h.setTimer delay j) := by
  refine hq.trans (quiet_aside rfl rfl rfl fun timer hmem => ?_)
  rcases mem_insertTimer hmem with rfl | hmem
  · exact .inr hexit
  · exact .inl hmem

theorem Quiet.dropWindow (hq : Quiet h₀ h) (c : Nat) : Quiet h₀ (h.dropWindow c) :=
  hq.trans (quiet_aside rfl rfl rfl fun _ hmem => .inl (List.mem_filter.1 hmem).1)

/-! ## What becomes of a task -/

/-- What a change of a task leaves alone in it, it leaves alone in all tasks. -/
theorem map_updateTask {α : Type} {g : Task → α} {f : Task → Task}
    (hsame : ∀ task, h.task? t = some task → g (f task) = g task) :
    (h.updateTask t f).tasks.map g = h.tasks.map g := by
  apply List.ext_getElem?
  intro u
  show ((h.updateTask t f).tasks.map g)[u]? = _
  rw [List.getElem?_map, List.getElem?_map]
  by_cases hu : t = u
  · subst hu
    cases ht : h.task? t with
    | none =>
      have ht' : h.tasks[t]? = none := ht
      simp [updateTask, ht']
    | some task =>
      have hself := task?_updateTask_self ht f
      show Option.map g ((h.updateTask t f).task? t) = Option.map g (h.task? t)
      rw [hself, ht, Option.map_some, Option.map_some, hsame task ht]
  · exact congrArg (Option.map g) (task?_updateTask_ne hu f)

theorem roster_of_tasks {g : Host} (hentries : g.tasks.map Task.entry = h.tasks.map Task.entry)
    (hrest : g = { h with tasks := g.tasks }) : g.roster = h.roster := by
  rw [hrest]
  unfold roster
  simp only [hentries]

/-- A task becomes another one that is the same to the supervisor, and goes on running if it
did. -/
theorem Quiet.updateTask (hq : Quiet h₀ h) {f : Task → Task}
    (hentry : ∀ task, h.task? t = some task → (f task).entry = task.entry)
    (hactive : ∀ task, h.task? t = some task → task.run = .active → (f task).run = .active) :
    Quiet h₀ (h.updateTask t f) := by
  refine hq.trans (quiet_of (roster_of_tasks (map_updateTask hentry) rfl) ?_ fun _ => .inl)
  intro u hu
  refine ⟨hu, fun task htask hrun => ?_⟩
  by_cases hne : t = u
  · subst hne
    exact ⟨f task, task?_updateTask_self htask f, hactive task htask hrun⟩
  · exact ⟨task, (task?_updateTask_ne hne f).trans htask, hrun⟩

theorem Quiet.setTask (hq : Quiet h₀ h) {task' : Task} (ht : h.task? t = some task)
    (hentry : task'.entry = task.entry) (hactive : task.run = .active → task'.run = .active) :
    Quiet h₀ (h.setTask t task') := by
  rw [setTask_eq_updateTask ht fun _ => task']
  have hthere : ∀ {other : Task}, h.task? t = some other → other = task :=
    fun hother => Option.some.inj (hother.symm.trans ht)
  refine hq.updateTask ?_ ?_
  · intro other hother
    rw [hthere hother]
    exact hentry
  · intro other hother
    rw [hthere hother]
    exact hactive

/-- A task that waits or is queued does so in another way. -/
theorem Quiet.setRun (hq : Quiet h₀ h) (ht : h.task? t = some task) (run : TaskRun)
    (hended : task.run ≠ .ended) (hactive : task.run ≠ .active) (hrun : run ≠ .ended) :
    Quiet h₀ (h.setTask t { task with run := run }) := by
  refine hq.setTask ht ?_ fun h => absurd h hactive
  simp [Task.entry, hended, hrun]

/-- The running task waits. -/
theorem Quiet.block (hq : Quiet h₀ h) (hgoing : h.Going t) (run : TaskRun) (hrun : run ≠ .ended) :
    Quiet h₀ (h.block t run) := by
  obtain ⟨task, ht, hended⟩ := hgoing
  refine hq.trans (quiet_of (roster_of_tasks
    (h := { h with running := none }) (map_updateTask (h := h) (t := t) ?_) rfl) ?_ fun _ => .inl)
  · intro other hother
    obtain rfl : other = task := Option.some.inj (hother.symm.trans ht)
    simp [Task.entry, hended, hrun]
  · intro u hu
    cases hu

theorem entry_of_post {inst : Instance} {r : Request} (hpost : task.inst.post r = .ok inst) :
    { task with inst := inst }.entry = task.entry := by
  unfold Instance.post at hpost
  split at hpost
  · obtain rfl := Except.ok.inj hpost
    rfl
  · cases hpost

theorem Quiet.post (hq : Quiet h₀ h) {r : Request} (hpost : h.post t r = .ok h') :
    Quiet h₀ h' := by
  unfold Host.post at hpost
  cases htask : h.task? t with
  | none => simp [htask] at hpost
  | some task =>
    simp only [htask] at hpost
    cases hinst : task.inst.post r with
    | error fault => simp [hinst] at hpost
    | ok inst =>
      simp only [hinst] at hpost
      have hentry := entry_of_post hinst
      split at hpost
      · rename_i hrun
        obtain rfl := Except.ok.inj hpost
        refine Quiet.enqueue ?_ rfl rfl
        refine hq.setTask htask ?_ fun hactive => absurd (hrun.symm.trans hactive) nofun
        rw [← hentry]
        simp [Task.entry, hrun]
      · obtain rfl := Except.ok.inj hpost
        exact hq.setTask htask hentry id

theorem Quiet.accepting (hq : Quiet h₀ h) {result : Except Fault Host}
    (hresult : ∀ h', result = .ok h' → Quiet h₀ h') : Quiet h₀ (h.accepting result) := by
  cases result with
  | ok h' => exact hresult h' rfl
  | error fault => exact hq

theorem Quiet.send (hq : Quiet h₀ h) {s : Send} (hsend : h.send s = .ok h') : Quiet h₀ h' := by
  unfold Host.send at hsend
  cases hlookup : h.lookup s.name with
  | error fault => simp [hlookup, bind, Except.bind] at hsend
  | ok t =>
    simp only [hlookup, bind, Except.bind] at hsend
    exact hq.post hsend

/-! ## What a body does -/

theorem Quiet.pause (hq : Quiet h₀ h) (hgoing : h.Going t) (p : Pause) :
    Quiet h₀ (h.pause t p) := by
  unfold Host.pause
  cases p with
  | none => exact hq
  | forever => exact hq.block hgoing _ nofun
  | seconds s =>
    simp only
    split
    · exact (hq.block hgoing (.queued false) nofun).enqueue rfl rfl
    · have hserial : Quiet h { h with serials := h.serials + 1 } :=
        quiet_aside rfl rfl rfl fun _ => .inl
      have htimer := hserial.setTimer s (j := .wake t h.serials) rfl
      exact (hq.trans htimer).block (htimer.going hgoing) _ nofun

theorem Quiet.touch (hq : Quiet h₀ h) (hgoing : h.Going t) (htouch : Touch t h h') :
    Quiet h₀ h' := by
  cases htouch with
  | write events past => exact hq.trans (quiet_aside rfl rfl rfl fun _ => .inl)
  | answer s => exact hq.updateTask (fun _ _ => rfl) fun _ _ => id
  | send hpost => exact hq.post hpost
  | pause p => exact hq.pause hgoing p

theorem Quiet.resolve (hq : Quiet h₀ h) (c : Nat) (result : Except Fault Answer) :
    Quiet h₀ (h.resolve c result) := by
  unfold Host.resolve
  split
  · exact (hq.setCall _ _).enqueue rfl rfl
  · exact hq

/-- The supervisor notices of a body that moves on only what becomes of its instance. -/
theorem quiet_feed (ht : h.task? t = some task) (hended : task.run ≠ .ended) (s : Stimulus) :
    Quiet (h.setTask t { task with inst := (task.inst.step s).1, answer := none })
      (h.feed t s) := by
  have hgoing : (h.setTask t { task with inst := (task.inst.step s).1, answer := none }).Going t :=
    ⟨_, task?_setTask_self ht _, hended⟩
  exact feed_keeps (P := Quiet _) ht s (fun _ _ hq htouch => hq.touch (hq.going hgoing) htouch)
    (fun _ c result hq => hq.resolve c result) (.refl _)

end Host
end Turnstile
