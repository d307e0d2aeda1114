-- Whatever happens to a host is a move at the desk: one lemma for each function of the host says
-- so. Besides, only calls that ask nobody are told of the end of a task or of a window, so that no
-- call that asks is ever let go without its answer.
import Turnstile.Proofs.Supervisor.Deeds
import Turnstile.Proofs.Supervisor.Desk
import Turnstile.Proofs.Supervisor.Roster

namespace Turnstile

/-- What a call knows, if it asks an instance. -/
def Call.reply? (call : Call) : Option Reply :=
  match call.stage with
  | .reply t result => some ⟨t, result, match call.run with
      | .waiting _ => true
      | .queued _ | .done _ => false⟩
  | _ => none

/-- The call that a job lets go. -/
def Job.told? : Job → Option Nat
  | .taskEnded c | .close c => some c
  | _ => none

namespace Host

variable {h₀ h h' : Host} {t u c : Nat} {task : Task}

def desk (h : Host) : Desk where
  insts := h.tasks.map (·.inst)
  replies := h.calls.map Call.reply?

/-- The calls that are let go without an answer ask nobody. -/
structure Tidy (h : Host) : Prop where
  told : ∀ j ∈ h.batch ++ h.ready, ∀ c, j.told? = some c → h.desk.Plain c
  timers : ∀ timer ∈ h.timers, ∀ c, timer.job.told? = some c → h.desk.Plain c
  watchers : ∀ t task, h.task? t = some task → ∀ c ∈ task.watchers, h.desk.Plain c
  children : ∀ (p : Nat) (call : Call), h.calls[p]? = some call →
    ∀ (children : List Nat) (left : Nat), call.stage = .join children left →
    ∀ c ∈ children, h.desk.Plain c

/-- Nobody who waits is concerned. -/
structure Still (h₀ h : Host) : Prop where
  smalls : Desk.Smalls h₀.desk h.desk
  tidy : h.Tidy
  past : h.past = h₀.past

theorem Still.refl (htidy : h.Tidy) : Still h h := ⟨.refl, htidy, rfl⟩

theorem Still.trans {h'' : Host} (hs : Still h h') (hs' : Still h' h'') : Still h h'' :=
  ⟨hs.smalls.trans hs'.smalls, hs'.tidy, hs'.past.trans hs.past⟩

theorem reply_of_call {call : Call} (hcall : h.calls[c]? = some call) :
    h.desk.replies[c]? = some call.reply? := by
  show (h.calls.map Call.reply?)[c]? = _
  rw [List.getElem?_map, hcall]
  rfl

theorem inst_of_task (ht : h.task? t = some task) : h.desk.insts[t]? = some task.inst := by
  have ht' : h.tasks[t]? = some task := ht
  show (h.tasks.map (·.inst))[t]? = _
  rw [List.getElem?_map, ht']
  rfl

/-! ## Queues and timers -/

/-- Only queues, timers and what is seen change. -/
theorem Still.aside (hs : Still h₀ h) (hpast : h'.past = h.past) (htasks : h'.tasks = h.tasks)
    (hcalls : h'.calls = h.calls)
    (hjobs : ∀ j ∈ h'.batch ++ h'.ready, j ∈ h.batch ++ h.ready ∨
      ∀ c, j.told? = some c → h.desk.Plain c)
    (htimers : ∀ timer ∈ h'.timers, timer ∈ h.timers ∨
      ∀ c, timer.job.told? = some c → h.desk.Plain c) : Still h₀ h' := by
  have hdesk : h'.desk = h.desk := by
    unfold desk
    rw [htasks, hcalls]
  refine ⟨hdesk ▸ hs.smalls, ⟨?_, ?_, ?_, ?_⟩, hpast.trans hs.past⟩
  · rw [hdesk]
    exact fun j hj => (hjobs j hj).elim (hs.tidy.told j) id
  · rw [hdesk]
    exact fun timer htimer => (htimers timer htimer).elim (hs.tidy.timers timer) id
  · rw [hdesk]
    exact fun t task ht => hs.tidy.watchers t task ((task?_of_tasks htasks t).symm.trans ht)
  · rw [hdesk]
    exact fun p call hcall => hs.tidy.children p call (hcalls ▸ hcall)

theorem Still.enqueue (hs : Still h₀ h) {j : Job}
    (hj : ∀ c, j.told? = some c → h.desk.Plain c) : Still h₀ (h.enqueue j) := by
  refine hs.aside rfl rfl rfl (fun j' hj' => ?_) fun _ => .inl
  have hj' : j' ∈ h.batch ++ (h.ready ++ [j]) := hj'
  rw [← List.append_assoc] at hj'
  rcases List.mem_append.1 hj' with hold | hnew
  · exact .inl hold
  · exact .inr (List.mem_singleton.1 hnew ▸ hj)

theorem Still.see (hs : Still h₀ h) (e : Event) : Still h₀ (h.see e) :=
  hs.aside rfl rfl rfl (fun _ => .inl) fun _ => .inl

theorem Still.note (hs : Still h₀ h) (level : LogLevel) (name : Value) (text : String) :
    Still h₀ (h.note level name text) := hs.see _

theorem Still.publish (hs : Still h₀ h) (scope : Option Value) (n : Notification) :
    Still h₀ (h.publish scope n).1 := by
  obtain ⟨events, hevents⟩ := h.publish_eq scope n
  rw [hevents]
  exact hs.aside rfl rfl rfl (fun _ => .inl) fun _ => .inl

theorem Still.setTimer (hs : Still h₀ h) (delay : Number) {j : Job}
    (hj : ∀ c, j.told? = some c → h.desk.Plain c) : Still h₀ (h.setTimer delay j) := by
  refine hs.aside rfl rfl rfl (fun _ => .inl) fun timer hmem => ?_
  rcases mem_insertTimer hmem with rfl | hmem
  · exact .inr hj
  · exact .inl hmem

theorem Still.dropWindow (hs : Still h₀ h) (c : Nat) : Still h₀ (h.dropWindow c) :=
  hs.aside rfl rfl rfl (fun _ => .inl) fun _ hmem => .inl (List.mem_filter.1 hmem).1

/-! ## Tasks -/

theorem desk_setTask (h : Host) (t : Nat) (task' : Task) :
    (h.setTask t task').desk = h.desk.set t task'.inst := by
  unfold desk Desk.set Host.setTask
  simp only [List.map_set]

theorem Tidy.updateTask (htidy : h.Tidy) {f : Task → Task}
    (hwatchers : ∀ task, h.task? t = some task → ∀ c ∈ (f task).watchers,
      c ∈ task.watchers ∨ h.desk.Plain c) : (h.updateTask t f).Tidy := by
  refine ⟨htidy.told, htidy.timers, ?_, htidy.children⟩
  intro u task' hu c hc
  by_cases hne : t = u
  · subst hne
    cases ht : h.task? t with
    | none =>
      have ht' : h.tasks[t]? = none := ht
      have hnone : (h.tasks.modify t f)[t]? = some task' := hu
      simp [ht'] at hnone
    | some task =>
      obtain rfl := Option.some.inj ((task?_updateTask_self ht f).symm.trans hu)
      exact (hwatchers task ht c hc).elim (htidy.watchers t task ht c) id
  · exact htidy.watchers u task' ((task?_updateTask_ne hne f).symm.trans hu) c hc

/-- The instance of a task moves on. -/
theorem Tidy.setTask (htidy : h.Tidy) (ht : h.task? t = some task) (task' : Task)
    (hwatchers : ∀ c ∈ task'.watchers, c ∈ task.watchers) : (h.setTask t task').Tidy := by
  rw [setTask_eq_updateTask ht fun _ => task']
  refine htidy.updateTask fun other hother c hc => ?_
  rw [Option.some.inj (hother.symm.trans ht)]
  exact .inl (hwatchers c hc)

theorem desk_updateTask {f : Task → Task}
    (hinst : ∀ task, h.task? t = some task → (f task).inst = task.inst) :
    (h.updateTask t f).desk = h.desk := by
  unfold desk
  rw [map_updateTask (g := (·.inst)) hinst]
  rfl

/-- A task becomes another one with the same instance. -/
theorem Still.updateTask (hs : Still h₀ h) {f : Task → Task}
    (hinst : ∀ task, h.task? t = some task → (f task).inst = task.inst)
    (hwatchers : ∀ task, h.task? t = some task → ∀ c ∈ (f task).watchers,
      c ∈ task.watchers ∨ h.desk.Plain c) : Still h₀ (h.updateTask t f) := by
  have hdesk := desk_updateTask hinst
  exact ⟨hdesk ▸ hs.smalls, hs.tidy.updateTask hwatchers, hs.past⟩

theorem Still.setTask (hs : Still h₀ h) {task' : Task} (ht : h.task? t = some task)
    (hinst : task'.inst = task.inst) (hwatchers : ∀ c ∈ task'.watchers, c ∈ task.watchers) :
    Still h₀ (h.setTask t task') := by
  rw [setTask_eq_updateTask ht fun _ => task']
  have hthere : ∀ {other : Task}, h.task? t = some other → other = task :=
    fun hother => Option.some.inj (hother.symm.trans ht)
  refine hs.updateTask (fun other hother => ?_) fun other hother c hc => ?_
  · rw [hthere hother]
    exact hinst
  · rw [hthere hother]
    exact .inl (hwatchers c hc)

/-- The running task changes. -/
theorem Still.running (hs : Still h₀ h) (running : Option Nat) :
    Still h₀ { h with running := running } := hs.aside rfl rfl rfl (fun _ => .inl) fun _ => .inl

theorem Still.setRun (hs : Still h₀ h) (ht : h.task? t = some task) (run : TaskRun) :
    Still h₀ (h.setTask t { task with run := run }) := hs.setTask ht rfl fun _ => id

theorem Still.block (hs : Still h₀ h) (t : Nat) (run : TaskRun) : Still h₀ (h.block t run) := by
  have hset : Still h₀ (h.updateTask t fun task => { task with run := run }) :=
    hs.updateTask (fun _ _ => rfl) fun _ _ _ => .inl
  exact hset.running none

theorem Still.watch (hs : Still h₀ h) (t : Nat) (hc : h.desk.Plain c) : Still h₀ (h.watch t c) := by
  unfold Host.watch
  split
  · exact hs.enqueue fun d hd => Option.some.inj hd ▸ hc
  · refine hs.updateTask (fun _ _ => rfl) fun task _ d hd => ?_
    rcases List.mem_append.1 hd with hd | hd
    · exact .inl hd
    · exact .inr (List.mem_singleton.1 hd ▸ hc)

theorem Still.unwatch (hs : Still h₀ h) (t c : Nat) : Still h₀ (h.unwatch t c) :=
  hs.updateTask (fun _ _ => rfl) fun _ _ _ hd => .inl (List.mem_filter.1 hd).1

theorem Still.cancelTask (hs : Still h₀ h) (t : Nat) : Still h₀ (h.cancelTask t).1 := by
  unfold Host.cancelTask
  split
  · exact hs
  · rename_i task ht
    split
    · exact hs
    · exact hs
    · exact hs.setRun ht _
    · exact hs
    · exact (hs.setRun ht _).enqueue nofun
    · exact (hs.setRun ht _).enqueue nofun

theorem Still.startTask (hs : Still h₀ h) (t : Nat) : Still h₀ (h.startTask t) := by
  unfold Host.startTask
  split
  · split
    · rename_i ht _
      exact (hs.setRun ht _).enqueue nofun
    · exact hs
  · exact hs

theorem Still.wake (hs : Still h₀ h) (t serial : Nat) : Still h₀ (h.wake t serial) := by
  unfold Host.wake
  split
  · split
    · rename_i ht _
      exact (hs.setRun ht _).enqueue nofun
    · exact hs
  · exact hs

theorem Still.tellWatchers (hs : Still h₀ h) {watchers : List Nat}
    (hwatchers : ∀ c ∈ watchers, h.desk.Plain c) :
    Still h₀ (watchers.foldl (fun h c => h.enqueue (.taskEnded c)) h) := by
  induction watchers generalizing h with
  | nil => exact hs
  | cons c watchers ih =>
    refine ih (hs.enqueue fun d hd => ?_) fun d hd => hwatchers d (List.mem_cons_of_mem _ hd)
    exact Option.some.inj hd ▸ hwatchers c List.mem_cons_self

theorem Still.endTask (hs : Still h₀ h) (ht : h.task? t = some task) :
    Still h₀ (h.endTask t task) := by
  have hwatchers := hs.tidy.watchers t task ht
  have hset : Still h₀ (h.setTask t { task with run := .ended, watchers := [] }) :=
    hs.setTask ht rfl fun c hc => by cases hc
  have hplain : ∀ c ∈ task.watchers,
      (h.setTask t { task with run := .ended, watchers := [] }).desk.Plain c := by
    intro c hc
    exact hwatchers c hc
  have hended := hset.running none
  unfold Host.endTask
  simp only
  split
  · have hexit := hended.enqueue (j := .exited t) fun c hc => by cases hc
    exact hexit.tellWatchers hplain
  · exact hended.tellWatchers hplain

/-- A request that is accepted stands at the end of the mailbox. -/
theorem desk_post {r : Request} (hpost : h.post t r = .ok h') : ∃ i j, h.desk.insts[t]? = some i ∧
    i.post r = .ok j ∧ h'.desk = h.desk.set t j ∧ (h.Tidy → h'.Tidy) ∧ h'.past = h.past := by
  unfold Host.post at hpost
  cases ht : h.task? t with
  | none => simp [ht] at hpost
  | some task =>
    simp only [ht] at hpost
    cases hinst : task.inst.post r with
    | error fault => simp [hinst] at hpost
    | ok inst =>
      simp only [hinst] at hpost
      refine ⟨task.inst, inst, inst_of_task ht, hinst, ?_⟩
      have hmoved : ∀ run, (h.setTask t { task with inst := inst, run := run }).desk =
          h.desk.set t inst := fun run => desk_setTask ..
      have htidy : ∀ run, h.Tidy → (h.setTask t { task with inst := inst, run := run }).Tidy :=
        fun run htidy => htidy.setTask ht _ fun _ => id
      split at hpost
      · obtain rfl := Except.ok.inj hpost
        exact ⟨hmoved _,
          fun h => ((Still.refl (htidy _ h)).enqueue (j := .resume t) nofun).tidy, rfl⟩
      · obtain rfl := Except.ok.inj hpost
        exact ⟨hmoved task.run, htidy task.run, rfl⟩

theorem Still.post (hs : Still h₀ h) {r : Request} (hr : r.waiting? = none)
    (hpost : h.post t r = .ok h') : Still h₀ h' := by
  obtain ⟨i, j, hi, hij, hdesk, htidy, hpast⟩ := desk_post hpost
  exact ⟨hs.smalls.tail (hdesk ▸ .post hi hr hij), htidy hs.tidy, hpast.trans hs.past⟩

theorem Still.accepting (hs : Still h₀ h) {result : Except Fault Host}
    (hresult : ∀ h', result = .ok h' → Still h₀ h') : Still h₀ (h.accepting result) := by
  cases result with
  | ok h' => exact hresult h' rfl
  | error fault => exact hs

theorem Still.send (hs : Still h₀ h) {s : Send} (hsend : h.send s = .ok h') : Still h₀ h' := by
  unfold Host.send at hsend
  cases hlookup : h.lookup s.name with
  | error fault => simp [hlookup, bind, Except.bind] at hsend
  | ok t =>
    simp only [hlookup, bind, Except.bind] at hsend
    exact hs.post rfl hsend

/-! ## Calls -/

/-- A call becomes another one that knows the same. -/
theorem desk_setCall {call call' : Call} (hcall : h.calls[c]? = some call)
    (hreply : call'.reply? = call.reply?) : (h.setCall c call').desk = h.desk := by
  unfold desk Host.setCall
  simp only [List.map_set]
  congr 1
  apply List.ext_getElem?
  intro d
  rw [List.getElem?_set]
  split
  · rename_i heq
    subst heq
    rw [List.getElem?_map, hcall, List.length_map, Option.map_some,
      if_pos (List.getElem?_eq_some_iff.1 hcall).1, hreply]
  · rfl

/-- Who asks nobody still asks nobody when somebody else's call changes. -/
theorem plain_setCall {d : Nat} (hd : h.desk.Plain d) {call : Call}
    (hcall : h.calls[c]? = some call)
    (hreply : call.reply? ≠ none) {call' : Call} : (h.setCall c call').desk.Plain d := by
  have hne : c ≠ d := by
    rintro rfl
    exact hreply (Option.some.inj ((reply_of_call hcall).symm.trans hd))
  show ((h.calls.set c call').map Call.reply?)[d]? = some none
  rw [List.map_set, List.getElem?_set_ne hne]
  exact hd

theorem Tidy.setCall (htidy : h.Tidy) {call : Call} (call' : Call) (hcall : h.calls[c]? = some call)
    (hplain : ∀ d, h.desk.Plain d → (h.setCall c call').desk.Plain d)
    (hchildren : ∀ children left, call'.stage = .join children left → ∀ d ∈ children,
      h.desk.Plain d) : (h.setCall c call').Tidy := by
  refine ⟨fun j hj d hd => hplain d (htidy.told j hj d hd),
    fun timer htimer d hd => hplain d (htidy.timers timer htimer d hd),
    fun u task hu d hd => hplain d (htidy.watchers u task hu d hd), ?_⟩
  intro p other hp children left hstage d hd
  have hp' : (h.calls.set c call')[p]? = some other := hp
  by_cases hne : c = p
  · subst hne
    rw [List.getElem?_set_self (List.getElem?_eq_some_iff.1 hcall).1] at hp'
    obtain rfl := Option.some.inj hp'
    exact hplain d (hchildren children left hstage d hd)
  · rw [List.getElem?_set_ne hne] at hp'
    exact hplain d (htidy.children p other hp' children left hstage d hd)

theorem Still.setCall (hs : Still h₀ h) {call call' : Call} (hcall : h.calls[c]? = some call)
    (hreply : call'.reply? = call.reply?)
    (hchildren : ∀ children left, call'.stage = .join children left → ∀ d ∈ children,
      h.desk.Plain d) : Still h₀ (h.setCall c call') := by
  have hdesk := desk_setCall hcall hreply
  exact ⟨hdesk ▸ hs.smalls, hs.tidy.setCall call' hcall (fun d hd => hdesk ▸ hd) hchildren, hs.past⟩

theorem desk_addCall (h : Host) (call : Call) : (h.addCall call).1.desk =
    { h.desk with replies := h.desk.replies ++ [call.reply?] } := by
  unfold desk Host.addCall
  simp only [List.map_append, List.map_cons, List.map_nil]

theorem Tidy.addCall (htidy : h.Tidy) (call : Call)
    (hchildren : ∀ children left, call.stage = .join children left → ∀ d ∈ children,
      h.desk.Plain d) : (h.addCall call).1.Tidy := by
  have hplain : ∀ d, h.desk.Plain d → (h.addCall call).1.desk.Plain d := fun d hd =>
    (h.desk_addCall call) ▸ Desk.plain_concat hd
  refine ⟨?_, ?_, ?_, ?_⟩
  · exact fun j hj d hd => hplain d (htidy.told j hj d hd)
  · exact fun timer htimer d hd => hplain d (htidy.timers timer htimer d hd)
  · exact fun u task hu d hd => hplain d (htidy.watchers u task hu d hd)
  · intro p other hp children left hstage d hd
    rcases concat_get? hp with hold | ⟨-, rfl⟩
    · exact hplain d (htidy.children p other hold children left hstage d hd)
    · exact hplain d (hchildren children left hstage d hd)

theorem Still.addCall (hs : Still h₀ h) (call : Call) (hreply : call.reply? = none)
    (hchildren : ∀ children left, call.stage = .join children left → ∀ d ∈ children,
      h.desk.Plain d) : Still h₀ (h.addCall call).1 := by
  refine ⟨hs.smalls.tail ?_, hs.tidy.addCall call hchildren, hs.past⟩
  rw [desk_addCall, hreply]
  exact .call

theorem plain_addCall {call : Call} (hreply : call.reply? = none) :
    (h.addCall call).1.desk.Plain h.calls.length := by
  show ((h.calls ++ [call]).map Call.reply?)[h.calls.length]? = _
  simp [hreply]

/-! ## Calls that wait -/

theorem Still.leaveStage (hs : Still h₀ h) (c : Nat) (stage : Stage) :
    Still h₀ (h.leaveStage c stage) := by
  cases stage with
  | exit t => exact hs.unwatch t c
  | forced t => exact hs.unwatch t c
  | window t timeout => exact (hs.dropWindow c).unwatch t c
  | reply t result => exact hs
  | closing t timeout => exact hs
  | join children left => exact hs

/-- A call that asks nobody any more, or waits no longer, moves on within its stage. -/
theorem Still.setRunOf (hs : Still h₀ h) {call : Call} (hcall : h.calls[c]? = some call)
    (run : CallRun) (hreply : ({ call with run := run } : Call).reply? = call.reply?) :
    Still h₀ (h.setCall c { call with run := run }) :=
  hs.setCall hcall hreply fun children left hstage =>
    hs.tidy.children c call hcall children left hstage

theorem Still.finishCall (hs : Still h₀ h) {call : Call} (hcall : h.calls[c]? = some call)
    {cancelled : Bool} (hrun : call.run = .queued cancelled) (result : Except Fault CallAnswer) :
    Still h₀ (h.finishCall c call result) := by
  have hset : Still h₀ (h.setCall c { call with run := .done result }) := by
    refine hs.setRunOf hcall _ ?_
    unfold Call.reply?
    rw [hrun]
  unfold Host.finishCall
  simp only
  split
  · rename_i p _
    exact hset.enqueue (j := .joined p _) nofun
  · exact hset

theorem plain_of_stage {call : Call} (hcall : h.calls[c]? = some call)
    (hstage : ∀ t result, call.stage ≠ .reply t result) : h.desk.Plain c := by
  have hreply := reply_of_call hcall
  unfold Call.reply? at hreply
  revert hstage hreply
  cases call.stage with
  | reply t result => exact fun hstage => absurd rfl (hstage t result)
  | _ => exact fun _ => id

theorem reply_of_plain {call : Call} (hcall : h.calls[c]? = some call) (hplain : h.desk.Plain c) :
    call.reply? = none :=
  Option.some.inj ((reply_of_call hcall).symm.trans hplain)

/-- What asks nobody asks nobody in its next stage. -/
theorem Still.nextStage (hs : Still h₀ h) {call : Call} (hcall : h.calls[c]? = some call)
    (hplain : h.desk.Plain c) (stage : Stage) (hstage : ∀ t result, stage ≠ .reply t result)
    (hchildren : ∀ children left, stage = .join children left → ∀ d ∈ children, h.desk.Plain d)
    (run : CallRun) : Still h₀ (h.setCall c { call with stage := stage, run := run }) := by
  refine hs.setCall hcall ?_ hchildren
  rw [reply_of_plain hcall hplain]
  unfold Call.reply?
  cases stage with
  | reply t result => exact absurd rfl (hstage t result)
  | _ => rfl

theorem plain_of_still (hs : Still h₀ h) (hplain : h₀.desk.Plain c) : h.desk.Plain c :=
  Desk.plain_smalls hplain hs.smalls

theorem Still.openWindow (hs : Still h₀ h) {call : Call} (hcall : h.calls[c]? = some call)
    (hplain : h₀.desk.Plain c) (t : Nat) (timeout : Number) :
    Still h₀ (h.openWindow c call t timeout) := by
  have hset := hs.nextStage hcall (plain_of_still hs hplain) (.window t timeout) nofun nofun
    (.waiting false)
  have htold : ∀ {g : Host}, Still h₀ g → ∀ d, (Job.close c).told? = some d → g.desk.Plain d :=
    fun hg d hd => Option.some.inj hd ▸ plain_of_still hg hplain
  have htimer := hset.setTimer timeout (htold hset)
  exact htimer.watch t (plain_of_still htimer hplain)

theorem Still.proceed (hs : Still h₀ h) (c : Nat) (hsame : h₀.desk = h.desk) :
    Still h₀ (h.proceed c) := by
  unfold Host.proceed
  split
  · exact hs
  · rename_i call hcall
    have hleft := hs.leaveStage c call.stage
    have hcall' : (h.leaveStage c call.stage).calls[c]? = some call := by
      rw [calls_leaveStage]
      exact hcall
    have hplain : ∀ {stage : Stage}, call.stage = stage → (∀ t result, stage ≠ .reply t result) →
        h₀.desk.Plain c := fun hstage hother =>
      hsame ▸ plain_of_stage hcall (hstage ▸ hother)
    split
    · exact hs
    · exact hs
    · rename_i hrun
      exact hleft.finishCall hcall' hrun _
    · rename_i hrun
      split
      · exact hs.finishCall hcall hrun _
      · exact hs.finishCall hcall hrun _
      · rename_i t timeout hstage
        exact hs.openWindow hcall (hplain hstage nofun) t timeout
      · rename_i t timeout hstage
        simp only
        split
        · exact hleft.finishCall hcall' hrun _
        · have hforced := (hleft.note .warning
            ((((h.leaveStage c call.stage).task? t).map (·.inst.name)).getD .null)
            (" did not stop within " ++ timeout.textToTenth ++ "s, cancelling")).cancelTask t
          have hplain := hplain hstage nofun
          have hset := hforced.nextStage (by rw [calls_cancelTask]; exact hcall')
            (plain_of_still hforced hplain) (.forced t) nofun nofun
            (.waiting false)
          exact hset.watch t (plain_of_still hset hplain)
      · exact hs.finishCall hcall hrun _
      · exact hs.finishCall hcall hrun _

theorem Still.release (hs : Still h₀ h) (hplain : h.desk.Plain c) : Still h₀ (h.release c) := by
  unfold Host.release
  split
  · rename_i call hcall
    split
    · rename_i cancelled _
      have hset : Still h₀ (h.setCall c { call with run := .queued cancelled }) := by
        refine hs.setRunOf hcall _ ?_
        have hreply := reply_of_plain hcall hplain
        rw [hreply]
        unfold Call.reply? at hreply ⊢
        revert hreply
        cases call.stage with
        | reply t result => nofun
        | _ => exact id
      exact hset.enqueue (j := .proceed c) nofun
    · exact hs
  · exact hs

theorem Still.joined (hs : Still h₀ h) (p : Nat) (cancelled : Bool) :
    Still h₀ (h.joined p cancelled) := by
  unfold Host.joined
  split
  · rename_i call hcall
    split
    · rename_i children left requested hstage _
      have hplain : h.desk.Plain p := plain_of_stage hcall (by rw [hstage]; nofun)
      have hset := hs.nextStage hcall hplain (.join children (left - 1)) nofun
        (fun others rest hsame d hd => by
          obtain ⟨rfl, -⟩ := Stage.join.inj hsame
          exact hs.tidy.children p call hcall _ left hstage d hd)
        (.waiting (requested || cancelled))
      have hdesk : (h.setCall p { call with
          stage := .join children (left - 1), run := .waiting (requested || cancelled) }).desk =
          h.desk := by
        refine desk_setCall hcall ?_
        rw [reply_of_plain hcall hplain]
        rfl
      simp only
      split
      · exact hset.release (hdesk ▸ hplain)
      · exact hset
    · exact hs
  · exact hs

/-! ## Supervision -/

theorem Still.addTask (hs : Still h₀ h) (task : Task) (halive : task.inst.alive = true)
    (hmailbox : task.inst.mailbox = []) (hwatchers : task.watchers = []) :
    Still h₀ (h.addTask task).1 := by
  have hdesk : (h.addTask task).1.desk = { h.desk with insts := h.desk.insts ++ [task.inst] } := by
    unfold desk Host.addTask
    simp only [List.map_append, List.map_cons, List.map_nil]
  refine ⟨hs.smalls.tail (hdesk ▸ .create halive hmailbox), ⟨?_, ?_, ?_, ?_⟩, hs.past⟩
  · rw [hdesk]
    exact hs.tidy.told
  · rw [hdesk]
    exact hs.tidy.timers
  · rw [hdesk]
    intro u other hu c hc
    rcases concat_get? hu with hold | ⟨-, rfl⟩
    · exact hs.tidy.watchers u other hold c hc
    · rw [hwatchers] at hc
      cases hc
  · rw [hdesk]
    exact hs.tidy.children

theorem Still.spawn (hs : Still h₀ h) (machine : Machine) (name payload : Value)
    (number : Option Nat) : Still h₀ (h.spawn machine name payload number).1 := by
  have hadded := hs.addTask {
    inst := .create machine name payload
    number := number
    supervised := true
    outlet := .shared
    run := .queued false } rfl rfl rfl
  have hheld : Still h₀ { (h.addTask _).1 with holders := setName h.holders name h.tasks.length } :=
    hadded.aside rfl rfl rfl (fun _ => .inl) fun _ => .inl
  exact hheld.enqueue (j := .resume h.tasks.length) nofun

theorem Still.afterCrash (hs : Still h₀ h) (task : Task) (fault : Fault) :
    Still h₀ (h.afterCrash task fault) := by
  have hrecount : ∀ {g : Host} (restarts : List (Value × List Rat)), Still h₀ g →
      Still h₀ { g with restarts := restarts } := fun _ hg =>
    hg.aside rfl rfl rfl (fun _ => .inl) fun _ => .inl
  unfold Host.afterCrash
  split
  · exact hs.note _ _ _
  · simp only
    split
    · exact hs
    · split
      · exact hrecount _ (hs.note _ _ _)
      · exact (((hrecount _ hs).note _ _ _).spawn _ _ _ _).enqueue (j := .announce _ _ _) nofun

theorem Still.exited (hs : Still h₀ h) (t : Nat) : Still h₀ (h.exited t) := by
  unfold Host.exited
  split
  · exact hs
  · rename_i task _
    have hvacated : Still h₀ (if lookupName h.holders task.inst.name = some t then
        { h with holders := eraseName h.holders task.inst.name } else h) := by
      split
      · exact hs.aside rfl rfl rfl (fun _ => .inl) fun _ => .inl
      · exact hs
    simp only
    split
    · exact hvacated.afterCrash _ _
    · exact hvacated

/-! ## Calling -/

theorem Still.nextNumber (hs : Still h₀ h) : Still h₀ h.nextNumber.1 :=
  hs.aside rfl rfl rfl (fun _ => .inl) fun _ => .inl

theorem Still.create (hs : Still h₀ h) (choice : MachineChoice) (name payload : Value)
    (outlet : Outlet) : Still h₀ (h.create choice name payload outlet).1 := by
  unfold Host.create
  split
  · exact hs
  · exact hs
  · exact hs.nextNumber.addTask _ rfl rfl rfl

theorem Still.start (hs : Still h₀ h) (choice : MachineChoice) (name payload : Value) :
    Still h₀ (h.start choice name payload).1 := by
  have hfresh : Still h₀ { h with restarts := setName h.restarts name [] } :=
    hs.aside rfl rfl rfl (fun _ => .inl) fun _ => .inl
  unfold Host.start
  split
  · exact hs
  · split
    · exact hs
    · simp only
      split
      · exact hs
      · split
        · exact hfresh
        · exact hfresh.nextNumber.spawn _ _ _ _

theorem Still.waitTask (hs : Still h₀ h) (t : Nat) : Still h₀ (h.waitTask t).1 :=
  (hs.addCall ⟨none, .exit t, .waiting false⟩ rfl nofun).watch t (plain_addCall rfl)

theorem Still.wait (hs : Still h₀ h) (name : Value) : Still h₀ (h.wait name).1 := by
  unfold Host.wait
  split
  · exact hs
  · split
    · exact hs
    · exact hs.waitTask _

theorem Still.stop (hs : Still h₀ h) (name : Value) (timeout : Option Number) :
    Still h₀ (h.stop name timeout).1 := by
  unfold Host.stop
  split
  · exact hs
  · rename_i t _
    split
    · exact hs
    · rename_i h' hpost
      have hposted := hs.post rfl hpost
      have hadded := hposted.addCall ⟨none, .closing t
        (timeout.getD h'.settings.shutdownTimeout), .waiting false⟩ rfl nofun
      exact hadded.trans ((Still.refl hadded.tidy).openWindow (h'.call_addCall _)
        (plain_addCall rfl) t _)

theorem Still.addGuards (hs : Still h₀ h) (parent : Nat) (timeout : Number) (tasks : List Nat) :
    Still h₀ (h.addGuards parent timeout tasks).1 ∧
      ∀ c ∈ (h.addGuards parent timeout tasks).2,
        (h.addGuards parent timeout tasks).1.desk.Plain c := by
  induction tasks generalizing h₀ h with
  | nil => exact ⟨hs, nofun⟩
  | cons t rest ih =>
    have hadded := (hs.addCall ⟨some parent, .closing t timeout, .queued false⟩ rfl
      nofun).enqueue (j := .proceed h.calls.length) nofun
    obtain ⟨hrest, hplain⟩ := ih (Still.refl hadded.tidy)
    refine ⟨hadded.trans hrest, fun c hc => ?_⟩
    rcases List.mem_cons.1 hc with rfl | hc
    · exact plain_of_still hrest (plain_addCall (h := h) rfl)
    · exact hplain c hc

theorem call_addGuards {call : Call} (hcall : h.calls[c]? = some call) (parent : Nat)
    (timeout : Number) (tasks : List Nat) :
    (h.addGuards parent timeout tasks).1.calls[c]? = some call := by
  induction tasks generalizing h with
  | nil => exact hcall
  | cons t rest ih =>
    refine ih ?_
    exact (List.getElem?_append_left (List.getElem?_eq_some_iff.1 hcall).1).trans hcall

theorem updateCall_eq_setCall {call : Call} (hcall : h.calls[c]? = some call) (f : Call → Call) :
    h.updateCall c f = h.setCall c (f call) := by
  unfold Host.updateCall Host.setCall
  rw [List.modify_eq_set_getElem?, hcall]
  rfl

/-- A call waits for the ends of other calls. -/
theorem Still.joinOn (hs : Still h₀ h) {call : Call} (hcall : h.calls[c]? = some call)
    (hplain : h.desk.Plain c) {children : List Nat} (hchildren : ∀ d ∈ children, h.desk.Plain d)
    (left : Nat) :
    Still h₀ (h.updateCall c fun call => { call with stage := .join children left }) := by
  rw [updateCall_eq_setCall hcall]
  refine hs.nextStage hcall hplain (.join children left) nofun ?_ call.run
  intro others rest hstage d hd
  obtain ⟨rfl, -⟩ := Stage.join.inj hstage
  exact hchildren d hd

theorem Still.shutdown (hs : Still h₀ h) (timeout : Option Number) :
    Still h₀ (h.shutdown timeout).1 := by
  unfold Host.shutdown
  simp only
  split
  · exact hs
  · generalize hposted : List.foldl _ h (h.live.map (·.2)) = g
    have hg : Still h₀ g := by
      rw [← hposted]
      refine List.foldlRecOn _ _ hs fun g hg t _ => ?_
      split
      · rename_i h' hpost
        exact hg.post rfl hpost
      · exact hg
    have hadded := hg.addCall ⟨none, .join [] (h.live.map (·.2)).length, .waiting false⟩
      rfl nofun
    obtain ⟨hguards, hplain⟩ := (Still.refl hadded.tidy).addGuards g.calls.length
      (timeout.getD g.settings.shutdownTimeout) (h.live.map (·.2))
    have hcall := call_addGuards (g.call_addCall ⟨none, .join [] (h.live.map (·.2)).length,
      .waiting false⟩) g.calls.length (timeout.getD g.settings.shutdownTimeout)
      (h.live.map (·.2))
    exact (hadded.trans hguards).joinOn hcall (plain_of_still hguards (plain_addCall rfl)) hplain _

/-! ## Calling off -/

theorem reply_setRun {call : Call} (hreply : call.reply? = none) (run : CallRun) :
    ({ call with run := run } : Call).reply? = none := by
  unfold Call.reply? at hreply ⊢
  revert hreply
  cases call.stage with
  | reply t result => nofun
  | _ => exact id

theorem Still.cancelPlain (hs : Still h₀ h) {call : Call} (hcall : h.calls[c]? = some call)
    (hplain : h.desk.Plain c) : Still h₀ (h.cancelPlain c call).1 := by
  have hreply := reply_of_plain hcall hplain
  have hset : Still h₀ (h.setCall c { call with run := .queued true }) :=
    hs.setRunOf hcall _ ((reply_setRun hreply _).trans hreply.symm)
  obtain ⟨parent, stage, run⟩ := call
  cases run with
  | done result => exact hs
  | queued cancelled => exact hset
  | waiting cancelled =>
    have hqueued := hset.enqueue (j := .proceed c) nofun
    cases stage with
    | reply t result => cases hreply
    | exit t => exact hqueued
    | closing t timeout => exact hqueued
    | window t timeout => exact hqueued
    | forced t => exact hqueued
    | join children left => exact hqueued

theorem call_of_plain (hplain : h.desk.Plain c) :
    ∃ call, h.calls[c]? = some call ∧ call.reply? = none := by
  have hplain : (h.calls.map Call.reply?)[c]? = some none := hplain
  rw [List.getElem?_map] at hplain
  exact Option.map_eq_some_iff.1 hplain

theorem Still.updateRun (hs : Still h₀ h) (hplain : h.desk.Plain c) (run : CallRun) :
    Still h₀ (h.updateCall c fun call => { call with run := run }) := by
  obtain ⟨call, hcall, hreply⟩ := call_of_plain hplain
  rw [updateCall_eq_setCall hcall]
  exact hs.setRunOf hcall _ ((reply_setRun hreply run).trans hreply.symm)

end Host
end Turnstile
