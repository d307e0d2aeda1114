-- What stays with a name: the shares of all other names are as they were, and its supervisor of one
-- name does the same. So it is with all that a body may do to its host: it changes its task, gives
-- answers, sends to its own name, waits and publishes.
import Turnstile.Proofs.Supervisor.Names
import Turnstile.Proofs.Supervisor.Instances
import Turnstile.Proofs.Supervisor.Solo
import Turnstile.Proofs.Supervisor.Served
import Turnstile.Proofs.Supervisor.Holders

namespace Turnstile

/-! ## Names -/

namespace Value

variable {a b n p : Value}

theorem isKey_of_same (hsame : a.same b = true) (hb : b.isKey = true) : a.isKey = true := by
  cases a <;> cases b <;> simp_all [same, isKey]

/-- Equal names are the same to everybody. -/
theorem same_congr (hn : n.IsName) (hnb : n.same b = true) (p : Value) : p.same n = p.same b := by
  have hb := same_isKey hnb hn.isKey
  rw [Bool.eq_iff_iff]
  constructor
  · intro hpn
    exact same_trans (isKey_of_same hpn hn.isKey) hpn hnb
  · intro hpb
    exact same_trans (isKey_of_same hpb hb) hpb (same_symm hn.isKey hnb)

/-- What goes by one name does not go by another. -/
theorem other_of_same (hb : b.isKey = true) (hba : b.same a = false) (hpb : p.same b = true) :
    p.same a = false := by
  have hp := isKey_of_same hpb hb
  by_contra hpa
  have hsame := same_trans hb (same_symm hp hpb) (by simpa using hpa)
  rw [hba] at hsame
  cases hsame

end Value

/-! ## Hooks that keep to themselves -/

/-- A hook that sends to its own name only, and goes by the calls of its own name only. -/
structure Hook.Homely {Call α : Type} (k : Hook Call α) (name : Value) : Prop where
  sends : ∀ past call, ∀ s ∈ (k.react past call).sends, s.name.same name = true
  past : ∀ past call,
    k.react past call = k.react (past.filter fun (other, _) => other.same name) call

/-- The hooks of a machine keep to themselves under a name. -/
structure BoundHooks.Homely (hooks : BoundHooks) (name : Value) : Prop where
  onTransition : hooks.onTransition.Homely name
  onFailure : hooks.onFailure.Homely name
  onTerminate : hooks.onTerminate.Homely name

namespace Host

variable {h h' h'' g : Host} {t u c : Nat} {task task' : Task} {a b name : Value} {s : Solo}

theorem exists_of_isOf (hof : h.isOf b t = true) :
    ∃ task, h.task? t = some task ∧ task.isOf b = true := by
  unfold isOf at hof
  cases ht : h.task? t with
  | none => simp [ht] at hof
  | some task => exact ⟨task, rfl, by simpa [ht] using hof⟩

theorem isOf_of_task (ht : h.task? t = some task) (hof : task.isOf b = true) :
    h.isOf b t = true := by simp [isOf, ht, hof]

/-! ## What no slice changes -/

/-- No task or question comes, and those that there are stay what they are. -/
structure Slice (h h' : Host) : Prop where
  world : h'.world = h.world
  tasks : h'.tasks.map (fun task => (task.inst.name, task.inst.machine)) =
    h.tasks.map fun task => (task.inst.name, task.inst.machine)
  holders : h'.holders = h.holders
  restarts : h'.restarts = h.restarts
  calls : h'.calls.map (fun call => call.asked?.map (·.1)) =
    h.calls.map fun call => call.asked?.map (·.1)

/-- The hooks of all tasks of a name keep to themselves. -/
def Homely (h : Host) (b : Value) : Prop :=
  ∀ t task, h.task? t = some task → task.isOf b = true → task.inst.machine.hooks.Homely b

/-- The restarts are counted under keys. -/
def Counted (h : Host) : Prop := ∀ p ∈ h.restarts, p.1.isKey = true

/-- The holders of names are there, and go by the names that they hold. -/
structure Tied (h : Host) : Prop where
  keys : ∀ p ∈ h.holders, p.1.isKey = true
  held : ∀ p ∈ h.holders, ∃ task, h.task? p.2 = some task ∧
    (p.1 = task.inst.name ∨ p.1.same task.inst.name = true)

theorem Slice.refl (h : Host) : Slice h h := ⟨rfl, rfl, rfl, rfl, rfl⟩

theorem Slice.trans (hs : Slice h h') (hs' : Slice h' h'') : Slice h h'' where
  world := hs'.world.trans hs.world
  tasks := hs'.tasks.trans hs.tasks
  holders := hs'.holders.trans hs.holders
  restarts := hs'.restarts.trans hs.restarts
  calls := hs'.calls.trans hs.calls

theorem Slice.still (hs : Slice h h') (ht : h.task? t = some task) : ∃ task', h'.task? t = some task' ∧
    task'.inst.name = task.inst.name ∧ task'.inst.machine = task.inst.machine := by
  have hsame := congrArg (·[t]?) hs.tasks
  have ht' : h.tasks[t]? = some task := ht
  simp only [List.getElem?_map, ht', Option.map_some, Option.map_eq_some_iff, Prod.mk.injEq] at hsame
  exact hsame

theorem Slice.isOf (hs : Slice h h') (name : Value) (t : Nat) : h'.isOf name t = h.isOf name t := by
  have hany : ∀ g : Host, g.isOf name t =
      ((g.tasks.map fun task => (task.inst.name, task.inst.machine))[t]?).any
        fun p => p.1.same name := by
    intro g
    unfold Host.isOf Host.task?
    rw [List.getElem?_map]
    cases g.tasks[t]? <;> rfl
  rw [hany, hany, hs.tasks]

theorem Slice.place (hs : Slice h h') (name : Value) (t : Nat) :
    h'.place name t = h.place name t := by
  have hmarks := congrArg (List.map fun p => p.1.same name) hs.tasks
  simp only [List.map_map] at hmarks
  exact rank_of_marks hmarks t

theorem asks_eq (h : Host) (name : Value) (call : Call) :
    h.asks name call = (call.asked?.map (·.1)).any (h.isOf name) := by
  unfold asks
  cases call.asked? <;> rfl

theorem Slice.asks (hs : Slice h h') (name : Value) (call : Call) :
    h'.asks name call = h.asks name call := by
  rw [asks_eq, asks_eq, funext (hs.isOf name)]

theorem Slice.turn (hs : Slice h h') (name : Value) (c : Nat) : h'.turn name c = h.turn name c := by
  have hmarks := congrArg (List.map fun asked => asked.any (h.isOf name)) hs.calls
  simp only [List.map_map] at hmarks
  apply rank_of_marks
  rw [List.map_congr_left fun call _ => h'.asks_eq name call,
    List.map_congr_left fun call _ => h.asks_eq name call, funext (hs.isOf name)]
  exact hmarks

/-- A call that asks a name goes on asking it. -/
theorem Slice.call (hs : Slice h h') {call : Call} (hcall : h.calls[c]? = some call)
    (hasks : h.asks name call = true) :
    ∃ call', h'.calls[c]? = some call' ∧ h'.asks name call' = true := by
  have hsame := congrArg (·[c]?) hs.calls
  simp only [List.getElem?_map, hcall, Option.map_some, Option.map_eq_some_iff] at hsame
  obtain ⟨call', hcall', hasked⟩ := hsame
  refine ⟨call', hcall', ?_⟩
  rw [hs.asks, asks_eq, hasked, ← asks_eq]
  exact hasks

/-- Whoever is stored under a name goes by it. -/
theorem Tied.isOf (htied : h.Tied) (hheld : lookupName h.holders b = some t) :
    h.isOf b t = true := by
  obtain ⟨key, hmem, hsame⟩ := mem_of_lookupName hheld
  obtain ⟨task, ht, hwhose⟩ := htied.held _ hmem
  have hkey := htied.keys _ hmem
  have hof : task.isOf b = true := by
    rcases hwhose with rfl | hwhose
    · exact hsame
    · exact Value.same_trans (Value.same_isKey hwhose hkey) (Value.same_symm hkey hwhose) hsame
  exact isOf_of_task ht hof

theorem Tied.slice (htied : h.Tied) (hs : Slice h h') : h'.Tied := by
  refine ⟨hs.holders ▸ htied.keys, fun p hp => ?_⟩
  rw [hs.holders] at hp
  obtain ⟨task, ht, hname⟩ := htied.held p hp
  obtain ⟨task', ht', hsame, -⟩ := hs.still ht
  exact ⟨task', ht', hsame ▸ hname⟩

theorem Homely.slice (hhome : h.Homely b) (hs : Slice h h') : h'.Homely b := by
  intro t task' ht' hof'
  have hof : h.isOf b t = true := by
    rw [← hs.isOf]
    exact isOf_of_task ht' hof'
  obtain ⟨task, ht, hof⟩ := exists_of_isOf hof
  obtain ⟨task'', ht'', -, hmachine⟩ := hs.still ht
  obtain rfl := Option.some.inj (ht'.symm.trans ht'')
  rw [hmachine]
  exact hhome t task ht hof

/-! ## What stays with a name -/

/-- Something happens to a name: the shares of all other names are as they were, and the supervisor of
the name alone comes to a given state. -/
structure Goes (b : Value) (h h' : Host) (s : Solo) : Prop where
  world : h'.world = h.world
  shares : ∀ a : Value, a.IsName → b.same a = false → h'.share a = h.share a
  solo : h'.solo b = s
  tied : h.Tied → h'.Tied
  counted : h.Counted → h'.Counted
  homely : h.Homely b → h'.Homely b

/-- A slice of a task of a name. -/
structure Plays (b : Value) (h h' : Host) (s : Solo) : Prop extends Goes b h h' s where
  slice : Slice h h'

theorem Slice.plays (hs : Slice h h')
    (hshares : ∀ a : Value, a.IsName → b.same a = false → h'.share a = h.share a)
    (hsolo : h'.solo b = s) : Plays b h h' s where
  world := hs.world
  shares := hshares
  solo := hsolo
  tied htied := htied.slice hs
  counted hcounted p hp := hcounted p (hs.restarts ▸ hp)
  homely hhome := hhome.slice hs
  slice := hs

theorem Plays.refl (b : Value) (h : Host) : Plays b h h (h.solo b) :=
  (Slice.refl h).plays (fun _ _ _ => rfl) rfl

theorem Goes.refl (b : Value) (h : Host) : Goes b h h (h.solo b) := (Plays.refl b h).toGoes

theorem Goes.trans {s' : Solo} (hg : Goes b h h' s) (hg' : Goes b h' h'' s') : Goes b h h'' s' where
  world := hg'.world.trans hg.world
  shares a ha hba := (hg'.shares a ha hba).trans (hg.shares a ha hba)
  solo := hg'.solo
  tied htied := hg'.tied (hg.tied htied)
  counted hcounted := hg'.counted (hg.counted hcounted)
  homely hhome := hg'.homely (hg.homely hhome)

theorem Plays.trans {s' : Solo} (hp : Plays b h h' s) (hp' : Plays b h' h'' s') :
    Plays b h h'' s' := ⟨hp.toGoes.trans hp'.toGoes, hp.slice.trans hp'.slice⟩

/-- The queues, the timers, the log and the numbers are nobody's. -/
theorem plays_aside (b : Value) (hworld : h'.world = h.world) (htasks : h'.tasks = h.tasks)
    (hholders : h'.holders = h.holders) (hrestarts : h'.restarts = h.restarts)
    (hcalls : h'.calls = h.calls) (hpast : h'.past = h.past) : Plays b h h' (h.solo b) := by
  have hshare : ∀ a, h'.share a = h.share a := by
    intro a
    unfold share asks isOf Host.task?
    rw [htasks, hholders, hrestarts, hcalls, hpast]
  have hsolo : h'.solo b = h.solo b := by
    unfold solo place turn asks isOf Host.task?
    rw [hworld, htasks, hholders, hrestarts, hcalls, hpast]
  have hslice : Slice h h' := ⟨hworld, by rw [htasks], hholders, hrestarts, by rw [hcalls]⟩
  exact hslice.plays (fun a _ _ => hshare a) hsolo

theorem Plays.aside (hp : Plays b h h' s) (hworld : h''.world = h'.world)
    (htasks : h''.tasks = h'.tasks) (hholders : h''.holders = h'.holders)
    (hrestarts : h''.restarts = h'.restarts) (hcalls : h''.calls = h'.calls)
    (hpast : h''.past = h'.past) : Plays b h h'' s := by
  have haside := plays_aside b hworld htasks hholders hrestarts hcalls hpast
  rw [hp.solo] at haside
  exact hp.trans haside

theorem Goes.aside (hg : Goes b h h' s) (hworld : h''.world = h'.world)
    (htasks : h''.tasks = h'.tasks) (hholders : h''.holders = h'.holders)
    (hrestarts : h''.restarts = h'.restarts) (hcalls : h''.calls = h'.calls)
    (hpast : h''.past = h'.past) : Goes b h h'' s := by
  have haside := plays_aside b hworld htasks hholders hrestarts hcalls hpast
  rw [hg.solo] at haside
  exact hg.trans haside.toGoes

theorem solo_task (ht : h.task? t = some task) (hof : task.isOf b = true) :
    (h.solo b).tasks[h.place b t]? = some (task.plain (h.turn b)) := by
  have hrank := filter_rank (p := Task.isOf b) ht hof
  unfold solo
  rw [List.getElem?_map]
  exact congrArg (Option.map (Task.plain (h.turn b))) hrank

/-- A task of a name becomes another one. -/
theorem plays_setTask (hb : b.IsName) (ht : h.task? t = some task) (hof : task.isOf b = true)
    (task' : Task) (hname : task'.inst.name = task.inst.name)
    (hmachine : task'.inst.machine = task.inst.machine) :
    Plays b h (h.setTask t task') ((h.solo b).setTask (h.place b t) (task'.plain (h.turn b))) := by
  have hslice : Slice h (h.setTask t task') := by
    refine ⟨rfl, ?_, rfl, rfl, rfl⟩
    rw [setTask_eq_updateTask ht fun _ => task']
    refine map_updateTask fun other hother => ?_
    obtain rfl := Option.some.inj (hother.symm.trans ht)
    rw [hname, hmachine]
  refine hslice.plays (fun a ha hba => ?_) ?_
  · have hasks : (h.setTask t task').asks a = h.asks a := funext (hslice.asks a)
    have hother : ∀ n : Value, n = task.inst.name → n.same a = false := by
      rintro n rfl
      exact Value.other_of_same hb.isKey hba hof
    unfold share
    rw [hasks]
    congr 1
    funext u
    by_cases hu : t = u
    · subst hu
      have hnew : task'.isOf a = false := hother _ hname
      have hold : task.isOf a = false := hother _ rfl
      rw [task?_setTask_self ht, ht]
      simp [Option.filter, hnew, hold]
    · rw [task?_setTask_ne hu]
  · have hof' : task'.isOf b = true := by
      unfold Task.isOf
      rw [hname]
      exact hof
    have hplace := funext (hslice.place b)
    have hturn := funext (hslice.turn b)
    have hasks : (h.setTask t task').asks b = h.asks b := funext (hslice.asks b)
    have hset : (h.tasks.set t task').filter (Task.isOf b) =
        (h.tasks.filter (Task.isOf b)).set (h.place b t) task' := filter_set ht hof hof'
    unfold solo Solo.setTask
    rw [hplace, hturn, hasks]
    simp only [Host.setTask, hset, List.map_set]
    rfl

theorem plays_updateTask (hb : b.IsName) (ht : h.task? t = some task) (hof : task.isOf b = true)
    (f k : Task → Task) (hname : (f task).inst.name = task.inst.name)
    (hmachine : (f task).inst.machine = task.inst.machine)
    (hplain : (f task).plain (h.turn b) = k (task.plain (h.turn b))) :
    Plays b h (h.updateTask t f) ((h.solo b).updateTask (h.place b t) k) := by
  have hset := plays_setTask hb ht hof (f task) hname hmachine
  have hsolo : (h.solo b).updateTask (h.place b t) k =
      (h.solo b).setTask (h.place b t) ((f task).plain (h.turn b)) := by
    have hthere := solo_task ht hof
    unfold Solo.updateTask Solo.setTask
    congr 1
    apply List.ext_getElem?
    intro i
    rw [List.getElem?_modify, List.getElem?_set]
    by_cases hi : h.place b t = i
    · subst hi
      obtain ⟨hlt, hget⟩ := List.getElem?_eq_some_iff.1 hthere
      simp [hlt, hget, hplain]
    · simp [hi]
  rw [← setTask_eq_updateTask ht f, hsolo]
  exact hset

/-! ## Answers -/

theorem asked_of_asks {call : Call} (hasks : h.asks b call = true) :
    ∃ t result, call.asked? = some (t, result) ∧ h.isOf b t = true := by
  unfold asks at hasks
  cases hasked : call.asked? with
  | none => simp [hasked] at hasks
  | some p => exact ⟨p.1, p.2, rfl, by simpa [hasked] using hasks⟩

theorem isOf_other (hb : b.IsName) (hba : b.same a = false) (hof : h.isOf b t = true) :
    h.isOf a t = false := by
  unfold isOf at hof ⊢
  cases ht : h.task? t with
  | none => rfl
  | some task =>
    rw [ht] at hof
    exact Value.other_of_same hb.isKey hba hof

theorem solo_reply {call : Call} {result : Option (Except Fault Answer)}
    (hcall : h.calls[c]? = some call) (hof : h.isOf b t = true)
    (hasked : call.asked? = some (t, result)) :
    (h.solo b).replies[h.turn b c]? = some result := by
  have hasks : h.asks b call = true := by simp [asks, hasked, hof]
  have hrank := filter_rank (p := h.asks b) hcall hasks
  unfold solo
  rw [List.getElem?_map]
  unfold turn
  rw [hrank]
  simp [hasked]

theorem resolve_pending {parent : Option Nat} {cancelled : Bool}
    (hcall : h.calls[c]? = some ⟨parent, .reply t none, .waiting cancelled⟩)
    (result : Except Fault Answer) : h.resolve c result =
      (h.setCall c ⟨parent, .reply t (some result), .queued cancelled⟩).enqueue (.proceed c) := by
  unfold Host.resolve
  rw [hcall]

theorem plays_answer (hb : b.IsName) {call : Call} {old new : Option (Except Fault Answer)}
    (hcall : h.calls[c]? = some call) (hasked : call.asked? = some (t, old))
    (hof : h.isOf b t = true) (call' : Call) (hasked' : call'.asked? = some (t, new)) :
    Plays b h (h.setCall c call')
      { h.solo b with replies := (h.solo b).replies.set (h.turn b c) new } := by
  have hslice : Slice h (h.setCall c call') := by
    refine ⟨rfl, rfl, rfl, rfl, ?_⟩
    unfold Host.setCall
    rw [List.map_set, hasked']
    apply List.ext_getElem?
    intro d
    rw [List.getElem?_set]
    by_cases hd : c = d
    · subst hd
      obtain ⟨hlt, hget⟩ := List.getElem?_eq_some_iff.1 hcall
      simp [hlt, hget, hasked]
    · simp [hd]
  refine hslice.plays (fun a ha hba => ?_) ?_
  · have hasks : (h.setCall c call').asks a = h.asks a := funext (hslice.asks a)
    have hother := isOf_other hb hba hof
    unfold share
    rw [hasks]
    congr 1
    funext d
    unfold Host.setCall
    rw [List.getElem?_set]
    by_cases hd : c = d
    · subst hd
      obtain ⟨hlt, hget⟩ := List.getElem?_eq_some_iff.1 hcall
      simp [hlt, hget, Option.filter, asks, hasked, hasked', hother]
    · simp [hd]
  · have hplace := funext (hslice.place b)
    have hturn := funext (hslice.turn b)
    have hasks : (h.setCall c call').asks b = h.asks b := funext (hslice.asks b)
    have hset : (h.calls.set c call').filter (h.asks b) =
        (h.calls.filter (h.asks b)).set (h.turn b c) call' :=
      filter_set hcall (by simp [asks, hasked, hof]) (by simp [asks, hasked', hof])
    unfold solo
    rw [hplace, hturn, hasks]
    simp only [Host.setCall, hset, List.map_set, hasked']
    rfl

/-- A question is answered, if it still waits for an answer. -/
theorem plays_resolve (hb : b.IsName) {call : Call} (hcall : h.calls[c]? = some call)
    (hasks : h.asks b call = true) (result : Except Fault Answer) :
    Plays b h (h.resolve c result) ((h.solo b).resolve (h.turn b c) result) := by
  obtain ⟨t, old, hasked, hof⟩ := asked_of_asks hasks
  have hreply := solo_reply hcall hof hasked
  obtain ⟨parent, stage, run⟩ := call
  cases old with
  | some answer =>
    -- the answer is there, and stays
    have hsolo : (h.solo b).resolve (h.turn b c) result = h.solo b := by
      unfold Solo.resolve
      rw [hreply]
    have hhost : h.resolve c result = h := by
      unfold Host.resolve
      rw [hcall]
      cases stage with
      | reply u answer' =>
        cases answer' with
        | none => cases run <;> simp [Call.asked?] at hasked
        | some answer' => rfl
      | _ => rfl
    rw [hsolo, hhost]
    exact .refl b h
  | none =>
    have hsolo : (h.solo b).resolve (h.turn b c) result =
        { h.solo b with replies := (h.solo b).replies.set (h.turn b c) (some result) } := by
      unfold Solo.resolve
      rw [hreply]
    cases stage with
    | reply u answer =>
      cases answer with
      | some answer => simp [Call.asked?] at hasked
      | none =>
        cases run with
        | waiting cancelled =>
          obtain rfl : u = t := by simpa [Call.asked?] using hasked
          rw [resolve_pending hcall, hsolo]
          have hanswer := plays_answer hb hcall hasked hof
            ⟨parent, .reply u (some result), .queued cancelled⟩ rfl
          exact hanswer.aside rfl rfl rfl rfl rfl rfl
        | queued cancelled => simp [Call.asked?] at hasked
        | done answer => simp [Call.asked?] at hasked
    | _ => simp [Call.asked?] at hasked

/-! ## Requests -/

/-- A host and a supervisor of one name take a message alike. -/
def Agrees (b : Value) (h : Host) : Except Fault Host → Except Fault Solo → Prop
  | .ok h', .ok s => Plays b h h' s
  | .error fault, .error fault' => fault' = fault
  | _, _ => False

theorem plain_receiving {run : TaskRun} : run.plain = .receiving ↔ run = .receiving := by
  unfold TaskRun.plain
  split
  · simp
  · rfl

theorem agrees_post (hb : b.IsName) (ht : h.task? t = some task) (hof : task.isOf b = true)
    (r : Request) :
    Agrees b h (h.post t r) ((h.solo b).post (h.place b t) (r.renumber (h.turn b))) := by
  have hthere := solo_task ht hof
  have hpost : (task.plain (h.turn b)).inst.post (r.renumber (h.turn b)) =
      (task.inst.post r).map (Instance.renumber (h.turn b)) := task.inst.renumber_post r
  unfold Host.post Solo.post
  simp only [ht, hthere, hpost]
  cases hinst : task.inst.post r with
  | error fault => simp [Except.map, Agrees]
  | ok inst =>
    have hsame : inst.name = task.inst.name ∧ inst.machine = task.inst.machine := by
      unfold Instance.post at hinst
      split at hinst
      · obtain rfl := Except.ok.inj hinst
        exact ⟨rfl, rfl⟩
      · cases hinst
    have hrun : (task.plain (h.turn b)).run = task.run.plain := rfl
    simp only [Except.map, hrun, plain_receiving]
    by_cases hreceiving : task.run = .receiving
    · simp only [hreceiving, if_true]
      have hset := plays_setTask hb ht hof { task with inst := inst, run := .queued false } hsame.1
        hsame.2
      exact hset.aside rfl rfl rfl rfl rfl rfl
    · simp only [hreceiving, if_false]
      exact plays_setTask hb ht hof { task with inst := inst } hsame.1 hsame.2

/-- Whoever holds a name is found alike. -/
theorem lookup_agrees (hb : b.IsName) (htied : h.Tied) (hname : name.same b = true) :
    match h.lookup name with
    | .ok t => (h.solo b).lookup name = .ok (h.place b t) ∧
        ∃ task, h.task? t = some task ∧ task.isOf b = true ∧ task.inst.alive = true
    | .error fault => (h.solo b).lookup name = .error fault := by
  have hkey := Value.isKey_of_same hname hb.isKey
  have hfound := lookupName_congr htied.keys hkey hname
  unfold Host.lookup Solo.lookup holder?
  simp only [hkey, hfound, Bool.not_true, Bool.false_eq_true, if_false]
  cases hheld : lookupName h.holders b with
  | none => simp [solo, hheld]
  | some t =>
    obtain ⟨task, ht, hof⟩ := exists_of_isOf (htied.isOf hheld)
    have hthere := solo_task ht hof
    have hholder : (h.solo b).holder = some (h.place b t) := by simp [solo, hheld]
    simp only [ht, hholder, hthere, Option.bind_eq_bind, Option.bind_some, Option.pure_def,
      Option.map_some]
    have halive : (task.plain (h.turn b)).inst.alive = task.inst.alive := rfl
    rw [halive]
    cases hlive : task.inst.alive with
    | true => simpa using ⟨task, ht, hof, hlive⟩
    | false => simp

theorem agrees_send (hb : b.IsName) (htied : h.Tied) {r : Send} (hname : r.name.same b = true) :
    Agrees b h (h.send r) ((h.solo b).send r) := by
  have hlookup := lookup_agrees hb htied hname
  unfold Host.send Solo.send
  cases hfound : h.lookup r.name with
  | error fault =>
    rw [hfound] at hlookup
    simp only at hlookup
    simp [hlookup, bind, Except.bind, Agrees]
  | ok t =>
    rw [hfound] at hlookup
    obtain ⟨hsolo, task, ht, hof, -⟩ := hlookup
    rw [hsolo]
    exact agrees_post hb ht hof (.transition r.event r.payload)

theorem plays_sendAll (hb : b.IsName) (htied : h.Tied) {sends : List Send}
    (hnames : ∀ r ∈ sends, r.name.same b = true) :
    Plays b h (h.sendAll sends).1 ((h.solo b).sendAll sends).1 ∧
      ((h.solo b).sendAll sends).2 = (h.sendAll sends).2 := by
  induction sends generalizing h with
  | nil => exact ⟨.refl b h, rfl⟩
  | cons r sends ih =>
    have hagrees := agrees_send hb htied (hnames r List.mem_cons_self)
    unfold Host.sendAll Solo.sendAll
    cases hhost : h.send r with
    | error fault =>
      cases hsolo : (h.solo b).send r with
      | error fault' =>
        rw [hhost, hsolo] at hagrees
        obtain rfl : fault' = fault := hagrees
        exact ⟨.refl b h, rfl⟩
      | ok s => simp [hhost, hsolo, Agrees] at hagrees
    | ok h' =>
      cases hsolo : (h.solo b).send r with
      | error fault => simp [hhost, hsolo, Agrees] at hagrees
      | ok s =>
        rw [hhost, hsolo] at hagrees
        have hplays : Plays b h h' s := hagrees
        obtain ⟨hrest, hfault⟩ := ih (htied.slice hplays.slice)
          fun r' hr' => hnames r' (List.mem_cons_of_mem _ hr')
        rw [hplays.solo] at hrest hfault
        exact ⟨hplays.trans hrest, hfault⟩

/-! ## What a body wants done -/

theorem plays_setAnswer (hb : b.IsName) (hof : h.isOf b t = true) (stimulus : Stimulus) :
    Plays b h (h.setAnswer t stimulus) ((h.solo b).setAnswer (h.place b t) stimulus) := by
  obtain ⟨task, ht, hof⟩ := exists_of_isOf hof
  exact plays_updateTask hb ht hof _ _ rfl rfl rfl

theorem plays_block (hb : b.IsName) (hof : h.isOf b t = true) (run : TaskRun) :
    Plays b h (h.block t run) ((h.solo b).block (h.place b t) run.plain) := by
  obtain ⟨task, ht, hof⟩ := exists_of_isOf hof
  have hupdate := plays_updateTask hb ht hof (fun task => { task with run := run })
    (fun task => { task with run := run.plain }) rfl rfl rfl
  exact hupdate.aside rfl rfl rfl rfl rfl rfl

theorem plays_pause (hb : b.IsName) (hof : h.isOf b t = true) (p : Pause) :
    Plays b h (h.pause t p) ((h.solo b).pause (h.place b t) p) := by
  cases p with
  | none => exact .refl b h
  | forever => exact plays_block hb hof (.paused none)
  | seconds time =>
    unfold Host.pause Solo.pause
    simp only
    by_cases hpast : time.leRat 0 = true
    · simp only [hpast, if_true]
      exact (plays_block hb hof (.queued false)).aside rfl rfl rfl rfl rfl rfl
    · simp only [hpast, Bool.false_eq_true, if_false]
      exact (plays_block hb hof (.paused (some h.serials))).aside rfl rfl rfl rfl rfl rfl

theorem Plays.isOf (hp : Plays b h h' s) (hof : h.isOf b t = true) : h'.isOf b t = true := by
  rw [hp.slice.isOf]
  exact hof

/-- A hook that sends to its own name only reacts. -/
theorem plays_react {α : Type} (hb : b.IsName) (htied : h.Tied) (hof : h.isOf b t = true)
    {r : Reaction α} (hnames : ∀ s ∈ r.sends, s.name.same b = true)
    (stimulus : Except Fault α → Stimulus) :
    Plays b h (h.react t r stimulus) ((h.solo b).react (h.place b t) r stimulus) := by
  obtain ⟨events, hlines⟩ := h.lines_eq r.lines
  have hwritten : Plays b h { h with events := events } (h.solo b) :=
    plays_aside b rfl rfl rfl rfl rfl rfl
  have hsent := plays_sendAll hb (htied.slice hwritten.slice) hnames
  rw [hwritten.solo] at hsent
  unfold Host.react Solo.react
  simp only [hlines]
  generalize ({ h with events := events } : Host).sendAll r.sends = sent at hsent
  generalize (h.solo b).sendAll r.sends = sent' at hsent
  obtain ⟨h', fault⟩ := sent
  obtain ⟨s, fault'⟩ := sent'
  obtain ⟨hsends, hfault⟩ := hsent
  obtain rfl : fault' = fault := hfault
  have hplays : Plays b h h' s := hwritten.trans hsends
  have hplace := hplays.slice.place b t
  cases fault' with
  | some fault =>
    have hanswer := plays_setAnswer hb (hplays.isOf hof) (stimulus (.error fault))
    rw [hplays.solo, hplace] at hanswer
    exact hplays.trans hanswer
  | none =>
    have hanswer := plays_setAnswer hb (hplays.isOf hof) (stimulus r.result)
    rw [hplays.solo, hplace] at hanswer
    have hanswered := hplays.trans hanswer
    have hpause := plays_pause hb (hanswered.isOf hof) r.pause
    rw [hanswered.solo, hanswered.slice.place b t] at hpause
    exact hanswered.trans hpause

/-- A call of a hook is remembered under its name. -/
theorem plays_noteCall (hb : b.IsName) (hname : name.same b = true) (origin : Origin)
    (call : HookCall) : Plays b h (h.noteCall name origin call) ((h.solo b).noteCall name call) := by
  refine Slice.plays ⟨rfl, rfl, rfl, rfl, rfl⟩ (fun a ha hba => ?_) ?_
  · have hother := Value.other_of_same hb.isKey hba hname
    unfold share noteCall Host.see
    simp only [List.filter_cons, hother, Bool.false_eq_true, if_false]
    rfl
  · unfold solo Solo.noteCall noteCall Host.see
    simp only [List.filter_cons, hname, if_true]
    rfl

theorem deliver_fault (h : Host) (scope : Option Value) (n : Notification) (o : Observer) :
    (h.deliver scope n o).2 = o.escapes? n := by
  have hcontain : ∀ (g : Host) (fault : Fault) (text : String),
      (if fault.isCancellation then (g, some fault)
        else (g.see (.logged scope .error text), none)).2 =
      if fault.isCancellation then some fault else none := by
    intro g fault text
    split <;> simp
  unfold deliver Observer.escapes?
  cases o.accepts n with
  | error fault => exact hcontain h fault _
  | ok accepted =>
    cases accepted with
    | false => simp
    | true =>
      simp only
      cases o.result n with
      | ok _ => simp
      | error fault => exact hcontain _ fault _

/-- Whoever publishes is told the same, whatever else there is. -/
theorem publish_verdict (h : Host) (scope : Option Value) (n : Notification) :
    (h.publish scope n).2 = h.bus.verdict n := by
  have hfold : ∀ (subscriptions : List (Subscription Observer)) (g : Host) (stop : Option Fault),
      (subscriptions.foldl (fun (p : Host × Option Fault) s =>
        if p.2.isSome then (p.1, p.2) else p.1.deliver scope n s.handler) (g, stop)).2 =
      stop.or (subscriptions.findSome? fun s => s.handler.escapes? n) := by
    intro subscriptions
    induction subscriptions with
    | nil => intro g stop; simp
    | cons s subscriptions ih =>
      intro g stop
      rw [List.foldl_cons, List.findSome?_cons]
      cases stop with
      | some fault =>
        rw [if_pos (by simp), ih]
        simp
      | none =>
        rw [if_neg (by simp)]
        have hdelivered := g.deliver_fault scope n s.handler
        generalize g.deliver scope n s.handler = delivered at hdelivered
        obtain ⟨g', stop⟩ := delivered
        obtain rfl : stop = s.handler.escapes? n := hdelivered
        rw [ih]
        cases s.handler.escapes? n <;> simp
  have hall := hfold (h.bus.inOrder n.topic) (h.see (.published .shared n)) none
  unfold publish Bus.verdict
  simp only [Option.none_or] at hall
  generalize hdelivered : List.foldl _ _ (h.bus.inOrder n.topic) = delivered
  have hstop : delivered.2 = _ := (congrArg Prod.snd hdelivered).symm.trans hall
  obtain ⟨h', stop⟩ := delivered
  simp only at hstop ⊢
  rw [← hstop]
  cases stop <;> simp

end Host
end Turnstile
