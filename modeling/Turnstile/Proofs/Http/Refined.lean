-- The service keeps to its directory: between two requests the host is at rest and holds just the
-- instances that the directory names, each in its run state, so every response is the directory's.
import Turnstile.Proofs.Http.Directory
import Turnstile.Proofs.Instance.Simulation
import Turnstile.Proofs.Supervisor.Calm

namespace Turnstile.Http

open Service (get fieldsOf?)

/-- What a host has under a name: an instance at rest, or nothing. -/
def Lists (h : Host) (name : String) : Option (Machine × RunState) → Prop
  | none => lookupName h.holders (.text name) = none
  | some (machine, rs) => ∃ t task, lookupName h.holders (.text name) = some t ∧
    h.task? t = some task ∧ task.Rests ∧ task.inst.name = .text name ∧
    task.inst.machine = machine ∧ task.inst.runState = rs ∧ machine.hooks.Plain

/-- A host at rest that has under every name what a directory says. -/
structure Reflects (registry : Registry) (d : Directory) (h : Host) : Prop where
  attended : h.Attended
  stuck : h.IsStuck
  tame : h.bus.Tame
  registry : h.registry = registry
  past : h.past = d.past
  lists : ∀ name, Lists h name (d.live name)

/-- The response is the directory's, and so is the host when all is done. -/
def Agrees (registry : Registry) (r : Host × Response) (r' : Directory × Response) : Prop :=
  r.2 = r'.2 ∧ Reflects registry r'.1 r.1.settled

namespace Reflects

variable {registry : Registry} {d : Directory} {h k : Host} {name : String} {t : Nat} {task : Task}
  {machine : Machine} {rs : RunState}

theorem same_text (a b : String) : (Value.text a).same (.text b) = decide (a = b) := by
  simp [Value.same, beq_eq_decide]

theorem keys (hr : Reflects registry d h) : ∀ p ∈ h.holders, p.1.isKey = true :=
  hr.attended.orderly.apart.1

theorem settled (hr : Reflects registry d h) : h.settled = h := Host.settle_eq (n := 0)
  hr.stuck.isIdle (Nat.zero_le _)

/-- What is new under one name is all that is new. -/
theorem calm (hr : Reflects registry d h) {tasks : List Task} {holders : List (Value × Nat)}
    {past : HookPast} {entry : Option (Machine × RunState)} (hk : k.Attended)
    (hcalm : Host.Calm h k tasks holders past)
    (htasks : ∀ u task, h.task? u = some task → task.inst.name ≠ .text name →
      tasks[u]? = some task)
    (hheld : ∀ other, other ≠ name →
      lookupName holders (.text other) = lookupName h.holders (.text other))
    (hnew : Lists k name entry) : Reflects registry { d.enter name entry with past := past } k where
  attended := hk
  stuck := hcalm.stuck
  tame := hcalm.bus ▸ hr.tame
  registry := hcalm.registry.trans hr.registry
  past := hcalm.past
  lists other := by
    by_cases hother : other = name
    · subst hother
      simpa [Directory.enter] using hnew
    · have hlists := hr.lists other
      simp only [Directory.enter, Function.update_of_ne hother]
      cases hlive : d.live other with
      | none =>
        rw [hlive] at hlists
        show lookupName k.holders _ = none
        rw [hcalm.holders, hheld other hother]
        exact hlists
      | some entry =>
        rw [hlive] at hlists
        obtain ⟨u, task, hu, htask, hrests, hname, hrest⟩ := hlists
        have hne : task.inst.name ≠ .text name := fun h =>
          hother (Value.text.inj (hname.symm.trans h))
        refine ⟨u, task, ?_, ?_, hrests, hname, hrest⟩
        · rw [hcalm.holders, hheld other hother]
          exact hu
        · show k.tasks[u]? = _
          rw [hcalm.tasks]
          exact htasks u task htask hne

/-- Nothing else stands where the task of a name stands. -/
theorem set_others (ht : h.task? t = some task) (hname : task.inst.name = .text name)
    (task' : Task) : ∀ u other, h.task? u = some other → other.inst.name ≠ .text name →
      (h.tasks.set t task')[u]? = some other := by
  intro u other hu hother
  rw [List.getElem?_set_ne]
  · exact hu
  · rintro rfl
    obtain rfl := Option.some.inj (ht.symm.trans hu)
    exact hother hname

theorem erase_others (hr : Reflects registry d h) : ∀ other, other ≠ name →
    lookupName (eraseName h.holders (.text name)) (.text other) =
      lookupName h.holders (.text other) := by
  intro other hother
  rw [lookupName_eraseName hr.keys rfl, same_text]
  simp [hother.symm]

theorem erase_self (hr : Reflects registry d h) :
    lookupName (eraseName h.holders (.text name)) (.text name) = none := by
  rw [lookupName_eraseName hr.keys rfl, same_text]
  simp

/-- A name that is not live is held by nobody. -/
theorem unheld (hr : Reflects registry d h) (hlive : d.live name = none) :
    lookupName h.holders (.text name) = none := by
  have hlists := hr.lists name
  rwa [hlive] at hlists

/-- A name that is live is held by an instance at rest. -/
theorem held (hr : Reflects registry d h) (hlive : d.live name = some (machine, rs)) :
    ∃ t task, lookupName h.holders (.text name) = some t ∧ h.task? t = some task ∧ task.Rests ∧
      task.inst.name = .text name ∧ task.inst.machine = machine ∧ task.inst.runState = rs ∧
      machine.hooks.Plain := by
  have hlists := hr.lists name
  rwa [hlive] at hlists

/-- The host settles where some steps lead it to rest. -/
theorem of_steps {n : Nat} (hlast : Reflects registry d (Host.step^[n] k)) (hn : n ≤ 1000000) :
    Reflects registry d k.settled := by
  have hsettled : k.settled = Host.step^[n] k := Host.settle_eq hlast.stuck.isIdle hn
  rwa [hsettled]

/-! ## Handling a request -/

/-- A request that is answered at once changes nothing. -/
theorem unchanged (hr : Reflects registry d h) (response : Response) :
    Agrees registry (h, response) (d, response) := ⟨rfl, hr.settled.symm ▸ hr⟩

/-- An instance that is at rest again stands under its name in another run state. -/
theorem rested (hr : Reflects registry d h) (hk : k.Attended)
    (hheld : lookupName h.holders (.text name) = some t) (ht : h.task? t = some task)
    (hname : task.inst.name = .text name) (hplain : task.inst.machine.hooks.Plain) {task' : Task}
    (hrests : task'.Rests) (hname' : task'.inst.name = task.inst.name)
    (hmachine : task'.inst.machine = task.inst.machine) {past : HookPast}
    (hcalm : Host.Calm h k (h.tasks.set t task') h.holders past) : Reflects registry
      { d.enter name (some (task.inst.machine, task'.inst.runState)) with past := past } k := by
  refine hr.calm hk hcalm (set_others ht hname task') (fun _ _ => rfl)
    ⟨t, task', ?_, ?_, hrests, hname'.trans hname, hmachine, rfl, hplain⟩
  · rw [hcalm.holders]
    exact hheld
  · show k.tasks[t]? = _
    rw [hcalm.tasks]
    exact List.getElem?_set_self (Host.lt_of_task ht)

/-- What an instance has done with a request, the directory has done. -/
theorem handled (hr : Reflects registry d h) (hk : k.Attended)
    (hheld : lookupName h.holders (.text name) = some t) (ht : h.task? t = some task)
    (hname : task.inst.name = .text name) (hplain : task.inst.machine.hooks.Plain)
    {turn : Serial.Turn} (hhandled : Host.Handled h k t task turn) :
    Reflects registry (d.settle name task.inst.machine turn) k := by
  unfold Directory.settle
  rcases hhandled with ⟨hstop, task', hrests, hname', hmachine, hstate, hcalm⟩ |
    ⟨hstop, task', hcalm⟩
  · rw [hstop, ← hstate]
    exact hr.rested hk hheld ht hname hplain hrests hname' hmachine hcalm
  · obtain ⟨reason, hreason⟩ := Option.ne_none_iff_exists'.1 hstop
    rw [hreason]
    rw [hname] at hcalm
    refine hr.calm hk hcalm (set_others ht hname task') (fun _ => hr.erase_others _) ?_
    show lookupName k.holders (.text name) = none
    rw [hcalm.holders]
    exact hr.erase_self

/-- A request for a transition. -/
theorem send (hr : Reflects registry d h) (name : String) (fields : List (String × Value)) :
    Agrees registry (Service.send h name fields)
      (d.serve name (.transition (get fields "event") (get fields "payload"))
        (.note 202 "sent")) := by
  let event := get fields "event"
  let payload := get fields "payload"
  unfold Service.send Directory.serve
  cases hlive : d.live name with
  | none =>
    have hsend : h.send ⟨.text name, event, payload⟩ = .error (Instance.missing (.text name)) := by
      unfold Host.send
      rw [Host.lookup_unheld rfl (hr.unheld hlive)]
      rfl
    rw [hsend]
    exact hr.unchanged _
  | some entry =>
    obtain ⟨machine, rs⟩ := entry
    obtain ⟨t, task, hheld, ht, hrests, hname, rfl, rfl, hplain⟩ := hr.held hlive
    have hsend : h.send ⟨.text name, event, payload⟩ =
        .ok (h.posted t task (.transition event payload)) := by
      unfold Host.send
      rw [Host.lookup_resting rfl hheld ht hrests]
      exact Host.post_resting hr.stuck ht hrests _
    obtain ⟨n, hn, hhandled⟩ := Host.transition_handled hr.stuck hr.tame ht (hname ▸ hheld) hrests
      hplain event payload
    have hact := (hr.attended.act (.send ⟨.text name, event, payload⟩)).1
    rw [Host.act, hsend] at hact
    have hlast := hr.handled (hact.steps n) hheld ht hname hplain hhandled
    rw [hname, hr.past] at hlast
    rw [hsend]
    exact ⟨rfl, hlast.of_steps (Nat.le_trans hn (by decide))⟩

/-- A request to stop. -/
theorem stop (hr : Reflects registry d h) (body : Option Value) (name : String) :
    Agrees registry (Service.handle h body (.stop name))
      (d.serve name .stop (.note 200 "stopped")) := by
  unfold Service.handle Directory.serve
  cases hlive : d.live name with
  | none =>
    have hstop : h.stop (.text name) none = (h, .now (.error (Instance.missing (.text name)))) := by
      unfold Host.stop
      rw [Host.lookup_unheld rfl (hr.unheld hlive)]
    simp only [hstop, Host.await]
    exact hr.unchanged _
  | some entry =>
    obtain ⟨machine, rs⟩ := entry
    obtain ⟨t, task, hheld, ht, hrests, hname, rfl, rfl, hplain⟩ := hr.held hlive
    obtain ⟨f, hstop, hresult, task', hcalm⟩ := Host.stop_answered hr.stuck hr.tame ht
      (hname ▸ hheld) (by rw [hname]; rfl) hrests hplain none
    have hhandled : Host.Handled h (Host.step^[11] f) t task
        (Serial.serve task.inst.machine (.text name) task.inst.runState d.past .stop) :=
      .inr ⟨nofun, task', hr.past ▸ hcalm⟩
    rw [hname] at hstop
    have hact := (hr.attended.act (.stop (.text name) none)).1
    rw [Host.act, hstop] at hact
    obtain ⟨g, hawait, hsettled⟩ := hact.await_eq (by decide) hcalm.stuck.isIdle hresult
    simp only [hstop, hawait]
    refine ⟨rfl, ?_⟩
    rw [hsettled]
    exact hr.handled (hact.steps 11) hheld ht hname hplain hhandled

/-- A question that the table answers. -/
theorem tell (hr : Reflects registry d h) (name : String) {kind : String} {argument : Value}
    {question : Question} (hkind : Question.ofKind kind argument = .ok question)
    {fields : Answer → List (String × Value)}
    {told : Machine → RunState → List (String × Value)}
    (hanswer : ∀ machine rs, ∃ a, Serial.reply machine.table rs question = .ok a ∧
      fields a = told machine rs) :
    Agrees registry (Service.answered (Service.ask h name kind argument) fields)
      (d.tell name told) := by
  unfold Service.ask Directory.tell
  cases hlive : d.live name with
  | none =>
    have hquery : h.query (.text name) kind argument =
        (h, .now (.error (Instance.missing (.text name)))) := by
      unfold Host.query
      rw [Host.lookup_unheld rfl (hr.unheld hlive)]
    rw [hquery]
    exact hr.unchanged _
  | some entry =>
    obtain ⟨machine, rs⟩ := entry
    obtain ⟨t, task, hheld, ht, hrests, hname, rfl, rfl, hplain⟩ := hr.held hlive
    obtain ⟨f, hask, hresult, task', hrests', hname', hmachine, hstate, hcalm⟩ :=
      Host.query_answered hr.stuck ht hrests question
    have hquery : h.query (.text name) kind argument = (f, .later h.calls.length) := by
      unfold Host.query
      rw [Host.lookup_resting rfl hheld ht hrests]
      simp only [hkind]
      exact hask
    obtain ⟨a, ha, hfields⟩ := hanswer task.inst.machine task.inst.runState
    have hreply : task.inst.answerTo question = .ok a :=
      (Live.answerTo_eq_reply task.inst question).trans ha
    have hact := (hr.attended.act (.query (.text name) kind argument)).1
    rw [Host.act, hquery] at hact
    obtain ⟨g, hawait, hsettled⟩ := hact.await_eq (by decide) hcalm.stuck.isIdle hresult
    rw [hquery, hawait, hreply]
    refine ⟨?_, ?_⟩
    · show Response.ok 200 (fields a) = _
      rw [hfields]
    · show Reflects registry d g.settled
      have hlast := hr.rested (hact.steps 6) hheld ht hname hplain hrests' hname' hmachine hcalm
      have hsame : d.live name = some (task.inst.machine, task'.inst.runState) := by
        rw [hlive, hstate]
      rw [hr.past, Directory.enter, ← hsame, Function.update_eq_self] at hlast
      rw [hsettled]
      exact hlast

/-- A start under a name that is live is refused, whatever is started. -/
theorem start_taken (hr : Reflects registry d h) (hlive : d.live name = some (machine, rs))
    {choice : MachineChoice} {chosen : Except Value Machine}
    (hchoose : h.choose choice = .ok chosen) (payload : Value) :
    h.start choice (.text name) payload =
      (h, .error (.reported (LookupFault.nameTaken (.text name) machine.name).report)) := by
  obtain ⟨t, task, hheld, ht, hrests, hname, rfl, rfl, -⟩ := hr.held hlive
  have hkey : (Value.text name).isKey = true := rfl
  unfold Host.start
  rw [hchoose]
  simp [hkey, Host.holder?_of_lookup ht hheld, hrests.alive]

/-- A start under a name that is not live. -/
theorem start_new (hr : Reflects registry d h) (hlive : d.live name = none)
    (hplain : machine.hooks.Plain) {choice : MachineChoice}
    (hchoose : h.choose choice = .ok (.ok machine)) (payload : Value) :
    h.start choice (.text name) payload =
        (h.launched machine (.text name) payload, .ok h.tasks.length) ∧
      Reflects registry
        (d.enter name (some (machine, ⟨machine.table.initial, payload, []⟩)))
        (h.launched machine (.text name) payload).settled := by
  have hfree := hr.unheld hlive
  have hstart := Host.start_unheld hr.stuck hchoose rfl hfree payload
  obtain ⟨task', hrests, hname, hmachine, hstate, hcalm⟩ :=
    Host.launched_rests hr.stuck hr.tame hplain (.text name) payload
  have hact := (hr.attended.act (.start choice (.text name) payload)).1
  rw [Host.act, hstart] at hact
  have hlast : Reflects registry
      { d.enter name (some (machine, ⟨machine.table.initial, payload, []⟩)) with past := h.past }
      (Host.step^[5] (h.launched machine (.text name) payload)) := by
    refine hr.calm (hact.steps 5) hcalm (fun u other hu _ => ?_) (fun other hother => ?_)
      ⟨h.tasks.length, task', ?_, ?_, hrests, hname, hmachine, hstate, hplain⟩
    · exact (List.getElem?_append_left (Host.lt_of_task hu)).trans hu
    · rw [lookupName_setName hr.keys rfl, same_text]
      simp [hother.symm]
    · rw [hcalm.holders, lookupName_setName hr.keys rfl, same_text]
      simp
    · show (Host.step^[5] _).tasks[_]? = _
      rw [hcalm.tasks]
      exact List.getElem?_concat_length
  rw [hr.past] at hlast
  exact ⟨hstart, hlast.of_steps (by decide)⟩

/-- The response to what a start has come to. -/
def startResponse (name : String) : Host × Except Fault Nat → Host × Response
  | (h, .error fault) => (h, .ofFault [(.config, 404), (.start, 409)] fault)
  | (h, .ok t) => (h, .ok 201 [("name", .text name),
      ("state", .text (((h.task? t).map (·.inst.runState.current)).getD ""))])

/-- A start of a type by its name. -/
theorem startNamed (hr : Reflects registry d h)
    (hplain : registry.Plain)
    (name type : String) (payload : Value) :
    Agrees registry (startResponse name (h.start (.named type) (.text name) payload))
      (Directory.startNamed registry d name type payload) := by
  unfold Directory.startNamed
  cases hget : registry.get type with
  | error fault =>
    have hstart : h.start (.named type) (.text name) payload =
        (h, .error (.reported fault.report)) := by
      unfold Host.start Host.choose
      simp only [hr.registry, hget]
    obtain rfl : fault = .unknownType (.text type) registry.names := by
      unfold Registry.get at hget
      split at hget
      · cases hget
      · exact (Except.error.inj hget).symm
    rw [hstart]
    exact hr.unchanged _
  | ok machine =>
    have hchoose : h.choose (.named type) = .ok (.ok machine) := by
      unfold Host.choose
      simp only [hr.registry, hget]
    cases hlive : d.live name with
    | some entry =>
      rw [hr.start_taken hlive hchoose]
      exact hr.unchanged _
    | none =>
      obtain ⟨hstart, hlast⟩ := hr.start_new hlive (hplain type machine hget) hchoose payload
      have hthere : (h.launched machine (.text name) payload).task? h.tasks.length =
          some (h.newcomer machine (.text name) payload) := List.getElem?_concat_length
      rw [hstart]
      refine ⟨?_, hlast⟩
      simp only [startResponse, hthere]
      rfl

/-- A start of what is no type. -/
theorem startOther (hr : Reflects registry d h) (name : String) (v payload : Value) :
    Agrees registry (startResponse name (h.start (.other v) (.text name) payload))
      (match d.live name with
        | some (running, _) => (d, Directory.taken name running)
        | none => (d, .bare 500)) := by
  have hchoose : h.choose (.other v) = .ok (.error v) := rfl
  cases hlive : d.live name with
  | some entry =>
    rw [hr.start_taken hlive hchoose]
    exact hr.unchanged _
  | none =>
    have hholder : h.holder? (.text name) = none := by simp [Host.holder?, hr.unheld hlive]
    have hkey : (Value.text name).isKey = true := rfl
    have hstart : h.start (.other v) (.text name) payload =
        ({ h with restarts := setName h.restarts (.text name) [] }, .error (.plain .attribute
          s!"'{v.typeName}' object has no attribute 'table'")) := by
      unfold Host.start
      rw [hchoose]
      simp [hkey, hholder]
    have hact := (hr.attended.act (.start (.other v) (.text name) payload)).1
    rw [Host.act, hstart] at hact
    have hlast : Reflects registry d { h with restarts := setName h.restarts (.text name) [] } :=
      ⟨hact, ⟨hr.stuck.running, hr.stuck.batch, hr.stuck.ready, hr.stuck.timers⟩, hr.tame,
        hr.registry, hr.past, hr.lists⟩
    rw [hstart]
    exact hlast.unchanged _

/-- A start. -/
theorem start (hr : Reflects registry d h)
    (hplain : registry.Plain)
    (fields : List (String × Value)) :
    Agrees registry (Service.start h fields) (Directory.start registry d fields) := by
  unfold Service.start Directory.start
  cases hname : get fields "name" with
  | text name =>
    simp only
    split
    · exact hr.unchanged _
    · cases htype : (fields.lookup "fsm_type").getD (.text "") with
      | text type => exact hr.startNamed hplain name type _
      | _ => exact hr.startOther name _ _
  | _ => exact hr.unchanged _

/-! ## Requests -/

/-- Whatever is asked, the directory answers it alike. -/
theorem handle (hr : Reflects registry d h)
    (hplain : registry.Plain)
    (body : Option Value) (route : Route) :
    Agrees registry (Service.handle h body route) (d.handle registry body route) := by
  cases route with
  | health => exact hr.unchanged _
  | start =>
    unfold Service.handle Directory.handle
    cases fieldsOf? body with
    | some fields => exact hr.start hplain fields
    | none => exact hr.unchanged _
  | send name =>
    unfold Service.handle Directory.handle
    cases fieldsOf? body with
    | some fields => exact hr.send name fields
    | none => exact hr.unchanged _
  | state name => exact hr.tell name rfl fun _ rs => ⟨.state rs, rfl, rfl⟩
  | allowed name state => exact hr.tell name rfl fun machine rs =>
      ⟨.flag (machine.table.allowed rs.current (Directory.targetOf state)), by
        unfold Service.targetOf Directory.targetOf
        split <;> rfl, rfl⟩
  | responds name event => exact hr.tell name rfl fun machine rs =>
      ⟨.flag (machine.table.respondsTo rs.current event), rfl, rfl⟩
  | stop name => exact hr.stop body name

/-! ## Runs -/

/-- Each request is answered as the directory answers it, and leaves the host as the directory
says. -/
theorem respond (hr : Reflects registry d h)
    (hplain : registry.Plain)
    (r : Request) : (Service.respond h r).2 = (d.respond registry r).2 ∧
      Reflects registry (d.respond registry r).1 (Service.respond h r).1 := by
  unfold Service.respond Directory.respond
  cases findRoute r.method (decodeTarget r.target) with
  | found route => exact hr.handle hplain r.body route
  | _ => exact hr.unchanged _

theorem respondAll (hr : Reflects registry d h)
    (hplain : registry.Plain)
    (requests : List Request) :
    Service.respondAll h requests = d.respondAll registry requests := by
  induction requests generalizing d h with
  | nil => rfl
  | cons r rest ih =>
    obtain ⟨hresponse, hnext⟩ := hr.respond hplain r
    unfold Service.respondAll Directory.respondAll
    simp only [hresponse, ih hnext]

end Reflects

theorem Service.respond_found {h : Host} {method target : String} {body : Option Value}
    {route : Route} (hroute : findRoute method (decodeTarget target) = .found route) :
    Service.respond h ⟨method, target, body⟩ =
      ((Service.handle h body route).1.settled, (Service.handle h body route).2) := by
  unfold Service.respond
  rw [hroute]

theorem Directory.respond_found {registry : Registry} {d : Directory} {method target : String}
    {body : Option Value} {route : Route}
    (hroute : findRoute method (decodeTarget target) = .found route) :
    d.respond registry ⟨method, target, body⟩ = d.handle registry body route := by
  unfold Directory.respond
  rw [hroute]

theorem decodeTarget_of_parts {target : String} {parts : List String}
    (hparts : target.splitOn "/" = parts) (htext : String.ofList (pathOf target.toList) = target)
    (hback : (let path := "/".intercalate (resolveDots [] parts)
      String.ofList (Text.decodeLossy (bytesOf (if path.isEmpty then ['/'] else path.toList)))) =
        target) : decodeTarget target = target := by
  unfold decodeTarget
  rw [htext, hparts]
  exact hback

/-- The paths that start an instance, send it something, and ask for its state. -/
theorem routes_of_x : findRoute "POST" (decodeTarget "/instances") = .found .start ∧
    findRoute "POST" (decodeTarget "/instances/x/events") = .found (.send "x") ∧
    findRoute "GET" (decodeTarget "/instances/x") = .found (.state "x") := by
  have hall : "/instances".splitOn "/" = ["", "instances"] := by
    simp +decide [String.splitOn, String.splitOnAux]
  have hevents : "/instances/x/events".splitOn "/" = ["", "instances", "x", "events"] := by
    simp +decide [String.splitOn, String.splitOnAux]
  have hone : "/instances/x".splitOn "/" = ["", "instances", "x"] := by
    simp +decide [String.splitOn, String.splitOnAux]
  rw [decodeTarget_of_parts hall (by decide +kernel) (by decide +kernel),
    decodeTarget_of_parts hevents (by decide +kernel) (by decide +kernel),
    decodeTarget_of_parts hone (by decide +kernel) (by decide +kernel)]
  unfold findRoute routesAt
  rw [hall, hevents, hone]
  decide +kernel

end Turnstile.Http
