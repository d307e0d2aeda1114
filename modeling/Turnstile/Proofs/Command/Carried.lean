-- The run of a command: one instance of a table without hooks is sent some events, each of which is
-- through before the next one is sent. What is written is the fold of the hook that comes with the
-- table over the events.
import Turnstile.Command.Basic
import Turnstile.Proofs.Diagram.RoundTrip
import Turnstile.Proofs.Supervisor.Parting

namespace Turnstile

/-! ## The fold -/

/-- Where the hook that comes with a table takes a run state on an event: to another one, or out of the
diagram. What is rejected leaves it as it is. -/
def Table.stride (t : Table) (rs : RunState) (event payload : Value) : Option RunState :=
  match ((Hook.followTable t).react [] ⟨rs.current, event, payload, rs.payload⟩).result with
  | .ok (.success (.text state) statePayload) => some (rs.move state statePayload)
  | .ok (.success .terminal _) => none
  | _ => some rs

/-- Where the events of a command line take a run state, unless one of them takes it out of the
diagram. -/
def Command.carried (t : Table) (rs : RunState) (events : List String) : Option RunState :=
  events.foldlM (fun rs s => t.stride rs (splitEvent s).1 (splitEvent s).2) rs

namespace Table

variable {t : Table} {rs : RunState} {event : Value}

theorem stride_moves {s : String} (h : t.only? rs.current event = some (.state s)) (payload : Value) :
    t.stride rs event payload = some (rs.move s rs.payload) := by
  simp only [stride, Hook.followTable, follow_only h]
  rfl

theorem stride_leaves (h : t.only? rs.current event = some .terminal) (payload : Value) :
    t.stride rs event payload = none := by
  simp only [stride, Hook.followTable, follow_only h]
  rfl

theorem stride_stays (h : t.only? rs.current event = none) (payload : Value) :
    t.stride rs event payload = some rs := by
  rcases follow_none h rs.payload with ⟨reason, hfollow⟩ | hfollow <;>
    simp only [stride, Hook.followTable, hfollow]

end Table

namespace Command

variable {t : Table} {rs : RunState}

theorem all_before {event : String} (hplain : '=' ∉ event.toList) :
    ∀ c ∈ event.toList, decide (c ≠ '=') = true := by
  intro c hc
  simp only [decide_eq_true_eq]
  rintro rfl
  exact hplain hc

/-- An event without an equals sign has no payload. -/
theorem splitEvent_of_plain {event : String} (hplain : '=' ∉ event.toList) :
    splitEvent event = (.text event, .null) := by
  have hall := all_before hplain
  have hsplit : Argument.splitAssignment event = (event, none) := by
    unfold Argument.splitAssignment
    simp only [List.takeWhile_eq_self_iff.2 hall, List.dropWhile_eq_nil_iff.2 hall,
      String.ofList_toList]
  unfold splitEvent
  rw [hsplit]

/-- An event ends at the first equals sign, and what stands behind it is the payload, unless that is
nothing. -/
theorem splitEvent_of_assignment {event : String} (hplain : '=' ∉ event.toList) (rest : String) :
    splitEvent (event ++ "=" ++ rest) =
      (.text event, if rest = "" then .null else .text rest) := by
  have hall := all_before hplain
  have hsplit : Argument.splitAssignment (event ++ "=" ++ rest) = (event, some rest) := by
    unfold Argument.splitAssignment
    have hlist : (event ++ "=" ++ rest).toList = event.toList ++ '=' :: rest.toList := by simp
    simp only [hlist, List.takeWhile_append_of_pos hall, List.dropWhile_append_of_pos hall]
    simp
  unfold splitEvent
  rw [hsplit]
  split_ifs with hempty
  · rw [hempty]
    rfl
  · split
    · rename_i heq
      cases heq
    · rename_i heq
      cases heq
      exact absurd rfl hempty
    · rename_i heq
      cases heq
      rfl

/-- The events of a command line, without their payloads. -/
def eventNames (events : List String) : List Value := events.map fun s => (splitEvent s).1

theorem carried_cons (t : Table) (rs : RunState) (s : String) (events : List String) :
    carried t rs (s :: events) =
      (t.stride rs (splitEvent s).1 (splitEvent s).2).bind (carried t · events) := rfl

theorem carried_eq_walk (t : Table) (rs : RunState) (events : List String) :
    carried t rs events = if (t.walk rs (eventNames events)).2 then none
      else some (t.walk rs (eventNames events)).1 := by
  induction events generalizing rs with
  | nil => rfl
  | cons s events ih =>
    have hnames : eventNames (s :: events) = (splitEvent s).1 :: eventNames events := rfl
    rw [carried_cons, hnames]
    cases honly : t.only? rs.current (splitEvent s).1 with
    | none =>
      rw [Table.stride_stays honly, Table.walk_stays honly]
      exact ih rs
    | some x =>
      cases x with
      | terminal =>
        rw [Table.stride_leaves honly, Table.walk_leaves honly]
        rfl
      | state s' =>
        rw [Table.stride_moves honly, Table.walk_moves honly]
        exact ih _

/-! ## Sending the events -/

section
variable {h f k : Host} {typeName name : String} {task : Task} {n : Value} {s : String}
  {rest : List String}

theorem sendEvents_goes_on (hsend : h.send ⟨n, (splitEvent s).1, (splitEvent s).2⟩ = .ok f)
    (hstate : f.stateOf n = (k, .ok rs)) : sendEvents h n (s :: rest) = sendEvents k n rest := by
  rw [sendEvents]
  simp only [hsend, hstate]

/-- Nothing is sent after the event that the instance did not outlive. -/
theorem sendEvents_stops (hsend : h.send ⟨n, (splitEvent s).1, (splitEvent s).2⟩ = .ok f)
    (hstate : f.stateOf n = (k, .error (Instance.missing n))) :
    sendEvents h n (s :: rest) = (k, .ok ()) := by
  rw [sendEvents]
  simp only [hsend, hstate]
  rfl

theorem send_poised (hpoised : h.Poised typeName t name task) (event payload : Value) :
    h.send ⟨.text name, event, payload⟩ = .ok (h.lining task (.transition event payload)) := by
  unfold Host.send
  simp only [hpoised.lookup, bind, Except.bind]
  exact hpoised.post _

/-- The instance goes where its events lead, one after the other, up to the first that takes it out of
the diagram; what comes behind that one makes no difference. -/
theorem sendEvents_walks {settings : Settings} {registry : Registry} (events : List String)
    (hpoised : h.Poised typeName t name task) (hmailbox : task.inst.mailbox = [])
    (hleads : (Host.opened settings registry {}).Leads h) :
    let walked := t.walk task.inst.runState (eventNames events)
    ∃ k, sendEvents h (.text name) events = (k, .ok ()) ∧ k.lines = h.lines ∧
      (Host.opened settings registry {}).Leads k ∧ k.Led typeName t name walked ∧
      (walked.2 = true → ∀ more, sendEvents h (.text name) (events ++ more) = (k, .ok ())) := by
  induction events generalizing h task with
  | nil => exact ⟨h, rfl, rfl, hleads, ⟨task, .inl ⟨rfl, hpoised, hmailbox, rfl⟩⟩, nofun⟩
  | cons s events ih =>
    intro walked
    let event := (splitEvent s).1
    let r : Request := .transition event (splitEvent s).2
    have hsend := send_poised hpoised event (splitEvent s).2
    have hlined : (h.lining task r).Poised typeName t name (task.lined r) :=
      hpoised.lining ⟨event, _, rfl⟩
    have hlength : (task.lined r).inst.mailbox = [r] := by simp [Task.lined, hmailbox]
    have hleads' : (Host.opened settings registry {}).Leads (h.lining task r) :=
      @Host.Leads.of_act _ _ _ hleads (.send ⟨.text name, event, (splitEvent s).2⟩)
        (congrArg h.accepting hsend)
    obtain ⟨k, hstate, hlines, hon, hled, -⟩ := hlined.stateOf (by rw [hlength]; rfl) hleads'
    rw [hlength] at hstate hled
    have hfirst : (t.walk (task.lined r).inst.runState ([r].filterMap Request.event?)) =
        t.walk task.inst.runState [event] := rfl
    rw [hfirst] at hstate hled
    obtain ⟨task', ⟨hstays, hpoised', hmailbox', hstate'⟩ | ⟨hleaves, hgone⟩⟩ := hled
    · rw [Host.reading_of_stays hstays] at hstate
      obtain ⟨k', hsent, hlines', hon', hled', hmore⟩ := ih hpoised' hmailbox' hon
      have hwalked : walked = t.walk task'.inst.runState (eventNames events) := by
        rw [hstate', ← Table.walk_append hstays]
        rfl
      refine ⟨k', (sendEvents_goes_on hsend hstate).trans hsent, hlines'.trans hlines, hon',
        hwalked ▸ hled', fun hleft more => ?_⟩
      exact (sendEvents_goes_on hsend hstate).trans (hmore (hwalked ▸ hleft) more)
    · rw [Host.reading_of_leaves hleaves] at hstate
      have hwalked : walked = t.walk task.inst.runState [event] := Table.walk_left hleaves _
      refine ⟨k, sendEvents_stops hsend hstate, hlines, hon, ⟨task', .inr ⟨?_, hgone⟩⟩,
        fun _ more => sendEvents_stops hsend hstate⟩
      rw [hwalked]
      exact hleaves

/-! ## The end of the run -/

theorem isAlive_single (hsingle : h.Single typeName t name task) :
    h.isAlive (.text name) = .ok task.inst.alive := by
  unfold Host.isAlive
  simp [hsingle.holder, Value.isKey]

/-- The line with the states that an instance has left, the last one first. -/
def historyLine (rs : RunState) : String :=
  "history: " ++ if (", ".intercalate rs.history).isEmpty then "(empty)"
    else ", ".intercalate rs.history

/-- Of an instance that is still there the run state is written, and it is stopped. -/
theorem finish_stays {settings : Settings} {registry : Registry}
    (hpoised : h.Poised typeName t name task) (hmailbox : task.inst.mailbox = [])
    (hleads : (Host.opened settings registry {}).Leads h) :
    ∃ k ended, finish h (.text name) 0 = (k, .ok ()) ∧ k.Over ended (h.lines ++
      ["state: " ++ task.inst.runState.current, historyLine task.inst.runState]) := by
  obtain ⟨k, hstate, hlines, hon, hled, hwaits⟩ :=
    hpoised.stateOf (by rw [hmailbox]; exact Nat.zero_le _) hleads
  rw [hmailbox] at hstate hled
  have hstate : h.stateOf (.text name) = (k, .ok task.inst.runState) := hstate
  obtain ⟨task', ⟨-, hpoised', -, -⟩ | ⟨hleaves, -⟩⟩ := hled
  · have hrun := hpoised'.receiving (hwaits task' (hpoised'.tasks ▸ List.mem_singleton_self _))
    let k' := (k.write ("state: " ++ task.inst.runState.current)).write
      (historyLine task.inst.runState)
    obtain ⟨g, ended, hparted, hover⟩ := ((hpoised'.write _).write _ :
      k'.Poised typeName t name task').parted hrun ((hon.grown.attended.see _).see _)
    refine ⟨g, ended, ?_, ?_⟩
    · unfold finish
      rw [isAlive_single hpoised.toSingle, hpoised.alive]
      simp only [hstate]
      show ((Host.await (k'.shutdown none)).1, (Host.await (k'.shutdown none)).2.map _) = _
      rw [hparted]
      rfl
    · rw [Host.lines_write, Host.lines_write, hlines, List.append_assoc] at hover
      exact hover
  · cases hleaves

/-- Of an instance that has left the diagram only that is written. -/
theorem finish_leaves {settings : Settings} {registry : Registry}
    (hgone : h.Gone typeName t name task)
    (hleads : (Host.opened settings registry {}).Leads h) :
    ∃ k ended, finish h (.text name) 0 = (k, .ok ()) ∧
      k.Over ended (h.lines ++ ["state: [*] (terminal)"]) := by
  obtain ⟨k, hawait, hover⟩ := hgone.awaited hleads
  have hreason : k.stopReason 0 = some .terminal := by
    unfold Host.stopReason Host.task?
    rw [hover.tasks]
    exact hgone.reason
  refine ⟨k.write "state: [*] (terminal)", task, ?_, hover.write _⟩
  unfold finish
  rw [isAlive_single hgone.toSingle, hgone.stopped]
  simp only [hawait, hreason]
  rfl

/-! ## The run -/

/-- What is written about where the events of a command line have led. -/
def account (walked : RunState × Bool) : List String :=
  if walked.2 then ["state: [*] (terminal)"]
  else ["state: " ++ walked.1.current, historyLine walked.1]

/-- The host of a run, in which the only instance has just been started. -/
def startHost (settings : Settings) (typeName name : String) (t : Table) (payload : Value) : Host :=
  (Host.opened settings (Registry.register [] (.ofTable typeName t {})) {}).launched
    (.ofTable typeName t {}) (.text name) payload

theorem start_opened (settings : Settings) (typeName name : String) (t : Table) (payload : Value) :
    (Host.opened settings (Registry.register [] (.ofTable typeName t {})) {}).start
      (.given (.ofTable typeName t {})) (.text name) payload =
        (startHost settings typeName name t payload, .ok 0) :=
  Host.start_unheld ⟨rfl, rfl, rfl, rfl⟩ rfl rfl rfl payload

theorem startHost_poised (settings : Settings) (typeName name : String) (t : Table)
    (payload : Value) : ∃ task : Task, (startHost settings typeName name t payload).Poised typeName t
      name task ∧ task.inst.mailbox = [] ∧ task.inst.runState = ⟨t.initial, payload, []⟩ :=
  ⟨_, { machine := rfl, named := rfl, supervised := rfl, watchers := rfl, tasks := rfl
        holders := rfl, bus := rfl, running := rfl, timers := rfl, batch := rfl, alive := rfl
        sends := List.forall_mem_nil _
        waits := .inl ⟨rfl, rfl, .inl rfl⟩ }, rfl, rfl⟩

/-- Whoever runs an instance without hooks is told where its events lead; and once they have led out of
the diagram, more of them make no difference. -/
theorem runInstance_walks (settings : Settings) (typeName name : String) (t : Table) (payload : Value)
    (events : List String) :
    let m : Machine := .ofTable typeName t {}
    let walked := t.walk ⟨t.initial, payload, []⟩ (eventNames events)
    let report := runInstance settings m (.text name) payload
    (report events).ending = .code 0 "" ∧ (report events).written = account walked ∧
      (walked.2 = true → ∀ more, report (events ++ more) = report events) := by
  intro m walked report
  let h := startHost settings typeName name t payload
  have hstart := start_opened settings typeName name t payload
  obtain ⟨task, hpoised, hmailbox, hfresh⟩ := startHost_poised settings typeName name t payload
  have hleads : (Host.opened settings (Registry.register [] m) {}).Leads h :=
    @Host.Leads.of_act _ _ _ (.refl _) (.start (.given m) (.text name) payload)
      (congrArg Prod.fst hstart)
  obtain ⟨k, hsent, hlines, hon, hled, hmore⟩ := sendEvents_walks events hpoised hmailbox hleads
  rw [hfresh] at hled hmore
  obtain ⟨g, ended, hfinish, hover⟩ : ∃ g ended, finish k (.text name) 0 = (g, .ok ()) ∧
      g.Over ended (account walked) := by
    have hnothing : k.lines = [] := hlines
    obtain ⟨task', ⟨hstays, hpoised', hmailbox, hstate⟩ | ⟨hleaves, hgone⟩⟩ := hled
    · obtain ⟨g, ended, hfinish, hover⟩ := finish_stays hpoised' hmailbox hon
      have haccount : account walked = ["state: " ++ walked.1.current, historyLine walked.1] :=
        if_neg (Bool.not_eq_true _ ▸ hstays)
      rw [hnothing, hstate] at hover
      exact ⟨g, ended, hfinish, by rw [haccount]; exact hover⟩
    · obtain ⟨g, ended, hfinish, hover⟩ := finish_leaves hgone hon
      have haccount : account walked = ["state: [*] (terminal)"] := if_pos hleaves
      rw [hnothing] at hover
      exact ⟨g, ended, hfinish, by rw [haccount]; exact hover⟩
  have hreport : ∀ {all}, sendEvents h (.text name) all = (k, .ok ()) →
      report all = { written := g.lines, ending := .code 0 "", log := g.events } := by
    intro all hall
    show runInstance settings m (.text name) payload all = _
    unfold runInstance
    rw [show ({ settings, registry := Registry.register [] m } : Host) =
      Host.opened settings (Registry.register [] m) {} from rfl]
    simp only [m, hstart, h, hall, hfinish, hover.cancelAll]
  refine ⟨?_, ?_, fun hleaves more => ?_⟩
  · rw [hreport hsent]
  · rw [hreport hsent]
    exact hover.lines
  · rw [hreport hsent, hreport (hmore hleaves more)]

end

/-! ## Names -/

/-- No state that an instance is or has been in has an empty name. -/
structure Named (rs : RunState) : Prop where
  current : rs.current ≠ ""
  history : "" ∉ rs.history

theorem ne_empty_of_name {s : String} (hname : isName s.toList = true) : s ≠ "" := by
  rintro rfl
  cases hname

/-- All states of a table that was compiled have names, so a walk leads to no other. -/
theorem walk_named (hformed : t.WellFormed) (hnamed : Named rs) (events : List Value) :
    Named (t.walk rs events).1 := by
  induction events generalizing rs with
  | nil => exact hnamed
  | cons event events ih =>
    cases honly : t.only? rs.current event with
    | none =>
      rw [Table.walk_stays honly]
      exact ih hnamed
    | some x =>
      cases x with
      | terminal =>
        rw [Table.walk_leaves honly]
        exact hnamed
      | state s =>
        rw [Table.walk_moves honly]
        obtain ⟨e, -, hmem, -⟩ := Table.only?_eq_some.1 honly
        refine ih ⟨ne_empty_of_name (hformed.target _ (Table.mem_targets.1 hmem) s rfl), ?_⟩
        exact List.not_mem_cons_of_ne_of_not_mem hnamed.current.symm hnamed.history

theorem historyLine_named (hnamed : Named rs) : historyLine rs =
    "history: " ++ if rs.history = [] then "(empty)" else ", ".intercalate rs.history := by
  have hempty : (", ".intercalate rs.history).isEmpty = decide (rs.history = []) := by
    cases hhistory : rs.history with
    | nil => rfl
    | cons s rest =>
      have hs : s ≠ "" := fun hs => hnamed.history (by simp [hhistory, hs])
      cases rest with
      | nil => simp [hs]
      | cons r rest => simp [String.intercalate_cons_cons]
  unfold historyLine
  simp only [hempty, decide_eq_true_eq]

/-! ## Configurations -/

variable {read : Config.Reader} {catalogue : Catalogue} {path : Path} {c : Config}

/-- A configuration without hooks has the machine of its diagram. -/
theorem build_plain (hhooks : c.hooks = none ∨ c.hooks = some "")
    (hcompile : compileDiagram c.diagram c.dialect = .ok t) (catalogue : Catalogue) :
    c.build catalogue = .ok (.ofTable c.name t {}) := by
  unfold Config.build
  rcases hhooks with hhooks | hhooks <;> (rw [hhooks, hcompile]; rfl)

theorem execute_run (hload : Config.load read path = .ok c)
    (hhooks : c.hooks = none ∨ c.hooks = some "")
    (hcompile : compileDiagram c.diagram c.dialect = .ok t) (catalogue : Catalogue)
    (given : Option String) (name : String) (payload : Option String) (events : List String) :
    (Command.run given name payload events).execute read catalogue (some path) =
      runInstance c.settings (.ofTable c.name t {}) (.text name) ((payload.map .text).getD .null)
        events := by
  unfold Command.execute
  simp only [hload, build_plain hhooks hcompile, bind, Except.bind, pure, Except.pure]
  rfl

/-- With a configuration without hooks whose diagram compiles, a run succeeds, whatever it is given. It
writes where the hook that comes with the table takes the initial run state along the events, each
split at its first equals sign: the last state and all earlier ones, the last of them first. Once an
event has led out of the diagram only that is written, and more events make no difference at all. -/
theorem a_run_writes_where_its_events_lead (hload : Config.load read path = .ok c)
    (hhooks : c.hooks = none ∨ c.hooks = some "")
    (hcompile : compileDiagram c.diagram c.dialect = .ok t) (catalogue : Catalogue)
    (given : Option String) (name : String) (payload : Option String) (events : List String) :
    let report (events : List String) :=
      (Command.run given name payload events).execute read catalogue (some path)
    let ends := carried t ⟨t.initial, (payload.map .text).getD .null, []⟩
    (report events).ending = .code 0 "" ∧
    (report events).written = (match ends events with
      | some rs => ["state: " ++ rs.current, "history: " ++
          if rs.history = [] then "(empty)" else ", ".intercalate rs.history]
      | none => ["state: [*] (terminal)"]) ∧
    (ends events = none → ∀ more, report (events ++ more) = report events) ∧
    ∀ event rest, '=' ∉ event.toList → splitEvent event = (.text event, .null) ∧
      splitEvent (event ++ "=" ++ rest) =
        (.text event, if rest = "" then .null else .text rest) := by
  intro report ends
  let start : RunState := ⟨t.initial, (payload.map .text).getD .null, []⟩
  have hreport : report = _ := funext (execute_run hload hhooks hcompile catalogue given name payload)
  obtain ⟨hending, hwritten, hmore⟩ :=
    runInstance_walks c.settings c.name name t ((payload.map .text).getD .null) events
  rw [hreport]
  refine ⟨hending, hwritten.trans ?_, fun hnone => hmore ?_, fun event rest hplain =>
    ⟨splitEvent_of_plain hplain, splitEvent_of_assignment hplain rest⟩⟩
  · have hformed := compiled_wellFormed hcompile
    have hnamed : Named (t.walk start (eventNames events)).1 :=
      walk_named hformed ⟨ne_empty_of_name hformed.initial, List.not_mem_nil⟩ _
    have hends : ends events = _ := carried_eq_walk t start events
    show account (t.walk start (eventNames events)) = _
    unfold account
    rw [hends, historyLine_named hnamed]
    by_cases hleaves : (t.walk start (eventNames events)).2 = true
    · simp only [if_pos hleaves]
    · simp only [if_neg hleaves]
  · have hends : ends events = _ := carried_eq_walk t start events
    by_contra hstays
    rw [hends, if_neg hstays] at hnone
    cases hnone

/-- Two events lead an instance on and out, and a third one makes no difference. -/
theorem a_small_run_writes_where_it_ends :
    let read : Config.Reader := fun _ => .ok
      "'name': 'm'\n'diagram': |\n  [*] --> a : start\n  a --> b : go\n  b --> [*] : end\n"
    let report (events : List String) :=
      (Command.run none "cli" none events).execute read [] (some (.ofText "c.yaml"))
    (report ["go=now", "no"]).ending = .code 0 "" ∧
    (report ["go=now", "no"]).written = ["state: b", "history: a"] ∧
    (report ["go", "end"]).written = ["state: [*] (terminal)"] ∧
    report ["go", "end", "go"] = report ["go", "end"] := by
  intro read report
  let t : Table := ⟨"a", [⟨"a", "go", .state "b"⟩, ⟨"b", "end", .terminal⟩], ["start"]⟩
  have hload : ((Config.load read (.ofText "c.yaml")).toOption.map
      fun c => (c.diagram, c.dialect, c.hooks)) = some
        ("[*] --> a : start\na --> b : go\nb --> [*] : end\n", "plantuml", none) := by
    decide +kernel
  have hcompile : compileDiagram "[*] --> a : start\na --> b : go\nb --> [*] : end\n" "plantuml" =
      .ok t := by decide +kernel
  cases hc : Config.load read (.ofText "c.yaml") with
  | error fault =>
    rw [hc] at hload
    cases hload
  | ok c =>
    rw [hc] at hload
    obtain ⟨hdiagram, hdialect, hhooks⟩ : c.diagram = _ ∧ c.dialect = _ ∧ c.hooks = _ := by
      simpa [Except.toOption] using hload
    rw [← hdiagram, ← hdialect] at hcompile
    obtain ⟨hending, hwritten, -⟩ := a_run_writes_where_its_events_lead hc (.inl hhooks) hcompile []
      none "cli" none ["go=now", "no"]
    obtain ⟨-, hgone, hmore, -⟩ := a_run_writes_where_its_events_lead hc (.inl hhooks) hcompile []
      none "cli" none ["go", "end"]
    let start : RunState := ⟨t.initial, ((none : Option String).map .text).getD .null, []⟩
    have hstays : carried t start ["go=now", "no"] = some ⟨"b", .null, ["a"]⟩ := rfl
    have hleaves : carried t start ["go", "end"] = none := rfl
    rw [hstays] at hwritten
    rw [hleaves] at hgone
    exact ⟨hending, hwritten, hgone, hmore hleaves ["go"]⟩

end Command
end Turnstile
