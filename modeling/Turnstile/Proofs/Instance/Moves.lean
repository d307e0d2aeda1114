-- What can happen to an instance, move by move, and what every move leaves alone. The run
-- state changes only where a transition is accepted, and then all of it at once, so that the
-- history is always a path of the table.
import Mathlib.Data.List.Chain
import Turnstile.Instance.Step
import Turnstile.Proofs.Table.Reach

namespace Turnstile

/-- A move of an instance: somebody posts a request, a caller gives its query up, or the body
of the task gets a stimulus. -/
inductive Move where
  | post (r : Request)
  | abandon (call : Nat)
  | stimulus (s : Stimulus)

/-- A request without the mark that it was abandoned. -/
def Request.unmarked : Request → Request
  | .query call question _ => .query call question false
  | .transition event payload => .transition event payload
  | .stop => .stop

namespace Instance

/-! ## Moves -/

/-- Makes a move. A request that the instance does not take changes nothing. -/
def move (i : Instance) : Move → Instance
  | .post r =>
    match i.post r with
    | .ok j => j
    | .error _ => i
  | .abandon call => i.abandon call
  | .stimulus s => (i.step s).1

/-- Makes moves, one after the other. -/
def after (i : Instance) (moves : List Move) : Instance := moves.foldl move i

/-- The transition that a move makes an instance accept: the transition hook, asked for one,
succeeds with a state that an edge leads to. It goes to that state with the payload that the
hook gave. -/
def accepted? (i : Instance) : Move → Option (String × Value)
  | .stimulus (.decided (.ok (.success (.text s) payload))) =>
    match i.phase with
    | .deciding .. =>
      if i.machine.table.allowed i.runState.current (.state s) then some (s, payload) else none
    | _ => none
  | _ => none

/-- The transitions that are accepted in the course of some moves, in their order. -/
def accepted (i : Instance) : List Move → List (String × Value)
  | [] => []
  | m :: moves => (i.accepted? m).toList ++ (i.move m).accepted moves

theorem after_append (i : Instance) (moves more : List Move) :
    i.after (moves ++ more) = (i.after moves).after more := List.foldl_append

/-! ## What stays -/

/-- An instance is the same one later, and its run state is now the given one. -/
structure Becomes (i j : Instance) (rs : RunState) : Prop where
  machine : j.machine = i.machine
  name : j.name = i.name
  initialPayload : j.initialPayload = i.initialPayload
  runState : j.runState = rs

theorem Becomes.refl (i : Instance) : i.Becomes i i.runState := ⟨rfl, rfl, rfl, rfl⟩

theorem Becomes.trans {i j k : Instance} {rs rs' : RunState} (h : i.Becomes j rs)
    (h' : j.Becomes k rs') : i.Becomes k rs' :=
  ⟨h'.machine.trans h.machine, h'.name.trans h.name,
    h'.initialPayload.trans h.initialPayload, h'.runState⟩

theorem post_becomes (i : Instance) (r : Request) : i.Becomes (i.move (.post r)) i.runState := by
  unfold move post
  by_cases halive : i.alive = true
  · simp only [halive, if_true]
    exact ⟨rfl, rfl, rfl, rfl⟩
  · simp only [halive, if_false, Bool.false_eq_true]
    exact .refl i

theorem abandon_becomes (i : Instance) (call : Nat) :
    i.Becomes (i.abandon call) i.runState := ⟨rfl, rfl, rfl, rfl⟩

theorem markStopped_becomes (i : Instance) (reason : StopReason) :
    i.Becomes (i.markStopped reason) i.runState := by
  unfold markStopped
  split
  · exact ⟨rfl, rfl, rfl, rfl⟩
  · exact .refl i

theorem leave_becomes (i : Instance) (ending : Ending) :
    i.Becomes (i.leave ending).1 i.runState := ⟨rfl, rfl, rfl, rfl⟩

/-- An instance that is marked as stopped and leaves the loop keeps its run state. -/
theorem stop_becomes (i : Instance) (reason : StopReason) (ending : Ending) :
    i.Becomes ((i.markStopped reason).leave ending).1 i.runState := by
  have hmark := i.markStopped_becomes reason
  have hleave := (i.markStopped reason).leave_becomes ending
  rw [hmark.runState] at hleave
  exact hmark.trans hleave

theorem crashWith_becomes (i : Instance) (fault : Fault) :
    i.Becomes (i.crashWith fault).1 i.runState := by
  have hstop := ({ i with crash := some fault } : Instance).stop_becomes .crash (.failed fault)
  exact ⟨hstop.machine, hstop.name, hstop.initialPayload, hstop.runState⟩

theorem escape_becomes (i : Instance) (fault : Fault) :
    i.Becomes (i.escape fault).1 i.runState := by
  unfold escape
  split
  · exact i.stop_becomes .killed .cancelled
  · exact i.crashWith_becomes fault

theorem reject_becomes (i : Instance) (event payload : Value) (rejection : Rejection) :
    i.Becomes (i.reject event payload rejection).1 i.runState := ⟨rfl, rfl, rfl, rfl⟩

theorem handle_becomes (i : Instance) (r : Request) : i.Becomes (i.handle r).1 i.runState := by
  cases r with
  | stop => exact i.stop_becomes .stop .returned
  | transition event payload => exact ⟨rfl, rfl, rfl, rfl⟩
  | query call question abandoned =>
    simp only [handle]
    split <;> exact .refl i

theorem report_becomes (i : Instance) (event : Value) (rejection : Rejection)
    (result : Except Fault Unit) : i.Becomes (i.report event rejection result).1 i.runState := by
  unfold report
  split
  · exact ⟨rfl, rfl, rfl, rfl⟩
  · split
    · exact i.escape_becomes _
    · exact ⟨rfl, rfl, rfl, rfl⟩

theorem terminate_becomes (i : Instance) (ending : Ending) (result : Except Fault Unit) :
    i.Becomes (i.terminate ending result).1 i.runState := by
  unfold terminate
  split
  · exact ⟨rfl, rfl, rfl, rfl⟩
  · split <;> exact ⟨rfl, rfl, rfl, rfl⟩

/-! ## One step -/

/-- The run state once a stimulus has had its effect. -/
def runStateAfter (i : Instance) (accepted : Option (String × Value)) : RunState :=
  match accepted with
  | some (state, payload) => i.runState.move state payload
  | none => i.runState

theorem decide_becomes {i : Instance} {event payload : Value}
    (hphase : i.phase = .deciding event payload) (result : Except Fault Outcome) :
    i.Becomes (i.decide event payload result).1
      (i.runStateAfter (i.accepted? (.stimulus (.decided result)))) := by
  unfold decide
  cases result with
  | error fault =>
    simp only
    split
    · exact i.escape_becomes fault
    · exact i.reject_becomes _ _ _
  | ok outcome =>
    unfold settleOutcome
    cases outcome with
    | failure reason => exact i.reject_becomes _ _ _
    | rejected rejection => exact i.reject_becomes _ _ _
    | other v => exact i.reject_becomes _ _ _
    | success target newPayload =>
      cases target with
      | text s =>
        simp only [Target.ofValue?, accepted?, hphase]
        by_cases hallowed : i.machine.table.allowed i.runState.current (.state s) = true
        · simp only [hallowed, if_true]
          exact ⟨rfl, rfl, rfl, rfl⟩
        · simp only [hallowed, if_false, Bool.false_eq_true]
          exact i.reject_becomes _ _ _
      | terminal =>
        simp only [Target.ofValue?, accepted?]
        split
        · exact i.stop_becomes .terminal .returned
        · exact i.reject_becomes _ _ _
      | _ => exact i.reject_becomes _ _ _

theorem accepted?_eq_none {i : Instance} {s : Stimulus}
    (h : ∀ event payload result, i.phase = .deciding event payload → s = .decided result → False) :
    i.accepted? (.stimulus s) = none := by
  unfold accepted?
  split
  · rename_i hs
    split
    · rename_i hphase
      exact (h _ _ _ hphase (Move.stimulus.inj hs)).elim
    · rfl
  · rfl

/-- A step changes the run state exactly where it accepts a transition. -/
theorem step_becomes (i : Instance) (s : Stimulus) :
    i.Becomes (i.step s).1 (i.runStateAfter (i.accepted? (.stimulus s))) := by
  unfold step
  split
  · exact ⟨rfl, rfl, rfl, rfl⟩
  · exact ⟨rfl, rfl, rfl, rfl⟩
  · split
    · exact .refl i
    · rename_i r rest hmailbox
      have htake : i.Becomes { i with mailbox := rest } i.runState := ⟨rfl, rfl, rfl, rfl⟩
      exact htake.trans (handle_becomes _ r)
  · exact i.stop_becomes .killed .cancelled
  · exact decide_becomes ‹_› _
  · exact i.report_becomes _ _ _
  · split
    · exact ⟨rfl, rfl, rfl, rfl⟩
    · exact i.escape_becomes _
  · exact i.terminate_becomes _ _
  · split <;> exact ⟨rfl, rfl, rfl, rfl⟩
  · rename_i hdeciding _ _ _ _
    rw [accepted?_eq_none hdeciding]
    exact .refl i

/-- A move changes the run state exactly where it makes the instance accept a transition. -/
theorem move_becomes (i : Instance) (m : Move) :
    i.Becomes (i.move m) (i.runStateAfter (i.accepted? m)) := by
  cases m with
  | post r => exact i.post_becomes r
  | abandon call => exact i.abandon_becomes call
  | stimulus s => exact i.step_becomes s

/-! ## A run -/

theorem after_machine (i : Instance) (moves : List Move) :
    (i.after moves).machine = i.machine := by
  induction moves generalizing i with
  | nil => rfl
  | cons m moves ih =>
    show ((i.move m).after moves).machine = i.machine
    rw [ih, (i.move_becomes m).machine]

theorem after_name (i : Instance) (moves : List Move) : (i.after moves).name = i.name := by
  induction moves generalizing i with
  | nil => rfl
  | cons m moves ih =>
    show ((i.move m).after moves).name = i.name
    rw [ih, (i.move_becomes m).name]

theorem after_initialPayload (i : Instance) (moves : List Move) :
    (i.after moves).initialPayload = i.initialPayload := by
  induction moves generalizing i with
  | nil => rfl
  | cons m moves ih =>
    show ((i.move m).after moves).initialPayload = i.initialPayload
    rw [ih, (i.move_becomes m).initialPayload]

/-- The run state is what the accepted transitions make of it, one after the other. -/
theorem after_runState (i : Instance) (moves : List Move) :
    (i.after moves).runState =
      (i.accepted moves).foldl (fun rs x => rs.move x.1 x.2) i.runState := by
  induction moves generalizing i with
  | nil => rfl
  | cons m moves ih =>
    have hmove := (i.move_becomes m).runState
    show ((i.move m).after moves).runState = _
    rw [ih, hmove, accepted, List.foldl_append]
    cases i.accepted? m <;> rfl

end Instance

/-! ## Paths -/

namespace RunState

/-- The states that a run state has been in, the first one first. -/
def path (rs : RunState) : List String := rs.history.reverse ++ [rs.current]

theorem move_path (rs : RunState) (state : String) (payload : Value) :
    (rs.move state payload).path = rs.path ++ [state] := by
  simp [path, move]

theorem length_history_foldl (rs : RunState) (accepted : List (String × Value)) :
    (accepted.foldl (fun rs x => rs.move x.1 x.2) rs).history.length =
      rs.history.length + accepted.length := by
  induction accepted generalizing rs with
  | nil => rfl
  | cons x accepted ih =>
    rw [List.foldl_cons, ih, List.length_cons]
    simp only [move, List.length_cons]
    omega

/-- A run state has come from the initial state of a table along its edges. -/
structure Follows (rs : RunState) (t : Table) : Prop where
  start : rs.path.head? = some t.initial
  edges : rs.path.IsChain t.Leads
  reached : ∀ s ∈ rs.path, s ∈ t.reachable

theorem follows_initial (t : Table) (payload : Value) :
    RunState.Follows ⟨t.initial, payload, []⟩ t := by
  refine ⟨rfl, List.isChain_singleton _, ?_⟩
  intro s hs
  obtain rfl : s = t.initial := by simpa [path] using hs
  exact t.initial_mem_reachable

theorem Follows.move {rs : RunState} {t : Table} (h : rs.Follows t) {state : String}
    (hlead : t.Leads rs.current state) (payload : Value) :
    (rs.move state payload).Follows t := by
  have hcurrent : rs.current ∈ t.reachable := h.reached _ (by simp [path])
  refine ⟨?_, ?_, ?_⟩
  · rw [move_path, List.head?_append, h.start]
    rfl
  · rw [move_path]
    apply h.edges.append (List.isChain_singleton _)
    intro u hu v hv
    obtain rfl : rs.current = u := by simpa [path] using hu
    obtain rfl : state = v := by simpa using hv
    exact hlead
  · intro s hs
    rw [move_path, List.mem_append, List.mem_singleton] at hs
    rcases hs with hs | rfl
    · exact h.reached s hs
    · exact hlead.mem_reachable hcurrent

end RunState

namespace Instance

theorem accepted?_leads {i : Instance} {m : Move} {state : String} {payload : Value}
    (h : i.accepted? m = some (state, payload)) :
    i.machine.table.Leads i.runState.current state := by
  unfold accepted? at h
  split at h
  · split at h
    · split at h
      · rename_i hallowed
        obtain ⟨rfl, -⟩ := Prod.mk.inj (Option.some.inj h)
        exact hallowed
      · cases h
    · cases h
  · cases h

/-- No move takes the run state off the edges of the table. -/
theorem follows_move {i : Instance} (h : i.runState.Follows i.machine.table) (m : Move) :
    (i.move m).runState.Follows (i.move m).machine.table := by
  rw [(i.move_becomes m).machine, (i.move_becomes m).runState]
  cases haccepted : i.accepted? m with
  | none => exact h
  | some x => exact h.move (accepted?_leads haccepted) x.2

theorem follows_after {i : Instance} (h : i.runState.Follows i.machine.table)
    (moves : List Move) : (i.after moves).runState.Follows (i.after moves).machine.table := by
  induction moves generalizing i with
  | nil => exact h
  | cons m moves ih => exact ih (follows_move h m)

/-- At every moment of every run, the history and the current state are a path of the table
from its initial state, all of it reachable and none of it the way out, with as many states
left as transitions were accepted. While none is accepted the run state stays, and one that is
accepted replaces all of it. -/
theorem history_is_always_a_declared_path (machine : Machine) (name payload : Value)
    (moves : List Move) :
    let start := create machine name payload
    let i := start.after moves
    let path := i.runState.history.reverse ++ [i.runState.current]
    path.head? = some machine.table.initial ∧
    path.IsChain (fun u v => machine.table.allowed u (.state v) = true) ∧
    (∀ s ∈ path, s ∈ machine.table.reachable) ∧
    (∀ s ∈ path, Target.state s ≠ .terminal) ∧
    i.runState.history.length = (start.accepted moves).length ∧
    (∀ more, i.accepted more = [] → (i.after more).runState = i.runState) ∧
    (∀ m state newPayload, i.accepted? m = some (state, newPayload) →
      (i.move m).runState = ⟨state, newPayload, i.runState.current :: i.runState.history⟩) := by
  intro start i path
  have hmachine : i.machine = machine := start.after_machine moves
  have hfollows := follows_after (i := start)
    (RunState.follows_initial machine.table payload) moves
  rw [show (start.after moves).machine = machine from hmachine] at hfollows
  refine ⟨hfollows.start, hfollows.edges, hfollows.reached, ?_, ?_, ?_, ?_⟩
  · intro s _ h
    cases h
  · have hcount := RunState.length_history_foldl start.runState (start.accepted moves)
    have hempty : start.runState.history.length = 0 := rfl
    rw [← after_runState, hempty, Nat.zero_add] at hcount
    exact hcount
  · intro more hnone
    rw [after_runState, hnone]
    rfl
  · intro m state newPayload haccepted
    rw [(i.move_becomes m).runState, haccepted]
    rfl

/-- An instance whose hook, once asked, answers with the only state that an edge leads to. -/
theorem an_instance_takes_its_only_edge :
    let machine := Machine.ofTable "m" ⟨"a", [⟨"a", "go", .state "b"⟩], ["enter"]⟩ {}
    let i := (create machine (.text "x") .null).after
      [.stimulus .start, .stimulus (.published (.ok ())),
        .post (.transition (.text "go") .null), .stimulus .receive]
    let m := Move.stimulus (.decided (.ok (.success (.text "b") (.text "p"))))
    i.accepted? m = some ("b", .text "p") ∧ (i.move m).runState = ⟨"b", .text "p", ["a"]⟩ := by
  intro machine i m
  have haccepted : i.accepted? m = some ("b", .text "p") := rfl
  have hlaw := history_is_always_a_declared_path machine (.text "x") .null
    [.stimulus .start, .stimulus (.published (.ok ())),
      .post (.transition (.text "go") .null), .stimulus .receive]
  exact ⟨haccepted, hlaw.2.2.2.2.2.2 m _ _ haccepted⟩

end Instance
end Turnstile
