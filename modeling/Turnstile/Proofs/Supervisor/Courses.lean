-- What a request for a transition may come to: the transition is committed, the instance takes the
-- edge out, the request is rejected, or exhaustion crashes the instance. Each time it is just one of
-- these, as a whole, whatever the hooks answer and whatever arrives in the meantime.
import Turnstile.Proofs.Instance.Chronicle
import Turnstile.Proofs.Supervisor.Contained

namespace Turnstile

/-! ## The way of a request -/

/-- What the body is given where it waits: the result of the transition hook, that of the failure
hook, and what the publication to a bus comes to whose subscribers answer with no cancellation. -/
inductive Answers (result : Except Fault Outcome) (reply : Except Fault Unit) :
    Phase → Stimulus → Prop where
  | decided (event payload : Value) : Answers result reply (.deciding event payload) (.decided result)
  | handled (event payload : Value) (rejection : Rejection) :
    Answers result reply (.reporting event payload rejection) (.handled reply)
  | told (h : Host) (scope : Option Value) (n : Notification) (hspares : h.Spares n) :
    Answers result reply .publishing (.published (h.publish scope n).2)

/-- The body has nothing of the request left to do: it is back at its mailbox, or has left the
loop. -/
def Phase.IsOver (phase : Phase) : Prop := phase = .idle ∨ phase.isOut = true

namespace Instance

/-- What is published in a move. -/
def noticesOf (i : Instance) : Move → List Notification
  | .stimulus s => publications (i.step s).2
  | .post _ | .abandon _ => []

/-- What is published in the course of some moves, in its order. -/
def noticesDuring (i : Instance) : List Move → List Notification
  | [] => []
  | m :: moves => i.noticesOf m ++ (i.move m).noticesDuring moves

/-- An instance with other requests in its mailbox. -/
def holding (i : Instance) (mailbox : List Request) : Instance := { i with mailbox := mailbox }

end Instance

/-! ## What a request may come to -/

/-- Why a request is rejected: the transition hook raised an ordinary fault, returned what is no
success, or named a target that no edge leads to. -/
inductive Refusal (t : Table) (state : String) (event : Value) :
    Except Fault Outcome → Rejection → Prop where
  | raised {fault : Fault} (hordinary : fault.Ordinary) :
    Refusal t state event (.error fault) (.raised event (.text state) fault)
  | rejected (rejection : Rejection) : Refusal t state event (.ok (.rejected rejection)) rejection
  | failed (reason : Value) :
    Refusal t state event (.ok (.failure reason)) (.refused event (.text state) reason)
  | other (v : Value) : Refusal t state event (.ok (.other v)) (.refused event (.text state) v)
  | undeclared {target payload : Value} (hallowed : t.allowedValue (.text state) target = false) :
    Refusal t state event (.ok (.success target payload)) (.undeclared event (.text state) target)

section
variable (i : Instance) (event payload : Value) (result : Except Fault Outcome)
  (reply : Except Fault Unit) (moves : List Move)

/-- The hook named a state that an edge leads to, and the instance moved there. -/
structure Committed : Prop where
  outcome : ∃ s p, result = .ok (.success (.text s) p) ∧
    i.machine.table.allowed i.runState.current (.state s) = true ∧
    (∃ box, i.after moves =
      { i with runState := ⟨s, p, i.runState.current :: i.runState.history⟩, mailbox := box }) ∧
    i.noticesDuring moves = [.transitioned i.name event i.runState.current s]
  calls : i.callsDuring moves = [.transition (i.transitionCall event payload)]

/-- The hook named the terminal marker, an edge leads out, and the instance stopped. -/
structure TookTheWayOut : Prop where
  outcome : ∃ p, result = .ok (.success .terminal p)
  allowed : i.machine.table.allowed i.runState.current .terminal = true
  final : ∃ box, i.after moves = { i with
    alive := false, stopReason := some .terminal, phase := .terminating .returned, mailbox := box }
  notices : i.noticesDuring moves = []
  calls : i.callsDuring moves =
    [.transition (i.transitionCall event payload), .terminate i.runState]

/-- The request was refused and the failure hook called once; the refusal was published, and the
instance is as before. -/
structure Rejected : Prop where
  refusal : ∃ rejection, Refusal i.machine.table i.runState.current event result rejection ∧
    i.noticesDuring moves = [.rejected i.name event i.runState.current rejection]
  contained : ∀ fault, reply = .error fault → fault.Ordinary
  final : ∃ box, i.after moves = { i with mailbox := box }
  calls : i.callsDuring moves =
    [.transition (i.transitionCall event payload), .failure ⟨event, payload, i.runState⟩]

/-- One of the hooks was exhausted, and the instance crashed with its run state as before. -/
structure Crashed : Prop where
  exhausted : ∃ fault, fault.isExhaustion = true ∧
    (∃ box, i.after moves = { i with
      alive := false, stopReason := some .crash, crash := some fault,
      phase := .terminating (.failed fault), mailbox := box }) ∧
    (result = .error fault ∧
        i.callsDuring moves =
          [.transition (i.transitionCall event payload), .terminate i.runState] ∨
      reply = .error fault ∧
        (∃ rejection, Refusal i.machine.table i.runState.current event result rejection) ∧
        i.callsDuring moves = [.transition (i.transitionCall event payload),
          .failure ⟨event, payload, i.runState⟩, .terminate i.runState])
  notices : i.noticesDuring moves = []

end

inductive Course where
  | committed
  | tookTheWayOut
  | rejected
  | crashed

/-- A request has taken a course in some moves. -/
def Course.Holds (course : Course) (i : Instance) (event payload : Value)
    (result : Except Fault Outcome) (reply : Except Fault Unit) (moves : List Move) : Prop :=
  match course with
  | .committed => Committed i event payload result moves
  | .tookTheWayOut => TookTheWayOut i event payload result moves
  | .rejected => Rejected i event payload result reply moves
  | .crashed => Crashed i event payload result reply moves

variable {result : Except Fault Outcome} {reply : Except Fault Unit} {i : Instance}
  {moves arrivals : List Move} {event payload : Value}

namespace Instance

/-! ## Arrivals -/

/-- What some moves of an instance come to: the instance that they lead to, but for its mailbox, the
hooks that are called, and what is published. -/
structure Comes (i : Instance) (moves : List Move) (final : Instance) (called : List HookCall)
    (notices : List Notification) : Prop where
  after : ∃ box, i.after moves = final.holding box
  calls : i.callsDuring moves = called
  notices : i.noticesDuring moves = notices

theorem Comes.final {final final' : Instance} {called : List HookCall}
    {notices : List Notification} (h : i.Comes moves final called notices)
    (hsame : ∀ box, final.holding box = final'.holding box) : i.Comes moves final' called notices := by
  obtain ⟨⟨box, hafter⟩, hcalls, hnotices⟩ := h
  exact ⟨⟨box, hafter.trans (hsame box)⟩, hcalls, hnotices⟩

/-- What a step comes to: the next instance, the hooks that are called, and what is published. -/
structure Yields (next : Instance × List Effect) (j : Instance) (called : List HookCall)
    (notices : List Notification) : Prop where
  inst : next.1 = j
  calls : Turnstile.calls next.2 = called
  notices : publications next.2 = notices

theorem Yields.comes {s : Stimulus} {j final : Instance} {first called : List HookCall}
    {told notices : List Notification} (h : Yields (i.step s) j first told)
    (hmore : j.Comes moves final called notices) :
    i.Comes (.stimulus s :: moves) final (first ++ called) (told ++ notices) := by
  obtain ⟨rfl, rfl, rfl⟩ := h
  obtain ⟨hafter, rfl, rfl⟩ := hmore
  exact ⟨hafter, rfl, rfl⟩

/-- An instance that has left the loop for a reason. -/
def halted (i : Instance) (reason : StopReason) (ending : Ending) : Instance :=
  { i with alive := false, stopReason := some reason, phase := .terminating ending }

end Instance

/-! ## The stages of a request -/

theorem Answers.waits {phase : Phase} {s : Stimulus} (h : Answers result reply phase s) :
    ¬phase.IsOver := by
  rintro (rfl | hout)
  · cases h
  · cases h <;> cases hout

section
variable {rejection : Rejection}

/-- What the transition hook comes to, if it is not cancelled. -/
theorem refusal_or (t : Table) (state : String) (event : Value) (hresult : Uncancelled result) :
    (∃ s p, result = .ok (.success (.text s) p) ∧ t.allowed state (.state s) = true) ∨
      (∃ p, result = .ok (.success .terminal p) ∧ t.allowed state .terminal = true) ∨
      (∃ rejection, Refusal t state event result rejection) ∨
      ∃ fault, result = .error fault ∧ fault.isExhaustion = true := by
  cases result with
  | error fault =>
    cases hexhausted : fault.isExhaustion with
    | true => exact .inr (.inr (.inr ⟨fault, rfl, hexhausted⟩))
    | false => exact .inr (.inr (.inl ⟨_, .raised ⟨hresult fault rfl, hexhausted⟩⟩))
  | ok outcome =>
    cases outcome with
    | rejected rejection => exact .inr (.inr (.inl ⟨_, .rejected rejection⟩))
    | failure reason => exact .inr (.inr (.inl ⟨_, .failed reason⟩))
    | other v => exact .inr (.inr (.inl ⟨_, .other v⟩))
    | success target p =>
      cases hallowed : t.allowedValue (.text state) target with
      | false => exact .inr (.inr (.inl ⟨_, .undeclared hallowed⟩))
      | true =>
        cases target with
        | text s => exact .inl ⟨s, p, rfl, hallowed⟩
        | terminal => exact .inr (.inl ⟨p, rfl, hallowed⟩)
        | _ => cases hallowed

namespace Instance

theorem settleOutcome_undeclared (i : Instance) (event payload : Value) {target : Value} (p : Value)
    (hallowed : i.machine.table.allowedValue (.text i.runState.current) target = false) :
    i.settleOutcome event payload (.success target p) =
      i.reject event payload (.undeclared event (.text i.runState.current) target) := by
  cases target with
  | text s =>
    replace hallowed : i.machine.table.allowed i.runState.current (.state s) = false := hallowed
    simp [settleOutcome, Target.ofValue?, hallowed]
  | terminal =>
    replace hallowed : i.machine.table.allowed i.runState.current .terminal = false := hallowed
    simp [settleOutcome, Target.ofValue?, hallowed]
  | _ => rfl

end Instance

end

end Turnstile
