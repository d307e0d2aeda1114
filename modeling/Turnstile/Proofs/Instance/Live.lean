-- A live instance: the body of its task, hooks that answer by what they are told now and were
-- told before, and callers that come at any moment.
import Turnstile.Proofs.Instance.Moves
import Turnstile.Proofs.Instance.Serial

namespace Turnstile

open Serial

/-- An instance with the answer that its body waits for, the calls of its hooks so far, what was
seen of it, the requests that it accepted, and the queries that were given up. -/
structure Live where
  inst : Instance
  awaited : Stimulus := .start
  past : HookPast := []
  seen : List Sight := []
  accepted : List Request := []
  gaveUp : List Nat := []

/-- What happens next: a caller asks for something, a caller gives its query up, or the body of
the task moves on. -/
inductive Happening where
  | send (event payload : Value)
  | query (call : Nat) (question : Question)
  | requestStop
  | giveUp (call : Nat)
  | proceed

/-- A result that is no cancellation. -/
def Uncancelled {α : Type} (result : Except Fault α) : Prop :=
  ∀ fault, result = .error fault → fault.isCancellation = false

/-- Hooks that never answer with a cancellation. -/
structure BoundHooks.NeverCancel (hooks : BoundHooks) : Prop where
  onTransition : ∀ past call, Uncancelled (hooks.onTransition.react past call).result
  onFailure : ∀ past call, Uncancelled (hooks.onFailure.react past call).result
  onTerminate : ∀ past runState, Uncancelled (hooks.onTerminate.react past runState).result

namespace Live

/-- A new instance that nobody has asked for anything. -/
def create (machine : Machine) (name payload : Value) : Live :=
  { inst := .create machine name payload }

/-- A request arrives. An instance that stopped does not take it. -/
def arrive (l : Live) (r : Request) : Live :=
  match l.inst.post r with
  | .ok inst => { l with inst := inst, accepted := l.accepted ++ [r] }
  | .error _ => l

/-- Carries out what the body wants done. Hooks answer by their own past. -/
def perform (l : Live) : Effect → Live
  | .log .. => l
  | .askTransition call =>
    { l with
      awaited := .decided (l.inst.machine.hooks.onTransition.react l.past call).result
      past := (l.inst.name, .transition call) :: l.past
      seen := l.seen ++ [.called (.transition call)] }
  | .askFailure call =>
    { l with
      awaited := .handled (l.inst.machine.hooks.onFailure.react l.past call).result
      past := (l.inst.name, .failure call) :: l.past
      seen := l.seen ++ [.called (.failure call)] }
  | .askTerminate runState =>
    { l with
      awaited := .handled (l.inst.machine.hooks.onTerminate.react l.past runState).result
      past := (l.inst.name, .terminate runState) :: l.past
      seen := l.seen ++ [.called (.terminate runState)] }
  | .publish n => { l with awaited := .published (.ok ()), seen := l.seen ++ [.published n] }
  | .answer call result => { l with seen := l.seen ++ [.answered call result] }

/-- The run state that an instance has committed since, which shows in its history. -/
def commits (i j : Instance) : List Sight :=
  if i.runState.history.length < j.runState.history.length then [.committed j.runState] else []

/-- The instance becomes another one, and effects are carried out. -/
def become (l : Live) (next : Instance × List Effect) : Live :=
  next.2.foldl perform { l with inst := next.1, seen := l.seen ++ commits l.inst next.1 }

/-- The body of the task moves on: it begins, looks into its mailbox, or gets the answer that it
waits for. -/
def proceed (l : Live) : Live :=
  match l.inst.phase with
  | .fresh => l.become (l.inst.step .start)
  | .idle => l.become (l.inst.step .receive)
  | .finished _ => l
  | _ => l.become (l.inst.step l.awaited)

def happen (l : Live) : Happening → Live
  | .send event payload => l.arrive (.transition event payload)
  | .query call question => l.arrive (.query call question false)
  | .requestStop => l.arrive .stop
  | .giveUp call => { l with inst := l.inst.abandon call, gaveUp := call :: l.gaveUp }
  | .proceed => l.proceed

def run (l : Live) (happenings : List Happening) : Live := happenings.foldl happen l

/-- Nothing is left to do: the mailbox is empty and nothing is going on, or the task is over. -/
def AtRest (l : Live) : Prop :=
  (l.inst.phase = .idle ∧ l.inst.mailbox = []) ∨ ∃ ending, l.inst.phase = .finished ending

/-! ## Where the body stands -/

/-- What is true of an instance wherever its body stands: it takes requests until it leaves the
loop, its mailbox is empty from then on, and the awaited answer is of the right kind. -/
def Stands (l : Live) : Prop :=
  match l.inst.phase with
  | .fresh | .idle => l.inst.alive = true
  | .deciding .. =>
    l.inst.alive = true ∧ ∃ result, l.awaited = .decided result ∧ Uncancelled result
  | .reporting .. =>
    l.inst.alive = true ∧ ∃ result, l.awaited = .handled result ∧ Uncancelled result
  | .publishing => l.inst.alive = true ∧ l.awaited = .published (.ok ())
  | .terminating _ => l.inst.alive = false ∧ l.inst.mailbox = [] ∧
    ∃ result, l.awaited = .handled result ∧ Uncancelled result
  | .announcing _ => l.inst.alive = false ∧ l.inst.mailbox = [] ∧ l.awaited = .published (.ok ())
  | .finished _ => l.inst.alive = false ∧ l.inst.mailbox = []

/-- A query in the mailbox that is marked as abandoned was given up. -/
def Noted (l : Live) : Prop :=
  ∀ call question, .query call question true ∈ l.inst.mailbox → call ∈ l.gaveUp

/-! ## How the body moves on -/

variable {l : Live} {event payload : Value} {ending : Ending}

/-- An instance that keeps its run state commits nothing. -/
theorem become_same {l : Live} {next : Instance × List Effect}
    (h : next.1.runState = l.inst.runState) :
    l.become next = next.2.foldl perform { l with inst := next.1 } := by
  unfold become commits
  simp [h]

theorem foldl_perform_inst (effects : List Effect) (l : Live) :
    (effects.foldl perform l).inst = l.inst := by
  induction effects generalizing l with
  | nil => rfl
  | cons e effects ih =>
    rw [List.foldl_cons, ih]
    cases e <;> rfl

theorem become_inst (l : Live) (next : Instance × List Effect) :
    (l.become next).inst = next.1 := by
  unfold become
  rw [foldl_perform_inst]

theorem proceed_fresh (hphase : l.inst.phase = .fresh) : l.proceed = l.become l.inst.begin := by
  unfold proceed Instance.step
  rw [hphase]

theorem proceed_waiting (hphase : l.inst.phase = .idle) (hmailbox : l.inst.mailbox = []) :
    l.proceed = l := by
  have hstep : l.inst.step .receive = (l.inst, []) := by
    unfold Instance.step
    simp only [hphase, hmailbox]
  unfold proceed
  rw [hphase, hstep]
  exact become_same rfl

theorem proceed_receiving {r : Request} {rest : List Request} (hphase : l.inst.phase = .idle)
    (hmailbox : l.inst.mailbox = r :: rest) :
    l.proceed = l.become ({ l.inst with mailbox := rest }.handle r) := by
  have hstep : l.inst.step .receive = { l.inst with mailbox := rest }.handle r := by
    unfold Instance.step
    simp only [hphase, hmailbox]
  rw [← hstep]
  unfold proceed
  rw [hphase]

theorem proceed_deciding {result : Except Fault Outcome}
    (hphase : l.inst.phase = .deciding event payload) (hawaited : l.awaited = .decided result) :
    l.proceed = l.become (l.inst.decide event payload result) := by
  unfold proceed Instance.step
  rw [hphase, hawaited]

theorem proceed_reporting {rejection : Rejection} {result : Except Fault Unit}
    (hphase : l.inst.phase = .reporting event payload rejection)
    (hawaited : l.awaited = .handled result) :
    l.proceed = l.become (l.inst.report event rejection result) := by
  unfold proceed Instance.step
  rw [hphase, hawaited]

theorem proceed_publishing (hphase : l.inst.phase = .publishing)
    (hawaited : l.awaited = .published (.ok ())) :
    l.proceed = { l with inst := { l.inst with phase := .idle } } := by
  have hstep : l.inst.step l.awaited = ({ l.inst with phase := .idle }, []) := by
    unfold Instance.step
    simp only [hphase, hawaited]
  unfold proceed
  simp only [hphase]
  rw [hstep]
  exact become_same rfl

theorem proceed_terminating {result : Except Fault Unit}
    (hphase : l.inst.phase = .terminating ending) (hawaited : l.awaited = .handled result) :
    l.proceed = l.become (l.inst.terminate ending result) := by
  unfold proceed Instance.step
  rw [hphase, hawaited]

theorem proceed_announcing (hphase : l.inst.phase = .announcing ending)
    (hawaited : l.awaited = .published (.ok ())) :
    l.proceed = { l with inst := { l.inst with phase := .finished ending } } := by
  have hstep : l.inst.step l.awaited = ({ l.inst with phase := .finished ending }, []) := by
    unfold Instance.step
    simp only [hphase, hawaited]
  unfold proceed
  simp only [hphase]
  rw [hstep]
  exact become_same rfl

theorem proceed_finished (hphase : l.inst.phase = .finished ending) : l.proceed = l := by
  unfold proceed
  rw [hphase]

/-! ## A run -/

theorem run_append (l : Live) (happenings more : List Happening) :
    l.run (happenings ++ more) = (l.run happenings).run more := List.foldl_append

/-- All that happens comes to the instance as moves. -/
theorem happen_inst (l : Live) (happening : Happening) :
    ∃ moves, (l.happen happening).inst = l.inst.after moves := by
  have harrive : ∀ r, ∃ moves, (l.arrive r).inst = l.inst.after moves := by
    intro r
    refine ⟨[.post r], ?_⟩
    show (l.arrive r).inst = l.inst.move (.post r)
    simp only [arrive, Instance.move]
    cases l.inst.post r <;> rfl
  cases happening with
  | send event payload => exact harrive _
  | query call question => exact harrive _
  | requestStop => exact harrive _
  | giveUp call => exact ⟨[.abandon call], rfl⟩
  | proceed =>
    show ∃ moves, l.proceed.inst = l.inst.after moves
    unfold proceed
    split
    · exact ⟨[.stimulus .start], become_inst l _⟩
    · exact ⟨[.stimulus .receive], become_inst l _⟩
    · exact ⟨[], rfl⟩
    · exact ⟨[.stimulus l.awaited], become_inst l _⟩

theorem run_inst (l : Live) (happenings : List Happening) :
    ∃ moves, (l.run happenings).inst = l.inst.after moves := by
  induction happenings generalizing l with
  | nil => exact ⟨[], rfl⟩
  | cons happening happenings ih =>
    obtain ⟨moves, hmoves⟩ := happen_inst l happening
    obtain ⟨more, hmore⟩ := ih (l.happen happening)
    refine ⟨moves ++ more, ?_⟩
    show ((l.happen happening).run happenings).inst = _
    rw [hmore, hmoves, Instance.after_append]

theorem run_name (l : Live) (happenings : List Happening) :
    (l.run happenings).inst.name = l.inst.name := by
  obtain ⟨moves, hmoves⟩ := run_inst l happenings
  rw [hmoves, Instance.after_name]

end Live
end Turnstile
