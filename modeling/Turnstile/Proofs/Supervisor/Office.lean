-- The queue, the tasks that it lets run, and the calls that wait for them, without what the tasks
-- are about: the moves of a host as they are seen from the queue.
import Mathlib.Data.List.Perm.Basic
import Turnstile.Supervisor.Step

namespace Turnstile

/-- What the queue knows of a task: whether it runs, whether its instance takes requests although
its body is not in the loop, whether its body stands at an empty mailbox, and who waits for its
end. -/
structure Sign where
  run : TaskRun
  supervised : Bool
  outside : Bool
  hungry : Bool
  watchers : List Nat

/-- The sign of a task that has just come. -/
def Sign.new (run : TaskRun) (supervised : Bool) : Sign where
  run := run
  supervised := supervised
  outside := true
  hungry := false
  watchers := []

/-- The task that a call waits for or stops. -/
def Call.target? (call : Call) : Option Nat :=
  match call.stage with
  | .exit t | .closing t _ | .window t _ | .forced t => some t
  | .reply .. | .join .. => none

/-- The task of whose end a call is told. -/
def Call.watches? (call : Call) : Option Nat :=
  match call.stage with
  | .exit t | .window t _ | .forced t => some t
  | .reply .. | .closing .. | .join .. => none

structure Office where
  signs : List Sign
  calls : List Call
  queue : List Job
  timers : List Job
  running : Option Nat

namespace Office

def setSign (o : Office) (t : Nat) (s : Sign) : Office := { o with signs := o.signs.set t s }

def setCall (o : Office) (c : Nat) (call : Call) : Office := { o with calls := o.calls.set c call }

def push (o : Office) (j : Job) : Office := { o with queue := o.queue ++ [j] }

/-- The task of a number has ended. -/
def Ended (o : Office) (t : Nat) : Prop := ∀ s, o.signs[t]? = some s → s.run = .ended

/-- A job that does nothing, as things stand. -/
def Moot (o : Office) : Job → Prop
  | .resume t => ∀ s cancelled, o.signs[t]? = some s → s.run ≠ .queued cancelled
  | .proceed c => ∀ call cancelled, o.calls[c]? = some call → call.run ≠ .queued cancelled
  | .taskEnded c | .close c => ∀ call cancelled, o.calls[c]? = some call →
    call.run ≠ .waiting cancelled
  | .joined p _ => ∀ call children left cancelled, o.calls[p]? = some call →
    call.stage = .join children left → call.run ≠ .waiting cancelled
  | .exited _ | .wake .. | .announce .. => True

/-- A job that no call waits for. -/
def Plain : Job → Prop
  | .wake .. | .announce .. => True
  | _ => False

/-- A call that has just come. -/
inductive Comes (o : Office) : Call → Prop where
  | ask (t : Nat) : Comes o ⟨none, .reply t none, .waiting false⟩
  | refused (t : Nat) (fault : Fault) : Comes o ⟨none, .reply t none, .done (.error fault)⟩
  | wait {t : Nat} {s : Sign} (hs : o.signs[t]? = some s) :
    Comes o ⟨none, .exit t, .waiting false⟩
  | stop {t : Nat} {s : Sign} (hs : o.signs[t]? = some s) (hsupervised : s.supervised = true)
    (timeout : Number) : Comes o ⟨none, .closing t timeout, .waiting false⟩

/-- What a call may return at its stage, so that it returns no fault. -/
def Settles (o : Office) : Stage → Prop
  | .window t _ => o.Ended t
  | .closing .. => False
  | .reply .. | .exit _ | .forced _ | .join .. => True

/-- The call of a shutdown that stops one task. -/
def guard (p : Nat) (timeout : Number) (t : Nat) : Call :=
  ⟨some p, .closing t timeout, .queued false⟩

/-- A call returns: a shutdown that made it is told. -/
def report (call : Call) (result : Except Fault CallAnswer) : List Job :=
  match call.parent with
  | some p => [.joined p (match result with | .ok _ => false | .error _ => true)]
  | none => []

/-! ## Moves -/

/-- What may happen, as it is seen from the queue. -/
inductive Move (o : Office) : Office → Prop where
  /-- The instance of a task changes. -/
  | change {t : Nat} {s s' : Sign} (hs : o.signs[t]? = some s) (hrun : s'.run = s.run)
    (hsupervised : s'.supervised = s.supervised) (hwatchers : s'.watchers = s.watchers)
    (houtside : s'.outside = true → s.outside = true)
    (hhungry : s.run = .receiving → s.hungry = true → s'.hungry = true) :
    Move o (o.setSign t s')
  /-- The running task waits. -/
  | halt {t : Nat} {s : Sign} (hs : o.signs[t]? = some s) (hgoing : s.run ≠ .ended)
    (hinside : s.outside = false) (hmine : ∀ u, o.running = some u → u = t) {run : TaskRun}
    (hrun : run = .receiving ∧ s.hungry = true ∨ ∃ serial, run = .paused serial) :
    Move o { o.setSign t { s with run := run } with running := none }
  /-- The running task lets others run first. -/
  | yield {t : Nat} {s : Sign} (hs : o.signs[t]? = some s) (hgoing : s.run ≠ .ended)
    (hinside : s.outside = false) (hmine : ∀ u, o.running = some u → u = t) :
    Move o { (o.setSign t { s with run := .queued false }).push (.resume t) with running := none }
  /-- A task that waits, or was never started, is queued. -/
  | wake {t : Nat} {s : Sign} (hs : o.signs[t]? = some s)
    (hrun : s.run = .receiving ∨ s.run = .absent ∨ ∃ serial, s.run = .paused serial)
    (cancelled hungry : Bool) :
    Move o ((o.setSign t { s with run := .queued cancelled, hungry := hungry }).push (.resume t))
  | cancelQueued {t : Nat} {s : Sign} {cancelled : Bool} (hs : o.signs[t]? = some s)
    (hrun : s.run = .queued cancelled) : Move o (o.setSign t { s with run := .queued true })
  | resume {t : Nat} {s : Sign} {cancelled : Bool} {rest : List Job} (hs : o.signs[t]? = some s)
    (hrun : s.run = .queued cancelled) (hrunning : o.running = none)
    (hqueue : o.queue = .resume t :: rest) :
    Move o { o.setSign t { s with run := .active } with queue := rest, running := some t }
  | finish {t : Nat} {s : Sign} (hs : o.signs[t]? = some s) (hrun : s.run = .active)
    (hrunning : o.running = some t) :
    Move o { o.setSign t { s with run := .ended, watchers := [] } with
      queue := o.queue ++ (if s.supervised then [.exited t] else []) ++ s.watchers.map .taskEnded
      running := none }
  | create : Move o { o with signs := o.signs ++ [Sign.new .absent false] }
  | spawn : Move o
    ({ o with signs := o.signs ++ [Sign.new (.queued false) true] }.push (.resume o.signs.length))
  | drop {j : Job} {rest : List Job} (hqueue : o.queue = j :: rest) (hmoot : o.Moot j) :
    Move o { o with queue := rest }
  | push {j : Job} (hplain : Plain j) : Move o (o.push j)
  | timer {j : Job} {timers : List Job} (hplain : Plain j) (hperm : timers.Perm (j :: o.timers)) :
    Move o { o with timers := timers }
  | turn {due rest : List Job} (hperm : o.timers.Perm (due ++ rest)) :
    Move o { o with queue := o.queue ++ due, timers := rest }
  | call {call : Call} (hcomes : o.Comes call) : Move o { o with calls := o.calls ++ [call] }
  | shutdown {tasks : List Nat} (timeout : Number)
    (htasks : ∀ t ∈ tasks, ∃ s, o.signs[t]? = some s ∧ s.supervised = true) :
    Move o { o with
      calls := o.calls ++
        ⟨none, .join (List.range' (o.calls.length + 1) tasks.length) tasks.length,
          .waiting false⟩ :: tasks.map (guard o.calls.length timeout)
      queue := o.queue ++ (List.range' (o.calls.length + 1) tasks.length).map .proceed }
  | watch {c t : Nat} {call : Call} {s : Sign} (hcall : o.calls[c]? = some call)
    (hwatches : call.watches? = some t) (hs : o.signs[t]? = some s) (hgoing : s.run ≠ .ended) :
    Move o (o.setSign t { s with watchers := s.watchers ++ [c] })
  | watchEnded {c t : Nat} {call : Call} (hcall : o.calls[c]? = some call)
    (hwatches : call.watches? = some t) (hended : o.Ended t) : Move o (o.push (.taskEnded c))
  | unwatch {t : Nat} {s : Sign} (hs : o.signs[t]? = some s) (c : Nat) :
    Move o (o.setSign t { s with watchers := s.watchers.filter (· ≠ c) })
  | openWindow {c t : Nat} {call : Call} {timeout : Number} {timers rest : List Job}
    (hcall : o.calls[c]? = some call) (hstage : call.stage = .closing t timeout)
    (hrun : (∃ cancelled, call.run = .waiting cancelled) ∧ rest = o.queue ∨
      call.run = .queued false ∧ o.running = none ∧ o.queue = .proceed c :: rest)
    (hperm : timers.Perm (.close c :: o.timers)) :
    Move o { o.setCall c { call with stage := .window t timeout, run := .waiting false } with
      queue := rest, timers := timers }
  | dropTimers (keep : Job → Bool) : Move o { o with timers := o.timers.filter keep }
  | release {c : Nat} {call : Call} {cancelled : Bool} {rest : List Job}
    (hcall : o.calls[c]? = some call) (hrun : call.run = .waiting cancelled)
    (hrunning : o.running = none)
    (hqueue : o.queue = .taskEnded c :: rest ∨ o.queue = .close c :: rest) :
    Move o { o.setCall c { call with run := .queued cancelled } with
      queue := rest ++ [.proceed c] }
  | settle {c : Nat} {call : Call} {cancelled : Bool} {rest : List Job}
    {result : Except Fault CallAnswer} (hcall : o.calls[c]? = some call)
    (hrun : call.run = .queued cancelled) (hrunning : o.running = none)
    (hqueue : o.queue = .proceed c :: rest)
    (hok : ∀ a, result = .ok a → cancelled = false ∧ o.Settles call.stage) :
    Move o { o.setCall c { call with run := .done result } with
      queue := rest ++ report call result }
  | force {c t : Nat} {call : Call} {timeout : Number} {rest : List Job}
    (hcall : o.calls[c]? = some call) (hstage : call.stage = .window t timeout)
    (hrun : call.run = .queued false) (hrunning : o.running = none)
    (hqueue : o.queue = .proceed c :: rest)
    (hgoing : ¬o.Ended t) :
    Move o { o.setCall c { call with stage := .forced t, run := .waiting false } with
      queue := rest }
  | join {p : Nat} {call : Call} {children : List Nat} {left : Nat} {requested cancelled : Bool}
    {rest : List Job} (hcall : o.calls[p]? = some call) (hstage : call.stage = .join children left)
    (hrun : call.run = .waiting requested) (hrunning : o.running = none)
    (hqueue : o.queue = .joined p cancelled :: rest) (hleft : cancelled = false ∧ 1 < left) :
    Move o { o.setCall p { call with
      stage := .join children (left - 1), run := .waiting requested } with queue := rest }
  | joinLast {p : Nat} {call : Call} {children : List Nat} {left : Nat} {requested cancelled : Bool}
    {rest : List Job} (hcall : o.calls[p]? = some call) (hstage : call.stage = .join children left)
    (hrun : call.run = .waiting requested) (hrunning : o.running = none)
    (hqueue : o.queue = .joined p cancelled :: rest) (hleft : cancelled = true ∨ left ≤ 1) :
    Move o { o.setCall p { call with
      stage := .join children (left - 1), run := .queued (requested || cancelled) } with
      queue := rest ++ [.proceed p] }
  | callOff {c : Nat} {call : Call} {cancelled : Bool} (hcall : o.calls[c]? = some call)
    (hrun : call.run = .waiting cancelled) :
    Move o ((o.setCall c { call with run := .queued true }).push (.proceed c))
  | callOffQueued {c : Nat} {call : Call} {cancelled : Bool} (hcall : o.calls[c]? = some call)
    (hrun : call.run = .queued cancelled) : Move o (o.setCall c { call with run := .queued true })
  | callOffLater {c : Nat} {call : Call} {cancelled : Bool} (hcall : o.calls[c]? = some call)
    (hrun : call.run = .waiting cancelled) :
    Move o (o.setCall c { call with run := .waiting true })
  | reply {c t : Nat} {call : Call} {cancelled : Bool} (hcall : o.calls[c]? = some call)
    (hstage : call.stage = .reply t none) (hrun : call.run = .waiting cancelled)
    (result : Except Fault Answer) :
    Move o ((o.setCall c { call with
      stage := .reply t (some result), run := .queued cancelled }).push (.proceed c))

abbrev Moves := Relation.ReflTransGen Move

end Office
end Turnstile
