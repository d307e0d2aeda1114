-- A supervisor of one name: what a host is to a name, with its instances and questions counted among
-- their own. A host is seen to be one such supervisor for each name, which share the world they
-- live in and nothing else.
import Turnstile.Proofs.Instance.Renumbered
import Turnstile.Supervisor.Calls

namespace Turnstile

/-! ## Places -/

section
variable {α : Type} {p : α → Bool} {l : List α} {x y : α} {i k : Nat}

/-- How many that count stand before a place. -/
def rank (p : α → Bool) (l : List α) (i : Nat) : Nat := (l.take i).countP p

/-- The place of one that counts. -/
def nth? (p : α → Bool) : List α → Nat → Option Nat
  | [], _ => none
  | x :: l, k =>
    if p x then
      match k with
      | 0 => some 0
      | k + 1 => (nth? p l k).map (· + 1)
    else (nth? p l k).map (· + 1)

theorem rank_cons (x : α) (l : List α) (i : Nat) :
    rank p (x :: l) (i + 1) = rank p l i + if p x then 1 else 0 := by
  simp [rank, List.countP_cons]

theorem rank_append (l more : List α) (h : i ≤ l.length) : rank p (l ++ more) i = rank p l i := by
  unfold rank
  rw [List.take_append_of_le_length h]

theorem rank_length (l : List α) : rank p l l.length = (l.filter p).length := by
  unfold rank
  rw [List.take_length, List.countP_eq_length_filter]

/-- Whoever counts stands at its rank among those that count. -/
theorem filter_rank (hx : l[i]? = some x) (hp : p x = true) :
    (l.filter p)[rank p l i]? = some x := by
  induction l generalizing i with
  | nil => simp at hx
  | cons z l ih =>
    cases i with
    | zero =>
      obtain rfl : z = x := by simpa using hx
      simp [rank, hp]
    | succ i =>
      have hrest := ih (i := i) (by simpa using hx)
      rw [rank_cons]
      by_cases hz : p z = true
      · simpa [hz] using hrest
      · simpa [hz] using hrest

/-- To put one that counts in the place of another is to do so among those that count. -/
theorem filter_set (hx : l[i]? = some x) (hp : p x = true) (hq : p y = true) :
    (l.set i y).filter p = (l.filter p).set (rank p l i) y := by
  induction l generalizing i with
  | nil => simp at hx
  | cons z l ih =>
    cases i with
    | zero =>
      obtain rfl : z = x := by simpa using hx
      simp [rank, hp, hq]
    | succ i =>
      have hrest := ih (i := i) (by simpa using hx)
      rw [rank_cons, List.set_cons_succ]
      by_cases hz : p z = true
      · simpa [hz] using hrest
      · simpa [hz] using hrest

theorem nth?_eq_some : nth? p l k = some i ↔ (∃ x, l[i]? = some x ∧ p x = true) ∧ rank p l i = k := by
  induction l generalizing k i with
  | nil => simp [nth?]
  | cons z l ih =>
    unfold nth?
    by_cases hz : p z = true
    · cases k with
      | zero =>
        cases i with
        | zero => simp [hz, rank]
        | succ i => simp [hz, rank_cons]
      | succ k =>
        cases i with
        | zero => simp [hz, rank]
        | succ i => simp [hz, rank_cons, ih]
    · cases i with
      | zero => simp [hz]
      | succ i => simp [hz, rank_cons, ih]

theorem filter_nth? : (l.filter p)[k]? = (nth? p l k).bind fun i => l[i]? := by
  induction l generalizing k with
  | nil => simp [nth?]
  | cons z l ih =>
    unfold nth?
    by_cases hz : p z = true
    · cases k with
      | zero => simp [hz]
      | succ k =>
        simp only [hz, List.filter_cons_of_pos, List.getElem?_cons_succ, if_true, ih]
        cases nth? p l k <;> simp
    · simp only [hz, List.filter_cons_of_neg, not_false_eq_true, Bool.false_eq_true, if_false, ih]
      cases nth? p l k <;> simp

/-- One more that does not count is nothing to those that do. -/
theorem filter_concat (hx : p x = false) (i : Nat) :
    ((l ++ [x])[i]?).filter p = (l[i]?).filter p := by
  by_cases hlt : i < l.length
  · rw [List.getElem?_append_left hlt]
  · by_cases heq : i = l.length
    · subst heq
      simp [Option.filter, hx]
    · rw [List.getElem?_eq_none (by simp; omega), List.getElem?_eq_none (by omega)]

/-- Lists in which the same ones count at the same places have the same ones that count. -/
theorem filter_congr {q : α → Bool} {m : List α}
    (h : ∀ i : Nat, (l[i]?).filter p = (m[i]?).filter q) : l.filter p = m.filter q := by
  induction l generalizing m with
  | nil =>
    have hnone : ∀ z ∈ m, ¬ q z = true := by
      intro z hz hq
      obtain ⟨i, hi⟩ := List.getElem?_of_mem hz
      have hi' := h i
      simp [hi, Option.filter, hq] at hi'
    rw [List.filter_nil, List.filter_eq_nil_iff.2 hnone]
  | cons z l ih =>
    cases m with
    | nil =>
      have hnone : ∀ w ∈ z :: l, ¬ p w = true := by
        intro w hw hp
        obtain ⟨i, hi⟩ := List.getElem?_of_mem hw
        have hi' := h i
        simp [hi, Option.filter, hp] at hi'
      rw [List.filter_nil, List.filter_eq_nil_iff.2 hnone]
    | cons w m =>
      have hrest := ih (m := m) fun i => by simpa using h (i + 1)
      have hhead := h 0
      simp only [List.getElem?_cons_zero, Option.filter_some] at hhead
      rw [List.filter_cons, List.filter_cons, hrest]
      by_cases hz : p z = true
      · by_cases hw : q w = true
        · simp only [hz, hw, if_true, Option.some.injEq] at hhead ⊢
          rw [hhead]
        · simp [hz, hw] at hhead
      · by_cases hw : q w = true
        · simp [hz, hw] at hhead
        · simp [hz, hw]

theorem rank_congr {q : α → Bool} {m : List α}
    (h : ∀ i : Nat, (l[i]?).filter p = (m[i]?).filter q) (i : Nat) : rank p l i = rank q m i := by
  unfold rank
  rw [List.countP_eq_length_filter, List.countP_eq_length_filter]
  congr 1
  apply filter_congr
  intro j
  rw [List.getElem?_take, List.getElem?_take]
  split
  · exact h j
  · rfl

/-- What counts by the same marks has the same ranks. -/
theorem rank_of_marks {β : Type} {q : β → Bool} {m : List β} (h : l.map p = m.map q) (i : Nat) :
    rank p l i = rank q m i := by
  have hcount : ∀ {γ : Type} (r : γ → Bool) (n : List γ),
      rank r n i = ((n.map r).take i).countP id := by
    intro γ r n
    rw [← List.map_take, List.countP_map]
    rfl
  rw [hcount p l, hcount q m, h]

end

/-! ## What the subscribers say -/

/-- The fault that a subscriber lets through: only cancellations are not contained. -/
def Observer.escapes? (o : Observer) (n : Notification) : Option Fault :=
  let escaping (fault : Fault) := if fault.isCancellation then some fault else none
  match o.accepts n with
  | .error fault => escaping fault
  | .ok false => none
  | .ok true =>
    match o.result n with
    | .ok _ => none
    | .error fault => escaping fault

/-- What whoever publishes is told: the first fault that a subscriber lets through. -/
def Bus.verdict (bus : Bus Observer) (n : Notification) : Except Fault Unit :=
  match (bus.inOrder n.topic).findSome? fun s => s.handler.escapes? n with
  | none => .ok ()
  | some fault => .error fault

/-! ## A supervisor of one name -/

/-- What all names share, and no instance changes. -/
structure World where
  settings : Settings
  registry : Registry
  bus : Bus Observer
  clock : Rat

/-- A supervisor of one name, with the tasks of its instances in their order and the answers to the
questions that they were asked, as far as these are pending or answered. -/
structure Solo where
  world : World
  holder : Option Nat
  tasks : List Task
  restarts : Option (List Rat)
  replies : List (Option (Except Fault Answer))
  past : HookPast

namespace Solo

/-! ### Messages -/

def setTask (s : Solo) (k : Nat) (task : Task) : Solo := { s with tasks := s.tasks.set k task }

def updateTask (s : Solo) (k : Nat) (f : Task → Task) : Solo :=
  { s with tasks := s.tasks.modify k f }

def post (s : Solo) (k : Nat) (r : Request) : Except Fault Solo :=
  match s.tasks[k]? with
  | none => .error (Instance.missing .null)
  | some task =>
    match task.inst.post r with
    | .error fault => .error fault
    | .ok inst =>
      let run := if task.run = .receiving then .queued false else task.run
      .ok (s.setTask k { task with inst := inst, run := run })

def lookup (s : Solo) (name : Value) : Except Fault Nat :=
  match s.holder.bind fun k => s.tasks[k]?.map fun task => (k, task) with
  | some (k, task) => if task.inst.alive then .ok k else .error (Instance.missing name)
  | none => .error (Instance.missing name)

def send (s : Solo) (r : Send) : Except Fault Solo :=
  match s.lookup r.name with
  | .ok k => s.post k (.transition r.event r.payload)
  | .error fault => .error fault

def sendAll (s : Solo) : List Send → Solo × Option Fault
  | [] => (s, none)
  | r :: rest =>
    match s.send r with
    | .ok s => s.sendAll rest
    | .error fault => (s, some fault)

/-! ### Tasks -/

def setAnswer (s : Solo) (k : Nat) (stimulus : Stimulus) : Solo :=
  s.updateTask k fun task => { task with answer := some stimulus }

def block (s : Solo) (k : Nat) (run : TaskRun) : Solo :=
  s.updateTask k fun task => { task with run := run }

def pause (s : Solo) (k : Nat) : Pause → Solo
  | .none => s
  | .forever => s.block k (.paused none)
  | .seconds time => s.block k (if time.leRat 0 then .queued false else .paused (some 0))

def react {α : Type} (s : Solo) (k : Nat) (r : Reaction α) (stimulus : Except Fault α → Stimulus) :
    Solo :=
  match s.sendAll r.sends with
  | (s, some fault) => s.setAnswer k (stimulus (.error fault))
  | (s, none) => (s.setAnswer k (stimulus r.result)).pause k r.pause

def noteCall (s : Solo) (name : Value) (call : HookCall) : Solo :=
  { s with past := (name, call) :: s.past }

def resolve (s : Solo) (c : Nat) (result : Except Fault Answer) : Solo :=
  match s.replies[c]? with
  | some none => { s with replies := s.replies.set c (some result) }
  | _ => s

def perform (s : Solo) (k : Nat) (e : Effect) : Solo :=
  match s.tasks[k]? with
  | none => s
  | some task =>
    let name := task.inst.name
    let hooks := task.inst.machine.hooks
    match e with
    | .log _ _ => s
    | .askTransition call => (s.noteCall name (.transition call)).react k
        (hooks.onTransition.react s.past call) .decided
    | .askFailure call => (s.noteCall name (.failure call)).react k
        (hooks.onFailure.react s.past call) .handled
    | .askTerminate runState => (s.noteCall name (.terminate runState)).react k
        (hooks.onTerminate.react s.past runState) .handled
    | .publish n =>
      match task.outlet with
      | .shared => s.setAnswer k (.published (s.world.bus.verdict n))
      | .own | .nowhere => s.setAnswer k (.published (.ok ()))
    | .answer c result => s.resolve c result

def feed (s : Solo) (k : Nat) (stimulus : Stimulus) : Solo :=
  match s.tasks[k]? with
  | none => s
  | some task =>
    let (inst, effects) := task.inst.step stimulus
    effects.foldl (fun s e => s.perform k e) (s.setTask k { task with inst := inst, answer := none })

def runTask (s : Solo) (k : Nat) : Solo :=
  match s.tasks[k]? with
  | none => s
  | some task =>
    match task.inst.phase with
    | .finished _ => s.setTask k { task with run := .ended }
    | .fresh => s.feed k .start
    | .idle => if task.inst.mailbox.isEmpty then s.block k .receiving else s.feed k .receive
    | _ =>
      match task.answer with
      | some stimulus => s.feed k stimulus
      | none => s.block k (.paused none)

def resume (s : Solo) (k : Nat) : Solo :=
  match s.tasks[k]? with
  | none => s
  | some task =>
    match task.run with
    | .queued cancelled =>
      let s := s.setTask k { task with run := .active }
      if cancelled then s.feed k task.inst.cancellation else s
    | _ => s

/-- The pause of a hook is over. -/
def wake (s : Solo) (k : Nat) : Solo :=
  match s.tasks[k]? with
  | none => s
  | some task =>
    match task.run with
    | .paused (some _) => s.setTask k { task with run := .queued false }
    | _ => s

def cancel (s : Solo) (k : Nat) : Solo :=
  match s.tasks[k]? with
  | none => s
  | some task =>
    match task.run with
    | .absent | .ended | .active => s
    | .queued _ | .receiving | .paused _ => s.setTask k { task with run := .queued true }

/-! ### Supervision and calls -/

/-- A new instance holds the name. -/
def spawn (s : Solo) (machine : Machine) (name payload : Value) : Solo :=
  { s with
    tasks := s.tasks ++ [{
      inst := .create machine name payload
      number := none
      supervised := true
      outlet := .shared
      run := .queued false }]
    holder := some s.tasks.length }

def recentRestarts (s : Solo) : List Rat :=
  (s.restarts.getD []).filter fun time => s.world.settings.maxSeconds.gtRat (s.world.clock - time)

def afterCrash (s : Solo) (task : Task) : Solo :=
  match s.world.settings.restart with
  | .temporary => s
  | .transient =>
    if s.holder.isSome then s
    else
      let recent := s.recentRestarts
      if s.world.settings.maxRestarts.leRat recent.length then { s with restarts := some recent }
      else
        ({ s with restarts := some (recent ++ [s.world.clock]) }).spawn task.inst.machine
          task.inst.name task.inst.initialPayload

/-- The supervisor learns of the end of a task. -/
def exited (s : Solo) (k : Nat) : Solo :=
  match s.tasks[k]? with
  | none => s
  | some task =>
    let s := if s.holder = some k then { s with holder := none } else s
    match task.inst.phase with
    | .finished (.failed _) => s.afterCrash task
    | _ => s

def choose (s : Solo) : MachineChoice → Except Fault (Except Value Machine)
  | .named name =>
    match s.world.registry.get name with
    | .ok m => .ok (.ok m)
    | .error fault => .error (.reported fault.report)
  | .given m => .ok (.ok m)
  | .other v => .ok (.error v)

def start (s : Solo) (choice : MachineChoice) (name payload : Value) : Solo :=
  match s.choose choice with
  | .error _ => s
  | .ok machine =>
    match s.lookup name with
    | .ok _ => s
    | .error _ =>
      let s := { s with restarts := some [] }
      match machine with
      | .error _ => s
      | .ok m => s.spawn m name payload

def query (s : Solo) (name : Value) (kind : String) (argument : Value) : Solo :=
  match s.lookup name with
  | .error _ => s
  | .ok k =>
    match Question.ofKind kind argument with
    | .error _ => s
    | .ok question =>
      let asked := { s with replies := s.replies ++ [none] }
      match asked.post k (.query s.replies.length question false) with
      | .ok s => s
      | .error _ => s

def stop (s : Solo) (name : Value) : Solo :=
  match s.lookup name with
  | .error _ => s
  | .ok k =>
    match s.post k .stop with
    | .ok s => s
    | .error _ => s

end Solo

/-! ## What a host is to a name -/

/-- Whether a task goes by a name. -/
def Task.isOf (name : Value) (task : Task) : Bool := task.inst.name.same name

/-- How a task waits, without the number of its timer. -/
def TaskRun.plain : TaskRun → TaskRun
  | .paused (some _) => .paused (some 0)
  | run => run

/-- A task without the numbers that a host gives, and with its questions numbered anew. -/
def Task.plain (number : Nat → Nat) (task : Task) : Task where
  inst := task.inst.renumber number
  number := none
  supervised := task.supervised
  outlet := task.outlet
  run := task.run.plain
  answer := task.answer

/-- The task that a call asks, and its answer, if the call is pending or answered. -/
def Call.asked? : Call → Option (Nat × Option (Except Fault Answer))
  | ⟨_, .reply t none, .waiting _⟩ => some (t, none)
  | ⟨_, .reply t (some result), _⟩ => some (t, some result)
  | _ => none

namespace Host

def world (h : Host) : World := ⟨h.settings, h.registry, h.bus, h.clock⟩

/-- Whether a task of a host goes by a name. -/
def isOf (h : Host) (name : Value) (t : Nat) : Bool := (h.task? t).any (Task.isOf name)

/-- Whether a call asks a task of a name. -/
def asks (h : Host) (name : Value) (call : Call) : Bool := call.asked?.any fun (t, _) => h.isOf name t

/-- Where a task stands among those of a name. -/
def place (h : Host) (name : Value) (t : Nat) : Nat := rank (Task.isOf name) h.tasks t

/-- Where a call stands among those that ask a name. -/
def turn (h : Host) (name : Value) (c : Nat) : Nat := rank (h.asks name) h.calls c

/-- What a host is to a name. -/
def solo (h : Host) (name : Value) : Solo where
  world := h.world
  holder := (lookupName h.holders name).map (h.place name)
  tasks := (h.tasks.filter (Task.isOf name)).map (Task.plain (h.turn name))
  restarts := lookupName h.restarts name
  replies := (h.calls.filter (h.asks name)).map fun call => call.asked?.bind (·.2)
  past := h.past.filter fun (other, _) => other.same name

/-- What a host has of a name, with the numbers that the host gives. -/
structure Share where
  holder : Option Nat
  restarts : Option (List Rat)
  tasks : Nat → Option Task
  calls : Nat → Option Call
  past : HookPast

/-- The share of a name: who holds it, its restarts, its instances with all that they have and the
questions that they were asked, as far as these are pending or answered. -/
def share (h : Host) (name : Value) : Share where
  holder := lookupName h.holders name
  restarts := lookupName h.restarts name
  tasks t := (h.task? t).filter (Task.isOf name)
  calls c := (h.calls[c]?).filter (h.asks name)
  past := h.past.filter fun (other, _) => other.same name

end Host
end Turnstile
