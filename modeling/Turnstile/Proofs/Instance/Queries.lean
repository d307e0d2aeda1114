-- What becomes of the queries of an instance when its body moves on: they stay in the mailbox in
-- their order, the first one is answered, or all of them are dropped on the way out, before the
-- terminate hook is called.
import Turnstile.Instance.Step

namespace Turnstile

/-- The call that waits for a request to be answered. -/
def Request.waiting? : Request → Option Nat
  | .query call _ false => some call
  | _ => none

/-- The call that an effect answers, and the answer. -/
def Effect.answer? : Effect → Option (Nat × Except Fault Answer)
  | .answer call result => some (call, result)
  | _ => none

/-- The answers among some effects, in their order. -/
def answers (effects : List Effect) : List (Nat × Except Fault Answer) :=
  effects.filterMap Effect.answer?

theorem answers_cons (e : Effect) (effects : List Effect) :
    answers (e :: effects) = e.answer?.toList ++ answers effects := by
  unfold answers
  rw [List.filterMap_cons]
  cases e.answer? <;> rfl

theorem answers_append (effects more : List Effect) :
    answers (effects ++ more) = answers effects ++ answers more := List.filterMap_append

namespace Instance

variable {i : Instance}

/-- The calls that wait for an answer of an instance, in the order of its mailbox. -/
def waiting (i : Instance) : List Nat := i.mailbox.filterMap Request.waiting?

/-- What a step of the body does about queries. -/
inductive Serves (i : Instance) : Instance × List Effect → Prop where
  /-- Nothing: at most a request for a transition is taken from the mailbox. -/
  | aside {j : Instance} {effects : List Effect}
    (hmailbox : j.mailbox = i.mailbox ∨
      ∃ event payload, i.mailbox = .transition event payload :: j.mailbox)
    (halive : j.alive = i.alive) (hanswers : answers effects = [])
    (hhook : ∀ runState, .askTerminate runState ∉ effects) : Serves i (j, effects)
  /-- The first query is answered, or passed over if nobody waits for it. -/
  | turn {call : Nat} {question : Question} {abandoned : Bool} {rest : List Request}
    {effects : List Effect} (hidle : i.phase = .idle)
    (hmailbox : i.mailbox = .query call question abandoned :: rest)
    (hanswers : answers effects = if abandoned then [] else [(call, i.answerTo question)])
    (hhook : ∀ runState, .askTerminate runState ∉ effects) :
    Serves i ({ i with mailbox := rest }, effects)
  /-- The instance has stopped: all that waits is told so, and then the terminate hook is called. -/
  | leave {j : Instance} {before : List Effect} (runState : RunState) (halive : j.alive = false)
    (hempty : j.mailbox = [])
    (hanswers : answers before = i.waiting.map fun call => (call, .error (missing i.name)))
    (hhook : ∀ runState, .askTerminate runState ∉ before) :
    Serves i (j, before ++ [.askTerminate runState])

theorem markStopped_alive (i : Instance) (reason : StopReason) :
    (i.markStopped reason).alive = false := by
  unfold markStopped
  split
  · rfl
  · rename_i halive
    simpa using halive

theorem answers_dropRequest (i : Instance) (r : Request) : answers (i.dropRequest r) =
    (r.waiting?.map fun call => (call, .error (missing i.name))).toList := by
  cases r with
  | query call question abandoned => cases abandoned <;> rfl
  | transition event payload => rfl
  | stop => rfl

theorem hook_dropRequest (i : Instance) (r : Request) (runState : RunState) :
    .askTerminate runState ∉ i.dropRequest r := by
  cases r with
  | query call question abandoned => cases abandoned <;> simp [dropRequest]
  | transition event payload => simp [dropRequest, record]
  | stop => simp [dropRequest]

theorem answers_drop (i : Instance) (requests : List Request) :
    answers (requests.flatMap i.dropRequest) =
      (requests.filterMap Request.waiting?).map fun call => (call, .error (missing i.name)) := by
  induction requests with
  | nil => rfl
  | cons r requests ih =>
    rw [List.flatMap_cons, answers_append, answers_dropRequest, ih]
    cases hr : r.waiting? <;> simp [hr]

theorem markStopped_mailbox (i : Instance) (reason : StopReason) :
    (i.markStopped reason).mailbox = i.mailbox := by
  unfold markStopped
  split <;> rfl

theorem markStopped_name (i : Instance) (reason : StopReason) :
    (i.markStopped reason).name = i.name := by
  unfold markStopped
  split <;> rfl

/-- An instance that is marked as stopped and leaves the loop has dropped what waits. -/
theorem serves_leave {k : Instance} (hname : k.name = i.name) (hwaiting : k.waiting = i.waiting)
    (reason : StopReason) (ending : Ending) (logs : List Effect) (hlogs : answers logs = [])
    (hhook : ∀ runState, .askTerminate runState ∉ logs) :
    i.Serves (((k.markStopped reason).leave ending).1,
      logs ++ ((k.markStopped reason).leave ending).2) := by
  have hdrop := answers_drop (k.markStopped reason) k.mailbox
  have hsplit : logs ++ ((k.markStopped reason).leave ending).2 =
      (logs ++ k.mailbox.flatMap (k.markStopped reason).dropRequest) ++
        [.askTerminate (k.markStopped reason).runState] := by
    simp [leave, markStopped_mailbox]
  rw [hsplit]
  refine .leave _ (markStopped_alive k reason) rfl ?_ ?_
  · rw [answers_append, hlogs, List.nil_append, hdrop, markStopped_name, hname]
    exact congrArg (List.map _) hwaiting
  · intro runState hmem
    rcases List.mem_append.1 hmem with hmem | hmem
    · exact hhook runState hmem
    · obtain ⟨r, -, hr⟩ := List.mem_flatMap.1 hmem
      exact hook_dropRequest _ r runState hr

theorem serves_kill (i : Instance) : i.Serves i.kill :=
  serves_leave rfl rfl .killed .cancelled [] rfl (by simp)

theorem serves_escape (i : Instance) (fault : Fault) : i.Serves (i.escape fault) := by
  unfold escape
  split
  · exact i.serves_kill
  · have hcrash := serves_leave (i := i) (k := { i with crash := some fault }) rfl rfl .crash
      (.failed fault) [i.record .exception (" crashed: " ++ fault.message)] rfl (by simp [record])
    exact hcrash

/-- A step that leaves the mailbox alone, and only writes to the log, calls another hook or
publishes. -/
theorem serves_aside {j : Instance} {effects : List Effect} (hmailbox : j.mailbox = i.mailbox)
    (halive : j.alive = i.alive) (hanswers : answers effects = [])
    (hhook : ∀ runState, .askTerminate runState ∉ effects) : i.Serves (j, effects) :=
  .aside (.inl hmailbox) halive hanswers hhook

theorem serves_reject (i : Instance) (event payload : Value) (rejection : Rejection)
    (logs : List Effect) (hlogs : answers logs = [])
    (hhook : ∀ runState, .askTerminate runState ∉ logs) :
    i.Serves ((i.reject event payload rejection).1,
      logs ++ (i.reject event payload rejection).2) := by
  refine serves_aside rfl rfl ?_ ?_
  · rw [answers_append, hlogs]
    rfl
  · simpa [reject, record] using hhook

theorem serves_settleOutcome (i : Instance) (event payload : Value) (outcome : Outcome) :
    i.Serves (i.settleOutcome event payload outcome) := by
  have hreject : ∀ rejection, i.Serves (i.reject event payload rejection) := fun rejection =>
    i.serves_reject event payload rejection [] rfl (by simp)
  unfold settleOutcome
  simp only
  split
  · exact hreject _
  · exact hreject _
  · exact hreject _
  · split
    · exact hreject _
    · split
      · split
        · exact serves_leave rfl rfl .terminal .returned
            [i.record .info (" reached the terminal state on " ++ event.literal)] rfl
            (by simp [record])
        · exact serves_aside rfl rfl rfl (by simp [record])
      · exact hreject _

theorem serves_decide (i : Instance) (event payload : Value) (result : Except Fault Outcome) :
    i.Serves (i.decide event payload result) := by
  unfold decide
  cases result with
  | ok outcome => exact i.serves_settleOutcome event payload outcome
  | error fault =>
    simp only
    split
    · exact i.serves_escape fault
    · exact i.serves_reject event payload _
        [i.record .warning (" on_transition raised: " ++ fault.literal)] rfl (by simp [record])

theorem serves_handle {r : Request} {rest : List Request} (hidle : i.phase = .idle)
    (hmailbox : i.mailbox = r :: rest) : i.Serves ({ i with mailbox := rest }.handle r) := by
  cases r with
  | stop =>
    have hwaiting : ({ i with mailbox := rest } : Instance).waiting = i.waiting := by
      unfold waiting
      rw [hmailbox]
      rfl
    have hleave := serves_leave (i := i) (k := { i with mailbox := rest }) rfl hwaiting .stop
      .returned [] rfl (by simp)
    exact hleave
  | transition event payload =>
    exact .aside (.inr ⟨event, payload, hmailbox⟩) rfl rfl (by simp)
  | query call question abandoned =>
    cases abandoned with
    | true => exact .turn hidle hmailbox rfl (by simp)
    | false =>
      refine .turn hidle hmailbox ?_ ?_
      · simp only [Bool.false_eq_true, if_false]
        have hsame : ({ i with mailbox := rest } : Instance).answerTo question =
          i.answerTo question := by cases question <;> rfl
        rw [hsame]
        cases i.answerTo question <;> rfl
      · intro runState
        cases ({ i with mailbox := rest } : Instance).answerTo question <;> simp [record]

/-- Whatever moves the body on, it serves the queries. -/
theorem serves_step (i : Instance) (s : Stimulus) : i.Serves (i.step s) := by
  unfold step
  split
  · exact serves_aside rfl rfl rfl (by simp [record])
  · exact serves_aside rfl rfl rfl (by simp)
  · rename_i hphase
    split
    · exact serves_aside rfl rfl rfl (by simp)
    · rename_i r rest hmailbox
      exact serves_handle hphase hmailbox
  · exact i.serves_kill
  · exact i.serves_decide _ _ _
  · unfold report
    simp only
    split
    · exact serves_aside rfl rfl rfl (by simp)
    · split
      · exact i.serves_escape _
      · exact serves_aside rfl rfl rfl (by simp [record])
  · split
    · exact serves_aside rfl rfl rfl (by simp)
    · exact i.serves_escape _
  · unfold terminate
    simp only
    split
    · exact serves_aside rfl rfl rfl (by simp)
    · split
      · exact serves_aside rfl rfl rfl (by simp)
      · exact serves_aside rfl rfl rfl (by simp [record])
  · split
    · exact serves_aside rfl rfl rfl (by simp)
    · exact serves_aside rfl rfl rfl (by simp)
  · exact serves_aside rfl rfl rfl (by simp)

/-! ## What follows for the calls that wait -/

variable {j : Instance} {effects : List Effect}

/-- Who waits is answered now, in order, or goes on waiting. -/
theorem Serves.waiting_eq (h : i.Serves (j, effects)) :
    i.waiting = (answers effects).map (·.1) ++ j.waiting := by
  cases h with
  | aside hmailbox halive hanswers hhook =>
    rw [hanswers]
    unfold waiting
    rcases hmailbox with hmailbox | ⟨event, payload, hmailbox⟩
    · rw [hmailbox]
      rfl
    · rw [hmailbox]
      rfl
  | @turn call question abandoned rest _ hidle hmailbox hanswers hhook =>
    rw [hanswers]
    unfold waiting
    rw [hmailbox]
    cases abandoned <;> rfl
  | @leave _ before runState halive hempty hanswers hhook =>
    have hlast : answers (before ++ [.askTerminate runState]) = answers before :=
      (answers_append _ _).trans (List.append_nil _)
    rw [hlast, hanswers, List.map_map]
    simp [waiting, hempty, Function.comp_def]

/-- Nobody waits for an instance that has stopped. -/
theorem Serves.drained (h : i.Serves (j, effects)) (hdrained : i.alive = false → i.mailbox = [])
    (halive : j.alive = false) : j.mailbox = [] := by
  cases h with
  | aside hmailbox halive' hanswers hhook =>
    have hempty := hdrained (halive'.symm.trans halive)
    rcases hmailbox with hmailbox | ⟨event, payload, hmailbox⟩
    · exact hmailbox.trans hempty
    · cases hempty.symm.trans hmailbox
  | turn hidle hmailbox hanswers hhook => cases (hdrained halive).symm.trans hmailbox
  | leave runState halive' hempty hanswers hhook => exact hempty

/-- Each answer is the one to the first query, or tells that the instance has stopped. -/
theorem Serves.answer (h : i.Serves (j, effects)) {call : Nat} {result : Except Fault Answer}
    (hmem : (call, result) ∈ answers effects) :
    (∃ question rest, i.phase = .idle ∧ i.mailbox = .query call question false :: rest ∧
      result = i.answerTo question) ∨
    (result = .error (missing i.name) ∧ j.alive = false) := by
  cases h with
  | aside hmailbox halive hanswers hhook =>
    rw [hanswers] at hmem
    cases hmem
  | @turn c question abandoned rest _ hidle hmailbox hanswers hhook =>
    rw [hanswers] at hmem
    cases abandoned with
    | true => cases hmem
    | false =>
      obtain ⟨rfl, rfl⟩ := Prod.mk.inj (List.mem_singleton.1 hmem)
      exact .inl ⟨question, rest, hidle, hmailbox, rfl⟩
  | @leave _ before runState halive hempty hanswers hhook =>
    have hlast : answers (before ++ [.askTerminate runState]) = answers before :=
      (answers_append _ _).trans (List.append_nil _)
    rw [hlast, hanswers] at hmem
    obtain ⟨c, -, heq⟩ := List.mem_map.1 hmem
    obtain ⟨rfl, rfl⟩ := Prod.mk.inj heq
    exact .inr ⟨rfl, halive⟩

/-- The terminate hook is called at the very end, if at all: the instance has stopped then, all
answers have been given and the mailbox is empty. -/
theorem Serves.terminate (h : i.Serves (j, effects)) :
    (∀ runState, .askTerminate runState ∉ effects) ∨ ∃ before runState,
      effects = before ++ [.askTerminate runState] ∧ j.alive = false ∧ j.mailbox = [] ∧
      answers before = answers effects ∧ ∀ runState, .askTerminate runState ∉ before := by
  cases h with
  | aside hmailbox halive hanswers hhook => exact .inl hhook
  | turn hidle hmailbox hanswers hhook => exact .inl hhook
  | @leave _ before runState halive hempty hanswers hhook =>
    refine .inr ⟨before, runState, rfl, halive, hempty, ?_, hhook⟩
    exact ((answers_append _ _).trans (List.append_nil _)).symm

end Instance
end Turnstile
