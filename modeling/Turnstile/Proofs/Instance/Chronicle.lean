-- What an instance publishes in the course of its life: that it started, then its transitions and
-- rejections, and at last that it terminated. The log replays the run: whoever has read it so far
-- knows in which state the instance is, and which states it has left.
import Turnstile.Proofs.Instance.Endings

namespace Turnstile

/-! ## Reading a log -/

namespace Notification

/-- Whether a notification is the work of the instance itself, and not of its supervisor. -/
def isOwn : Notification → Bool
  | .restarted .. => false
  | _ => true

/-- A transition or a rejection. -/
def isPassing : Notification → Bool
  | .transitioned .. | .rejected .. => true
  | .started .. | .terminated .. | .restarted .. => false

def isStarted : Notification → Bool
  | .started .. => true
  | .transitioned .. | .rejected .. | .terminated .. | .restarted .. => false

def isTerminated : Notification → Bool
  | .terminated .. => true
  | .started .. | .transitioned .. | .rejected .. | .restarted .. => false

/-- The state that a transition leads to. -/
def target? : Notification → Option String
  | .transitioned _ _ _ target => some target
  | .started .. | .rejected .. | .terminated .. | .restarted .. => none

/-- The state that a notification says the instance was in when it was made. -/
def madeIn? : Notification → Option String
  | .started _ _ state => some state
  | .transitioned _ _ source _ => some source
  | .rejected _ _ state _ => some state
  | .terminated _ _ runState => some runState.current
  | .restarted .. => none

/-- Follows a transition: its target is reached, and its source is left. -/
def follow (reached : String × List String) : Notification → String × List String
  | .transitioned _ _ source target => (target, source :: reached.2)
  | .started .. | .rejected .. | .terminated .. | .restarted .. => reached

end Notification

/-- The state that the last transition of a log led to. -/
def reached (initial : String) (log : List Notification) : String :=
  (log.filterMap Notification.target?).getLastD initial

/-- The state and the states left, the last one first, that the transitions of a log lead to. -/
def replay (initial : String) (log : List Notification) : String × List String :=
  log.foldl Notification.follow (initial, [])

/-- The log of an instance is a faithful record of its run. -/
structure Chronicle (i : Instance) (log : List Notification) : Prop where
  /-- It says first that the instance started, in the initial state, then what came of requests, and
  at last that the instance terminated; so far it has come to some point of this. -/
  shape : ∃ passing reason runState, (∀ n ∈ passing, Notification.isPassing n = true) ∧
    log <+: .started i.name i.machine.name i.machine.table.initial :: passing ++
      [.terminated i.name reason runState]
  /-- It is about this instance. -/
  named : ∀ n ∈ log, n.name = i.name
  /-- Each notification was made in the state that the last transition before it had led to. -/
  linked : ∀ before n behind, log = before ++ n :: behind →
    n.madeIn? = some (reached i.machine.table.initial before)
  /-- Its transitions, one after the other, lead to the state that the instance is in, through all
  the states that it has left. -/
  replayed : replay i.machine.table.initial log = (i.runState.current, i.runState.history)
  /-- The end is told with the run state and the reason that there are. -/
  closed : ∀ name reason runState, .terminated name reason runState ∈ log →
    runState = i.runState ∧ reason = i.stopReason ∧ i.alive = false ∧ i.stopReason.isSome = true

/-- An element of a longer list is its last one, or one of the list before. -/
theorem last_or {α : Type} {l before behind : List α} {x last : α}
    (heq : l ++ [last] = before ++ x :: behind) :
    x = last ∧ before = l ∨ ∃ behind', l = before ++ x :: behind' := by
  rcases List.eq_nil_or_concat behind with rfl | ⟨behind', y, rfl⟩
  · obtain ⟨rfl, hlast⟩ := List.append_inj' heq rfl
    exact .inl ⟨(List.singleton_inj.1 hlast).symm, rfl⟩
  · refine .inr ⟨behind', ?_⟩
    have hsnoc : l ++ [last] = (before ++ x :: behind') ++ [y] := by simpa using heq
    exact (List.append_inj' hsnoc rfl).1

/-! ## Logs of instances in the loop -/

/-- The log of an instance of a machine that has started and not told its end, with the state that
it is in and the states that it has left. -/
inductive Log (name : Value) (machine : Machine) :
    List Notification → String → List String → Prop where
  | started : Log name machine [.started name machine.name machine.table.initial]
      machine.table.initial []
  | transitioned {log : List Notification} {current : String} {history : List String}
    (hlog : Log name machine log current history) (event : Value) (target : String) :
    Log name machine (log ++ [.transitioned name event current target]) target
      (current :: history)
  | rejected {log : List Notification} {current : String} {history : List String}
    (hlog : Log name machine log current history) (event : Value) (rejection : Rejection) :
    Log name machine (log ++ [.rejected name event current rejection]) current history

namespace Log

variable {name : Value} {machine : Machine} {log : List Notification} {current : String}
  {history : List String}

theorem shape (hlog : Log name machine log current history) :
    ∃ passing, (∀ n ∈ passing, Notification.isPassing n = true) ∧
      log = .started name machine.name machine.table.initial :: passing := by
  have hsnoc : ∀ {passing : List Notification} {n : Notification},
      (∀ n ∈ passing, n.isPassing = true) → n.isPassing = true →
      ∀ m ∈ passing ++ [n], m.isPassing = true := by
    intro passing n hpassing hn m hm
    rcases List.mem_append.1 hm with hm | hm
    · exact hpassing m hm
    · exact List.mem_singleton.1 hm ▸ hn
  induction hlog with
  | started => exact ⟨[], by simp, rfl⟩
  | transitioned _ event target ih =>
    obtain ⟨passing, hpassing, rfl⟩ := ih
    exact ⟨passing ++ [_], hsnoc hpassing rfl, rfl⟩
  | rejected _ event rejection ih =>
    obtain ⟨passing, hpassing, rfl⟩ := ih
    exact ⟨passing ++ [_], hsnoc hpassing rfl, rfl⟩

theorem named (hlog : Log name machine log current history) : ∀ n ∈ log, n.name = name := by
  induction hlog with
  | started => exact fun n hn => List.mem_singleton.1 hn ▸ rfl
  | transitioned _ event target ih =>
    intro n hn
    rcases List.mem_append.1 hn with hn | hn
    · exact ih n hn
    · exact List.mem_singleton.1 hn ▸ rfl
  | rejected _ event rejection ih =>
    intro n hn
    rcases List.mem_append.1 hn with hn | hn
    · exact ih n hn
    · exact List.mem_singleton.1 hn ▸ rfl

/-- No end is told. -/
theorem not_terminated (hlog : Log name machine log current history) :
    log.countP Notification.isTerminated = 0 := by
  induction hlog with
  | started => rfl
  | transitioned _ event target ih => rw [List.countP_append, ih]; rfl
  | rejected _ event rejection ih => rw [List.countP_append, ih]; rfl

theorem started_mem (hlog : Log name machine log current history) :
    ∃ n ∈ log, n.isStarted = true := by
  obtain ⟨passing, -, rfl⟩ := hlog.shape
  exact ⟨_, List.mem_cons_self, rfl⟩

theorem replay_eq (hlog : Log name machine log current history) :
    replay machine.table.initial log = (current, history) := by
  unfold replay
  induction hlog with
  | started => rfl
  | transitioned _ event target ih => rw [List.foldl_append, ih]; rfl
  | rejected _ event rejection ih => rw [List.foldl_append, ih]; rfl

theorem reached_eq (hlog : Log name machine log current history) :
    reached machine.table.initial log = current := by
  unfold reached
  induction hlog with
  | started => rfl
  | transitioned _ event target ih => simp [List.filterMap_append, Notification.target?]
  | rejected _ event rejection ih => simpa [List.filterMap_append, Notification.target?] using ih

/-- What was linked stays linked when a notification is added that was made in the state reached. -/
theorem linked_snoc {initial : String} {last : Notification}
    (hlinked : ∀ before n behind, log = before ++ n :: behind →
      n.madeIn? = some (reached initial before))
    (hlast : last.madeIn? = some (reached initial log)) :
    ∀ before n behind, log ++ [last] = before ++ n :: behind →
      n.madeIn? = some (reached initial before) := by
  intro before n behind heq
  rcases last_or heq with ⟨rfl, rfl⟩ | ⟨behind', heq⟩
  · exact hlast
  · exact hlinked before n behind' heq

theorem linked (hlog : Log name machine log current history) :
    ∀ before n behind, log = before ++ n :: behind →
      n.madeIn? = some (reached machine.table.initial before) := by
  induction hlog with
  | started =>
    have hnone : ∀ before n behind, ([] : List Notification) = before ++ n :: behind →
        n.madeIn? = some (reached machine.table.initial before) := fun _ _ _ heq => by simp at heq
    exact linked_snoc hnone rfl
  | transitioned hlog event target ih =>
    exact linked_snoc ih (congrArg some hlog.reached_eq.symm)
  | rejected hlog event rejection ih =>
    exact linked_snoc ih (congrArg some hlog.reached_eq.symm)

end Log

/-! ## Publications -/

/-- The notification that an effect is, if it is one. -/
def Effect.notice? : Effect → Option Notification
  | .publish n => some n
  | .log .. | .askTransition _ | .askFailure _ | .askTerminate _ | .answer .. => none

/-- The notifications among some effects, in their order. -/
def publications (effects : List Effect) : List Notification := effects.filterMap Effect.notice?

theorem publications_cons (e : Effect) (effects : List Effect) :
    publications (e :: effects) = publications [e] ++ publications effects := by
  simp only [publications, List.filterMap_cons, List.filterMap_nil]
  cases e.notice? <;> rfl

theorem mem_publications {effects : List Effect} {n : Notification} :
    n ∈ publications effects ↔ .publish n ∈ effects := by
  unfold publications
  rw [List.mem_filterMap]
  constructor
  · rintro ⟨e, he, hn⟩
    cases e with
    | publish m => exact Option.some.inj hn ▸ he
    | _ => cases hn
  · exact fun hn => ⟨_, hn, rfl⟩

theorem publications_nil {effects : List Effect} (h : ∀ n, Effect.publish n ∉ effects) :
    publications effects = [] :=
  List.eq_nil_iff_forall_not_mem.2 fun n hn => h n (mem_publications.1 hn)

namespace Instance

variable {i : Instance} {log : List Notification}

/-! ## What is noted of an instance -/

/-- Nothing is noted of an instance whose body never began; of any other what its body has met, if
it has met a cause to stop. -/
inductive Accounted (i : Instance) : Prop where
  | idle (hphase : i.phase = .fresh ∨ ∃ ending, i.phase = .finished ending)
    (halive : i.alive = true) (hreason : i.stopReason = none) (hcrash : i.crash = none)
  | bears {cause : Option Cause} (hbears : i.Bears cause)

theorem accounted_create (machine : Machine) (name payload : Value) :
    (create machine name payload).Accounted := .idle (.inl rfl) rfl rfl rfl

theorem Accounted.post (h : i.Accounted) (r : Request) : (i.move (.post r)).Accounted := by
  cases h with
  | idle hphase halive hreason hcrash =>
    simp only [move, Instance.post, halive, if_true]
    exact .idle hphase rfl hreason hcrash
  | bears hbears => exact .bears (hbears.post r)

theorem Accounted.abandon (h : i.Accounted) (call : Nat) : (i.abandon call).Accounted := by
  cases h with
  | idle hphase halive hreason hcrash => exact .idle hphase halive hreason hcrash
  | bears hbears => exact .bears (bears_same hbears rfl rfl rfl rfl)

theorem Accounted.step (h : i.Accounted) (s : Stimulus) : (i.step s).1.Accounted := by
  have hsame := h
  cases h with
  | idle hphase halive hreason hcrash =>
    rcases hphase with hphase | ⟨ending, hphase⟩
    · cases s with
      | start =>
        simp only [Instance.step, hphase, begin]
        exact @Accounted.bears _ none ⟨by simp, rfl, halive, hreason, hcrash⟩
      | cancel =>
        simp only [Instance.step, hphase]
        exact .idle (.inr ⟨_, rfl⟩) halive hreason hcrash
      | _ =>
        simp only [Instance.step, hphase]
        exact hsame
    · rw [step_finished hphase]
      exact hsame
  | bears hbears =>
    rename_i cause
    cases cause with
    | none => exact .bears (hbears.meets (.stimulus s)).1
    | some c => exact .bears (hbears.rests (.stimulus s)).1

/-- A body on its way out has met a cause, which is noted. -/
theorem Accounted.stopped (h : i.Accounted) (hout : i.phase.isOut = true)
    (hgoing : ∀ ending, i.phase ≠ .finished ending) :
    i.alive = false ∧ i.stopReason.isSome = true := by
  cases h with
  | idle hphase halive hreason hcrash =>
    rcases hphase with hphase | ⟨ending, hphase⟩
    · rw [hphase] at hout
      cases hout
    · exact absurd hphase (hgoing ending)
  | bears hbears =>
    rename_i cause
    cases cause with
    | none => cases hout.symm.trans hbears.out
    | some c => exact ⟨hbears.alive, by rw [hbears.stopReason]; rfl⟩

/-! ## What a step says -/

section
variable (i : Instance) {n : Notification}

theorem not_publish_drop (r : Request) : Effect.publish n ∉ i.dropRequest r := by
  cases r with
  | query call question abandoned => cases abandoned <;> simp [dropRequest]
  | transition event payload => simp [dropRequest, record]
  | stop => simp [dropRequest]

theorem not_publish_leave (ending : Ending) : Effect.publish n ∉ (i.leave ending).2 := by
  simp [leave, not_publish_drop]

theorem not_publish_escape (fault : Fault) : Effect.publish n ∉ (i.escape fault).2 := by
  unfold escape
  split
  · exact not_publish_leave _ _
  · simp [crashWith, record, not_publish_leave]

theorem not_publish_finishRun (event : Value) : Effect.publish n ∉ (i.finishRun event).2 := by
  simp [finishRun, record, not_publish_leave]

theorem not_publish_handle (r : Request) : Effect.publish n ∉ (i.handle r).2 := by
  cases r with
  | stop => exact not_publish_leave _ _
  | transition event payload => simp [handle]
  | query call question abandoned =>
    unfold handle
    simp only
    split
    · exact List.not_mem_nil
    · split <;> simp [record]

end

/-- What a step of a body says that has begun: nothing, what came of a request, or that it is over.
Nothing else changes the run state, and a body ends without a word only if a cancellation cuts its
terminate hook short. -/
inductive Says (i : Instance) (s : Stimulus) (next : Instance × List Effect) : Prop where
  | nothing (hquiet : publications next.2 = []) (hrunState : next.1.runState = i.runState)
    (hbegun : next.1.phase ≠ .fresh) (hopen : ∀ ending, next.1.phase ≠ .announcing ending)
    (hgoing : ∀ ending, next.1.phase = .finished ending → i.phase = .finished ending)
  | transitioned (event : Value) (target : String) (payload : Value)
    (htold : publications next.2 = [.transitioned i.name event i.runState.current target])
    (hrunState : next.1.runState = i.runState.move target payload)
    (hphase : next.1.phase = .publishing)
  | rejected (event : Value) (rejection : Rejection)
    (htold : publications next.2 = [.rejected i.name event i.runState.current rejection])
    (hrunState : next.1.runState = i.runState) (hphase : next.1.phase = .publishing)
  | terminated (ending : Ending) (hleaving : ∃ ending, i.phase = .terminating ending)
    (htold : publications next.2 = [.terminated i.name i.stopReason i.runState])
    (hrunState : next.1.runState = i.runState) (hreason : next.1.stopReason = i.stopReason)
    (hphase : next.1.phase = .announcing ending)
  | cut (ending : Ending) (fault : Fault) (hleaving : i.phase = .terminating ending)
    (hgiven : s = .handled (.error fault)) (hcancelled : fault.isCancellation = true)
    (hquiet : publications next.2 = []) (hrunState : next.1.runState = i.runState)
    (hphase : next.1.phase = .finished .cancelled)

section
variable {s : Stimulus}

theorem says_same (hbegun : i.phase ≠ .fresh) (hopen : ∀ ending, i.phase ≠ .announcing ending) :
    i.Says s (i, []) := .nothing rfl rfl hbegun hopen fun _ => id

theorem says_stop (i : Instance) (reason : StopReason) (ending : Ending) :
    i.Says s ((i.markStopped reason).leave ending) :=
  .nothing (publications_nil fun _ => not_publish_leave _ _) (i.stop_becomes reason ending).runState
    nofun nofun nofun

theorem says_escape (i : Instance) (fault : Fault) : i.Says s (i.escape fault) := by
  obtain ⟨ending, hphase⟩ := i.escape_phase fault
  exact .nothing (publications_nil fun _ => i.not_publish_escape fault)
    (i.escape_becomes fault).runState (by simp [hphase]) (by simp [hphase]) (by simp [hphase])

theorem says_reject (i : Instance) (event payload : Value) (rejection : Rejection) :
    i.Says s (i.reject event payload rejection) := .nothing rfl rfl nofun nofun nofun

theorem says_handle (hidle : i.phase = .idle) (r : Request) : i.Says s (i.handle r) := by
  cases r with
  | stop => exact i.says_stop .stop .returned
  | transition event payload => exact .nothing rfl rfl nofun nofun nofun
  | query call question abandoned =>
    have hphase : (i.handle (.query call question abandoned)).1.phase = .idle := by
      unfold handle
      simp only
      split <;> exact hidle
    exact .nothing (publications_nil fun _ => i.not_publish_handle _)
      (i.handle_becomes _).runState (by simp [hphase]) (by simp [hphase]) (by simp [hphase])

theorem says_settleOutcome (i : Instance) (event payload : Value) (outcome : Outcome) :
    i.Says s (i.settleOutcome event payload outcome) := by
  have hreject : ∀ rejection, i.Says s (i.reject event payload rejection) :=
    i.says_reject event payload
  unfold settleOutcome
  simp only
  split
  · exact hreject _
  · exact hreject _
  · exact hreject _
  · split
    · exact hreject _
    · split
      · split
        · exact .nothing (publications_nil fun _ => i.not_publish_finishRun event)
            (i.stop_becomes .terminal .returned).runState nofun nofun nofun
        · exact .transitioned event _ _ rfl rfl rfl
      · exact hreject _

theorem says_decide (i : Instance) (event payload : Value) (result : Except Fault Outcome) :
    i.Says s (i.decide event payload result) := by
  unfold decide
  split
  · exact i.says_settleOutcome event payload _
  · split
    · exact i.says_escape _
    · exact .nothing rfl rfl nofun nofun nofun

theorem says_report (i : Instance) (event : Value) (rejection : Rejection)
    (result : Except Fault Unit) : i.Says s (i.report event rejection result) := by
  unfold report
  simp only
  split
  · exact .rejected event rejection rfl rfl rfl
  · split
    · exact i.says_escape _
    · exact .rejected event rejection rfl rfl rfl

theorem says_terminate {ending : Ending} (hphase : i.phase = .terminating ending)
    (result : Except Fault Unit) : i.Says (.handled result) (i.terminate ending result) := by
  unfold terminate
  simp only
  split
  · exact .terminated ending ⟨ending, hphase⟩ rfl rfl rfl rfl
  · split
    · exact .cut ending _ hphase rfl ‹_› rfl rfl rfl
    · exact .terminated ending ⟨ending, hphase⟩ rfl rfl rfl rfl

end

/-- All that a body says that has begun and not told its end. -/
theorem says_step (hbegun : i.phase ≠ .fresh) (hopen : ∀ ending, i.phase ≠ .announcing ending)
    (s : Stimulus) : i.Says s (i.step s) := by
  have hsame : i.Says s (i, []) := says_same hbegun hopen
  unfold step
  split
  · exact absurd ‹_› hbegun
  · exact absurd ‹_› hbegun
  · rename_i hidle
    split
    · exact hsame
    · rename_i r rest _
      have htaken := says_handle (s := .receive) (i := { i with mailbox := rest }) hidle r
      cases htaken with
      | nothing hquiet hrunState hbegun hopen hgoing =>
        exact .nothing hquiet hrunState hbegun hopen hgoing
      | transitioned event target payload htold hrunState hphase =>
        exact .transitioned event target payload htold hrunState hphase
      | rejected event rejection htold hrunState hphase =>
        exact .rejected event rejection htold hrunState hphase
      | terminated ending hleaving htold hrunState hreason hphase =>
        exact .terminated ending hleaving htold hrunState hreason hphase
      | cut ending fault hleaving => cases hidle.symm.trans hleaving
  · exact i.says_stop .killed .cancelled
  · exact i.says_decide _ _ _
  · exact i.says_report _ _ _
  · split
    · exact .nothing rfl rfl nofun nofun nofun
    · exact i.says_escape _
  · exact says_terminate ‹_› _
  · exact absurd ‹_› (hopen _)
  · exact hsame

/-- A body that has told its end says nothing more. -/
theorem step_announcing {ending : Ending} (hphase : i.phase = .announcing ending) (s : Stimulus) :
    publications (i.step s).2 = [] ∧ ((i.step s).1.phase = .announcing ending ∨
      ∃ ending, (i.step s).1.phase = .finished ending) := by
  cases s with
  | published result =>
    cases result with
    | ok _ =>
      simp only [Instance.step, hphase]
      exact ⟨rfl, .inr ⟨_, rfl⟩⟩
    | error fault =>
      simp only [Instance.step, hphase]
      exact ⟨rfl, .inr ⟨_, rfl⟩⟩
  | _ =>
    simp only [Instance.step, hphase]
    exact ⟨rfl, .inl trivial⟩

/-- The first step says that the instance has started. -/
theorem says_first (hphase : i.phase = .fresh) (s : Stimulus) : publications (i.step s).2 = [] ∨
    publications (i.step s).2 = [.started i.name i.machine.name i.runState.current] := by
  cases s with
  | start =>
    simp only [Instance.step, hphase]
    exact .inr rfl
  | _ =>
    simp only [Instance.step, hphase]
    exact .inl rfl

/-- A body publishes only what is about its own instance. -/
theorem publish_step {n : Notification} {s : Stimulus} (hn : Effect.publish n ∈ (i.step s).2) :
    n.isOwn = true ∧ n.name = i.name := by
  have hmem := mem_publications.2 hn
  by_cases hfresh : i.phase = .fresh
  · rcases says_first hfresh s with htold | htold
    · rw [htold] at hmem
      cases hmem
    · rw [htold] at hmem
      exact List.mem_singleton.1 hmem ▸ ⟨rfl, rfl⟩
  · by_cases hopen : ∀ ending, i.phase ≠ .announcing ending
    · cases says_step hfresh hopen s with
      | nothing hquiet =>
        rw [hquiet] at hmem
        cases hmem
      | transitioned event target payload htold =>
        rw [htold] at hmem
        exact List.mem_singleton.1 hmem ▸ ⟨rfl, rfl⟩
      | rejected event rejection htold =>
        rw [htold] at hmem
        exact List.mem_singleton.1 hmem ▸ ⟨rfl, rfl⟩
      | terminated ending hleaving htold =>
        rw [htold] at hmem
        exact List.mem_singleton.1 hmem ▸ ⟨rfl, rfl⟩
      | cut ending fault hleaving hgiven hcancelled hquiet =>
        rw [hquiet] at hmem
        cases hmem
    · obtain ⟨ending, hphase⟩ : ∃ ending, i.phase = .announcing ending := by simpa using hopen
      rw [(step_announcing hphase s).1] at hmem
      cases hmem

/-- A body comes to its end from the announcement of it, or from its beginning, or because the
terminate hook is cut short by a cancellation. -/
theorem finished_of_step {s : Stimulus} {ending : Ending}
    (hgoing : ∀ ending, i.phase ≠ .finished ending)
    (hphase : (i.step s).1.phase = .finished ending) :
    i.phase = .fresh ∨ (∃ ending, i.phase = .announcing ending) ∨
      ∃ ending fault, i.phase = .terminating ending ∧ s = .handled (.error fault) ∧
        fault.isCancellation = true := by
  by_cases hfresh : i.phase = .fresh
  · exact .inl hfresh
  by_cases hopen : ∀ ending, i.phase ≠ .announcing ending
  · cases says_step hfresh hopen s with
    | nothing _ _ _ _ hstayed => exact absurd (hstayed ending hphase) (hgoing ending)
    | transitioned _ _ _ _ _ hpublishing => cases hpublishing.symm.trans hphase
    | rejected _ _ _ _ hpublishing => cases hpublishing.symm.trans hphase
    | terminated _ _ _ _ _ hannouncing => cases hannouncing.symm.trans hphase
    | cut other fault hleaving hgiven hcancelled =>
      exact .inr (.inr ⟨other, fault, hleaving, hgiven, hcancelled⟩)
  · exact .inr (.inl (by simpa using hopen))

/-! ## The log of a run -/

/-- What has been told of an instance, by where its body stands: nothing before its first step, or
if it was cancelled before; all that came of its requests; its end. -/
inductive Logged (i : Instance) (log : List Notification) : Prop where
  | silent (hphase : i.phase = .fresh ∨ ∃ ending, i.phase = .finished ending)
    (hcurrent : i.runState.current = i.machine.table.initial) (hhistory : i.runState.history = [])
    (hlog : log = [])
  | going (hbegun : i.phase ≠ .fresh) (hopen : ∀ ending, i.phase ≠ .announcing ending)
    (hlog : Log i.name i.machine log i.runState.current i.runState.history)
  | closed
    (hphase : (∃ ending, i.phase = .announcing ending) ∨ ∃ ending, i.phase = .finished ending)
    {before : List Notification}
    (hlog : Log i.name i.machine before i.runState.current i.runState.history)
    (hclosed : log = before ++ [.terminated i.name i.stopReason i.runState])
    (hstopped : i.alive = false ∧ i.stopReason.isSome = true)

theorem logged_create (machine : Machine) (name payload : Value) :
    (create machine name payload).Logged [] := .silent (.inl rfl) rfl rfl rfl

/-- What comes from outside is not told. -/
theorem Logged.post (h : i.Logged log) (r : Request) : (i.move (.post r)).Logged log := by
  simp only [move, Instance.post]
  by_cases halive : i.alive = true
  · rw [if_pos halive]
    cases h with
    | silent hphase hcurrent hhistory hlog => exact .silent hphase hcurrent hhistory hlog
    | going hbegun hopen hlog => exact .going hbegun hopen hlog
    | closed hphase hlog hclosed hstopped => exact .closed hphase hlog hclosed hstopped
  · rw [if_neg halive]
    exact h

theorem Logged.abandon (h : i.Logged log) (call : Nat) : (i.abandon call).Logged log := by
  cases h with
  | silent hphase hcurrent hhistory hlog => exact .silent hphase hcurrent hhistory hlog
  | going hbegun hopen hlog => exact .going hbegun hopen hlog
  | closed hphase hlog hclosed hstopped => exact .closed hphase hlog hclosed hstopped

theorem Logged.step_silent (hphase : i.phase = .fresh)
    (hcurrent : i.runState.current = i.machine.table.initial) (hhistory : i.runState.history = [])
    (s : Stimulus) : (i.step s).1.Logged (publications (i.step s).2) := by
  cases s with
  | start =>
    simp only [Instance.step, hphase, begin]
    refine .going (by simp) (by simp) ?_
    show Log i.name i.machine [.started i.name i.machine.name i.runState.current]
      i.runState.current i.runState.history
    rw [hcurrent, hhistory]
    exact .started
  | cancel =>
    simp only [Instance.step, hphase]
    exact .silent (.inr ⟨_, rfl⟩) hcurrent hhistory rfl
  | _ =>
    simp only [Instance.step, hphase]
    exact .silent (.inl hphase) hcurrent hhistory rfl

theorem Logged.step_going (haccounted : i.Accounted)
    (hlog : Log i.name i.machine log i.runState.current i.runState.history)
    (hbegun : i.phase ≠ .fresh) (hopen : ∀ ending, i.phase ≠ .announcing ending) (s : Stimulus) :
    (i.step s).1.Logged (log ++ publications (i.step s).2) := by
  have hsame := i.step_becomes s
  cases says_step hbegun hopen s with
  | nothing hquiet hrunState hbegun hopen hgoing =>
    refine .going hbegun hopen ?_
    rw [hquiet, hrunState, hsame.name, hsame.machine, List.append_nil]
    exact hlog
  | transitioned event target payload htold hrunState hphase =>
    refine .going (by simp [hphase]) (by simp [hphase]) ?_
    rw [htold, hrunState, hsame.name, hsame.machine]
    exact hlog.transitioned event target
  | rejected event rejection htold hrunState hphase =>
    refine .going (by simp [hphase]) (by simp [hphase]) ?_
    rw [htold, hrunState, hsame.name, hsame.machine]
    exact hlog.rejected event rejection
  | terminated ending hleaving htold hrunState hreason hphase =>
    obtain ⟨other, hleaving⟩ := hleaving
    have hout : i.phase.isOut = true := by rw [hleaving]; rfl
    have hstopped := haccounted.stopped hout (by simp [hleaving])
    have hlater := stopped_step hstopped.1 s
    rw [← hrunState, ← hsame.name, ← hsame.machine] at hlog
    refine .closed (.inl ⟨ending, hphase⟩) hlog ?_ ⟨hlater.alive, hreason ▸ hstopped.2⟩
    rw [htold, hrunState, hreason, hsame.name]
  | cut ending fault hleaving hgiven hcancelled hquiet hrunState hphase =>
    refine .going (by simp [hphase]) (by simp [hphase]) ?_
    rw [hquiet, hrunState, hsame.name, hsame.machine, List.append_nil]
    exact hlog

/-- What a step says is added to the log, which stays true of the instance. -/
theorem Logged.step (h : i.Logged log) (haccounted : i.Accounted) (s : Stimulus) :
    (i.step s).1.Logged (log ++ publications (i.step s).2) := by
  have hfinished : ∀ {ending}, i.phase = .finished ending →
      (i.step s).1.Logged (log ++ publications (i.step s).2) := by
    intro ending hphase
    rw [step_finished hphase]
    exact (List.append_nil log).symm ▸ h
  cases h with
  | silent hphase hcurrent hhistory hlog =>
    rcases hphase with hphase | ⟨ending, hphase⟩
    · rw [hlog]
      exact step_silent hphase hcurrent hhistory s
    · exact hfinished hphase
  | going hbegun hopen hlog => exact step_going haccounted hlog hbegun hopen s
  | closed hphase hlog hclosed hstopped =>
    rcases hphase with ⟨ending, hphase⟩ | ⟨ending, hphase⟩
    · obtain ⟨hquiet, hnext⟩ := step_announcing hphase s
      have hrests := rests_step (i := i) (by rw [hphase]; rfl) s
      have hsame := i.step_becomes s
      rw [hquiet, List.append_nil]
      rw [← hsame.name, ← hsame.machine, ← hrests.runState] at hlog
      rw [← hrests.stopReason, ← hsame.name, ← hrests.runState] at hclosed
      exact .closed (hnext.imp_left fun h => ⟨ending, h⟩) hlog hclosed
        ⟨hrests.alive.trans hstopped.1, hrests.stopReason ▸ hstopped.2⟩
    · exact hfinished hphase

/-- What has been told of an instance is a faithful record of its run. -/
theorem Logged.chronicle (h : i.Logged log) : Chronicle i log := by
  cases h with
  | silent hphase hcurrent hhistory hlog =>
    subst hlog
    refine ⟨⟨[], none, i.runState, by simp, List.nil_prefix⟩, by simp, ?_, ?_, by simp⟩
    · intro before n behind heq
      simp at heq
    · rw [hcurrent, hhistory]
      rfl
  | going hbegun hopen hlog =>
    obtain ⟨passing, hpassing, heq⟩ := hlog.shape
    refine ⟨⟨passing, none, i.runState, hpassing, ?_⟩, hlog.named, hlog.linked, hlog.replay_eq, ?_⟩
    · rw [heq]
      exact List.prefix_append _ _
    · intro name reason runState hmem
      have hnone := List.countP_eq_zero.1 hlog.not_terminated _ hmem
      exact absurd rfl hnone
  | closed hphase hlog hclosed hstopped =>
    rename_i before
    obtain ⟨passing, hpassing, heq⟩ := hlog.shape
    subst hclosed
    refine ⟨⟨passing, i.stopReason, i.runState, hpassing, ?_⟩, ?_, ?_, ?_, ?_⟩
    · exact heq ▸ List.prefix_rfl
    · intro n hn
      rcases List.mem_append.1 hn with hn | hn
      · exact hlog.named n hn
      · exact List.mem_singleton.1 hn ▸ rfl
    · exact Log.linked_snoc hlog.linked (congrArg some hlog.reached_eq.symm)
    · have hreplayed := hlog.replay_eq
      unfold replay at hreplayed ⊢
      rw [List.foldl_append, hreplayed]
      rfl
    · intro name reason runState hmem
      rcases List.mem_append.1 hmem with hmem | hmem
      · exact absurd rfl (List.countP_eq_zero.1 hlog.not_terminated _ hmem)
      · obtain ⟨-, rfl, rfl⟩ := Notification.terminated.inj (List.mem_singleton.1 hmem)
        exact ⟨rfl, rfl, hstopped⟩

end Instance
end Turnstile
