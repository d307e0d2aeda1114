-- Observers change nothing: a run in which subscribers watch, refuse and raise, and the same run
-- without any subscriber, are the same to every instance and to every caller. They differ in the
-- log, and in the lines that the subscribers wrote.
import Turnstile.Proofs.Supervisor.Deeds
import Turnstile.Proofs.Supervisor.Shown
import Turnstile.Proofs.Supervisor.Touches

namespace Turnstile

/-! ## What a caller is handed -/

/-- What a deed hands to whoever did it, at once. -/
inductive Handed where
  | nothing
  | accepted (result : Except Fault Unit)
  | made (result : Except Fault Nat)
  | returned (r : Returned)
  | flag (b : Bool)

/-- What a host hands to whoever does a deed. -/
def Host.hands (h : Host) : Deed → Handed
  | .start choice name payload => .made (h.start choice name payload).2
  | .send s => .accepted ((h.send s).map fun _ => ())
  | .query name kind argument => .returned (h.query name kind argument).2
  | .wait name => .returned (h.wait name).2
  | .stop name timeout => .returned (h.stop name timeout).2
  | .shutdown timeout => .returned (h.shutdown timeout).2
  | .giveUp call => .flag (h.cancelCall call).2
  | .create choice name payload outlet => .made (h.create choice name payload outlet).2
  | .tell t event payload => .accepted ((h.post t (.transition event payload)).map fun _ => ())
  | .ask t question => .returned (h.ask t question).2
  | .requestStop t => .accepted ((h.post t .stop).map fun _ => ())
  | .cancel t => .flag (h.cancelTask t).2
  | .step | .pass _ | .register _ | .subscribe _ | .startTask _ => .nothing

/-! ## Other subscribers -/

/-- Whether a deed changes who is subscribed to what. -/
def Deed.subscribes : Deed → Bool
  | .subscribe _ => true
  | _ => false

/-- A bus is tame if all that subscribed to it are. -/
theorem Bus.tame_of_topics {bus : Bus Observer} (htame : ∀ entry ∈ bus.topics, ∀ s ∈ entry.2, ∀ n,
    Uncancelled (s.handler.accepts n) ∧ Uncancelled (s.handler.result n)) : bus.Tame := by
  intro topic s hs
  unfold Bus.onTopic at hs
  cases hlookup : bus.topics.lookup topic with
  | none => simp [hlookup] at hs
  | some subscriptions =>
    obtain ⟨before, later, htopics, -⟩ := List.lookup_eq_some_iff.1 hlookup
    have hmem : (topic, subscriptions) ∈ bus.topics := by simp [htopics]
    exact htame _ hmem s (by simpa [hlookup] using hs)

namespace Host

/-- A host as it is amid other subscribers, when other things were seen of it. -/
def amid (h : Host) (bus : Bus Observer) (events : List Event) : Host :=
  { h with bus := bus, events := events }

variable {h g : Host} {t : Nat} (bus : Bus Observer) (events : List Event)

@[simp]
theorem amid_task? (h : Host) (t : Nat) : (h.amid bus events).task? t = h.task? t := rfl

@[simp]
theorem amid_settings (h : Host) : (h.amid bus events).settings = h.settings := rfl

@[simp]
theorem amid_holders (h : Host) : (h.amid bus events).holders = h.holders := rfl

@[simp]
theorem amid_calls (h : Host) : (h.amid bus events).calls = h.calls := rfl

@[simp]
theorem amid_hasEnded (h : Host) (t : Nat) : (h.amid bus events).hasEnded t = h.hasEnded t := rfl

@[simp]
theorem amid_lookup (h : Host) (name : Value) :
    (h.amid bus events).lookup name = h.lookup name := rfl

@[simp]
theorem amid_holder? (h : Host) (name : Value) :
    (h.amid bus events).holder? name = h.holder? name := rfl

@[simp]
theorem amid_live (h : Host) : (h.amid bus events).live = h.live := rfl

@[simp]
theorem amid_choose (h : Host) (choice : MachineChoice) :
    (h.amid bus events).choose choice = h.choose choice := by
  cases choice <;> rfl

@[simp]
theorem amid_enqueue (h : Host) (j : Job) :
    (h.amid bus events).enqueue j = (h.enqueue j).amid bus events := rfl

@[simp]
theorem amid_addCall (h : Host) (call : Call) : (h.amid bus events).addCall call =
    ((h.addCall call).1.amid bus events, (h.addCall call).2) := rfl

/-! ## What takes no notice of subscribers -/

theorem amid_pause (h : Host) (t : Nat) (p : Pause) :
    (h.amid bus events).pause t p = (h.pause t p).amid bus events := by
  cases p with
  | none => rfl
  | forever => rfl
  | seconds s =>
    unfold pause
    simp only
    split <;> rfl

theorem amid_post (h : Host) (t : Nat) (r : Request) :
    (h.amid bus events).post t r = (h.post t r).map (·.amid bus events) := by
  unfold post
  rw [amid_task?]
  cases h.task? t with
  | none => rfl
  | some task =>
    simp only
    cases task.inst.post r with
    | error fault => rfl
    | ok inst =>
      simp only
      split <;> rfl

theorem amid_send (h : Host) (s : Send) :
    (h.amid bus events).send s = (h.send s).map (·.amid bus events) := by
  unfold Host.send
  rw [amid_lookup]
  cases h.lookup s.name with
  | error fault => rfl
  | ok t => exact amid_post bus events h t _

theorem amid_sendAll (h : Host) (sends : List Send) :
    (h.amid bus events).sendAll sends =
      ((h.sendAll sends).1.amid bus events, (h.sendAll sends).2) := by
  induction sends generalizing h with
  | nil => rfl
  | cons s sends ih =>
    unfold sendAll
    rw [amid_send]
    cases h.send s with
    | error fault => rfl
    | ok h' => exact ih h'

theorem amid_cancelTask (h : Host) (t : Nat) : (h.amid bus events).cancelTask t =
    ((h.cancelTask t).1.amid bus events, (h.cancelTask t).2) := by
  unfold cancelTask
  rw [amid_task?]
  cases h.task? t with
  | none => rfl
  | some task =>
    simp only
    cases task.run <;> rfl

theorem amid_watch (h : Host) (t c : Nat) :
    (h.amid bus events).watch t c = (h.watch t c).amid bus events := by
  unfold watch
  rw [amid_hasEnded]
  split <;> rfl

theorem amid_resolve (h : Host) (c : Nat) (result : Except Fault Answer) :
    (h.amid bus events).resolve c result = (h.resolve c result).amid bus events := by
  unfold resolve
  rw [amid_calls]
  split <;> rfl

/-- What is done for each of several tasks or calls takes no notice if each of its parts does
not. -/
theorem amid_foldl {α : Type} {f : Host → α → Host}
    (hf : ∀ h x, f (h.amid bus events) x = (f h x).amid bus events) (xs : List α) (h : Host) :
    xs.foldl f (h.amid bus events) = (xs.foldl f h).amid bus events :=
  List.foldl_hom (fun h : Host => h.amid bus events) hf

theorem amid_foldl_pair {α β : Type} {f : Host × β → α → Host × β}
    (hf : ∀ h y x, f (h.amid bus events, y) x = ((f (h, y) x).1.amid bus events, (f (h, y) x).2))
    (xs : List α) (h : Host) (y : β) : xs.foldl f (h.amid bus events, y) =
      ((xs.foldl f (h, y)).1.amid bus events, (xs.foldl f (h, y)).2) := by
  induction xs generalizing h y with
  | nil => rfl
  | cons x xs ih =>
    rw [List.foldl_cons, List.foldl_cons, hf]
    exact ih _ _

theorem amid_endTask (h : Host) (t : Nat) (task : Task) :
    (h.amid bus events).endTask t task = (h.endTask t task).amid bus events := by
  unfold endTask
  refine Eq.trans ?_ (amid_foldl bus events (f := fun h c => h.enqueue (.taskEnded c))
    (fun _ _ => rfl) task.watchers _)
  simp only
  split <;> rfl

theorem amid_wake (h : Host) (t serial : Nat) :
    (h.amid bus events).wake t serial = (h.wake t serial).amid bus events := by
  unfold wake
  rw [amid_task?]
  cases h.task? t with
  | none => rfl
  | some task =>
    simp only
    split <;> rfl

theorem amid_finishCall (h : Host) (c : Nat) (call : Call) (result : Except Fault CallAnswer) :
    (h.amid bus events).finishCall c call result =
      (h.finishCall c call result).amid bus events := by
  unfold finishCall
  cases call.parent <;> rfl

theorem amid_leaveStage (h : Host) (c : Nat) (stage : Stage) :
    (h.amid bus events).leaveStage c stage = (h.leaveStage c stage).amid bus events := by
  cases stage <;> rfl

theorem amid_openWindow (h : Host) (c : Nat) (call : Call) (t : Nat) (timeout : Number) :
    (h.amid bus events).openWindow c call t timeout =
      (h.openWindow c call t timeout).amid bus events := by
  unfold openWindow
  exact amid_watch bus events ((h.setCall c _).setTimer timeout (.close c)) t c

theorem amid_release (h : Host) (c : Nat) :
    (h.amid bus events).release c = (h.release c).amid bus events := by
  unfold release
  rw [amid_calls]
  cases h.calls[c]? with
  | none => rfl
  | some call =>
    simp only
    cases call.run <;> rfl

theorem amid_joined (h : Host) (p : Nat) (cancelled : Bool) :
    (h.amid bus events).joined p cancelled = (h.joined p cancelled).amid bus events := by
  unfold joined
  rw [amid_calls]
  cases h.calls[p]? with
  | none => rfl
  | some call =>
    simp only
    split
    · split
      · exact amid_release bus events (h.setCall p _) p
      · rfl
    · rfl

theorem amid_start (h : Host) (choice : MachineChoice) (name payload : Value) :
    (h.amid bus events).start choice name payload =
      ((h.start choice name payload).1.amid bus events, (h.start choice name payload).2) := by
  unfold start
  rw [amid_choose, amid_holder?]
  cases h.choose choice with
  | error fault => rfl
  | ok machine =>
    simp only
    split
    · rfl
    · split
      · rfl
      · cases machine <;> rfl

theorem amid_create (h : Host) (choice : MachineChoice) (name payload : Value) (outlet : Outlet) :
    (h.amid bus events).create choice name payload outlet =
      ((h.create choice name payload outlet).1.amid bus events,
        (h.create choice name payload outlet).2) := by
  unfold create
  rw [amid_choose]
  cases h.choose choice with
  | error fault => rfl
  | ok machine => cases machine <;> rfl

theorem amid_startTask (h : Host) (t : Nat) :
    (h.amid bus events).startTask t = (h.startTask t).amid bus events := by
  unfold startTask
  rw [amid_task?]
  cases h.task? t with
  | none => rfl
  | some task =>
    simp only
    split <;> rfl

theorem amid_ask (h : Host) (t : Nat) (question : Question) :
    (h.amid bus events).ask t question =
      ((h.ask t question).1.amid bus events, (h.ask t question).2) := by
  unfold ask
  simp only [amid_addCall, amid_post]
  cases Host.post _ t _ <;> rfl

theorem amid_query (h : Host) (name : Value) (kind : String) (argument : Value) :
    (h.amid bus events).query name kind argument =
      ((h.query name kind argument).1.amid bus events, (h.query name kind argument).2) := by
  unfold query
  rw [amid_lookup]
  cases h.lookup name with
  | error fault => rfl
  | ok t =>
    simp only
    cases Question.ofKind kind argument with
    | error fault => rfl
    | ok question => exact amid_ask bus events h t question

theorem amid_waitTask (h : Host) (t : Nat) : (h.amid bus events).waitTask t =
    ((h.waitTask t).1.amid bus events, (h.waitTask t).2) := by
  unfold waitTask
  simp only [amid_addCall, amid_watch]

theorem amid_wait (h : Host) (name : Value) :
    (h.amid bus events).wait name = ((h.wait name).1.amid bus events, (h.wait name).2) := by
  unfold wait
  rw [amid_holder?]
  split
  · rfl
  · cases h.holder? name with
    | none => rfl
    | some held => exact amid_waitTask bus events h held.1

theorem amid_stop (h : Host) (name : Value) (timeout : Option Number) :
    (h.amid bus events).stop name timeout =
      ((h.stop name timeout).1.amid bus events, (h.stop name timeout).2) := by
  unfold stop
  rw [amid_lookup]
  cases h.lookup name with
  | error fault => rfl
  | ok t =>
    simp only [amid_post]
    cases h.post t .stop with
    | error fault => rfl
    | ok posted =>
      simp only [Except.map, amid_addCall, amid_openWindow]
      rfl

theorem amid_addGuards (h : Host) (parent : Nat) (timeout : Number) (tasks : List Nat) :
    (h.amid bus events).addGuards parent timeout tasks =
      ((h.addGuards parent timeout tasks).1.amid bus events,
        (h.addGuards parent timeout tasks).2) := by
  induction tasks generalizing h with
  | nil => rfl
  | cons t tasks ih =>
    unfold addGuards
    simp only [amid_addCall, amid_enqueue, ih]

theorem amid_shutdown (h : Host) (timeout : Option Number) : (h.amid bus events).shutdown timeout =
    ((h.shutdown timeout).1.amid bus events, (h.shutdown timeout).2) := by
  unfold shutdown
  rw [amid_live]
  simp only
  split
  · rfl
  · rw [amid_foldl bus events]
    · simp only [amid_addCall, amid_addGuards]
      rfl
    · intro h t
      rw [amid_post]
      cases h.post t .stop <;> rfl

theorem amid_cancelPlain (h : Host) (c : Nat) (call : Call) :
    (h.amid bus events).cancelPlain c call =
      ((h.cancelPlain c call).1.amid bus events, (h.cancelPlain c call).2) := by
  unfold cancelPlain
  cases call.run with
  | done result => rfl
  | queued cancelled => rfl
  | waiting cancelled =>
    simp only
    cases call.stage <;> rfl

theorem amid_cancelCall (h : Host) (c : Nat) : (h.amid bus events).cancelCall c =
    ((h.cancelCall c).1.amid bus events, (h.cancelCall c).2) := by
  unfold cancelCall
  rw [amid_calls]
  cases h.calls[c]? with
  | none => rfl
  | some call =>
    simp only
    split
    · rename_i children left requested _ _
      rw [amid_foldl_pair bus events]
      · generalize List.foldl _ (h, false) children = called
        obtain ⟨h', any⟩ := called
        cases any <;> rfl
      · intro h any d
        simp only [amid_calls]
        cases h.calls[d]? with
        | none => rfl
        | some child => simp only [amid_cancelPlain]
    · exact amid_cancelPlain bus events h c call

theorem amid_accepting {result : Except Fault Host} : (h.amid bus events).accepting
    (result.map (·.amid bus events)) = (h.accepting result).amid bus events := by
  cases result <;> rfl

/-- Apart from the steps of the host itself and from subscribing, nothing that is done takes notice
of subscribers. -/
theorem amid_act (h : Host) {d : Deed} (hstep : d ≠ .step) (hsubscribes : d.subscribes = false) :
    (h.amid bus events).act d = (h.act d).amid bus events := by
  cases d with
  | step => exact absurd rfl hstep
  | pass time => rfl
  | register registry => rfl
  | subscribe bus' => cases hsubscribes
  | start choice name payload => exact congrArg (·.1) (amid_start bus events h choice name payload)
  | send s =>
    simp only [act, amid_send]
    exact amid_accepting bus events
  | query name kind argument => exact congrArg (·.1) (amid_query bus events h name kind argument)
  | wait name => exact congrArg (·.1) (amid_wait bus events h name)
  | stop name timeout => exact congrArg (·.1) (amid_stop bus events h name timeout)
  | shutdown timeout => exact congrArg (·.1) (amid_shutdown bus events h timeout)
  | giveUp c => exact congrArg (·.1) (amid_cancelCall bus events h c)
  | create choice name payload outlet =>
    exact congrArg (·.1) (amid_create bus events h choice name payload outlet)
  | startTask t => exact amid_startTask bus events h t
  | tell t event payload =>
    simp only [act, amid_post]
    exact amid_accepting bus events
  | ask t question => exact congrArg (·.1) (amid_ask bus events h t question)
  | requestStop t =>
    simp only [act, amid_post]
    exact amid_accepting bus events
  | cancel t => exact congrArg (·.1) (amid_cancelTask bus events h t)

/-- What a caller is handed has nothing to do with subscribers. -/
theorem amid_hands (h : Host) (d : Deed) : (h.amid bus events).hands d = h.hands d := by
  cases d with
  | send s =>
    simp only [hands, amid_send]
    cases h.send s <;> rfl
  | tell t event payload =>
    simp only [hands, amid_post]
    cases h.post t (.transition event payload) <;> rfl
  | requestStop t =>
    simp only [hands, amid_post]
    cases h.post t .stop <;> rfl
  | _ => simp only [hands, amid_start, amid_query, amid_wait, amid_stop, amid_shutdown,
      amid_cancelCall, amid_create, amid_ask, amid_cancelTask]

/-! ## Twins -/

/-- Two hosts that differ in their subscribers, all of them tame, and in what these left behind. -/
structure Twin (h g : Host) : Prop where
  same : g = h.amid g.bus g.events
  told : g.events.filter Event.tells = h.events.filter Event.tells
  tame : h.bus.Tame
  tame' : g.bus.Tame

/-- What does not look at subscribers sees no difference between twins. -/
theorem Twin.view (htwin : Twin h g) {α : Type} {v : Host → α}
    (hv : ∀ (bus : Bus Observer) (events : List Event) (h : Host), v (h.amid bus events) = v h) :
    v g = v h :=
  (congrArg v htwin.same).trans (hv g.bus g.events h)

theorem Twin.task? (htwin : Twin h g) (t : Nat) : g.task? t = h.task? t :=
  htwin.view (v := fun h => h.task? t) fun _ _ _ => rfl

/-- What takes no notice of subscribers leaves twins alike. -/
theorem Twin.map (htwin : Twin h g) {f : Host → Host}
    (hf : ∀ (bus : Bus Observer) (events : List Event) (h : Host),
      f (h.amid bus events) = (f h).amid bus events) : Twin (f h) (f g) := by
  have hh : f h = (f h).amid h.bus h.events := hf h.bus h.events h
  have hg : f g = (f h).amid g.bus g.events :=
    (congrArg f htwin.same).trans (hf g.bus g.events h)
  refine ⟨?_, ?_, ?_, ?_⟩
  · rw [hg]
    rfl
  · rw [hg, hh]
    exact htwin.told
  · rw [hh]
    exact htwin.tame
  · rw [hg]
    exact htwin.tame'

theorem Twin.see (htwin : Twin h g) (e : Event) : Twin (h.see e) (g.see e) := by
  refine ⟨?_, ?_, htwin.tame, htwin.tame'⟩
  · exact congrArg (·.see e) htwin.same
  · show (g.events ++ [e]).filter _ = (h.events ++ [e]).filter _
    rw [List.filter_append, List.filter_append, htwin.told]

theorem Twin.lines (htwin : Twin h g) (texts : List String) :
    Twin (texts.foldl (fun h text => h.see (.line text)) h)
      (texts.foldl (fun h text => h.see (.line text)) g) := by
  induction texts generalizing h g with
  | nil => exact htwin
  | cons text texts ih => exact ih (htwin.see (.line text))

/-- The one place where subscribers come in. They leave faults in the log, and lines, neither of
which tell of an instance; `publish_tame` says that the one who publishes hears of neither. -/
theorem Twin.publish (htwin : Twin h g) (scope : Option Value) (n : Notification) :
    Twin (h.publish scope n).1 (g.publish scope n).1 := by
  obtain ⟨seen, hseen⟩ := h.publish_eq scope n
  obtain ⟨seen', hseen'⟩ := g.publish_eq scope n
  have htold : seen'.filter Event.tells = seen.filter Event.tells := by
    have hh : (h.publish scope n).1.face.told = (h.see (.published .shared n)).face.told :=
      congrArg Face.told (face_publish h scope n)
    have hg : (g.publish scope n).1.face.told = (g.see (.published .shared n)).face.told :=
      congrArg Face.told (face_publish g scope n)
    rw [hseen] at hh
    rw [hseen'] at hg
    exact hg.trans ((htwin.see (.published .shared n)).told.trans hh.symm)
  rw [hseen, hseen']
  exact ⟨congrArg (fun g : Host => { g with events := seen' }) htwin.same, htold, htwin.tame,
    htwin.tame'⟩

/-! ## The body of a task -/

theorem Twin.noteCall (htwin : Twin h g) (name : Value) (origin : Origin) (call : HookCall) :
    Twin (h.noteCall name origin call) (g.noteCall name origin call) :=
  (htwin.see (.hook name origin call)).map
    (f := fun h => { h with past := (name, call) :: h.past }) fun _ _ _ => rfl

theorem Twin.react {α : Type} (htwin : Twin h g) (t : Nat) (r : Reaction α)
    (stimulus : Except Fault α → Stimulus) :
    Twin (h.react t r stimulus) (g.react t r stimulus) := by
  have hlines := htwin.lines r.lines
  unfold Host.react
  simp only
  generalize List.foldl _ h r.lines = h' at hlines
  generalize List.foldl _ g r.lines = g' at hlines
  have hsends := hlines.map (f := fun h => (h.sendAll r.sends).1)
    fun bus events h => congrArg (·.1) (amid_sendAll bus events h r.sends)
  -- whether a request of the hook is taken decides how it goes on
  have hfault : (g'.sendAll r.sends).2 = (h'.sendAll r.sends).2 := by
    rw [hlines.same, amid_sendAll]
  generalize h'.sendAll r.sends = sent at hsends hfault
  generalize g'.sendAll r.sends = sent' at hsends hfault
  obtain ⟨h'', fault⟩ := sent
  obtain ⟨g'', fault'⟩ := sent'
  obtain rfl : fault' = fault := hfault
  cases fault' with
  | some fault => exact hsends.map (f := fun h => h.setAnswer t _) fun _ _ _ => rfl
  | none =>
    have hanswer := hsends.map (f := fun h => h.setAnswer t (stimulus r.result)) fun _ _ _ => rfl
    exact hanswer.map (f := fun h => h.pause t r.pause) fun bus events h =>
      amid_pause bus events h t r.pause

/-- Whatever the body of a task wants done is done alike. -/
theorem Twin.perform (htwin : Twin h g) (t : Nat) (e : Effect) :
    Twin (h.perform t e) (g.perform t e) := by
  have hpast : g.past = h.past := htwin.view fun _ _ _ => rfl
  unfold Host.perform
  rw [htwin.task? t]
  cases h.task? t with
  | none => exact htwin
  | some task =>
    cases e with
    | log level text => exact htwin.see _
    | askTransition call =>
      simp only [hpast]
      exact (htwin.noteCall _ _ _).react t _ _
    | askFailure call =>
      simp only [hpast]
      exact (htwin.noteCall _ _ _).react t _ _
    | askTerminate runState =>
      simp only [hpast]
      exact (htwin.noteCall _ _ _).react t _ _
    | publish n =>
      simp only
      cases task.outlet with
      | nowhere => exact htwin.map (f := fun h => h.setAnswer t _) fun _ _ _ => rfl
      | own => exact (htwin.see _).map (f := fun h => h.setAnswer t _) fun _ _ _ => rfl
      | shared =>
        have hpublished := htwin.publish (some task.inst.name) n
        simp only [publish_tame htwin.tame, publish_tame htwin.tame']
        exact hpublished.map (f := fun h => h.setAnswer t (.published (.ok ()))) fun _ _ _ => rfl
    | answer c result =>
      exact htwin.map (f := fun h => h.resolve c result) fun bus events h =>
        amid_resolve bus events h c result

theorem Twin.effects (htwin : Twin h g) (t : Nat) (effects : List Effect) :
    Twin (effects.foldl (fun h e => h.perform t e) h)
      (effects.foldl (fun h e => h.perform t e) g) := by
  induction effects generalizing h g with
  | nil => exact htwin
  | cons e effects ih => exact ih (htwin.perform t e)

theorem Twin.feed (htwin : Twin h g) (t : Nat) (s : Stimulus) : Twin (h.feed t s) (g.feed t s) := by
  unfold Host.feed
  rw [htwin.task? t]
  cases h.task? t with
  | none => exact htwin
  | some task =>
    have hmoved := htwin.map (f := fun h => h.setTask t
      { task with inst := (task.inst.step s).1, answer := none }) fun _ _ _ => rfl
    exact hmoved.effects t (task.inst.step s).2

theorem Twin.runTask (htwin : Twin h g) (t : Nat) : Twin (h.runTask t) (g.runTask t) := by
  unfold Host.runTask
  rw [htwin.task? t]
  cases h.task? t with
  | none => exact htwin.map (f := fun h => { h with running := none }) fun _ _ _ => rfl
  | some task =>
    have hblock : ∀ run, Twin (h.block t run) (g.block t run) := fun run =>
      htwin.map (f := fun h => h.block t run) fun _ _ _ => rfl
    simp only
    cases task.inst.phase with
    | finished ending =>
      exact htwin.map (f := fun h => h.endTask t task) fun bus events h =>
        amid_endTask bus events h t task
    | fresh => exact htwin.feed t .start
    | idle =>
      simp only
      split
      · exact hblock .receiving
      · exact htwin.feed t .receive
    | _ =>
      simp only
      cases task.answer with
      | some s => exact htwin.feed t s
      | none => exact hblock (.paused none)

theorem Twin.resume (htwin : Twin h g) (t : Nat) : Twin (h.resume t) (g.resume t) := by
  unfold Host.resume
  rw [htwin.task? t]
  cases h.task? t with
  | none => exact htwin
  | some task =>
    simp only
    cases task.run with
    | queued cancelled =>
      have hactive := htwin.map (f := fun h => h.activate t task) fun _ _ _ => rfl
      cases cancelled with
      | true => exact hactive.feed t task.inst.cancellation
      | false => exact hactive
    | _ => exact htwin

/-! ## The steps of the host -/

theorem Twin.afterCrash (htwin : Twin h g) (task : Task) (fault : Fault) :
    Twin (h.afterCrash task fault) (g.afterCrash task fault) := by
  -- both sides read the same settings, names and times by definition once `g` is spelt out
  obtain ⟨bus, events, rfl⟩ : ∃ bus events, g = h.amid bus events := ⟨_, _, htwin.same⟩
  have hrestarts : ∀ {h g : Host}, Twin h g → ∀ times,
      Twin { h with restarts := setName h.restarts task.inst.name times }
        { g with restarts := setName g.restarts task.inst.name times } := fun htwin times =>
    htwin.map (f := fun h => { h with restarts := setName h.restarts task.inst.name times })
      fun _ _ _ => rfl
  have hrecent : (h.amid bus events).recentRestarts task.inst.name =
      h.recentRestarts task.inst.name := rfl
  unfold Host.afterCrash
  simp only [hrecent, amid_settings, amid_holders]
  cases h.settings.restart with
  | temporary => exact htwin.see _
  | transient =>
    simp only
    split
    · exact htwin
    · split
      · exact hrestarts (htwin.see _) (h.recentRestarts task.inst.name)
      · have hcounted := hrestarts htwin (h.recentRestarts task.inst.name ++ [h.clock])
        have hspawned := fun text => (hcounted.see (.logged none .warning text)).map
          (f := fun h => (h.spawn task.inst.machine task.inst.name task.inst.initialPayload none).1)
          fun _ _ _ => rfl
        exact (hspawned _).map (f := fun h => h.enqueue (.announce task.inst.name _ fault))
          fun _ _ _ => rfl

theorem Twin.exited (htwin : Twin h g) (t : Nat) : Twin (h.exited t) (g.exited t) := by
  unfold Host.exited
  rw [htwin.task? t]
  cases h.task? t with
  | none => exact htwin
  | some task =>
    have hvacated := htwin.map (f := fun h => if lookupName h.holders task.inst.name = some t then
      { h with holders := eraseName h.holders task.inst.name } else h) fun bus events h => by
        show (if lookupName h.holders task.inst.name = some t then _ else _) = _
        split <;> rfl
    simp only
    cases task.inst.phase with
    | finished ending =>
      cases ending with
      | failed fault => exact hvacated.afterCrash task fault
      | _ => exact hvacated
    | _ => exact hvacated

/-- A stop whose window is over says so and cancels the task. -/
theorem Twin.force (htwin : Twin h g) (c : Nat) (call : Call) (t : Nat) (name : Value)
    (text : String) :
    Twin
      ((((h.note .warning name text).cancelTask t).1.setCall c
        { call with stage := .forced t, run := .waiting false }).watch t c)
      ((((g.note .warning name text).cancelTask t).1.setCall c
        { call with stage := .forced t, run := .waiting false }).watch t c) := by
  have hnoted : Twin (h.note .warning name text) (g.note .warning name text) := htwin.see _
  have hcancelled := hnoted.map (f := fun h => (h.cancelTask t).1) fun bus events h =>
    congrArg (·.1) (amid_cancelTask bus events h t)
  have hset := hcancelled.map (f := fun h => h.setCall c
    { call with stage := .forced t, run := .waiting false }) fun _ _ _ => rfl
  exact hset.map (f := fun h => h.watch t c) fun bus events h => amid_watch bus events h t c

theorem Twin.proceed (htwin : Twin h g) (c : Nat) : Twin (h.proceed c) (g.proceed c) := by
  have hcalls : g.calls = h.calls := htwin.view fun _ _ _ => rfl
  have hfinish : ∀ {h g : Host}, Twin h g → ∀ call result,
      Twin (h.finishCall c call result) (g.finishCall c call result) :=
    fun htwin call result => htwin.map (f := fun h => h.finishCall c call result)
      fun bus events h => amid_finishCall bus events h c call result
  have hleave : ∀ stage, Twin (h.leaveStage c stage) (g.leaveStage c stage) := fun stage =>
    htwin.map (f := fun h => h.leaveStage c stage) fun bus events h =>
      amid_leaveStage bus events h c stage
  unfold Host.proceed
  rw [hcalls]
  cases h.calls[c]? with
  | none => exact htwin
  | some call =>
    simp only
    cases call.run with
    | waiting _ => exact htwin
    | done _ => exact htwin
    | queued cancelled =>
      cases cancelled with
      | true => exact hfinish (hleave call.stage) call _
      | false =>
        simp only
        cases hstage : call.stage with
        | reply t result => exact hfinish htwin call _
        | exit t => exact hfinish htwin call _
        | closing t timeout =>
          exact htwin.map (f := fun h => h.openWindow c call t timeout) fun bus events h =>
            amid_openWindow bus events h c call t timeout
        | window t timeout =>
          have hleft := hleave (.window t timeout)
          have hended := hleft.view (v := fun h => h.hasEnded t) fun _ _ _ => rfl
          have hname := hleft.view (v := fun h => h.task? t) fun _ _ _ => rfl
          simp only [hended, hname]
          split
          · exact hfinish hleft call _
          · exact hleft.force c call t _ _
        | forced t => exact hfinish htwin call _
        | join children left => exact hfinish htwin call _

theorem Twin.runJob (htwin : Twin h g) (j : Job) : Twin (h.runJob j) (g.runJob j) := by
  have hrelease : ∀ c, Twin (h.release c) (g.release c) := fun c =>
    htwin.map (f := fun h => h.release c) fun bus events h => amid_release bus events h c
  cases j with
  | resume t => exact htwin.resume t
  | exited t => exact htwin.exited t
  | taskEnded c => exact hrelease c
  | proceed c => exact htwin.proceed c
  | joined p cancelled =>
    exact htwin.map (f := fun h => h.joined p cancelled) fun bus events h =>
      amid_joined bus events h p cancelled
  | wake t serial =>
    exact htwin.map (f := fun h => h.wake t serial) fun bus events h =>
      amid_wake bus events h t serial
  | close c => exact hrelease c
  | announce name attempt fault => exact htwin.publish none (.restarted name attempt fault)

theorem Twin.step (htwin : Twin h g) : Twin h.step g.step := by
  have hrunning : g.running = h.running := htwin.view fun _ _ _ => rfl
  have hbatch : g.batch = h.batch := htwin.view fun _ _ _ => rfl
  cases hrun : h.running with
  | some t =>
    rw [step_running hrun, step_running (hrunning.trans hrun)]
    exact htwin.runTask t
  | none =>
    have hrun' := hrunning.trans hrun
    cases hjobs : h.batch with
    | nil =>
      rw [step_turn hrun hjobs, step_turn hrun' (hbatch.trans hjobs)]
      exact htwin.map fun _ _ _ => rfl
    | cons j rest =>
      rw [step_job hrun hjobs, step_job hrun' (hbatch.trans hjobs)]
      have htaken := htwin.map (f := fun h => { h with batch := rest }) fun _ _ _ => rfl
      exact htaken.runJob j

/-- Whatever is done to twins, they stay twins, if the subscribers stay tame. -/
theorem Twin.act (htwin : Twin h g) {d : Deed} (hd : d.subscribes = false) :
    Twin (h.act d) (g.act d) := by
  by_cases hstep : d = .step
  · subst hstep
    exact htwin.step
  · exact htwin.map (f := fun h => h.act d) fun bus events h => amid_act bus events h hstep hd

theorem Twin.subscribe (htwin : Twin h g) {bus : Bus Observer} (htame : bus.Tame) :
    Twin (h.act (.subscribe bus)) g :=
  ⟨htwin.same, htwin.told, htame, htwin.tame'⟩

/-- A run with its subscribers, and the same run without them. -/
theorem Twin.after (htwin : Twin h g) (deeds : List Deed)
    (htame : ∀ bus, .subscribe bus ∈ deeds → bus.Tame) :
    Twin (h.after deeds) (g.after (deeds.filter fun d => !d.subscribes)) := by
  induction deeds generalizing h g with
  | nil => exact htwin
  | cons d deeds ih =>
    have hrest : ∀ bus, .subscribe bus ∈ deeds → bus.Tame := fun bus hmem =>
      htame bus (List.mem_cons_of_mem d hmem)
    cases hd : d.subscribes with
    | false =>
      rw [List.filter_cons_of_pos (by simp [hd])]
      exact ih (htwin.act hd) hrest
    | true =>
      rw [List.filter_cons_of_neg (by simp [hd])]
      cases d with
      | subscribe bus => exact ih (htwin.subscribe (htame bus List.mem_cons_self)) hrest
      | _ => cases hd

/-! ## The law -/

/-- A host with subscribers, and one without: to its instances and its callers it is the same. -/
structure Undisturbed (h g : Host) : Prop where
  /-- The same hooks were called with the same arguments, and the same was published, restarts with
  their attempts among it, all in the same order. -/
  told : g.events.filter Event.tells = h.events.filter Event.tells
  /-- The instances are the same, with their run states and the reasons for which they stopped. -/
  tasks : g.tasks = h.tasks
  /-- The names are held by the same instances, and have the same restarts behind them. -/
  holders : g.holders = h.holders
  restarts : g.restarts = h.restarts
  /-- Whoever waited for something got the same reply or the same fault. -/
  results : ∀ c, g.result? c = h.result? c
  /-- Whoever does something next is handed the same. -/
  hands : ∀ d, g.hands d = h.hands d
  isAlive : ∀ name, g.isAlive name = h.isAlive name
  get : ∀ name, g.get name = h.get name
  names : g.names = h.names
  /-- The one comes to rest when the other does, so that to let everything run is to take as many
  steps. -/
  isIdle : g.isIdle = h.isIdle
  /-- Nothing else differs but the subscribers, the log and the lines. -/
  same : g = { h with bus := g.bus, events := g.events }

theorem Twin.undisturbed (htwin : Twin h g) : Undisturbed h g where
  told := htwin.told
  tasks := htwin.view fun _ _ _ => rfl
  holders := htwin.view fun _ _ _ => rfl
  restarts := htwin.view fun _ _ _ => rfl
  results c := htwin.view (v := fun h => h.result? c) fun _ _ _ => rfl
  hands d := htwin.view (v := fun h => h.hands d) fun bus events h => amid_hands bus events h d
  isAlive name := htwin.view (v := fun h => h.isAlive name) fun _ _ _ => rfl
  get name := htwin.view (v := fun h => h.get name) fun _ _ _ => rfl
  names := htwin.view (v := fun h => h.names) fun _ _ _ => rfl
  isIdle := htwin.view (v := fun h => h.isIdle) fun _ _ _ => rfl
  same := htwin.same

/-- In every run, and at every moment of it: subscribers that only watch, refuse and raise make no
difference. The same deeds with nobody subscribed lead to the same. A subscriber may do one thing
now and another later, since any deed may put others in its place. -/
theorem observers_change_nothing (settings : Settings) (registry : Registry) (bus : Bus Observer)
    (deeds : List Deed) (hbus : bus.Tame) (hdeeds : ∀ bus', .subscribe bus' ∈ deeds → bus'.Tame) :
    Undisturbed ((opened settings registry bus).after deeds)
      ((opened settings registry {}).after (deeds.filter fun d => !d.subscribes)) := by
  have hempty : ({} : Bus Observer).Tame := Bus.tame_of_topics nofun
  have hopened : Twin (opened settings registry bus) (opened settings registry {}) :=
    ⟨rfl, rfl, hbus, hempty⟩
  exact (hopened.after deeds hdeeds).undisturbed

/-- An instance crashes and is started again. One subscriber writes a line and runs out of memory,
and the one that comes after it raises when asked whether it wants to hear of the restart: a line
and two faults in the log are all that is left of them. -/
theorem a_watched_crash_is_the_same_crash :
    let machine := Machine.ofTable "t" ⟨"a", [⟨"a", "go", .terminal⟩], []⟩
      { onTransition := some ⟨.rules, fun _ _ => { result := .error (.plain .exhausted "") }⟩ }
    let exhausted : Observer :=
      ⟨fun _ => .ok true, fun _ => ["heard"], fun _ => .error (.plain .exhausted "")⟩
    let picky : Observer := ⟨fun _ => .error (.plain .value "no"), fun _ => [], fun _ => .ok ()⟩
    let bus : Bus Observer := ⟨[("fsm.started", [⟨0, 3, exhausted⟩])], 1⟩
    let later : Bus Observer := ⟨[("fsm.restarted", [⟨1, 3, picky⟩])], 2⟩
    let deeds := .start (.given machine) (.text "x") .null :: List.replicate 6 .step ++
      .send ⟨.text "x", .text "go", .null⟩ :: .subscribe later :: List.replicate 24 .step
    let h := (opened {} [] bus).after deeds
    let g := (opened {} [] {}).after (deeds.filter fun d => !d.subscribes)
    (bus.Tame ∧ ∀ bus', .subscribe bus' ∈ deeds → bus'.Tame) ∧ Undisturbed h g ∧
      g.tasks.map (·.inst.stopReason) = [some .crash, none] ∧
      (g.events.filter Event.tells).length = 6 ∧ h.events.length = g.events.length + 3 := by
  intro machine exhausted picky bus later deeds h g
  have hfault : ∀ {α : Type} (fault : Fault), fault.isCancellation = false →
      Uncancelled (Except.error fault : Except Fault α) := by
    rintro α fault hfault _ ⟨⟩
    exact hfault
  have hok : ∀ {α : Type} (x : α), Uncancelled (Except.ok x : Except Fault α) := fun _ => nofun
  have hbus : bus.Tame := by
    refine Bus.tame_of_topics ?_
    simp only [bus, List.forall_mem_singleton]
    exact fun n => ⟨hok true, hfault _ rfl⟩
  have hlater : later.Tame := by
    refine Bus.tame_of_topics ?_
    simp only [later, List.forall_mem_singleton]
    exact fun n => ⟨hfault _ rfl, hok ()⟩
  have hdeeds : ∀ bus', .subscribe bus' ∈ deeds → bus'.Tame := by
    intro bus' hmem
    obtain rfl : bus' = later := by simpa [deeds] using hmem
    exact hlater
  refine ⟨⟨hbus, hdeeds⟩, observers_change_nothing {} [] bus deeds hbus hdeeds, ?_, ?_, ?_⟩
  · decide +kernel
  · decide +kernel
  · decide +kernel

end Host
end Turnstile
