-- Instances are reached under their names: whatever is started through the service under a name without
-- a slash takes the requests of all paths that spell this name, and no other instance does. Nothing is
-- ever asked of an instance with a slash in its name.
import Turnstile.Proofs.Http.Paths
import Turnstile.Proofs.Http.Refined
import Turnstile.Proofs.Supervisor.Unanswered
import Turnstile.Proofs.Supervisor.Upheld

namespace Turnstile.Http

open Service (get fieldsOf? stateFields respond)

variable {h k h' : Host} {t c n : Nat} {name s : String} {task : Task} {response : Response}

/-! ## Responses -/

/-- What is told of an instance: the run state that it had when the question took its turn, or that it
has stopped since. As long as there is no answer, whoever asks is kept waiting, and what is returned
here is the error of a call that never gets one. -/
inductive Tells (h : Host) (t c n : Nat) (name : String) : Response → Prop where
  | state {j : Nat} {task : Task} (hj : j < n) (ht : (Host.step^[j] h).task? t = some task)
    (halive : task.inst.alive = true) :
    Tells h t c n name (.ok 200 (stateFields (.state task.inst.runState)))
  | gone {task : Task} (ht : (Host.step^[n] h).task? t = some task)
    (hstopped : task.inst.alive = false) : Tells h t c n name (Directory.missing name)
  | pending {j : Nat} (hj : j ≤ n) (hpending : h.Pending c j) : Tells h t c n name (.bare 500)

/-- What is told of a stop: that the task has ended. As long as it has not, there is no answer. -/
inductive Confirms (h : Host) (t c n : Nat) : Response → Prop where
  | stopped (hended : (Host.step^[n] h).hasEnded t = true) :
    Confirms h t c n (.note 200 "stopped")
  | pending {j : Nat} (hj : j ≤ n) (hpending : h.Pending c j) : Confirms h t c n (.bare 500)

/-- What requests come to whose paths spell the name of a running instance. -/
structure Reached (k : Host) (t : Nat) (name s : String) : Prop where
  /-- The paths lead to the routes of just this name. -/
  routes : findRoute "GET" (decodeTarget ("/instances/" ++ s)) = .found (.state name) ∧
    findRoute "POST" (decodeTarget ("/instances/" ++ s ++ "/events")) = .found (.send name) ∧
    findRoute "DELETE" (decodeTarget ("/instances/" ++ s)) = .found (.stop name)
  /-- A request for a transition is taken in by this instance, and by no other. -/
  sent : ∀ fields, ∃ k' n,
    respond k ⟨"POST", "/instances/" ++ s ++ "/events", some (.record fields)⟩ =
      (Host.step^[n] k', .note 202 "sent") ∧
    k.Lodged k' t (.transition (get fields "event") (get fields "payload"))
  /-- A question for the run state is put to this instance, and to no other, which is the one that
  answers. -/
  asked : ∀ body, ∃ k' n,
    (respond k ⟨"GET", "/instances/" ++ s, body⟩).1 = Host.step^[n] k' ∧
    k.Lodged k' t (.query k.calls.length .state false) ∧
    Tells k' t k.calls.length n name (respond k ⟨"GET", "/instances/" ++ s, body⟩).2
  /-- So is the request to stop. -/
  stopped : ∀ body, ∃ k' n,
    (respond k ⟨"DELETE", "/instances/" ++ s, body⟩).1 = Host.step^[n] k' ∧ k.Lodged k' t .stop ∧
    Confirms k' t k.calls.length n (respond k ⟨"DELETE", "/instances/" ++ s, body⟩).2
  /-- An instance at rest answers at once. -/
  told : k.IsStuck → ∀ task, k.task? t = some task → task.Rests → ∀ body,
    (respond k ⟨"GET", "/instances/" ++ s, body⟩).2 =
      .ok 200 (stateFields (.state task.inst.runState))
  /-- If its hooks only compute, it stops at once, and its name is free. -/
  left : k.IsStuck → k.bus.Tame → ∀ task, k.task? t = some task → task.Rests →
    task.inst.machine.hooks.Plain → ∀ body,
    (respond k ⟨"DELETE", "/instances/" ++ s, body⟩).2 = .note 200 "stopped" ∧
    lookupName (respond k ⟨"DELETE", "/instances/" ++ s, body⟩).1.holders (.text name) = none
  /-- Only a hook that never returns keeps a running instance from answering, whatever happens. -/
  answers : ∀ deeds, ((k.act (.query (.text name) "state" .null)).after deeds).IsStuck →
    ((k.act (.query (.text name) "state" .null)).after deeds).Waits k.calls.length t →
    ((k.act (.query (.text name) "state" .null)).after deeds).Runs t (.text name) →
    ((k.act (.query (.text name) "state" .null)).after deeds).HangsInHook t
  /-- Only its terminate hook keeps it from ending. -/
  ends : ∀ deeds, ((k.act (.stop (.text name) none)).after deeds).IsStuck →
    ((k.act (.stop (.text name) none)).after deeds).result? k.calls.length = none →
    ((k.act (.stop (.text name) none)).after deeds).HangsInTerminate t

/-! ## Handling -/

/-- All that is known of a host at any time that matters to whoever calls it. -/
structure Open (k : Host) : Prop where
  tended : k.Tended
  served : k.Served
  hungry : k.office.Hungry

theorem Open.after (hopen : Open k) (deeds : List Deed) : Open (k.after deeds) where
  tended := hopen.tended.after deeds
  served := hopen.served.after deeds
  hungry := hopen.hungry.moves (hopen.tended.attended.after deeds).2

theorem open_opened (settings : Settings) (registry : Registry) (bus : Bus Observer) :
    Open (Host.opened settings registry bus) where
  tended := Host.tended_opened settings registry bus
  served := Host.served_opened settings registry bus
  hungry := Host.hungry_after settings registry bus []

theorem isName_text (name : String) : (Value.text name).IsName := ⟨rfl, by simp [Value.same]⟩

/-- A running instance is found under its name. -/
theorem Open.lookup (hopen : Open k) (hruns : k.Runs t (.text name)) :
    ∃ task, k.task? t = some task ∧ task.inst.name = .text name ∧ task.inst.alive = true ∧
      k.lookup (.text name) = .ok t := by
  have hheld := Host.holder_of_runs hopen.tended.attended.orderly (isName_text name) hruns
  obtain ⟨task, ht, -, hname, halive, -⟩ := hruns
  refine ⟨task, ht, hname, halive, ?_⟩
  unfold Host.lookup
  simp [Host.holder?_of_lookup ht hheld, halive, Value.isKey]

/-- A response is given first, and then the host goes on until there is nothing to do. -/
theorem respond_steps (k : Host) {method target : String} (body : Option Value) {route : Route}
    (hroute : findRoute method (decodeTarget target) = .found route) :
    (∃ m, (respond k ⟨method, target, body⟩).1 =
      Host.step^[m] (Service.handle k body route).1) ∧
    (respond k ⟨method, target, body⟩).2 = (Service.handle k body route).2 := by
  rw [Service.respond_found hroute]
  obtain ⟨m, hm⟩ := Host.settle_steps 1000000 (Service.handle k body route).1
  exact ⟨⟨m, hm⟩, rfl⟩

/-! ## Questions -/

/-- What is told of an instance stays true. -/
theorem Tells.later (htells : Tells h t c n name response) (hserved : h.Served) (m : Nat) :
    Tells h t c (m + n) name response := by
  cases htells with
  | state hj ht halive => exact .state (Nat.lt_add_left m hj) ht halive
  | pending hj hpending => exact .pending (Nat.le_add_left_of_le hj) hpending
  | gone ht hstopped =>
    have hserved' : (Host.step^[n] h).Served := by
      rw [Host.iterate_step]
      exact hserved.after _
    obtain ⟨task', ht', hstopped', -⟩ :=
      hserved'.stays_stopped ht hstopped (List.replicate m .step)
    rw [← Host.iterate_step, ← Function.iterate_add_apply] at ht'
    exact .gone ht' hstopped'

theorem handle_state (hlookup : k.lookup (.text name) = .ok t) (body : Option Value) :
    Service.handle k body (.state name) =
      Service.answered (Host.await (k.ask t .state)) stateFields := by
  have hquery : k.query (.text name) "state" .null = k.ask t .state := by
    unfold Host.query
    rw [hlookup]
    rfl
  show Service.answered (Host.await (k.query (.text name) "state" .null)) stateFields = _
  rw [hquery]

theorem answered_fst (r : Host × Except Fault CallAnswer)
    (fields : Answer → List (String × Value)) : (Service.answered r fields).1 = r.1 := by
  unfold Service.answered
  split <;> rfl

/-- The question for the run state is put to the instance that runs under the name. -/
theorem Open.tells (hopen : Open k) (hruns : k.Runs t (.text name)) (body : Option Value) :
    ∃ k' n, (Service.handle k body (.state name)).1 = Host.step^[n] k' ∧ k'.Served ∧
      k.Lodged k' t (.query k.calls.length .state false) ∧
      Tells k' t k.calls.length n name (Service.handle k body (.state name)).2 := by
  obtain ⟨task, ht, hname, halive, hlookup⟩ := hopen.lookup hruns
  obtain ⟨k', hasked, -, hlodged⟩ := Host.ask_lodged ht halive .state
  have hact : k.act (.ask t .state) = k' := congrArg Prod.fst hasked
  obtain ⟨n, hsteps, hends⟩ := hopen.served.await_ask ht halive .state
  rw [show (k.ask t .state).1 = k' from hact] at hsteps hends
  rw [handle_state hlookup]
  generalize Host.await (k.ask t .state) = r at hsteps hends
  obtain ⟨g, result⟩ := r
  obtain rfl : g = Host.step^[n] k' := hsteps
  have hserved : k'.Served := by
    rw [← hact]
    exact hopen.served.act (.ask t .state)
  refine ⟨k', n, answered_fst _ _, hserved, hlodged, ?_⟩
  rcases hends with ⟨j, hj, task', ht', halive', rfl⟩ | ⟨task', ht', hstopped, rfl⟩ |
    ⟨hpending, rfl⟩
  · exact .state hj ht' halive'
  · -- The instance has kept its name.
    obtain ⟨other, moves, hother, hinst⟩ :=
      Host.moves_of_after ht (.ask t .state :: List.replicate n .step)
    have hlast : (Host.step^[n] k').task? t = some other := by
      rw [Host.iterate_step, ← hact]
      exact hother
    obtain rfl := Option.some.inj (ht'.symm.trans hlast)
    have hkept : task'.inst.name = .text name :=
      (hinst ▸ task.inst.after_name moves).trans hname
    rw [hkept]
    exact .gone ht' hstopped
  · exact .pending (le_refl n) hpending

/-! ## Stops -/

/-- The request to stop is put to the instance that runs under the name. -/
theorem Open.confirms (hopen : Open k) (hruns : k.Runs t (.text name)) (body : Option Value)
    (m : Nat) : ∃ k' n, (Service.handle k body (.stop name)).1 = Host.step^[n] k' ∧
      k.Lodged k' t .stop ∧
      Confirms k' t k.calls.length (m + n) (Service.handle k body (.stop name)).2 := by
  obtain ⟨task, ht, -, halive, hlookup⟩ := hopen.lookup hruns
  obtain ⟨k', hstop, -, hlodged⟩ := Host.stop_lodged hlookup ht halive none
  have hact : k.act (.stop (.text name) none) = k' := congrArg Prod.fst hstop
  have hattended : k'.Attended := hact ▸ (hopen.tended.attended.act (.stop (.text name) none)).1
  obtain ⟨n, hsteps, hends⟩ := hopen.tended.attended.await_stop hlookup ht halive none
  rw [show (k.stop (.text name) none).1 = k' from hact] at hsteps hends
  unfold Service.handle
  simp only
  generalize Host.await (k.stop (.text name) none) = r at hsteps hends
  obtain ⟨g, result⟩ := r
  obtain rfl : g = Host.step^[n] k' := hsteps
  refine ⟨k', n, ?_⟩
  rcases hends with ⟨⟨a, rfl⟩, hseen⟩ | ⟨hpending, rfl⟩
  · refine ⟨rfl, hlodged, .stopped ?_⟩
    have hlater := (hattended.steps n).seenOff_after hseen (List.replicate m .step)
    rw [← Host.iterate_step, ← Function.iterate_add_apply] at hlater
    exact (hattended.steps (m + n)).ended_of_seenOff hlater
  · exact ⟨rfl, hlodged, .pending (Nat.le_add_left n m) hpending⟩

/-! ## Requests -/

/-- Whoever asks the instance waits for nothing but one of its hooks. -/
theorem Open.answers (hopen : Open k) (deeds : List Deed)
    (hstuck : ((k.act (.query (.text name) "state" .null)).after deeds).IsStuck)
    (hwaits : ((k.act (.query (.text name) "state" .null)).after deeds).Waits k.calls.length t)
    (hruns : ((k.act (.query (.text name) "state" .null)).after deeds).Runs t (.text name)) :
    ((k.act (.query (.text name) "state" .null)).after deeds).HangsInHook t := by
  have hlater := hopen.after (.query (.text name) "state" .null :: deeds)
  exact hlater.tended.hangs_of_waits hlater.served hlater.hungry hstuck hruns hwaits

section
variable (hopen : Open k) (hruns : k.Runs t (.text name))
include hopen hruns

/-- A request for a transition is posted to the instance that runs under the name. -/
theorem Open.sends (fields : List (String × Value)) : ∃ k',
    Service.handle k (some (.record fields)) (.send name) = (k', .note 202 "sent") ∧
    k.Lodged k' t (.transition (get fields "event") (get fields "payload")) := by
  obtain ⟨task, ht, -, halive, hlookup⟩ := hopen.lookup hruns
  obtain ⟨k', hpost, hlodged, -⟩ :=
    Host.lodged_post ht halive (.transition (get fields "event") (get fields "payload"))
  have hsend : k.send ⟨.text name, get fields "event", get fields "payload"⟩ = .ok k' := by
    unfold Host.send
    rw [hlookup]
    exact hpost
  refine ⟨k', ?_, hlodged⟩
  show Service.send k name fields = _
  unfold Service.send
  rw [hsend]

/-- An instance at rest tells its run state. -/
theorem Open.tells_resting (hstuck : k.IsStuck) (ht : k.task? t = some task) (hrests : task.Rests)
    (body : Option Value) : (Service.handle k body (.state name)).2 =
      .ok 200 (stateFields (.state task.inst.runState)) := by
  obtain ⟨-, -, -, -, hlookup⟩ := hopen.lookup hruns
  obtain ⟨f, hask, hresult, _, -, -, -, -, hcalm⟩ := Host.query_answered hstuck ht hrests .state
  have hact := (hopen.tended.attended.act (.ask t .state)).1
  rw [Host.act, hask] at hact
  obtain ⟨g, hawait, -⟩ := hact.await_eq (by decide) hcalm.stuck.isIdle hresult
  rw [handle_state hlookup, hask, hawait]
  rfl

/-- An instance at rest, with hooks that only compute, stops, and its name is free. -/
theorem Open.leaves_resting (hstuck : k.IsStuck) (htame : k.bus.Tame) (ht : k.task? t = some task)
    (hrests : task.Rests) (hplain : task.inst.machine.hooks.Plain) (body : Option Value) :
    (Service.handle k body (.stop name)).2 = .note 200 "stopped" ∧
      lookupName (Service.handle k body (.stop name)).1.settled.holders (.text name) = none := by
  have hheld := Host.holder_of_runs hopen.tended.attended.orderly (isName_text name) hruns
  obtain ⟨other, hother, hname, -, -⟩ := hopen.lookup hruns
  obtain rfl := Option.some.inj (ht.symm.trans hother)
  obtain ⟨f, hstop, hresult, task', hcalm⟩ := Host.stop_answered hstuck htame ht (hname ▸ hheld)
    (by rw [hname]; rfl) hrests hplain none
  rw [hname] at hstop
  have hact := (hopen.tended.attended.act (.stop (.text name) none)).1
  rw [Host.act, hstop] at hact
  obtain ⟨g, hawait, hsettled⟩ := hact.await_eq (by decide) hcalm.stuck.isIdle hresult
  have hhandle : Service.handle k body (.stop name) = (g, .note 200 "stopped") := by
    unfold Service.handle
    simp only [hstop, hawait]
  have hkeys : ∀ p ∈ k.holders, p.1.isKey = true := hopen.tended.attended.orderly.apart.1
  rw [hhandle, hsettled, hcalm.holders, hname, lookupName_eraseName hkeys rfl,
    if_pos (isName_text name).refl]
  exact ⟨rfl, rfl⟩

/-- Whoever stops the instance waits for nothing but its terminate hook. -/
theorem Open.ends (deeds : List Deed)
    (hstuck : ((k.act (.stop (.text name) none)).after deeds).IsStuck)
    (hresult : ((k.act (.stop (.text name) none)).after deeds).result? k.calls.length = none) :
    ((k.act (.stop (.text name) none)).after deeds).HangsInTerminate t := by
  obtain ⟨task, ht, -, halive, hlookup⟩ := hopen.lookup hruns
  obtain ⟨k', hstop, -, -⟩ := Host.stop_lodged hlookup ht halive none
  have hlater : (k.stop (.text name) none).2 = .later k.calls.length := congrArg Prod.snd hstop
  obtain ⟨u, hlookup', hhangs⟩ := hopen.tended.stop_hangs hlater hstuck hresult
  obtain rfl := Except.ok.inj (hlookup.symm.trans hlookup')
  exact hhangs

theorem Open.reached (hname : name ≠ "") (hslash : '/' ∉ name.toList)
    (hspelling : Spelling name s) : Reached k t name s := by
  obtain ⟨hget, hpost, hdelete⟩ := findRoute_spelled hname hslash hspelling
  constructor
  case routes => exact ⟨hget, hpost, hdelete⟩
  case sent =>
    intro fields
    obtain ⟨⟨m, hm⟩, hresponse⟩ := respond_steps k (some (.record fields)) hpost
    obtain ⟨k', hhandle, hlodged⟩ := hopen.sends hruns fields
    rw [hhandle] at hm hresponse
    exact ⟨k', m, Prod.ext hm hresponse, hlodged⟩
  case asked =>
    intro body
    obtain ⟨⟨m, hm⟩, hresponse⟩ := respond_steps k body hget
    obtain ⟨k', n, hhandle, hserved, hlodged, htells⟩ := hopen.tells hruns body
    refine ⟨k', m + n, ?_, hlodged, ?_⟩
    · rw [hm, hhandle, Function.iterate_add_apply]
    · rw [hresponse]
      exact htells.later hserved m
  case stopped =>
    intro body
    obtain ⟨⟨m, hm⟩, hresponse⟩ := respond_steps k body hdelete
    obtain ⟨k', n, hhandle, hlodged, hconfirms⟩ := hopen.confirms hruns body m
    refine ⟨k', m + n, ?_, hlodged, ?_⟩
    · rw [hm, hhandle, Function.iterate_add_apply]
    · rwa [hresponse]
  case told =>
    intro hstuck task ht hrests body
    rw [Service.respond_found hget]
    exact hopen.tells_resting hruns hstuck ht hrests body
  case left =>
    intro hstuck htame task ht hrests hplain body
    rw [Service.respond_found hdelete]
    exact hopen.leaves_resting hruns hstuck htame ht hrests hplain body
  case answers => exact hopen.answers
  case ends => exact hopen.ends hruns

end

/-! ## Starts -/

/-- A refusal has one of the statuses of refusals, or the service is broken. -/
theorem ofFault_status (refusals : List (ReportKind × Nat)) (fault : Fault) :
    (Response.ofFault refusals fault).status ∈ 500 :: refusals.map (·.2) := by
  unfold Response.ofFault
  split
  · split
    · rename_i status hfound
      obtain ⟨before, behind, hlist, -⟩ := List.lookup_eq_some_iff.1 hfound
      refine List.mem_cons_of_mem _ ?_
      rw [hlist, List.map_append]
      exact List.mem_append_right _ List.mem_cons_self
    · exact List.mem_cons_self
  · exact List.mem_cons_self

/-- Whatever is started without a fault runs under its name. -/
theorem runs_of_start {choice : MachineChoice} {value payload : Value}
    (horderly : h.roster.Orderly) (hvalue : value.IsName)
    (hstart : h.start choice value payload = (h', .ok t)) : h'.Runs t value := by
  unfold Host.start at hstart
  split at hstart
  · cases (Prod.mk.inj hstart).2
  · rename_i chosen _
    split at hstart
    · cases (Prod.mk.inj hstart).2
    · simp only at hstart
      split at hstart
      · cases (Prod.mk.inj hstart).2
      · cases chosen with
        | error v => cases (Prod.mk.inj hstart).2
        | ok machine =>
          obtain ⟨rfl, ht⟩ := Prod.mk.inj hstart
          obtain rfl := Except.ok.inj ht
          have horderly' : (h.fresh value).nextNumber.1.roster.Orderly := horderly.count value []
          exact (Host.spawn_runs horderly' machine hvalue payload (some h.numbers)).2

/-- What is created under a name runs under it, and the name is not empty. -/
theorem Open.created (hopen : Open h) {fields : List (String × Value)}
    (hcreated : (Service.start h fields).2.status = 201) : ∃ name t choice,
      get fields "name" = .text name ∧ name ≠ "" ∧
      (Service.start h fields).1 = h.act (.start choice (.text name) (get fields "payload")) ∧
      (Service.start h fields).1.Runs t (.text name) := by
  unfold Service.start at hcreated ⊢
  cases hname : get fields "name" with
  | text name =>
    simp only [hname] at hcreated ⊢
    split at hcreated
    · cases hcreated
    · rename_i hsome
      rw [if_neg hsome]
      split at hcreated
      · rename_i fault _
        have hstatus := ofFault_status [(.config, 404), (.start, 409)] fault
        rw [hcreated] at hstatus
        exact absurd hstatus (by decide)
      · rename_i h' t hstart
        have hruns := runs_of_start hopen.tended.attended.orderly (isName_text name) hstart
        exact ⟨name, t, _, rfl, fun hempty => hsome (by rw [hempty]; rfl),
          (congrArg Prod.fst hstart).symm, hruns⟩
  | _ =>
    rw [hname] at hcreated
    cases hcreated

/-- What a name comes to under which the service has made an instance. -/
structure Addressed (made : Host) (name : String) : Prop where
  runs : ∃ t, made.Runs t (.text name)
  /-- The name can be spelled in a path. -/
  spelled : ∃ s, Spelling name s
  /-- Without a slash in the name, whatever runs under it at any time later is reached. -/
  reached : '/' ∉ name.toList → ∀ more t, (made.after more).Runs t (.text name) →
    ∀ s, Spelling name s → Reached (made.after more) t name s
  /-- With a slash in the name, no request whatsoever is about it. -/
  unreached : '/' ∈ name.toList → ∀ method target route,
    findRoute method (decodeTarget target) = .found route → route.name? ≠ some name

/-- Whatever is started through the service under a name without a slash is reached by the requests
that spell its name, at any time and as long as it runs, and nothing else is. -/
theorem names_without_slashes_are_reached (settings : Settings) (registry : Registry)
    (bus : Bus Observer) (deeds : List Deed) (body : Option Value)
    (hcreated : (respond ((Host.opened settings registry bus).after deeds)
      ⟨"POST", "/instances", body⟩).2.status = 201) :
    ∃ fields name, body = some (.record fields) ∧ get fields "name" = .text name ∧
      Addressed (Service.start ((Host.opened settings registry bus).after deeds) fields).1 name := by
  have hopen := (open_opened settings registry bus).after deeds
  generalize (Host.opened settings registry bus).after deeds = h at hcreated hopen ⊢
  rw [Service.respond_found routes_of_x.1] at hcreated
  unfold Service.handle at hcreated
  simp only at hcreated
  split at hcreated
  · rename_i fields hfields
    have hbody : body = some (.record fields) := by
      unfold fieldsOf? at hfields
      split at hfields
      · rw [Option.some.inj hfields]
      · cases hfields
    obtain ⟨name, t, choice, hname, hsome, hmade, hruns⟩ := hopen.created hcreated
    refine ⟨fields, name, hbody, hname, ⟨t, hruns⟩, exists_spelling name, ?_, ?_⟩
    · intro hslash more u hruns' s hspelling
      rw [hmade] at hruns' ⊢
      exact (hopen.after (_ :: more)).reached hruns' hsome hslash hspelling
    · intro hslash method target route hroute hname
      exact slash_not_mem_of_found hroute hname hslash
  · cases hcreated

/-- An instance with a blank in its name tells its run state, and stops. -/
theorem a_name_with_a_blank_is_reached :
    let settings : Settings := ⟨.whole 5, .transient, .whole 3, .whole 5⟩
    let machine := Machine.ofTable "t" ⟨"idle", [⟨"idle", "end", .terminal⟩], []⟩
      { onTransition := some ⟨.rules, fun _ _ => { result := .ok (.success .terminal .null) }⟩ }
    let h := (Host.opened settings [("t", machine)] {}).after []
    let fields := [("name", .text "a b"), ("fsm_type", .text "t")]
    let k := (Service.start h fields).1.after (List.replicate 5 .step)
    (respond h ⟨"POST", "/instances", some (.record fields)⟩).2.status = 201 ∧
      k.Runs 0 (.text "a b") ∧ Spelling "a b" "a%20b" ∧
      (respond k ⟨"GET", "/instances/a%20b", none⟩).2 =
        .ok 200 [("current", .text "idle"), ("payload", .null), ("history", .texts [])] ∧
      (respond k ⟨"DELETE", "/instances/a%20b", none⟩).2 = .note 200 "stopped" := by
  intro settings machine h fields k
  have hplain : machine.hooks.Plain := ⟨fun _ _ => ⟨⟨rfl, nofun⟩, rfl⟩,
    fun _ _ => ⟨⟨rfl, nofun⟩, rfl⟩, fun _ _ => ⟨⟨rfl, nofun⟩, rfl⟩⟩
  have htame : h.bus.Tame := fun _ _ hs => nomatch hs
  have hstuck : h.IsStuck := ⟨rfl, rfl, rfl, rfl⟩
  obtain ⟨task, hrests, hname, hmachine, hstate, hcalm⟩ :=
    Host.launched_rests hstuck htame hplain (.text "a b") .null
  have hstart : (Service.start h fields).1 = h.launched machine (.text "a b") .null := rfl
  have hk : Host.step^[5] (h.launched machine (.text "a b") .null) = k := by
    rw [Host.iterate_step, ← hstart]
  rw [hk] at hcalm
  have ht : k.task? 0 = some task := congrArg (·[0]?) hcalm.tasks
  have hruns : k.Runs 0 (.text "a b") :=
    ⟨task, ht, hrests.supervised, hname, hrests.alive, by rw [hrests.run]; nofun⟩
  have hcreated : (respond h ⟨"POST", "/instances", some (.record fields)⟩).2.status = 201 := by
    rw [Service.respond_found routes_of_x.1]
    rfl
  have hblank : Escapes "%20".toList (String.utf8EncodeChar ' ') := .cons rfl rfl .nil
  have hspelling : Spelling "a b" "a%20b" :=
    ⟨.kept rfl (.escaped hblank (.kept rfl .nil)), by decide, by decide⟩
  obtain ⟨_, name, hbody, hgot, haddressed⟩ := names_without_slashes_are_reached settings
    [("t", machine)] {} [] (some (.record fields)) hcreated
  obtain rfl := Value.record.inj (Option.some.inj hbody)
  obtain rfl : "a b" = name := Value.text.inj hgot
  have hreached : Reached k 0 "a b" "a%20b" := haddressed.reached (by decide) _ 0 hruns _ hspelling
  have hpath : "/instances/" ++ "a%20b" = "/instances/a%20b" := by decide
  have htame' : k.bus.Tame := by rw [hcalm.bus]; exact htame
  have hplain' : task.inst.machine.hooks.Plain := by rw [hmachine]; exact hplain
  have htold := hreached.told hcalm.stuck task ht hrests none
  obtain ⟨hleft, -⟩ := hreached.left hcalm.stuck htame' task ht hrests hplain' none
  rw [hpath, hstate] at htold
  rw [hpath] at hleft
  exact ⟨hcreated, hruns, hspelling, htold, hleft⟩

/-- Nobody gets at an instance with a slash in its name: the path that spells the name leads nowhere, or
to what is asked of an instance of another name. -/
theorem a_name_with_a_slash_is_not_reached :
    let settings : Settings := ⟨.whole 5, .transient, .whole 3, .whole 5⟩
    let machine := Machine.ofTable "t" ⟨"idle", [⟨"idle", "end", .terminal⟩], []⟩ {}
    let h := Host.opened settings [("t", machine)] {}
    let fields := [("name", .text "a/b"), ("fsm_type", .text "t")]
    let made := (Service.start h fields).1
    (respond h ⟨"POST", "/instances", some (.record fields)⟩).2.status = 201 ∧
      made.Runs 0 (.text "a/b") ∧ Spelling "a/b" "a%2Fb" ∧
      (respond made ⟨"GET", "/instances/a%2Fb", none⟩).2 = .refusal 404 "Not Found" ∧
      findRoute "GET" (decodeTarget "/instances/a%2Fallowed%2Fb") = .found (.allowed "a" "b") := by
  intro settings machine h fields made
  have hslash : Escapes "%2F".toList (String.utf8EncodeChar '/') := .cons rfl rfl .nil
  have hshort : Spelling "a/b" "a%2Fb" :=
    ⟨.kept rfl (.escaped hslash (.kept rfl .nil)), by decide, by decide⟩
  have hlong : Spelling "a/allowed/b" "a%2Fallowed%2Fb" :=
    ⟨.kept rfl (.escaped hslash (.kept rfl (.kept rfl (.kept rfl (.kept rfl (.kept rfl (.kept rfl
      (.kept rfl (.escaped hslash (.kept rfl .nil)))))))))), by decide, by decide⟩
  have hshortPath : decodeTarget "/instances/a%2Fb" = "/instances/a/b" := by
    rw [show "/instances/a%2Fb" = "/instances/" ++ "a%2Fb" by decide, decodeTarget_name hshort]
    decide
  have hlongPath : decodeTarget "/instances/a%2Fallowed%2Fb" = "/instances/a/allowed/b" := by
    rw [show "/instances/a%2Fallowed%2Fb" = "/instances/" ++ "a%2Fallowed%2Fb" by decide,
      decodeTarget_name hlong]
    decide
  refine ⟨?_, ⟨_, rfl, rfl, rfl, rfl, nofun⟩, hshort, ?_, ?_⟩
  · rw [Service.respond_found routes_of_x.1]
    rfl
  · have hnowhere : findRoute "GET" "/instances/a/b" = .nowhere := by
      unfold findRoute routesAt
      simp only [splitOn_slash]
      decide +kernel
    unfold respond
    simp only [hshortPath, hnowhere]
  · rw [hlongPath]
    unfold findRoute routesAt
    rw [splitOn_slash]
    decide +kernel

end Turnstile.Http
