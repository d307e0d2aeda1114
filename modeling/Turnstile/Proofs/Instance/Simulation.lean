-- One step of a live instance shows the next part of what the interpreter of one request after
-- the other has yet to show.
import Turnstile.Proofs.Instance.Live

namespace Turnstile

open Serial

namespace Live

/-! ## What lies ahead -/

/-- What the interpreter has yet to show, from where the body stands, of the requests that are
not yet taken. -/
def ahead (l : Live) (rest : List Request) : Turn :=
  match l.inst.phase, l.awaited with
  | .fresh, _ =>
    (serveAll l.inst.machine l.inst.name l.inst.runState l.past rest).after
      [.published (.started l.inst.name l.inst.machine.name l.inst.runState.current)]
  | .idle, _ | .publishing, _ =>
    serveAll l.inst.machine l.inst.name l.inst.runState l.past rest
  | .deciding event payload, .decided result =>
    (carryOut l.inst.machine l.inst.name l.inst.runState l.past event payload
      (ruling l.inst.machine.table l.inst.runState.current event result)).goOn
        l.inst.machine l.inst.name rest
  | .reporting event _ rejection, .handled result =>
    (refuse l.inst.name l.inst.runState l.past event rejection result).goOn
      l.inst.machine l.inst.name rest
  | .terminating _, _ =>
    ⟨[.published (.terminated l.inst.name l.inst.stopReason l.inst.runState)],
      l.inst.runState, l.past, l.inst.stopReason⟩
  | _, _ => ⟨[], l.inst.runState, l.past, l.inst.stopReason⟩

/-- What the interpreter has yet to show if more requests are to come. -/
def outlook (l : Live) (more : List Request) : Turn := l.ahead (l.inst.mailbox ++ more)

/-! ## Sights -/

theorem visible_append (gaveUp : List Nat) (xs ys : List Sight) :
    visible gaveUp (xs ++ ys) = visible gaveUp xs ++ visible gaveUp ys := List.filter_append ..

/-- What shows of the requests that are left in the mailbox: answers to the queries that are
still waited for. -/
def dropShown (name : Value) : Request → List Sight
  | .query call _ abandoned =>
    if abandoned then [] else [.answered call (.error (Instance.missing name))]
  | .transition .. | .stop => []

theorem foldl_perform_drop (l : Live) (i : Instance) (rs : List Request) :
    (rs.flatMap i.dropRequest).foldl perform l =
      { l with seen := l.seen ++ rs.flatMap (dropShown i.name) } := by
  induction rs generalizing l with
  | nil => simp
  | cons r rs ih =>
    rw [List.flatMap_cons, List.foldl_append, ih]
    cases r with
    | stop => rfl
    | transition event payload => rfl
    | query call question abandoned =>
      cases abandoned
      · simp [Instance.dropRequest, dropShown, perform]
      · rfl

theorem visible_dropShown {gaveUp : List Nat} {name : Value} {rs : List Request}
    (h : ∀ call question, .query call question true ∈ rs → call ∈ gaveUp) :
    visible gaveUp (rs.flatMap (dropShown name)) = visible gaveUp (rs.flatMap (drop name)) := by
  induction rs with
  | nil => rfl
  | cons r rs ih =>
    have hrest := ih fun call question hr => h call question (List.mem_cons_of_mem _ hr)
    rw [List.flatMap_cons, List.flatMap_cons, visible_append, visible_append, hrest]
    cases r with
    | stop => rfl
    | transition event payload => rfl
    | query call question abandoned =>
      cases abandoned with
      | false => rfl
      | true =>
        have hcall : call ∈ gaveUp := h call question (by simp)
        simp [dropShown, drop, visible, hcall]

/-! ## One step shows what the interpreter shows -/

/-- One live instance comes out of another one and shows a part of what lies ahead; what is
left of it is what lies ahead now. -/
structure Shows (l l' : Live) (ahead : List Request → Turn) : Prop where
  machine : l'.inst.machine = l.inst.machine
  name : l'.inst.name = l.inst.name
  accepted : l'.accepted = l.accepted
  gaveUp : l'.gaveUp = l.gaveUp
  mailbox : ∀ r ∈ l'.inst.mailbox, r ∈ l.inst.mailbox
  alive : l'.inst.alive = true → l.inst.alive = true
  stands : l'.Stands
  sights : ∃ shown, l'.seen = l.seen ++ shown ∧
    ∀ more, (l'.inst.alive = true ∨ more = []) →
      visible l.gaveUp (ahead more).sights =
          visible l.gaveUp (shown ++ (l'.outlook more).sights) ∧
        (ahead more).runState = (l'.outlook more).runState ∧
        (ahead more).stop = (l'.outlook more).stop

variable {l : Live} {event payload : Value}

/-- An instance that stops shows how the interpreter closes a turn. -/
theorem shows_stop (hnoted : l.Noted) (hhooks : l.inst.machine.hooks.NeverCancel)
    {i : Instance} (hi : l.inst.Becomes i l.inst.runState) (halive : i.alive = true)
    (hmailbox : ∀ r ∈ i.mailbox, r ∈ l.inst.mailbox) (reason : StopReason) (ending : Ending) :
    Shows l (l.become ((i.markStopped reason).leave ending)) fun more =>
      Turn.goOn ⟨[], l.inst.runState, l.past, some reason⟩ l.inst.machine l.inst.name
        (i.mailbox ++ more) := by
  have hleft : (i.markStopped reason).leave ending =
      ({ i with
          alive := false, stopReason := some reason, mailbox := []
          phase := .terminating ending },
        i.mailbox.flatMap i.dropRequest ++ [.askTerminate i.runState]) := by
    simp only [Instance.leave, Instance.markStopped, halive, if_true]
    rfl
  have hbecome : l.become ((i.markStopped reason).leave ending) =
      { l with
        inst := ((i.markStopped reason).leave ending).1
        awaited := .handled (i.machine.hooks.onTerminate.react l.past i.runState).result
        past := (i.name, .terminate i.runState) :: l.past
        seen := l.seen ++ (i.mailbox.flatMap (dropShown i.name) ++
          [.called (.terminate i.runState)]) } := by
    have hsame := (i.stop_becomes reason ending).runState.trans hi.runState
    rw [become_same hsame, hleft, List.foldl_append, foldl_perform_drop]
    simp [perform]
  obtain ⟨hmachine, hname, -, hrunState⟩ := hi
  rw [hbecome, hleft]
  refine ⟨hmachine, hname, rfl, rfl, by simp, nofun, ?_, _, rfl, ?_⟩
  · refine ⟨rfl, rfl, _, rfl, ?_⟩
    rw [hmachine]
    exact hhooks.onTerminate _ _
  · rintro more (halive | rfl)
    · cases halive
    · have hdrop : visible l.gaveUp (i.mailbox.flatMap (dropShown l.inst.name)) =
          visible l.gaveUp (i.mailbox.flatMap (drop l.inst.name)) :=
        visible_dropShown fun call question hr => hnoted call question (hmailbox _ hr)
      refine ⟨?_, hrunState.symm, rfl⟩
      simp only [Turn.goOn, Turn.close, outlook, ahead, List.nil_append, List.append_nil,
        List.append_assoc, visible_append, hdrop, hname, hrunState]
      rfl

/-- A fault that is not contained shows as a crash. -/
theorem shows_escape (hnoted : l.Noted) (halive : l.inst.alive = true)
    (hhooks : l.inst.machine.hooks.NeverCancel) {fault : Fault}
    (hcancel : fault.isCancellation = false) :
    Shows l (l.become (l.inst.escape fault)) fun more =>
      Turn.goOn ⟨[], l.inst.runState, l.past, some .crash⟩ l.inst.machine l.inst.name
        (l.inst.mailbox ++ more) := by
  have hcrash := shows_stop hnoted hhooks (i := { l.inst with crash := some fault })
    ⟨rfl, rfl, rfl, rfl⟩ halive (fun r hr => hr) .crash (.failed fault)
  simp only [Instance.escape, hcancel, Bool.false_eq_true, if_false]
  exact hcrash

/-- A refusal shows the call of the failure hook. -/
theorem shows_reject (halive : l.inst.alive = true) (hhooks : l.inst.machine.hooks.NeverCancel)
    (rejection : Rejection) :
    Shows l (l.become (l.inst.reject event payload rejection)) fun more =>
      (carryOut l.inst.machine l.inst.name l.inst.runState l.past event payload
        (.refuses rejection)).goOn l.inst.machine l.inst.name (l.inst.mailbox ++ more) := by
  have hbecome : l.become (l.inst.reject event payload rejection) =
      { l with
        inst := { l.inst with phase := .reporting event payload rejection }
        awaited := .handled
          (l.inst.machine.hooks.onFailure.react l.past ⟨event, payload, l.inst.runState⟩).result
        past := (l.inst.name, .failure ⟨event, payload, l.inst.runState⟩) :: l.past
        seen := l.seen ++ [.called (.failure ⟨event, payload, l.inst.runState⟩)] } := by
    have hsame := (l.inst.reject_becomes event payload rejection).runState
    rw [become_same hsame]
    rfl
  rw [hbecome]
  refine ⟨rfl, rfl, rfl, rfl, fun r hr => hr, fun h => h, ?_, _, rfl, ?_⟩
  · exact ⟨halive, _, rfl, hhooks.onFailure _ _⟩
  · intro more _
    simp only [carryOut, after_goOn]
    exact ⟨rfl, rfl, rfl⟩

/-- A transition that is accepted shows the new run state and is published. -/
theorem shows_commit (halive : l.inst.alive = true) (state : String) (newPayload : Value) :
    Shows l (l.become (l.inst.commit event state newPayload)) fun more =>
      (carryOut l.inst.machine l.inst.name l.inst.runState l.past event payload
        (.moves state newPayload)).goOn l.inst.machine l.inst.name (l.inst.mailbox ++ more) := by
  have hbecome : l.become (l.inst.commit event state newPayload) =
      { l with
        inst := { l.inst with
          runState := l.inst.runState.move state newPayload, phase := .publishing }
        awaited := .published (.ok ())
        seen := l.seen ++ [.committed (l.inst.runState.move state newPayload)] ++
          [.published (.transitioned l.inst.name event l.inst.runState.current state)] } := by
    have hcommits : commits l.inst (l.inst.commit event state newPayload).1 =
        [.committed (l.inst.runState.move state newPayload)] := by
      simp [commits, Instance.commit, RunState.move]
    unfold become
    rw [hcommits]
    rfl
  rw [hbecome]
  refine ⟨rfl, rfl, rfl, rfl, fun r hr => hr, fun h => h, ⟨halive, rfl⟩, _,
    List.append_assoc .., ?_⟩
  intro more _
  exact ⟨rfl, rfl, rfl⟩

/-- What comes of the answer of the transition hook shows as its ruling does. -/
theorem shows_decide (hnoted : l.Noted) (halive : l.inst.alive = true)
    (hhooks : l.inst.machine.hooks.NeverCancel) {result : Except Fault Outcome}
    (hresult : Uncancelled result) :
    Shows l (l.become (l.inst.decide event payload result)) fun more =>
      (carryOut l.inst.machine l.inst.name l.inst.runState l.past event payload
        (ruling l.inst.machine.table l.inst.runState.current event result)).goOn
          l.inst.machine l.inst.name (l.inst.mailbox ++ more) := by
  cases result with
  | error fault =>
    have hcancel : fault.isCancellation = false := hresult fault rfl
    cases hexhausted : fault.isExhaustion with
    | true =>
      simp only [Instance.decide, Instance.escapes, hexhausted, Bool.or_true, if_true, ruling]
      exact shows_escape hnoted halive hhooks hcancel
    | false =>
      simp only [Instance.decide, Instance.escapes, hcancel, hexhausted, Bool.false_or,
        Bool.false_eq_true, if_false, ruling]
      exact shows_reject halive hhooks _
  | ok outcome =>
    cases outcome with
    | rejected rejection => exact shows_reject halive hhooks _
    | failure reason => exact shows_reject halive hhooks _
    | other v => exact shows_reject halive hhooks _
    | success target newPayload =>
      cases target with
      | text s =>
        cases hallowed : l.inst.machine.table.allowed l.inst.runState.current (.state s) with
        | true =>
          simp only [Instance.decide, Instance.settleOutcome, Target.ofValue?, ruling,
            Table.allowedValue, hallowed, if_true]
          exact shows_commit halive s newPayload
        | false =>
          simp only [Instance.decide, Instance.settleOutcome, Target.ofValue?, ruling,
            Table.allowedValue, hallowed, Bool.false_eq_true, if_false]
          exact shows_reject halive hhooks _
      | terminal =>
        cases hallowed : l.inst.machine.table.allowed l.inst.runState.current .terminal with
        | true =>
          have hleave := shows_stop hnoted hhooks (.refl l.inst) halive (fun r hr => hr)
            .terminal .returned
          simp only [Instance.decide, Instance.settleOutcome, Target.ofValue?, ruling,
            Table.allowedValue, hallowed, if_true]
          exact hleave
        | false =>
          simp only [Instance.decide, Instance.settleOutcome, Target.ofValue?, ruling,
            Table.allowedValue, hallowed, Bool.false_eq_true, if_false]
          exact shows_reject halive hhooks _
      | _ => exact shows_reject halive hhooks _

/-- The end of the failure hook shows as the interpreter's. -/
theorem shows_report (hnoted : l.Noted) (halive : l.inst.alive = true)
    (hhooks : l.inst.machine.hooks.NeverCancel) (rejection : Rejection)
    {result : Except Fault Unit} (hresult : Uncancelled result) :
    Shows l (l.become (l.inst.report event rejection result)) fun more =>
      (refuse l.inst.name l.inst.runState l.past event rejection result).goOn
        l.inst.machine l.inst.name (l.inst.mailbox ++ more) := by
  have htold : Shows l
      { l with
        inst := { l.inst with phase := .publishing }
        awaited := .published (.ok ())
        seen := l.seen ++
          [.published (.rejected l.inst.name event l.inst.runState.current rejection)] }
      fun more => Turn.goOn ⟨[.published (.rejected l.inst.name event l.inst.runState.current
        rejection)], l.inst.runState, l.past, none⟩ l.inst.machine l.inst.name
        (l.inst.mailbox ++ more) := by
    refine ⟨rfl, rfl, rfl, rfl, fun r hr => hr, fun h => h, ⟨halive, rfl⟩, _, rfl, ?_⟩
    intro more _
    exact ⟨rfl, rfl, rfl⟩
  have hsame := (l.inst.report_becomes event rejection result).runState
  cases result with
  | ok _ =>
    rw [become_same hsame]
    exact htold
  | error fault =>
    have hcancel : fault.isCancellation = false := hresult fault rfl
    cases hexhausted : fault.isExhaustion with
    | true =>
      simp only [Instance.report, Instance.escapes, hexhausted, Bool.or_true, if_true, refuse]
      exact shows_escape hnoted halive hhooks hcancel
    | false =>
      rw [become_same hsame]
      simp only [Instance.report, Instance.escapes, hcancel, hexhausted, Bool.false_or,
        Bool.false_eq_true, if_false, refuse]
      exact htold

theorem answerTo_eq_reply (i : Instance) (question : Question) :
    i.answerTo question = reply i.machine.table i.runState question := by
  cases question <;> rfl

/-- A query that is still waited for is answered, and the run state stays. -/
theorem become_query {rest : List Request} (call : Nat) (question : Question) :
    l.become ({ l.inst with mailbox := rest }.handle (.query call question false)) =
      { l with
        inst := { l.inst with mailbox := rest }
        seen := l.seen ++
          [.answered call (reply l.inst.machine.table l.inst.runState question)] } := by
  have hsame := (Instance.handle_becomes { l.inst with mailbox := rest }
    (.query call question false)).runState
  have hanswer := answerTo_eq_reply { l.inst with mailbox := rest } question
  rw [become_same hsame]
  simp only [Instance.handle, Bool.false_eq_true, if_false, hanswer]
  cases reply l.inst.machine.table l.inst.runState question <;> rfl

/-- The body waits for the next request, having shown what the interpreter shows. -/
theorem shows_idle (halive : l.inst.alive = true) {rest : List Request}
    (hrest : ∀ q ∈ rest, q ∈ l.inst.mailbox) {shown told : List Sight}
    (h : visible l.gaveUp told = visible l.gaveUp shown) :
    Shows l
      { l with
        inst := { l.inst with mailbox := rest, phase := .idle }
        seen := l.seen ++ shown }
      fun more => (serveAll l.inst.machine l.inst.name l.inst.runState l.past
        (rest ++ more)).after told := by
  refine ⟨rfl, rfl, rfl, rfl, hrest, fun h => h, halive, shown, rfl, ?_⟩
  intro more _
  refine ⟨?_, rfl, rfl⟩
  simp only [Turn.after, visible_append, h]
  rfl

/-- A request from the mailbox shows as the interpreter serves it. -/
theorem shows_handle (hnoted : l.Noted) (halive : l.inst.alive = true)
    (hphase : l.inst.phase = .idle) (hhooks : l.inst.machine.hooks.NeverCancel)
    {r : Request} {rest : List Request} (hmailbox : l.inst.mailbox = r :: rest) :
    Shows l (l.become ({ l.inst with mailbox := rest }.handle r)) fun more =>
      (serve l.inst.machine l.inst.name l.inst.runState l.past r).goOn
        l.inst.machine l.inst.name (rest ++ more) := by
  have hrest : ∀ q ∈ rest, q ∈ l.inst.mailbox := by
    intro q hq
    rw [hmailbox]
    exact List.mem_cons_of_mem _ hq
  have hsame := (Instance.handle_becomes { l.inst with mailbox := rest } r).runState
  cases r with
  | stop =>
    exact shows_stop hnoted hhooks (i := { l.inst with mailbox := rest }) ⟨rfl, rfl, rfl, rfl⟩
      halive hrest .stop .returned
  | transition event payload =>
    rw [become_same hsame]
    refine ⟨rfl, rfl, rfl, rfl, hrest, fun h => h, ?_, _, rfl, ?_⟩
    · exact ⟨halive, _, rfl, hhooks.onTransition _ _⟩
    · intro more _
      simp only [serve, after_goOn]
      exact ⟨rfl, rfl, rfl⟩
  | query call question abandoned =>
    let told : List Sight := [.answered call (reply l.inst.machine.table l.inst.runState question)]
    have hgoOn : ∀ more,
        (serve l.inst.machine l.inst.name l.inst.runState l.past
          (.query call question abandoned)).goOn l.inst.machine l.inst.name (rest ++ more) =
        (serveAll l.inst.machine l.inst.name l.inst.runState l.past (rest ++ more)).after told :=
      fun more => rfl
    simp only [hgoOn]
    cases abandoned with
    | true =>
      rw [become_same hsame]
      have hgaveUp : call ∈ l.gaveUp := hnoted call question (by simp [hmailbox])
      have hhidden : visible l.gaveUp told = visible l.gaveUp [] := by
        simp [told, visible, hgaveUp]
      have hidle := shows_idle halive hrest hhidden
      rw [List.append_nil, ← hphase] at hidle
      exact hidle
    | false =>
      have hshown : visible l.gaveUp told = visible l.gaveUp told := rfl
      have hidle := shows_idle halive hrest hshown
      rw [← hphase] at hidle
      rw [become_query]
      exact hidle

/-- Where nothing happens, all that lies ahead still does. -/
theorem Shows.refl (hstands : l.Stands) : Shows l l l.outlook :=
  ⟨rfl, rfl, rfl, rfl, fun r hr => hr, fun h => h, hstands, [], by simp, fun more _ => ⟨rfl, rfl, rfl⟩⟩

theorem shows_begin (halive : l.inst.alive = true) (hphase : l.inst.phase = .fresh) :
    Shows l l.proceed l.outlook := by
  have hproceed : l.proceed =
      { l with
        inst := { l.inst with phase := .publishing }
        awaited := .published (.ok ())
        seen := l.seen ++
          [.published (.started l.inst.name l.inst.machine.name l.inst.runState.current)] } := by
    have hsame : l.inst.begin.1.runState = l.inst.runState := rfl
    rw [proceed_fresh hphase, become_same hsame]
    rfl
  rw [hproceed]
  refine ⟨rfl, rfl, rfl, rfl, fun r hr => hr, fun h => h, ⟨halive, rfl⟩, _, rfl, ?_⟩
  intro more _
  unfold outlook ahead
  rw [hphase]
  exact ⟨rfl, rfl, rfl⟩

theorem shows_receive (hnoted : l.Noted) (hstands : l.Stands) (hphase : l.inst.phase = .idle)
    (hhooks : l.inst.machine.hooks.NeverCancel) : Shows l l.proceed l.outlook := by
  cases hmailbox : l.inst.mailbox with
  | nil =>
    rw [proceed_waiting hphase hmailbox]
    exact .refl hstands
  | cons r rest =>
    have hahead : l.outlook = fun more =>
        (serve l.inst.machine l.inst.name l.inst.runState l.past r).goOn
          l.inst.machine l.inst.name (rest ++ more) := by
      funext more
      unfold outlook ahead
      rw [hphase, hmailbox]
      rfl
    unfold Stands at hstands
    rw [hphase] at hstands
    rw [proceed_receiving hphase hmailbox, hahead]
    exact shows_handle hnoted hstands hphase hhooks hmailbox

/-- The end of the way out shows the last notification, and nothing after it. -/
theorem shows_end (hstopped : l.inst.alive = false) (hempty : l.inst.mailbox = [])
    {ending : Ending} {result : Except Fault Unit} (hphase : l.inst.phase = .terminating ending)
    (hawaited : l.awaited = .handled result) (hresult : Uncancelled result) :
    Shows l l.proceed l.outlook := by
  have hproceed : l.proceed =
      { l with
        inst := { l.inst with phase := .announcing ending }
        awaited := .published (.ok ())
        seen := l.seen ++
          [.published (.terminated l.inst.name l.inst.stopReason l.inst.runState)] } := by
    have hsame := (l.inst.terminate_becomes ending result).runState
    rw [proceed_terminating hphase hawaited, become_same hsame, hawaited]
    cases result with
    | ok _ => rfl
    | error fault =>
      have hcancel : fault.isCancellation = false := hresult fault rfl
      simp only [Instance.terminate, hcancel, Bool.false_eq_true, if_false]
      rfl
  have hahead : l.outlook = fun _ => ⟨[.published (.terminated l.inst.name l.inst.stopReason
      l.inst.runState)], l.inst.runState, l.past, l.inst.stopReason⟩ := by
    funext more
    unfold outlook ahead
    rw [hphase]
  rw [hproceed, hahead]
  refine ⟨rfl, rfl, rfl, rfl, fun r hr => hr, fun h => h, ⟨hstopped, hempty, rfl⟩, _, rfl, ?_⟩
  intro more _
  exact ⟨rfl, rfl, rfl⟩

/-- The end of a delivery shows nothing. -/
theorem shows_delivered (hphase : l.inst.phase = .publishing) (halive : l.inst.alive = true)
    (hawaited : l.awaited = .published (.ok ())) : Shows l l.proceed l.outlook := by
  rw [proceed_publishing hphase hawaited]
  refine ⟨rfl, rfl, rfl, rfl, fun r hr => hr, fun h => h, halive, [], by simp, ?_⟩
  intro more _
  unfold outlook ahead
  rw [hphase]
  exact ⟨rfl, rfl, rfl⟩

theorem shows_announced {ending : Ending} (hphase : l.inst.phase = .announcing ending)
    (hstopped : l.inst.alive = false) (hempty : l.inst.mailbox = [])
    (hawaited : l.awaited = .published (.ok ())) : Shows l l.proceed l.outlook := by
  rw [proceed_announcing hphase hawaited]
  refine ⟨rfl, rfl, rfl, rfl, fun r hr => hr, fun h => h, ⟨hstopped, hempty⟩, [], by simp, ?_⟩
  intro more _
  unfold outlook ahead
  rw [hphase]
  exact ⟨rfl, rfl, rfl⟩

/-- Wherever the body stands, when it moves on it shows the next part of what the interpreter
has yet to show. -/
theorem shows_proceed (hnoted : l.Noted) (hstands : l.Stands)
    (hhooks : l.inst.machine.hooks.NeverCancel) : Shows l l.proceed l.outlook := by
  have hrefl := Shows.refl hstands
  have hreceive := shows_receive hnoted hstands
  unfold Stands at hstands
  cases hphase : l.inst.phase with
  | fresh =>
    rw [hphase] at hstands
    exact shows_begin hstands hphase
  | idle => exact hreceive hphase hhooks
  | deciding event payload =>
    rw [hphase] at hstands
    obtain ⟨halive, result, hawaited, hresult⟩ := hstands
    have hahead : l.outlook = fun more =>
        (carryOut l.inst.machine l.inst.name l.inst.runState l.past event payload
          (ruling l.inst.machine.table l.inst.runState.current event result)).goOn
            l.inst.machine l.inst.name (l.inst.mailbox ++ more) := by
      funext more
      unfold outlook ahead
      rw [hphase, hawaited]
    rw [proceed_deciding hphase hawaited, hahead]
    exact shows_decide hnoted halive hhooks hresult
  | reporting event payload rejection =>
    rw [hphase] at hstands
    obtain ⟨halive, result, hawaited, hresult⟩ := hstands
    have hahead : l.outlook = fun more =>
        (refuse l.inst.name l.inst.runState l.past event rejection result).goOn
          l.inst.machine l.inst.name (l.inst.mailbox ++ more) := by
      funext more
      unfold outlook ahead
      rw [hphase, hawaited]
    rw [proceed_reporting hphase hawaited, hahead]
    exact shows_report hnoted halive hhooks rejection hresult
  | publishing =>
    rw [hphase] at hstands
    exact shows_delivered hphase hstands.1 hstands.2
  | terminating ending =>
    rw [hphase] at hstands
    obtain ⟨hstopped, hempty, result, hawaited, hresult⟩ := hstands
    exact shows_end hstopped hempty hphase hawaited hresult
  | announcing ending =>
    rw [hphase] at hstands
    obtain ⟨hstopped, hempty, hawaited⟩ := hstands
    exact shows_announced hphase hstopped hempty hawaited
  | finished ending =>
    rw [proceed_finished hphase]
    exact hrefl

end Live
end Turnstile
