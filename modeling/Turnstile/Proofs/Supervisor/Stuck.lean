-- What holds a stop up: when nothing is left to do and no timer is set, whoever still waits in a stop
-- or in a shutdown waits for a task that was cancelled, and whose terminate hook never returns.
import Turnstile.Proofs.Supervisor.Closing
import Turnstile.Proofs.Supervisor.Kept

namespace Turnstile

/-- A hook that does not wait for ever. -/
def Hook.Returns {Call α : Type} (hook : Hook Call α) : Prop :=
  ∀ past call, (hook.react past call).pause ≠ .forever

/-- A stop, a shutdown, or a call that a shutdown made. -/
def Call.Stops (call : Call) : Prop :=
  (∃ t, call.stopped? = some t) ∨ ∃ children left, call.stage = .join children left

namespace Office

variable {o o' : Office} {p c t : Nat} {call : Call}

/-! ## A stop stays a stop -/

theorem Move.keeps_stop (hmove : o.Move o') (hcall : o.calls[c]? = some call)
    (hstopped : call.stopped? = some t) :
    ∃ call', o'.calls[c]? = some call' ∧ call'.stopped? = some t := by
  obtain ⟨call', hcall', rfl | hgoes⟩ := hmove.call_next hcall
  · exact ⟨call', hcall', hstopped⟩
  · refine ⟨call', hcall', ?_⟩
    cases hgoes with
    | release | settle | callOff | callOffLater => exact hstopped
    | openWindow hstage | force hstage => simpa [Call.stopped?, hstage] using hstopped
    | join hstage | joinLast hstage | reply hstage => simp [Call.stopped?, hstage] at hstopped

theorem Moves.keeps_stop (hmoves : o.Moves o') (hcall : o.calls[c]? = some call)
    (hstopped : call.stopped? = some t) :
    ∃ call', o'.calls[c]? = some call' ∧ call'.stopped? = some t := by
  induction hmoves with
  | refl => exact ⟨call, hcall, hstopped⟩
  | tail _ hmove ih =>
    obtain ⟨call', hcall', hstopped'⟩ := ih
    exact hmove.keeps_stop hcall' hstopped'

/-! ## What a shutdown waits for -/

/-- A shutdown waits for just the ends that are still due to it, and for one at least if it made any
calls. -/
def Exact (o : Office) : Prop :=
  ∀ (p : Nat) (pc : Call) (children : List Nat) (left : Nat) (requested : Bool),
    o.calls[p]? = some pc → pc.stage = .join children left → pc.run = .waiting requested →
    o.due p children = left ∧ (children ≠ [] → 0 < left)

theorem Exact.joins (h : o.Exact) (hjoint : o.Joint) (hjoins : o.Joins o') : o'.Exact := by
  intro p pc' children left requested hpc' hstage' hrun'
  cases hjoins.waited hjoint hpc' hstage' hrun' with
  | still hpc hstage hrun hdue htold hresults =>
    rw [hdue]
    exact h p _ children left _ hpc hstage hrun
  | told hpc hstage hrun hleft hjoined hresults =>
    obtain ⟨hdue, -⟩ := h p _ children _ _ hpc hstage hrun
    rw [due_of_told hjoined hresults] at hdue
    exact ⟨Nat.add_right_cancel hdue, fun _ => hleft⟩
  | fresh hdue hleft hresults =>
    exact ⟨hdue, fun hsome => hleft ▸ List.length_pos_iff.2 hsome⟩

theorem Exact.moves (h : o.Exact) (hin : o.InOrder) (hmoves : o.Moves o') : o'.Exact := by
  induction hmoves with
  | refl => exact h
  | tail hbefore hmove ih =>
    have hin' := hin.moves hbefore
    exact ih.joins hin'.joint (hmove.joins hin'.told)

end Office

namespace Host

variable {h : Host} {t c : Nat} {task : Task} {call : Call} {name : Value}

/-! ## When nothing is left to do -/

/-- Nothing is left to do, and no timer is set: whatever still waits here waits for ever. -/
structure IsStuck (h : Host) : Prop where
  running : h.running = none
  batch : h.batch = []
  ready : h.ready = []
  timers : h.timers = []

instance (h : Host) : Decidable h.IsStuck :=
  decidable_of_iff (h.running = none ∧ h.batch.isEmpty ∧ h.ready.isEmpty ∧ h.timers.isEmpty) (by
    simp only [List.isEmpty_iff]
    exact ⟨fun ⟨a, b, c, d⟩ => ⟨a, b, c, d⟩, fun ⟨a, b, c, d⟩ => ⟨a, b, c, d⟩⟩)

/-- A task that was cancelled, and the body of which waits for a terminate hook that never
returns. -/
def HangsInTerminate (h : Host) (t : Nat) : Prop :=
  ∃ task, h.task? t = some task ∧ task.run = .paused none ∧
    task.inst.phase = .terminating .cancelled ∧
    ∃ past, (task.inst.machine.hooks.onTerminate.react past task.inst.runState).pause = .forever

theorem IsStuck.queue (hstuck : h.IsStuck) : h.office.queue = [] := by
  simp [office, hstuck.batch, hstuck.ready]

theorem IsStuck.no_needs (hstuck : h.IsStuck) (hk : Kept [] none h) (j : Job) : ¬h.Needs j := by
  intro hneeds
  rcases hk.due j hneeds with howed | hjobs
  · cases howed
  · rw [Office.jobs, hstuck.queue] at hjobs
    simp [office, hstuck.timers] at hjobs

/-- A task that was cancelled, and of whose end somebody is to be told, does not let go of its
terminate hook. -/
theorem IsStuck.hangs (hstuck : h.IsStuck) (hk : Kept [] none h) (ht : h.task? t = some task)
    (hcondemned : task.Condemned) (hsupervised : task.supervised = true)
    (hwatched : task.watchers ≠ []) : h.HangsInTerminate t := by
  have hsane := hk.tasks t task ht
  cases hrun : task.run with
  | absent => cases hsupervised.symm.trans (hsane.absent hrun)
  | queued cancelled => exact absurd (.task ht (.resume hrun)) (hstuck.no_needs hk _)
  | active => cases hstuck.running.symm.trans (hsane.active hrun)
  | ended => exact absurd (hsane.ended hrun) hwatched
  | receiving =>
    exfalso
    rcases hcondemned with hqueued | hdoomed
    · cases hrun.symm.trans hqueued
    · rw [hsane.receiving hrun] at hdoomed
      cases hdoomed
  | paused serial =>
    cases serial with
    | some serial => exact absurd (.task ht (.wake hrun)) (hstuck.no_needs hk _)
    | none =>
      have hdoomed : task.inst.phase.IsDoomed :=
        hcondemned.resolve_left fun hqueued => by cases hrun.symm.trans hqueued
      cases hsane.lingers hrun with
      | deciding hphase past call hforever =>
        rw [hphase] at hdoomed
        cases hdoomed
      | reporting hphase past call hforever =>
        rw [hphase] at hdoomed
        cases hdoomed
      | terminating hphase past hforever =>
        rw [hphase] at hdoomed
        cases hdoomed
        exact ⟨task, ht, hrun, hphase, past, hforever⟩

/-- Whoever stops a task and waits has cancelled it, and is held up by its terminate hook. -/
theorem IsStuck.hangs_of_stopped (hstuck : h.IsStuck) (hk : Kept [] none h)
    (hcall : h.calls[c]? = some call) (hstopped : call.stopped? = some t)
    (hgoing : ∀ result, call.run ≠ .done result) : h.HangsInTerminate t := by
  have hsane := hk.calls c call hcall
  cases hrun : call.run with
  | done result => exact absurd hrun (hgoing result)
  | queued cancelled => exact absurd (.call hcall (.proceed hrun)) (hstuck.no_needs hk _)
  | waiting cancelled =>
    cases hstage : call.stage with
    | closing u timeout => exact absurd hrun (hsane.closing u timeout cancelled hstage)
    | window u timeout => exact absurd (.call hcall (.close hstage hrun)) (hstuck.no_needs hk _)
    | forced u =>
      obtain rfl : u = t := by simpa [Call.stopped?, hstage] using hstopped
      obtain ⟨task, ht, hcondemned⟩ := hsane.forced u hstage
      obtain ⟨other, hu, hsupervised⟩ := hsane.stopped u hstopped
      obtain rfl := Option.some.inj (ht.symm.trans hu)
      refine hstuck.hangs hk ht hcondemned hsupervised fun hnobody => ?_
      refine hstuck.no_needs hk _ (.call hcall (.taskEnded hstage hrun ht ?_))
      simp [hnobody]
    | reply u result => simp [Call.stopped?, hstage] at hstopped
    | exit u => simp [Call.stopped?, hstage] at hstopped
    | join children left => simp [Call.stopped?, hstage] at hstopped

/-! ## Runs -/

/-- All that is true of a host at any time, as far as waiting goes. -/
structure Tended (h : Host) : Prop where
  attended : h.Attended
  kept : Kept [] none h
  fair : h.office.Exact

theorem Tended.after (h₀ : h.Tended) (deeds : List Deed) : (h.after deeds).Tended := by
  refine after_keeps (P := Tended) ?_ h₀ deeds
  intro g d hg
  obtain ⟨hact, hmoves⟩ := hg.attended.act d
  exact {
    attended := hact
    kept := hg.kept.act hg.attended.steady (staffed_of_orderly hg.attended.orderly) d
    fair := hg.fair.moves hg.attended.office hmoves }

theorem tended_opened (settings : Settings) (registry : Registry) (bus : Bus Observer) :
    (opened settings registry bus).Tended where
  attended := attended_opened settings registry bus
  kept := kept_opened settings registry bus
  fair p pc children left requested hpc := by simp [office, opened] at hpc

/-- A shutdown that waits has made a call that waits. -/
theorem Tended.waits_for_child (h₀ : h.Tended) (hstuck : h.IsStuck)
    (hcall : h.calls[c]? = some call) {children : List Nat} {left : Nat}
    (hstage : call.stage = .join children left) (hgoing : ∀ result, call.run ≠ .done result) :
    ∃ d ∈ children, ∃ child t, h.calls[d]? = some child ∧ child.stopped? = some t ∧
      h.HangsInTerminate t := by
  cases hrun : call.run with
  | done result => exact absurd hrun (hgoing result)
  | queued cancelled =>
    exact absurd (.call hcall (.proceed hrun)) (hstuck.no_needs h₀.kept _)
  | waiting cancelled =>
    obtain ⟨hdue, hsome⟩ := h₀.fair c call children left cancelled hcall hstage hrun
    have hleft := hsome ((h₀.kept.calls c call hcall).children children left hstage)
    -- Nothing is in the queue, so that a call is due that has not returned.
    have hnobody : h.office.joined = [] := by simp [Office.joined, hstuck.queue]
    rw [Office.due, hnobody, List.countP_nil, Nat.add_zero] at hdue
    obtain ⟨d, hd, hnone⟩ := List.countP_pos_iff.1 (hdue ▸ hleft)
    obtain ⟨child, hchild, hparent⟩ :=
      (h₀.attended.office.joint.children c call children left hcall hstage).2 d hd
    have hchild' : h.calls[d]? = some child := hchild
    obtain ⟨t, hstopped⟩ := (h₀.kept.calls d child hchild').guard c hparent
    refine ⟨d, hd, child, t, hchild', hstopped, ?_⟩
    refine hstuck.hangs_of_stopped h₀.kept hchild' hstopped fun result hdone => ?_
    rw [Office.result?, hchild] at hnone
    simp [hdone, CallRun.result?] at hnone

/-! ## What holds a stop up -/

theorem going_of_result (hresult : h.result? c = none) (hcall : h.calls[c]? = some call) :
    ∀ result, call.run ≠ .done result := by
  intro result hdone
  obtain ⟨parent, stage, run⟩ := call
  obtain rfl : run = .done result := hdone
  simp [Host.result?, hcall] at hresult

/-- A stop that waits stops the live holder of the name. -/
theorem stop_stops {timeout : Option Number} (hlater : (h.stop name timeout).2 = .later c) :
    ∃ t call, h.lookup name = .ok t ∧ (h.stop name timeout).1.calls[c]? = some call ∧
      call.stopped? = some t := by
  revert hlater
  unfold Host.stop
  split
  · intro hlater
    cases hlater
  · rename_i t hlookup
    split
    · intro hlater
      cases hlater
    · rename_i h' hpost
      intro hlater
      obtain rfl : h'.calls.length = c := Returned.later.inj hlater
      refine ⟨t, ⟨none, .window t (timeout.getD h'.settings.shutdownTimeout), .waiting false⟩,
        hlookup, ?_, rfl⟩
      have hthere := h'.call_addCall
        ⟨none, .closing t (timeout.getD h'.settings.shutdownTimeout), .waiting false⟩
      unfold openWindow watch
      simp only
      split <;> exact List.getElem?_set_self (List.getElem?_eq_some_iff.1 hthere).1

/-- A shutdown that waits has made its calls, each of which stops one that was alive. -/
theorem shutdown_stops {timeout : Option Number} (hlater : (h.shutdown timeout).2 = .later c) :
    ∃ call children left, (h.shutdown timeout).1.calls[c]? = some call ∧
      call.stage = .join children left ∧ ∀ d ∈ children, ∃ child, ∃ p ∈ h.live,
        (h.shutdown timeout).1.calls[d]? = some child ∧ child.stopped? = some p.2 := by
  cases hlive : (h.live.map (·.2)).isEmpty with
  | true =>
    unfold Host.shutdown at hlater
    simp only [hlive, if_true] at hlater
    cases hlater
  | false =>
    obtain ⟨hcalled, hoffice⟩ := office_shutdown timeout hlive
    obtain rfl := Returned.later.inj (hcalled.symm.trans hlater)
    have hcalls := congrArg Office.calls hoffice
    simp only at hcalls
    have hmem : ∀ t ∈ h.live.map (·.2), ∃ p ∈ h.live, p.2 = t := fun t ht => List.mem_map.1 ht
    generalize h.asked (h.live.map (·.2)) = g at *
    generalize timeout.getD g.settings.shutdownTimeout = window at *
    generalize h.live.map (·.2) = tasks at *
    have hfamily : (h.shutdown timeout).1.calls =
        g.office.calls ++ g.office.family window tasks := hcalls
    rw [hfamily]
    refine ⟨_, _, _, Office.family_head window tasks, rfl, fun d hd => ?_⟩
    obtain ⟨i, hi, rfl⟩ := List.mem_range'.1 hd
    obtain ⟨p, hp, hpt⟩ := hmem tasks[i] (List.getElem_mem hi)
    refine ⟨Office.guard g.office.calls.length window tasks[i], p, hp, ?_, by rw [hpt]; rfl⟩
    rw [Nat.one_mul]
    exact Office.family_guard window hi

/-- What holds a stop up. -/
structure LetsGo (h : Host) : Prop where
  /-- When nothing is left to do, a stop that has not returned waits for the instance that it
  stops, which was cancelled and does not come back from its terminate hook. -/
  stop : ∀ (name : Value) timeout c deeds, (h.stop name timeout).2 = .later c →
    ((h.act (.stop name timeout)).after deeds).IsStuck →
    ((h.act (.stop name timeout)).after deeds).result? c = none →
    ∃ t, h.lookup name = .ok t ∧ ((h.act (.stop name timeout)).after deeds).HangsInTerminate t
  /-- So does a shutdown wait for one of the instances that were alive. -/
  shutdown : ∀ timeout c deeds, (h.shutdown timeout).2 = .later c →
    ((h.act (.shutdown timeout)).after deeds).IsStuck →
    ((h.act (.shutdown timeout)).after deeds).result? c = none →
    ∃ p ∈ h.live, ((h.act (.shutdown timeout)).after deeds).HangsInTerminate p.2
  /-- Where all terminate hooks return, no stop and no shutdown waits when nothing is left to do,
  whatever the other hooks wait for. -/
  returns : h.IsStuck →
    (∀ t task, h.task? t = some task → task.inst.machine.hooks.onTerminate.Returns) →
    ∀ (c : Nat) (call : Call), h.calls[c]? = some call → call.Stops →
      ∃ result, call.run = .done result

namespace Tended

theorem stop_hangs (h₀ : h.Tended) {timeout : Option Number} {deeds : List Deed}
    (hlater : (h.stop name timeout).2 = .later c)
    (hstuck : ((h.act (.stop name timeout)).after deeds).IsStuck)
    (hresult : ((h.act (.stop name timeout)).after deeds).result? c = none) :
    ∃ t, h.lookup name = .ok t ∧
      ((h.act (.stop name timeout)).after deeds).HangsInTerminate t := by
  obtain ⟨t, call, hlookup, hcall, hstopped⟩ := stop_stops hlater
  have hcalled : (h.act (.stop name timeout)).Tended := h₀.after [.stop name timeout]
  have hthere : (h.act (.stop name timeout)).office.calls[c]? = some call := hcall
  obtain ⟨call', hcall', hstopped'⟩ :=
    (hcalled.attended.after deeds).2.keeps_stop hthere hstopped
  exact ⟨t, hlookup, hstuck.hangs_of_stopped (hcalled.after deeds).kept hcall' hstopped'
    (going_of_result hresult hcall')⟩

theorem shutdown_hangs (h₀ : h.Tended) {timeout : Option Number} {deeds : List Deed}
    (hlater : (h.shutdown timeout).2 = .later c)
    (hstuck : ((h.act (.shutdown timeout)).after deeds).IsStuck)
    (hresult : ((h.act (.shutdown timeout)).after deeds).result? c = none) :
    ∃ p ∈ h.live, ((h.act (.shutdown timeout)).after deeds).HangsInTerminate p.2 := by
  obtain ⟨call, children, left, hcall, hstage, hchildren⟩ := shutdown_stops hlater
  have hcalled : (h.act (.shutdown timeout)).Tended := h₀.after [.shutdown timeout]
  have hmoves := (hcalled.attended.after deeds).2
  have hthere : (h.act (.shutdown timeout)).office.calls[c]? = some call := hcall
  obtain ⟨call', hcall', hbecomes⟩ := hmoves.keeps_call hthere
  obtain ⟨left', hstage'⟩ := (hbecomes.children children).2 ⟨left, hstage⟩
  obtain ⟨d, hd, child, t, hchild, hstopped, hhangs⟩ := (hcalled.after deeds).waits_for_child hstuck
    hcall' hstage' (going_of_result hresult hcall')
  obtain ⟨child₀, p, hp, hchild₀, hstopped₀⟩ := hchildren d hd
  have hmade : (h.act (.shutdown timeout)).office.calls[d]? = some child₀ := hchild₀
  obtain ⟨child', hchild', hstopped'⟩ := hmoves.keeps_stop hmade hstopped₀
  obtain rfl := Option.some.inj (hchild'.symm.trans hchild)
  obtain rfl := Option.some.inj (hstopped'.symm.trans hstopped)
  exact ⟨p, hp, hhangs⟩

theorem all_return (h₀ : h.Tended) (hstuck : h.IsStuck)
    (hreturns : ∀ t task, h.task? t = some task → task.inst.machine.hooks.onTerminate.Returns)
    (hcall : h.calls[c]? = some call) (hstops : call.Stops) : ∃ result, call.run = .done result := by
  by_contra hwaits
  have hgoing : ∀ result, call.run ≠ .done result := fun result hdone => hwaits ⟨result, hdone⟩
  obtain ⟨t, task, ht, -, -, past, hforever⟩ : ∃ t, h.HangsInTerminate t := by
    rcases hstops with ⟨t, hstopped⟩ | ⟨children, left, hstage⟩
    · exact ⟨t, hstuck.hangs_of_stopped h₀.kept hcall hstopped hgoing⟩
    · obtain ⟨-, -, -, t, -, -, hhangs⟩ := h₀.waits_for_child hstuck hcall hstage hgoing
      exact ⟨t, hhangs⟩
  exact hreturns t task ht past _ hforever

end Tended

/-- Whatever the hooks wait for, whatever is in the mailboxes and whatever the windows are: the
cancellation at the end of the window gets whoever stops going again, unless the terminate hook of
the instance waits for ever after it. -/
theorem a_stop_is_held_up_only_by_a_terminate_hook (settings : Settings) (registry : Registry)
    (bus : Bus Observer) (deeds : List Deed) :
    ((opened settings registry bus).after deeds).LetsGo := by
  have h₀ := (tended_opened settings registry bus).after deeds
  exact {
    stop := fun _ _ _ _ hlater hstuck hresult => h₀.stop_hangs hlater hstuck hresult
    shutdown := fun _ _ _ hlater hstuck hresult => h₀.shutdown_hangs hlater hstuck hresult
    returns := fun hstuck hreturns _ _ hcall hstops => h₀.all_return hstuck hreturns hcall hstops }

/-- The transition hook and the terminate hook never return. The cancellation at the end of the
window leads from the one into the other, and nothing cancels that: nothing is left to do, and the
stop still waits. So does a shutdown. -/
theorem a_terminate_hook_outlasts_the_cancellation :
    let machine := Machine.ofTable "t" ⟨"a", [⟨"a", "go", .state "a"⟩], []⟩
      { onTransition := some ⟨.rules, fun _ _ =>
          { pause := .forever, result := .ok (.other .null) }⟩
        onTerminate := some ⟨.rules, fun _ _ => { pause := .forever, result := .ok () }⟩ }
    let h := opened ⟨.whole 5, .temporary, .whole 3, .whole 5⟩ [] {}
    let sent := .start (.given machine) (.text "x") .null :: List.replicate 6 .step ++
      .send ⟨.text "x", .text "go", .null⟩ :: List.replicate 6 .step
    let window := some (Number.whole 1)
    let stopped := (h.after sent).after
      (.stop (.text "x") window :: .pass 1 :: List.replicate 6 .step)
    let shut := (h.after sent).after
      (.shutdown window :: List.replicate 3 .step ++ .pass 1 :: List.replicate 6 .step)
    (stopped.IsStuck ∧ (match ((h.after sent).stop (.text "x") window).2 with
      | .later c => (stopped.result? c).isNone
      | .now _ => false) = true) ∧
    shut.IsStuck ∧ (match ((h.after sent).shutdown window).2 with
      | .later c => (shut.result? c).isNone
      | .now _ => false) = true := by
  intro machine h sent window stopped shut
  exact ⟨⟨by decide +kernel, by decide +kernel⟩, by decide +kernel, by decide +kernel⟩

end Host
end Turnstile
