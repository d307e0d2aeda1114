-- Callers that wait and do not give up: while the host goes on, nobody calls their calls off, and what
-- they are told is the answer to what they asked, or that the instance has stopped.
import Turnstile.Proofs.Supervisor.Settled

namespace Turnstile

/-- What a call returns from its stage unless it is called off. -/
def Stage.outcome : Stage → Except Fault CallAnswer
  | .reply _ result => (result.getD (.error .cancellation)).map .answer
  | .exit t => .ok (.exited t)
  | .closing .. | .window .. | .forced _ | .join .. => .ok .nothing

/-- A call that belongs to no shutdown and that nobody has called off. -/
structure Call.Upheld (call : Call) : Prop where
  parent : call.parent = none
  alone : ∀ children left, call.stage ≠ .join children left
  run : call.run = .waiting false ∨ call.run = .queued false ∨ call.run = .done call.stage.outcome

namespace Host

variable {h h' : Host} {c d t n : Nat} {call old new : Call}

def Upholds (h : Host) (c : Nat) : Prop := ∃ call, h.calls[c]? = some call ∧ call.Upheld

namespace Upholds

theorem of_calls (hup : h.Upholds c) (hcalls : h'.calls = h.calls) : h'.Upholds c := by
  unfold Upholds
  rw [hcalls]
  exact hup

/-- A call changes so that it is still upheld if it was. -/
theorem setCall (hup : h.Upholds c) (hold : h.calls[d]? = some old)
    (hcalls : h'.calls = h.calls.set d new) (hnew : old.Upheld → new.Upheld) : h'.Upholds c := by
  obtain ⟨call, hcall, hheld⟩ := hup
  by_cases hdc : d = c
  · subst hdc
    obtain rfl := Option.some.inj (hold.symm.trans hcall)
    exact ⟨new, hcalls ▸ List.getElem?_set_self (List.getElem?_eq_some_iff.1 hcall).1, hnew hheld⟩
  · exact ⟨call, hcalls ▸ (List.getElem?_set_ne hdc).trans hcall, hheld⟩

/-! ## Bodies -/

theorem post (hup : h.Upholds c) {r : Request} (hpost : h.post t r = .ok h') : h'.Upholds c := by
  unfold Host.post at hpost
  split at hpost
  · cases hpost
  · split at hpost
    · cases hpost
    · split at hpost
      · obtain rfl := Except.ok.inj hpost
        exact hup.of_calls rfl
      · obtain rfl := Except.ok.inj hpost
        exact hup.of_calls rfl

theorem touch (hup : h.Upholds c) (htouch : Touch t h h') : h'.Upholds c := by
  cases htouch with
  | write events past => exact hup.of_calls rfl
  | answer s => exact hup.of_calls rfl
  | send hpost => exact hup.post hpost
  | pause p =>
    refine hup.of_calls ?_
    cases p with
    | none => rfl
    | forever => rfl
    | seconds s =>
      unfold Host.pause
      simp only
      split <;> rfl

theorem resolve (hup : h.Upholds c) (e : Nat) (result : Except Fault Answer) :
    (h.resolve e result).Upholds c := by
  unfold Host.resolve
  split
  · rename_i parent u cancelled hcall
    refine hup.setCall hcall rfl fun hheld => ⟨hheld.parent, nofun, .inr (.inl ?_)⟩
    obtain ⟨-, -, hrun | hrun | hrun⟩ := hheld
    · obtain rfl : cancelled = false := CallRun.waiting.inj hrun
      rfl
    · cases hrun
    · cases hrun
  · exact hup

theorem feed (hup : h.Upholds c) (t : Nat) (s : Stimulus) : (h.feed t s).Upholds c := by
  cases ht : h.task? t with
  | none =>
    unfold Host.feed
    rw [ht]
    exact hup
  | some task =>
    exact feed_keeps (P := fun g => g.Upholds c) ht s (fun _ _ hup htouch => hup.touch htouch)
      (fun _ e result hup => hup.resolve e result) (hup.of_calls rfl)

theorem endTask (hup : h.Upholds c) (t : Nat) (task : Task) : (h.endTask t task).Upholds c := by
  have htold : ∀ (watchers : List Nat) (g : Host), g.Upholds c →
      (watchers.foldl (fun g c => g.enqueue (.taskEnded c)) g).Upholds c := by
    intro watchers g hup
    refine List.foldlRecOn (motive := fun g : Host => g.Upholds c) _ _ hup ?_
    exact fun _ hup _ _ => hup.of_calls rfl
  unfold Host.endTask
  refine htold _ _ ?_
  simp only
  split <;> exact hup.of_calls rfl

theorem runTask (hup : h.Upholds c) (t : Nat) : (h.runTask t).Upholds c := by
  unfold Host.runTask
  split
  · exact hup.of_calls rfl
  · split
    · exact hup.endTask t _
    · exact hup.feed t _
    · split
      · exact hup.of_calls rfl
      · exact hup.feed t _
    · split
      · exact hup.feed t _
      · exact hup.of_calls rfl

/-! ## Jobs -/

theorem resume (hup : h.Upholds c) (t : Nat) : (h.resume t).Upholds c := by
  unfold Host.resume
  split
  · split
    · simp only
      split
      · refine feed ?_ t _
        exact hup.of_calls rfl
      · exact hup.of_calls rfl
    · exact hup
  · exact hup

theorem publish (hup : h.Upholds c) (scope : Option Value) (n : Notification) :
    (h.publish scope n).1.Upholds c := by
  obtain ⟨events, hevents⟩ := h.publish_eq scope n
  rw [hevents]
  exact hup.of_calls rfl

theorem exited (hup : h.Upholds c) (t : Nat) : (h.exited t).Upholds c := by
  have hcrash : ∀ (g : Host) (task : Task) (fault : Fault),
      (g.afterCrash task fault).calls = g.calls := by
    intro g task fault
    unfold afterCrash
    simp only
    split
    · rfl
    · split
      · rfl
      · split <;> rfl
  unfold Host.exited
  split
  · exact hup
  · have hvacated : ∀ name, (if lookupName h.holders name = some t then
        { h with holders := eraseName h.holders name } else h).Upholds c := by
      intro name
      split
      · exact hup.of_calls rfl
      · exact hup
    simp only
    split
    · exact (hvacated _).of_calls (hcrash _ _ _)
    · exact hvacated _

theorem release (hup : h.Upholds c) (e : Nat) : (h.release e).Upholds c := by
  unfold Host.release
  split
  · rename_i call hcall
    split
    · rename_i cancelled hrun
      refine hup.setCall hcall rfl fun hheld => ⟨hheld.parent, hheld.alone, .inr (.inl ?_)⟩
      rcases hrun ▸ hheld.run with hrun' | hrun' | hrun'
      · obtain rfl : cancelled = false := CallRun.waiting.inj hrun'
        rfl
      · cases hrun'
      · cases hrun'
    · exact hup
  · exact hup

theorem finishCall (hup : h.Upholds c) (hcall : h.calls[d]? = some call)
    {result : Except Fault CallAnswer} (hresult : call.Upheld → result = call.stage.outcome) :
    (h.finishCall d call result).Upholds c := by
  have hset : (h.setCall d { call with run := .done result }).Upholds c :=
    hup.setCall hcall rfl fun hheld =>
      ⟨hheld.parent, hheld.alone, .inr (.inr (congrArg CallRun.done (hresult hheld)))⟩
  unfold Host.finishCall
  split
  · exact hset.of_calls rfl
  · exact hset

theorem watch (hup : h.Upholds c) (t e : Nat) : (h.watch t e).Upholds c := by
  unfold Host.watch
  split <;> exact hup.of_calls rfl

theorem openWindow (hup : h.Upholds c) (hcall : h.calls[d]? = some call) (t : Nat)
    (timeout : Number) : (h.openWindow d call t timeout).Upholds c := by
  have hset : (h.setCall d { call with stage := .window t timeout, run := .waiting false }).Upholds
      c := hup.setCall hcall rfl fun hheld => ⟨hheld.parent, nofun, .inl rfl⟩
  unfold Host.openWindow
  refine watch ?_ t d
  exact hset.of_calls rfl

theorem force (hup : h.Upholds c) (hcall : h.calls[d]? = some call) (t : Nat) :
    (((h.cancelTask t).1.setCall d { call with stage := .forced t, run := .waiting false }).watch t
      d).Upholds c := by
  have hcalls := h.calls_cancelTask t
  have hcall' : (h.cancelTask t).1.calls[d]? = some call := hcalls.symm ▸ hcall
  refine watch ?_ t d
  exact (hup.of_calls hcalls).setCall hcall' rfl fun hheld => ⟨hheld.parent, nofun, .inl rfl⟩

theorem proceed (hup : h.Upholds c) (e : Nat) : (h.proceed e).Upholds c := by
  unfold Host.proceed
  split
  · exact hup
  · rename_i call hcall
    split
    · exact hup
    · exact hup
    · -- A call that was called off is not upheld.
      rename_i hrun
      refine finishCall (hup.of_calls (h.calls_leaveStage e _))
        ((h.calls_leaveStage e _).symm ▸ hcall) fun hheld => ?_
      rcases hrun ▸ hheld.run with hrun' | hrun' | hrun' <;> cases hrun'
    · rename_i hrun
      split
      · rename_i t result hstage
        exact hup.finishCall hcall fun _ => by rw [hstage]; rfl
      · rename_i t hstage
        exact hup.finishCall hcall fun _ => by rw [hstage]; rfl
      · exact hup.openWindow hcall _ _
      · rename_i t timeout hstage
        have hleft : (h.leaveStage e call.stage).Upholds c :=
          hup.of_calls (h.calls_leaveStage e _)
        have hcall' : (h.leaveStage e call.stage).calls[e]? = some call :=
          (h.calls_leaveStage e _).symm ▸ hcall
        simp only
        split
        · exact hleft.finishCall hcall' fun _ => by rw [hstage]; rfl
        · refine force ?_ ?_ t
          · exact hleft.of_calls rfl
          · exact hcall'
      · rename_i t hstage
        exact hup.finishCall hcall fun _ => by rw [hstage]; rfl
      · rename_i t hstage
        exact hup.finishCall hcall fun _ => by rw [hstage]; rfl

theorem joined (hup : h.Upholds c) (p : Nat) (cancelled : Bool) :
    (h.joined p cancelled).Upholds c := by
  unfold Host.joined
  split
  · rename_i call hcall
    split
    · rename_i children left requested hstage hrun
      have hset : (h.setCall p { call with
          stage := .join children (left - 1), run := .waiting (requested || cancelled) }).Upholds c :=
        hup.setCall hcall rfl fun hheld => absurd hstage (hheld.alone children left)
      simp only
      split
      · exact hset.release p
      · exact hset
    · exact hup
  · exact hup

theorem wake (hup : h.Upholds c) (t serial : Nat) : (h.wake t serial).Upholds c := by
  unfold Host.wake
  split
  · split
    · exact hup.of_calls rfl
    · exact hup
  · exact hup

theorem runJob (hup : h.Upholds c) (j : Job) : (h.runJob j).Upholds c := by
  cases j with
  | resume t => exact hup.resume t
  | exited t => exact hup.exited t
  | taskEnded e => exact hup.release e
  | proceed e => exact hup.proceed e
  | joined p cancelled => exact hup.joined p cancelled
  | wake t serial => exact hup.wake t serial
  | close e => exact hup.release e
  | announce name attempt fault => exact hup.publish none _

/-- The host itself calls nothing off that belongs to no shutdown. -/
theorem step (hup : h.Upholds c) : h.step.Upholds c := by
  unfold Host.step
  split
  · exact hup.runTask _
  · split
    · refine runJob ?_ _
      exact hup.of_calls rfl
    · exact hup.of_calls rfl

theorem steps (hup : h.Upholds c) (n : Nat) : (Host.step^[n] h).Upholds c := by
  induction n with
  | zero => exact hup
  | succ n ih =>
    rw [Function.iterate_succ_apply']
    exact ih.step

end Upholds

/-! ## What callers wait for -/

theorem settle_steps (fuel : Nat) (h : Host) : ∃ n, h.settle fuel = Host.step^[n] h := by
  induction fuel generalizing h with
  | zero => exact ⟨0, rfl⟩
  | succ fuel ih =>
    unfold settle
    split
    · exact ⟨0, rfl⟩
    · obtain ⟨n, hn⟩ := ih h.step
      exact ⟨n + 1, hn⟩

theorem settleCall_steps (fuel c : Nat) (h : Host) : ∃ n, h.settleCall fuel c = Host.step^[n] h ∧
    (((Host.step^[n] h).result? c).isSome = true ∨ (Host.step^[n] h).isIdle = true ∨ n = fuel) := by
  induction fuel generalizing h with
  | zero => exact ⟨0, rfl, .inr (.inr rfl)⟩
  | succ fuel ih =>
    unfold settleCall
    split
    · rename_i hstops
      exact ⟨0, rfl, (Bool.or_eq_true_iff.1 hstops).imp_right .inl⟩
    · obtain ⟨n, hn, hstops⟩ := ih h.step
      exact ⟨n + 1, hn, hstops.imp_right fun hlast => hlast.imp_right (congrArg (· + 1))⟩

/-- A call has no result yet, and nothing is left to do for now, or there was too much to do. -/
structure Pending (h : Host) (c n : Nat) : Prop where
  result : (Host.step^[n] h).result? c = none
  idle : (Host.step^[n] h).isIdle = true ∨ n = 1000000

/-- Whoever waits until the call has its result goes on after some steps, with the outcome of the call,
or with nothing if there is no result yet. -/
theorem Upholds.await (hup : h.Upholds c) : ∃ n call, (await (h, .later c)).1 = Host.step^[n] h ∧
    (Host.step^[n] h).calls[c]? = some call ∧
    (call.run = .done call.stage.outcome ∧ (await (h, .later c)).2 = call.stage.outcome ∨
      h.Pending c n ∧ (await (h, .later c)).2 = .error .cancellation) := by
  obtain ⟨n, hn, hstops⟩ := settleCall_steps 1000000 c h
  obtain ⟨call, hcall, hheld⟩ := hup.steps n
  have hresult : (Host.await (h, .later c)).2 =
      ((Host.step^[n] h).result? c).getD (.error .cancellation) := by rw [← hn]; rfl
  have hpending : (Host.step^[n] h).result? c = none → h.Pending c n := by
    intro hnone
    rw [hnone] at hstops
    exact ⟨hnone, hstops.resolve_left nofun⟩
  refine ⟨n, call, hn, hcall, ?_⟩
  rw [hresult]
  unfold result? at hpending ⊢
  rw [hcall] at hpending ⊢
  obtain ⟨parent, stage, run⟩ := call
  have hrun : run = .waiting false ∨ run = .queued false ∨ run = .done stage.outcome := hheld.run
  rcases hrun with rfl | rfl | rfl
  · exact .inr ⟨hpending rfl, rfl⟩
  · exact .inr ⟨hpending rfl, rfl⟩
  · exact .inl ⟨rfl, rfl⟩

end Host

/-! ## What was asked -/

/-- The body takes requests from the mailbox, and puts none into it. -/
theorem Instance.Serves.mailbox_subset {i j : Instance} {effects : List Effect}
    (h : i.Serves (j, effects)) : j.mailbox ⊆ i.mailbox := by
  cases h with
  | aside hmailbox halive hanswers hhook =>
    rcases hmailbox with hmailbox | ⟨event, payload, hmailbox⟩
    · exact hmailbox ▸ List.Subset.refl _
    · exact hmailbox ▸ List.subset_cons_self _ _
  | turn hidle hmailbox hanswers hhook => exact hmailbox ▸ List.subset_cons_self _ _
  | leave runState halive hempty hanswers hhook => exact hempty ▸ List.nil_subset _

namespace Desk

variable {quits : Nat → Prop} {d d' : Desk} {c : Nat} {question : Question}

/-- A call asks no instance anything but one question. -/
structure AsksOnly (d : Desk) (c : Nat) (question : Question) : Prop where
  lt : c < d.replies.length
  only : ∀ (t : Nat) (i : Instance) (other : Question), d.insts[t]? = some i →
    .query c other false ∈ i.mailbox → other = question

namespace AsksOnly

theorem set (h : d.AsksOnly c question) {t : Nat} {i j : Instance} (hi : d.insts[t]? = some i)
    (hj : ∀ other, .query c other false ∈ j.mailbox → .query c other false ∈ i.mailbox) :
    (d.set t j).AsksOnly c question := by
  refine ⟨h.lt, fun u k other hk hmem => ?_⟩
  rcases insts_set hi hk with ⟨-, rfl⟩ | ⟨-, hk⟩
  · exact h.only t i other hi (hj other hmem)
  · exact h.only u k other hk hmem

theorem call (h : d.AsksOnly c question) (new : Option Reply) :
    ({ d with replies := d.replies ++ [new] } : Desk).AsksOnly c question :=
  ⟨by simpa using Nat.lt_succ_of_lt h.lt, h.only⟩

theorem small (h : d.AsksOnly c question) (hsmall : Small d d') : d'.AsksOnly c question := by
  cases hsmall with
  | @post t i j r hi hr hpost =>
    refine h.set hi fun other hmem => ?_
    unfold Instance.post at hpost
    split at hpost
    · obtain rfl := Except.ok.inj hpost
      refine (List.mem_append.1 hmem).resolve_right fun hlast => ?_
      obtain rfl := List.mem_singleton.1 hlast
      cases hr
    · cases hpost
  | call => exact h.call none
  | refuse t => exact h.call _
  | create halive hmailbox =>
    refine ⟨h.lt, fun t k other hk hmem => ?_⟩
    rcases concat_get? hk with hk | ⟨-, rfl⟩
    · exact h.only t k other hk hmem
    · rw [hmailbox] at hmem
      cases hmem

theorem gives {given : List (Nat × Except Fault Answer)} (h : d.AsksOnly c question)
    (hgives : Gives given d d') : d'.AsksOnly c question := by
  induction hgives with
  | done d => exact h
  | small hsmall _ ih => exact ih (h.small hsmall)
  | @give e answer rest d d'' hrest ih =>
    refine ih ?_
    unfold resolve
    split
    · exact ⟨by simpa using h.lt, h.only⟩
    · exact h

/-- Whatever is done at the desk, nobody asks anything else in the name of a call. -/
theorem next (h : d.AsksOnly c question) (hnext : Next quits d d') : d'.AsksOnly c question := by
  cases hnext with
  | smalls hs =>
    induction hs with
    | refl => exact h
    | tail _ hsmall ih => exact ih.small hsmall
  | @ask t i j other hi hpost =>
    refine AsksOnly.call (h.set hi fun other' hmem => ?_) _
    unfold Instance.post at hpost
    split at hpost
    · obtain rfl := Except.ok.inj hpost
      refine (List.mem_append.1 hmem).resolve_right fun hlast => ?_
      have heq := List.mem_singleton.1 hlast
      simp only [Request.query.injEq] at heq
      exact absurd heq.1 (Nat.ne_of_lt h.lt)
    · cases hpost
  | giveUp hquits hreply =>
    refine ⟨by simpa [giveUp] using h.lt, fun t k other hk hmem => ?_⟩
    rw [insts_giveUp] at hk
    split at hk
    · obtain ⟨i, hi, rfl⟩ := Option.map_eq_some_iff.1 hk
      refine h.only t i other hi ?_
      obtain ⟨r, hr, heq⟩ := List.mem_map.1 hmem
      cases r with
      | query e asked abandoned =>
        simp only [Request.query.injEq, Bool.or_eq_false_iff] at heq
        obtain ⟨rfl, rfl, rfl, -⟩ := heq
        exact hr
      | transition event payload => cases heq
      | stop => cases heq
    · exact h.only t k other hk hmem
  | @feed t i _ s hi hgives =>
    have hserves : i.Serves ((i.step s).1, (i.step s).2) := i.serves_step s
    exact (h.set hi fun other hmem => hserves.mailbox_subset hmem).gives hgives

end AsksOnly

end Desk

namespace Host

variable {h : Host} {c t n : Nat} {task : Task} {question : Question}

theorem Waits.task_eq {u : Nat} (hwaits : h.Waits c t) (hwaits' : h.Waits c u) : t = u :=
  (awaits_iff.2 hwaits).task_eq (awaits_iff.2 hwaits')

theorem lt_of_waits (hwaits : h.Waits c t) : c < h.calls.length := by
  obtain ⟨parent, cancelled, hcall⟩ := hwaits
  exact (List.getElem?_eq_some_iff.1 hcall).1

/-- A call that has just asked has asked nothing else. -/
theorem Served.asksOnly_ask (hserved : h.Served) (ht : h.task? t = some task)
    (halive : task.inst.alive = true) (question : Question) :
    (h.ask t question).1.desk.AsksOnly h.calls.length question := by
  obtain ⟨h', task', hasked, hwaits, ht', hinst⟩ := ask_of_alive ht halive question
  have hserved' : h'.Served := by
    have hact := hserved.act (.ask t question)
    rwa [show h.act (.ask t question) = h' from congrArg Prod.fst hasked] at hact
  rw [hasked]
  refine ⟨(awaits_iff.2 hwaits).lt, fun u i other hi hmem => ?_⟩
  obtain ⟨owner, hu, rfl⟩ := task_of_inst hi
  have hstands : h.calls.length ∈ owner.inst.waiting := List.mem_filterMap.2 ⟨_, hmem, rfl⟩
  obtain rfl := hwaits.task_eq (hserved'.waits hu hstands)
  obtain rfl := Option.some.inj (ht'.symm.trans hu)
  rw [hinst] at hmem
  rcases List.mem_append.1 hmem with hold | hlast
  · have hwaits' := hserved.waits ht (List.mem_filterMap.2 ⟨_, hold, rfl⟩)
    exact absurd (lt_of_waits hwaits') (Nat.lt_irrefl _)
  · have heq := List.mem_singleton.1 hlast
    simp only [Request.query.injEq] at heq
    exact heq.2.1

/-- What becomes of a question while the host goes on: it still waits, or the answer is what the
instance knew in its turn, or that it has stopped. -/
theorem Served.answered (hserved : h.Served) (hwaits : h.Waits c t)
    (hasks : h.desk.AsksOnly c question) (n : Nat) : (Host.step^[n] h).Waits c t ∨
      ∃ answer, (Host.step^[n] h).Replied c t (some answer) ∧
        ((∃ j < n, ∃ task, (Host.step^[j] h).task? t = some task ∧ task.inst.alive = true ∧
            answer = task.inst.answerTo question) ∨
          ∃ task, (Host.step^[n] h).task? t = some task ∧ task.inst.alive = false ∧
            answer = .error (Instance.missing task.inst.name)) := by
  have hall : ∀ n, (Host.step^[n] h).Served ∧ (Host.step^[n] h).desk.AsksOnly c question := by
    intro n
    induction n with
    | zero => exact ⟨hserved, hasks⟩
    | succ n ih =>
      rw [Function.iterate_succ_apply']
      exact ⟨ih.1.act .step, ih.2.next (serving_act ih.1.tidy .step).next⟩
  induction n with
  | zero => exact .inl hwaits
  | succ n ih =>
    obtain ⟨hserved', hasks'⟩ := hall n
    rw [Function.iterate_succ_apply']
    rcases ih with hwaits' | ⟨answer, hreplied, hwhy⟩
    · rcases hserved'.fate hwaits' .step with hstill | ⟨hquits, -⟩ |
        ⟨task, answer, ht, hreplied, hwhy⟩
      · exact .inl hstill
      · cases hquits
      · refine .inr ⟨answer, hreplied, ?_⟩
        rcases hwhy with ⟨other, rest, -, hmailbox, rfl⟩ | ⟨rfl, task', ht', hstopped⟩
        · obtain ⟨owner, howner, halive, -⟩ := hserved'.stands hwaits'
          obtain rfl := Option.some.inj (ht.symm.trans howner)
          obtain rfl := hasks'.only t task.inst other (inst_of_task ht)
            (hmailbox ▸ List.mem_cons_self)
          exact .inl ⟨n, Nat.lt_succ_self n, task, ht, halive, rfl⟩
        · obtain ⟨other, moves, hother, hinst⟩ := moves_of_act ht .step
          obtain rfl := Option.some.inj (ht'.symm.trans hother)
          have hname : task'.inst.name = task.inst.name := hinst ▸ task.inst.after_name moves
          exact .inr ⟨task', ht', hstopped, by rw [hname]⟩
    · refine .inr ⟨answer, hserved'.replied_after hreplied [.step], ?_⟩
      rcases hwhy with ⟨j, hj, hturn⟩ | ⟨task, ht, hstopped, hanswer⟩
      · exact .inl ⟨j, Nat.lt_succ_of_lt hj, hturn⟩
      · obtain ⟨task', moves, ht', hinst⟩ := moves_of_act ht .step
        have hname : task'.inst.name = task.inst.name := hinst ▸ task.inst.after_name moves
        exact .inr ⟨task', ht', hinst ▸ Instance.stopped_after hstopped moves, by rw [hname, hanswer]⟩

/-! ## Requests that are taken in -/

/-- A request has come into the mailbox of a task, behind all that was there, and nothing else has
happened to any instance. -/
structure Lodged (h h' : Host) (t : Nat) (r : Request) : Prop where
  last : ∃ task task', h.task? t = some task ∧ h'.task? t = some task' ∧
    task'.inst = { task.inst with mailbox := task.inst.mailbox ++ [r] }
  others : ∀ u, u ≠ t → h'.task? u = h.task? u

theorem lodged_post (ht : h.task? t = some task) (halive : task.inst.alive = true) (r : Request) :
    ∃ h', h.post t r = .ok h' ∧ Lodged h h' t r ∧ h'.calls = h.calls := by
  have hpost : task.inst.post r = .ok { task.inst with mailbox := task.inst.mailbox ++ [r] } :=
    if_pos halive
  have hset : ∀ run, Lodged h (h.setTask t { task with
      inst := { task.inst with mailbox := task.inst.mailbox ++ [r] }, run := run }) t r := fun run =>
    ⟨⟨task, _, ht, task?_setTask_self ht _, rfl⟩, fun u hu => task?_setTask_ne (Ne.symm hu) _⟩
  unfold Host.post
  simp only [ht, hpost]
  split
  · exact ⟨_, rfl, ⟨(hset (.queued false)).last, (hset (.queued false)).others⟩, rfl⟩
  · exact ⟨_, rfl, hset task.run, rfl⟩

theorem Lodged.openWindow {h' : Host} {r : Request} (hlodged : Lodged h h' t r) (c : Nat)
    (call : Call) (timeout : Number) : Lodged h (h'.openWindow c call t timeout) t r := by
  obtain ⟨⟨task, task', ht, ht', hinst⟩, hothers⟩ := hlodged
  let g := (h'.setCall c { call with stage := .window t timeout, run := .waiting false }).setTimer
    timeout (.close c)
  have hg : ∀ u, g.task? u = h'.task? u := fun _ => rfl
  show Lodged h (g.watch t c) t r
  unfold watch
  split
  · exact ⟨⟨task, task', ht, ht', hinst⟩, hothers⟩
  · refine ⟨⟨task, _, ht, task?_updateTask_self ((hg t).trans ht') _, hinst⟩, fun u hu => ?_⟩
    rw [task?_updateTask_ne (Ne.symm hu), hg, hothers u hu]

/-- A question to an instance that has not stopped is taken in, and its call is upheld. -/
theorem ask_lodged (ht : h.task? t = some task) (halive : task.inst.alive = true)
    (question : Question) : ∃ h', h.ask t question = (h', .later h.calls.length) ∧
      h'.Upholds h.calls.length ∧ Lodged h h' t (.query h.calls.length question false) := by
  let g := (h.addCall ⟨none, .reply t none, .waiting false⟩).1
  have hg : g.Upholds h.calls.length := ⟨_, h.call_addCall _, rfl, nofun, .inl rfl⟩
  have ht' : g.task? t = some task := ht
  obtain ⟨h', hpost, hlodged, -⟩ := lodged_post ht' halive (.query h.calls.length question false)
  refine ⟨h', ?_, hg.post hpost, hlodged.last, hlodged.others⟩
  unfold Host.ask
  simp only
  rw [show (h.addCall ⟨none, .reply t none, .waiting false⟩).1.post t
    (.query (h.addCall ⟨none, .reply t none, .waiting false⟩).2 question false) = _ from hpost]
  rfl

/-- So is the request of a stop. -/
theorem stop_lodged {name : Value} (hlookup : h.lookup name = .ok t) (ht : h.task? t = some task)
    (halive : task.inst.alive = true) (timeout : Option Number) :
    ∃ h', h.stop name timeout = (h', .later h.calls.length) ∧ h'.Upholds h.calls.length ∧
      Lodged h h' t .stop := by
  obtain ⟨g, hpost, hlodged, hcalls⟩ := lodged_post ht halive .stop
  let window := timeout.getD g.settings.shutdownTimeout
  let call : Call := ⟨none, .closing t window, .waiting false⟩
  have hcall := g.call_addCall call
  have hadded : (g.addCall call).1.Upholds g.calls.length := ⟨_, hcall, rfl, nofun, .inl rfl⟩
  have hlodged' : Lodged h (g.addCall call).1 t .stop := ⟨hlodged.last, hlodged.others⟩
  refine ⟨(g.addCall call).1.openWindow g.calls.length call t window, ?_, ?_,
    hlodged'.openWindow _ _ _⟩
  · unfold Host.stop
    rw [hlookup]
    simp only [hpost, ← hcalls]
    rfl
  · rw [← hcalls]
    exact hadded.openWindow hcall t window

/-! ## What waiting comes to -/

/-- Whoever asks an instance that has not stopped is told what it knew in its turn, or that it has
stopped by now, unless there is no answer yet. -/
theorem Served.await_ask (hserved : h.Served) (ht : h.task? t = some task)
    (halive : task.inst.alive = true) (question : Question) : ∃ n,
      (await (h.ask t question)).1 = Host.step^[n] (h.ask t question).1 ∧
      ((∃ j < n, ∃ task', (Host.step^[j] (h.ask t question).1).task? t = some task' ∧
          task'.inst.alive = true ∧
          (await (h.ask t question)).2 = (task'.inst.answerTo question).map .answer) ∨
        (∃ task', (await (h.ask t question)).1.task? t = some task' ∧ task'.inst.alive = false ∧
          (await (h.ask t question)).2 = .error (Instance.missing task'.inst.name)) ∨
        (h.ask t question).1.Pending h.calls.length n ∧
          (await (h.ask t question)).2 = .error .cancellation) := by
  have hasks := hserved.asksOnly_ask ht halive question
  have hserved' : (h.ask t question).1.Served := hserved.act (.ask t question)
  obtain ⟨h₁, -, hasked, hwaits, -⟩ := ask_of_alive ht halive question
  obtain ⟨h', hasked', hup, -⟩ := ask_lodged ht halive question
  obtain rfl : h₁ = h' := congrArg Prod.fst (hasked.symm.trans hasked')
  rw [hasked] at hasks hserved' ⊢
  obtain ⟨n, call, hsteps, hcall, hends⟩ := hup.await
  refine ⟨n, hsteps, ?_⟩
  rw [hsteps]
  rcases hends with ⟨hdone, hresult⟩ | hnone
  · rcases hserved'.answered hwaits hasks n with ⟨parent, cancelled, hwaiting⟩ |
      ⟨answer, ⟨other, hother, hstage, -⟩, hwhy⟩
    · obtain rfl := Option.some.inj (hcall.symm.trans hwaiting)
      cases hdone
    · obtain rfl := Option.some.inj (hcall.symm.trans hother)
      rw [hstage] at hresult
      rw [hresult]
      rcases hwhy with ⟨j, hj, task', ht', halive', rfl⟩ | ⟨task', ht', hstopped, rfl⟩
      · exact .inl ⟨j, hj, task', ht', halive', rfl⟩
      · exact .inr (.inl ⟨task', ht', hstopped, rfl⟩)
  · exact .inr (.inr hnone)

/-- Whoever stops an instance is told that it is seen off, unless there is no result yet. -/
theorem Attended.await_stop (h₀ : h.Attended) {name : Value} (hlookup : h.lookup name = .ok t)
    (ht : h.task? t = some task) (halive : task.inst.alive = true) (timeout : Option Number) : ∃ n,
      (await (h.stop name timeout)).1 = Host.step^[n] (h.stop name timeout).1 ∧
      ((∃ a, (await (h.stop name timeout)).2 = .ok a) ∧
          (await (h.stop name timeout)).1.SeenOff t ∨
        (h.stop name timeout).1.Pending h.calls.length n ∧
          (await (h.stop name timeout)).2 = .error .cancellation) := by
  have hstopped := (h₀.act (.stop name timeout)).1
  obtain ⟨h', hstop, hup, -⟩ := stop_lodged hlookup ht halive timeout
  have hlater : (h.stop name timeout).2 = .later h.calls.length := congrArg Prod.snd hstop
  obtain ⟨u, -, call, hlookup', -, hcall, htarget⟩ := stop_called hlater
  obtain rfl : t = u := Except.ok.inj (hlookup.symm.trans hlookup')
  have hact : h.act (.stop name timeout) = h' := congrArg Prod.fst hstop
  rw [hact] at hstopped
  rw [hstop] at hcall ⊢
  obtain ⟨n, call', hsteps, hcall', hends⟩ := hup.await
  refine ⟨n, hsteps, ?_⟩
  rw [hsteps]
  rcases hends with ⟨hdone, hresult⟩ | hnone
  · rw [iterate_step] at hcall' ⊢
    obtain ⟨hlast, hmoves⟩ := hstopped.after (List.replicate n .step)
    obtain ⟨other, hother, hbecomes⟩ := hmoves.keeps_call hcall
    obtain rfl := Option.some.inj (hcall'.symm.trans hother)
    have htarget' : call'.target? = some t := hbecomes.target.trans htarget
    obtain ⟨a, ha⟩ : ∃ a, call'.stage.outcome = .ok a := by
      unfold Call.target? at htarget'
      cases hstage : call'.stage with
      | reply u result => simp [hstage] at htarget'
      | _ => exact ⟨_, rfl⟩
    rw [ha] at hdone hresult
    exact .inl ⟨⟨a, hresult⟩, h.calls.length, call', a, hcall', htarget', hdone⟩
  · exact .inr hnone

end Host
end Turnstile
