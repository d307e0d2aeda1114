-- What stopping comes to: when a stop has returned, the task that it stopped has ended, and the
-- name is alive again only if it was started anew, or restarted after a crash.
import Turnstile.Proofs.Supervisor.Replies
import Turnstile.Proofs.Supervisor.Rounds
import Turnstile.Proofs.Supervisor.Turns
import Turnstile.Proofs.Supervisor.Window

namespace Turnstile

theorem Call.Becomes.trans {call call' call'' : Call} (h : call.Becomes call')
    (h' : call'.Becomes call'') : call.Becomes call'' where
  parent := h'.parent.trans h.parent
  target := h'.target.trans h.target
  watches t := h'.watches t ∘ h.watches t
  children cs := (h'.children cs).trans (h.children cs)
  done result hdone := by
    obtain rfl := h.done result hdone
    exact h'.done result hdone

namespace Office

variable {o o' : Office} {c : Nat} {call : Call}

theorem Moves.keeps_call (hmoves : o.Moves o') (hcall : o.calls[c]? = some call) :
    ∃ call', o'.calls[c]? = some call' ∧ call.Becomes call' := by
  induction hmoves with
  | refl => exact ⟨call, hcall, .refl call⟩
  | tail _ hmove ih =>
    obtain ⟨call', hcall', hbecomes⟩ := ih
    obtain ⟨call'', hcall'', hbecomes'⟩ := hmove.keeps_call hcall'
    exact ⟨call'', hcall'', hbecomes.trans hbecomes'⟩

/-- All that is true of an office at any time. -/
structure InOrder (o : Office) : Prop where
  told : o.Told
  joint : o.Joint
  inTurn : o.InTurn

theorem InOrder.moves (h : o.InOrder) (hmoves : o.Moves o') : o'.InOrder := by
  induction hmoves with
  | refl => exact h
  | tail _ hmove ih =>
    exact ⟨ih.told.move hmove, ih.joint.move ih.told hmove, ih.inTurn.move ih.told hmove⟩

theorem inOrder_empty : InOrder ⟨[], [], [], [], none⟩ where
  told := ⟨by simp, by simp, by simp [jobs], by simp, List.nodup_nil, by simp [Office.closes, jobs],
    by simp⟩
  joint := ⟨by simp, by simp, by simp [Office.joined], by simp, by simp⟩
  inTurn := ⟨by simp, fun c hc => by simpa using hc.mem.1, by simp, by simp, by simp, by simp,
    by simp⟩

end Office

namespace Host

variable {h h' : Host} {t u c : Nat} {task : Task} {name : Value}

/-! ## Runs -/

/-- All that is true of a host at any time, as far as stopping goes. -/
structure Attended (h : Host) : Prop where
  steady : h.Steady
  orderly : h.roster.Orderly
  finished : h.roster.Over
  placed : ∀ t task, h.task? t = some task → task.inst.Placed
  office : h.office.InOrder

theorem staffed_of_orderly (horderly : h.roster.Orderly) : h.Staffed := by
  intro p hp
  obtain ⟨e, he, hsupervised, -⟩ := horderly.stored p hp
  rw [entries_get?] at he
  obtain ⟨task, ht, rfl⟩ := Option.map_eq_some_iff.1 he
  exact ⟨task, ht, hsupervised⟩

theorem placed_act (hplaced : ∀ t task, h.task? t = some task → task.inst.Placed) (d : Deed) :
    ∀ t task, (h.act d).task? t = some task → task.inst.Placed := by
  obtain ⟨g, hgrows, htasks⟩ := h.grows_of_act d
  intro t task' ht'
  rw [← task?_of_tasks htasks] at ht'
  cases ht : h.task? t with
  | none =>
    obtain ⟨machine, name, payload, moves, hinst⟩ := hgrows.new t task' ht' ht
    exact hinst ▸ (Instance.placed_create machine name payload).after moves
  | some task =>
    obtain ⟨other, moves, hother, -, hinst⟩ := hgrows.old t task ht
    obtain rfl := Option.some.inj (ht'.symm.trans hother)
    exact hinst ▸ (hplaced t task ht).after moves

namespace Attended

theorem act (h₀ : h.Attended) (d : Deed) :
    (h.act d).Attended ∧ h.office.Moves (h.act d).office := by
  have hmoves := moves_act h₀.steady d
  have hround := round_act h₀.steady h₀.placed (staffed_of_orderly h₀.orderly) d
  exact ⟨⟨hmoves.steady h₀.steady, h₀.orderly.next hmoves.next, hmoves.next.keeps_over h₀.finished,
    placed_act h₀.placed d, h₀.office.moves hround⟩, hround⟩

theorem after (h₀ : h.Attended) (deeds : List Deed) :
    (h.after deeds).Attended ∧ h.office.Moves (h.after deeds).office := by
  refine after_keeps (P := fun g => g.Attended ∧ h.office.Moves g.office) ?_ ⟨h₀, .refl⟩ deeds
  rintro g d ⟨hg, hmoves⟩
  obtain ⟨hact, hround⟩ := hg.act d
  exact ⟨hact, hmoves.trans hround⟩

end Attended

theorem attended_opened (settings : Settings) (registry : Registry) (bus : Bus Observer) :
    (opened settings registry bus).Attended where
  steady := steady_opened settings registry bus
  orderly := orderly_opened settings registry bus
  finished := over_after []
  placed t task ht := by simp [opened, Host.task?] at ht
  office := Office.inOrder_empty

/-! ## What a call that has returned comes to -/

theorem exited_of_exits (hexit : t ∈ h.roster.exits) : .exited t ∈ h.office.queue := by
  obtain ⟨j, hj, hexit⟩ := List.mem_filterMap.1 hexit
  cases j with
  | exited u =>
    obtain rfl := Option.some.inj hexit
    exact hj
  | _ => cases hexit

/-- When a call has returned that waited for a task or stopped it, the task has ended, and its
instance is not alive under any name. -/
theorem Attended.gone (h₀ : h.Attended) {call : Call} {a : CallAnswer}
    (hcall : h.calls[c]? = some call) (htarget : call.target? = some t)
    (hdone : call.run = .done (.ok a)) : h.hasEnded t = true ∧
    ∀ name task, h.holder? name = some (t, task) → task.inst.alive = false := by
  obtain ⟨hended, hwatches⟩ := h₀.office.told.settled c call t hcall htarget (.inl ⟨a, hdone⟩)
  refine ⟨ended_iff.1 hended, fun name task hholder => ?_⟩
  obtain ⟨hheld, ht⟩ := lookup_of_holder? hholder
  have hrun : task.run = .ended := hended _ (sign_of_task ht)
  have he := entry_of_task ht
  have hover : task.entry.ended = true := by simp [Task.entry, hrun]
  obtain ⟨key, hmem, -⟩ := mem_of_lookupName hheld
  obtain ⟨e, he', hsupervised, -, hstored⟩ := h₀.orderly.stored _ hmem
  obtain rfl := Option.some.inj (he.symm.trans he')
  have hkey := h₀.orderly.named t _ he hsupervised
  have hsame := h₀.orderly.name_of_holder hheld he
  have hself := Value.same_trans hkey hsame (Value.same_symm hkey hsame)
  -- The supervisor is still to learn of the end, or the task would not be stored.
  have hqueue := exited_of_exits (hstored (Value.isName_of_same hkey hself) hover)
  rw [← Bool.not_eq_true]
  intro halive
  rcases h₀.placed t task ht with hfresh | ⟨ending, hfinished⟩ | hentered
  · refine h₀.finished t _ he hover ?_
    simp [Task.entry, Instance.ending, hfresh]
  · have houtside : task.inst.outside = true := by simp [Instance.outside, halive, hfinished]
    exact h₀.office.inTurn.settled t _ c call a (sign_of_task ht) ⟨hsupervised, houtside⟩ hcall
      hwatches hdone hqueue
  · rw [stopped_of_ended h₀.finished ht hentered hrun] at halive
    cases halive

/-! ## Who comes under a name -/

/-- A new instance takes a name: a start of the name is accepted, or the supervisor restarts it
after a crash. -/
inductive Renews (h : Host) (name : Value) : Deed → Prop where
  | start {choice : MachineChoice} {key payload : Value} (hsame : key.same name = true)
    (haccepted : (h.start choice key payload).2 = .ok h.tasks.length) :
    Renews h name (.start choice key payload)
  | restart {t : Nat} {rest : List Job} {task : Task} {fault : Fault}
    (hpolicy : h.settings.restart = .transient) (hrunning : h.running = none)
    (hbatch : h.batch = .exited t :: rest) (ht : h.task? t = some task)
    (hsame : task.inst.name.same name = true)
    (hcrashed : task.inst.phase = .finished (.failed fault))
    (hcame : h.tasks.length < h.step.tasks.length) : Renews h name .step

/-- Some deed of a run brings a new instance under a name. -/
def Renewed (h : Host) (name : Value) (deeds : List Deed) : Prop :=
  ∃ before d behind, deeds = before ++ d :: behind ∧ (h.after before).Renews name d

theorem Quiet.length (hq : Quiet h h') : h'.tasks.length = h.tasks.length := by
  rw [← length_entries, hq.roster, length_entries]

theorem length_runTask (h : Host) (t : Nat) : (h.runTask t).tasks.length = h.tasks.length := by
  unfold runTask
  split
  · rfl
  · rename_i task ht
    split
    · refine (Quiet.tellWatchers (.refl _) task.watchers).length.trans ?_
      split <;> exact List.length_set ..
    · exact feed_length ..
    · split
      · exact List.length_modify ..
      · exact feed_length ..
    · split
      · exact feed_length ..
      · exact List.length_modify ..

theorem length_resume (h : Host) (t : Nat) : (h.resume t).tasks.length = h.tasks.length := by
  unfold resume
  split
  · split
    · simp only
      split
      · exact (feed_length ..).trans (List.length_set ..)
      · exact List.length_set ..
    · rfl
  · rfl

theorem length_runJob (h : Host) {j : Job} (hexit : j.exit? = none) :
    (h.runJob j).tasks.length = h.tasks.length := by
  have hsame := Quiet.refl h
  cases j with
  | resume t => exact h.length_resume t
  | exited t => cases hexit
  | taskEnded c => exact (hsame.release c).length
  | proceed c => exact (hsame.proceed c).length
  | joined p cancelled => exact (hsame.joined p cancelled).length
  | wake t serial => exact (hsame.wake t serial).length
  | close c => exact (hsame.release c).length
  | announce name attempt fault => exact (hsame.publish _ _).length

/-- How a task comes in a step: the supervisor learns that another one has ended with a fault, and
makes a new instance of the machine, with the name and the payload that this one was made with. -/
structure Replaces (h : Host) (t : Nat) (old new : Task) : Prop where
  policy : h.settings.restart = .transient
  running : h.running = none
  batch : ∃ rest, h.batch = .exited t :: rest
  there : h.task? t = some old
  crashed : ∃ fault, old.inst.phase = .finished (.failed fault)
  supervised : new.supervised = true
  inst : new.inst = .create old.inst.machine old.inst.name old.inst.initialPayload

theorem crash_of_new {old : Task} {rest : List Job} {fault : Fault} (hnone : h.task? u = none)
    (hnew : ((h.vacated t old.inst.name rest).afterCrash old fault).task? u = some task) :
    u = h.tasks.length ∧ h.settings.restart = .transient ∧ task.supervised = true ∧
      task.inst = .create old.inst.machine old.inst.name old.inst.initialPayload := by
  unfold afterCrash at hnew
  split at hnew
  · cases hnone.symm.trans hnew
  · rename_i hpolicy
    simp only at hnew
    split at hnew
    · cases hnone.symm.trans hnew
    · split at hnew
      · cases hnone.symm.trans hnew
      · rcases task?_addTask_eq_some hnew with hold | ⟨rfl, rfl⟩
        · cases hnone.symm.trans hold
        · exact ⟨rfl, hpolicy, rfl, rfl⟩

/-- A task comes in a step only when the supervisor learns of a crash and restarts the name. -/
theorem replaces_of_new (hnone : h.task? u = none) (hnew : h.step.task? u = some task) :
    u = h.tasks.length ∧ ∃ t old, h.Replaces t old task := by
  have hstays : h.step.tasks.length = h.tasks.length →
      u = h.tasks.length ∧ ∃ t old, h.Replaces t old task := by
    intro hlength
    rw [task?_of_length hlength hnone] at hnew
    cases hnew
  cases hrunning : h.running with
  | some t =>
    rw [step_running hrunning] at hstays
    exact hstays (h.length_runTask t)
  | none =>
    cases hbatch : h.batch with
    | nil =>
      rw [step_turn hrunning hbatch] at hstays
      exact hstays rfl
    | cons j rest =>
      have hstep := step_job hrunning hbatch
      cases j with
      | exited t =>
        have hstep : h.step = ({ h with batch := rest } : Host).exited t := hstep
        cases ht : h.task? t with
        | none =>
          have ht' : ({ h with batch := rest } : Host).task? t = none := ht
          refine hstays ?_
          rw [hstep]
          unfold exited
          simp only [ht']
        | some old =>
          rw [exited_eq ht] at hstep
          split at hstep
          · rename_i fault hcrashed
            obtain ⟨hlast, hpolicy, hsupervised, hinst⟩ := crash_of_new hnone (hstep ▸ hnew)
            exact ⟨hlast, t, old, hpolicy, hrunning, ⟨rest, hbatch⟩, ht, ⟨fault, hcrashed⟩,
              hsupervised, hinst⟩
          · exact hstays (congrArg (fun g => g.tasks.length) hstep)
      | _ =>
        refine hstays ?_
        rw [hstep]
        exact length_runJob { h with batch := rest } rfl

theorem renews_of_step (hnone : h.task? u = none) (hnew : h.step.task? u = some task)
    (hsame : task.inst.name.same name = true) : h.Renews name .step := by
  obtain ⟨-, t, old, hreplaces⟩ := replaces_of_new hnone hnew
  obtain ⟨rest, hbatch⟩ := hreplaces.batch
  obtain ⟨fault, hcrashed⟩ := hreplaces.crashed
  have hname : task.inst.name = old.inst.name := by rw [hreplaces.inst]; rfl
  have hle := List.getElem?_eq_none_iff.1 hnone
  have hlt := (List.getElem?_eq_some_iff.1 hnew).1
  exact .restart hreplaces.policy hreplaces.running hbatch hreplaces.there (hname ▸ hsame) hcrashed
    (by omega)

/-- A task comes with a start of a name only if the start is accepted. -/
theorem accepted_of_new {choice : MachineChoice} {key payload : Value} (hnone : h.task? u = none)
    (hnew : (h.start choice key payload).1.task? u = some task) :
    u = h.tasks.length ∧ (h.start choice key payload).2 = .ok h.tasks.length ∧
      ∃ machine, h.choose choice = .ok (.ok machine) ∧ task.supervised = true ∧
        task.inst = .create machine key payload := by
  revert hnew
  unfold Host.start
  split
  · intro hnew
    cases hnone.symm.trans hnew
  · rename_i hchoice
    split
    · intro hnew
      cases hnone.symm.trans hnew
    · simp only
      split
      · intro hnew
        cases hnone.symm.trans hnew
      · split
        · intro hnew
          cases hnone.symm.trans hnew
        · intro hnew
          rcases task?_addTask_eq_some hnew with hold | ⟨rfl, rfl⟩
          · cases hnone.symm.trans hold
          · exact ⟨rfl, rfl, _, hchoice, rfl, rfl⟩

theorem unsupervised_of_new {choice : MachineChoice} {key payload : Value} {outlet : Outlet}
    (hnone : h.task? u = none) (hnew : (h.create choice key payload outlet).1.task? u = some task) :
    task.supervised = false := by
  unfold Host.create at hnew
  split at hnew
  · cases hnone.symm.trans hnew
  · cases hnone.symm.trans hnew
  · rcases task?_addTask_eq_some hnew with hold | ⟨-, rfl⟩
    · cases hnone.symm.trans hold
    · rfl

/-- A supervised task comes only with a start, or with a restart after a crash. -/
theorem renews_of_new {d : Deed} (hnone : h.task? u = none) (hnew : (h.act d).task? u = some task)
    (hsupervised : task.supervised = true) (hsame : task.inst.name.same name = true) :
    h.Renews name d := by
  have hquiet : d.Aside → h.Renews name d := by
    intro haside
    rw [task?_of_length (quiet_act haside).length hnone] at hnew
    cases hnew
  cases d with
  | step => exact renews_of_step hnone hnew hsame
  | pass time => cases hnone.symm.trans hnew
  | start choice key payload =>
    obtain ⟨-, haccepted, machine, -, -, hinst⟩ := accepted_of_new hnone hnew
    have hname : task.inst.name = key := by rw [hinst]; rfl
    exact .start (hname ▸ hsame) haccepted
  | create choice key payload outlet =>
    cases hsupervised.symm.trans (unsupervised_of_new hnone hnew)
  | _ => exact hquiet (by trivial)

/-- Whoever holds a name and was not there before has come with a start or a restart. -/
theorem renewed_of_holder (h₀ : h.Attended) {deeds : List Deed}
    (hheld : lookupName (h.after deeds).holders name = some u) (hle : h.tasks.length ≤ u) :
    h.Renewed name deeds := by
  induction deeds generalizing h with
  | nil =>
    obtain ⟨key, hmem, -⟩ := mem_of_lookupName hheld
    have hlt := h₀.orderly.stored_lt hmem
    rw [length_entries] at hlt
    omega
  | cons d deeds ih =>
    obtain ⟨hact, -⟩ := h₀.act d
    by_cases hthere : (h.act d).tasks.length ≤ u
    · obtain ⟨before, e, behind, hdeeds, hrenews⟩ := ih hact hheld hthere
      exact ⟨d :: before, e, behind, congrArg (d :: ·) hdeeds, hrenews⟩
    · have hnone : h.task? u = none := List.getElem?_eq_none_iff.2 hle
      have hnew : (h.act d).task? u = some (h.act d).tasks[u] :=
        List.getElem?_eq_getElem (by omega)
      -- What the supervisor knows of the holder is what it knew when the task came.
      obtain ⟨e, he, hbecomes⟩ := entry_after hact.steady (entry_of_task hnew) deeds
      have hlater : ((h.act d).after deeds).roster.Orderly := (hact.after deeds).1.orderly
      obtain ⟨key, hmem, -⟩ := mem_of_lookupName hheld
      obtain ⟨e', he', hsupervised, -⟩ := hlater.stored _ hmem
      obtain rfl := Option.some.inj (he.symm.trans he')
      have hsame := hlater.name_of_holder hheld he
      rw [hbecomes.name] at hsame
      rw [hbecomes.supervised] at hsupervised
      exact ⟨[], d, deeds, rfl, renews_of_new hnone hnew hsupervised hsame⟩

/-! ## The law of stopping -/

/-- A call that waited for a task or stopped it has returned without a fault. -/
def SeenOff (h : Host) (t : Nat) : Prop :=
  ∃ (c : Nat) (call : Call) (a : CallAnswer), h.calls[c]? = some call ∧ call.target? = some t ∧
    call.run = .done (.ok a)

theorem call_of_result {result : Except Fault CallAnswer} (hresult : h.result? c = some result) :
    ∃ call, h.calls[c]? = some call ∧ call.run = .done result := by
  unfold Host.result? at hresult
  split at hresult
  · rename_i hcall
    obtain rfl := Option.some.inj hresult
    exact ⟨_, hcall, rfl⟩
  · cases hresult

theorem holder_of_isAlive (halive : h.isAlive name = .ok true) :
    ∃ t task, h.holder? name = some (t, task) ∧ task.inst.alive = true := by
  unfold isAlive at halive
  split at halive
  · cases halive
  · split at halive
    · rename_i t task hholder
      exact ⟨t, task, hholder, Except.ok.inj halive⟩
    · cases halive

namespace Attended

theorem seenOff_after (h₀ : h.Attended) (hseen : h.SeenOff t) (deeds : List Deed) :
    (h.after deeds).SeenOff t := by
  obtain ⟨c, call, a, hcall, htarget, hdone⟩ := hseen
  obtain ⟨call', hcall', hbecomes⟩ := (h₀.after deeds).2.keeps_call hcall
  obtain rfl := hbecomes.done _ hdone
  exact ⟨c, call', a, hcall', htarget, hdone⟩

theorem ended_of_seenOff (h₀ : h.Attended) (hseen : h.SeenOff t) : h.hasEnded t = true := by
  obtain ⟨c, call, a, hcall, htarget, hdone⟩ := hseen
  exact (h₀.gone hcall htarget hdone).1

/-- Whoever holds a name later and was there before held it before, and was alive if it still is. -/
theorem held_before (h₀ : h.Attended) {deeds : List Deed} (hlt : u < h.tasks.length)
    (hholder : (h.after deeds).holder? name = some (u, task)) :
    ∃ old, h.holder? name = some (u, old) ∧ (task.inst.alive = true → old.inst.alive = true) := by
  obtain ⟨hheld', ht'⟩ := lookup_of_holder? hholder
  have ht : h.task? u = some h.tasks[u] := List.getElem?_eq_getElem hlt
  have hheld : lookupName h.holders name = some u := by
    by_contra hlost
    exact lost_after h₀.steady h₀.orderly (by rwa [length_entries]) hlost deeds hheld'
  obtain ⟨e', he', hbecomes⟩ := entry_after h₀.steady (entry_of_task ht) deeds
  obtain rfl := Option.some.inj ((entry_of_task ht').symm.trans he')
  exact ⟨_, holder?_of_lookup ht hheld, hbecomes.alive⟩

end Attended

/-- A stop that waits has its call, which is about the live holder of the name. -/
theorem stop_called {timeout : Option Number} (hlater : (h.stop name timeout).2 = .later c) :
    ∃ t task call, h.lookup name = .ok t ∧ h.holder? name = some (t, task) ∧
      (h.stop name timeout).1.calls[c]? = some call ∧ call.target? = some t := by
  revert hlater
  unfold Host.stop
  split
  · intro hlater
    cases hlater
  · rename_i t hlookup
    split
    · intro hlater
      cases hlater
    · rename_i h' hpost
      intro hlater
      obtain rfl : h'.calls.length = c := Returned.later.inj hlater
      obtain ⟨task, hholder, -⟩ := holder_of_lookup hlookup
      refine ⟨t, task, ⟨none, .window t (timeout.getD h'.settings.shutdownTimeout),
        .waiting false⟩, hlookup, hholder, ?_, rfl⟩
      have hthere := h'.call_addCall
        ⟨none, .closing t (timeout.getD h'.settings.shutdownTimeout), .waiting false⟩
      unfold openWindow watch
      simp only
      split <;> exact List.getElem?_set_self (List.getElem?_eq_some_iff.1 hthere).1

namespace Attended

end Attended

end Host
end Turnstile
