-- All that belongs to a name is an errand of it: a call upon the name, a slice of one of its tasks,
-- the end of one. An errand leaves everybody else alone, and comes to what the supervisor of the
-- one name makes of it.
import Turnstile.Proofs.Supervisor.Sound

namespace Turnstile

/-! ## Errands -/

/-- What belongs to a name. The tasks of the name are counted among their own. -/
inductive Errand where
  | start (choice : MachineChoice) (payload : Value)
  | send (event payload : Value)
  | query (kind : String) (argument : Value)
  | stop (timeout : Option Number)
  /-- A queued task is let run, or told of its cancellation. -/
  | resume (k : Nat)
  /-- The body of a task moves on, waits or ends. -/
  | run (k : Nat)
  /-- The pause of a hook is over. -/
  | wake (k : Nat)
  /-- The time to stop is over. -/
  | cancel (k : Nat)
  /-- The supervisor learns of the end of a task. -/
  | exited (k : Nat)

namespace Host

/-- Ends the pause that a task is in. -/
def rouse (h : Host) (t : Nat) : Host :=
  match h.task? t with
  | some task =>
    match task.run with
    | .paused (some serial) => h.wake t serial
    | _ => h
  | none => h

/-- Does something to the task at a place among those of a name. -/
def upon (h : Host) (name : Value) (k : Nat) (f : Nat → Host) : Host :=
  match nth? (Task.isOf name) h.tasks k with
  | some t => f t
  | none => h

/-- What an errand of a name makes of a host. -/
def does (h : Host) (name : Value) : Errand → Host
  | .start choice payload => (h.start choice name payload).1
  | .send event payload => h.accepting (h.send ⟨name, event, payload⟩)
  | .query kind argument => (h.query name kind argument).1
  | .stop timeout => (h.stop name timeout).1
  | .resume k => h.upon name k h.resume
  | .run k => h.upon name k h.runTask
  | .wake k => h.upon name k h.rouse
  | .cancel k => h.upon name k fun t => (h.cancelTask t).1
  | .exited k => h.upon name k h.exited

end Host

/-- What an errand of a name makes of the supervisor of the one name. -/
def Solo.does (s : Solo) (name : Value) : Errand → Solo
  | .start choice payload => s.start choice name payload
  | .send event payload => match s.send ⟨name, event, payload⟩ with
    | .ok s => s
    | .error _ => s
  | .query kind argument => s.query name kind argument
  | .stop _ => s.stop name
  | .resume k => s.resume k
  | .run k => s.runTask k
  | .wake k => s.wake k
  | .cancel k => s.cancel k
  | .exited k => s.exited k

/-- What is started keeps to itself under a name. -/
def Errand.Homely (registry : Registry) (name : Value) : Errand → Prop
  | .start (.named machine) _ => ∀ m, registry.get machine = .ok m → m.hooks.Homely name
  | .start (.given m) _ => m.hooks.Homely name
  | _ => True

namespace Host

variable {quits : Nat → Prop} {h h' : Host} {t k : Nat} {task : Task} {a b name : Value} {s : Solo}
  {e : Errand}

/-! ## Every errand stays with its name -/

theorem isOf_congr (hname : name.IsName) (hsame : name.same b = true) :
    Task.isOf name = Task.isOf b := by
  funext task
  exact Value.same_congr hname hsame task.inst.name

theorem isName_of_same (hb : b.IsName) (hsame : name.same b = true) : name.IsName :=
  Value.isName_of_same hb.isKey (Value.same_symm (Value.isKey_of_same hsame hb.isKey) hsame)

/-- What is done alike to each task of a name is done alike to the one at a place, if there is one. -/
theorem goes_upon (hb : b.IsName) (hsame : name.same b = true) {f : Nat → Host} {g : Solo → Nat → Solo}
    (hnone : ∀ s : Solo, s.tasks[k]? = none → g s k = s)
    (hgoes : ∀ t, h.isOf b t = true → Goes b h (f t) (g (h.solo b) (h.place b t))) :
    Goes b h (h.upon name k f) (g (h.solo b) k) := by
  have hat : (h.tasks.filter (Task.isOf b))[k]? =
      (nth? (Task.isOf b) h.tasks k).bind fun t => h.tasks[t]? := filter_nth?
  unfold upon
  rw [isOf_congr (isName_of_same hb hsame) hsame]
  cases hnth : nth? (Task.isOf b) h.tasks k with
  | none =>
    have hout : (h.solo b).tasks[k]? = none := by
      unfold solo
      rw [List.getElem?_map, hat, hnth]
      simp
    rw [hnone _ hout]
    exact .refl b h
  | some t =>
    obtain ⟨⟨task, ht, hof⟩, rfl⟩ := nth?_eq_some.1 hnth
    exact hgoes t (isOf_of_task ht hof)

theorem goes_rouse (hb : b.IsName) (hof : h.isOf b t = true) :
    Goes b h (h.rouse t) ((h.solo b).wake (h.place b t)) := by
  obtain ⟨task, ht, hmine⟩ := exists_of_isOf hof
  have hthere := solo_task ht hmine
  have hplain : (task.plain (h.turn b)).run = task.run.plain := rfl
  have hstays : (∀ serial, task.run.plain ≠ .paused (some serial)) →
      (h.solo b).wake (h.place b t) = h.solo b := by
    intro hrun
    unfold Solo.wake
    simp only [hthere, hplain]
  unfold rouse
  simp only [ht]
  cases hrun : task.run with
  | paused serial =>
    cases serial with
    | none =>
      rw [hstays (by simp [hrun, TaskRun.plain])]
      exact .refl b h
    | some serial => exact (plays_wake hb ht hmine hrun).toGoes
  | _ =>
    rw [hstays (by simp [hrun, TaskRun.plain])]
    exact .refl b h

/-- An errand of a name goes its way with the name, whoever else there is. -/
theorem goes_does (hb : b.IsName) (hsame : name.same b = true) (hsound : h.Sound)
    (hhome : h.Homely b) (he : e.Homely h.registry b) :
    Goes b h (h.does name e) ((h.solo b).does name e) := by
  have hasked := hsound.asked b
  cases e with
  | start choice payload =>
    refine goes_start hb hsound.tied hsound.places hsound.counted hsame (fun m hm => ?_) payload
    cases choice with
    | named machine =>
      refine he m ?_
      unfold choose at hm
      cases hget : h.registry.get machine with
      | ok m' => simpa [hget] using hm
      | error fault => simp [hget] at hm
    | given machine =>
      obtain rfl : machine = m := by simpa [choose] using hm
      exact he
    | other v => simp [choose] at hm
  | send event payload => exact goes_send hb hsound.tied (r := ⟨name, event, payload⟩) hsame
  | query kind argument => exact goes_query hb hsound.tied hasked hsame kind argument
  | stop timeout => exact goes_stop hb hsound.tied hsame timeout
  | resume k =>
    refine goes_upon hb hsame (g := Solo.resume) (fun s hout => ?_) fun t hof =>
      (plays_resume hb hsound.tied hhome hasked hof).toGoes
    simp [Solo.resume, hout]
  | run k =>
    refine goes_upon hb hsame (g := Solo.runTask) (fun s hout => ?_) fun t hof =>
      (plays_runTask hb hsound.tied hhome hasked hof).toGoes
    simp [Solo.runTask, hout]
  | wake k =>
    refine goes_upon hb hsame (g := Solo.wake) (fun s hout => ?_) fun t hof => goes_rouse hb hof
    simp [Solo.wake, hout]
  | cancel k =>
    refine goes_upon hb hsame (g := Solo.cancel) (fun s hout => ?_) fun t hof =>
      (plays_cancelTask hb hof).toGoes
    simp [Solo.cancel, hout]
  | exited k =>
    refine goes_upon hb hsame (g := Solo.exited) (fun s hout => ?_) fun t hof =>
      goes_exited hb hsound.tied hsound.places hsound.counted hhome hof
    simp [Solo.exited, hout]

/-! ## What stays true -/

theorem Serving.served (hserving : Serving quits h h') (hserved : h.Served) : h'.Served :=
  ⟨hserving.tidy, hserved.answerable.next hserving.next⟩

theorem serving_upon (htidy : h.Tidy) {f : Nat → Host} (hf : ∀ t, Serving quits h (f t)) (name : Value)
    (k : Nat) : Serving quits h (h.upon name k f) := by
  unfold upon
  split
  · exact hf _
  · exact (Still.refl htidy).serving

/-- An errand is one move at the desk, at which nobody gives up. -/
theorem serving_does (htidy : h.Tidy) (name : Value) (e : Errand) :
    Serving (fun _ => False) h (h.does name e) := by
  have hs := Still.refl htidy
  cases e with
  | start choice payload => exact serving_act htidy (.start choice name payload)
  | send event payload => exact serving_act htidy (.send ⟨name, event, payload⟩)
  | query kind argument => exact serving_act htidy (.query name kind argument)
  | stop timeout => exact serving_act htidy (.stop name timeout)
  | resume k => exact serving_upon htidy (serving_resume htidy) name k
  | run k => exact serving_upon htidy (serving_runTask htidy) name k
  | wake k =>
    refine serving_upon htidy (fun t => ?_) name k
    unfold rouse
    split
    · split
      · exact (hs.wake t _).serving
      · exact hs.serving
    · exact hs.serving
  | cancel k => exact serving_upon htidy (fun t => (hs.cancelTask t).serving) name k
  | exited k => exact serving_upon htidy (fun t => (hs.exited t).serving) name k

theorem Sound.does (hsound : h.Sound) (hb : b.IsName) (hsame : name.same b = true)
    (hhome : h.Homely b) (he : e.Homely h.registry b) : (h.does name e).Sound := by
  have hserving := serving_does hsound.served.tidy name e
  have hgoes := goes_does hb hsame hsound hhome he
  exact ⟨hserving.served hsound.served, hsound.placed.next hserving.next, hgoes.tied hsound.tied,
    hgoes.counted hsound.counted⟩

/-! ## Shares and supervisors of one name -/

/-- The share of a name and the world say what a host is to it. -/
theorem solo_of_share (hworld : h'.world = h.world) (hshare : h'.share a = h.share a) :
    h'.solo a = h.solo a := by
  obtain ⟨hholder, hrestarts, htasks, hcalls, hpast⟩ := Share.mk.inj hshare
  have hplace : h'.place a = h.place a := funext (rank_congr (congrFun htasks))
  have hturn : h'.turn a = h.turn a := funext (rank_congr (congrFun hcalls))
  have htasks' : h'.tasks.filter (Task.isOf a) = h.tasks.filter (Task.isOf a) :=
    filter_congr (congrFun htasks)
  have hcalls' : h'.calls.filter (h'.asks a) = h.calls.filter (h.asks a) :=
    filter_congr (congrFun hcalls)
  unfold solo
  rw [hworld, hholder, hrestarts, hplace, hturn, htasks', hcalls', hpast]

theorem Homely.of_share (hhome : h.Homely a) (hshare : h'.share a = h.share a) : h'.Homely a := by
  intro t task ht hof
  have htasks := congrFun (congrArg Share.tasks hshare) t
  refine hhome t task ?_ hof
  have hthere : (h'.task? t).filter (Task.isOf a) = some task := by
    rw [ht]
    simp [Option.filter, hof]
  have hthere' : (h.task? t).filter (Task.isOf a) = some task := htasks.symm.trans hthere
  exact (Option.filter_eq_some_iff.1 hthere').1

end Host
end Turnstile
