-- Each deed is one move at the desk: a question is put to an instance, a caller gives up, the body
-- of a task moves on and gives the answers that are due, or nobody who waits is concerned. So who
-- waits always stands in one mailbox, and hooks are only called by bodies that move on.
import Turnstile.Proofs.Supervisor.Still

namespace Turnstile

namespace Host

variable {h₀ h h' : Host} {t u c : Nat} {task : Task}

/-! ## Bodies -/

theorem Still.pause (hs : Still h₀ h) (t : Nat) (p : Pause) : Still h₀ (h.pause t p) := by
  cases p with
  | none => exact hs
  | forever => exact hs.block t _
  | seconds s =>
    unfold Host.pause
    simp only
    split
    · exact (hs.block t _).enqueue nofun
    · have hserial : Still h₀ { h with serials := h.serials + 1 } :=
        hs.aside rfl rfl rfl (fun _ => .inl) fun _ => .inl
      exact (hserial.setTimer s (j := .wake t h.serials) nofun).block t _

/-- What a body does besides answering concerns nobody who waits. -/
theorem touch_smalls (htidy : h.Tidy) (htouch : Touch t h h') :
    Desk.Smalls h.desk h'.desk ∧ h'.Tidy := by
  have hs := Still.refl htidy
  have hboth : Still h h' → Desk.Smalls h.desk h'.desk ∧ h'.Tidy := fun hs => ⟨hs.smalls, hs.tidy⟩
  cases htouch with
  | write events past => exact ⟨.refl, htidy.told, htidy.timers, htidy.watchers, htidy.children⟩
  | answer s => exact hboth (hs.updateTask (fun _ _ => rfl) fun _ _ _ => .inl)
  | send hpost => exact hboth (hs.post rfl hpost)
  | pause p => exact hboth (hs.pause t p)

theorem touches_smalls (htidy : h.Tidy) (hs : Touches t h h') :
    Desk.Smalls h.desk h'.desk ∧ h'.Tidy := by
  refine hs.keep (P := fun g => Desk.Smalls h.desk g.desk ∧ g.Tidy) ?_ ⟨.refl, htidy⟩
  rintro g g' ⟨hsmalls, htidy⟩ htouch
  obtain ⟨hmore, hkept⟩ := touch_smalls htidy htouch
  exact ⟨hsmalls.trans hmore, hkept⟩

theorem desk_resolve (h : Host) (c : Nat) (result : Except Fault Answer) :
    (h.resolve c result).desk = h.desk.resolve c result := by
  have hreplies : h.desk.replies[c]? = h.calls[c]?.map Call.reply? := List.getElem?_map
  unfold Host.resolve Desk.resolve
  rw [hreplies]
  cases hcall : h.calls[c]? with
  | none => rfl
  | some call =>
    obtain ⟨parent, stage, run⟩ := call
    cases stage with
    | reply t answer =>
      cases answer with
      | some answer => rfl
      | none =>
        cases run with
        | waiting cancelled =>
          unfold desk
          simp only [Host.setCall, Host.enqueue, List.map_set]
          rfl
        | queued cancelled => rfl
        | done result => rfl
    | exit t => rfl
    | closing t timeout => rfl
    | window t timeout => rfl
    | forced t => rfl
    | join children left => rfl

theorem Tidy.resolve (htidy : h.Tidy) (c : Nat) (result : Except Fault Answer) :
    (h.resolve c result).Tidy := by
  have hplain : ∀ d, h.desk.Plain d → (h.resolve c result).desk.Plain d := fun d hd =>
    h.desk_resolve c result ▸ Desk.plain_resolve hd c result
  revert hplain
  unfold Host.resolve
  split
  · rename_i hcall
    intro hplain
    exact ((Still.refl (htidy.setCall _ hcall hplain nofun)).enqueue (j := .proceed c) nofun).tidy
  · exact fun _ => htidy

theorem perform_answer_of (ht : h.task? t ≠ none) (c : Nat) (result : Except Fault Answer) :
    h.perform t (.answer c result) = h.resolve c result := by
  unfold Host.perform
  split
  · exact absurd ‹_› ht
  · rfl

/-- What the body of a task wants done gives the answers among it in their order. -/
theorem gives_perform (effects : List Effect) (htidy : h.Tidy) (ht : h.task? t ≠ none) :
    Desk.Gives (answers effects) h.desk (effects.foldl (fun h e => h.perform t e) h).desk ∧
      (effects.foldl (fun h e => h.perform t e) h).Tidy := by
  induction effects generalizing h with
  | nil => exact ⟨.done _, htidy⟩
  | cons e effects ih =>
    have hthere : (h.perform t e).task? t ≠ none := by
      simp only [Host.task?, ne_eq, List.getElem?_eq_none_iff, perform_length] at ht ⊢
      exact ht
    cases he : e.answer? with
    | none =>
      obtain ⟨hsmalls, hstill⟩ := touches_smalls htidy (perform_touches h t he)
      obtain ⟨hgives, hkept⟩ := ih hstill hthere
      refine ⟨?_, hkept⟩
      rw [answers_cons, he]
      exact .smalls hsmalls hgives
    | some p =>
      obtain ⟨c, result, rfl⟩ : ∃ c result, e = .answer c result := by
        cases e with
        | answer c result => exact ⟨c, result, rfl⟩
        | _ => cases he
      have hresolve := perform_answer_of ht c result
      rw [hresolve] at hthere
      obtain ⟨hgives, hkept⟩ := ih (htidy.resolve c result) hthere
      rw [answers_cons, List.foldl_cons, hresolve]
      refine ⟨.give ?_, hkept⟩
      rw [← desk_resolve]
      exact hgives

/-- The body of a task has moved on, from a host with the same desk and the same hook calls. -/
inductive Fed (h : Host) : Host → Prop where
  | mk {g : Host} {t : Nat} {task : Task} (s : Stimulus) (ht : g.task? t = some task)
    (hdesk : g.desk = h.desk) (htidy : g.Tidy) (hpast : g.past = h.past) : Fed h (g.feed t s)

theorem Fed.since {g : Host} (hfed : Fed g h') (hdesk : g.desk = h.desk) (hpast : g.past = h.past) :
    Fed h h' := by
  cases hfed with
  | mk s ht hdesk' htidy hpast' => exact ⟨s, ht, hdesk'.trans hdesk, htidy, hpast'.trans hpast⟩

/-- One move is made at the desk, and hooks are only called by a body that moves on. -/
structure Serving (quits : Nat → Prop) (h h' : Host) : Prop where
  next : Desk.Next quits h.desk h'.desk
  tidy : h'.Tidy
  past : h'.past = h.past ∨ Fed h h'

variable {quits : Nat → Prop}

theorem Still.serving (hs : Still h h') : Serving quits h h' :=
  ⟨.smalls hs.smalls, hs.tidy, .inl hs.past⟩

/-- The body of a task moves on. -/
theorem Fed.serving (hfed : Fed h h') : Serving quits h h' := by
  obtain ⟨s, ht, hdesk, htidy, hpast⟩ := hfed
  rename_i g t task
  refine ⟨?_, ?_, .inr ⟨s, ht, hdesk, htidy, hpast⟩⟩
  all_goals
    have hmoved : (g.setTask t { task with inst := (task.inst.step s).1, answer := none }).Tidy :=
      htidy.setTask ht _ fun _ => id
    have hat := task?_setTask_self ht { task with inst := (task.inst.step s).1, answer := none }
    obtain ⟨hgives, hkept⟩ := gives_perform (t := t) (task.inst.step s).2 hmoved
      (by rw [hat]; nofun)
    unfold Host.feed
    simp only [ht]
  · rw [desk_setTask, hdesk] at hgives
    exact .feed s (hdesk ▸ inst_of_task ht) hgives
  · exact hkept

theorem serving_feed (htidy : h.Tidy) (ht : h.task? t = some task) (s : Stimulus) :
    Serving quits h (h.feed t s) := Fed.serving ⟨s, ht, rfl, htidy, rfl⟩

theorem serving_runTask (htidy : h.Tidy) (t : Nat) : Serving quits h (h.runTask t) := by
  have hs := Still.refl htidy
  unfold Host.runTask
  split
  · exact (hs.running none).serving
  · rename_i task ht
    split
    · exact (hs.endTask ht).serving
    · exact serving_feed htidy ht _
    · split
      · exact (hs.block t _).serving
      · exact serving_feed htidy ht _
    · split
      · exact serving_feed htidy ht _
      · exact (hs.block t _).serving

theorem serving_resume (htidy : h.Tidy) (t : Nat) : Serving quits h (h.resume t) := by
  have hs := Still.refl htidy
  unfold Host.resume
  split
  · rename_i task ht
    split
    · have hactive : Still h (h.activate t task) := (hs.setRun ht .active).running (some t)
      have hdesk : (h.activate t task).desk = h.desk := by
        have hset : (h.setTask t { task with run := .active }).desk = h.desk := by
          rw [setTask_eq_updateTask ht fun _ => { task with run := .active }]
          refine desk_updateTask fun other hother => ?_
          rw [Option.some.inj (hother.symm.trans ht)]
        exact hset
      simp only
      split
      · have hfed : Fed h ((h.activate t task).feed t task.inst.cancellation) :=
          ⟨_, task?_activate ht, hdesk, hactive.tidy, rfl⟩
        exact hfed.serving
      · exact hactive.serving
    · exact hs.serving
  · exact hs.serving

/-! ## The step -/

theorem serving_runJob (htidy : h.Tidy) {j : Job}
    (hj : ∀ c, j.told? = some c → h.desk.Plain c) : Serving quits h (h.runJob j) := by
  have hs := Still.refl htidy
  cases j with
  | resume t => exact serving_resume htidy t
  | exited t => exact (hs.exited t).serving
  | taskEnded c => exact (hs.release (hj c rfl)).serving
  | proceed c => exact (hs.proceed c rfl).serving
  | joined p cancelled => exact (hs.joined p cancelled).serving
  | wake t serial => exact (hs.wake t serial).serving
  | close c => exact (hs.release (hj c rfl)).serving
  | announce name attempt fault => exact (hs.publish none _).serving

theorem serving_step (htidy : h.Tidy) : Serving quits h h.step := by
  unfold Host.step
  split
  · exact serving_runTask htidy _
  · split
    · rename_i j rest hbatch
      have htold : ∀ j' ∈ rest ++ h.ready, ∀ c, j'.told? = some c → h.desk.Plain c := by
        intro j' hj'
        refine htidy.told j' ?_
        rw [hbatch]
        exact List.mem_cons_of_mem j hj'
      have hrest : ({ h with batch := rest } : Host).Tidy :=
        ⟨htold, htidy.timers, htidy.watchers, htidy.children⟩
      have hrun : Serving quits { h with batch := rest } _ :=
        serving_runJob hrest fun c hc => htidy.told j (by simp [hbatch]) c hc
      refine ⟨hrun.next, hrun.tidy, hrun.past.imp id ?_⟩
      exact fun hfed => hfed.since rfl rfl
    · rename_i hbatch
      refine Still.serving ((Still.refl htidy).aside rfl rfl rfl ?_ ?_)
      · intro j hj
        have hj : j ∈ (h.ready ++ (h.timers.filter h.isDue).map (·.job)) ++ [] := hj
        rw [List.append_nil] at hj
        rcases List.mem_append.1 hj with hready | hdue
        · exact .inl (List.mem_append_right _ hready)
        · obtain ⟨timer, htimer, rfl⟩ := List.mem_map.1 hdue
          exact .inr (htidy.timers timer (List.mem_filter.1 htimer).1)
      · exact fun timer htimer => .inl (List.mem_filter.1 htimer).1

/-! ## Calling off -/

theorem desk_giveUp (call : Call) {result : Option (Except Fault Answer)}
    (hstage : call.stage = .reply t result) :
    ((h.updateTask t fun task => { task with inst := task.inst.abandon c }).setCall c
      { call with run := .queued true }).desk = h.desk.giveUp c t result := by
  have hreply : ({ call with run := .queued true } : Call).reply? = some ⟨t, result, false⟩ := by
    unfold Call.reply?
    simp only [hstage]
  unfold desk Desk.giveUp Host.setCall Host.updateTask
  simp only [List.map_set, hreply]
  congr 1
  apply List.ext_getElem?
  intro u
  rw [List.getElem?_map, List.getElem?_modify, List.getElem?_modify, List.getElem?_map]
  cases h.tasks[u]? with
  | none => rfl
  | some task =>
    by_cases hu : t = u
    · simp [hu]
    · simp [hu]

/-- A caller gives up. -/
theorem serving_cancelPlain (htidy : h.Tidy) {call : Call} (hcall : h.calls[c]? = some call) :
    Serving (· = c) h (h.cancelPlain c call).1 := by
  have hs := Still.refl htidy
  by_cases hplain : h.desk.Plain c
  · exact (hs.cancelPlain hcall hplain).serving
  · obtain ⟨parent, stage, run⟩ := call
    cases run with
    | done result => exact hs.serving
    | queued cancelled => exact (hs.setRunOf hcall (.queued true) rfl).serving
    | waiting cancelled =>
      have hreply := reply_of_call hcall
      cases stage with
      | reply t result =>
        have hdesk : _ = h.desk.giveUp c t result :=
          desk_giveUp ⟨parent, .reply t result, .waiting cancelled⟩ rfl
        have habandoned := htidy.updateTask (t := t)
          (f := fun task => { task with inst := task.inst.abandon c }) fun _ _ _ => .inl
        refine ⟨hdesk ▸ .giveUp rfl hreply, ?_, .inl rfl⟩
        have hasks : (⟨parent, .reply t result, .waiting cancelled⟩ : Call).reply? ≠ none := nofun
        have hset := habandoned.setCall ⟨parent, .reply t result, .queued true⟩ hcall
          (fun d hd => plain_setCall hd hcall hasks) nofun
        exact ((Still.refl hset).enqueue (j := .proceed c) nofun).tidy
      | exit t => exact absurd hreply hplain
      | closing t timeout => exact absurd hreply hplain
      | window t timeout => exact absurd hreply hplain
      | forced t => exact absurd hreply hplain
      | join children left => exact absurd hreply hplain

theorem serving_cancelCall (htidy : h.Tidy) (c : Nat) :
    Serving (· = c) h (h.cancelCall c).1 := by
  unfold Host.cancelCall
  split
  · exact (Still.refl htidy).serving
  · rename_i call hcall
    split
    · rename_i children left cancelled hstage _
      generalize hfolded : List.foldl _ (h, false) children = folded
      have hfold : Still h folded.1 := by
        rw [← hfolded]
        refine List.foldlRecOn (motive := fun s : Host × Bool => Still h s.1) _ _ (.refl htidy) ?_
        rintro ⟨g, any⟩ hg d hd
        simp only
        split
        · rename_i child hchild
          have hplain := htidy.children c call hcall children left hstage d hd
          exact hg.cancelPlain hchild (plain_of_still hg hplain)
        · exact hg
      simp only
      split
      · exact hfold.serving
      · have hplain := plain_of_still hfold (plain_of_stage hcall (by simp [hstage]))
        exact (hfold.updateRun hplain _).serving
    · exact serving_cancelPlain htidy hcall

/-! ## Deeds -/

/-- Asking puts the question at the end of the mailbox, or is refused. -/
theorem serving_ask (htidy : h.Tidy) (t : Nat) (question : Question) :
    Serving quits h (h.ask t question).1 := by
  have hadded := htidy.addCall ⟨none, .reply t none, .waiting false⟩ nofun
  have hdesk := h.desk_addCall ⟨none, .reply t none, .waiting false⟩
  have hcall := h.call_addCall ⟨none, .reply t none, .waiting false⟩
  have hlength : h.desk.replies.length = h.calls.length := List.length_map ..
  unfold Host.ask
  simp only
  split
  · rename_i h' hpost
    obtain ⟨i, j, hi, hij, hdesk', hkept, hpast⟩ := desk_post hpost
    refine ⟨?_, hkept hadded, .inl hpast⟩
    rw [hdesk', hdesk]
    rw [hdesk] at hi
    have hasked : i.post (.query h.desk.replies.length question false) = .ok j := by
      rw [hlength]
      exact hij
    exact .ask hi hasked
  · rename_i fault hpost
    have hrefused : ((h.addCall ⟨none, .reply t none, .waiting false⟩).1.setCall h.calls.length
        ⟨none, .reply t none, .done (.error fault)⟩).desk =
        { h.desk with replies := h.desk.replies ++ [some ⟨t, none, false⟩] } := by
      unfold desk Host.addCall Host.setCall
      simp [Call.reply?]
    exact ⟨hrefused ▸ .smalls (.single (.refuse t)),
      hadded.setCall _ hcall (fun d hd => plain_setCall hd hcall nofun) nofun, .inl rfl⟩

end Host

/-- The calls whose callers give up with a deed. -/
def Deed.Quits : Deed → Nat → Prop
  | .giveUp c => (· = c)
  | _ => fun _ => False

namespace Host

variable {h : Host}

/-- Whatever happens to a host, one move is made at its desk. -/
theorem serving_act (htidy : h.Tidy) (d : Deed) : Serving d.Quits h (h.act d) := by
  have hs := Still.refl htidy
  cases d with
  | step => exact serving_step htidy
  | pass time =>
    have haside : Still h { h with clock := time } :=
      hs.aside rfl rfl rfl (fun _ => .inl) fun _ => .inl
    exact haside.serving
  | register registry =>
    have haside : Still h { h with registry := registry } :=
      hs.aside rfl rfl rfl (fun _ => .inl) fun _ => .inl
    exact haside.serving
  | subscribe bus =>
    have haside : Still h { h with bus := bus } :=
      hs.aside rfl rfl rfl (fun _ => .inl) fun _ => .inl
    exact haside.serving
  | start choice name payload => exact (hs.start choice name payload).serving
  | send s => exact (hs.accepting fun _ hsend => hs.send hsend).serving
  | query name kind argument =>
    show Serving _ h (h.query name kind argument).1
    unfold Host.query
    split
    · exact hs.serving
    · split
      · exact hs.serving
      · exact serving_ask htidy _ _
  | wait name => exact (hs.wait name).serving
  | stop name timeout => exact (hs.stop name timeout).serving
  | shutdown timeout => exact (hs.shutdown timeout).serving
  | giveUp c => exact serving_cancelCall htidy c
  | create choice name payload outlet => exact (hs.create choice name payload outlet).serving
  | startTask t => exact (hs.startTask t).serving
  | tell t event payload => exact (hs.accepting fun _ hpost => hs.post rfl hpost).serving
  | ask t question => exact serving_ask htidy t question
  | requestStop t => exact (hs.accepting fun _ hpost => hs.post rfl hpost).serving
  | cancel t => exact (hs.cancelTask t).serving

theorem tidy_opened (settings : Settings) (registry : Registry) (bus : Bus Observer) :
    (opened settings registry bus).Tidy := by
  refine ⟨?_, ?_, ?_, ?_⟩ <;> simp [opened, task?]

/-- Who waits at a host stands in one mailbox, and what is let go asks nobody. -/
structure Served (h : Host) : Prop where
  tidy : h.Tidy
  answerable : h.desk.Answerable 0 []

theorem Served.act (hserved : h.Served) (d : Deed) : (h.act d).Served :=
  have hact := serving_act hserved.tidy d
  ⟨hact.tidy, hserved.answerable.next hact.next⟩

theorem served_opened (settings : Settings) (registry : Registry) (bus : Bus Observer) :
    (opened settings registry bus).Served :=
  ⟨tidy_opened settings registry bus, Desk.answerable_empty⟩

theorem Served.after (hserved : h.Served) (deeds : List Deed) : (h.after deeds).Served :=
  after_keeps (P := Served) (fun _ d hserved => hserved.act d) hserved deeds

end Host
end Turnstile
