-- What is told of one name: the calls of hooks and the notifications that are about it. Only
-- the bodies of the tasks with that name add to it.
import Turnstile.Proofs.Instance.Chronicle
import Turnstile.Proofs.Supervisor.Instances

namespace Turnstile

/-! ## What is told of a name -/

section
open Classical

/-- The call of a hook that an event tells of, if it is about a name. -/
noncomputable def Event.callOf? (name : Value) : Event → Option HookCall
  | .hook n _ call => if n = name then some call else none
  | _ => none

/-- The notification that an event tells of, if an instance of a name published it. -/
noncomputable def Event.noticeOf? (name : Value) : Event → Option Notification
  | .published _ n => if n.isOwn = true ∧ n.name = name then some n else none
  | _ => none

/-- The calls of hooks that were made for a name. -/
noncomputable def ownPast (name : Value) (past : HookPast) : HookPast :=
  past.filter fun call => call.1 = name

end

theorem Event.tells_of_callOf? {name : Value} {e : Event} (he : e.callOf? name ≠ none) :
    e.tells = true := by
  cases e with
  | hook n origin call => rfl
  | published outlet n => rfl
  | logged scope level text => exact absurd rfl he
  | line text => exact absurd rfl he

theorem Event.tells_of_noticeOf? {name : Value} {e : Event} (he : e.noticeOf? name ≠ none) :
    e.tells = true := by
  cases e with
  | hook n origin call => rfl
  | published outlet n => rfl
  | logged scope level text => exact absurd rfl he
  | line text => exact absurd rfl he

/-- What is told of a name: the calls of its hooks as the hooks know them, the last one first,
the same calls in their order, and the notifications. -/
structure Tale where
  past : HookPast
  calls : List HookCall
  notices : List Notification

namespace Host

variable {h h' : Host} {t u : Nat} {task : Task} {name : Value}

/-- All that a host tells of a name. -/
noncomputable def tale (h : Host) (name : Value) : Tale where
  past := ownPast name h.past
  calls := h.events.filterMap (Event.callOf? name)
  notices := h.events.filterMap (Event.noticeOf? name)

/-- What a list of events tells is told by those among them that tell anything. -/
theorem filterMap_filter_tells {α : Type} {f : Event → Option α}
    (hf : ∀ e, f e ≠ none → e.tells = true) (events : List Event) :
    (events.filter Event.tells).filterMap f = events.filterMap f := by
  rw [List.filterMap_filter]
  apply List.filterMap_congr
  intro e _
  by_cases he : e.tells = true
  · rw [if_pos he]
  · rw [if_neg he]
    by_contra hne
    exact he (hf e (Ne.symm hne))

theorem tale_of_face (hface : h'.face = h.face) (name : Value) : h'.tale name = h.tale name := by
  have hpast : h'.past = h.past := congrArg Face.past hface
  have hevents : h'.events.filter Event.tells = h.events.filter Event.tells :=
    congrArg Face.told hface
  have hcalls : h'.events.filterMap (Event.callOf? name) =
      h.events.filterMap (Event.callOf? name) := by
    rw [← filterMap_filter_tells (fun _ => Event.tells_of_callOf?) h'.events, hevents,
      filterMap_filter_tells fun _ => Event.tells_of_callOf?]
  have hnotices : h'.events.filterMap (Event.noticeOf? name) =
      h.events.filterMap (Event.noticeOf? name) := by
    rw [← filterMap_filter_tells (fun _ => Event.tells_of_noticeOf?) h'.events, hevents,
      filterMap_filter_tells fun _ => Event.tells_of_noticeOf?]
  unfold tale
  rw [hpast, hcalls, hnotices]

theorem tale_noteCall (h : Host) (name : Value) (origin : Origin) (call : HookCall) :
    (h.noteCall name origin call).tale name =
      ⟨(name, call) :: (h.tale name).past, (h.tale name).calls ++ [call],
        (h.tale name).notices⟩ := by
  simp [tale, noteCall, see, ownPast, Event.callOf?, Event.noticeOf?]

theorem tale_noteCall_ne {other : Value} (hne : other ≠ name) (origin : Origin)
    (call : HookCall) : (h.noteCall other origin call).tale name = h.tale name := by
  simp [tale, noteCall, see, ownPast, Event.callOf?, Event.noticeOf?, hne]

theorem tale_published (h : Host) (outlet : Outlet) {n : Notification} (hown : n.isOwn = true) :
    (h.see (.published outlet n)).tale n.name =
      ⟨(h.tale n.name).past, (h.tale n.name).calls, (h.tale n.name).notices ++ [n]⟩ := by
  simp [tale, see, Event.callOf?, Event.noticeOf?, hown]

theorem tale_published_ne (h : Host) (outlet : Outlet) {n : Notification}
    (hne : n.isOwn = true → n.name ≠ name) :
    (h.see (.published outlet n)).tale name = h.tale name := by
  simp only [tale, see, List.filterMap_append, List.filterMap_cons, List.filterMap_nil,
    Event.callOf?, Event.noticeOf?, List.append_nil]
  rw [if_neg]
  · simp
  · rintro ⟨hown, hname⟩
    exact hne hown hname

theorem tale_publish (h : Host) (scope : Option Value) (n : Notification) (name : Value) :
    (h.publish scope n).1.tale name = (h.see (.published .shared n)).tale name :=
  tale_of_face (h.face_publish scope n) name

/-- As long as no body moves on, nothing more is told of any name. -/
theorem Nudge.tale (hnudge : Nudge h h') (name : Value) : h'.tale name = h.tale name := by
  cases hnudge with
  | aside hface => exact tale_of_face hface name
  | _ => rfl

theorem Shift.tale (hshift : Shift h h') (name : Value) : h'.tale name = h.tale name := by
  cases hshift with
  | nudge hnudge => exact hnudge.tale name
  | announce other attempt fault =>
    rw [tale_publish]
    exact tale_published_ne h .shared nofun
  | _ => rfl

theorem tale_react {α : Type} (h : Host) (t : Nat) (r : Reaction α)
    (stimulus : Except Fault α → Stimulus) (name : Value) :
    (h.react t r stimulus).tale name = h.tale name :=
  react_keeps (P := fun h' => h'.tale name = h.tale name)
    (fun _ _ hkept hnudge => (hnudge.tale name).trans hkept) r stimulus (fun _ _ hkept => hkept)
    rfl

/-- The bodies of other names tell nothing of a name. -/
theorem tale_perform_ne (ht : h.task? t = some task) (hname : task.inst.name ≠ name)
    {e : Effect} (he : ∀ n, e = .publish n → n.name = task.inst.name) :
    (h.perform t e).tale name = h.tale name := by
  apply perform_keeps (P := fun h' => h'.tale name = h.tale name)
    (fun _ _ hkept hnudge => (hnudge.tale name).trans hkept) (fun _ _ _ hkept => hkept) ht e
  · exact tale_noteCall_ne hname
  · intro outlet n hn
    exact tale_published_ne h outlet fun _ => he n hn ▸ hname
  · rfl

/-- What holds once the body of a task has moved on, and is kept whenever an effect of that task
is carried out, holds in the end. The task keeps its name throughout. -/
theorem feed_induction {P : Host → Prop} (ht : h.task? t = some task) (s : Stimulus)
    (hmoved : P (h.setTask t { task with inst := (task.inst.step s).1, answer := none }))
    (hperform : ∀ (h' : Host) (task' : Task) (e : Effect), h'.task? t = some task' →
      task'.inst.name = task.inst.name → (∀ n, e = .publish n → n.name = task.inst.name) →
      P h' → P (h'.perform t e)) : P (h.feed t s) := by
  have hall : (∃ task', (h.feed t s).task? t = some task' ∧
      task'.inst.name = task.inst.name) ∧ P (h.feed t s) := by
    unfold feed
    simp only [ht]
    refine List.foldlRecOn (motive := fun h' : Host => (∃ task', h'.task? t = some task' ∧
      task'.inst.name = task.inst.name) ∧ P h') _ _ ⟨⟨_, task?_setTask_self ht _, ?_⟩, hmoved⟩ ?_
    · exact (task.inst.step_becomes s).name
    · rintro h' ⟨⟨task', ht', hname⟩, hkept⟩ e he
      obtain ⟨task'', moves, ht'', -, hinst⟩ := (grows_perform h' t e).old t task' ht'
      refine ⟨⟨task'', ht'', ?_⟩, hperform h' task' e ht' hname ?_ hkept⟩
      · rw [hinst, Instance.after_name, hname]
      · rintro n rfl
        exact (Instance.publish_step he).2
  exact hall.2

theorem tale_feed_ne (ht : h.task? t = some task) (hname : task.inst.name ≠ name)
    (s : Stimulus) : (h.feed t s).tale name = h.tale name := by
  apply feed_induction (P := fun h' => h'.tale name = h.tale name) ht s rfl
  intro h' task' e ht' hsame he hkept
  rw [← hsame] at hname he
  exact (tale_perform_ne ht' hname he).trans hkept

end Host
end Turnstile
