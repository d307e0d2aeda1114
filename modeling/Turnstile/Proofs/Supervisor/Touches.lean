-- Whatever the body of a task wants done comes down to a few touches, each of which says exactly
-- what becomes of the host: lines are written, a request is sent, the body is told its answer, the
-- task waits; or a caller gets its answer. What none of these breaks, no body breaks.
import Mathlib.Logic.Relation
import Turnstile.Proofs.Instance.Queries
import Turnstile.Supervisor.Step

namespace Turnstile

namespace Host

variable {h h' : Host} {t u c : Nat} {task : Task}

/-- The small things that a body may do to its host. -/
inductive Touch (t : Nat) (h : Host) : Host → Prop where
  | write (events : List Event) (past : HookPast) :
    Touch t h { h with events := events, past := past }
  | answer (s : Stimulus) : Touch t h (h.setAnswer t s)
  | send {u : Nat} {event payload : Value} {h' : Host}
    (hpost : h.post u (.transition event payload) = .ok h') : Touch t h h'
  | pause (p : Pause) : Touch t h (h.pause t p)

/-- The touches that lead from one host to another. -/
abbrev Touches (t : Nat) := Relation.ReflTransGen (Touch t)

/-- What every touch keeps, all touches keep. -/
theorem Touches.keep {P : Host → Prop} (hs : Touches t h h')
    (hkeep : ∀ g g', P g → Touch t g g' → P g') (hkept : P h) : P h' := by
  induction hs with
  | refl => exact hkept
  | tail _ htouch ih => exact hkeep _ _ ih htouch

/-! ## Lines and notifications -/

theorem lines_eq (h : Host) (texts : List String) :
    ∃ events, texts.foldl (fun h text => h.see (.line text)) h = { h with events := events } := by
  induction texts generalizing h with
  | nil => exact ⟨h.events, rfl⟩
  | cons text texts ih =>
    obtain ⟨events, hevents⟩ := ih (h.see (.line text))
    exact ⟨events, hevents⟩

theorem deliver_eq (h : Host) (scope : Option Value) (n : Notification) (o : Observer) :
    ∃ events, (h.deliver scope n o).1 = { h with events := events } := by
  have hcontain : ∀ (g : Host) (fault : Fault) (text : String), ∃ events,
      (if fault.isCancellation then (g, some fault)
        else (g.see (.logged scope .error text), none)).1 = { g with events := events } := by
    intro g fault text
    split
    · exact ⟨g.events, rfl⟩
    · exact ⟨_, rfl⟩
  unfold deliver
  cases o.accepts n with
  | error fault => exact hcontain h fault _
  | ok accepted =>
    cases accepted with
    | false => exact ⟨h.events, rfl⟩
    | true =>
      obtain ⟨events, hlines⟩ := h.lines_eq (o.lines n)
      simp only [hlines]
      cases o.result n with
      | ok _ => exact ⟨events, rfl⟩
      | error fault =>
        obtain ⟨events', hevents⟩ := hcontain { h with events := events } fault _
        exact ⟨events', hevents⟩

/-- A notification is seen by its subscribers, and nothing else happens. -/
theorem publish_eq (h : Host) (scope : Option Value) (n : Notification) :
    ∃ events, (h.publish scope n).1 = { h with events := events } := by
  unfold publish
  generalize hdelivered : List.foldl _ _ (h.bus.inOrder n.topic) = delivered
  have hkept : ∃ events, delivered.1 = { h with events := events } := by
    rw [← hdelivered]
    refine List.foldlRecOn (motive := fun s : Host × Option Fault =>
      ∃ events, s.1 = { h with events := events }) _ _ ⟨_, rfl⟩ ?_
    rintro ⟨h', stop⟩ ⟨events, heq⟩ s _
    cases stop with
    | some fault => exact ⟨events, heq⟩
    | none =>
      obtain ⟨events', hevents⟩ := h'.deliver_eq scope n s.handler
      refine ⟨events', ?_⟩
      show (h'.deliver scope n s.handler).1 = _
      rw [hevents]
      simp only at heq
      rw [heq]
  obtain ⟨h', stop⟩ := delivered
  cases stop <;> exact hkept

/-! ## Hooks -/

theorem sendAll_touches (h : Host) (sends : List Send) : Touches t h (h.sendAll sends).1 := by
  induction sends generalizing h with
  | nil => exact .refl
  | cons s sends ih =>
    unfold sendAll
    cases hsend : h.send s with
    | error fault => exact .refl
    | ok h' =>
      refine .head ?_ (ih h')
      unfold send at hsend
      cases hlookup : h.lookup s.name with
      | error fault => simp [hlookup, bind, Except.bind] at hsend
      | ok u =>
        simp only [hlookup, bind, Except.bind] at hsend
        exact .send hsend

theorem react_touches {α : Type} (h : Host) (r : Reaction α)
    (stimulus : Except Fault α → Stimulus) : Touches t h (h.react t r stimulus) := by
  obtain ⟨events, hlines⟩ := h.lines_eq r.lines
  have hwritten : Touches t h { h with events := events } := .single (.write events h.past)
  have hsent := hwritten.trans (sendAll_touches (t := t) { h with events := events } r.sends)
  unfold react
  simp only [hlines]
  revert hsent
  generalize ({ h with events := events } : Host).sendAll r.sends = sent
  obtain ⟨h', fault⟩ := sent
  intro hsent
  cases fault with
  | some fault => exact hsent.tail (.answer _)
  | none => exact (hsent.tail (.answer _)).tail (.pause _)

/-- All that a body wants done is done by touches, but for the answers that it gives. -/
theorem perform_touches (h : Host) (t : Nat) {e : Effect} (hanswer : e.answer? = none) :
    Touches t h (h.perform t e) := by
  unfold perform
  split
  · exact .refl
  · rename_i task ht
    have hnoted : ∀ origin call, Touches t h (h.noteCall task.inst.name origin call) :=
      fun origin call => .single (.write _ _)
    cases e with
    | log level text => exact .single (.write _ h.past)
    | askTransition call => exact (hnoted _ _).trans (react_touches _ _ _)
    | askFailure call => exact (hnoted _ _).trans (react_touches _ _ _)
    | askTerminate runState => exact (hnoted _ _).trans (react_touches _ _ _)
    | answer c result => cases hanswer
    | publish n =>
      simp only
      split
      · obtain ⟨events, hevents⟩ := h.publish_eq (some task.inst.name) n
        have hseen : Touches t h (h.publish (some task.inst.name) n).1 := by
          rw [hevents]
          exact .single (.write events h.past)
        exact hseen.tail (.answer _)
      · have hseen : Touches t h (h.see (.published .own n)) := .single (.write _ h.past)
        exact hseen.tail (.answer _)
      · exact .single (.answer _)

theorem perform_answer (h : Host) (t c : Nat) (result : Except Fault Answer) :
    h.perform t (.answer c result) = h ∨ h.perform t (.answer c result) = h.resolve c result := by
  unfold perform
  split
  · exact .inl rfl
  · exact .inr rfl

/-- What is kept when the body of a task moves on, by all touches and by answering a call, is kept
by feeding it. -/
theorem feed_keeps {P : Host → Prop} (ht : h.task? t = some task) (s : Stimulus)
    (hkeep : ∀ g g', P g → Touch t g g' → P g')
    (hanswer : ∀ g c result, P g → P (g.resolve c result))
    (hmoved : P (h.setTask t { task with inst := (task.inst.step s).1, answer := none })) :
    P (h.feed t s) := by
  unfold feed
  simp only [ht]
  refine List.foldlRecOn (motive := P) _ _ hmoved ?_
  intro g hkept e _
  cases he : e.answer? with
  | none => exact (perform_touches g t he).keep hkeep hkept
  | some p =>
    obtain ⟨c, result, rfl⟩ : ∃ c result, e = .answer c result := by
      cases e with
      | answer c result => exact ⟨c, result, rfl⟩
      | _ => cases he
    rcases g.perform_answer t c result with heq | heq
    · rw [heq]
      exact hkept
    · rw [heq]
      exact hanswer g c result hkept

end Host
end Turnstile
