-- Hooks that only compute, and what a live instance with such hooks makes of one request when
-- nothing else is asked of it: in at most four steps it is done with the request as the interpreter
-- is.
import Turnstile.Proofs.Instance.Awaits
import Turnstile.Proofs.Instance.Rest
import Turnstile.Proofs.Supervisor.Courses

namespace Turnstile

open Serial

/-- A reaction that does not wait, and raises only what is contained. -/
structure Reaction.IsPrompt {α : Type} (r : Reaction α) : Prop where
  pause : r.pause = .none
  ordinary : ∀ fault, r.result = .error fault → fault.Ordinary

/-- A reaction that only computes: it sends nothing either. -/
structure Reaction.IsPlain {α : Type} (r : Reaction α) : Prop extends r.IsPrompt where
  sends : r.sends = []

/-- Hooks all reactions of which are of one kind. -/
structure BoundHooks.All (hooks : BoundHooks) (kind : ∀ {α : Type}, Reaction α → Prop) : Prop where
  onTransition : ∀ past call, kind (hooks.onTransition.react past call)
  onFailure : ∀ past call, kind (hooks.onFailure.react past call)
  onTerminate : ∀ past runState, kind (hooks.onTerminate.react past runState)

/-- Hooks that only compute. -/
abbrev BoundHooks.Plain (hooks : BoundHooks) : Prop := hooks.All Reaction.IsPlain

/-- The hooks of all machines that are known by name only compute. -/
def Registry.Plain (registry : Registry) : Prop :=
  ∀ type machine, registry.get type = .ok machine → machine.hooks.Plain

namespace Live

variable {l l' l'' : Live} {m n : Nat}

/-! ## Steps -/

/-- A live instance that is left alone takes some steps, none of them at rest. -/
inductive Passes : Live → Nat → Live → Prop where
  | refl (l : Live) : Passes l 0 l
  | step {l l' : Live} {n : Nat} (hbusy : ¬l.AtRest) (hrest : Passes l.proceed n l') :
    Passes l (n + 1) l'

theorem Passes.trans (h : Passes l m l') (h' : Passes l' n l'') : Passes l (m + n) l'' := by
  induction h with
  | refl l => rwa [Nat.zero_add]
  | step hbusy _ ih =>
    rw [Nat.add_right_comm]
    exact .step hbusy (ih h')

theorem Passes.one (hbusy : ¬l.AtRest) : Passes l 1 l.proceed := .step hbusy (.refl _)

/-- An instance has done with a request, which came to a turn: it is at its mailbox again, or has
ended in peace. -/
structure DoneWith (l l' : Live) (turn : Turn) : Prop where
  machine : l'.inst.machine = l.inst.machine
  name : l'.inst.name = l.inst.name
  mailbox : l'.inst.mailbox = []
  outcome : (turn.stop = none ∧ l'.inst.phase = .idle ∧ l'.inst.alive = true ∧
      l'.inst.runState = turn.runState ∧ l'.past = turn.past) ∨
    turn.stop ≠ none ∧ l'.inst.phase = .finished .returned ∧
      l'.past = (l.inst.name, .terminate turn.runState) :: turn.past

/-! ## The ways to rest -/

theorem busy_of_phase {phase : Phase} (hphase : l.inst.phase = phase) (hidle : phase ≠ .idle)
    (hfinished : ∀ ending, phase ≠ .finished ending) : ¬l.AtRest := by
  rintro (⟨h, -⟩ | ⟨ending, h⟩)
  · exact hidle (hphase.symm.trans h)
  · exact hfinished ending (hphase.symm.trans h)

theorem passes_publishing (hphase : l.inst.phase = .publishing)
    (hawaited : l.awaited = .published (.ok ())) :
    l.Passes 1 { l with inst := { l.inst with phase := .idle } } := by
  rw [← proceed_publishing hphase hawaited]
  exact .one (busy_of_phase hphase (by simp) (by simp))

theorem passes_announcing {ending : Ending} (hphase : l.inst.phase = .announcing ending)
    (hawaited : l.awaited = .published (.ok ())) :
    l.Passes 1 { l with inst := { l.inst with phase := .finished ending } } := by
  rw [← proceed_announcing hphase hawaited]
  exact .one (busy_of_phase hphase (by simp) (by simp))

/-- The way out, from the answer of the terminate hook. -/
theorem passes_terminating {ending : Ending} {result : Except Fault Unit}
    (hphase : l.inst.phase = .terminating ending) (hawaited : l.awaited = .handled result)
    (hordinary : ∀ fault, result = .error fault → fault.Ordinary) :
    ∃ l', l.Passes 2 l' ∧ l'.inst = { l.inst with phase := .finished ending } ∧
      l'.past = l.past := by
  have hstep : ∃ seen, l.proceed = { l with
      inst := { l.inst with phase := .announcing ending }
      awaited := .published (.ok ())
      seen := seen } := by
    rw [proceed_terminating hphase hawaited]
    unfold Instance.terminate
    cases result with
    | ok _ => exact ⟨_, rfl⟩
    | error fault =>
      simp only [(hordinary fault rfl).uncancelled, Bool.false_eq_true, if_false]
      exact ⟨_, rfl⟩
  obtain ⟨seen, hseen⟩ := hstep
  refine ⟨_, (Passes.one (busy_of_phase hphase (by simp) (by simp))).trans
    (passes_announcing (l := l.proceed) (by rw [hseen]) (by rw [hseen])), ?_, ?_⟩ <;> rw [hseen]

/-- The way back to the mailbox, from the answer of the failure hook. -/
theorem passes_reporting {event payload : Value} {rejection : Rejection}
    {result : Except Fault Unit} (hphase : l.inst.phase = .reporting event payload rejection)
    (hawaited : l.awaited = .handled result)
    (hordinary : ∀ fault, result = .error fault → fault.Ordinary) :
    ∃ l', l.Passes 2 l' ∧ l'.inst = { l.inst with phase := .idle } ∧ l'.past = l.past := by
  have hstep : ∃ seen, l.proceed = { l with
      inst := { l.inst with phase := .publishing }
      awaited := .published (.ok ())
      seen := seen } := by
    rw [proceed_reporting hphase hawaited]
    unfold Instance.report
    cases result with
    | ok _ => exact ⟨_, rfl⟩
    | error fault =>
      simp only [Instance.escapes_ordinary (hordinary fault rfl), Bool.false_eq_true, if_false]
      exact ⟨_, rfl⟩
  obtain ⟨seen, hseen⟩ := hstep
  refine ⟨_, (Passes.one (busy_of_phase hphase (by simp) (by simp))).trans
    (passes_publishing (l := l.proceed) (by rw [hseen]) (by rw [hseen])), ?_, ?_⟩ <;> rw [hseen]

/-! ## The answer of the transition hook -/

section
variable {event payload : Value} {result : Except Fault Outcome}

theorem refuse_ordinary (name : Value) (rs : RunState) (past : HookPast) (event : Value)
    (rejection : Rejection) {result : Except Fault Unit}
    (hordinary : ∀ fault, result = .error fault → fault.Ordinary) :
    refuse name rs past event rejection result =
      ⟨[.published (.rejected name event rs.current rejection)], rs, past, none⟩ := by
  unfold refuse
  cases result with
  | ok _ => rfl
  | error fault => simp [(hordinary fault rfl).unexhausted]

/-- A refused request: the failure hook is called, and the instance is at its mailbox again. -/
theorem passes_refused (hphase : l.inst.phase = .deciding event payload)
    (hawaited : l.awaited = .decided result) (hplain : l.inst.machine.hooks.Plain)
    (hmailbox : l.inst.mailbox = []) (halive : l.inst.alive = true) {rejection : Rejection}
    (hrefusal : Refusal l.inst.machine.table l.inst.runState.current event result rejection) :
    ∃ l', l.Passes 3 l' ∧ l.DoneWith l' (carryOut l.inst.machine l.inst.name l.inst.runState l.past
      event payload (.refuses rejection)) := by
  have hstep : ∃ seen, l.proceed = { l with
      inst := { l.inst with phase := .reporting event payload rejection }
      awaited := .handled
        (l.inst.machine.hooks.onFailure.react l.past ⟨event, payload, l.inst.runState⟩).result
      past := (l.inst.name, .failure ⟨event, payload, l.inst.runState⟩) :: l.past
      seen := seen } := by
    rw [proceed_deciding hphase hawaited]
    cases hrefusal with
    | raised hordinary =>
      simp only [Instance.decide, Instance.escapes_ordinary hordinary]
      exact ⟨_, rfl⟩
    | rejected => exact ⟨_, rfl⟩
    | failed => exact ⟨_, rfl⟩
    | other => exact ⟨_, rfl⟩
    | @undeclared target p hallowed =>
      have hreject := l.inst.settleOutcome_undeclared event payload p hallowed
      simp only [Instance.decide, hreject]
      exact ⟨_, rfl⟩
  obtain ⟨seen, hseen⟩ := hstep
  have hordinary := (hplain.onFailure l.past ⟨event, payload, l.inst.runState⟩).ordinary
  obtain ⟨l', hpasses, hinst, hpast⟩ := passes_reporting (l := l.proceed) (by rw [hseen])
    (by rw [hseen]) hordinary
  refine ⟨l', (Passes.one (busy_of_phase hphase (by simp) (by simp))).trans hpasses, ?_⟩
  simp only [carryOut, refuse_ordinary _ _ _ _ _ hordinary, Turn.after]
  rw [hseen] at hinst hpast
  refine ⟨?_, ?_, ?_, .inl ⟨rfl, ?_, ?_, ?_, hpast⟩⟩ <;> rw [hinst]
  · exact hmailbox
  · exact halive

/-- A transition that is carried out. -/
theorem passes_committed (hphase : l.inst.phase = .deciding event payload) {s : String} {p : Value}
    (hawaited : l.awaited = .decided (.ok (.success (.text s) p)))
    (hmailbox : l.inst.mailbox = []) (halive : l.inst.alive = true)
    (hallowed : l.inst.machine.table.allowed l.inst.runState.current (.state s) = true) :
    ∃ l', l.Passes 2 l' ∧ l.DoneWith l' (carryOut l.inst.machine l.inst.name l.inst.runState l.past
      event payload (.moves s p)) := by
  have hstep : ∃ seen, l.proceed = { l with
      inst := { l.inst with runState := l.inst.runState.move s p, phase := .publishing }
      awaited := .published (.ok ())
      seen := seen } := by
    rw [proceed_deciding hphase hawaited]
    simp only [Instance.decide, Instance.settleOutcome, Target.ofValue?, hallowed, if_true]
    exact ⟨_, rfl⟩
  obtain ⟨seen, hseen⟩ := hstep
  refine ⟨_, (Passes.one (busy_of_phase hphase (by simp) (by simp))).trans
    (passes_publishing (l := l.proceed) (by rw [hseen]) (by rw [hseen])), ?_⟩
  rw [hseen]
  exact ⟨rfl, rfl, hmailbox, .inl ⟨rfl, rfl, halive, rfl, rfl⟩⟩

/-- Whoever leaves the loop in peace calls the terminate hook and ends. -/
theorem passes_out (inst : Instance) (hbusy : ¬l.AtRest) (hplain : inst.machine.hooks.Plain)
    (hphase : inst.phase = .terminating .returned)
    (hproceed : ∃ seen, l.proceed = { l with
      inst := inst
      awaited := .handled (inst.machine.hooks.onTerminate.react l.past inst.runState).result
      past := (inst.name, .terminate inst.runState) :: l.past
      seen := seen }) :
    ∃ l', l.Passes 3 l' ∧ l'.inst = { inst with phase := .finished .returned } ∧
      l'.past = (inst.name, .terminate inst.runState) :: l.past := by
  obtain ⟨seen, hseen⟩ := hproceed
  have hordinary := (hplain.onTerminate l.past inst.runState).ordinary
  obtain ⟨l', hpasses, hinst, hpast⟩ := passes_terminating (l := l.proceed)
    (by rw [hseen]; exact hphase) (by rw [hseen]) hordinary
  rw [hseen] at hinst hpast
  exact ⟨l', (Passes.one hbusy).trans hpasses, hinst, hpast⟩

/-- A transition that leads out of the diagram. -/
theorem passes_terminal (hphase : l.inst.phase = .deciding event payload) {p : Value}
    (hawaited : l.awaited = .decided (.ok (.success .terminal p)))
    (hplain : l.inst.machine.hooks.Plain) (hmailbox : l.inst.mailbox = [])
    (halive : l.inst.alive = true)
    (hallowed : l.inst.machine.table.allowed l.inst.runState.current .terminal = true) :
    ∃ l', l.Passes 3 l' ∧ l.DoneWith l' (carryOut l.inst.machine l.inst.name l.inst.runState l.past
      event payload .leaves) := by
  obtain ⟨l', hpasses, hinst, hpast⟩ := passes_out (l := l)
    { l.inst with
      alive := false, stopReason := some .terminal, mailbox := [], phase := .terminating .returned }
    (busy_of_phase hphase (by simp) (by simp)) hplain rfl (by
      rw [proceed_deciding hphase hawaited]
      simp only [Instance.decide, Instance.settleOutcome, Target.ofValue?, hallowed, if_true,
        Instance.finishRun, Instance.markStopped, halive, Instance.leave, hmailbox]
      exact ⟨_, rfl⟩)
  refine ⟨l', hpasses, ?_, ?_, ?_, .inr ⟨Option.some_ne_none _, ?_, hpast⟩⟩ <;> rw [hinst]

/-- What the transition hook answers is carried out. -/
theorem passes_deciding (hphase : l.inst.phase = .deciding event payload)
    (hawaited : l.awaited = .decided result)
    (hordinary : ∀ fault, result = .error fault → fault.Ordinary)
    (hplain : l.inst.machine.hooks.Plain) (hmailbox : l.inst.mailbox = [])
    (halive : l.inst.alive = true) :
    ∃ n ≤ 3, ∃ l', l.Passes n l' ∧ l.DoneWith l' (carryOut l.inst.machine l.inst.name
      l.inst.runState l.past event payload
      (ruling l.inst.machine.table l.inst.runState.current event result)) := by
  rcases refusal_or l.inst.machine.table l.inst.runState.current event
      (fun fault hfault => (hordinary fault hfault).uncancelled) with
    ⟨s, p, rfl, hallowed⟩ | ⟨p, rfl, hallowed⟩ | ⟨rejection, hrefusal⟩ | ⟨fault, rfl, hexhausted⟩
  · have hruling : ruling l.inst.machine.table l.inst.runState.current event
        (.ok (.success (.text s) p)) = .moves s p := by
      simp [ruling, Table.allowedValue, Target.ofValue?, hallowed]
    obtain ⟨l', hpasses, hdone⟩ :=
      passes_committed hphase hawaited hmailbox halive hallowed
    exact ⟨2, by omega, l', hpasses, hruling ▸ hdone⟩
  · have hruling : ruling l.inst.machine.table l.inst.runState.current event
        (.ok (.success .terminal p)) = .leaves := by
      simp [ruling, Table.allowedValue, Target.ofValue?, hallowed]
    obtain ⟨l', hpasses, hdone⟩ := passes_terminal hphase hawaited hplain hmailbox halive hallowed
    exact ⟨3, le_refl 3, l', hpasses, hruling ▸ hdone⟩
  · have hruling : ruling l.inst.machine.table l.inst.runState.current event result =
        .refuses rejection := by
      cases hrefusal with
      | raised h => simp [ruling, h.unexhausted]
      | rejected => rfl
      | failed => rfl
      | other => rfl
      | undeclared hallowed => simp [ruling, hallowed]
    obtain ⟨l', hpasses, hdone⟩ := passes_refused hphase hawaited hplain hmailbox halive hrefusal
    exact ⟨3, le_refl 3, l', hpasses, hruling ▸ hdone⟩
  · cases (hordinary fault rfl).unexhausted.symm.trans hexhausted

end

/-! ## One request -/

/-- An instance with one request for a transition in its mailbox is done with it in at most four
steps. -/
theorem passes_transition (hphase : l.inst.phase = .idle) {event payload : Value}
    (hmailbox : l.inst.mailbox = [.transition event payload]) (halive : l.inst.alive = true)
    (hplain : l.inst.machine.hooks.Plain) :
    ∃ n ≤ 4, ∃ l', l.Passes n l' ∧ l.DoneWith l' (serve l.inst.machine l.inst.name l.inst.runState
      l.past (.transition event payload)) := by
  have hbusy : ¬l.AtRest := by
    rintro (⟨-, hempty⟩ | ⟨ending, hfinished⟩)
    · cases hmailbox.symm.trans hempty
    · cases hphase.symm.trans hfinished
  have hstep : ∃ seen, l.proceed = { l with
      inst := { l.inst with mailbox := [], phase := .deciding event payload }
      awaited := .decided (l.inst.machine.hooks.onTransition.react l.past
        ⟨l.inst.runState.current, event, payload, l.inst.runState.payload⟩).result
      past := (l.inst.name, .transition
        ⟨l.inst.runState.current, event, payload, l.inst.runState.payload⟩) :: l.past
      seen := seen } := by
    rw [proceed_receiving hphase hmailbox]
    exact ⟨_, rfl⟩
  obtain ⟨seen, hseen⟩ := hstep
  have hphase' : l.proceed.inst.phase = .deciding event payload := by rw [hseen]
  obtain ⟨n, hn, l', hpasses, hdone⟩ := passes_deciding hphase' (by rw [hseen])
    (hplain.onTransition _ _).ordinary (by rw [hseen]; exact hplain) (by rw [hseen])
    (by rw [hseen]; exact halive)
  rw [hseen] at hdone
  refine ⟨n + 1, by omega, l', .step hbusy hpasses, ?_⟩
  exact ⟨hdone.machine, hdone.name, hdone.mailbox, hdone.outcome⟩

/-- An instance with a stop in its mailbox ends in three steps. -/
theorem passes_stop (hphase : l.inst.phase = .idle) (hmailbox : l.inst.mailbox = [.stop])
    (halive : l.inst.alive = true) (hplain : l.inst.machine.hooks.Plain) :
    ∃ l', l.Passes 3 l' ∧ l.DoneWith l' (serve l.inst.machine l.inst.name l.inst.runState l.past
      .stop) := by
  have hbusy : ¬l.AtRest := by
    rintro (⟨-, hempty⟩ | ⟨ending, hfinished⟩)
    · cases hmailbox.symm.trans hempty
    · cases hphase.symm.trans hfinished
  obtain ⟨l', hpasses, hinst, hpast⟩ := passes_out (l := l)
    { l.inst with
      alive := false, stopReason := some .stop, mailbox := [], phase := .terminating .returned }
    hbusy hplain rfl (by
      rw [proceed_receiving hphase hmailbox]
      simp only [Instance.handle, Instance.markStopped, halive, if_true, Instance.leave]
      exact ⟨_, rfl⟩)
  refine ⟨l', hpasses, ?_, ?_, ?_, .inr ⟨Option.some_ne_none _, ?_, hpast⟩⟩ <;> rw [hinst]

/-- An instance that has just come is at its mailbox in two steps. -/
theorem passes_begin (hphase : l.inst.phase = .fresh) :
    ∃ l', l.Passes 2 l' ∧ l'.inst = { l.inst with phase := .idle } ∧ l'.past = l.past := by
  have hstep : ∃ seen, l.proceed = { l with
      inst := { l.inst with phase := .publishing }
      awaited := .published (.ok ())
      seen := seen } := by
    rw [proceed_fresh hphase]
    exact ⟨_, rfl⟩
  obtain ⟨seen, hseen⟩ := hstep
  refine ⟨_, (Passes.one (busy_of_phase hphase (by simp) (by simp))).trans
    (passes_publishing (l := l.proceed) (by rw [hseen]) (by rw [hseen])), ?_, ?_⟩ <;> rw [hseen]

end Live
end Turnstile
