-- A live instance that is left alone with its mailbox: in a bounded number of steps it shows all that
-- lay ahead of it. A question behind some events is answered when they are through: by the run state
-- that they lead to, or by the end of the instance.
import Turnstile.Proofs.Instance.Plain
import Turnstile.Proofs.Instance.Walked

namespace Turnstile

open Serial

/-! ## Answers -/

/-- The call that a sight answers, and the answer. -/
def Sight.answer? : Sight → Option (Nat × Except Fault Answer)
  | .answered call result => some (call, result)
  | _ => none

/-- The answers among some sights, in their order. -/
def replies (sights : List Sight) : List (Nat × Except Fault Answer) :=
  sights.filterMap Sight.answer?

theorem replies_append (sights more : List Sight) :
    replies (sights ++ more) = replies sights ++ replies more := List.filterMap_append

/-- A request for a transition to an instance. -/
def Request.Sends (r : Request) : Prop := ∃ event payload, r = .transition event payload

namespace Serial

variable (machine : Machine) (name : Value) (rs : RunState) (past : HookPast)

theorem replies_carryOut (event payload : Value) (ruling : Ruling) :
    replies (carryOut machine name rs past event payload ruling).sights = [] := by
  cases ruling with
  | refuses rejection =>
    unfold carryOut refuse
    simp only
    split
    · rfl
    · split <;> rfl
  | _ => rfl

theorem replies_serve {r : Request} (hsends : r.Sends) :
    replies (serve machine name rs past r).sights = [] := by
  obtain ⟨event, payload, rfl⟩ := hsends
  exact replies_carryOut machine name rs _ event payload _

/-- What comes after the request that stopped the instance is not carried out, but a question is told
so. -/
theorem replies_dropped {requests : List Request} (hsends : ∀ r ∈ requests, r.Sends) (call : Nat)
    (question : Question) :
    replies ((requests ++ [Request.query call question false]).flatMap (drop name)) =
      [(call, .error (Instance.missing name))] := by
  induction requests with
  | nil => rfl
  | cons r requests ih =>
    obtain ⟨⟨event, payload, rfl⟩, hrest⟩ := List.forall_mem_cons.1 hsends
    exact ih hrest

/-- Behind requests for transitions a question is answered from where they lead, and not at all if
the instance does not outlive them. -/
theorem replies_asked {requests : List Request} (hsends : ∀ r ∈ requests, r.Sends) (call : Nat)
    (question : Question) :
    replies (serveAll machine name rs past (requests ++ [.query call question false])).sights =
      [(call, if (serveAll machine name rs past requests).stop = none
        then reply machine.table (serveAll machine name rs past requests).runState question
        else .error (Instance.missing name))] := by
  induction requests generalizing rs past with
  | nil => rfl
  | cons r requests ih =>
    obtain ⟨hr, hrest⟩ := List.forall_mem_cons.1 hsends
    have hnone := replies_serve machine name rs past hr
    rw [List.cons_append, serveAll_cons, serveAll_cons]
    unfold Turn.goOn
    cases hstop : (serve machine name rs past r).stop with
    | none =>
      simp only [Turn.after, replies_append, hnone, List.nil_append]
      exact ih _ _ hrest
    | some reason =>
      simp only [Turn.close, replies_append, hnone, replies_dropped name hrest, List.nil_append]
      rfl

/-- The interpreter of an instance without hooks walks along the table, and tells of the run state at
the end, unless it has left the diagram. -/
theorem asked_walks (typeName : String) (t : Table) {requests : List Request}
    (hsends : ∀ r ∈ requests, r.Sends) (call : Nat) :
    let turn := serveAll (.ofTable typeName t {}) name rs past
      (requests ++ [.query call .state false])
    let walked := t.walk rs (requests.filterMap Request.event?)
    turn.runState = walked.1 ∧ turn.stop = (if walked.2 then some .terminal else none) ∧
      replies turn.sights = [(call, if walked.2
        then .error (Instance.missing name) else .ok (.state walked.1))] := by
  intro turn walked
  have hstop : .stop ∉ requests := fun hmem => by
    obtain ⟨event, payload, hsend⟩ := hsends _ hmem
    cases hsend
  have hevents : (requests ++ [Request.query call .state false]).filterMap Request.event? =
      requests.filterMap Request.event? := by
    simp [Request.event?]
  have hnever : .stop ∉ requests ++ [Request.query call .state false] := by simp [hstop]
  have hasked := serveAll_walks typeName name past rs t hnever
  rw [hevents] at hasked
  refine ⟨hasked.1, hasked.2, ?_⟩
  obtain ⟨hrunState, hwhy⟩ := serveAll_walks typeName name past rs t hstop
  rw [show replies turn.sights = _ from replies_asked _ name rs past hsends call .state, hwhy,
    hrunState]
  show [(call, _)] = [(call, if (t.walk rs _).2 = true then _ else _)]
  cases (t.walk rs (requests.filterMap Request.event?)).2 <;> rfl

end Serial

namespace Live

variable {l l' l'' : Live} {ahead : List Request → Turn}

/-! ## To rest -/

theorem Shows.trans (h : Shows l l' ahead) (h' : Shows l' l'' l'.outlook) : Shows l l'' ahead where
  machine := h'.machine.trans h.machine
  name := h'.name.trans h.name
  accepted := h'.accepted.trans h.accepted
  gaveUp := h'.gaveUp.trans h.gaveUp
  mailbox r hr := h.mailbox r (h'.mailbox r hr)
  alive := h.alive ∘ h'.alive
  stands := h'.stands
  sights := by
    obtain ⟨shown, hseen, hahead⟩ := h.sights
    obtain ⟨shown', hseen', hahead'⟩ := h'.sights
    refine ⟨shown ++ shown', by rw [hseen', hseen, List.append_assoc], fun more hmore => ?_⟩
    obtain ⟨hsights, hrunState, hstop⟩ := hahead more (hmore.imp_left h'.alive)
    obtain ⟨hsights', hrunState', hstop'⟩ := hahead' more hmore
    rw [h.gaveUp] at hsights'
    refine ⟨?_, hrunState.trans hrunState', hstop.trans hstop'⟩
    rw [hsights, visible_append, hsights', ← visible_append, List.append_assoc]

/-- An instance that is left alone comes to rest, in no more steps than it has left to do, and shows on
the way what lay ahead of it. -/
theorem passes_to_rest (hnoted : l.Noted) (hstands : l.Stands)
    (hhooks : l.inst.machine.hooks.NeverCancel) :
    ∃ n ≤ l.inst.rank, ∃ l', l.Passes n l' ∧ l'.AtRest ∧ Shows l l' l.outlook := by
  induction hrank : l.inst.rank using Nat.strongRecOn generalizing l with
  | ind rank ih =>
    by_cases hrest : l.AtRest
    · exact ⟨0, Nat.zero_le _, l, .refl l, hrest, .refl hstands⟩
    · have hshows := shows_proceed hnoted hstands hhooks
      have hless := proceed_rank hstands hrest
      have hnoted' : l.proceed.Noted := fun call question hmem => by
        rw [hshows.gaveUp]
        exact hnoted call question (hshows.mailbox _ hmem)
      obtain ⟨n, hn, l', hpasses, hrest', hshows'⟩ :=
        ih _ (hrank ▸ hless) hnoted' hshows.stands (hshows.machine ▸ hhooks) rfl
      exact ⟨n + 1, by omega, l', .step hrest hpasses, hrest', hshows.trans hshows'⟩

/-- What lies ahead of an instance with all its requests still in the mailbox. -/
theorem outlook_of_start (hphase : l.inst.phase = .fresh ∨ l.inst.phase = .idle) :
    ∃ before, replies before = [] ∧ l.outlook [] =
      (serveAll l.inst.machine l.inst.name l.inst.runState l.past l.inst.mailbox).after before := by
  unfold outlook Live.ahead
  rw [List.append_nil]
  rcases hphase with hphase | hphase
  · rw [hphase]
    exact ⟨_, rfl, rfl⟩
  · rw [hphase]
    exact ⟨[], rfl, rfl⟩

/-- An instance at rest has nothing to show, and says why it has stopped, if it has. -/
theorem outlook_of_rest (hrest : l.AtRest) : l.outlook [] =
    ⟨[], l.inst.runState, l.past, if l.inst.phase.isOut then l.inst.stopReason else none⟩ := by
  unfold outlook Live.ahead
  rw [List.append_nil]
  rcases hrest with ⟨hphase, hmailbox⟩ | ⟨ending, hphase⟩
  · rw [hphase, hmailbox]
    rfl
  · rw [hphase]
    rfl

/-- What has become of an instance that was left alone with its mailbox, when it is at rest: it has done
what the interpreter does. -/
structure Served (l l' : Live) (turn : Turn) : Prop where
  rest : l'.AtRest
  machine : l'.inst.machine = l.inst.machine
  name : l'.inst.name = l.inst.name
  runState : l'.inst.runState = turn.runState
  replies : replies l'.seen = replies l.seen ++ replies turn.sights
  stop : (if l'.inst.phase.isOut then l'.inst.stopReason else none) = turn.stop
  stands : l'.Stands

theorem stands_of_start (hphase : l.inst.phase = .fresh ∨ l.inst.phase = .idle)
    (halive : l.inst.alive = true) : l.Stands := by
  unfold Stands
  rcases hphase with hphase | hphase <;> (rw [hphase]; exact halive)

/-- An instance that nobody has given up comes to rest as the interpreter leaves it. -/
theorem passes_served (hnoted : l.Noted) (hgaveUp : l.gaveUp = [])
    (hphase : l.inst.phase = .fresh ∨ l.inst.phase = .idle) (halive : l.inst.alive = true)
    (hhooks : l.inst.machine.hooks.NeverCancel) :
    ∃ n ≤ l.inst.rank, ∃ l', l.Passes n l' ∧ Served l l'
      (serveAll l.inst.machine l.inst.name l.inst.runState l.past l.inst.mailbox) := by
  obtain ⟨n, hn, l', hpasses, hrest, hshows⟩ :=
    passes_to_rest hnoted (stands_of_start hphase halive) hhooks
  obtain ⟨before, hbefore, hahead⟩ := l.outlook_of_start hphase
  obtain ⟨shown, hseen, hall⟩ := hshows.sights
  obtain ⟨hsights, hrunState, hstop⟩ := hall [] (.inr rfl)
  rw [outlook_of_rest hrest, hahead] at hsights hrunState hstop
  refine ⟨n, hn, l', hpasses, hrest, hshows.machine, hshows.name, hrunState.symm, ?_, hstop.symm,
    hshows.stands⟩
  have hvisible : ∀ sights, visible l.gaveUp sights = sights := by
    intro sights
    rw [hgaveUp]
    exact List.filter_eq_self.2 fun sight _ => by cases sight <;> rfl
  rw [hvisible, hvisible, List.append_nil] at hsights
  rw [hseen, replies_append, ← hsights]
  simp only [Turn.after, replies_append, hbefore, List.nil_append]

/-- A question behind some events was not given up. -/
theorem noted_of_asked {requests : List Request} (hsends : ∀ r ∈ requests, r.Sends) {c : Nat}
    {question : Question} (hmailbox : l.inst.mailbox = requests ++ [.query c question false]) :
    l.Noted := by
  intro call q hmem
  rw [hmailbox, List.mem_append, List.mem_singleton] at hmem
  rcases hmem with hmem | heq
  · obtain ⟨event, payload, hsend⟩ := hsends _ hmem
    cases hsend
  · cases heq

end Live
end Turnstile
