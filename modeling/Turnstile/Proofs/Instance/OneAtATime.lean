-- The whole of a run: whatever arrives when, an instance shows what the interpreter of one
-- request after the other shows, and it comes to rest when it is left alone.
import Turnstile.Proofs.Instance.Rest
import Turnstile.Proofs.Instance.Simulation

namespace Turnstile

open Serial

/-! ## Marks -/

namespace Serial

variable (machine : Machine) (name : Value)

theorem drop_unmarked (rs : List Request) :
    (rs.map Request.unmarked).flatMap (drop name) = rs.flatMap (drop name) := by
  induction rs with
  | nil => rfl
  | cons r rs ih =>
    rw [List.map_cons, List.flatMap_cons, List.flatMap_cons, ih]
    cases r <;> rfl

/-- The interpreter does not look at the marks. -/
theorem serveAll_unmarked (rs : RunState) (past : HookPast) (requests : List Request) :
    serveAll machine name rs past (requests.map Request.unmarked) =
      serveAll machine name rs past requests := by
  induction requests generalizing rs past with
  | nil => rfl
  | cons r requests ih =>
    have hserve : serve machine name rs past r.unmarked = serve machine name rs past r := by
      cases r <;> rfl
    rw [List.map_cons, serveAll_cons, serveAll_cons, hserve]
    unfold Turn.goOn
    cases (serve machine name rs past r).stop with
    | none => simp only [ih]
    | some reason => simp only [Turn.close, drop_unmarked]

theorem goOn_unmarked (turn : Turn) (requests : List Request) :
    turn.goOn machine name (requests.map Request.unmarked) =
      turn.goOn machine name requests := by
  unfold Turn.goOn
  cases turn.stop with
  | none => simp only [serveAll_unmarked]
  | some reason => simp only [Turn.close, drop_unmarked]

end Serial

namespace Live

theorem ahead_unmarked (l : Live) (rest : List Request) :
    l.ahead (rest.map Request.unmarked) = l.ahead rest := by
  unfold ahead
  split
  · rw [serveAll_unmarked]
  · rw [serveAll_unmarked]
  · rw [serveAll_unmarked]
  · rw [goOn_unmarked]
  · rw [goOn_unmarked]
  · rfl
  · rfl

theorem abandon_unmarked (i : Instance) (call : Nat) :
    (i.abandon call).mailbox.map Request.unmarked = i.mailbox.map Request.unmarked := by
  unfold Instance.abandon
  rw [List.map_map]
  apply List.map_congr_left
  intro r _
  cases r <;> rfl

/-! ## What holds of every run -/

/-- What is true of a live instance at every moment of a run. Above all, what it has shown and
what lies ahead are what the interpreter shows, and this stays so if more requests come. -/
structure Sound (machine : Machine) (name payload : Value) (l : Live) : Prop where
  ofMachine : l.inst.machine = machine
  named : l.inst.name = name
  stands : l.Stands
  noted : l.Noted
  sights : ∀ more, (l.inst.alive = true ∨ more = []) →
    visible l.gaveUp (interpret machine name payload (l.accepted ++ more)).sights =
        visible l.gaveUp (l.seen ++ (l.outlook more).sights) ∧
      (interpret machine name payload (l.accepted ++ more)).runState =
        (l.outlook more).runState ∧
      (interpret machine name payload (l.accepted ++ more)).stop = (l.outlook more).stop

variable {machine : Machine} {name payload : Value} {l : Live}

theorem sound_create (machine : Machine) (name payload : Value) :
    Sound machine name payload (create machine name payload) := by
  refine ⟨rfl, rfl, rfl, ?_, ?_⟩
  · intro call question h
    cases h
  · intro more _
    exact ⟨rfl, rfl, rfl⟩

theorem arrive_alive (halive : l.inst.alive = true) (r : Request) :
    l.arrive r =
      { l with
        inst := { l.inst with mailbox := l.inst.mailbox ++ [r] }
        accepted := l.accepted ++ [r] } := by
  unfold arrive Instance.post
  rw [if_pos halive]

theorem arrive_stopped (hstopped : l.inst.alive ≠ true) (r : Request) : l.arrive r = l := by
  unfold arrive Instance.post
  rw [if_neg hstopped]

/-- What was shown and what lies ahead are what the interpreter shows of the accepted
requests. -/
theorem Sound.whole (h : Sound machine name payload l) :
    visible l.gaveUp (interpret machine name payload l.accepted).sights =
        visible l.gaveUp l.seen ++ visible l.gaveUp (l.outlook []).sights ∧
      (interpret machine name payload l.accepted).runState = (l.outlook []).runState := by
  have hall := h.sights [] (.inr rfl)
  rw [List.append_nil, visible_append] at hall
  exact ⟨hall.1, hall.2.1⟩

/-- A request that arrives is added to what lies ahead. -/
theorem sound_arrive (h : Sound machine name payload l) {r : Request}
    (hr : ∀ call question, r ≠ .query call question true) :
    Sound machine name payload (l.arrive r) := by
  by_cases halive : l.inst.alive = true
  · rw [arrive_alive halive]
    refine ⟨h.ofMachine, h.named, ?_, ?_, ?_⟩
    · have hstands := h.stands
      unfold Stands at hstands ⊢
      cases hphase : l.inst.phase <;> simp_all
    · intro call question hmem
      rcases List.mem_append.1 hmem with hold | hnew
      · exact h.noted call question hold
      · exact absurd (List.mem_singleton.1 hnew).symm (hr call question)
    · intro more _
      have hmore := h.sights (r :: more) (.inl halive)
      have houtlook : ({ l with
          inst := { l.inst with mailbox := l.inst.mailbox ++ [r] }
          accepted := l.accepted ++ [r] } : Live).outlook more = l.outlook (r :: more) := by
        show l.ahead (l.inst.mailbox ++ [r] ++ more) = l.ahead (l.inst.mailbox ++ r :: more)
        rw [List.append_assoc]
        rfl
      rw [houtlook, List.append_assoc]
      exact hmore
  · rw [arrive_stopped halive]
    exact h

theorem visible_cons (call : Nat) (gaveUp : List Nat) (sights : List Sight) :
    visible (call :: gaveUp) sights = visible [call] (visible gaveUp sights) := by
  unfold visible
  rw [List.filter_filter]
  apply List.filter_congr
  intro sight _
  cases sight with
  | answered c result =>
    by_cases h : c = call <;> by_cases h' : c ∈ gaveUp <;> simp [h, h']
  | _ => rfl

/-- A query that is given up is no longer looked for. -/
theorem sound_giveUp (h : Sound machine name payload l) (call : Nat) :
    Sound machine name payload (l.happen (.giveUp call)) := by
  refine ⟨h.ofMachine, h.named, ?_, ?_, ?_⟩
  · have hstands := h.stands
    unfold Stands at hstands ⊢
    simp only [happen, Instance.abandon]
    cases hphase : l.inst.phase <;> simp_all
  · intro c question hmem
    obtain ⟨r, hr, hmark⟩ := List.mem_map.1 hmem
    cases r with
    | stop => cases hmark
    | transition event payload => cases hmark
    | query c' question' abandoned =>
      simp only [Request.query.injEq, Bool.or_eq_true, beq_iff_eq] at hmark
      obtain ⟨rfl, -, hmarked | rfl⟩ := hmark
      · subst hmarked
        exact List.mem_cons_of_mem _ (h.noted c' question' hr)
      · exact List.mem_cons_self
  · intro more hmore
    obtain ⟨hsights, hsame⟩ := h.sights more hmore
    have houtlook : (l.happen (.giveUp call)).outlook more = l.outlook more := by
      show l.ahead ((l.inst.abandon call).mailbox ++ more) = l.ahead (l.inst.mailbox ++ more)
      rw [← ahead_unmarked, ← ahead_unmarked l (l.inst.mailbox ++ more), List.map_append,
        List.map_append, abandon_unmarked]
    have hboth := congrArg (visible [call]) hsights
    rw [← visible_cons, ← visible_cons] at hboth
    rw [houtlook]
    exact ⟨hboth, hsame⟩

/-- What the body shows when it moves on comes from what lies ahead. -/
theorem sound_proceed (h : Sound machine name payload l) (hhooks : machine.hooks.NeverCancel) :
    Sound machine name payload l.proceed := by
  have hshows := shows_proceed h.noted h.stands (h.ofMachine ▸ hhooks)
  obtain ⟨shown, hseen, hahead⟩ := hshows.sights
  refine ⟨hshows.machine.trans h.ofMachine, hshows.name.trans h.named, hshows.stands, ?_, ?_⟩
  · intro call question hmem
    rw [hshows.gaveUp]
    exact h.noted call question (hshows.mailbox _ hmem)
  · intro more hmore
    obtain ⟨hsights, hrunState, hstop⟩ := h.sights more (hmore.imp_left hshows.alive)
    obtain ⟨hnext, hnextState, hnextStop⟩ := hahead more hmore
    rw [hshows.accepted, hshows.gaveUp, hseen]
    refine ⟨?_, hrunState.trans hnextState, hstop.trans hnextStop⟩
    rw [hsights, visible_append, hnext, ← visible_append, List.append_assoc]

theorem sound_happen (h : Sound machine name payload l) (hhooks : machine.hooks.NeverCancel)
    (happening : Happening) : Sound machine name payload (l.happen happening) := by
  cases happening with
  | send event payload => exact sound_arrive h nofun
  | query call question => exact sound_arrive h nofun
  | requestStop => exact sound_arrive h nofun
  | giveUp call => exact sound_giveUp h call
  | proceed => exact sound_proceed h hhooks

theorem sound_run (h : Sound machine name payload l) (hhooks : machine.hooks.NeverCancel)
    (happenings : List Happening) : Sound machine name payload (l.run happenings) := by
  induction happenings generalizing l with
  | nil => exact h
  | cons happening happenings ih => exact ih (sound_happen h hhooks happening)

/-! ## Coming to rest -/

theorem run_cons (happening : Happening) (happenings : List Happening) :
    l.run (happening :: happenings) = (l.happen happening).run happenings := rfl

/-- An instance that is left alone comes to rest; no request is accepted or given up on the
way. -/
theorem comes_to_rest (h : Sound machine name payload l) (hhooks : machine.hooks.NeverCancel) :
    ∃ n, (l.run (List.replicate n .proceed)).AtRest ∧
      (l.run (List.replicate n .proceed)).accepted = l.accepted ∧
      (l.run (List.replicate n .proceed)).gaveUp = l.gaveUp := by
  induction hrank : l.inst.rank using Nat.strongRecOn generalizing l with
  | ind rank ih =>
    by_cases hrest : l.AtRest
    · exact ⟨0, hrest, rfl, rfl⟩
    · have hless := proceed_rank h.stands hrest
      have hshows := shows_proceed h.noted h.stands (h.ofMachine ▸ hhooks)
      obtain ⟨n, hn, haccepted, hgaveUp⟩ :=
        ih l.proceed.inst.rank (hrank ▸ hless) (sound_proceed h hhooks) rfl
      refine ⟨n + 1, ?_, ?_, ?_⟩
      · rw [List.replicate_succ, run_cons]
        exact hn
      · rw [List.replicate_succ, run_cons]
        exact haccepted.trans hshows.accepted
      · rw [List.replicate_succ, run_cons]
        exact hgaveUp.trans hshows.gaveUp

/-- Nothing lies ahead of an instance at rest. -/
theorem outlook_atRest (hrest : l.AtRest) :
    (l.outlook []).sights = [] ∧ (l.outlook []).runState = l.inst.runState := by
  unfold outlook ahead
  rcases hrest with ⟨hphase, hmailbox⟩ | ⟨ending, hphase⟩
  · rw [hphase, hmailbox]
    exact ⟨rfl, rfl⟩
  · rw [hphase]
    exact ⟨rfl, rfl⟩

/-- At rest all that the interpreter shows was shown. -/
theorem Sound.atRest (h : Sound machine name payload l) (hrest : l.AtRest) :
    visible l.gaveUp l.seen =
        visible l.gaveUp (interpret machine name payload l.accepted).sights ∧
      l.inst.runState = (interpret machine name payload l.accepted).runState := by
  obtain ⟨hsights, hrunState⟩ := h.whole
  obtain ⟨hnone, hsame⟩ := outlook_atRest hrest
  rw [hsights, hrunState, hnone, hsame]
  exact ⟨(List.append_nil _).symm, rfl⟩

/-! ## Commits -/

/-- The run states that are committed among the sights. -/
def committed (sights : List Sight) : List RunState := sights.filterMap Sight.runState?

/-- The run state is the last one that was seen to be committed. -/
def Told (start : RunState) (l : Live) : Prop :=
  (committed l.seen).getLastD start = l.inst.runState

theorem hookCalls_visible (gaveUp : List Nat) (sights : List Sight) :
    hookCalls (visible gaveUp sights) = hookCalls sights := by
  unfold hookCalls visible
  rw [List.filterMap_filter]
  apply List.filterMap_congr
  intro sight _
  cases sight <;> simp [Sight.call?]

end Live
end Turnstile
