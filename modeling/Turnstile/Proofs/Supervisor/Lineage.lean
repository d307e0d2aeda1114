-- Who follows whom: an instance that the supervisor did not start comes in the place of one that
-- has crashed, which has no other heir. It is what the first of its line was when it was started,
-- however many came in between, and knows nothing of what they were asked.
import Turnstile.Proofs.Supervisor.Latest
import Turnstile.Proofs.Supervisor.Ledger

namespace Turnstile

/-! ## Blame -/

/-- How a body on its way out will end, or has ended. -/
def Phase.ending? : Phase → Option Ending
  | .terminating ending | .announcing ending | .finished ending => some ending
  | .fresh | .idle | .deciding .. | .reporting .. | .publishing => none

namespace Instance

variable {i : Instance}

/-- A body that ends with a fault has it noted as its crash. -/
def Blamed (i : Instance) : Prop :=
  ∀ fault, i.phase.ending? = some (.failed fault) → i.crash = some fault

theorem blamed_inside (hinside : i.phase.ending? = none) : i.Blamed := by
  intro fault hending
  cases hinside.symm.trans hending

theorem blamed_cancelled (hcancelled : i.phase.ending? = some .cancelled) : i.Blamed := by
  intro fault hending
  cases hcancelled.symm.trans hending

theorem Blamed.outside {moves : List Move} (h : i.Blamed) (hmoves : ∀ m ∈ moves, m.Outside) :
    (i.after moves).Blamed := by
  refine outside_keeps (P := Blamed) (fun j r hj => ?_) (fun j call hj => hj) hmoves h
  simp only [move, Instance.post]
  by_cases halive : j.alive = true
  · rw [if_pos halive]
    exact hj
  · rw [if_neg halive]
    exact hj

theorem blamed_leave (i : Instance) (reason : StopReason) {ending : Ending}
    (hcalm : ending = .returned ∨ ending = .cancelled) :
    ((i.markStopped reason).leave ending).1.Blamed := by
  intro fault hfault
  have hfailed : ending = .failed fault := Option.some.inj hfault
  rcases hcalm with rfl | rfl
  · cases hfailed
  · cases hfailed

theorem blamed_escape (i : Instance) (fault : Fault) : (i.escape fault).1.Blamed := by
  unfold escape
  split
  · exact i.blamed_leave .killed (.inr rfl)
  · intro other hother
    obtain rfl := Ending.failed.inj (Option.some.inj hother)
    show (({ i with crash := some fault } : Instance).markStopped .crash).crash = some fault
    unfold markStopped
    split <;> rfl

theorem blamed_handle (hidle : i.phase = .idle) (r : Request) : (i.handle r).1.Blamed := by
  cases r with
  | stop => exact i.blamed_leave .stop (.inl rfl)
  | transition event payload => exact blamed_inside rfl
  | query call question abandoned =>
    unfold handle
    simp only
    split
    · exact blamed_inside (congrArg Phase.ending? hidle)
    · exact blamed_inside (congrArg Phase.ending? hidle)

theorem blamed_decide (i : Instance) (event payload : Value) (result : Except Fault Outcome) :
    (i.decide event payload result).1.Blamed := by
  unfold decide
  split
  · unfold settleOutcome
    simp only
    split
    · exact blamed_inside rfl
    · exact blamed_inside rfl
    · exact blamed_inside rfl
    · split
      · exact blamed_inside rfl
      · split
        · split
          · exact i.blamed_leave .terminal (.inl rfl)
          · exact blamed_inside rfl
        · exact blamed_inside rfl
  · split
    · exact i.blamed_escape _
    · exact blamed_inside rfl

theorem blamed_report (i : Instance) (event : Value) (rejection : Rejection)
    (result : Except Fault Unit) : (i.report event rejection result).1.Blamed := by
  unfold report
  simp only
  split
  · exact blamed_inside rfl
  · split
    · exact i.blamed_escape _
    · exact blamed_inside rfl

theorem Blamed.terminate (h : i.Blamed) {ending : Ending} (hphase : i.phase = .terminating ending)
    (result : Except Fault Unit) : (i.terminate ending result).1.Blamed := by
  have hsame : ∀ fault, some ending = some (.failed fault) → i.crash = some fault := by
    intro fault hending
    refine h fault ?_
    rw [hphase]
    exact hending
  unfold Instance.terminate
  simp only
  split
  · exact hsame
  · split
    · exact blamed_cancelled rfl
    · exact hsame

/-- A body ends with a fault only after it has crashed, for the faults of deliveries are
cancellations if they come to the body at all. -/
theorem Blamed.step (h : i.Blamed) {s : Stimulus} (hproper : s.Proper) : (i.step s).1.Blamed := by
  unfold Instance.step
  split
  · exact blamed_inside rfl
  · exact blamed_cancelled rfl
  · rename_i hphase
    split
    · exact h
    · rename_i r rest _
      exact blamed_handle (i := { i with mailbox := rest }) hphase r
  · exact i.blamed_leave .killed (.inr rfl)
  · exact i.blamed_decide _ _ _
  · exact i.blamed_report _ _ _
  · split
    · exact blamed_inside rfl
    · exact i.blamed_escape _
  · exact h.terminate ‹_› _
  · rename_i hphase
    split
    · intro fault hending
      refine h fault ?_
      rw [hphase]
      exact hending
    · rename_i fault
      have hcancellation : fault.isCancellation = true := hproper
      simp only [hcancellation, if_true]
      exact blamed_cancelled rfl
  · exact h

/-- Who has ended with a fault has crashed, and has stopped for that. -/
theorem Blamed.crashed (h : i.Blamed) (haccounted : i.Accounted) {fault : Fault}
    (hphase : i.phase = .finished (.failed fault)) :
    i.alive = false ∧ i.stopReason = some .crash := by
  have hcrash := h fault (by rw [hphase]; rfl)
  cases haccounted with
  | idle hphase' halive hreason hnone => cases hnone.symm.trans hcrash
  | bears hbears =>
    rename_i cause
    cases cause with
    | none => cases hbears.crash.symm.trans hcrash
    | some c =>
      have hfault : c.fault? = some fault := hbears.crash.symm.trans hcrash
      refine ⟨hbears.alive, hbears.stopReason.trans ?_⟩
      exact congrArg some (c.fault?_isSome.1 (by rw [hfault]; rfl))

end Instance

/-- What the body of a running task is given is proper, if the answers that are noted are. -/
theorem Task.proper_of_turn {task : Task} (hanswer : ∀ s, task.answer = some s → s.Proper)
    {s : Stimulus} (hturn : task.turn = some s) : s.Proper := by
  unfold Task.turn at hturn
  split at hturn
  · cases hturn
  · exact Option.some.inj hturn ▸ trivial
  · split at hturn
    · cases hturn
    · exact Option.some.inj hturn ▸ trivial
  · exact hanswer s hturn

theorem Task.proper_of_interruption {task : Task} {s : Stimulus}
    (hinterruption : task.interruption = some s) : s.Proper := by
  unfold Task.interruption at hinterruption
  split at hinterruption
  · obtain rfl := Option.some.inj hinterruption
    unfold Instance.cancellation
    split <;> first | exact trivial | rfl
  · cases hinterruption

/-- No move of the supervisor changes its settings. -/
theorem Roster.Next.settings {slips : Prop} {r r' : Roster} (hnext : r.Next slips r') :
    r'.settings = r.settings := by
  cases hnext <;> rfl

namespace Host

variable {h h₀ : Host} {t u : Nat} {task : Task} {deeds : List Deed}

/-- A body gets what its task has for it: its turn, or a cancellation where it waits. -/
theorem given_of_task (ht : h.task? t = some task) {d : Deed} {s : Stimulus}
    (hgiven : h.given t d = some s) : task.turn = some s ∨ task.interruption = some s := by
  obtain ⟨⟨u, s'⟩, hfed, hself⟩ := Option.bind_eq_some_iff.1 hgiven
  split at hself
  · rename_i hut
    obtain rfl : u = t := hut
    obtain rfl := Option.some.inj hself
    unfold fed at hfed
    split at hfed
    · split at hfed
      · obtain ⟨other, hother, hmapped⟩ := Option.bind_eq_some_iff.1 hfed
        obtain ⟨s, hturn, heq⟩ := Option.map_eq_some_iff.1 hmapped
        obtain ⟨rfl, rfl⟩ := Prod.mk.inj heq
        obtain rfl := Option.some.inj (ht.symm.trans hother)
        exact .inl hturn
      · split at hfed
        · obtain ⟨other, hother, hmapped⟩ := Option.bind_eq_some_iff.1 hfed
          obtain ⟨s, hinterruption, heq⟩ := Option.map_eq_some_iff.1 hmapped
          obtain ⟨rfl, rfl⟩ := Prod.mk.inj heq
          obtain rfl := Option.some.inj (ht.symm.trans hother)
          exact .inr hinterruption
        · cases hfed
    · cases hfed
  · cases hself

/-- The blame is where it belongs, and what is noted for the body is proper. -/
structure Honest (task : Task) : Prop where
  blamed : task.inst.Blamed
  proper : ∀ s, task.answer = some s → s.Proper

theorem Honest.stays {task' : Task} (h : Honest task) (hstays : task.Stays task') :
    Honest task' := by
  obtain ⟨⟨moves, houtside, hinst⟩, -, -, hproper⟩ := hstays
  exact ⟨hinst ▸ h.blamed.outside houtside, hproper h.proper⟩

theorem Honest.moved (h' : Honest task) (ht : h.task? t = some task) (d : Deed) :
    Honest { task with inst := h.moved t d task.inst } := by
  refine ⟨?_, h'.proper⟩
  show (h.moved t d task.inst).Blamed
  unfold Host.moved
  cases hgiven : h.given t d with
  | none => exact h'.blamed
  | some s =>
    refine h'.blamed.step ?_
    rcases given_of_task ht hgiven with hturn | hinterruption
    · exact Task.proper_of_turn h'.proper hturn
    · exact Task.proper_of_interruption hinterruption

theorem honest_after (settings : Settings) (registry : Registry) (bus : Bus Observer)
    (deeds : List Deed) (ht : ((opened settings registry bus).after deeds).task? t = some task) :
    Honest task := by
  refine holds_after settings registry bus (P := fun _ => Honest) ?_ ?_ ?_ deeds ht
  · rintro deeds d new - ⟨⟨machine, name, payload, hinst⟩, hanswer⟩
    have hblamed : (Instance.create machine name payload).Blamed := Instance.blamed_inside rfl
    exact ⟨hinst ▸ hblamed, by simp [hanswer]⟩
  · exact fun _ _ d ht hhonest => hhonest.moved ht d
  · exact fun _ _ _ hstays hhonest => hhonest.stays hstays

/-! ## Who comes -/

/-- A task comes in a deed, and this is what it is made as. -/
structure Comes (h : Host) (u : Nat) (d : Deed) (new : Task) : Prop where
  missing : h.task? u = none
  made : (h.act d).task? u = some new

/-- In a run a start is accepted, and the task of its instance has the number. -/
def Started (h₀ : Host) (deeds : List Deed) (u : Nat) (machine : Machine) (name payload : Value) :
    Prop :=
  ∃ before choice behind, deeds = before ++ .start choice name payload :: behind ∧
    (h₀.after before).choose choice = .ok (.ok machine) ∧
    ((h₀.after before).start choice name payload).2 = .ok u

/-- In a run the supervisor learns of the end of a task, and another task comes of it. -/
def Succeeds (h₀ : Host) (deeds : List Deed) (t u : Nat) : Prop :=
  ∃ before behind rest new, deeds = before ++ .step :: behind ∧
    (h₀.after before).running = none ∧ (h₀.after before).batch = .exited t :: rest ∧
    (h₀.after before).Comes u .step new

/-- In a run an instance of a machine is started under a name and with a payload, and the task is
the one of this instance, or has come after it, each one in the place of the one before. -/
inductive Heir (h₀ : Host) (deeds : List Deed) (machine : Machine) (name payload : Value) :
    Nat → Prop where
  | started {u : Nat} (hstarted : h₀.Started deeds u machine name payload) :
    Heir h₀ deeds machine name payload u
  | succeeds {t u : Nat} (hheir : Heir h₀ deeds machine name payload t)
    (hsucceeds : h₀.Succeeds deeds t u) : Heir h₀ deeds machine name payload u

/-- Two deeds of a list are the same one, or one of them comes later. -/
theorem split_or {before behind before' behind' : List Deed} {d d' : Deed}
    (heq : before ++ d :: behind = before' ++ d' :: behind') :
    (before = before' ∧ d = d' ∧ behind = behind') ∨
      (∃ middle, before' = before ++ d :: middle) ∨ ∃ middle, before = before' ++ d' :: middle := by
  rcases List.append_eq_append_iff.1 heq with
    ⟨middle, hbefore, hbehind⟩ | ⟨middle, hbefore, hbehind⟩
  · cases middle with
    | nil =>
      obtain ⟨rfl, rfl⟩ := List.cons.inj hbehind
      exact .inl ⟨by simpa using hbefore.symm, rfl, rfl⟩
    | cons e middle =>
      obtain ⟨rfl, -⟩ := List.cons.inj hbehind
      exact .inr (.inl ⟨middle, hbefore⟩)
  · cases middle with
    | nil =>
      obtain ⟨rfl, rfl⟩ := List.cons.inj hbehind
      exact .inl ⟨by simpa using hbefore, rfl, rfl⟩
    | cons e middle =>
      obtain ⟨rfl, -⟩ := List.cons.inj hbehind
      exact .inr (.inr ⟨middle, hbefore⟩)

/-- A task that has come is there. -/
theorem Comes.there {before : List Deed} {d : Deed} {new : Task}
    (hcomes : (h₀.after before).Comes u d new) (behind : List Deed) :
    ∃ task moves, (h₀.after (before ++ d :: behind)).task? u = some task ∧
      task.inst = new.inst.after moves := by
  rw [after_append]
  exact moves_of_after hcomes.made behind

/-- A task comes once. -/
theorem Comes.once {before behind before' behind' : List Deed} {d d' : Deed} {new new' : Task}
    (heq : before ++ d :: behind = before' ++ d' :: behind')
    (hcomes : (h₀.after before).Comes u d new) (hcomes' : (h₀.after before').Comes u d' new') :
    before = before' ∧ d = d' ∧ behind = behind' := by
  rcases split_or heq with hsame | ⟨middle, rfl⟩ | ⟨middle, rfl⟩
  · exact hsame
  · obtain ⟨task, -, ht, -⟩ := hcomes.there middle
    cases hcomes'.missing.symm.trans ht
  · obtain ⟨task, -, ht, -⟩ := hcomes'.there middle
    cases hcomes.missing.symm.trans ht

/-- Whoever is there and was not there at first has come. -/
theorem comes_of_there (hmissing : h₀.task? u = none)
    (ht : (h₀.after deeds).task? u = some task) :
    ∃ before d behind new, deeds = before ++ d :: behind ∧ (h₀.after before).Comes u d new := by
  induction deeds using List.reverseRecOn generalizing task with
  | nil => cases hmissing.symm.trans ht
  | append_singleton deeds d ih =>
    cases hbefore : (h₀.after deeds).task? u with
    | none => exact ⟨deeds, d, [], task, rfl, hbefore, (after_snoc h₀ deeds d) ▸ ht⟩
    | some old =>
      obtain ⟨before, e, behind, new, rfl, hcomes⟩ := ih hbefore
      exact ⟨before, e, behind ++ [d], new, by simp, hcomes⟩

/-- Nothing has arrived for a task that comes with an empty mailbox, and nothing was taken. -/
theorem Comes.nothing {before : List Deed} {d : Deed} {new : Task}
    (hcomes : (h₀.after before).Comes u d new) (hmailbox : new.inst.mailbox = []) :
    h₀.arrivals u (before ++ [d]) = [] ∧ h₀.takings u (before ++ [d]) = [] := by
  have harrivals := arrivals_of_none hcomes.missing
  have htakings := takings_of_none hcomes.missing
  unfold arrivals takings at *
  rw [during_snoc, during_snoc, harrivals, htakings]
  simp [gets, takes, hcomes.missing, hcomes.made, hmailbox]

/-- A supervised task comes with a start, or in the place of another one. -/
theorem Comes.cases {d : Deed} {new : Task} (hcomes : h.Comes u d new)
    (hsupervised : new.supervised = true) : u = h.tasks.length ∧
    ((∃ choice name payload machine, d = .start choice name payload ∧
        h.choose choice = .ok (.ok machine) ∧ (h.start choice name payload).2 = .ok u ∧
        new.inst = .create machine name payload) ∨
      d = .step ∧ ∃ t old, h.Replaces t old new) := by
  obtain ⟨hmissing, hmade⟩ := hcomes
  have hquiet : d.Aside → False := by
    intro haside
    rw [task?_of_length (quiet_act haside).length hmissing] at hmade
    cases hmade
  cases d with
  | step =>
    obtain ⟨hlast, hreplaces⟩ := replaces_of_new hmissing hmade
    exact ⟨hlast, .inr ⟨rfl, hreplaces⟩⟩
  | pass time => cases hmissing.symm.trans hmade
  | start choice key payload =>
    obtain ⟨rfl, haccepted, machine, hchoice, -, hinst⟩ := accepted_of_new hmissing hmade
    exact ⟨rfl, .inl ⟨choice, key, payload, machine, rfl, hchoice, haccepted, hinst⟩⟩
  | create choice key payload outlet =>
    cases hsupervised.symm.trans (unsupervised_of_new hmissing hmade)
  | _ => exact absurd trivial hquiet

/-- A start that is accepted makes a task. -/
theorem comes_of_accepted {choice : MachineChoice} {name payload : Value} {machine : Machine}
    (hchoice : h.choose choice = .ok (.ok machine))
    (haccepted : (h.start choice name payload).2 = .ok u) :
    ∃ new, h.Comes u (.start choice name payload) new ∧
      new.inst = .create machine name payload := by
  have hadded : u = h.tasks.length ∧ ∃ new, new.inst = .create machine name payload ∧
      (h.start choice name payload).1.tasks = h.tasks ++ [new] := by
    revert haccepted
    unfold Host.start
    simp only [hchoice]
    split
    · exact nofun
    · split
      · exact nofun
      · exact fun haccepted => ⟨(Except.ok.inj haccepted).symm, _, rfl, rfl⟩
  obtain ⟨rfl, new, hinst, htasks⟩ := hadded
  refine ⟨new, ⟨List.getElem?_eq_none_iff.2 (Nat.le_refl _), ?_⟩, hinst⟩
  show (h.start choice name payload).1.tasks[h.tasks.length]? = some new
  rw [htasks]
  exact List.getElem?_concat_length

/-! ## Who is replaced -/

/-- Everything that a run of a new host has to do with. -/
structure Grown (h : Host) : Prop where
  attended : h.Attended
  drained : ∀ t task, h.task? t = some task → task.inst.alive = false → task.inst.mailbox = []
  accounted : ∀ t task, h.task? t = some task → task.inst.Accounted
  honest : ∀ t task, h.task? t = some task → Honest task

theorem grown_after (settings : Settings) (registry : Registry) (bus : Bus Observer)
    (deeds : List Deed) : ((opened settings registry bus).after deeds).Grown where
  attended := ((attended_opened settings registry bus).after deeds).1
  drained _ _ ht hstopped :=
    (((served_opened settings registry bus).after deeds).empty ht hstopped).1
  accounted _ _ ht := (recorded_after settings registry bus deeds ht).accounted
  honest _ _ ht := honest_after settings registry bus deeds ht

/-- Who is replaced has crashed, is over and gets nothing more. -/
theorem Grown.replaced (hgrown : h.Grown) {old new : Task} (hreplaces : h.Replaces t old new) :
    old.supervised = true ∧ old.run = .ended ∧ old.inst.stopReason = some .crash ∧
      old.inst.Closed := by
  obtain ⟨rest, hbatch⟩ := hreplaces.batch
  obtain ⟨fault, hphase⟩ := hreplaces.crashed
  have ht := hreplaces.there
  have hexit : t ∈ h.roster.exits := exits_of_batch hbatch ▸ List.mem_cons_self
  obtain ⟨e, he, hsupervised, hended⟩ := hgrown.attended.orderly.exits t hexit
  obtain rfl := Option.some.inj ((entry_of_task ht).symm.trans he)
  obtain ⟨hstopped, hreason⟩ :=
    (hgrown.honest t old ht).blamed.crashed (hgrown.accounted t old ht) hphase
  exact ⟨hsupervised, by simpa [Task.entry] using hended, hreason, hstopped,
    hgrown.drained t old ht hstopped, _, hphase⟩

/-- When the supervisor has learnt of the end of a task, it does not learn of it again. -/
theorem Attended.learns (h₀ : h.Attended) (hrunning : h.running = none) {rest : List Job}
    (hbatch : h.batch = .exited t :: rest) : (h.act .step).roster.Learnt t := by
  have hexits := exits_of_batch hbatch
  obtain ⟨e, he, -, hended⟩ := h₀.orderly.exits t (hexits ▸ List.mem_cons_self)
  obtain ⟨e', he', hbecomes⟩ := (moves_act h₀.steady .step).next.entry he
  obtain rfl := hbecomes.ended hended
  refine ⟨e', he', hended, ?_⟩
  rw [step_exits h₀.steady hrunning hbatch]
  exact (List.nodup_cons.1 (hexits ▸ h₀.orderly.once)).1

theorem settings_after (hsteady : h.Steady) (deeds : List Deed) :
    (h.after deeds).settings = h.settings :=
  after_keeps_roster (P := fun r => r.settings = h.settings)
    (fun _ _ _ hsame hnext => hnext.settings.trans hsame) hsteady rfl deeds

theorem missing_at_first (hempty : h₀.tasks = []) (u : Nat) : h₀.task? u = none := by
  unfold Host.task?
  rw [hempty]
  rfl

theorem after_middle (h : Host) (before middle : List Deed) (d : Deed) :
    h.after (before ++ d :: middle) = ((h.after before).act d).after middle := after_append ..

/-- Who succeeds another one replaces it. -/
theorem Succeeds.replaces (hsucceeds : h₀.Succeeds deeds t u) : ∃ before behind old new,
    deeds = before ++ .step :: behind ∧ (h₀.after before).Comes u .step new ∧
      (h₀.after before).Replaces t old new ∧ u = (h₀.after before).tasks.length := by
  obtain ⟨before, behind, rest, new, hdeeds, hrunning, hbatch, hcomes⟩ := hsucceeds
  obtain ⟨hlast, t', old, hreplaces⟩ := replaces_of_new hcomes.missing hcomes.made
  obtain ⟨rest', hbatch'⟩ := hreplaces.batch
  obtain ⟨hexited, -⟩ := List.cons.inj (hbatch.symm.trans hbatch')
  obtain rfl := Job.exited.inj hexited
  exact ⟨before, behind, old, new, hdeeds, hcomes, hreplaces, hlast⟩

/-- Whoever is of a line is made as the first one of the line was. -/
theorem Heir.made {machine : Machine} {name payload : Value} {before behind : List Deed} {d : Deed}
    {new : Task} (hempty : h₀.tasks = []) (hheir : h₀.Heir deeds machine name payload u)
    (hdeeds : deeds = before ++ d :: behind) (hcomes : (h₀.after before).Comes u d new) :
    new.inst = .create machine name payload := by
  induction hheir generalizing before d behind new with
  | started hstarted =>
    obtain ⟨before', choice, behind', hdeeds', hchoice, haccepted⟩ := hstarted
    obtain ⟨new', hcomes', hinst⟩ := comes_of_accepted hchoice haccepted
    obtain ⟨rfl, rfl, -⟩ := Comes.once (hdeeds.symm.trans hdeeds') hcomes hcomes'
    obtain rfl := Option.some.inj (hcomes.made.symm.trans hcomes'.made)
    exact hinst
  | succeeds hheir hsucceeds ih =>
    obtain ⟨before', behind', old, new', hdeeds', hcomes', hreplaces, -⟩ := hsucceeds.replaces
    obtain ⟨rfl, rfl, -⟩ := Comes.once (hdeeds.symm.trans hdeeds') hcomes hcomes'
    obtain rfl := Option.some.inj (hcomes.made.symm.trans hcomes'.made)
    obtain ⟨first, e, middle, made, rfl, hcame⟩ :=
      comes_of_there (missing_at_first hempty _) hreplaces.there
    have hmade := ih (hdeeds.trans (List.append_assoc ..)) hcame
    obtain ⟨task, moves, ht, hinst⟩ := hcame.there middle
    obtain rfl := Option.some.inj (hreplaces.there.symm.trans ht)
    rw [hreplaces.inst, hinst, Instance.after_machine, Instance.after_name,
      Instance.after_initialPayload, hmade]
    rfl

section
variable (hempty : h₀.tasks = []) (hgrown : ∀ deeds, (h₀.after deeds).Grown)

include hgrown

/-- At most one task comes in the place of another one. -/
theorem Succeeds.once {u' : Nat} (hsucceeds : h₀.Succeeds deeds t u)
    (hsucceeds' : h₀.Succeeds deeds t u') : u = u' := by
  -- after the first time the supervisor has learnt of the end
  have hlater : ∀ {before middle rest rest' : _}, (h₀.after before).running = none →
      (h₀.after before).batch = .exited t :: rest →
      (h₀.after (before ++ .step :: middle)).batch = .exited t :: rest' → False := by
    intro before middle rest rest' hrunning hbatch hbatch'
    have hattended := (hgrown before).attended
    obtain ⟨-, -, -, hunheard⟩ := learnt_after (hattended.act .step).1.steady
      (hattended.learns hrunning hbatch) middle
    rw [← after_middle] at hunheard
    exact hunheard (exits_of_batch hbatch' ▸ List.mem_cons_self)
  obtain ⟨before, behind, rest, new, hdeeds, hrunning, hbatch, hcomes⟩ := hsucceeds
  obtain ⟨before', behind', rest', new', hdeeds', hrunning', hbatch', hcomes'⟩ := hsucceeds'
  rcases split_or (hdeeds.symm.trans hdeeds') with ⟨rfl, -⟩ | ⟨middle, rfl⟩ | ⟨middle, rfl⟩
  · exact (replaces_of_new hcomes.missing hcomes.made).1.trans
      (replaces_of_new hcomes'.missing hcomes'.made).1.symm
  · exact absurd (hlater hrunning hbatch hbatch') id
  · exact absurd (hlater hrunning' hbatch' hbatch) id

/-- What an entry of the roster says of a task is true of it later. -/
theorem later_supervised {before : List Deed} (more : List Deed) {task task' : Task}
    (ht : (h₀.after before).task? t = some task)
    (ht' : ((h₀.after before).after more).task? t = some task') :
    task'.supervised = task.supervised ∧ (task.run = .ended → task'.run = .ended) := by
  obtain ⟨e, he, hbecomes⟩ :=
    entry_after (hgrown before).attended.steady (entry_of_task ht) more
  obtain rfl := Option.some.inj ((entry_of_task ht').symm.trans he)
  refine ⟨hbecomes.supervised, fun hended => ?_⟩
  have hsame := congrArg Entry.ended (hbecomes.ended (by simp [Task.entry, hended]))
  simpa [Task.entry, hended] using hsame

/-- Who is succeeded has crashed, and who succeeds it has its name and its machine. -/
theorem Succeeds.crashed (hsucceeds : h₀.Succeeds deeds t u) : ∃ old new,
    (h₀.after deeds).task? t = some old ∧ (h₀.after deeds).task? u = some new ∧
      old.run = .ended ∧ old.inst.stopReason = some .crash ∧ new.inst.name = old.inst.name ∧
      new.inst.machine = old.inst.machine := by
  obtain ⟨before, behind, old, new, rfl, hcomes, hreplaces, -⟩ := hsucceeds.replaces
  obtain ⟨-, hended, hreason, hclosed⟩ := (hgrown before).replaced hreplaces
  obtain ⟨new', moves, hnew', hinst'⟩ := hcomes.there behind
  obtain ⟨old', more, hold', hinst⟩ := moves_of_after hreplaces.there (.step :: behind)
  obtain ⟨-, hended'⟩ := later_supervised hgrown _ hreplaces.there hold'
  rw [← after_append] at hold'
  refine ⟨old', new', hold', hnew', hended' hended, ?_, ?_, ?_⟩
  · rw [hinst, (Instance.stays_stopped_after hclosed.stopped more).stopReason, hreason]
  · rw [hinst', hinst, Instance.after_name, Instance.after_name, hreplaces.inst]
    rfl
  · rw [hinst', hinst, Instance.after_machine, Instance.after_machine, hreplaces.inst]
    rfl

include hempty

/-- Every supervised task was started, or has come in the place of another one. -/
theorem origin_of_supervised (ht : (h₀.after deeds).task? u = some task)
    (hsupervised : task.supervised = true) :
    (∃ machine name payload, h₀.Started deeds u machine name payload) ∨
      ∃ t, h₀.Succeeds deeds t u := by
  obtain ⟨before, d, behind, new, rfl, hcomes⟩ :=
    comes_of_there (missing_at_first hempty u) ht
  have hthere := hcomes.made
  rw [← after_snoc] at hthere
  have hnew := (later_supervised hgrown behind hthere
    (by rwa [after_middle, ← after_snoc] at ht)).1
  rcases (hcomes.cases (hnew ▸ hsupervised)).2 with
    ⟨choice, name, payload, machine, rfl, hchoice, haccepted, -⟩ | ⟨rfl, t, old, hreplaces⟩
  · exact .inl ⟨machine, name, payload, before, choice, behind, rfl, hchoice, haccepted⟩
  · obtain ⟨rest, hbatch⟩ := hreplaces.batch
    exact .inr ⟨t, before, behind, rest, new, rfl, hreplaces.running, hbatch, hcomes⟩

/-- Every supervised task is of the line of one that was started. -/
theorem heir_of_supervised (ht : (h₀.after deeds).task? u = some task)
    (hsupervised : task.supervised = true) :
    ∃ machine name payload, h₀.Heir deeds machine name payload u := by
  induction u using Nat.strongRecOn generalizing task with
  | ind u ih =>
    rcases origin_of_supervised hempty hgrown ht hsupervised with
      ⟨machine, name, payload, hstarted⟩ | ⟨t, hsucceeds⟩
    · exact ⟨machine, name, payload, .started hstarted⟩
    · obtain ⟨before, behind, old, new, hdeeds, -, hreplaces, hlast⟩ := hsucceeds.replaces
      have hlt : t < u := hlast ▸ (List.getElem?_eq_some_iff.1 hreplaces.there).1
      obtain ⟨old', -, hold', -⟩ := moves_of_after hreplaces.there (.step :: behind)
      have hold := (later_supervised hgrown _ hreplaces.there hold').1
      rw [← after_append, ← hdeeds] at hold'
      obtain ⟨machine, name, payload, hheir⟩ :=
        ih t hlt hold' (hold.trans ((hgrown before).replaced hreplaces).1)
      exact ⟨machine, name, payload, .succeeds hheir hsucceeds⟩

theorem heir_of_line (hline : Relation.TransGen (h₀.Succeeds deeds) t u) :
    ∃ machine name payload, h₀.Heir deeds machine name payload u := by
  obtain ⟨w, hsucceeds⟩ : ∃ w, h₀.Succeeds deeds w u := by
    cases hline with
    | single hsucceeds => exact ⟨_, hsucceeds⟩
    | tail _ hsucceeds => exact ⟨_, hsucceeds⟩
  obtain ⟨before, behind, old, new, rfl, hcomes, hreplaces, -⟩ := hsucceeds.replaces
  obtain ⟨task, -, ht, -⟩ := hcomes.there behind
  have hthere := hcomes.made
  rw [← after_snoc] at hthere
  have hnew := (later_supervised hgrown behind hthere
    (by rwa [after_middle, ← after_snoc] at ht)).1
  exact heir_of_supervised hempty hgrown ht (hnew.trans hreplaces.supervised)

/-- Before a task comes, all those are over in whose place it comes, one after the other. -/
theorem closed_before {before behind : List Deed} {d : Deed} {new : Task}
    (hline : Relation.TransGen (h₀.Succeeds deeds) t u) (hdeeds : deeds = before ++ d :: behind)
    (hcomes : (h₀.after before).Comes u d new) :
    ∃ task, (h₀.after before).task? t = some task ∧ task.inst.Closed := by
  induction hline generalizing before d behind new with
  | single hsucceeds =>
    obtain ⟨before', behind', old, new', hdeeds', hcomes', hreplaces, -⟩ := hsucceeds.replaces
    obtain ⟨rfl, rfl, -⟩ := Comes.once (hdeeds.symm.trans hdeeds') hcomes hcomes'
    exact ⟨old, hreplaces.there, ((hgrown before).replaced hreplaces).2.2.2⟩
  | tail _ hsucceeds ih =>
    obtain ⟨before', behind', old, new', hdeeds', hcomes', hreplaces, -⟩ := hsucceeds.replaces
    obtain ⟨rfl, rfl, -⟩ := Comes.once (hdeeds.symm.trans hdeeds') hcomes hcomes'
    -- the one before came before, and those before it were over by then
    obtain ⟨first, e, middle, made, rfl, hcame⟩ :=
      comes_of_there (missing_at_first hempty _) hreplaces.there
    obtain ⟨task, ht, hclosed⟩ := ih (hdeeds.trans (List.append_assoc ..)) hcame
    have hlater := (closed_after ht hclosed (e :: middle)).2.2
    rwa [← after_append] at hlater

end

/-! ## The law of succession -/

/-- Who follows whom in a run. -/
structure Lineage (h₀ : Host) (deeds : List Deed) : Prop where
  /-- Every supervised task was started, or has come when the supervisor learnt of the end of
  another one. -/
  origin : ∀ u task, (h₀.after deeds).task? u = some task → task.supervised = true →
    (∃ machine name payload, h₀.Started deeds u machine name payload) ∨
      ∃ t, h₀.Succeeds deeds t u
  /-- The other one has crashed, and has the same name and the same machine. -/
  crashed : ∀ t u, h₀.Succeeds deeds t u → ∃ old new, (h₀.after deeds).task? t = some old ∧
    (h₀.after deeds).task? u = some new ∧ old.run = .ended ∧ old.inst.stopReason = some .crash ∧
      new.inst.name = old.inst.name ∧ new.inst.machine = old.inst.machine
  /-- It has no other successor. -/
  once : ∀ t u u', h₀.Succeeds deeds t u → h₀.Succeeds deeds t u' → u = u'
  /-- Who has stopped for another reason has none. -/
  calm : ∀ t u task, (h₀.after deeds).task? t = some task →
    task.inst.stopReason ∈ [some .terminal, some .stop, some .killed] → ¬ h₀.Succeeds deeds t u
  /-- Under the policy that knows no restarts nobody has. -/
  temporary : h₀.settings.restart = .temporary → ∀ t u, ¬ h₀.Succeeds deeds t u
  /-- At the head of every line stands a start. -/
  head : ∀ u task, (h₀.after deeds).task? u = some task → task.supervised = true →
    ∃ machine name payload, h₀.Heir deeds machine name payload u
  /-- What was started there is what all of the line begin as: in the initial state of its machine,
  with its payload, and with nothing in the mailbox. -/
  birth : ∀ machine name payload u before d behind new,
    h₀.Heir deeds machine name payload u → deeds = before ++ d :: behind →
    (h₀.after before).Comes u d new → new.inst.machine = machine ∧ new.inst.name = name ∧
      new.inst.runState = ⟨machine.table.initial, payload, []⟩ ∧ new.inst.mailbox = []
  /-- A task takes the requests that have arrived in its own mailbox, one after the other. -/
  ledger : ∀ u, (h₀.takings u deeds).map Request.unmarked <+:
    (h₀.arrivals u deeds).map Request.unmarked
  /-- Nothing has arrived there before the task has come, and from then on nothing arrives in the
  mailboxes of those who stood in the line before it, and nothing is taken out of them. -/
  apart : ∀ t u before d behind new, Relation.TransGen (h₀.Succeeds deeds) t u →
    deeds = before ++ d :: behind → (h₀.after before).Comes u d new →
    h₀.arrivals u (before ++ [d]) = [] ∧ h₀.takings u (before ++ [d]) = [] ∧
      (h₀.after before).arrivals t (d :: behind) = [] ∧
      (h₀.after before).takings t (d :: behind) = []

/-- However often instances crash, and whatever happens in between: the supervisor makes one new
instance in the place of one that has crashed, and the new one begins as the first of its line. -/
theorem crashed_instances_have_one_heir (settings : Settings) (registry : Registry)
    (bus : Bus Observer) (deeds : List Deed) : Lineage (opened settings registry bus) deeds := by
  have hempty : (opened settings registry bus).tasks = [] := rfl
  have hgrown := grown_after settings registry bus
  exact {
    origin := fun _ _ => origin_of_supervised hempty hgrown
    crashed := fun _ _ => Succeeds.crashed hgrown
    once := fun _ _ _ => Succeeds.once hgrown
    calm := fun t u task ht hcalm hsucceeds => by
      obtain ⟨old, -, hold, -, -, hcrash, -⟩ := hsucceeds.crashed hgrown
      obtain rfl := Option.some.inj (ht.symm.trans hold)
      rw [hcrash] at hcalm
      simp at hcalm
    temporary := fun hpolicy t u hsucceeds => by
      obtain ⟨before, -, old, new, -, -, hreplaces, -⟩ := hsucceeds.replaces
      have htransient := hreplaces.policy
      rw [settings_after (steady_opened settings registry bus), hpolicy] at htransient
      cases htransient
    head := fun _ _ => heir_of_supervised hempty hgrown
    birth := fun machine name payload u before d behind new hheir hdeeds hcomes => by
      rw [hheir.made hempty hdeeds hcomes]
      exact ⟨rfl, rfl, rfl, rfl⟩
    ledger := fun u => by
      cases hthere : ((opened settings registry bus).after deeds).task? u with
      | none =>
        rw [takings_of_none hthere]
        exact List.nil_prefix
      | some task => exact (booked_after settings registry bus deeds hthere).taken_begins
    apart := fun t u before d behind new hline hdeeds hcomes => by
      obtain ⟨task, ht, hclosed⟩ := closed_before hempty hgrown hline hdeeds hcomes
      obtain ⟨htakings, harrivals, -⟩ := closed_after ht hclosed (d :: behind)
      obtain ⟨machine, name, payload, hheir⟩ := heir_of_line hempty hgrown hline
      have hmade := hheir.made hempty hdeeds hcomes
      obtain ⟨harrived, htaken⟩ := hcomes.nothing (hmade ▸ rfl)
      exact ⟨harrived, htaken, harrivals, htakings⟩ }

/-- An instance takes an edge with a new payload and crashes on the next request, with another one
still in its mailbox. The one in its place has none of that. -/
example :
    let machine := Machine.ofTable "t" ⟨"a", [⟨"a", "go", .state "b"⟩], []⟩
      { onTransition := some ⟨.rules, fun _ call => { result := match call.event with
          | .text "go" => .ok (.success (.text "b") call.eventPayload)
          | _ => .error (.plain .exhausted "") }⟩ }
    let h := opened ⟨.whole 5, .transient, .whole 3, .whole 5⟩ [] {}
    let deeds := .start (.given machine) (.text "x") (.text "p") :: List.replicate 4 .step ++
      .send ⟨.text "x", .text "go", .text "q"⟩ :: .send ⟨.text "x", .text "boom", .null⟩ ::
      .send ⟨.text "x", .text "go", .null⟩ :: List.replicate 16 .step
    ((h.after deeds).task? 0).map (·.inst.runState.history) = some ["a"] ∧
    ((h.after deeds).task? 1).map (fun task => task.inst.runState.current) = some "a" ∧
    ((h.after deeds).task? 1).map (fun task => task.inst.runState.payload.same (.text "p")) =
      some true ∧
    ((h.after deeds).task? 1).map (fun task => task.inst.mailbox.isEmpty) = some true := by
  decide +kernel

end Host
end Turnstile
