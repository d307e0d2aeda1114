-- Who is restarted: of all instances of a name, only the newest is ever stored under it. A crash is
-- followed by a restart if it was the newest that crashed, or if all that is left of newer ones is
-- already forgotten, so that a straggler brings back a name that was stopped since.
import Turnstile.Proofs.Supervisor.Closing

namespace Turnstile

namespace Roster

variable {slips : Prop} {r r' : Roster} {t u : Nat} {e : Entry} {name : Value}

/-! ## The newest of a name -/

/-- A supervised task goes by a name. -/
def Under (r : Roster) (name : Value) (t : Nat) : Prop :=
  ∃ e, r.entries[t]? = some e ∧ e.supervised = true ∧ e.name.same name = true

/-- The task that came last under a name. -/
structure Newest (r : Roster) (name : Value) (t : Nat) : Prop where
  under : r.Under name t
  top : ∀ u, r.Under name u → u ≤ t

/-- A task has ended, and the supervisor has learnt of it. -/
def Learnt (r : Roster) (t : Nat) : Prop :=
  ∃ e, r.entries[t]? = some e ∧ e.ended = true ∧ t ∉ r.exits

theorem Under.lt (hunder : r.Under name t) : t < r.entries.length := by
  obtain ⟨e, he, -⟩ := hunder
  exact (List.getElem?_eq_some_iff.1 he).1

theorem Under.next (hunder : r.Under name t) (hnext : r.Next slips r') : r'.Under name t := by
  obtain ⟨e, he, hsupervised, hsame⟩ := hunder
  obtain ⟨e', he', hbecomes⟩ := hnext.entry he
  exact ⟨e', he', hbecomes.supervised.trans hsupervised, hbecomes.name ▸ hsame⟩

/-- Who goes by a name and was there before went by it before. -/
theorem Under.before (hunder : r'.Under name t) (hnext : r.Next slips r')
    (hlt : t < r.entries.length) : r.Under name t := by
  obtain ⟨e', he', hsupervised, hsame⟩ := hunder
  obtain ⟨d, hd, hbecomes⟩ := hnext.entry (List.getElem?_eq_getElem hlt)
  obtain rfl := Option.some.inj (he'.symm.trans hd)
  exact ⟨_, List.getElem?_eq_getElem hlt, hbecomes.supervised ▸ hsupervised, hbecomes.name ▸ hsame⟩

theorem Newest.before (hnewest : r'.Newest name t) (hnext : r.Next slips r')
    (hlt : t < r.entries.length) : r.Newest name t :=
  ⟨hnewest.under.before hnext hlt, fun u hunder => hnewest.top u (hunder.next hnext)⟩

/-- With a new task, a name has one more if the task is supervised and goes by it. -/
theorem under_add_iff : (r.add e).Under name u ↔
    r.Under name u ∨ u = r.entries.length ∧ e.supervised = true ∧ e.name.same name = true := by
  have hself : (r.add e).entries[r.entries.length]? = some e := List.getElem?_concat_length
  have hold : u < r.entries.length → (r.add e).entries[u]? = r.entries[u]? := fun hlt =>
    List.getElem?_append_left hlt
  constructor
  · rintro ⟨d, hd, hsupervised, hsame⟩
    by_cases hlt : u < r.entries.length
    · exact .inl ⟨d, (hold hlt).symm.trans hd, hsupervised, hsame⟩
    · have hlt' := (List.getElem?_eq_some_iff.1 hd).1
      simp only [Roster.add, List.length_append, List.length_singleton] at hlt'
      obtain rfl : u = r.entries.length := by omega
      obtain rfl := Option.some.inj (hself.symm.trans hd)
      exact .inr ⟨rfl, hsupervised, hsame⟩
  · rintro (hunder | ⟨rfl, hsupervised, hsame⟩)
    · obtain ⟨d, hd, hrest⟩ := hunder
      exact ⟨d, (hold (List.getElem?_eq_some_iff.1 hd).1).trans hd, hrest⟩
    · exact ⟨e, hself, hsupervised, hsame⟩

/-- The supervisor is told of the end of a task once, and of no task that ended before. -/
theorem exits_next (hnext : r.Next slips r') (he : r.entries[t]? = some e) (hended : e.ended = true)
    (hexit : t ∈ r'.exits) : t ∈ r.exits := by
  cases hnext with
  | @finish u d hd hgoing hover =>
    rcases List.mem_append.1 hexit with hexit | hexit
    · exact hexit
    · split at hexit
      · obtain rfl := List.mem_singleton.1 hexit
        obtain rfl := Option.some.inj (he.symm.trans hd)
        cases hgoing.symm.trans hended
      · cases hexit
  | leave hexits hd hcalm => exact hexits ▸ List.mem_cons_of_mem _ hexit
  | refuse hexits hd hcount => exact hexits ▸ List.mem_cons_of_mem _ hexit
  | restart hexits hd hfailed hpolicy hfree hcount => exact hexits ▸ List.mem_cons_of_mem _ hexit
  | _ => exact hexit

theorem Learnt.next (hlearnt : r.Learnt t) (hnext : r.Next slips r') : r'.Learnt t := by
  obtain ⟨e, he, hended, hunheard⟩ := hlearnt
  obtain ⟨e', he', hbecomes⟩ := hnext.entry he
  obtain rfl := hbecomes.ended hended
  exact ⟨e', he', hended, fun hexit => hunheard (exits_next hnext he hended hexit)⟩

/-! ## Only the newest is stored -/

/-- Whoever is stored under a name is the newest of the name, and the newest is stored until its end
is known. -/
structure Current (r : Roster) : Prop where
  newest : ∀ (name : Value) (t u : Nat), name.IsName → lookupName r.holders name = some t →
    r.Under name u → u ≤ t
  stored : ∀ (name : Value) (t : Nat), name.IsName → r.Newest name t →
    lookupName r.holders name = some t ∨ r.Learnt t

theorem Current.same (h : r.Current) (hnext : r.Next slips r') (hholders : r'.holders = r.holders)
    (hunder : ∀ (name : Value) (t : Nat), r'.Under name t → r.Under name t) : r'.Current where
  newest name t u hname hheld hu := h.newest name t u hname (hholders ▸ hheld) (hunder name u hu)
  stored name t hname hnewest := by
    have hlt := (hunder name t hnewest.under).lt
    rw [hholders]
    exact (h.stored name t hname (hnewest.before hnext hlt)).imp_right fun hlearnt =>
      hlearnt.next hnext

theorem Current.count (h : r.Current) (name : Value) (times : List Rat) :
    (r.count name times).Current := ⟨h.newest, fun name t hname hnewest =>
      h.stored name t hname ⟨hnewest.under, hnewest.top⟩⟩

/-- When the end of a holder becomes known, its name is free, and its end is known. -/
theorem Current.vacate (h : r.Current) (horderly : r.Orderly) {rest : List Nat}
    (hexits : r.exits = t :: rest) (he : r.entries[t]? = some e) :
    (r.vacate t e.name rest).Current where
  newest name u v hname hheld hunder := by
    refine h.newest name u v hname ?_ hunder
    by_contra hlost
    have hkey := horderly.exit_isKey (hexits ▸ List.mem_cons_self) he
    exact lookup_vacate horderly hkey rest hlost hheld
  stored name u hname hnewest := by
    rcases h.stored name u hname ⟨hnewest.under, hnewest.top⟩ with hheld | ⟨d, hd, hended, hexit⟩
    · have hmem : t ∈ r.exits := hexits ▸ List.mem_cons_self
      have hkey := horderly.exit_isKey hmem he
      by_cases hcurrent : lookupName r.holders e.name = some t
      · by_cases hsame : e.name.same name = true
        · have hut := hheld.symm.trans ((lookupName_congr horderly.apart.1 hkey hsame).symm.trans
            hcurrent)
          obtain rfl := Option.some.inj hut
          obtain ⟨d, hd, -, hended⟩ := horderly.exits u hmem
          exact .inr ⟨d, hd, hended, (List.nodup_cons.1 (hexits ▸ horderly.once)).1⟩
        · refine .inl ?_
          unfold Roster.vacate
          simp only [if_pos hcurrent]
          rw [lookupName_eraseName horderly.apart.1 hkey, if_neg hsame]
          exact hheld
      · refine .inl ?_
        unfold Roster.vacate
        simp only [if_neg hcurrent]
        exact hheld
    · exact .inr ⟨d, hd, hended, fun hmem => hexit (hexits ▸ List.mem_cons_of_mem _ hmem)⟩

/-- A new task is the newest of its name, and is stored under it. -/
theorem Current.spawn (h : r.Current) (horderly : r.Orderly) (hkey : e.name.isKey = true)
    (hsupervised : e.supervised = true) : (r.spawn e).Current where
  newest name t u hname hheld hunder := by
    rw [lookup_spawn horderly hkey] at hheld
    rcases under_add_iff.1 hunder with hunder | ⟨rfl, -, hsame⟩
    · split at hheld
      · have hlt := hunder.lt
        have ht := Option.some.inj hheld
        omega
      · exact h.newest name t u hname hheld hunder
    · rw [if_pos hsame] at hheld
      exact Nat.le_of_eq (Option.some.inj hheld)
  stored name t hname hnewest := by
    rw [lookup_spawn horderly hkey]
    rcases under_add_iff.1 hnewest.under with hunder | ⟨rfl, -, hsame⟩
    · by_cases hsame : e.name.same name = true
      · have hle := hnewest.top _ (under_add_iff.2 (.inr ⟨rfl, hsupervised, hsame⟩))
        exact absurd hunder.lt (Nat.not_lt_of_ge hle)
      · rw [if_neg hsame]
        refine (h.stored name t hname ⟨hunder, fun u hu =>
          hnewest.top u (under_add_iff.2 (.inl hu))⟩).imp_right ?_
        rintro ⟨d, hd, hended, hexit⟩
        exact ⟨d, (List.getElem?_append_left hunder.lt).trans hd, hended, hexit⟩
    · exact .inl (if_pos hsame)

/-- An entry that keeps its name and its supervision keeps the names of all. -/
theorem under_of_set {d d' : Entry} (hd : r.entries[u]? = some d)
    (hsupervised : d'.supervised = d.supervised) (hname : d'.name = d.name)
    (hunder : { r with entries := r.entries.set u d' }.Under name t) : r.Under name t := by
  obtain ⟨e, he, hsup, hsame⟩ := hunder
  by_cases hu : u = t
  · subst hu
    have hself : (r.entries.set u d')[u]? = some d' :=
      List.getElem?_set_self (List.getElem?_eq_some_iff.1 hd).1
    obtain rfl := Option.some.inj (hself.symm.trans he)
    exact ⟨d, hd, hsupervised ▸ hsup, hname ▸ hsame⟩
  · exact ⟨e, (List.getElem?_set_ne hu).symm.trans he, hsup, hsame⟩

/-- Every move of the supervisor keeps the names current. -/
theorem Current.next (h : r.Current) (horderly : r.Orderly) (hnext : r.Next slips r') :
    r'.Current := by
  have hnext' := hnext
  cases hnext with
  | same => exact h
  | pass time => exact h.same hnext' rfl fun _ _ => id
  | turn => exact h.same hnext' rfl fun _ _ => id
  | proceed hd hgoing halive ending => exact h.same hnext' rfl fun _ _ => under_of_set hd rfl rfl
  | finish hd hgoing hover => exact h.same hnext' rfl fun _ _ => under_of_set hd rfl rfl
  | create machine name payload number =>
    refine h.same hnext' rfl fun other t hunder => ?_
    rcases under_add_iff.1 hunder with hunder | ⟨-, hsupervised, -⟩
    · exact hunder
    · cases hsupervised
  | forget hslips hkey hfree => exact h.count _ _
  | start machine payload number hkey hfree =>
    exact (h.count _ _).spawn (horderly.count _ _) hkey rfl
  | leave hexits he hcalm => exact h.vacate horderly hexits he
  | refuse hexits he hcount => exact (h.vacate horderly hexits he).count _ _
  | @restart t rest e fault hexits he hfailed hpolicy hfree hcount =>
    have hcounted := (h.vacate horderly hexits he).count e.name (r.recent e.name ++ [r.clock])
    have hkey := horderly.exit_isKey (hexits ▸ List.mem_cons_self) he
    have hspawned := hcounted.spawn (e := .new e.machine e.name e.payload none true)
      ((horderly.vacate hexits he).count e.name (r.recent e.name ++ [r.clock])) hkey rfl
    exact ⟨hspawned.newest, fun name t hname hnewest =>
      hspawned.stored name t hname ⟨hnewest.under, hnewest.top⟩⟩

end Roster
namespace Host

variable {h h' : Host} {t u : Nat} {task : Task} {name : Value}

/-! ## The newest of a name in a host -/

/-- A supervised instance goes by a name. -/
def Under (h : Host) (name : Value) (t : Nat) : Prop :=
  ∃ task, h.task? t = some task ∧ task.supervised = true ∧ task.inst.name.same name = true

/-- The instance that was started or restarted last under a name. -/
structure Newest (h : Host) (name : Value) (t : Nat) : Prop where
  under : h.Under name t
  top : ∀ u, h.Under name u → u ≤ t

/-- A task has ended, and the supervisor has learnt of it. -/
def Noticed (h : Host) (t : Nat) : Prop :=
  h.hasEnded t = true ∧ .exited t ∉ h.batch ++ h.ready

/-- Nothing follows from a task any more: the supervisor has learnt of its end, or will learn that it
ended without a crash, and the instance has stopped. -/
def Spent (h : Host) (t : Nat) : Prop :=
  h.Noticed t ∨ ∃ task ending, h.task? t = some task ∧ task.run = .ended ∧
    task.inst.alive = false ∧ task.inst.phase = .finished ending ∧ ∀ fault, ending ≠ .failed fault

/-- The supervisor learns of the crash of an instance, and restarts its name. -/
structure Revives (h : Host) (t : Nat) : Prop where
  running : h.running = none
  batch : ∃ rest, h.batch = .exited t :: rest
  crashed : ∃ task fault, h.task? t = some task ∧ task.inst.phase = .finished (.failed fault)
  came : h.tasks.length < h.step.tasks.length

/-- Some start of a name is accepted. -/
def StartedAgain (h : Host) (name : Value) (deeds : List Deed) : Prop :=
  ∃ before choice key payload behind, deeds = before ++ .start choice key payload :: behind ∧
    key.same name = true ∧
    ((h.after before).start choice key payload).2 = .ok (h.after before).tasks.length

/-- Some instance of a name that is older than another one, and whose end was not known at first,
turns out to have crashed and is restarted. -/
def BroughtBack (h : Host) (name : Value) (t : Nat) (deeds : List Deed) : Prop :=
  ∃ before behind u, deeds = before ++ .step :: behind ∧ u < t ∧ h.Under name u ∧
    ¬ h.Noticed u ∧ (h.after before).Revives u

theorem under_iff : h.Under name t ↔ h.roster.Under name t := by
  unfold Under Roster.Under
  rw [entries_get?]
  simp [Task.entry]

theorem newest_iff : h.Newest name t ↔ h.roster.Newest name t :=
  ⟨fun hnewest => ⟨under_iff.1 hnewest.under, fun u hu => hnewest.top u (under_iff.2 hu)⟩,
    fun hnewest => ⟨under_iff.2 hnewest.under, fun u hu => hnewest.top u (under_iff.1 hu)⟩⟩

theorem exits_iff : t ∈ h.roster.exits ↔ .exited t ∈ h.batch ++ h.ready := by
  unfold roster
  simp only [List.mem_filterMap]
  constructor
  · rintro ⟨j, hj, hexit⟩
    cases j with
    | exited u => exact Option.some.inj hexit ▸ hj
    | _ => cases hexit
  · exact fun hj => ⟨_, hj, rfl⟩

theorem learnt_iff (hunder : h.Under name t) : h.Noticed t ↔ h.roster.Learnt t := by
  obtain ⟨task, ht, -⟩ := hunder
  unfold Noticed Roster.Learnt hasEnded
  rw [← exits_iff, ht, entry_of_task ht]
  simp [Task.entry]

theorem current_opened (settings : Settings) (registry : Registry) (bus : Bus Observer) :
    (opened settings registry bus).roster.Current :=
  ⟨nofun, fun _ _ _ hnewest => absurd hnewest.under.lt (Nat.not_lt_zero _)⟩

theorem current_after (hsteady : h.Steady) (horderly : h.roster.Orderly)
    (hcurrent : h.roster.Current) (deeds : List Deed) : (h.after deeds).roster.Current := by
  have hboth := after_keeps_roster (P := fun r => r.Orderly ∧ r.Current) ?_ hsteady
    ⟨horderly, hcurrent⟩ deeds
  · exact hboth.2
  · rintro slips r r' ⟨horderly, hcurrent⟩ hnext
    exact ⟨horderly.next hnext, hcurrent.next horderly hnext⟩

theorem learnt_after (hsteady : h.Steady) (hlearnt : h.roster.Learnt t) (deeds : List Deed) :
    (h.after deeds).roster.Learnt t :=
  after_keeps_roster (P := fun r => r.Learnt t) (fun _ _ _ hlearnt hnext => hlearnt.next hnext)
    hsteady hlearnt deeds

theorem under_after (hsteady : h.Steady) (hunder : h.Under name t) (deeds : List Deed) :
    (h.after deeds).Under name t :=
  under_iff.2 (after_keeps_roster (P := fun r => r.Under name t)
    (fun _ _ _ hunder hnext => hunder.next hnext) hsteady (under_iff.1 hunder) deeds)

/-! ## The first to come -/

/-- If a run brings instances under a name, one of them comes first. -/
theorem Renewed.first {deeds : List Deed} (hrenewed : h.Renewed name deeds) :
    ∃ before d behind, deeds = before ++ d :: behind ∧ (h.after before).Renews name d ∧
      ¬ h.Renewed name before := by
  induction deeds generalizing h with
  | nil =>
    obtain ⟨before, d, behind, heq, -⟩ := hrenewed
    simp at heq
  | cons d deeds ih =>
    by_cases hnow : h.Renews name d
    · refine ⟨[], d, deeds, rfl, hnow, ?_⟩
      rintro ⟨before, e, behind, heq, -⟩
      simp at heq
    · have hlater : (h.act d).Renewed name deeds := by
        obtain ⟨before, e, behind, heq, hrenews⟩ := hrenewed
        cases before with
        | nil =>
          obtain ⟨rfl, -⟩ := List.cons.inj heq
          exact absurd hrenews hnow
        | cons d' before =>
          obtain ⟨rfl, rfl⟩ := List.cons.inj heq
          exact ⟨before, e, behind, rfl, hrenews⟩
      obtain ⟨before, e, behind, rfl, hrenews, hfirst⟩ := ih hlater
      refine ⟨d :: before, e, behind, rfl, hrenews, ?_⟩
      rintro ⟨before', e', behind', heq, hrenews'⟩
      cases before' with
      | nil =>
        obtain ⟨rfl, -⟩ := List.cons.inj heq
        exact hnow hrenews'
      | cons d' before' =>
        obtain ⟨rfl, rfl⟩ := List.cons.inj heq
        exact hfirst ⟨before', e', behind', rfl, hrenews'⟩

/-- Whoever goes by a name has been there from the start, or came with a start or a restart. -/
theorem under_before (hsteady : h.Steady) {deeds : List Deed} (hfirst : ¬ h.Renewed name deeds)
    (hunder : (h.after deeds).Under name u) : h.Under name u := by
  induction deeds generalizing h with
  | nil => exact hunder
  | cons d deeds ih =>
    have hmoves := moves_act hsteady d
    have hact : (h.act d).Under name u := by
      refine ih (hmoves.steady hsteady) ?_ hunder
      rintro ⟨before, e, behind, rfl, hrenews⟩
      exact hfirst ⟨d :: before, e, behind, rfl, hrenews⟩
    by_cases hlt : u < h.roster.entries.length
    · exact under_iff.2 ((under_iff.1 hact).before hmoves.next hlt)
    · obtain ⟨task, ht, hsupervised, hsame⟩ := hact
      rw [length_entries] at hlt
      have hnone : h.task? u = none := List.getElem?_eq_none_iff.2 (Nat.le_of_not_lt hlt)
      exact absurd ⟨[], d, deeds, rfl, renews_of_new hnone ht hsupervised hsame⟩ hfirst

/-! ## Who is restarted -/

/-- Whoever is stored under a name goes by it, and its end is not known. -/
theorem Attended.unnoticed (h₀ : h.Attended) (hname : name.IsName)
    (hheld : lookupName h.holders name = some t) : h.Under name t ∧ ¬ h.Noticed t := by
  obtain ⟨key, hmem, -⟩ := mem_of_lookupName hheld
  obtain ⟨e, he, hsupervised, -, hexits⟩ := h₀.orderly.stored _ hmem
  have hsame := h₀.orderly.name_of_holder hheld he
  have hunder : h.roster.Under name t := ⟨e, he, hsupervised, hsame⟩
  refine ⟨under_iff.2 hunder, fun hnoticed => ?_⟩
  obtain ⟨d, hd, hended, hunheard⟩ := (learnt_iff (under_iff.2 hunder)).1 hnoticed
  obtain rfl := Option.some.inj (he.symm.trans hd)
  have hkey := h₀.orderly.named t e he hsupervised
  exact hunheard (hexits (Value.isName_of_same hname.isKey (Value.same_symm hkey hsame)) hended)

/-- Of all instances of a name, none but the one that crashed is stored when the name is
restarted. -/
theorem Revives.free (hrevives : h.Revives t) (ht : h.task? t = some task)
    (hheld : lookupName h.holders task.inst.name = some u) : u = t := by
  obtain ⟨rest, hbatch⟩ := hrevives.batch
  obtain ⟨other, fault, hother, hphase⟩ := hrevives.crashed
  obtain rfl := Option.some.inj (ht.symm.trans hother)
  by_contra hne
  have hholders : (h.vacated t task.inst.name rest).holders = h.holders :=
    if_neg fun hself => hne (Option.some.inj (hheld.symm.trans hself))
  have hstep : h.step = (h.vacated t task.inst.name rest).afterCrash task fault := by
    have hexited : h.step = ({ h with batch := rest } : Host).exited t :=
      step_job hrevives.running hbatch
    rw [hexited, exited_eq ht, hphase]
  have hsame : h.step.tasks.length = h.tasks.length := by
    rw [hstep]
    unfold afterCrash
    cases (h.vacated t task.inst.name rest).settings.restart with
    | temporary => rfl
    | transient =>
      simp only [hholders, hheld, Option.isSome_some, if_true]
      rfl
  exact absurd hrevives.came (Nat.not_lt_of_ge (Nat.le_of_eq hsame))

theorem Revives.unnoticed (hrevives : h.Revives t) : ¬ h.Noticed t := by
  obtain ⟨rest, hbatch⟩ := hrevives.batch
  exact fun hnoticed => hnoticed.2 (by simp [hbatch])

theorem Revives.under (hrevives : h.Revives t) (h₀ : h.Attended) (ht : h.task? t = some task)
    (hsame : task.inst.name.same name = true) : h.Under name t := by
  obtain ⟨rest, hbatch⟩ := hrevives.batch
  obtain ⟨e, he, hsupervised, -⟩ := h₀.orderly.exits t (exits_of_batch hbatch ▸ List.mem_cons_self)
  obtain rfl := Option.some.inj ((entry_of_task ht).symm.trans he)
  exact ⟨task, ht, hsupervised, hsame⟩

/-- A name that is alive though none of those is that held it before has been started since, or some
instance of it whose end was not known has been restarted. -/
theorem Attended.comes_back (h₀ : h.Attended) {deeds : List Deed}
    (hgone : ∀ u task old, (h.after deeds).holder? name = some (u, task) →
      h.holder? name = some (u, old) → task.inst.alive = true → old.inst.alive = true → False)
    (halive : (h.after deeds).isAlive name = .ok true) :
    h.StartedAgain name deeds ∨ ∃ before behind u, deeds = before ++ .step :: behind ∧
      h.Under name u ∧ ¬ h.Noticed u ∧ (h.after before).Revives u := by
  obtain ⟨u, task, hholder, hlive⟩ := holder_of_isAlive halive
  have hle : h.tasks.length ≤ u := by
    by_contra hlt
    obtain ⟨old, hold, hlive'⟩ := h₀.held_before (Nat.lt_of_not_le hlt) hholder
    exact hgone u task old hholder hold hlive (hlive' hlive)
  obtain ⟨before, d, behind, rfl, hrenews, hfirst⟩ :=
    (renewed_of_holder h₀ (lookup_of_holder? hholder).1 hle).first
  cases hrenews with
  | start hsame haccepted => exact .inl ⟨before, _, _, _, behind, rfl, hsame, haccepted⟩
  | @restart t rest old fault hpolicy hrunning hbatch ht hsame hcrashed hcame =>
    have hrevives : (h.after before).Revives t :=
      ⟨hrunning, ⟨rest, hbatch⟩, ⟨old, fault, ht, hcrashed⟩, hcame⟩
    have hunder := under_before h₀.steady hfirst
      (hrevives.under (h₀.after before).1 ht hsame)
    refine .inr ⟨before, behind, t, rfl, hunder, fun hnoticed => ?_, hrevives⟩
    have hlearnt := learnt_after h₀.steady ((learnt_iff hunder).1 hnoticed) before
    exact hrevives.unnoticed ((learnt_iff (under_after h₀.steady hunder before)).2 hlearnt)

/-! ## The law of restarts -/

/-- Whom a restart follows, and when a name is alive again. -/
structure RestartsTheNewest (h : Host) : Prop where
  /-- The newest instance of a name is stored under it until the supervisor learns of its end, and
  nobody else ever is. -/
  stored : ∀ (name : Value) (t : Nat), name.IsName → h.Newest name t →
    (lookupName h.holders name = some t ∨ h.Noticed t) ∧
    ∀ u, lookupName h.holders name = some u → u = t
  /-- When a name is restarted after the crash of an instance, the instance is the newest of its
  name, or the supervisor has learnt that the newest has ended. -/
  restart : ∀ (t u : Nat) (task : Task), h.Revives t → h.task? t = some task →
    task.inst.name.IsName → h.Newest task.inst.name u → u = t ∨ t < u ∧ h.Noticed u
  /-- Once the newest instance of a name is spent, the name is alive again only if it is started
  again, or if an older instance, whose end was not known, turns out to have crashed and is
  restarted. -/
  later : ∀ (name : Value) (t : Nat) (deeds : List Deed), name.IsName → h.Newest name t →
    h.Spent t → (h.after deeds).isAlive name = .ok true →
    h.StartedAgain name deeds ∨ h.BroughtBack name t deeds
  /-- Once the ends of all instances of a name are known, the name is alive again only if it is
  started again. -/
  known : ∀ (name : Value) (deeds : List Deed), name.IsName →
    (∀ u, h.Under name u → h.Noticed u) → (h.after deeds).isAlive name = .ok true →
    h.StartedAgain name deeds

namespace Attended

theorem newest_of_holder (h₀ : h.Attended) (hcurrent : h.roster.Current) (hname : name.IsName)
    (hnewest : h.Newest name t) (hheld : lookupName h.holders name = some u) : u = t := by
  have hle := hnewest.top u (h₀.unnoticed hname hheld).1
  have hge := hcurrent.newest name u t hname hheld (under_iff.1 hnewest.under)
  omega

theorem restarts_newest (h₀ : h.Attended) (hcurrent : h.roster.Current) (hrevives : h.Revives t)
    (ht : h.task? t = some task) (hname : task.inst.name.IsName)
    (hnewest : h.Newest task.inst.name u) : u = t ∨ t < u ∧ h.Noticed u := by
  have hle := hnewest.top t (hrevives.under h₀ ht hname.refl)
  rcases hcurrent.stored _ u hname (newest_iff.1 hnewest) with hheld | hlearnt
  · exact .inl (hrevives.free ht hheld)
  · by_cases heq : u = t
    · exact .inl heq
    · exact .inr ⟨by omega, (learnt_iff hnewest.under).2 hlearnt⟩

theorem alive_again (h₀ : h.Attended) (hcurrent : h.roster.Current) (hname : name.IsName)
    (hnewest : h.Newest name t) (hspent : h.Spent t) {deeds : List Deed}
    (halive : (h.after deeds).isAlive name = .ok true) :
    h.StartedAgain name deeds ∨ h.BroughtBack name t deeds := by
  refine (h₀.comes_back ?_ halive).imp_right ?_
  · intro u task old _ hold _ hlive
    obtain ⟨hheld, hu⟩ := lookup_of_holder? hold
    obtain rfl := h₀.newest_of_holder hcurrent hname hnewest hheld
    rcases hspent with hnoticed | ⟨other, ending, hother, -, hstopped, -⟩
    · exact (h₀.unnoticed hname hheld).2 hnoticed
    · obtain rfl := Option.some.inj (hu.symm.trans hother)
      cases hstopped.symm.trans hlive
  · rintro ⟨before, behind, u, hdeeds, hunder, hunnoticed, hrevives⟩
    refine ⟨before, behind, u, hdeeds, ?_, hunder, hunnoticed, hrevives⟩
    have hle := hnewest.top u hunder
    by_contra hge
    obtain rfl : u = t := by omega
    rcases hspent with hnoticed | ⟨old, ending, hold, hended, -, hphase, hcalm⟩
    · exact hunnoticed hnoticed
    -- the end of the newest is no crash, and stays what it is
    · obtain ⟨task, fault, ht, hcrashed⟩ := hrevives.crashed
      obtain ⟨e, he, hbecomes⟩ := entry_after h₀.steady (entry_of_task hold) before
      obtain rfl := Option.some.inj ((entry_of_task ht).symm.trans he)
      have hentry := hbecomes.ended (by simp [Task.entry, hended])
      have hending := congrArg Entry.ending hentry
      simp only [Task.entry, Instance.ending, hphase, hcrashed, Option.some.injEq] at hending
      exact hcalm fault hending.symm

theorem started_again (h₀ : h.Attended) (hname : name.IsName)
    (hknown : ∀ u, h.Under name u → h.Noticed u) {deeds : List Deed}
    (halive : (h.after deeds).isAlive name = .ok true) : h.StartedAgain name deeds := by
  have hgone : ∀ u old, h.holder? name ≠ some (u, old) := by
    intro u old hold
    obtain ⟨hunder, hunnoticed⟩ := h₀.unnoticed hname (lookup_of_holder? hold).1
    exact hunnoticed (hknown u hunder)
  rcases h₀.comes_back (fun u _ old _ hold _ _ => hgone u old hold) halive with
    hstarted | ⟨before, behind, u, -, hunder, hunnoticed, -⟩
  · exact hstarted
  · exact absurd (hknown u hunder) hunnoticed

end Attended

/-- However long crashed instances take to end, and whoever comes and goes in the meantime: a restart
follows the crash of the newest instance of its name, or finds the newest one gone. -/
theorem restarts_follow_the_newest (settings : Settings) (registry : Registry) (bus : Bus Observer)
    (deeds : List Deed) : ((opened settings registry bus).after deeds).RestartsTheNewest := by
  obtain ⟨h₀, -⟩ := (attended_opened settings registry bus).after deeds
  have hcurrent := current_after (steady_opened settings registry bus)
    (orderly_opened settings registry bus) (current_opened settings registry bus) deeds
  exact {
    stored := fun name t hname hnewest =>
      ⟨(hcurrent.stored name t hname (newest_iff.1 hnewest)).imp_right
        (learnt_iff hnewest.under).2,
        fun u => h₀.newest_of_holder hcurrent hname hnewest⟩
    restart := fun t u task hrevives ht hname hnewest =>
      h₀.restarts_newest hcurrent hrevives ht hname hnewest
    later := fun name t deeds hname hnewest hspent => h₀.alive_again hcurrent hname hnewest hspent
    known := fun name deeds hname hknown => h₀.started_again hname hknown }

/-- An instance crashes, and its terminate hook waits. Meanwhile another one is started under its
name and stopped. When the hook is through, the supervisor restarts the first instance, though it was
not the last one under the name, and the name is alive without a start. -/
theorem a_straggler_brings_its_name_back :
    let table : Table := ⟨"a", [⟨"a", "go", .state "a"⟩], []⟩
    let first := Machine.ofTable "t" table
      { onTransition := some ⟨.rules, fun _ _ => { result := .error (.plain .exhausted "") }⟩
        onTerminate := some ⟨.rules, fun _ _ => { pause := .seconds (.whole 10), result := .ok () }⟩ }
    let second := Machine.ofTable "u" table {}
    let h := opened ⟨.whole 5, .transient, .whole 3, .whole 5⟩ [] {}
    let crashed := h.after (.start (.given first) (.text "x") .null :: List.replicate 6 .step ++
      .send ⟨.text "x", .text "go", .null⟩ :: List.replicate 6 .step)
    let stopped := crashed.after (.start (.given second) (.text "x") .null ::
      List.replicate 6 .step ++ .stop (.text "x") none :: List.replicate 20 .step)
    let later := stopped.after (.pass 10 :: List.replicate 20 .step)
    ((match stopped.task? 0, stopped.task? 1 with
      | some old, some new => old.supervised && new.supervised && new.run = .ended &&
          new.inst.stopReason = some .stop
      | _, _ => false) && stopped.tasks.length = 2 && stopped.names.isEmpty) = true ∧
    (match later.isAlive (.text "x"), later.task? 2 with
      | .ok alive, some back => alive && back.inst.machine.name = "t"
      | _, _ => false) = true := by
  intro table first second h crashed stopped later
  exact ⟨by decide +kernel, by decide +kernel⟩

end Host
end Turnstile
