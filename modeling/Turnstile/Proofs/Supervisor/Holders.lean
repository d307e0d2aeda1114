-- Who holds a name: every supervised instance that is alive and not over is the one stored under
-- its name, so that a name has one instance at most and none is lost. Starting, asking whether a
-- name is alive, listing the names and sending agree on that.
import Turnstile.Proofs.Supervisor.Names
import Turnstile.Proofs.Supervisor.Noticed

namespace Turnstile

section
variable {α : Type} {entries : List (Value × α)} {name other : Value}

/-- Equal names find the same. -/
theorem lookupName_congr (hkeys : ∀ p ∈ entries, p.1.isKey = true) (hname : name.isKey = true)
    (hsame : name.same other = true) : lookupName entries name = lookupName entries other := by
  induction entries with
  | nil => rfl
  | cons p entries ih =>
    obtain ⟨key, x⟩ := p
    have hkey : key.isKey = true := hkeys (key, x) List.mem_cons_self
    rw [lookupName_cons, lookupName_cons, ih fun p hp => hkeys p (List.mem_cons_of_mem _ hp)]
    by_cases hfound : key.same name = true
    · rw [if_pos hfound, if_pos (Value.same_trans hkey hfound hsame)]
    · have hdiff : ¬ key.same other = true := fun h =>
        hfound (Value.same_trans hkey h (Value.same_symm hname hsame))
      rw [if_neg hfound, if_neg hdiff]

end

namespace Roster

variable {slips : Prop} {r r' : Roster} {t u : Nat} {e : Entry} {name : Value}

/-! ## Order among the holders -/

/-- What is true of the names at any time. The number that is no number is no name: it is not
equal to itself, and nothing is found under it. -/
structure Orderly (r : Roster) : Prop where
  apart : Apart r.holders
  named : ∀ (t : Nat) (e : Entry), r.entries[t]? = some e → e.supervised = true →
    e.name.isKey = true
  once : r.exits.Nodup
  exits : ∀ t ∈ r.exits, ∃ e, r.entries[t]? = some e ∧ e.supervised = true ∧ e.ended = true
  stored : ∀ p ∈ r.holders, ∃ e, r.entries[p.2]? = some e ∧ e.supervised = true ∧
    (p.1 = e.name ∨ p.1.same e.name = true) ∧
    (e.name.IsName → e.ended = true → p.2 ∈ r.exits)
  held : ∀ (t : Nat) (e : Entry), r.entries[t]? = some e → e.supervised = true → e.name.IsName →
    e.alive = true → e.ended = false → lookupName r.holders e.name = some t

theorem Orderly.lt (h : r.Orderly) (hexit : t ∈ r.exits) : t < r.entries.length := by
  obtain ⟨e, he, -⟩ := h.exits t hexit
  exact (List.getElem?_eq_some_iff.1 he).1

theorem Orderly.exit_isKey (h : r.Orderly) (hexit : t ∈ r.exits) (he : r.entries[t]? = some e) :
    e.name.isKey = true := by
  obtain ⟨d, hd, hsupervised, -⟩ := h.exits t hexit
  obtain rfl := Option.some.inj (he.symm.trans hd)
  exact h.named t e he hsupervised

theorem Orderly.stored_lt (h : r.Orderly) {p : Value × Nat} (hp : p ∈ r.holders) :
    p.2 < r.entries.length := by
  obtain ⟨e, he, -⟩ := h.stored p hp
  exact (List.getElem?_eq_some_iff.1 he).1

theorem Orderly.name_of_holder (h : r.Orderly) (hheld : lookupName r.holders name = some t)
    (he : r.entries[t]? = some e) : e.name.same name = true := by
  obtain ⟨key, hmem, hsame⟩ := mem_of_lookupName hheld
  obtain ⟨d, hd, -, hwhose, -⟩ := h.stored _ hmem
  obtain rfl := Option.some.inj (he.symm.trans hd)
  have hkey := h.apart.1 _ hmem
  rcases hwhose with heq | hsame'
  · have heq : key = e.name := heq
    rwa [← heq]
  · have hname := Value.same_isKey hsame' hkey
    exact Value.same_trans hname (Value.same_symm hkey hsame') hsame

/-- The name of a holder whose end becomes known is free. -/
theorem vacate_free (h : r.Orderly) (hkey : e.name.isKey = true) (hsame : e.name.same name = true)
    (hheld : lookupName r.holders name = some t) (rest : List Nat) :
    lookupName (r.vacate t e.name rest).holders e.name = none := by
  have hself := Value.same_trans hkey hsame (Value.same_symm hkey hsame)
  have hcurrent := (lookupName_congr h.apart.1 hkey hsame).trans hheld
  unfold vacate
  simp only [if_pos hcurrent]
  rw [lookupName_eraseName h.apart.1 hkey, if_pos hself]

/-! ## Every move keeps it -/

theorem Orderly.not_exit (h : r.Orderly) (he : r.entries[t]? = some e) (hgoing : e.ended = false) :
    t ∉ r.exits := by
  intro hmem
  obtain ⟨d, hd, -, hover⟩ := h.exits t hmem
  obtain rfl := Option.some.inj (he.symm.trans hd)
  rw [hgoing] at hover
  cases hover

/-- The entry of a task that goes on changes, and keeps what it is. The supervisor is to learn of
its end. -/
theorem Orderly.set (h : r.Orderly) (he : r.entries[t]? = some e) (hgoing : e.ended = false)
    (e' : Entry) (hname : e'.name = e.name) (hsupervised : e'.supervised = e.supervised)
    (halive : e'.alive = true → e.alive = true) {more : List Nat}
    (hmore : more = if e'.ended = true ∧ e.supervised = true then [t] else []) :
    ({ r with entries := r.entries.set t e', exits := r.exits ++ more } : Roster).Orderly := by
  have hlt := (List.getElem?_eq_some_iff.1 he).1
  have hself : (r.entries.set t e')[t]? = some e' := List.getElem?_set_self hlt
  have hother : ∀ {u}, u ≠ t → (r.entries.set t e')[u]? = r.entries[u]? := fun hne =>
    List.getElem?_set_ne (Ne.symm hne)
  have hmem : ∀ u ∈ more, u = t ∧ e'.ended = true ∧ e.supervised = true := by
    intro u hu
    rw [hmore] at hu
    split at hu
    · rename_i hboth
      exact ⟨List.mem_singleton.1 hu, hboth⟩
    · cases hu
  refine ⟨h.apart, ?_, ?_, ?_, ?_, ?_⟩
  · intro u d hd hsup
    by_cases hu : u = t
    · subst hu
      obtain rfl := Option.some.inj (hself.symm.trans hd)
      rw [hname]
      exact h.named u e he (hsupervised ▸ hsup)
    · exact h.named u d ((hother hu).symm.trans hd) hsup
  · refine List.nodup_append.2 ⟨h.once, ?_, ?_⟩
    · rw [hmore]
      split
      · exact List.pairwise_singleton _ t
      · exact List.nodup_nil
    · rintro u hu _ hu' rfl
      exact h.not_exit he hgoing ((hmem u hu').1 ▸ hu)
  · intro u hu
    rcases List.mem_append.1 hu with hu | hu
    · obtain ⟨d, hd, hsup, hover⟩ := h.exits u hu
      have hne : u ≠ t := by
        rintro rfl
        obtain rfl := Option.some.inj (he.symm.trans hd)
        rw [hgoing] at hover
        cases hover
      exact ⟨d, (hother hne).trans hd, hsup, hover⟩
    · obtain ⟨rfl, hover, hsup⟩ := hmem u hu
      exact ⟨e', hself, hsupervised.trans hsup, hover⟩
  · intro p hp
    obtain ⟨d, hd, hsup, hkey, hover⟩ := h.stored p hp
    by_cases hu : p.2 = t
    · obtain rfl := Option.some.inj (he.symm.trans (hu ▸ hd))
      refine ⟨e', hu ▸ hself, hsupervised.trans hsup, hname ▸ hkey, fun _ hover' => ?_⟩
      rw [hmore, if_pos ⟨hover', hsup⟩, hu]
      exact List.mem_append_right _ (List.mem_singleton_self t)
    · exact ⟨d, (hother hu).trans hd, hsup, hkey, fun hisName hover' =>
        List.mem_append_left _ (hover hisName hover')⟩
  · intro u d hd hsup hisName hlive hover
    by_cases hu : u = t
    · subst hu
      obtain rfl := Option.some.inj (hself.symm.trans hd)
      rw [hname]
      exact h.held u e he (hsupervised ▸ hsup) (hname ▸ hisName) (halive hlive) hgoing
    · exact h.held u d ((hother hu).symm.trans hd) hsup hisName hlive hover

/-- A task comes that does not hold a name. -/
theorem Orderly.add (h : r.Orderly) (hsupervised : e.supervised = false) : (r.add e).Orderly := by
  have hold : ∀ {u : Nat} {d : Entry}, r.entries[u]? = some d →
      (r.add e).entries[u]? = some d := fun hd =>
    (List.getElem?_append_left (List.getElem?_eq_some_iff.1 hd).1).trans hd
  have hnew : ∀ {u : Nat} {d : Entry}, (r.add e).entries[u]? = some d → d.supervised = true →
      r.entries[u]? = some d := by
    intro u d hd hsup
    by_cases hlt : u < r.entries.length
    · rwa [show (r.add e).entries[u]? = _ from List.getElem?_append_left hlt] at hd
    · rw [show (r.add e).entries[u]? = _ from List.getElem?_append_right (by omega)] at hd
      have hmem := List.mem_of_getElem? hd
      rw [List.mem_singleton.1 hmem, hsupervised] at hsup
      cases hsup
  refine ⟨h.apart, fun u d hd hsup => h.named u d (hnew hd hsup) hsup, h.once, ?_, ?_, ?_⟩
  · intro u hu
    obtain ⟨d, hd, hrest⟩ := h.exits u hu
    exact ⟨d, hold hd, hrest⟩
  · intro p hp
    obtain ⟨d, hd, hrest⟩ := h.stored p hp
    exact ⟨d, hold hd, hrest⟩
  · exact fun u d hd hsup => h.held u d (hnew hd hsup) hsup

/-- A new task takes a name that nobody alive holds. -/
theorem Orderly.spawn (h : r.Orderly) (hkey : e.name.isKey = true)
    (hsupervised : e.supervised = true) (hgoing : e.ended = false)
    (hfree : r.IsFree e.name) : (r.spawn e).Orderly := by
  have hself : (r.spawn e).entries[r.entries.length]? = some e := List.getElem?_concat_length
  have hold : ∀ {u : Nat} {d : Entry}, r.entries[u]? = some d →
      (r.spawn e).entries[u]? = some d := fun hd =>
    (List.getElem?_append_left (List.getElem?_eq_some_iff.1 hd).1).trans hd
  have hnew : ∀ {u : Nat} {d : Entry}, (r.spawn e).entries[u]? = some d →
      r.entries[u]? = some d ∨ u = r.entries.length ∧ d = e := by
    intro u d hd
    by_cases hlt : u < r.entries.length
    · exact .inl ((List.getElem?_append_left hlt).symm.trans hd)
    · have hright : [e][u - r.entries.length]? = some d :=
        (List.getElem?_append_right (Nat.le_of_not_lt hlt)).symm.trans hd
      have hu : u - r.entries.length < 1 := (List.getElem?_eq_some_iff.1 hright).1
      obtain rfl : u = r.entries.length := by omega
      exact .inr ⟨rfl, (Option.some.inj (hself.symm.trans hd)).symm⟩
  refine ⟨h.apart.set hkey _, ?_, h.once, ?_, ?_, ?_⟩
  · intro u d hd hsup
    rcases hnew hd with hd | ⟨-, rfl⟩
    · exact h.named u d hd hsup
    · exact hkey
  · intro u hu
    obtain ⟨d, hd, hrest⟩ := h.exits u hu
    exact ⟨d, hold hd, hrest⟩
  · intro p hp
    rcases mem_setName hp with hp | ⟨htask, hwhose⟩
    · obtain ⟨d, hd, hrest⟩ := h.stored p hp
      exact ⟨d, hold hd, hrest⟩
    · refine ⟨e, htask ▸ hself, hsupervised, hwhose.imp id And.left, fun _ hover => ?_⟩
      rw [hgoing] at hover
      cases hover
  · intro u d hd hsup hisName hlive hover
    show lookupName (setName r.holders e.name r.entries.length) d.name = some u
    rw [lookupName_setName h.apart.1 hkey]
    rcases hnew hd with hd | ⟨rfl, rfl⟩
    · have hheld := h.held u d hd hsup hisName hlive hover
      have hdiff : ¬ e.name.same d.name = true := by
        intro hsame
        have hother := hfree u d ((lookupName_congr h.apart.1 hkey hsame).trans hheld) hd
        rw [hlive] at hother
        cases hother
      rw [if_neg hdiff]
      exact hheld
    · rw [if_pos hisName.refl]

/-- The end of a task becomes known. -/
theorem Orderly.vacate (h : r.Orderly) {rest : List Nat} (hexits : r.exits = t :: rest)
    (he : r.entries[t]? = some e) : (r.vacate t e.name rest).Orderly := by
  have hmem : t ∈ r.exits := hexits ▸ List.mem_cons_self
  obtain ⟨d, hd, hsup, hover⟩ := h.exits t hmem
  obtain rfl := Option.some.inj (he.symm.trans hd)
  have hkey := h.named t e he hsup
  have hholders : ∀ p ∈ (r.vacate t e.name rest).holders, p ∈ r.holders := by
    intro p hp
    unfold Roster.vacate at hp
    simp only at hp
    split at hp
    · exact (List.mem_filter.1 hp).1
    · exact hp
  refine ⟨?_, h.named, (List.nodup_cons.1 (hexits ▸ h.once)).2,
    fun u hu => h.exits u (hexits ▸ List.mem_cons_of_mem _ hu), ?_, ?_⟩
  · unfold Roster.vacate
    simp only
    split
    · exact h.apart.erase _
    · exact h.apart
  · intro p hp
    obtain ⟨d, hd, hsup', hwhose, hover'⟩ := h.stored p (hholders p hp)
    refine ⟨d, hd, hsup', hwhose, fun hisName hended => ?_⟩
    rcases List.mem_cons.1 (hexits ▸ hover' hisName hended) with hpt | hrest
    · -- the task is stored under its own name, and that entry has just gone
      exfalso
      obtain rfl := Option.some.inj (he.symm.trans (hpt ▸ hd))
      have hsame : p.1.same e.name = true := hwhose.elim (fun heq => heq ▸ hisName.refl) id
      have hcurrent : lookupName r.holders e.name = some t :=
        lookupName_of_mem h.apart (hpt ▸ hholders p hp) hsame
      unfold Roster.vacate at hp
      simp only [if_pos hcurrent] at hp
      simpa [hsame] using (List.mem_filter.1 hp).2
    · exact hrest
  · intro u d hd hsup' hisName hlive hgoing
    have hheld := h.held u d hd hsup' hisName hlive hgoing
    unfold Roster.vacate
    simp only
    split
    · rename_i hcurrent
      rw [lookupName_eraseName h.apart.1 hkey]
      have hdiff : ¬ e.name.same d.name = true := by
        intro hsame
        have hsome := (lookupName_congr h.apart.1 hkey hsame).symm.trans hcurrent
        obtain rfl : u = t := Option.some.inj (hheld.symm.trans hsome)
        obtain rfl := Option.some.inj (he.symm.trans hd)
        rw [hgoing] at hover
        cases hover
      rw [if_neg hdiff]
      exact hheld
    · exact hheld

theorem Orderly.count (h : r.Orderly) (name : Value) (times : List Rat) :
    (r.count name times).Orderly := ⟨h.apart, h.named, h.once, h.exits, h.stored, h.held⟩

/-- Every move of the supervisor keeps the names in order. -/
theorem Orderly.next (h : r.Orderly) (hnext : r.Next slips r') : r'.Orderly := by
  cases hnext with
  | same => exact h
  | pass time => exact ⟨h.apart, h.named, h.once, h.exits, h.stored, h.held⟩
  | turn => exact ⟨h.apart, h.named, h.once, h.exits, h.stored, h.held⟩
  | @proceed t e he hgoing alive halive ending =>
    have hset := h.set he hgoing { e with alive := alive, ending := ending } rfl rfl halive rfl
    have hstays : ¬ (e.ended = true ∧ e.supervised = true) := fun hboth => by
      cases hgoing.symm.trans hboth.1
    rwa [if_neg hstays, List.append_nil] at hset
  | @finish t e he hgoing hover =>
    exact h.set he hgoing { e with ended := true } rfl rfl id (by simp)
  | create machine name payload number => exact h.add rfl
  | forget hslips hkey hfree => exact h.count _ _
  | start machine payload number hkey hfree => exact (h.count _ _).spawn hkey rfl rfl hfree
  | leave hexits he hcalm => exact h.vacate hexits he
  | refuse hexits he hcount => exact (h.vacate hexits he).count _ _
  | @restart t rest e fault hexits he hfailed hpolicy hfree hcount =>
    have hcounted := (h.vacate hexits he).count e.name (r.recent e.name ++ [r.clock])
    have hkey := h.exit_isKey (hexits ▸ List.mem_cons_self) he
    have hspawned := hcounted.spawn (e := .new e.machine e.name e.payload none true) hkey rfl rfl
      fun u d hheld => by cases hfree.symm.trans hheld
    exact ⟨hspawned.apart, hspawned.named, hspawned.once, hspawned.exits, hspawned.stored,
      hspawned.held⟩

/-! ## Who left does not come back -/

/-- A task that is not stored. -/
def Left (r : Roster) (t : Nat) : Prop := t < r.entries.length ∧ ∀ p ∈ r.holders, p.2 ≠ t

theorem Left.spawn (h : r.Left t) (e : Entry) : (r.spawn e).Left t := by
  refine ⟨?_, fun p hp => ?_⟩
  · have hlt := h.1
    simp only [Roster.spawn, Roster.add, List.length_append]
    omega
  · rcases mem_setName hp with hp | ⟨hnew, -⟩
    · exact h.2 p hp
    · rw [hnew]
      exact Nat.ne_of_gt h.1

theorem Left.vacate (h : r.Left t) (u : Nat) (name : Value) (rest : List Nat) :
    (r.vacate u name rest).Left t := by
  refine ⟨h.1, fun p hp => ?_⟩
  unfold Roster.vacate at hp
  simp only at hp
  split at hp
  · exact h.2 p (List.mem_filter.1 hp).1
  · exact h.2 p hp

theorem Left.count (h : r.Left t) (name : Value) (times : List Rat) :
    (r.count name times).Left t := h

theorem Left.next (h : r.Left t) (hnext : r.Next slips r') : r'.Left t := by
  cases hnext with
  | same => exact h
  | pass time => exact h
  | turn => exact h
  | proceed he hgoing halive ending => exact ⟨by simpa using h.1, h.2⟩
  | finish he hgoing hover => exact ⟨by simpa using h.1, h.2⟩
  | create machine name payload number =>
    refine ⟨?_, h.2⟩
    have hlt := h.1
    simp only [Roster.add, List.length_append]
    omega
  | forget hslips hkey hfree => exact h
  | start machine payload number hkey hfree => exact (h.count _ _).spawn _
  | leave hexits he hcalm => exact h.vacate _ _ _
  | refuse hexits he hcount => exact (h.vacate _ _ _).count _ _
  | restart hexits he hfailed hpolicy hfree hcount =>
    exact (((h.vacate _ _ _).count _ _).spawn _ :)

/-! ## Restarts -/

/-- A task comes, and nobody started it: it was restarted. -/
theorem Next.of_came (hnext : r.Next slips r') (he : r'.entries[r.entries.length]? = some e)
    (hsupervised : e.supervised = true) (hnumber : e.number = none) :
    ∃ (t : Nat) (rest : List Nat) (d : Entry), r.exits = t :: rest ∧ r.entries[t]? = some d ∧
      e = .new d.machine d.name d.payload none true ∧
      r' = { ((r.vacate t d.name rest).count d.name (r.recent d.name ++ [r.clock])).spawn e with
        announcements := r.announcements ++ [(d.name, (r.recent d.name).length + 1)] } := by
  have hstill : r'.entries.length ≠ r.entries.length := fun hlength => by
    rw [List.getElem?_eq_none (Nat.le_of_eq hlength)] at he
    cases he
  have hcame : ∀ {new}, r'.entries = r.entries ++ [new] → new = e := fun hentries => by
    rw [hentries, List.getElem?_concat_length] at he
    exact Option.some.inj he
  cases hnext with
  | create machine other payload number =>
    rw [← hcame rfl] at hsupervised
    cases hsupervised
  | start machine payload number hkey hfree =>
    rw [← hcame rfl] at hnumber
    cases hnumber
  | @restart t rest d fault hexits hd hfailed hpolicy hfree hcount =>
    obtain rfl := hcame rfl
    exact ⟨t, rest, d, hexits, hd, rfl, rfl⟩
  | proceed => exact absurd (List.length_set ..) hstill
  | finish => exact absurd (List.length_set ..) hstill
  | _ => exact absurd rfl hstill

/-- The end of the holder of a name becomes known, it had crashed, and crashes are made good: the
holder has an heir, or its window is full. -/
theorem Next.of_crash (hnext : r.Next slips r') (horderly : r.Orderly) {rest : List Nat}
    (hexits : r.exits = t :: rest) (hexits' : r'.exits = rest) (he : r.entries[t]? = some e)
    {fault : Fault} (hfailed : e.ending = some (.failed fault))
    (hheld : lookupName r.holders name = some t) (hpolicy : r.settings.restart = .transient) :
    r.settings.maxRestarts.leRat (r.recent e.name).length = true ∨
      r'.entries = r.entries ++ [.new e.machine e.name e.payload none true] := by
  have hmoved : r'.exits ≠ r.exits := by
    rw [hexits', hexits]
    simp
  have hsame := horderly.name_of_holder hheld he
  have hkey := horderly.exit_isKey (hexits ▸ List.mem_cons_self) he
  cases hnext with
  | @leave u rest' d hexits'' hd hcalm =>
    obtain ⟨rfl, rfl⟩ := List.cons.inj (hexits.symm.trans hexits'')
    obtain rfl := Option.some.inj (he.symm.trans hd)
    exact absurd (vacate_free horderly hkey hsame hheld rest) (hcalm ⟨fault, hfailed⟩ hpolicy)
  | @refuse u rest' d hexits'' hd hcount =>
    obtain ⟨rfl, rfl⟩ := List.cons.inj (hexits.symm.trans hexits'')
    obtain rfl := Option.some.inj (he.symm.trans hd)
    exact .inl hcount
  | @restart u rest' d fault' hexits'' hd hfailed' hpolicy' hfree hcount =>
    obtain ⟨rfl, rfl⟩ := List.cons.inj (hexits.symm.trans hexits'')
    obtain rfl := Option.some.inj (he.symm.trans hd)
    exact .inr rfl
  | finish hd hgoing hover =>
    have hlength := congrArg List.length hexits'
    rw [hexits] at hlength
    simp at hlength
    omega
  | _ => exact absurd rfl hmoved

end Roster

namespace Host

variable {h h' : Host} {t u : Nat} {task : Task} {name : Value}

/-! ## The names of a host -/

theorem orderly_opened (settings : Settings) (registry : Registry) (bus : Bus Observer) :
    (opened settings registry bus).roster.Orderly := by
  refine ⟨⟨nofun, List.Pairwise.nil⟩, ?_, List.nodup_nil, nofun, nofun, ?_⟩
  all_goals
    intro t e he
    cases he

theorem orderly_after (hsteady : h.Steady) (horderly : h.roster.Orderly) (deeds : List Deed) :
    (h.after deeds).roster.Orderly :=
  after_keeps_roster (P := Roster.Orderly) (fun _ _ _ horderly hnext => horderly.next hnext) hsteady
    horderly deeds

/-- A supervised instance is alive, and its task is not over. -/
def Runs (h : Host) (t : Nat) (name : Value) : Prop :=
  ∃ task, h.task? t = some task ∧ task.supervised = true ∧ task.inst.name = name ∧
    task.inst.alive = true ∧ task.run ≠ .ended

/-- The fault of starting under a name that is taken. -/
def taken (name : Value) (running : Machine) : Fault :=
  .reported (LookupFault.nameTaken name running.name).report

theorem runs_entry (hruns : h.Runs t name) : ∃ e, h.roster.entries[t]? = some e ∧
    e.supervised = true ∧ e.name = name ∧ e.alive = true ∧ e.ended = false := by
  obtain ⟨task, ht, hsupervised, hname, halive, hended⟩ := hruns
  exact ⟨task.entry, entry_of_task ht, hsupervised, hname, halive,
    by simpa [Task.entry] using hended⟩

theorem holder_of_runs (horderly : h.roster.Orderly) (hname : name.IsName) (hruns : h.Runs t name) :
    lookupName h.holders name = some t := by
  obtain ⟨e, he, hsupervised, rfl, halive, hended⟩ := runs_entry hruns
  exact horderly.held t e he hsupervised hname halive hended

/-! ## Starting -/

theorem task?_spawn (h : Host) (machine : Machine) (name payload : Value) (number : Option Nat) :
    (h.spawn machine name payload number).1.task? h.tasks.length = some {
      inst := .create machine name payload
      number := number
      supervised := true
      outlet := .shared
      run := .queued false } := List.getElem?_concat_length

/-- The new instance holds its name, and runs. -/
theorem spawn_runs (horderly : h.roster.Orderly) (machine : Machine) (hname : name.IsName)
    (payload : Value) (number : Option Nat) :
    (∃ task, (h.spawn machine name payload number).1.holder? name = some (h.tasks.length, task) ∧
      task.inst = .create machine name payload) ∧
    (h.spawn machine name payload number).1.Runs h.tasks.length name := by
  have htask := task?_spawn h machine name payload number
  have hheld : lookupName (h.spawn machine name payload number).1.holders name =
      some h.tasks.length := by
    exact (lookupName_setName horderly.apart.1 hname.isKey).trans (if_pos hname.refl)
  exact ⟨⟨_, holder?_of_lookup htask hheld, rfl⟩, _, htask, rfl, rfl, rfl, nofun⟩

/-! ## Addressing -/

theorem post_alive (ht : h.task? t = some task) (halive : task.inst.alive = true) (r : Request) :
    ∃ h', h.post t r = .ok h' := by
  unfold Host.post
  simp only [ht, Instance.post, halive, if_true]
  split <;> exact ⟨_, rfl⟩

end Host
end Turnstile
