-- The window of restarts has to be longer than nothing, so that a restart counts at once. All settings
-- that are let through are such, but for one value: what is no number is not at most zero either. No
-- restart ever counts in a window of that length, and the supervisor never gives up.
import Turnstile.Proofs.Config.Managed
import Turnstile.Proofs.Supervisor.Window

namespace Turnstile

/-! ## Not at most zero -/

theorem Number.leRat_eq_false_iff {n : Number} {q : Rat} :
    n.leRat q = false ↔ n.gtRat q = true ∨ n = .real .nan := by
  cases hn : n.toRat? with
  | some y =>
    have hno : n ≠ .real .nan := by
      rintro rfl
      cases hn
    rw [← Bool.not_eq_true, leRat_iff hn, gtRat_iff hn, not_le]
    simp [hno]
  | none =>
    cases n with
    | flag b => cases hn
    | whole k => cases hn
    | real x =>
      cases x with
      | finite b m e => cases hn
      | infinite b => cases b <;> simp [leRat, gtRat, ltRat, eqRat, Binary64.ltRat, Binary64.gtRat,
          Binary64.eqRat]
      | nan => simp [leRat, ltRat, eqRat, Binary64.ltRat, Binary64.eqRat]

/-- What is not at most a number is above it, unless it is no number. -/
theorem Number.gtRat_iff_ne_nan {n : Number} {q : Rat} (h : n.leRat q = false) :
    n.gtRat q = true ↔ n ≠ .real .nan := by
  constructor
  · rintro hgt rfl
    cases hgt
  · exact (leRat_eq_false_iff.1 h).resolve_right

/-- Settings that are let through, as those of a configuration or as those of a host. -/
def Settings.Accepted (s : Settings) : Prop :=
  (∃ read p fields c, Config.ofFields read p fields = .ok c ∧ c.settings = s) ∨
    ∃ restart timeout restarts seconds, ofValues restart timeout restarts seconds = .ok s

theorem Settings.Accepted.admitted {s : Settings} (h : s.Accepted) : s.Admitted := by
  rcases h with ⟨read, p, fields, c, hc, rfl⟩ | ⟨restart, timeout, restarts, seconds, h⟩
  · exact (Config.runtime_of_ok (Config.runtime_of_ofFields hc)).1
  · exact (ofValues_eq_ok_iff.1 h).1

namespace Roster

variable {slips : Prop} {r r' : Roster} {t : Nat} {e : Entry} {name : Value}

/-! ## A restart in its window -/

/-- The restarts that are remembered are those of names that can be looked up. -/
def Keyed (r : Roster) : Prop := ∀ p ∈ r.restarts, p.1.isKey = true

theorem Next.keeps_keyed (hnext : r.Next slips r') (horderly : r.Orderly) (h : r.Keyed) :
    r'.Keyed := by
  cases hnext with
  | forget hslips hkey hfree => exact keys_setName h hkey
  | start machine payload number hkey hfree => exact keys_setName h hkey
  | refuse hexits he hcount =>
    exact keys_setName h (horderly.exit_isKey (hexits ▸ List.mem_cons_self) he)
  | restart hexits he hfailed hpolicy hfree hcount =>
    exact keys_setName h (horderly.exit_isKey (hexits ▸ List.mem_cons_self) he)
  | _ => exact h

theorem Next.keeps_settings (hnext : r.Next slips r') : r'.settings = r.settings := by
  cases hnext <;> rfl

/-- An instance comes under a name that nobody started: it was restarted. -/
def Restarts (r r' : Roster) (name : Value) : Prop :=
  ∃ e, r'.entries[r.entries.length]? = some e ∧ e.supervised = true ∧ e.number = none ∧
    e.name.same name = true

theorem filter_recent (r : Roster) (name : Value) :
    (r.recent name).filter (fun time => r.settings.maxSeconds.gtRat (r.clock - time)) =
      r.recent name := by
  unfold recent
  rw [List.filter_filter]
  simp

/-- After a restart, it is the last one that counts, if the window is longer than nothing. -/
theorem Next.recent_of_restarts (hnext : r.Next slips r') (horderly : r.Orderly) (hkeyed : r.Keyed)
    (hrestarts : r.Restarts r' name) :
    r'.recent name =
      r.recent name ++ if r.settings.maxSeconds.gtRat 0 then [r'.clock] else [] := by
  obtain ⟨e, he, hsupervised, hnumber, hsame⟩ := hrestarts
  obtain ⟨t, rest, d, hexits, hd, rfl, rfl⟩ := hnext.of_came he hsupervised hnumber
  have hkey := horderly.exit_isKey (hexits ▸ List.mem_cons_self) hd
  have hrecent : (r.count d.name (r.recent d.name ++ [r.clock])).recent name =
      (r.recent d.name ++ [r.clock]).filter
        fun time => r.settings.maxSeconds.gtRat (r.clock - time) :=
    (recent_count hkeyed hkey).trans (if_pos hsame)
  refine hrecent.trans ?_
  rw [List.filter_append, filter_recent, recent_congr hkeyed hkey hsame, List.filter_singleton,
    sub_self]
  cases r.settings.maxSeconds.gtRat 0 <;> rfl

/-- With no restart in the window, a crashed holder of a name is restarted if any restart is allowed. -/
theorem Next.restarts_of_crash (hnext : r.Next slips r') (horderly : r.Orderly) {rest : List Nat}
    (hexits : r.exits = t :: rest) (hexits' : r'.exits = rest) (he : r.entries[t]? = some e)
    {fault : Fault} (hfailed : e.ending = some (.failed fault))
    (hheld : lookupName r.holders name = some t) (hpolicy : r.settings.restart = .transient)
    (hnone : ∀ other, r.recent other = []) (hsome : r.settings.maxRestarts.leRat 0 = false) :
    r.Restarts r' name := by
  rcases hnext.of_crash horderly hexits hexits' he hfailed hheld hpolicy with hcount | hheir
  · rw [hnone] at hcount
    cases hsome.symm.trans hcount
  · have hsame : e.name.same name = true := horderly.name_of_holder hheld he
    refine ⟨.new e.machine e.name e.payload none true, ?_, rfl, rfl, hsame⟩
    rw [hheir]
    exact List.getElem?_concat_length

end Roster

namespace Host

variable {h h' : Host} {t : Nat} {name : Value}

/-- An instance comes under a name that nobody started: it was restarted. -/
def Restarts (h h' : Host) (name : Value) : Prop :=
  ∃ task, h'.task? h.tasks.length = some task ∧ task.supervised = true ∧ task.number = none ∧
    task.inst.name.same name = true

theorem restarts_iff : h.Restarts h' name ↔ h.roster.Restarts h'.roster name := by
  unfold Restarts Roster.Restarts
  rw [length_entries, entries_get?]
  cases h'.task? h.tasks.length with
  | none => simp
  | some task => simp [Task.entry]

/-- A restart that is made now counts from now on. -/
def CountsAtOnce (h : Host) : Prop :=
  ∀ d name, h.Restarts (h.act d) name →
    (h.act d).recentRestarts name = h.recentRestarts name ++ [(h.act d).clock]

/-- No restart counts, and so none is the last one: the crashed holder of a name is restarted whenever
restarts are allowed at all. -/
structure NeverGivesUp (h : Host) : Prop where
  uncounted : ∀ name, h.recentRestarts name = []
  restarted : ∀ t rest task fault name, h.running = none → h.batch = .exited t :: rest →
    h.task? t = some task → task.inst.phase = .finished (.failed fault) →
    lookupName h.holders name = some t → h.settings.restart = .transient →
    h.settings.maxRestarts.leRat 0 = false → h.Restarts (h.act .step) name

theorem countsAtOnce (hsteady : h.Steady) (horderly : h.roster.Orderly) (hkeyed : h.roster.Keyed)
    (hpositive : h.settings.maxSeconds.gtRat 0 = true) : h.CountsAtOnce := by
  intro d name hrestarts
  have hrecent := (moves_act hsteady d).next.recent_of_restarts horderly hkeyed
    (restarts_iff.1 hrestarts)
  exact hrecent.trans (congrArg _ (if_pos hpositive))

theorem neverGivesUp (hsteady : h.Steady) (horderly : h.roster.Orderly)
    (hnan : h.settings.maxSeconds = .real .nan) : h.NeverGivesUp := by
  have hnone : ∀ name, h.recentRestarts name = [] := fun name => by
    unfold recentRestarts
    rw [hnan]
    exact List.filter_eq_nil_iff.2 fun time _ => Bool.false_ne_true
  refine ⟨hnone, fun t rest task fault name hrunning hbatch ht hphase hheld hpolicy hsome => ?_⟩
  have hfailed : task.entry.ending = some (.failed fault) := by
    simp [Task.entry, Instance.ending, hphase]
  exact restarts_iff.2 ((moves_act hsteady .step).next.restarts_of_crash horderly
    (exits_of_batch hbatch) (step_exits hsteady hrunning hbatch) (entry_of_task ht) hfailed hheld
    hpolicy hnone hsome)

/-- The settings that are let through have a timeout and a window longer than nothing, unless these
are no numbers. In every run a restart just made counts if the window is a number; otherwise none ever
does, and no budget of restarts is used up. -/
theorem restarts_count_unless_the_window_is_no_number {settings : Settings}
    (haccepted : settings.Accepted) :
    (settings.shutdownTimeout.gtRat 0 = true ↔ settings.shutdownTimeout ≠ .real .nan) ∧
      (settings.maxSeconds.gtRat 0 = true ↔ settings.maxSeconds ≠ .real .nan) ∧
      ∀ (registry : Registry) (bus : Bus Observer) (deeds : List Deed),
        (settings.maxSeconds ≠ .real .nan →
          ((opened settings registry bus).after deeds).CountsAtOnce) ∧
        (settings.maxSeconds = .real .nan →
          ((opened settings registry bus).after deeds).NeverGivesUp) := by
  have hadmitted := haccepted.admitted
  refine ⟨Number.gtRat_iff_ne_nan hadmitted.shutdownTimeout,
    Number.gtRat_iff_ne_nan hadmitted.maxSeconds, fun registry bus deeds => ?_⟩
  have hopened := steady_opened settings registry bus
  have hsteady := steady_after hopened deeds
  have hkept := after_keeps_roster
    (P := fun r => r.Orderly ∧ r.Keyed ∧ r.settings = settings)
    (fun _ _ _ hr hnext => ⟨hr.1.next hnext, hnext.keeps_keyed hr.1 hr.2.1,
      hnext.keeps_settings.trans hr.2.2⟩)
    hopened ⟨orderly_opened settings registry bus, nofun, rfl⟩ deeds
  obtain ⟨horderly, hkeyed, hsettings⟩ := hkept
  refine ⟨fun hnumber => ?_, fun hnan => ?_⟩
  · refine countsAtOnce hsteady horderly hkeyed ?_
    rw [show ((opened settings registry bus).after deeds).settings = settings from hsettings]
    exact (Number.gtRat_iff_ne_nan hadmitted.maxSeconds).2 hnumber
  · exact neverGivesUp hsteady horderly ((congrArg Settings.maxSeconds hsettings).trans hnan)

/-- In the shortest window that there is, a restart counts when it has just been made. -/
theorem a_restart_counts_in_the_shortest_window :
    let settings : Settings := ⟨.whole 5, .transient, .whole 1, .real (.finite false 1 (-1074))⟩
    let machine := Machine.ofTable "t" ⟨"a", [⟨"a", "go", .state "a"⟩], []⟩
      { onTransition := some ⟨.rules, fun _ _ => { result := .error (.plain .exhausted "") }⟩ }
    let h := (opened settings [] {}).after (.start (.given machine) (.text "x") .null ::
      .send ⟨.text "x", .text "go", .null⟩ :: List.replicate 10 .step)
    settings.Accepted ∧ settings.maxSeconds.gtRat 0 = true ∧
      h.Restarts (h.act .step) (.text "x") ∧ (h.act .step).recentRestarts (.text "x") = [0] := by
  intro settings machine h
  have haccepted : settings.Accepted :=
    .inr ⟨.text "transient", .int 5, .int 1, .float (.finite false 1 (-1074)),
      Settings.ofValues_eq_ok_iff.2 ⟨⟨by decide, by decide, by decide +kernel⟩, rfl, rfl, rfl, rfl⟩⟩
  obtain ⟨-, hpositive, hruns⟩ := restarts_count_unless_the_window_is_no_number haccepted
  have hcomes : ((h.act .step).task? h.tasks.length).map
      (fun task => (task.supervised, task.number, task.inst.name.same (.text "x"))) =
      some (true, none, true) := by decide +kernel
  obtain ⟨task, ht, hparts⟩ := Option.map_eq_some_iff.1 hcomes
  obtain ⟨hsupervised, hnumber⟩ := Prod.mk.inj hparts
  have hrestarts : h.Restarts (h.act .step) (.text "x") :=
    ⟨task, ht, hsupervised, (Prod.mk.inj hnumber).1, (Prod.mk.inj hnumber).2⟩
  have hcounts := (hruns [] {} _).1 (by decide) .step _ hrestarts
  have hbefore : h.recentRestarts (.text "x") = [] := by decide +kernel
  have hclock : (h.act .step).clock = 0 := by decide +kernel
  refine ⟨haccepted, hpositive.2 (by decide), hrestarts, ?_⟩
  rw [hcounts, hbefore, hclock]
  rfl

/-- A window that is no number is let through, and does not come after zero. One restart is allowed,
but the instance is restarted after each of three crashes at the same moment. -/
theorem a_window_that_is_no_number_never_fills :
    let entries : List (String × Value) := [("max_restarts", .int 1), ("max_seconds", .float .nan)]
    let fields : List (String × Value) :=
      [("name", .text "m"), ("diagram", .text "[*] --> a : go"), ("runtime", .record entries)]
    let settings : Settings := ⟨.real (.ofDecimal false 5 0), .transient, .whole 1, .real .nan⟩
    let machine := Machine.ofTable "t" ⟨"a", [⟨"a", "go", .state "a"⟩], []⟩
      { onTransition := some ⟨.rules, fun _ _ => { result := .error (.plain .exhausted "") }⟩ }
    let h := opened settings [] {}
    let crash := Deed.send ⟨.text "x", .text "go", .null⟩ :: List.replicate 16 .step
    let deeds := .start (.given machine) (.text "x") .null :: crash ++ crash ++ crash
    ((Config.ofFields (fun _ => .error (.raised .missingFile [])) (.ofText "c") fields).toOption.map
        (·.settings) = some settings) ∧
      (Settings.ofValues (.text "transient") (.float (.ofDecimal false 5 0)) (.int 1)
        (.float .nan)).toOption = some settings ∧
      settings.maxSeconds.gtRat 0 = false ∧ restartTimes (.text "x") h [] deeds = [0, 0, 0] ∧
      (h.after deeds).recentRestarts (.text "x") = [] := by
  intro entries fields settings machine h crash deeds
  refine ⟨?_, ?_, rfl, ?_, ?_⟩ <;> decide +kernel

end Host
end Turnstile
