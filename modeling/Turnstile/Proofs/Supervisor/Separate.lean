-- Every name lives in a supervisor of its own: what belongs to a name leaves all others as they were
-- and depends on none of them, so that what belongs to different names may be done in any order. All
-- of it holds at any time, as long as hooks keep to themselves.
import Turnstile.Proofs.Supervisor.Errands

namespace Turnstile

/-! ## Strokes -/

/-- Time passes, or something happens to a name. -/
inductive Stroke where
  | pass (time : Rat)
  | errand (name : Value) (e : Errand)

namespace Stroke

/-- Whether a name takes notice of a stroke. -/
def concerns (b : Value) : Stroke → Bool
  | .pass _ => true
  | .errand name _ => name.same b

/-- A stroke that starts only what keeps to itself. -/
def Homely (registry : Registry) : Stroke → Prop
  | .pass _ => True
  | .errand name e => name.IsName ∧ e.Homely registry name

end Stroke

def Solo.stroke (s : Solo) : Stroke → Solo
  | .pass time => { s with world := { s.world with clock := time } }
  | .errand name e => s.does name e

theorem Errand.Homely.congr {registry : Registry} {e : Errand} {name b : Value}
    (hname : name.IsName) (hsame : name.same b = true) (he : e.Homely registry name) :
    e.Homely registry b := by
  cases e with
  | start choice payload =>
    cases choice with
    | named machine => exact fun m hm => (he m hm).congr hname hsame
    | given machine => exact BoundHooks.Homely.congr hname hsame he
    | other v => trivial
  | _ => trivial

namespace Host

variable {h h' : Host} {t c : Nat} {task : Task} {a b name : Value} {d e : Errand}

def stroke (h : Host) : Stroke → Host
  | .pass time => { h with clock := time }
  | .errand name e => h.does name e

/-- The hooks of each task keep to themselves under its name. -/
def Discreet (h : Host) : Prop :=
  ∀ t task, h.task? t = some task → task.inst.machine.hooks.Homely task.inst.name

/-- A host at which each name is at home. -/
structure AtHome (h : Host) : Prop where
  sound : h.Sound
  homely : ∀ b : Value, b.IsName → h.Homely b

theorem Discreet.atHome (hdiscreet : h.Discreet) (hsound : h.Sound) : h.AtHome := by
  refine ⟨hsound, fun b hb t task ht hof => ?_⟩
  exact (hdiscreet t task ht).congr (isName_of_same hb hof) hof

/-- An errand of a name, and what becomes of the others. -/
theorem AtHome.goes (hhome : h.AtHome) (hb : b.IsName) (hsame : name.same b = true)
    (he : e.Homely h.registry b) : Goes b h (h.does name e) ((h.solo b).does name e) :=
  goes_does hb hsame hhome.sound (hhome.homely b hb) he

theorem AtHome.does (hhome : h.AtHome) (hname : name.IsName) (he : e.Homely h.registry name) :
    (h.does name e).AtHome := by
  have hsound := hhome.sound.does hname hname.refl (hhome.homely name hname) he
  refine ⟨hsound, fun b hb => ?_⟩
  by_cases hsame : name.same b = true
  · exact (hhome.goes hb hsame (he.congr hname hsame)).homely (hhome.homely b hb)
  · have hshare := (hhome.goes hname hname.refl he).shares b hb (by simpa using hsame)
    exact (hhome.homely b hb).of_share hshare

/-- To a name, an errand of its own is what its supervisor of one name makes of it, and an errand of
another name is nothing. -/
theorem AtHome.solo_does (hhome : h.AtHome) (hname : name.IsName) (he : e.Homely h.registry name)
    (hb : b.IsName) : (h.does name e).solo b =
      if name.same b then (h.solo b).does name e else h.solo b := by
  by_cases hsame : name.same b = true
  · rw [if_pos hsame]
    exact (hhome.goes hb hsame (he.congr hname hsame)).solo
  · rw [if_neg hsame]
    have hgoes := hhome.goes hname hname.refl he
    exact solo_of_share hgoes.world (hgoes.shares b hb (by simpa using hsame))

theorem AtHome.registry (hhome : h.AtHome) (hname : name.IsName) (he : e.Homely h.registry name) :
    (h.does name e).registry = h.registry :=
  congrArg World.registry (hhome.goes hname hname.refl he).world

theorem AtHome.pass (hhome : h.AtHome) (time : Rat) : ({ h with clock := time } : Host).AtHome :=
  ⟨⟨hhome.sound.served.act (.pass time), hhome.sound.placed,
    ⟨hhome.sound.tied.keys, hhome.sound.tied.held⟩, hhome.sound.counted⟩, hhome.homely⟩

/-! ## Runs -/

/-- After a run a name is where its own strokes alone would have brought it. -/
theorem AtHome.solo_strokes (hhome : h.AtHome) {strokes : List Stroke}
    (hstrokes : ∀ x ∈ strokes, x.Homely h.registry) (hb : b.IsName) :
    (strokes.foldl stroke h).solo b =
      (strokes.filter (Stroke.concerns b)).foldl Solo.stroke (h.solo b) := by
  induction strokes generalizing h with
  | nil => simp
  | cons x strokes ih =>
    have hfirst := hstrokes x List.mem_cons_self
    have hrest : ∀ y ∈ strokes, y.Homely h.registry := fun y hy =>
      hstrokes y (List.mem_cons_of_mem x hy)
    rw [List.foldl_cons, List.filter_cons]
    cases x with
    | pass time => exact ih (hhome.pass time) hrest
    | errand name e =>
      obtain ⟨hname, he⟩ := hfirst
      have hregistry := hhome.registry hname he
      have hnext := ih (hhome.does hname he) fun y hy => hregistry ▸ hrest y hy
      show (strokes.foldl stroke (h.does name e)).solo b = _
      rw [hnext, hhome.solo_does hname he hb]
      by_cases hsame : name.same b = true
      · simp only [Stroke.concerns, hsame, if_true, List.foldl_cons]
        rfl
      · simp only [Stroke.concerns, hsame, Bool.false_eq_true, if_false]

/-! ## The steps of the host -/

/-- The next step of a host is an errand of the name of a task: its body moves on, it is let run, its
pause is over, its end is told, or its time to stop is over. -/
inductive Takes (h : Host) (t : Nat) : (Nat → Errand) → Prop where
  | run (hrunning : h.running = some t) : Takes h t .run
  | resume {rest : List Job} (hidle : h.running = none) (hbatch : h.batch = .resume t :: rest) :
    Takes h t .resume
  | wake {rest : List Job} {serial : Nat} {task : Task} (hidle : h.running = none)
    (hbatch : h.batch = .wake t serial :: rest) (ht : h.task? t = some task)
    (hpaused : task.run = .paused (some serial)) : Takes h t .wake
  | exited {rest : List Job} (hidle : h.running = none) (hbatch : h.batch = .exited t :: rest) :
    Takes h t .exited
  | cancel {rest : List Job} {c : Nat} {parent : Option Nat} {timeout : Number}
    (hidle : h.running = none) (hbatch : h.batch = .proceed c :: rest)
    (hcall : h.calls[c]? = some ⟨parent, .window t timeout, .queued false⟩)
    (hgoing : h.hasEnded t = false) : Takes h t .cancel

/-- The time to stop is over: the task is cancelled, and its end is waited for again. -/
theorem goes_expire (hb : b.IsName) (hof : h.isOf b t = true) {parent : Option Nat}
    {timeout : Number} (hcall : h.calls[c]? = some ⟨parent, .window t timeout, .queued false⟩)
    (hgoing : h.hasEnded t = false) :
    Goes b h (h.proceed c) ((h.solo b).cancel (h.place b t)) := by
  have hdropped : Plays b h (h.dropWindow c) (h.solo b) :=
    plays_aside b rfl rfl rfl rfl rfl rfl
  have hleft : Plays b h (h.leaveStage c (.window t timeout)) (h.solo b) := by
    have hunwatched := plays_watchers hb (h := h.dropWindow c) hof (List.filter (· ≠ c))
    rw [hdropped.solo] at hunwatched
    exact hdropped.trans hunwatched
  have hstill : (h.leaveStage c (.window t timeout)).hasEnded t = false := by
    unfold hasEnded at hgoing ⊢
    cases ht : h.task? t with
    | none => simp [ht] at hgoing
    | some task =>
      have ht' : (h.dropWindow c).task? t = some task := ht
      have hunwatched : (h.leaveStage c (.window t timeout)).task? t =
          some { task with watchers := task.watchers.filter (· ≠ c) } :=
        task?_updateTask_self ht' _
      rw [hunwatched]
      simpa [ht] using hgoing
  unfold Host.proceed
  simp only [hcall, hstill, Bool.false_eq_true, if_false]
  generalize hnoted : Host.note _ .warning _ _ = noted
  have hlogged : Plays b h noted (h.solo b) := by
    rw [← hnoted]
    exact hleft.aside rfl rfl rfl rfl rfl rfl
  have hcalls : noted.calls = h.calls := by
    rw [← hnoted]
    exact h.calls_leaveStage c (.window t timeout)
  have hcancel := plays_cancelTask hb (hlogged.isOf hof)
  rw [hlogged.solo, hlogged.slice.place] at hcancel
  have hcancelled := hlogged.trans hcancel
  have hthere : (noted.cancelTask t).1.calls[c]? =
      some ⟨parent, .window t timeout, .queued false⟩ := by
    rw [calls_cancelTask, hcalls]
    exact hcall
  have hset := goes_setCall b hthere rfl ⟨parent, .forced t, .waiting false⟩ rfl
  rw [hcancelled.solo] at hset
  have hwatch := plays_watch hb (h := (noted.cancelTask t).1.setCall c
    ⟨parent, .forced t, .waiting false⟩) (hcancelled.isOf hof) c
  rw [hset.solo] at hwatch
  exact hcancelled.toGoes.trans (hset.trans hwatch.toGoes)

/-- A step that the host takes for a task is an errand of its name. -/
theorem AtHome.step (hhome : h.AtHome) (hb : b.IsName) (hof : h.isOf b t = true)
    {kind : Nat → Errand} (htakes : h.Takes t kind) :
    Goes b h h.step ((h.solo b).does b (kind (h.place b t))) := by
  have htied := hhome.sound.tied
  have hhomely := hhome.homely b hb
  have hasked := hhome.sound.asked b
  -- a job is taken from the queue first
  have htaken : ∀ rest, Plays b h { h with batch := rest } (h.solo b) := fun rest =>
    plays_aside b rfl rfl rfl rfl rfl rfl
  cases htakes with
  | run hrunning =>
    rw [step_running hrunning]
    exact (plays_runTask hb htied hhomely hasked hof).toGoes
  | @resume rest hidle hbatch =>
    rw [step_job hidle hbatch]
    have hresume := plays_resume hb ((htaken rest).tied htied) ((htaken rest).homely hhomely)
      (hasked : Asked { h with batch := rest } b) ((htaken rest).isOf hof)
    rw [(htaken rest).solo, (htaken rest).slice.place] at hresume
    exact (htaken rest).toGoes.trans hresume.toGoes
  | @wake rest serial task hidle hbatch ht hpaused =>
    rw [step_job hidle hbatch]
    have hmine : task.isOf b = true := by simpa [isOf, ht] using hof
    have hwake := plays_wake hb (h := { h with batch := rest }) ht hmine hpaused
    rw [(htaken rest).solo, (htaken rest).slice.place] at hwake
    exact (htaken rest).toGoes.trans hwake.toGoes
  | @exited rest hidle hbatch =>
    rw [step_job hidle hbatch]
    have hexited := goes_exited hb ((htaken rest).tied htied)
      (hhome.sound.places : Placed { h with batch := rest }) hhome.sound.counted
      ((htaken rest).homely hhomely) ((htaken rest).isOf hof)
    rw [(htaken rest).solo, (htaken rest).slice.place] at hexited
    exact (htaken rest).toGoes.trans hexited
  | @cancel rest c parent timeout hidle hbatch hcall hgoing =>
    rw [step_job hidle hbatch]
    have hexpire := goes_expire hb (h := { h with batch := rest }) ((htaken rest).isOf hof) hcall
      hgoing
    rw [(htaken rest).solo, (htaken rest).slice.place] at hexpire
    exact (htaken rest).toGoes.trans hexpire

/-! ## Separate names -/

/-- Each name lives in a supervisor of its own. -/
structure Separate (h : Host) : Prop where
  /-- What belongs to a name leaves the world, and all that another name has, as they were. -/
  alone : ∀ (a b : Value) (e : Errand), a.IsName → b.IsName → b.same a = false →
    e.Homely h.registry b → (h.does b e).world = h.world ∧ (h.does b e).share a = h.share a
  /-- What becomes of the name itself is what the supervisor of that one name makes of it. -/
  own : ∀ (b : Value) (e : Errand), b.IsName → e.Homely h.registry b →
    (h.does b e).solo b = (h.solo b).does b e
  /-- A host at which others live, but which is the same to the name, does the same to it. -/
  anywhere : ∀ (settings : Settings) (registry : Registry) (bus : Bus Observer) (g : Host),
    (opened settings registry bus).Leads g → g.Discreet → ∀ (b : Value) (e : Errand), b.IsName →
    e.Homely h.registry b → g.solo b = h.solo b → (g.does b e).solo b = (h.does b e).solo b
  /-- When the host takes a step for a task, that is an errand of the name of the task. -/
  step : ∀ (b : Value) (t : Nat) (kind : Nat → Errand), b.IsName → h.isOf b t = true →
    h.Takes t kind → h.step.world = h.world ∧
    (∀ a : Value, a.IsName → b.same a = false → h.step.share a = h.share a) ∧
    h.step.solo b = (h.solo b).does b (kind (h.place b t))
  /-- What belongs to different names may be done in either order. -/
  commute : ∀ (a b : Value) (d e : Errand), a.IsName → b.IsName → b.same a = false →
    d.Homely h.registry a → e.Homely h.registry b → ∀ c : Value, c.IsName →
    ((h.does a d).does b e).solo c = ((h.does b e).does a d).solo c
  /-- Runs in which each name has the same strokes in the same order lead to the same for each. -/
  interleave : ∀ strokes strokes' : List Stroke,
    (∀ x ∈ strokes ++ strokes', x.Homely h.registry) →
    (∀ c : Value, c.IsName →
      strokes.filter (Stroke.concerns c) = strokes'.filter (Stroke.concerns c)) →
    ∀ c : Value, c.IsName → (strokes.foldl stroke h).solo c = (strokes'.foldl stroke h).solo c

theorem AtHome.commute (hhome : h.AtHome) (ha : a.IsName) (hb : b.IsName) (hba : b.same a = false)
    (hd : d.Homely h.registry a) (he : e.Homely h.registry b) {c : Value} (hc : c.IsName) :
    ((h.does a d).does b e).solo c = ((h.does b e).does a d).solo c := by
  have he' : e.Homely (h.does a d).registry b := (hhome.registry ha hd).symm ▸ he
  have hd' : d.Homely (h.does b e).registry a := (hhome.registry hb he).symm ▸ hd
  rw [(hhome.does ha hd).solo_does hb he' hc, (hhome.does hb he).solo_does ha hd' hc,
    hhome.solo_does ha hd hc, hhome.solo_does hb he hc]
  by_cases hac : a.same c = true
  · have hbc : ¬ b.same c = true := by
      intro hbc
      have hsame := Value.same_trans hb.isKey hbc (Value.same_symm ha.isKey hac)
      rw [hba] at hsame
      cases hsame
    simp [hac, hbc]
  · simp [hac]

theorem AtHome.separate (hhome : h.AtHome) : Separate h where
  alone a b e ha hb hba he := by
    have hgoes := hhome.goes hb hb.refl he
    exact ⟨hgoes.world, hgoes.shares a ha hba⟩
  own b e hb he := (hhome.goes hb hb.refl he).solo
  anywhere settings registry bus g hleads hdiscreet b e hb he hsame := by
    obtain ⟨deeds, rfl⟩ := hleads
    have hhome' := hdiscreet.atHome (sound_opened settings registry bus deeds)
    have hregistry : ((opened settings registry bus).after deeds).registry = h.registry :=
      congrArg (fun s => s.world.registry) hsame
    have he' : e.Homely ((opened settings registry bus).after deeds).registry b :=
      hregistry.symm ▸ he
    rw [(hhome'.goes hb hb.refl he').solo, (hhome.goes hb hb.refl he).solo, hsame]
  step b t kind hb hof htakes := by
    have hgoes := hhome.step hb hof htakes
    exact ⟨hgoes.world, hgoes.shares, hgoes.solo⟩
  commute a b d e ha hb hba hd he c hc := hhome.commute ha hb hba hd he hc
  interleave strokes strokes' hhomely hsame c hc := by
    rw [hhome.solo_strokes (fun x hx => hhomely x (List.mem_append_left _ hx)) hc,
      hhome.solo_strokes (fun x hx => hhomely x (List.mem_append_right _ hx)) hc, hsame c hc]

/-- In every run: as long as hooks keep to themselves, whatever belongs to a name leaves all other
names as they were and depends on none of them, and may be done before or after what belongs to
them. -/
theorem names_live_apart (settings : Settings) (registry : Registry) (bus : Bus Observer)
    (deeds : List Deed) (hdiscreet : ((opened settings registry bus).after deeds).Discreet) :
    Separate ((opened settings registry bus).after deeds) :=
  (hdiscreet.atHome (sound_opened settings registry bus deeds)).separate

/-- One instance is let run while another is told to stop: the order is nothing to either, and the
one is untouched by the end of the other. -/
theorem one_runs_while_another_stops :
    let machine := Machine.ofTable "t" ⟨"a", [⟨"a", "go", .terminal⟩], []⟩ {}
    let h := (opened {} [] {}).after
      [.start (.given machine) (.text "x") .null, .start (.given machine) (.text "y") .null]
    let run := fun h : Host => h.does (.text "x") (.resume 0)
    let stop := fun h : Host => h.does (.text "y") (.stop none)
    h.Discreet ∧ (stop h).share (.text "x") = h.share (.text "x") ∧
      (∀ c : Value, c.IsName → (stop (run h)).solo c = (run (stop h)).solo c) ∧
      ((stop (run h)).solo (.text "x")).tasks.map (·.run) = [.active] ∧
      ((stop (run h)).solo (.text "y")).tasks.map (·.inst.mailbox.length) = [1] := by
  intro machine h run stop
  have hx : (Value.text "x").IsName := ⟨rfl, by decide⟩
  have hy : (Value.text "y").IsName := ⟨rfl, by decide⟩
  have hdiscreet : h.Discreet := by
    intro t task ht
    match t with
    | 0 =>
      obtain rfl := Option.some.inj ht
      exact Machine.homely_defaults _ _ _
    | 1 =>
      obtain rfl := Option.some.inj ht
      exact Machine.homely_defaults _ _ _
    | t + 2 => cases ht
  have hapart := names_live_apart {} [] {}
    [.start (.given machine) (.text "x") .null, .start (.given machine) (.text "y") .null] hdiscreet
  refine ⟨hdiscreet, ?_, fun c hc => ?_, ?_, ?_⟩
  · exact (hapart.alone _ _ (.stop none) hx hy (by decide) trivial).2
  · exact hapart.commute _ _ (.resume 0) (.stop none) hx hy (by decide) trivial trivial c hc
  · decide +kernel
  · decide +kernel

end Host
end Turnstile
