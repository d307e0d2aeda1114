-- What a publishing does about the subscriptions that it considers: it visits one after the other. The
-- programs of a subscriber are run where the last visit has led, and only their faults are kept from it.
import Turnstile.Proofs.Bus.Trail

namespace Turnstile

variable {α σ : Type}

/-! ## What a publishing does about a subscription -/

section
variable (p : Publishing) (conduct : Conduct α σ) (nested : Publisher α σ)

/-- The filter of a subscription is run, if there is one; this is what it comes to, and where it
leads. -/
inductive Asks (s : Subscription α) (scene : Scene α σ) :
    Option (Except Fault Value) → Scene α σ → Prop where
  | absent (hfilter : conduct.filter s.handler = none) : Asks s scene none scene
  | asked {filter : String → Value → Program α σ} {scene' : Scene α σ} {result : Except Fault Value}
    (hfilter : conduct.filter s.handler = some filter)
    (hrun : (filter p.topic p.data).run nested scene = some (scene', result)) :
    Asks s scene (some result) (scene'.see (.filtered p.number s result))

/-- The handler of a subscription is run, or not; this is what it comes to, and where it leads. -/
inductive Calls (s : Subscription α) (scene : Scene α σ) :
    Option (Except Fault Value) → Scene α σ → Prop where
  | spared : Calls s scene none scene
  | called {scene' : Scene α σ} {result : Except Fault Value}
    (hrun : (conduct.handler s.handler p.data).run nested
      (scene.see (.called p.number s p.data)) = some (scene', result)) :
    Calls s scene (some result) (scene'.see (.handled p.number s result))

/-- A visit: the filter is asked, the handler is called if it is let through, and their faults are
logged. -/
inductive Takes (v : Visit α) (scene : Scene α σ) : Scene α σ → Prop where
  | visit {asked called : Scene α σ}
    (hasks : Asks p conduct nested v.subscription
      (scene.see (.considered p.number v.subscription)) v.filtered asked)
    (hcalls : Calls p conduct nested v.subscription asked v.handled called)
    (hcalled : v.handled.isSome = true ↔ v.LetsThrough) :
    Takes v scene (called.seeAll (p.entries called.logs v.faults))

/-- Visits, each of which starts where the one before has led. -/
inductive TakesAll : List (Visit α) → Scene α σ → Scene α σ → Prop where
  | nil {scene : Scene α σ} : TakesAll [] scene scene
  | cons {v : Visit α} {visits : List (Visit α)} {scene mid scene' : Scene α σ}
    (hvisit : Takes p conduct nested v scene mid) (hmore : TakesAll visits mid scene') :
    TakesAll (v :: visits) scene scene'

end

section
variable {p : Publishing} {conduct : Conduct α σ} {nested : Publisher α σ} {s : Subscription α}
  {v : Visit α} {scene scene' : Scene α σ} {fault : Option Fault}

theorem Takes.fair (h : Takes p conduct nested v scene scene') : v.Fair conduct := by
  obtain ⟨hasks, -, hcalled⟩ := h
  refine ⟨?_, hcalled⟩
  cases hfiltered : v.filtered <;> rw [hfiltered] at hasks <;> cases hasks
  · rw [‹conduct.filter _ = none›]
    rfl
  · rw [‹conduct.filter _ = some _›]
    rfl

theorem contain_eq (scene : Scene α σ) {fault : Fault} (hfault : fault.isCancellation = false) :
    p.contain scene fault = (scene.seeAll (p.entries scene.logs [fault]), none) := by
  unfold Publishing.contain Publishing.entries
  rw [if_neg (by simp [hfault])]
  split
  · rfl
  · simp [Scene.seeAll]

theorem seeAll_nil (scene : Scene α σ) : scene.seeAll [] = scene := by
  simp [Scene.seeAll]

theorem entries_nil (logs : Bool) : p.entries (α := α) logs [] = [] := by
  cases logs <;> rfl

theorem entries_own (logs : Bool) (faults : List Fault) : ∀ o ∈ p.entries (α := α) logs faults,
    o.number? = some p.number ∧ ∀ n topic data, o ≠ .began n topic data := by
  unfold Publishing.entries
  split
  · intro o ho
    obtain ⟨fault, -, rfl⟩ := List.mem_map.1 ho
    exact ⟨rfl, nofun⟩
  · simp

/-- What a publishing does itself in one step. -/
theorem proceeds_one (hused : p.number < scene.trail.length) (hbus : scene.bus.WellFormed)
    {o : Occurrence α} (ho : o.number? = some p.number) (hbegan : ∀ n topic data, o ≠ .began n topic data) :
    Proceeds conduct (some p.number) scene (scene.see o) [o] [o] := by
  have hown : ∀ o' ∈ [o], o'.number? = some p.number ∧ ∀ n topic data, o' ≠ .began n topic data :=
    fun _ ho' => List.mem_singleton.1 ho' ▸ ⟨ho, hbegan⟩
  exact proceeds_own hused hbus hown

/-- A program is run while a publishing is under way. -/
theorem run_under (hnested : Keeps conduct nested) {program : Program α σ}
    (hprogram : program.NeverCancels) (hbus : scene.bus.WellFormed)
    (hused : p.number < scene.trail.length) {result : Except Fault Value}
    (hrun : program.run nested scene = some (scene', result)) :
    (∃ more, Proceeds conduct (some p.number) scene scene' more []) ∧
      ∀ fault, result = .error fault → fault.isCancellation = false :=
  Program.run_proceeds hnested hprogram hbus (by rintro _ ⟨⟩; exact hused) hrun

/-- The call of a handler comes to a result, which is logged if it is a fault. -/
theorem call_called (hconduct : conduct.NeverCancels) (hnested : Keeps conduct nested)
    (hbus : scene.bus.WellFormed) (hused : p.number < scene.trail.length)
    (h : p.call conduct nested s scene = some (scene', fault)) :
    fault = none ∧ ∃ result called, Calls p conduct nested s scene (some result) called ∧
      (∃ more, Proceeds conduct (some p.number) scene called more
        [.called p.number s p.data, .handled p.number s result]) ∧
      scene' = called.seeAll (p.entries called.logs (raisedIn (some result))) := by
  unfold Publishing.call at h
  cases hrun : (conduct.handler s.handler p.data).run nested
      (scene.see (.called p.number s p.data)) with
  | none => simp [hrun] at h
  | some ran =>
    obtain ⟨mid, result⟩ := ran
    simp only [hrun] at h
    have hfirst : Proceeds conduct (some p.number) scene (scene.see (.called p.number s p.data)) _ _ :=
      proceeds_one hused hbus rfl nofun
    obtain ⟨⟨more, hmore⟩, hfault⟩ :=
      run_under hnested (hconduct.handler _ _) hfirst.wellFormed (hfirst.used_after _ rfl) hrun
    have hlast : Proceeds conduct (some p.number) mid (mid.see (.handled p.number s result)) _ _ :=
      proceeds_one (hmore.used_after _ rfl) hmore.wellFormed rfl nofun
    have hended : (scene', fault) = ((mid.see (.handled p.number s result)).seeAll
        (p.entries mid.logs (raisedIn (some result))), none) := by
      cases result with
      | ok w =>
        rw [raisedIn, entries_nil, seeAll_nil]
        exact (Option.some.inj h).symm
      | error f =>
        simp only [contain_eq _ (hfault f rfl)] at h
        exact (Option.some.inj h).symm
    obtain ⟨rfl, rfl⟩ := Prod.mk.inj hended
    exact ⟨rfl, result, _, .called hrun, ⟨_, (hfirst.trans hmore).trans hlast⟩, rfl⟩

/-- A visit, as it is paid and as it is seen. -/
structure Visits (p : Publishing) (conduct : Conduct α σ) (nested : Publisher α σ)
    (v : Visit α) (scene scene' : Scene α σ) : Prop where
  takes : Takes p conduct nested v scene scene'
  proceeds : ∃ more, Proceeds conduct (some p.number) scene scene' more (v.occurrences p scene.logs)

/-- A visit is made of its stages. -/
theorem visits_of {asked called : Scene α σ} (hbus : scene.bus.WellFormed)
    (hused : p.number < scene.trail.length)
    (hasks : Asks p conduct nested v.subscription
      (scene.see (.considered p.number v.subscription)) v.filtered asked)
    (hasked : ∃ more, Proceeds conduct (some p.number)
      (scene.see (.considered p.number v.subscription)) asked more
      (v.filtered.toList.map fun result => .filtered p.number v.subscription result))
    (hcalls : Calls p conduct nested v.subscription asked v.handled called)
    (hcalled : ∃ more, Proceeds conduct (some p.number) asked called more
      (v.handled.toList.flatMap fun result =>
        [.called p.number v.subscription p.data, .handled p.number v.subscription result]))
    (hlets : v.handled.isSome = true ↔ v.LetsThrough) :
    Visits p conduct nested v scene (called.seeAll (p.entries called.logs v.faults)) := by
  obtain ⟨filtered, hfiltered⟩ := hasked
  obtain ⟨handled, hhandled⟩ := hcalled
  have hconsidered : Proceeds conduct (some p.number) scene
      (scene.see (.considered p.number v.subscription)) _ _ := proceeds_one hused hbus rfl nofun
  have hsofar := (hconsidered.trans hfiltered).trans hhandled
  have hlogged : Proceeds conduct (some p.number) called _ _ _ :=
    proceeds_own (hsofar.used_after _ rfl) hsofar.wellFormed (entries_own called.logs v.faults)
  refine ⟨.visit hasks hcalls hlets, .considered p.number v.subscription :: filtered ++ handled ++
    p.entries called.logs v.faults, ?_⟩
  unfold Visit.occurrences
  rw [← hsofar.logs]
  exact hsofar.trans hlogged

/-- A filter is asked while a publishing is under way. -/
theorem filter_asked (hconduct : conduct.NeverCancels) (hnested : Keeps conduct nested)
    (hbus : scene.bus.WellFormed) (hused : p.number < scene.trail.length)
    {filter : String → Value → Program α σ} (hfilter : conduct.filter s.handler = some filter)
    {result : Except Fault Value} (hrun : (filter p.topic p.data).run nested scene = some (scene', result)) :
    Asks p conduct nested s scene (some result) (scene'.see (.filtered p.number s result)) ∧
      (∃ more, Proceeds conduct (some p.number) scene (scene'.see (.filtered p.number s result)) more
        [.filtered p.number s result]) ∧
      ∀ fault, result = .error fault → fault.isCancellation = false := by
  obtain ⟨⟨more, hmore⟩, hfault⟩ :=
    run_under hnested (hconduct.filter _ _ hfilter _ _) hbus hused hrun
  have hlast : Proceeds conduct (some p.number) scene' (scene'.see (.filtered p.number s result)) _ _ :=
    proceeds_one (hmore.used_after _ rfl) hmore.wellFormed rfl nofun
  exact ⟨.asked hfilter hrun, ⟨_, hmore.trans hlast⟩, hfault⟩

/-- A filter that has raised, or returned nothing true, ends the visit. -/
theorem visits_spared (hbus : scene.bus.WellFormed) (hused : p.number < scene.trail.length)
    {result : Except Fault Value} {asked : Scene α σ}
    (hasks : Asks p conduct nested s (scene.see (.considered p.number s)) (some result) asked)
    (hasked : ∃ more, Proceeds conduct (some p.number) (scene.see (.considered p.number s)) asked more
      [.filtered p.number s result])
    (hfalse : ∀ w, result = .ok w → w.isTrue = false) :
    Visits p conduct nested ⟨s, some result, none⟩ scene
      (asked.seeAll (p.entries asked.logs (raisedIn (some result)))) := by
  have hfaults : (⟨s, some result, none⟩ : Visit α).faults = raisedIn (some result) :=
    List.append_nil _
  have hkept : ¬ (⟨s, some result, none⟩ : Visit α).LetsThrough := by
    rintro (hnone | ⟨w, hw, htrue⟩)
    · cases hnone
    · rw [hfalse w (Option.some.inj hw)] at htrue
      cases htrue
  obtain ⟨more, hmore⟩ := hasked
  rw [← hfaults]
  exact visits_of hbus hused hasks ⟨more, hmore⟩ .spared
    ⟨_, proceeds_refl hmore.used_after hmore.wellFormed⟩ (iff_of_false Bool.false_ne_true hkept)

theorem consider_visits (hconduct : conduct.NeverCancels) (hnested : Keeps conduct nested)
    (hbus : scene.bus.WellFormed) (hused : p.number < scene.trail.length)
    (h : p.consider conduct nested s scene = some (scene', fault)) :
    fault = none ∧ ∃ v : Visit α, v.subscription = s ∧ Visits p conduct nested v scene scene' := by
  have hconsidered : Proceeds conduct (some p.number) scene (scene.see (.considered p.number s)) _ _ :=
    proceeds_one hused hbus rfl nofun
  have hused' := hconsidered.used_after _ rfl
  unfold Publishing.consider at h
  cases hfilter : conduct.filter s.handler with
  | none =>
    simp only [hfilter] at h
    obtain ⟨rfl, result, called, hcalls, hcalled, rfl⟩ :=
      call_called hconduct hnested hconsidered.wellFormed hused' h
    refine ⟨rfl, ⟨s, none, some result⟩, rfl, visits_of hbus hused (.absent hfilter)
      ⟨_, proceeds_refl hconsidered.used_after hconsidered.wellFormed⟩ hcalls hcalled ?_⟩
    simp [Visit.LetsThrough]
  | some filter =>
    simp only [hfilter] at h
    cases hrun : (filter p.topic p.data).run nested (scene.see (.considered p.number s)) with
    | none => simp [hrun] at h
    | some ran =>
      obtain ⟨mid, result⟩ := ran
      simp only [hrun] at h
      obtain ⟨hasks, ⟨more, hasked⟩, hfault⟩ :=
        filter_asked hconduct hnested hconsidered.wellFormed hused' hfilter hrun
      cases result with
      | error f =>
        simp only [contain_eq _ (hfault f rfl)] at h
        obtain ⟨rfl, rfl⟩ := Prod.mk.inj (Option.some.inj h)
        exact ⟨rfl, _, rfl, visits_spared hbus hused hasks ⟨more, hasked⟩ nofun⟩
      | ok w =>
        cases htrue : w.isTrue with
        | false =>
          simp only [htrue, Bool.false_eq_true, if_false] at h
          obtain ⟨rfl, rfl⟩ := Prod.mk.inj (Option.some.inj h)
          have hvisits := visits_spared hbus hused hasks ⟨more, hasked⟩ (by rintro _ ⟨⟩; exact htrue)
          rw [raisedIn, entries_nil, seeAll_nil] at hvisits
          exact ⟨rfl, _, rfl, hvisits⟩
        | true =>
          simp only [htrue, if_true] at h
          obtain ⟨rfl, result, called, hcalls, hcalled, rfl⟩ :=
            call_called hconduct hnested hasked.wellFormed (hasked.used_after _ rfl) h
          refine ⟨rfl, ⟨s, some (.ok w), some result⟩, rfl,
            visits_of hbus hused hasks ⟨more, hasked⟩ hcalls hcalled ?_⟩
          simp [Visit.LetsThrough, htrue]

/-- Subscriptions that are considered one after the other are visited one after the other. -/
theorem considerAll_visits (hconduct : conduct.NeverCancels) (hnested : Keeps conduct nested)
    {subs : List (Subscription α)} (hbus : scene.bus.WellFormed)
    (hused : p.number < scene.trail.length)
    (h : p.considerAll conduct nested subs scene = some (scene', fault)) :
    fault = none ∧ ∃ visits : List (Visit α), visits.map (·.subscription) = subs ∧
      TakesAll p conduct nested visits scene scene' ∧
      (∃ more, Proceeds conduct (some p.number) scene scene' more
        (visits.flatMap (·.occurrences p scene.logs))) ∧ ∀ v ∈ visits, v.Fair conduct := by
  induction subs generalizing scene with
  | nil =>
    obtain ⟨rfl, rfl⟩ := Prod.mk.inj (Option.some.inj h)
    exact ⟨rfl, [], rfl, .nil, ⟨_, proceeds_refl (by rintro _ ⟨⟩; exact hused) hbus⟩, by simp⟩
  | cons s subs ih =>
    unfold Publishing.considerAll at h
    cases hconsider : p.consider conduct nested s scene with
    | none => simp [hconsider] at h
    | some considered =>
      obtain ⟨mid, fault'⟩ := considered
      obtain ⟨rfl, v, rfl, htakes, first, hfirst⟩ :=
        consider_visits hconduct hnested hbus hused hconsider
      simp only [hconsider] at h
      obtain ⟨rfl, visits, rfl, hall, ⟨more, hmore⟩, hfair⟩ :=
        ih hfirst.wellFormed (hfirst.used_after _ rfl) h
      rw [hfirst.logs] at hmore
      exact ⟨rfl, v :: visits, rfl, .cons htakes hall, ⟨_, hfirst.trans hmore⟩,
        List.forall_mem_cons.2 ⟨htakes.fair, hfair⟩⟩

end

end Turnstile
