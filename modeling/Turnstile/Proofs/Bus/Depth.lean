-- How deep publishings are nested: what has come to an end within some depth comes to the same end within
-- any greater one, and what ranks lower each time that it is published comes to an end.
import Turnstile.Bus.Delivery

namespace Turnstile

variable {α σ : Type}

section
variable {conduct : Conduct α σ} {nested nested' : Publisher α σ} {scene : Scene α σ}
  {topic : String} {data : Value}

/-! ## Greater depths -/

/-- A publisher does what another one does, as far as that comes to an end. -/
def Extends (nested nested' : Publisher α σ) : Prop :=
  ∀ topic data scene ended, nested topic data scene = some ended →
    nested' topic data scene = some ended

theorem Program.run_extends (hextends : Extends nested nested') {program : Program α σ}
    {ran : Scene α σ × Except Fault Value}
    (h : program.run nested scene = some ran) : program.run nested' scene = some ran := by
  induction program generalizing scene with
  | finish v => exact h
  | raise fault => exact h
  | consult next ih => exact ih _ h
  | remember memory next ih => exact ih h
  | subscribe topic x level next ih => exact ih _ h
  | unsubscribe handle next ih => exact ih _ h
  | publish topic data next ih =>
    unfold Program.run at h ⊢
    cases hpublish : nested topic data scene with
    | none => simp [hpublish] at h
    | some published =>
      rw [hextends topic data scene published hpublish]
      simp only [hpublish] at h
      exact ih _ h

theorem call_extends (hextends : Extends nested nested') {p : Publishing} {s : Subscription α}
    {ended : Scene α σ × Option Fault}
    (h : p.call conduct nested s scene = some ended) :
    p.call conduct nested' s scene = some ended := by
  unfold Publishing.call at h ⊢
  cases hrun : (conduct.handler s.handler p.data).run nested
      (scene.see (.called p.number s p.data)) with
  | none => simp [hrun] at h
  | some ran =>
    rw [Program.run_extends hextends hrun]
    rwa [hrun] at h

theorem consider_extends (hextends : Extends nested nested') {p : Publishing} {s : Subscription α}
    {ended : Scene α σ × Option Fault}
    (h : p.consider conduct nested s scene = some ended) :
    p.consider conduct nested' s scene = some ended := by
  unfold Publishing.consider at h ⊢
  simp only at h ⊢
  split at h
  · exact call_extends hextends h
  · rename_i filter _
    cases hrun : (filter p.topic p.data).run nested (scene.see (.considered p.number s)) with
    | none => simp [hrun] at h
    | some ran =>
      obtain ⟨mid, result⟩ := ran
      rw [Program.run_extends hextends hrun]
      simp only [hrun] at h ⊢
      split at h
      · split at h
        · rw [if_pos ‹_›]
          exact call_extends hextends h
        · rw [if_neg ‹_›]
          exact h
      · exact h

theorem considerAll_extends (hextends : Extends nested nested') {p : Publishing}
    {subs : List (Subscription α)} {ended : Scene α σ × Option Fault}
    (h : p.considerAll conduct nested subs scene = some ended) :
    p.considerAll conduct nested' subs scene = some ended := by
  induction subs generalizing scene with
  | nil => exact h
  | cons s subs ih =>
    unfold Publishing.considerAll at h ⊢
    cases hconsider : p.consider conduct nested s scene with
    | none => simp [hconsider] at h
    | some considered =>
      rw [consider_extends hextends hconsider]
      obtain ⟨mid, _ | fault⟩ := considered
      · simp only [hconsider] at h
        exact ih h
      · rwa [hconsider] at h

/-- What has come to an end does not go by how deep publishings may be nested. -/
theorem publish_extends (conduct : Conduct α σ) (depth : Nat) :
    Extends (publish conduct depth) (publish conduct (depth + 1)) := by
  intro topic data scene ended h
  induction depth generalizing topic data scene ended with
  | zero => cases h
  | succ depth ih =>
    obtain ⟨scene', fault⟩ := ended
    obtain ⟨last, hall, rfl⟩ := publish_eq_some.1 h
    exact publish_eq_some.2 ⟨last, considerAll_extends ih hall, rfl⟩

theorem publish_deeper {depth : Nat} {ended : Scene α σ × Option Fault}
    (h : publish conduct depth topic data scene = some ended) (more : Nat) :
    publish conduct (depth + more) topic data scene = some ended := by
  induction more with
  | zero => exact h
  | succ more ih => exact publish_extends conduct _ topic data scene ended ih

/-! ## Publishings that end -/

/-- All that a program publishes ranks below a bound. -/
def Program.PublishesBelow (rank : Value → Nat) (bound : Nat) : Program α σ → Prop
  | .finish _ | .raise _ => True
  | .consult next => ∀ memory, (next memory).PublishesBelow rank bound
  | .remember _ next => next.PublishesBelow rank bound
  | .subscribe _ _ _ next => ∀ result, (next result).PublishesBelow rank bound
  | .unsubscribe _ next => ∀ found, (next found).PublishesBelow rank bound
  | .publish _ data next =>
    rank data < bound ∧ ∀ fault, (next fault).PublishesBelow rank bound

/-- All that subscribers publish ranks below what they have been told. -/
structure Conduct.Descends (conduct : Conduct α σ) (rank : Value → Nat) : Prop where
  filter : ∀ x filter, conduct.filter x = some filter → ∀ topic data,
    (filter topic data).PublishesBelow rank (rank data)
  handler : ∀ x data, (conduct.handler x data).PublishesBelow rank (rank data)

/-- A publishing of anything that ranks below a bound comes to an end. -/
def EndsBelow (rank : Value → Nat) (bound : Nat) (nested : Publisher α σ) : Prop :=
  ∀ topic data scene, rank data < bound → (nested topic data scene).isSome = true

variable {rank : Value → Nat} {bound : Nat}

theorem Program.run_ends (hnested : EndsBelow rank bound nested) {program : Program α σ}
    (hprogram : program.PublishesBelow rank bound) (scene : Scene α σ) :
    ∃ ran, program.run nested scene = some ran := by
  induction program generalizing scene with
  | finish v => exact ⟨_, rfl⟩
  | raise fault => exact ⟨_, rfl⟩
  | consult next ih => exact ih _ (hprogram _) _
  | remember memory next ih => exact ih hprogram _
  | subscribe topic x level next ih => exact ih _ (hprogram _) _
  | unsubscribe handle next ih => exact ih _ (hprogram _) _
  | publish topic data next ih =>
    obtain ⟨hrank, hnext⟩ := hprogram
    obtain ⟨published, hpublish⟩ := Option.isSome_iff_exists.1 (hnested topic data scene hrank)
    unfold Program.run
    simp only [hpublish]
    exact ih _ (hnext _) _

theorem call_ends {p : Publishing} (hconduct : conduct.Descends rank)
    (hnested : EndsBelow rank (rank p.data) nested) (s : Subscription α) (scene : Scene α σ) :
    ∃ ended, p.call conduct nested s scene = some ended := by
  obtain ⟨⟨mid, result⟩, hrun⟩ := Program.run_ends hnested (hconduct.handler s.handler p.data)
    (scene.see (.called p.number s p.data))
  unfold Publishing.call
  simp only [hrun]
  cases result <;> exact ⟨_, rfl⟩

theorem consider_ends {p : Publishing} (hconduct : conduct.Descends rank)
    (hnested : EndsBelow rank (rank p.data) nested) (s : Subscription α) (scene : Scene α σ) :
    ∃ ended, p.consider conduct nested s scene = some ended := by
  unfold Publishing.consider
  simp only
  split
  · exact call_ends hconduct hnested _ _
  · rename_i filter hfilter
    obtain ⟨⟨mid, result⟩, hrun⟩ := Program.run_ends hnested
      (hconduct.filter _ _ hfilter p.topic p.data) (scene.see (.considered p.number s))
    simp only [hrun]
    split
    · split
      · exact call_ends hconduct hnested _ _
      · exact ⟨_, rfl⟩
    · exact ⟨_, rfl⟩

theorem considerAll_ends {p : Publishing} (hconduct : conduct.Descends rank)
    (hnested : EndsBelow rank (rank p.data) nested) (subs : List (Subscription α)) (scene : Scene α σ) :
    ∃ ended, p.considerAll conduct nested subs scene = some ended := by
  induction subs generalizing scene with
  | nil => exact ⟨_, rfl⟩
  | cons s subs ih =>
    obtain ⟨⟨mid, fault⟩, hconsidered⟩ := consider_ends hconduct hnested s scene
    unfold Publishing.considerAll
    simp only [hconsidered]
    cases fault with
    | none => exact ih mid
    | some fault => exact ⟨_, rfl⟩

/-- Publishings end if what is published ranks lower each time. -/
theorem publish_ends (hconduct : conduct.Descends rank) (depth : Nat) :
    EndsBelow rank depth (publish conduct depth) := by
  induction depth with
  | zero => exact fun _ _ _ hrank => absurd hrank (Nat.not_lt_zero _)
  | succ depth ih =>
    intro topic data scene hrank
    have hnested : EndsBelow rank (rank data) (publish conduct depth) := fun topic data scene hlower =>
      ih topic data scene (Nat.lt_of_lt_of_le hlower (Nat.le_of_lt_succ hrank))
    obtain ⟨⟨last, fault⟩, hall⟩ := considerAll_ends (p := ⟨scene.trail.length, topic, data⟩)
      hconduct hnested (scene.bus.inOrder topic) (scene.see (.began scene.trail.length topic data))
    exact Option.isSome_iff_exists.2 ⟨_, publish_eq_some.2 ⟨last, hall, rfl⟩⟩

end

end Turnstile
