-- What happens on a bus, one thing after the other, and to whom it leads: the trail of a scene tells who is
-- present on each topic, and what each publishing has done. Programs of subscribers only add to it.
import Turnstile.Proofs.Bus.Present

namespace Turnstile

variable {α σ : Type}

/-! ## Who is present -/

/-- Who is present on each topic after something has happened. -/
def Occurrence.changes (o : Occurrence α) (present : String → List (Subscription α)) :
    String → List (Subscription α) :=
  match o with
  | .subscribed topic s => fun t => if t = topic then present t ++ [s] else present t
  | .unsubscribed handle _ => fun t =>
    if t = handle.topic then (present t).filter (·.id ≠ handle.id) else present t
  | .refused .. | .began .. | .considered .. | .filtered .. | .called .. | .handled .. | .logged ..
  | .ended .. => present

/-- Who is present on each topic after all of a trail has happened. -/
def presentAfter (present : String → List (Subscription α)) (trail : List (Occurrence α)) :
    String → List (Subscription α) :=
  trail.foldl (fun present o => o.changes present) present

theorem presentAfter_append (present : String → List (Subscription α))
    (trail more : List (Occurrence α)) :
    presentAfter present (trail ++ more) = presentAfter (presentAfter present trail) more :=
  List.foldl_append

/-- The number of the publishing that does something. -/
def Occurrence.number? : Occurrence α → Option Nat
  | .began n .. | .considered n _ | .filtered n .. | .called n .. | .handled n .. | .logged n _
  | .ended n _ => some n
  | .subscribed .. | .refused .. | .unsubscribed .. => none

/-- What a publishing does in a trail, by its number. -/
def bearing (n : Nat) (trail : List (Occurrence α)) : List (Occurrence α) :=
  trail.filter fun o => o.number? = some n

theorem bearing_append (n : Nat) (trail more : List (Occurrence α)) :
    bearing n (trail ++ more) = bearing n trail ++ bearing n more := List.filter_append ..

theorem bearing_eq_nil {n : Nat} {trail : List (Occurrence α)} :
    bearing n trail = [] ↔ ∀ o ∈ trail, o.number? ≠ some n := by
  simp [bearing, List.filter_eq_nil_iff]

/-- What a publishing does changes nothing about who is present. -/
theorem presentAfter_numbered {present : String → List (Subscription α)}
    {trail : List (Occurrence α)} (h : ∀ o ∈ trail, o.number?.isSome = true) :
    presentAfter present trail = present := by
  induction trail generalizing present with
  | nil => rfl
  | cons o trail ih =>
    obtain ⟨ho, htrail⟩ := List.forall_mem_cons.1 h
    have hsame : o.changes present = present := by
      cases o <;> first | rfl | cases ho
    show presentAfter (o.changes present) trail = present
    rw [hsame]
    exact ih htrail

/-! ## Visits -/

/-- What a publishing does about a subscription: what the filter comes to, if there is one, and what the
handler comes to, if it is called. -/
structure Visit (α : Type) where
  subscription : Subscription α
  filtered : Option (Except Fault Value)
  handled : Option (Except Fault Value)

/-- The fault that something came to. -/
def raisedIn : Option (Except Fault Value) → List Fault
  | some (.error fault) => [fault]
  | some (.ok _) | none => []

/-- The entries that the log gets for some faults, if there is a log. -/
def Publishing.entries (p : Publishing) (logs : Bool) (faults : List Fault) :
    List (Occurrence α) :=
  if logs then faults.map fun fault => .logged p.number (faultEntry p.topic fault) else []

namespace Visit

/-- There is no filter, or it has returned something true. -/
def LetsThrough (v : Visit α) : Prop :=
  v.filtered = none ∨ ∃ w, v.filtered = some (.ok w) ∧ w.isTrue = true

/-- The faults of the filter and the handler. -/
def faults (v : Visit α) : List Fault := raisedIn v.filtered ++ raisedIn v.handled

/-- All that a publishing does about a subscription, in its order: each fault is logged once. -/
def occurrences (p : Publishing) (logs : Bool) (v : Visit α) : List (Occurrence α) :=
  .considered p.number v.subscription ::
    (v.filtered.toList.map fun result => .filtered p.number v.subscription result) ++
    (v.handled.toList.flatMap fun result =>
      [.called p.number v.subscription p.data, .handled p.number v.subscription result]) ++
    p.entries logs v.faults

/-- The filter is asked if there is one, and the handler is called exactly if there is none or it has
returned something true. -/
structure Fair (conduct : Conduct α σ) (v : Visit α) : Prop where
  asked : v.filtered.isSome = (conduct.filter v.subscription.handler).isSome
  called : v.handled.isSome = true ↔ v.LetsThrough

end Visit

/-- A publishing has visited all who were present when it began, each in its turn, and has ended without
a fault. -/
def Publishing.Delivers (p : Publishing) (conduct : Conduct α σ) (logs : Bool)
    (present : List (Subscription α)) (after : List (Occurrence α)) : Prop :=
  ∃ visits : List (Visit α), ByPriority present (visits.map (·.subscription)) ∧
    (∀ v ∈ visits, v.Fair conduct) ∧
    bearing p.number after = visits.flatMap (·.occurrences p logs) ++ [.ended p.number none]

/-- Every publishing that begins in a trail, nested or not, bears the number of what has happened before,
and visits all who are present at this moment. -/
def EachDelivers (conduct : Conduct α σ) (logs : Bool) (present : String → List (Subscription α))
    (base : Nat) (trail : List (Occurrence α)) : Prop :=
  ∀ before n topic data after, trail = before ++ .began n topic data :: after →
    n = base + before.length ∧ (⟨n, topic, data⟩ : Publishing).Delivers conduct logs
      (presentAfter present before topic) after

theorem Publishing.Delivers.append {p : Publishing} {conduct : Conduct α σ} {logs : Bool}
    {present : List (Subscription α)} {after more : List (Occurrence α)}
    (h : p.Delivers conduct logs present after) (hmore : bearing p.number more = []) :
    p.Delivers conduct logs present (after ++ more) := by
  obtain ⟨visits, hpresent, hfair, hafter⟩ := h
  exact ⟨visits, hpresent, hfair, by rw [bearing_append, hafter, hmore, List.append_nil]⟩

section
variable {conduct : Conduct α σ} {logs : Bool} {present : String → List (Subscription α)} {base : Nat}
  {trail more : List (Occurrence α)}

theorem eachDelivers_of_none (h : ∀ n topic data, .began n topic data ∉ trail) :
    EachDelivers conduct logs present base trail := by
  rintro before n topic data after rfl
  exact absurd (List.mem_append_right _ List.mem_cons_self) (h n topic data)

theorem EachDelivers.append (h : EachDelivers conduct logs present base trail)
    (hmore : EachDelivers conduct logs (presentAfter present trail) (base + trail.length) more)
    (hlate : ∀ o ∈ more, ∀ n, o.number? = some n → n < base ∨ base + trail.length ≤ n) :
    EachDelivers conduct logs present base (trail ++ more) := by
  intro before n topic data after heq
  rcases List.append_eq_append_iff.1 heq with ⟨middle, rfl, hmiddle⟩ | ⟨middle, htrail, hafter⟩
  · obtain ⟨hn, hdelivers⟩ := hmore middle n topic data after hmiddle
    rw [presentAfter_append]
    exact ⟨by rw [hn, List.length_append, Nat.add_assoc], hdelivers⟩
  · cases middle with
    | nil =>
      obtain rfl := htrail.trans (List.append_nil _)
      obtain ⟨hn, hdelivers⟩ := hmore [] n topic data after hafter.symm
      exact ⟨hn, hdelivers⟩
    | cons o middle =>
      obtain ⟨rfl, rfl⟩ := List.cons.inj hafter
      obtain ⟨hn, hdelivers⟩ := h before n topic data middle htrail
      refine ⟨hn, hdelivers.append (bearing_eq_nil.2 fun o ho hbears => ?_)⟩
      have hlength : trail.length = before.length + (middle.length + 1) := by
        rw [htrail, List.length_append, List.length_cons]
      rcases hlate o ho n hbears with hless | hless <;> omega

end

/-! ## What goes on in a scene -/

/-- One scene has come from another one: more has happened, to whom the topics owe who is present now,
and every publishing that has begun meanwhile has ended as it should. If a publishing is under way in the
scene, `own` is what it has done itself. -/
structure Proceeds (conduct : Conduct α σ) (under : Option Nat) (scene scene' : Scene α σ)
    (more own : List (Occurrence α)) : Prop where
  used : ∀ n, under = some n → n < scene.trail.length
  trail : scene'.trail = scene.trail ++ more
  logs : scene'.logs = scene.logs
  wellFormed : scene'.bus.WellFormed
  present : scene'.bus.onTopic = presentAfter scene.bus.onTopic more
  numbers : ∀ o ∈ more, ∀ n, o.number? = some n → under = some n ∨ scene.trail.length ≤ n
  own : ∀ n, under = some n → bearing n more = own
  each : EachDelivers conduct scene.logs scene.bus.onTopic scene.trail.length more

namespace Scene

/-- Some things have happened that change nothing else. -/
def seeAll (scene : Scene α σ) (os : List (Occurrence α)) : Scene α σ :=
  { scene with trail := scene.trail ++ os }

end Scene

section
variable {conduct : Conduct α σ} {under : Option Nat} {scene scene' scene'' : Scene α σ}
  {more more' own own' : List (Occurrence α)}

theorem Proceeds.trans (h : Proceeds conduct under scene scene' more own)
    (h' : Proceeds conduct under scene' scene'' more' own') :
    Proceeds conduct under scene scene'' (more ++ more') (own ++ own') := by
  have hlength : scene'.trail.length = scene.trail.length + more.length := by
    rw [h.trail, List.length_append]
  have hlate : ∀ o ∈ more', ∀ n, o.number? = some n →
      under = some n ∨ scene.trail.length + more.length ≤ n := by
    intro o ho n hn
    rw [← hlength]
    exact h'.numbers o ho n hn
  refine ⟨h.used, ?_, h'.logs.trans h.logs, h'.wellFormed, ?_, fun o ho n hn => ?_, fun n hn => ?_, ?_⟩
  · rw [h'.trail, h.trail, List.append_assoc]
  · rw [h'.present, h.present, presentAfter_append]
  · rcases List.mem_append.1 ho with ho | ho
    · exact h.numbers o ho n hn
    · exact (hlate o ho n hn).imp_right fun hle => Nat.le_trans (Nat.le_add_right _ _) hle
  · rw [bearing_append, h.own n hn, h'.own n hn]
  · have heach := h'.each
    rw [h.logs, h.present, hlength] at heach
    exact h.each.append heach fun o ho n hn => (hlate o ho n hn).imp_left (h.used n)

/-- What happens by the way: nobody publishes. -/
theorem proceeds_see (hused : ∀ n, under = some n → n < scene.trail.length) {o : Occurrence α}
    {bus : Bus α} (hbus : bus.WellFormed) (hpresent : bus.onTopic = o.changes scene.bus.onTopic)
    (hnumber : o.number? = none) :
    Proceeds conduct under scene (({ scene with bus := bus } : Scene α σ).see o) [o] [] := by
  refine ⟨hused, rfl, rfl, hbus, hpresent, ?_, fun n _ => ?_, ?_⟩
  · simp [hnumber]
  · simp [bearing, hnumber]
  · refine eachDelivers_of_none fun n topic data hmem => ?_
    rw [← List.mem_singleton.1 hmem] at hnumber
    cases hnumber

theorem proceeds_refl (hused : ∀ n, under = some n → n < scene.trail.length)
    (hbus : scene.bus.WellFormed) : Proceeds conduct under scene scene [] [] :=
  ⟨hused, (List.append_nil _).symm, rfl, hbus, rfl, by simp, fun _ _ => rfl,
    eachDelivers_of_none fun _ _ _ => List.not_mem_nil⟩

/-- What the publishing under way does itself. -/
theorem proceeds_own {n : Nat} (hused : n < scene.trail.length) (hbus : scene.bus.WellFormed)
    (hown : ∀ o ∈ own, o.number? = some n ∧ ∀ n topic data, o ≠ .began n topic data) :
    Proceeds conduct (some n) scene (scene.seeAll own) own own := by
  refine ⟨?_, rfl, rfl, hbus, ?_, fun o ho m hm => .inl ?_, ?_, ?_⟩
  · rintro m ⟨⟩
    exact hused
  · exact (presentAfter_numbered fun o ho => by rw [(hown o ho).1]; rfl).symm
  · rw [← (hown o ho).1, hm]
  · rintro m ⟨⟩
    exact List.filter_eq_self.2 fun o ho => decide_eq_true (hown o ho).1
  · exact eachDelivers_of_none fun m topic data hmem => (hown _ hmem).2 m topic data rfl

end

/-! ## Programs -/

/-- A program raises no cancellation, unless it is given one by a publishing. -/
def Program.NeverCancels : Program α σ → Prop
  | .finish _ => True
  | .raise fault => fault.isCancellation = false
  | .consult next => ∀ memory, (next memory).NeverCancels
  | .remember _ next => next.NeverCancels
  | .subscribe _ _ _ next => ∀ result : Except Fault Handle,
    (∀ fault, result = .error fault → fault.isCancellation = false) → (next result).NeverCancels
  | .unsubscribe _ next => ∀ found, (next found).NeverCancels
  | .publish _ _ next => (next none).NeverCancels

/-- No subscriber raises a cancellation. -/
structure Conduct.NeverCancels (conduct : Conduct α σ) : Prop where
  filter : ∀ x filter, conduct.filter x = some filter → ∀ topic data, (filter topic data).NeverCancels
  handler : ∀ x data, (conduct.handler x data).NeverCancels

/-- What is published through a publisher does what it should, whatever is under way. -/
def Keeps (conduct : Conduct α σ) (nested : Publisher α σ) : Prop :=
  ∀ under topic data scene scene' fault, scene.bus.WellFormed →
    (∀ n, under = some n → n < scene.trail.length) →
    nested topic data scene = some (scene', fault) →
      fault = none ∧ ∃ more, Proceeds conduct under scene scene' more []

section
variable {conduct : Conduct α σ} {nested : Publisher α σ} {under : Option Nat}
  {scene scene' : Scene α σ}

theorem priority_fault {level : Value} {fault : Fault} (h : Bus.priority level = .error fault) :
    fault.isCancellation = false := by
  unfold Bus.priority at h
  split at h
  · split at h
    · split at h <;> cases h
      rfl
    · cases h
      rfl
  · cases h
    rfl

theorem subscribe_proceeds (conduct : Conduct α σ) (hbus : scene.bus.WellFormed)
    (hused : ∀ n, under = some n → n < scene.trail.length) (topic : String) (x : α) (level : Value) :
    (∃ more, Proceeds conduct under scene (scene.subscribe topic x level).1 more []) ∧
      ∀ fault, (scene.subscribe topic x level).2 = .error fault → fault.isCancellation = false := by
  unfold Scene.subscribe
  cases hlevel : Bus.priority level with
  | error fault =>
    refine ⟨⟨_, proceeds_see hused hbus rfl rfl⟩, ?_⟩
    rintro _ ⟨⟩
    exact priority_fault hlevel
  | ok q =>
    refine ⟨⟨_, proceeds_see hused (hbus.enroll topic q x) ?_ rfl⟩, nofun⟩
    funext t
    exact Bus.onTopic_enroll _ _ _ _ _

theorem unsubscribe_proceeds (conduct : Conduct α σ) (hbus : scene.bus.WellFormed)
    (hused : ∀ n, under = some n → n < scene.trail.length) (handle : Handle) :
    ∃ more, Proceeds conduct under scene (scene.unsubscribe handle).1 more [] := by
  refine ⟨_, proceeds_see hused (hbus.unsubscribe handle) ?_ rfl⟩
  funext t
  exact Bus.onTopic_unsubscribe hbus handle t

theorem Proceeds.used_after {more own : List (Occurrence α)}
    (h : Proceeds conduct under scene scene' more own) :
    ∀ n, under = some n → n < scene'.trail.length := by
  intro n hn
  rw [h.trail, List.length_append]
  exact Nat.lt_add_right _ (h.used n hn)

/-- Whatever a program does, the scene that it leads to has come from the one that it was run in. -/
theorem Program.run_proceeds (hnested : Keeps conduct nested) {program : Program α σ}
    (hprogram : program.NeverCancels) (hbus : scene.bus.WellFormed)
    (hused : ∀ n, under = some n → n < scene.trail.length) {result : Except Fault Value}
    (hrun : program.run nested scene = some (scene', result)) :
    (∃ more, Proceeds conduct under scene scene' more []) ∧
      ∀ fault, result = .error fault → fault.isCancellation = false := by
  induction program generalizing scene with
  | finish v =>
    obtain ⟨rfl, rfl⟩ := Prod.mk.inj (Option.some.inj hrun)
    exact ⟨⟨_, proceeds_refl hused hbus⟩, nofun⟩
  | raise fault =>
    obtain ⟨rfl, rfl⟩ := Prod.mk.inj (Option.some.inj hrun)
    refine ⟨⟨_, proceeds_refl hused hbus⟩, ?_⟩
    rintro _ ⟨⟩
    exact hprogram
  | consult next ih => exact ih _ (hprogram _) hbus hused hrun
  | remember memory next ih =>
    have hsame : ({ scene with memory := memory } : Scene α σ).bus.WellFormed := hbus
    obtain ⟨⟨more, hmore⟩, hresult⟩ := ih hprogram hsame hused hrun
    exact ⟨⟨more, hmore.used, hmore.trail, hmore.logs, hmore.wellFormed, hmore.present,
      hmore.numbers, hmore.own, hmore.each⟩, hresult⟩
  | subscribe topic x level next ih =>
    obtain ⟨⟨first, hfirst⟩, hfault⟩ := subscribe_proceeds conduct hbus hused topic x level
    obtain ⟨⟨more, hmore⟩, hresult⟩ :=
      ih _ (hprogram _ hfault) hfirst.wellFormed hfirst.used_after hrun
    exact ⟨⟨_, hfirst.trans hmore⟩, hresult⟩
  | unsubscribe handle next ih =>
    obtain ⟨first, hfirst⟩ := unsubscribe_proceeds conduct hbus hused handle
    obtain ⟨⟨more, hmore⟩, hresult⟩ := ih _ (hprogram _) hfirst.wellFormed hfirst.used_after hrun
    exact ⟨⟨_, hfirst.trans hmore⟩, hresult⟩
  | publish topic data next ih =>
    unfold Program.run at hrun
    cases hpublish : nested topic data scene with
    | none => simp [hpublish] at hrun
    | some published =>
      obtain ⟨mid, fault⟩ := published
      simp only [hpublish] at hrun
      obtain ⟨rfl, first, hfirst⟩ := hnested under topic data scene mid fault hbus hused hpublish
      obtain ⟨⟨more, hmore⟩, hresult⟩ := ih _ hprogram hfirst.wellFormed hfirst.used_after hrun
      exact ⟨⟨_, hfirst.trans hmore⟩, hresult⟩

end

end Turnstile
