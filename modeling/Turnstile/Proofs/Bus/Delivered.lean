-- What a publishing does, whatever the subscribers do meanwhile: it considers all who are present when it
-- begins, each once and by rising priority, calls those whose filter lets it through, and logs the faults.
-- Those who come or go meanwhile make a difference for what is published afterwards, and be it at once.
import Mathlib
import Turnstile.Proofs.Bus.Depth
import Turnstile.Proofs.Bus.Visits

namespace Turnstile

variable {α σ : Type}

/-! ## Publishings -/

section
variable {conduct : Conduct α σ} {nested : Publisher α σ} {under : Option Nat}
  {scene scene' : Scene α σ} {topic : String} {data : Value} {fault : Option Fault}

/-- What is done by a publishing that begins in a scene is, for whatever is under way there, something
that happens by the way. -/
theorem Proceeds.published {more : List (Occurrence α)} {visits : List (Visit α)}
    (hused : ∀ n, under = some n → n < scene.trail.length)
    (h : Proceeds conduct (some scene.trail.length)
      (scene.see (.began scene.trail.length topic data)) scene' more
      (visits.flatMap (·.occurrences ⟨scene.trail.length, topic, data⟩ scene.logs) ++
        [.ended scene.trail.length none]))
    (hpresent : ByPriority (scene.bus.onTopic topic) (visits.map (·.subscription)))
    (hfair : ∀ v ∈ visits, v.Fair conduct) :
    Proceeds conduct under scene scene' (.began scene.trail.length topic data :: more) [] := by
  have hlate : ∀ o ∈ Occurrence.began scene.trail.length topic data :: more, ∀ n,
      o.number? = some n → scene.trail.length ≤ n := by
    intro o ho n hn
    rcases List.mem_cons.1 ho with rfl | ho
    · exact (Option.some.inj hn).le
    · rcases h.numbers o ho n hn with heq | hle
      · exact (Option.some.inj heq).le
      · exact Nat.le_trans (List.length_append ▸ Nat.le_add_right _ _) hle
  refine ⟨hused, ?_, h.logs, h.wellFormed, h.present, fun o ho n hn => .inr (hlate o ho n hn),
    fun n hn => ?_, ?_⟩
  · rw [h.trail]
    exact List.append_assoc ..
  · refine bearing_eq_nil.2 fun o ho hbears => ?_
    exact absurd (hlate o ho n hbears) (Nat.not_le_of_lt (hused n hn))
  · intro before n topic' data' after heq
    cases before with
    | nil =>
      obtain ⟨⟨rfl, rfl, rfl⟩, rfl⟩ := List.cons.inj heq
      exact ⟨rfl, visits, hpresent, hfair, h.own _ rfl⟩
    | cons o before =>
      obtain ⟨rfl, hmore⟩ := List.cons.inj heq
      obtain ⟨hn, hdelivers⟩ := h.each before n topic' data' after hmore
      refine ⟨?_, hdelivers⟩
      rw [hn, List.length_cons, Nat.add_comm before.length, ← Nat.add_assoc]
      exact congrArg (· + before.length) List.length_append

/-- What a publishing has done when it has ended. -/
structure Delivery (conduct : Conduct α σ) (depth : Nat) (topic : String) (data : Value)
    (scene scene' : Scene α σ) : Prop where
  /-- All who were present when it began have been visited once, by rising priority and in the order of
  their subscriptions. In each visit the filter is run, if there is one, and the handler is run exactly
  if there is no filter or it has returned something true; a fault is logged once, if there is a log. The
  visits follow one another, whatever comes of them. -/
  visited : ∃ (visits : List (Visit α)) (last : Scene α σ),
    ByPriority (scene.bus.onTopic topic) (visits.map (·.subscription)) ∧
    (visits.map (·.subscription.id)).Nodup ∧ (∀ v ∈ visits, v.Fair conduct) ∧
    TakesAll ⟨scene.trail.length, topic, data⟩ conduct (publish conduct depth) visits
      (scene.see (.began scene.trail.length topic data)) last ∧
    scene' = last.see (.ended scene.trail.length none)
  /-- So it is with every publishing that has begun meanwhile: present are those to whom everything leads
  that has happened until then. The same is true of whatever is published next. -/
  followed : ∃ more, scene'.trail = scene.trail ++ more ∧
    scene'.bus.onTopic = presentAfter scene.bus.onTopic more ∧
    EachDelivers conduct scene.logs scene.bus.onTopic scene.trail.length more
  wellFormed : scene'.bus.WellFormed
  logs : scene'.logs = scene.logs

theorem publish_delivers (hconduct : conduct.NeverCancels) {depth : Nat}
    (hnested : Keeps conduct (publish conduct depth)) (hbus : scene.bus.WellFormed)
    (h : publish conduct (depth + 1) topic data scene = some (scene', fault)) :
    fault = none ∧ Delivery conduct depth topic data scene scene' ∧
      ∀ under : Option Nat, (∀ n, under = some n → n < scene.trail.length) →
        ∃ more, Proceeds conduct under scene scene' more [] := by
  obtain ⟨last, hall, rfl⟩ := publish_eq_some.1 h
  have hused : scene.trail.length < (scene.see (.began scene.trail.length topic data)).trail.length :=
    List.length_append ▸ Nat.lt_succ_self _
  have hbegan : (scene.see (.began scene.trail.length topic data)).bus.WellFormed := hbus
  obtain ⟨rfl, visits, hsubs, htakes, ⟨more, hmore⟩, hfair⟩ :=
    considerAll_visits hconduct hnested (p := ⟨scene.trail.length, topic, data⟩) hbegan hused hall
  have hpresent : ByPriority (scene.bus.onTopic topic) (visits.map (·.subscription)) :=
    hsubs ▸ byPriority_inOrder _ _
  have hended : Proceeds conduct (some scene.trail.length) last
      (last.see (.ended scene.trail.length none)) _ _ :=
    proceeds_one (p := ⟨scene.trail.length, topic, data⟩) (hmore.used_after _ rfl) hmore.wellFormed
      rfl nofun
  have hproceeds : ∀ under : Option Nat, (∀ n, under = some n → n < scene.trail.length) →
      Proceeds conduct under scene (last.see (.ended scene.trail.length none)) _ [] :=
    fun _ hused => (hmore.trans hended).published hused hpresent hfair
  have hnobody := hproceeds none nofun
  have hnodup : (visits.map (·.subscription.id)).Nodup := by
    have hids := hpresent.nodup (hbus.nodup topic)
    rwa [List.map_map] at hids
  exact ⟨rfl, ⟨⟨visits, last, hpresent, hnodup, hfair, htakes, rfl⟩,
    ⟨_, hnobody.trail, hnobody.present, hnobody.each⟩, hnobody.wellFormed, hnobody.logs⟩,
    fun under hused => ⟨_, hproceeds under hused⟩⟩

/-- However deep publishings are nested. -/
theorem keeps_publish (hconduct : conduct.NeverCancels) (depth : Nat) :
    Keeps conduct (publish conduct depth) := by
  intro under topic data scene scene' fault hbus hused h
  induction depth generalizing under topic data scene scene' fault with
  | zero => cases h
  | succ depth ih =>
    obtain ⟨hfault, -, hproceeds⟩ := publish_delivers hconduct ih hbus h
    exact ⟨hfault, hproceeds under hused⟩

end

/-! ## The law -/

/-- Whatever subscribers do when they are asked and called, as long as they raise no cancellations: if
publishings are not nested without end, a publishing ends without a fault and has visited all who were
present when it began, and so has every one that was nested in it. It makes no difference how deep
publishings may be nested beyond that. They are not nested without end if what subscribers publish ranks
lower than what they have been told. -/
theorem a_publishing_visits_all_who_are_present (conduct : Conduct α σ)
    (hconduct : conduct.NeverCancels) (scene : Scene α σ) (hbus : scene.bus.WellFormed)
    (topic : String) (data : Value) :
    (∀ depth scene' fault, publish conduct (depth + 1) topic data scene = some (scene', fault) →
      fault = none ∧ Delivery conduct depth topic data scene scene' ∧
        ∀ more, publish conduct (depth + 1 + more) topic data scene = some (scene', none)) ∧
    ∀ rank, conduct.Descends rank →
      ∃ scene', publish conduct (rank data + 1) topic data scene = some (scene', none) := by
  have hends : ∀ depth scene' fault, publish conduct (depth + 1) topic data scene =
      some (scene', fault) → fault = none ∧ Delivery conduct depth topic data scene scene' ∧
        ∀ more, publish conduct (depth + 1 + more) topic data scene = some (scene', none) := by
    intro depth scene' fault h
    obtain ⟨rfl, hdelivery, -⟩ :=
      publish_delivers hconduct (keeps_publish hconduct depth) hbus h
    exact ⟨rfl, hdelivery, publish_deeper h⟩
  refine ⟨hends, fun rank hrank => ?_⟩
  obtain ⟨⟨scene', fault⟩, h⟩ := Option.isSome_iff_exists.1
    (publish_ends hrank (rank data + 1) topic data scene (Nat.lt_succ_self _))
  obtain ⟨rfl, -⟩ := hends _ _ _ h
  exact ⟨scene', h⟩

/-- Three subscribers and a fourth one: the first, when it is told one, sends the last away, fetches the
fourth and publishes a zero; the second raises unless its filter keeps it from being told. -/
def restless : Conduct Nat Unit where
  filter x := if x = 1 then some fun _ data => .finish data else none
  handler x data :=
    match x, data with
    | 0, .int 1 => .unsubscribe ⟨"t", 2⟩ fun _ => .subscribe "t" 3 (.int 5) fun _ =>
      .publish "t" (.int 0) fun _ => .finish .null
    | 1, _ => .raise (.plain .runtime "boom")
    | _, _ => .finish .null

def Occurrence.caller? : Occurrence Nat → Option Nat
  | .called _ s _ => some s.handler
  | _ => none

/-- The one who is sent away is told the one all the same, but not the zero; the fourth is told only the
zero; and the fault of the second keeps nothing from the last. -/
theorem a_publishing_goes_on_whoever_comes_and_goes :
    let bus := ((((({} : Bus Nat).enroll "t" 2 1).1).enroll "t" 1 0).1.enroll "t" 2 2).1
    let scene : Scene Nat Unit := { bus := bus, memory := (), logs := false }
    restless.NeverCancels ∧ scene.bus.WellFormed ∧
      ∃ scene', publish restless 2 "t" (.int 1) scene = some (scene', none) ∧
        Delivery restless 1 "t" (.int 1) scene scene' ∧
        scene'.trail.filterMap Occurrence.caller? = [0, 0, 3, 1, 2] := by
  intro bus scene
  have hcancels : restless.NeverCancels := by
    refine ⟨fun x filter hfilter topic data => ?_, fun x data => ?_⟩
    · unfold restless at hfilter
      simp only at hfilter
      split at hfilter
      · cases hfilter
        trivial
      · cases hfilter
    · unfold restless
      simp only
      split
      · exact fun _ _ _ => trivial
      · rfl
      · trivial
  have hbus : scene.bus.WellFormed :=
    ((Bus.wellFormed_empty.enroll "t" 2 1).enroll "t" 1 0).enroll "t" 2 2
  obtain ⟨hends, hreturns⟩ :=
    a_publishing_visits_all_who_are_present restless hcancels scene hbus "t" (.int 1)
  have hrank : restless.Descends fun data => if data.same (.int 1) then 1 else 0 := by
    refine ⟨fun x filter hfilter topic data => ?_, fun x data => ?_⟩
    · unfold restless at hfilter
      simp only at hfilter
      split at hfilter
      · cases hfilter
        trivial
      · cases hfilter
    · by_cases hone : x = 0 ∧ data = .int 1
      · obtain ⟨rfl, rfl⟩ := hone
        exact fun _ _ => ⟨by decide, fun _ => trivial⟩
      · generalize (if data.same (.int 1) then 1 else 0) = bound
        unfold restless
        simp only
        split
        · exact absurd ⟨rfl, rfl⟩ hone
        · trivial
        · trivial
  obtain ⟨scene', hpublish⟩ := hreturns _ hrank
  refine ⟨hcancels, hbus, scene', hpublish, (hends _ _ _ hpublish).2.1, ?_⟩
  have hcalled : (publish restless 2 "t" (.int 1) scene).map
      (fun ended => ended.1.trail.filterMap Occurrence.caller?) = some [0, 0, 3, 1, 2] := by
    cbv
  have hsame : publish restless 2 "t" (.int 1) scene = some (scene', none) := hpublish
  rw [hsame] at hcalled
  exact Option.some.inj hcalled

end Turnstile
