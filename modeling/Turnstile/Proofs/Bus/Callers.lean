-- Several callers of one bus, each of which does one small thing at a time: they may take turns at any
-- point, also in the middle of a publishing. A caller that is left alone does what its program does when it
-- is run.
import Mathlib.Logic.Relation
import Turnstile.Bus.Delivery

namespace Turnstile

variable {α σ : Type}

/-- What a caller is about to do: to go on with a program, to give back what one has come to, to consider
the subscriptions that a publishing has still to consider, or to end a publishing. -/
inductive Control (α σ : Type) where
  | run (program : Program α σ)
  | give (result : Except Fault Value)
  | visit (p : Publishing) (subs : List (Subscription α))
  | leave (p : Publishing) (fault : Option Fault)

/-- What a caller goes back to: a publishing that has asked a filter or called a handler, with the
subscriptions that come after it, or a program that has published. -/
inductive Frame (α σ : Type) where
  | asking (p : Publishing) (s : Subscription α) (rest : List (Subscription α))
  | calling (p : Publishing) (s : Subscription α) (rest : List (Subscription α))
  | publishing (next : Option Fault → Program α σ)

structure Caller (α σ : Type) where
  control : Control α σ
  frames : List (Frame α σ) := []

namespace Publishing

/-- The publishing goes on, unless a fault gets through. -/
def after (p : Publishing) (fault : Option Fault) (rest : List (Subscription α)) : Control α σ :=
  match fault with
  | none => .visit p rest
  | some fault => .leave p (some fault)

end Publishing

namespace Caller

/-- The handler of a subscription is called. -/
def toCall (conduct : Conduct α σ) (p : Publishing) (s : Subscription α)
    (rest : List (Subscription α)) (frames : List (Frame α σ)) (scene : Scene α σ) :
    Caller α σ × Scene α σ :=
  (⟨.run (conduct.handler s.handler p.data), .calling p s rest :: frames⟩,
    scene.see (.called p.number s p.data))

/-- A fault of a filter or a handler is contained. -/
def toContain (p : Publishing) (fault : Fault) (rest : List (Subscription α))
    (frames : List (Frame α σ)) (scene : Scene α σ) : Caller α σ × Scene α σ :=
  let (scene, fault) := p.contain scene fault
  (⟨p.after fault rest, frames⟩, scene)

/-- The next small thing that a caller does, and the scene that it leads to. There is none for a caller
that is through. -/
def step (conduct : Conduct α σ) (c : Caller α σ) (scene : Scene α σ) :
    Option (Caller α σ × Scene α σ) :=
  match c.control, c.frames with
  | .run (.finish v), frames => some (⟨.give (.ok v), frames⟩, scene)
  | .run (.raise fault), frames => some (⟨.give (.error fault), frames⟩, scene)
  | .run (.consult next), frames => some (⟨.run (next scene.memory), frames⟩, scene)
  | .run (.remember memory next), frames =>
    some (⟨.run next, frames⟩, { scene with memory := memory })
  | .run (.subscribe topic subscriber level next), frames =>
    let (scene, result) := scene.subscribe topic subscriber level
    some (⟨.run (next result), frames⟩, scene)
  | .run (.unsubscribe handle next), frames =>
    let (scene, found) := scene.unsubscribe handle
    some (⟨.run (next found), frames⟩, scene)
  | .run (.publish topic data next), frames =>
    let p : Publishing := ⟨scene.trail.length, topic, data⟩
    some (⟨.visit p (scene.bus.inOrder topic), .publishing next :: frames⟩,
      scene.see (.began p.number topic data))
  | .visit p [], frames => some (⟨.leave p none, frames⟩, scene)
  | .visit p (s :: rest), frames =>
    let scene := scene.see (.considered p.number s)
    match conduct.filter s.handler with
    | none => some (toCall conduct p s rest frames scene)
    | some filter => some (⟨.run (filter p.topic p.data), .asking p s rest :: frames⟩, scene)
  | .give result, .asking p s rest :: frames =>
    let scene := scene.see (.filtered p.number s result)
    match result with
    | .ok v =>
      if v.isTrue then some (toCall conduct p s rest frames scene)
      else some (⟨.visit p rest, frames⟩, scene)
    | .error fault => some (toContain p fault rest frames scene)
  | .give result, .calling p s rest :: frames =>
    let scene := scene.see (.handled p.number s result)
    match result with
    | .ok _ => some (⟨.visit p rest, frames⟩, scene)
    | .error fault => some (toContain p fault rest frames scene)
  | .leave p fault, .publishing next :: frames =>
    some (⟨.run (next fault), frames⟩, scene.see (.ended p.number fault))
  | .give _, .publishing _ :: _ | .give _, [] | .leave .., _ => none

end Caller

/-- The callers of a bus at some moment, and the scene that they share. -/
structure Moment (α σ : Type) where
  callers : List (Caller α σ) := []
  scene : Scene α σ

namespace Moment

/-- What may happen next: a new caller comes with a program, one of the callers does its next small thing,
or one that runs a program is interrupted there and goes on in some other way. -/
inductive Next (conduct : Conduct α σ) (m : Moment α σ) : Moment α σ → Prop where
  | comes (program : Program α σ) : Next conduct m ⟨m.callers ++ [⟨.run program, []⟩], m.scene⟩
  | moves {i : Nat} {c c' : Caller α σ} {scene' : Scene α σ} (hcaller : m.callers[i]? = some c)
    (hstep : c.step conduct m.scene = some (c', scene')) :
    Next conduct m ⟨m.callers.set i c', scene'⟩
  | diverted {i : Nat} {frames : List (Frame α σ)} {program : Program α σ}
    (hcaller : m.callers[i]? = some ⟨.run program, frames⟩) (program' : Program α σ) :
    Next conduct m ⟨m.callers.set i ⟨.run program', frames⟩, m.scene⟩

/-- What may happen in the course of time. -/
abbrev Reaches (conduct : Conduct α σ) : Moment α σ → Moment α σ → Prop :=
  Relation.ReflTransGen (Next conduct)

end Moment

/-! ## A caller that is left alone -/

/-- A caller that is left alone comes from one place to another. -/
abbrev Goes (conduct : Conduct α σ) : Caller α σ × Scene α σ → Caller α σ × Scene α σ → Prop :=
  Relation.ReflTransGen fun a b => a.1.step conduct a.2 = some b

/-- A caller that publishes goes on when it has come to where the publisher leads. -/
def Follows (conduct : Conduct α σ) (nested : Publisher α σ) : Prop :=
  ∀ topic data scene scene' fault, nested topic data scene = some (scene', fault) →
    ∀ next frames, Goes conduct (⟨.run (.publish topic data next), frames⟩, scene)
      (⟨.run (next fault), frames⟩, scene')

section
variable {conduct : Conduct α σ} {nested : Publisher α σ} {scene scene' : Scene α σ}
  {fault : Option Fault} {p : Publishing} {s : Subscription α}

theorem Goes.cons {a b c : Caller α σ × Scene α σ} (hstep : a.1.step conduct a.2 = some b)
    (hgoes : Goes conduct b c) : Goes conduct a c := .head hstep hgoes

theorem run_goes (hnested : Follows conduct nested) {program : Program α σ}
    {result : Except Fault Value} (hrun : program.run nested scene = some (scene', result))
    (frames : List (Frame α σ)) :
    Goes conduct (⟨.run program, frames⟩, scene) (⟨.give result, frames⟩, scene') := by
  induction program generalizing scene with
  | finish v =>
    obtain ⟨rfl, rfl⟩ := Prod.mk.inj (Option.some.inj hrun)
    exact .single rfl
  | raise fault =>
    obtain ⟨rfl, rfl⟩ := Prod.mk.inj (Option.some.inj hrun)
    exact .single rfl
  | consult next ih => exact Goes.cons rfl (ih _ hrun)
  | remember memory next ih => exact Goes.cons rfl (ih hrun)
  | subscribe topic x level next ih => exact Goes.cons rfl (ih _ hrun)
  | unsubscribe handle next ih => exact Goes.cons rfl (ih _ hrun)
  | publish topic data next ih =>
    unfold Program.run at hrun
    cases hpublish : nested topic data scene with
    | none => simp [hpublish] at hrun
    | some published =>
      obtain ⟨mid, fault⟩ := published
      simp only [hpublish] at hrun
      exact (hnested topic data scene mid fault hpublish next frames).trans (ih _ hrun)

/-- From where the handler is called to where the publishing goes on. -/
theorem call_goes (hnested : Follows conduct nested) (rest : List (Subscription α))
    (frames : List (Frame α σ)) (hcall : p.call conduct nested s scene = some (scene', fault)) :
    Goes conduct (Caller.toCall conduct p s rest frames scene) (⟨p.after fault rest, frames⟩, scene') := by
  unfold Publishing.call at hcall
  cases hrun : (conduct.handler s.handler p.data).run nested
      (scene.see (.called p.number s p.data)) with
  | none => simp [hrun] at hcall
  | some ran =>
    obtain ⟨mid, result⟩ := ran
    simp only [hrun] at hcall
    refine (run_goes hnested hrun (.calling p s rest :: frames)).trans (.single ?_)
    cases result with
    | ok v =>
      obtain ⟨rfl, rfl⟩ := Prod.mk.inj (Option.some.inj hcall)
      rfl
    | error f =>
      have hcontain : p.contain (mid.see (.handled p.number s (.error f))) f = (scene', fault) :=
        Option.some.inj hcall
      show some (Caller.toContain p f rest frames _) = _
      unfold Caller.toContain
      rw [hcontain]

theorem consider_goes (hnested : Follows conduct nested) (rest : List (Subscription α))
    (frames : List (Frame α σ)) (hconsider : p.consider conduct nested s scene = some (scene', fault)) :
    Goes conduct (⟨.visit p (s :: rest), frames⟩, scene) (⟨p.after fault rest, frames⟩, scene') := by
  unfold Publishing.consider at hconsider
  cases hfilter : conduct.filter s.handler with
  | none =>
    simp only [hfilter] at hconsider
    refine Goes.cons ?_ (call_goes hnested rest frames hconsider)
    simp only [Caller.step, hfilter]
  | some filter =>
    simp only [hfilter] at hconsider
    have hasks : Caller.step conduct ⟨.visit p (s :: rest), frames⟩ scene =
        some (⟨.run (filter p.topic p.data), .asking p s rest :: frames⟩,
          scene.see (.considered p.number s)) := by
      simp only [Caller.step, hfilter]
    cases hrun : (filter p.topic p.data).run nested (scene.see (.considered p.number s)) with
    | none => simp [hrun] at hconsider
    | some ran =>
      obtain ⟨mid, result⟩ := ran
      simp only [hrun] at hconsider
      refine Goes.cons hasks ((run_goes hnested hrun (.asking p s rest :: frames)).trans ?_)
      cases result with
      | error f =>
        have hcontain : p.contain (mid.see (.filtered p.number s (.error f))) f = (scene', fault) :=
          Option.some.inj hconsider
        refine .single ?_
        show some (Caller.toContain p f rest frames _) = _
        unfold Caller.toContain
        rw [hcontain]
      | ok v =>
        cases htrue : v.isTrue with
        | true =>
          simp only [htrue, if_true] at hconsider
          refine Goes.cons ?_ (call_goes hnested rest frames hconsider)
          simp only [Caller.step, htrue, if_true]
        | false =>
          simp only [htrue, Bool.false_eq_true, if_false] at hconsider
          obtain ⟨rfl, rfl⟩ := Prod.mk.inj (Option.some.inj hconsider)
          refine .single ?_
          simp only [Caller.step, htrue, Bool.false_eq_true, if_false]
          rfl

theorem considerAll_goes (hnested : Follows conduct nested) {subs : List (Subscription α)}
    (frames : List (Frame α σ))
    (hall : p.considerAll conduct nested subs scene = some (scene', fault)) :
    Goes conduct (⟨.visit p subs, frames⟩, scene) (⟨.leave p fault, frames⟩, scene') := by
  induction subs generalizing scene with
  | nil =>
    obtain ⟨rfl, rfl⟩ := Prod.mk.inj (Option.some.inj hall)
    exact .single rfl
  | cons s subs ih =>
    unfold Publishing.considerAll at hall
    cases hconsider : p.consider conduct nested s scene with
    | none => simp [hconsider] at hall
    | some considered =>
      obtain ⟨mid, fault'⟩ := considered
      have hfirst := consider_goes hnested subs frames hconsider
      simp only [hconsider] at hall
      cases fault' with
      | none => exact hfirst.trans (ih hall)
      | some f =>
        obtain ⟨rfl, rfl⟩ := Prod.mk.inj (Option.some.inj hall)
        exact hfirst

/-- However deep publishings may be nested. -/
theorem publish_follows (conduct : Conduct α σ) (depth : Nat) :
    Follows conduct (publish conduct depth) := by
  induction depth with
  | zero => nofun
  | succ depth ih =>
    intro topic data scene scene' fault h next frames
    obtain ⟨last, hall, rfl⟩ := publish_eq_some.1 h
    exact (Goes.cons rfl (considerAll_goes ih (.publishing next :: frames) hall)).trans
      (.single rfl)

/-- Whatever a caller comes to when it is left alone may happen among all callers. -/
theorem Goes.reaches {a b : Caller α σ × Scene α σ} (hgoes : Goes conduct a b)
    (callers : List (Caller α σ)) :
    Moment.Reaches conduct ⟨callers ++ [a.1], a.2⟩ ⟨callers ++ [b.1], b.2⟩ := by
  induction hgoes with
  | refl => exact .refl
  | @tail b c _ hstep ih =>
    have hset : (callers ++ [b.1]).set callers.length c.1 = callers ++ [c.1] := by simp
    rw [← hset]
    exact ih.tail (.moves List.getElem?_concat_length hstep)

/-- A program that is run without interruption is a caller that has come, and is through. -/
theorem run_reaches {program : Program α σ} {depth : Nat} {m : Moment α σ}
    {result : Except Fault Value}
    (hrun : program.run (publish conduct depth) m.scene = some (scene', result)) :
    Moment.Reaches conduct m ⟨m.callers ++ [⟨.give result, []⟩], scene'⟩ :=
  .head (.comes program) ((run_goes (publish_follows conduct depth) hrun []).reaches m.callers)

end

end Turnstile
